import ArbitroRaft.Effect.Propose

/-!
# Heartbeats and snapshot streaming as effects

A tick sends to one peer after another and goes on when a send fails, so the
chain of effects has to say that the node still leads when the next peer's turn
comes: `SameLead` holds from one bare heartbeat to the next.
-/

namespace ArbitroRaft

open Library

variable {sc : Scope} {n : RaftNode}

/-- What the loop over the peers relies on. -/
def SameLead (n n' : RaftNode) : Prop :=
  n'.config = n.config ∧ n'.softState = n.softState ∧ n'.scratchPeers = n.scratchPeers

instance : Std.Refl SameLead where
  refl _ := ⟨rfl, rfl, rfl⟩

instance : IsTrans RaftNode SameLead where
  trans _ _ _ h h' := ⟨h'.1.trans h.1, h'.2.1.trans h.2.1, h'.2.2.trans h.2.2⟩

theorem Touched.sameLead {n n' : RaftNode} (h : Touched n n') : SameLead n n' := by
  obtain ⟨a, l, rfl⟩ := h
  exact ⟨rfl, rfl, rfl⟩

theorem sendMessage_sameLead (peer : PeerId) (msg : RaftMessage) :
    Emits SameLead (sendMessage peer msg) n (fun _ _ => True) :=
  (sendMessage_touched peer msg).weaken fun _ h => h.sameLead

theorem sendAppendAttempt_sameLead (peer : PeerId) :
    Emits SameLead (sendAppendAttempt peer) n (fun _ _ => True) :=
  (sendAppendAttempt_touched peer).weaken fun _ h => h.sameLead

theorem buildHeartbeatWire_sameLead (peer : PeerId) :
    Emits SameLead (buildHeartbeatWire peer) n (fun _ _ => True) := by
  unfold buildHeartbeatWire
  refine .read ?_
  split
  · refine .updateSeq ?_ (((appendPrevForPeer_touched peer).weaken fun _ h => h.sameLead).seq ?_)
    · unfold RaftNode.ensureLeaderProgressInitialized
      split <;> exact ⟨rfl, rfl, rfl⟩
    · rintro ⟨prevIndex, prevTerm, nextIndex⟩ n' - -
      exact .read (.ret trivial)
  · exact .ret trivial

/-- Effects through which leadership stands. -/
def Steady (sc : Scope) (n n' : RaftNode) : Prop := Moves sc n n' ∧ SameLead n n'

instance (sc : Scope) : Std.Refl (Steady sc) where
  refl n := ⟨refl_of (Moves sc) n, refl_of SameLead n⟩

instance (sc : Scope) : IsTrans RaftNode (Steady sc) where
  trans _ _ _ h h' := ⟨trans_of (Moves sc) h.1 h'.1, trans_of SameLead h.2 h'.2⟩

theorem Steady.of_emits {α : Type} {m : RaftM α} {Q : α → RaftNode → Prop}
    (h : Emits (Moves sc) m n Q) (h' : Emits SameLead m n (fun _ _ => True)) :
    Emits (Steady sc) m n Q :=
  (h.and h').mono fun _ _ _ hq => hq.1

/-! ## Bare heartbeats -/

theorem buildHeartbeatWire_emits (peer : PeerId) :
    Emits (Moves sc) (buildHeartbeatWire peer) n
      (fun r n' => ∀ header, r = some header → n'.isLeader = true ∧
        ∃ prev t, header = n'.appendHeader prev t ∧ TermKnown n' prev t) := by
  unfold buildHeartbeatWire
  refine .read ?_
  split
  · rename_i hl
    refine .updateSeq (.ensureProgress hl) ((appendPrevForPeer_emits peer).seq ?_)
    rintro ⟨prevIndex, prevTerm, nextIndex⟩ n' - ⟨hw, -, ht⟩
    refine .read (.ret ?_)
    rintro header h
    cases h
    refine ⟨?_, prevIndex, prevTerm, rfl, ht⟩
    obtain ⟨-, -, hsoft, -, -⟩ := ensureProgress_same n
    obtain ⟨a, l, rfl⟩ := hw
    simp only [RaftNode.isLeader, hsoft]
    exact hl
  · exact .ret (by simp)

/-- A bare heartbeat is an empty slice. -/
theorem sendOk_bareHeartbeat {prev t : Nat} (hl : n.isLeader = true) (ht : TermKnown n prev t)
    (hn : sc.strict → Coherent n) : SendOk sc n (.appendEntries (n.appendHeader prev t) []) := by
  refine ⟨rfl, rfl, rfl, rfl, fun hs => ⟨hl, ?_⟩⟩
  exact (hn hs).slice (k := 0) ht

theorem sendBareHeartbeat_steady {peer : PeerId} (ha : sc.strict → peer ≠ n.config.nodeId) :
    Emits (Steady sc) (sendBareHeartbeat peer) n (fun _ _ => True) := by
  unfold sendBareHeartbeat
  refine .recover ?_ ?_
  · refine (Steady.of_emits (buildHeartbeatWire_emits peer)
      (buildHeartbeatWire_sameLead peer)).seq ?_
    rintro r n' ⟨-, hcfg, -, -⟩ hr
    cases r with
    | none => exact .ret trivial
    | some header =>
      obtain ⟨hl, prev, t, rfl, ht⟩ := hr header rfl
      have haddr : Addressed sc n' peer (.appendEntries (n'.appendHeader prev t) []) :=
        addressed_of_strict (fun hs => hcfg ▸ ha hs) (by simp)
      refine (Steady.of_emits (sendMessage_emits (sendOk_bareHeartbeat hl ht) haddr)
        (sendMessage_sameLead peer _)).seq ?_
      intro _ _ _ _
      exact .ret trivial
  · intro _ _ _
    exact .ret trivial

theorem sendBareHeartbeats_steady {peers : List PeerId}
    (ha : sc.strict → ∀ p ∈ peers, p ≠ n.config.nodeId) :
    Emits (Steady sc) (sendBareHeartbeats peers) n (fun _ _ => True) := by
  induction peers generalizing n with
  | nil => exact .ret trivial
  | cons peer rest ih =>
    unfold sendBareHeartbeats
    refine (sendBareHeartbeat_steady fun hs => ha hs peer List.mem_cons_self).seq ?_
    rintro _ n' ⟨-, hcfg, -, -⟩ -
    refine ih fun hs p hp => ?_
    rw [hcfg]
    exact ha hs p (List.mem_cons_of_mem peer hp)

theorem ne_of_mem_replicationTargets {p : PeerId} (h : p ∈ n.replicationTargets) :
    p ≠ n.config.nodeId :=
  of_decide_eq_true (List.mem_filter.mp h).2

theorem sendBareHeartbeatsExcept_emits (skip : PeerId) :
    Emits (Moves sc) (sendBareHeartbeatsExcept skip) n (fun _ _ => True) := by
  unfold sendBareHeartbeatsExcept
  refine .read ?_
  split
  · refine .putSeq (.quiet rfl)
      ((sendBareHeartbeats_steady ?_).weaken fun _ h => h.1)
    intro _ p hp
    exact ne_of_mem_replicationTargets (List.mem_filter.mp hp).1
  · exact .ret trivial

theorem sendBatchedHeartbeats_emits :
    Emits (Moves sc) sendBatchedHeartbeats n (fun _ _ => True) := by
  unfold sendBatchedHeartbeats
  refine .read ?_
  split
  · refine .putSeq (.quiet rfl)
      ((sendBareHeartbeats_steady ?_).weaken fun _ h => h.1)
    exact fun _ p hp => ne_of_mem_replicationTargets hp
  · exact .ret trivial

/-! ## Snapshot streaming -/

/-- Between two chunks go the bare heartbeats that are due. -/
theorem sendChunk_ends {i : Install} {J Q E : RaftNode → Prop}
    (hbeats : Ends (sendBareHeartbeatsExcept i.peer) n (fun _ => J) E) (hn : J n)
    (hsend : ∀ k chunk, chunk = (i.bytes.take (k.chunkEnd i)).drop i.offset → J k →
      Ends (sendMessage i.peer (.installSnapshot (k.chunkHeader i chunk) chunk)) k
        (fun _ => Q) E) :
    Ends (sendChunk i) n (fun _ => Q) E := by
  unfold sendChunk
  refine .read ?_
  split
  · exact hbeats.seq fun _ k hk => .read ((hsend k _ rfl hk).seq fun _ _ h => .ret h)
  · exact .read ((hsend n _ rfl hn).seq fun _ _ h => .ret h)

theorem sendChunk_emits (hns : ¬ sc.strict) (i : Install) :
    Emits (Moves sc) (sendChunk i) n (fun _ _ => True) := by
  refine .of_ends ((sendChunk_ends (J := Moves sc n) (Q := Moves sc n) ?_ (refl_of _ n) ?_).mono
    (fun _ _ h => ⟨h, trivial⟩) fun _ h => h)
  · exact (Ends.of_emits (sendBareHeartbeatsExcept_emits i.peer)).mono (fun _ _ h => h.1)
      fun _ h => h
  · intro k chunk _ hk
    refine ((sendMessage_emits ?_ ?_).since hk).mono (fun _ _ h => h.1) fun _ h => h
    · exact fun _ => ⟨rfl, hns⟩
    · exact addressed_of_strict (fun hs => absurd hs hns) (by simp)

theorem advanceInstall_emits (i : Install) (resp : InstallSnapshotResp)
    (hr : n.Finds sc resp.term) :
    Emits (Moves sc) (advanceInstall i resp) n (fun _ _ => True) := by
  unfold advanceInstall
  refine .read ?_
  split
  · rename_i h
    refine (stepDown_emits h hr).seq ?_
    intro _ _ _ _
    exact .fail
  · split
    · exact .fail
    · split
      · exact .ret trivial
      · split
        · exact .ret trivial
        · split
          · exact .fail
          · exact .ret trivial

theorem admitInstall_emits (peer : PeerId) :
    Emits (Moves sc) (admitInstall peer) n (fun _ _ => True) := by
  unfold admitInstall
  refine .read ?_
  dsimp only
  split
  · exact .ret trivial
  · split
    · exact .putSeq (.quiet rfl) (.ret trivial)
    · exact .putSeq (.quiet rfl) (.ret trivial)

theorem Moves.installSucceeded (hns : ¬ sc.strict) (peer : PeerId) (boundary : Nat) :
    Moves sc n (n.installSucceeded peer boundary) := by
  unfold RaftNode.installSucceeded RaftNode.anchorProgress
  split
  · exact .quiet rfl
  · rename_i p hget
    have hq : Moves sc n { n with snapshotAttempts := n.snapshotAttempts.remove peer } :=
      .quiet rfl
    exact trans_of (Moves sc) hq (.of_effect fun _ =>
      .rebased peer p _ hns hget ⟨boundary, rfl⟩)

/-! ## Leadership transfer -/

theorem sendTimeoutNow_emits {target : PeerId} {transferTerm : Nat}
    (ha : sc.strict → target ≠ n.config.nodeId) :
    Emits (Moves sc) (sendTimeoutNow target transferTerm) n (fun _ _ => True) := by
  unfold sendTimeoutNow
  refine .read ?_
  split
  · rename_i h
    split
    · have hok : (sc.strict → Coherent n) →
          SendOk sc n (.timeoutNow ⟨transferTerm, n.config.nodeId⟩) :=
        fun _ => h.2.symm
      refine (sendMessage_emits hok (addressed_of_strict ha (by simp))).seq ?_
      intro ok n' _ _
      split
      · exact .update (.quiet rfl) trivial
      · exact .fail
    · exact .fail
  · exact .fail

theorem bumpReadProbe_emits (hp : sc.probes) :
    Emits (Moves sc) bumpReadProbe n (fun _ _ => True) :=
  .update (.noted rfl ⟨.inl fun _ hs => hs, .inl rfl, .inr hp, .inl rfl⟩) trivial

end ArbitroRaft
