import ArbitroRaft.Machine.Run

/-!
# What a call puts on the wire

`Ships P` says of two states that every frame sent in between satisfies `P`.
The lemmas give it for the senders of the node, whatever `P` is.
-/

namespace ArbitroRaft

open Library

/-- Frames a computation sends, whether it returns or fails. -/
def RaftNode.emitted {α : Type} (n : RaftNode) (m : RaftM α) : List SentFrame :=
  (m.after n).sent.drop n.sent.length

/-- Every frame sent in between satisfies `P`; the configuration stays. -/
def Ships (P : RaftMessage → Prop) (n n' : RaftNode) : Prop :=
  n'.config = n.config ∧
    ∃ l : List SentFrame, n'.sent = n.sent ++ l ∧ ∀ f ∈ l, P f.message

section Ships

variable {P : RaftMessage → Prop} {n n' : RaftNode} {α : Type}

theorem Ships.of_eq (hc : n'.config = n.config) (hs : n'.sent = n.sent) : Ships P n n' :=
  ⟨hc, [], by rw [hs, List.append_nil], fun _ hf => absurd hf List.not_mem_nil⟩

instance : Std.Refl (Ships P) := ⟨fun _ => .of_eq rfl rfl⟩

instance : IsTrans RaftNode (Ships P) where
  trans := by
    rintro n n' n'' ⟨hc, l, hl, hP⟩ ⟨hc', l', hl', hP'⟩
    refine ⟨hc'.trans hc, l ++ l', by rw [hl', hl, List.append_assoc], ?_⟩
    intro f hf
    obtain hf | hf := List.mem_append.mp hf
    · exact hP f hf
    · exact hP' f hf

theorem Ships.of_emitted {m : RaftM α} {Q : α → RaftNode → Prop}
    (h : Emits (Ships P) m n Q) {f : SentFrame} (hf : f ∈ n.emitted m) : P f.message := by
  obtain ⟨-, l, hl, hP⟩ := Emits.after h
  rw [RaftNode.emitted, hl, List.drop_left' rfl] at hf
  exact hP f hf

theorem sendMessage_ships {peer : PeerId} {msg : RaftMessage} (hP : P msg) :
    Emits (Ships P) (sendMessage peer msg) n (fun _ _ => True) := by
  unfold sendMessage
  refine .read ?_
  split
  · refine .putSeq ⟨rfl, [⟨peer, msg, n.storage⟩], rfl, ?_⟩ (.ret trivial)
    intro f hf
    rw [List.mem_singleton.mp hf]
    exact hP
  · exact .ret trivial

theorem sendAll_ships {peers : List PeerId} {msg : RaftMessage} (hP : P msg) :
    Emits (Ships P) (sendAll msg peers) n (fun _ _ => True) := by
  induction peers generalizing n with
  | nil => exact .ret trivial
  | cons peer rest ih =>
    unfold sendAll
    exact (sendMessage_ships hP).next fun _ _ _ => ih.returns

theorem storeEntries_ships (entries : List LogEntry) :
    Emits (Ships P) (storeEntries entries) n (fun _ _ => True) := by
  unfold Emits
  obtain ⟨-, e, he⟩ | ⟨hok, -⟩ := stores_storeEntries entries n
  · rw [he]
    exact refl_of (Ships P) n
  · rw [hok]
    exact ⟨.of_eq rfl rfl, trivial⟩

theorem encodeShared_ships (msg : RaftMessage) :
    Emits (Ships P) (encodeShared msg) n (fun _ _ => True) := by
  unfold encodeShared
  refine .read ?_
  split
  · exact .ret trivial
  · exact .fail

theorem termAt_ships (index : Nat) :
    Emits (Ships P) (termAt index) n (fun _ n' => n'.storage = n.storage) := by
  unfold termAt
  refine .read ?_
  split
  · exact .ret rfl
  · split
    · exact .ret rfl
    · split
      · exact .ret rfl
      · split
        · exact .ret rfl
        · split
          · exact .putSeq (.of_eq rfl rfl) (.ret rfl)
          · exact .fail

theorem appendPrevForPeer_ships (peer : PeerId) :
    Emits (Ships P) (appendPrevForPeer peer) n (fun r n' => n'.storage = n.storage ∧
      (n.peerProgress.get peer).map PeerProgress.nextIndex = some r.2.2) := by
  unfold appendPrevForPeer
  refine .read ?_
  split
  · exact .fail
  · rename_i progress hprogress
    refine (termAt_ships _).seq ?_
    intro t n' _ hsame
    exact .ret ⟨hsame, by rw [hprogress]; rfl⟩

theorem buildHeartbeatWire_ships (peer : PeerId) :
    Emits (Ships P) (buildHeartbeatWire peer) n (fun _ _ => True) := by
  unfold buildHeartbeatWire
  refine .read ?_
  split
  · refine .updateSeq (.of_eq ?_ ?_) ?_
    · unfold RaftNode.ensureLeaderProgressInitialized
      split <;> rfl
    · unfold RaftNode.ensureLeaderProgressInitialized
      split <;> rfl
    · refine (appendPrevForPeer_ships peer).seq ?_
      intro r n' _ _
      exact .read (.ret trivial)
  · exact .ret trivial

theorem sendBareHeartbeats_ships {peers : List PeerId} (hP : ∀ m, P (.appendEntries m [])) :
    Emits (Ships P) (sendBareHeartbeats peers) n (fun _ _ => True) := by
  induction peers generalizing n with
  | nil => exact .ret trivial
  | cons peer rest ih =>
    have hone : Emits (Ships P) (sendBareHeartbeat peer) n (fun _ _ => True) := by
      unfold sendBareHeartbeat
      refine .recover ((buildHeartbeatWire_ships peer).seq ?_) ?_
      · intro r n' _ _
        cases r with
        | none => exact .ret trivial
        | some header => exact (sendMessage_ships (hP header)).returns
      · intro _ _ _
        exact .ret trivial
    unfold sendBareHeartbeats
    exact hone.next fun _ _ _ => ih

end Ships

/-! ## The four senders -/

section Senders

variable {P : RaftMessage → Prop} {n : RaftNode}

theorem replicateBatchInner_ships {payloads : List EntryPayload}
    (hP : ∀ m, P (.appendEntries m (n.proposedBatch payloads))) :
    Emits (Ships P) (replicateBatchInner payloads) n (fun _ _ => True) := by
  unfold replicateBatchInner
  refine .read ?_
  refine (storeEntries_ships _).next fun _ n' _ => ?_
  refine .updateSeq (.of_eq rfl rfl) ?_
  exact (encodeShared_ships _).next fun _ _ _ => (sendAll_ships (hP _)).returns

theorem sendInitialAppends_ships {entries : List LogEntry}
    (hP : ∀ m, P (.appendEntries m entries)) :
    Emits (Ships P) (sendInitialAppends entries) n (fun _ _ => True) := by
  unfold sendInitialAppends
  refine .updateSeq (.of_eq rfl rfl) (.read ?_)
  split
  · exact .ret trivial
  · dsimp only
    split
    · exact .fail
    · refine (termAt_ships _).seq ?_
      intro t n' _ _
      refine .read (.putSeq (.of_eq rfl rfl) ?_)
      refine (encodeShared_ships _).seq ?_
      intro _ n'' _ _
      refine (sendAll_ships (hP _)).seq ?_
      intro oks _ _ _
      exact .update (.of_eq rfl rfl) trivial

theorem sendAppendAttempt_ships {peer : PeerId} {progress : PeerProgress}
    (hprogress : n.peerProgress.get peer = some progress)
    (hP : ∀ m, P (.appendEntries m (n.backlog progress.nextIndex)))
    (hP' : ∀ m, P (.appendEntriesSeeded m (n.backlog progress.nextIndex))) :
    Emits (Ships P) (sendAppendAttempt peer) n (fun _ _ => True) := by
  unfold sendAppendAttempt
  refine (appendPrevForPeer_ships peer).seq ?_
  rintro ⟨prevIndex, prevTerm, nextIndex⟩ n' ⟨hconfig, -⟩ ⟨hstorage, hnext⟩
  obtain rfl : progress.nextIndex = nextIndex := by simpa [hprogress] using hnext
  refine .read ?_
  have hbacklog : n'.backlog progress.nextIndex = n.backlog progress.nextIndex := by
    unfold RaftNode.backlog
    rw [hstorage, hconfig]
  refine .returns (sendMessage_ships ?_)
  rw [hbacklog]
  split
  · exact hP' _
  · exact hP _

theorem sendBareHeartbeatsExcept_ships {skip : PeerId} (hbare : ∀ m, P (.appendEntries m [])) :
    Emits (Ships P) (sendBareHeartbeatsExcept skip) n (fun _ _ => True) := by
  unfold sendBareHeartbeatsExcept
  refine .read ?_
  split
  · exact .putSeq (.of_eq rfl rfl) (sendBareHeartbeats_ships hbare)
  · exact .ret trivial

theorem sendChunk_ships {i : Install} (hbare : ∀ m, P (.appendEntries m []))
    (hP : ∀ m, P (.installSnapshot m ((i.bytes.take (n.chunkEnd i)).drop i.offset))) :
    Emits (Ships P) (sendChunk i) n (fun _ _ => True) := by
  refine .of_ends ((sendChunk_ends (J := Ships P n) (Q := Ships P n) ?_ (refl_of _ n) ?_).mono
    (fun _ _ h => ⟨h, trivial⟩) fun _ h => h)
  · exact (Ends.of_emits (sendBareHeartbeatsExcept_ships hbare)).mono (fun _ _ h => h.1)
      fun _ h => h
  · rintro k _ rfl hk
    refine ((sendMessage_ships ?_).since hk).mono (fun _ _ h => h.1) fun _ h => h
    unfold RaftNode.chunkEnd
    rw [hk.1]
    exact hP _

end Senders

end ArbitroRaft
