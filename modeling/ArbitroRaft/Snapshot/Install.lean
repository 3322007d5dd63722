import ArbitroRaft.Machine.Tip

/-!
# A transfer that is older than what the node has

The last chunk of a transfer saves the snapshot and makes it the boundary and
the tip of the log.  Only the commit index is compared with what the node has
already; a transfer that was delayed or delivered twice puts everything else
back.  The log above the boundary is kept either way.

## Main results

* `install_never_backwards_iff`: when nothing goes back.
-/

namespace ArbitroRaft

open Library

/-- `n'` is nowhere behind `n`.  The last log index is the one the node reports,
the index of the tip cache. -/
@[mk_iff]
structure RaftNode.NotAheadOf (n n' : RaftNode) : Prop where
  snapshot : n.storage.snapshotIndex ≤ n'.storage.snapshotIndex
  boundary : n.snapshotBoundary.1 ≤ n'.snapshotBoundary.1
  commit : n.softState.commitIndex ≤ n'.softState.commitIndex
  tip : n.cachedLastLog.1 ≤ n'.cachedLastLog.1

/-- A snapshot ending at `m` took the node from `n` to `n'`: not backwards, unless
the log conflicted at the boundary, and with the entries above the boundary, if
the log matched there. -/
structure RaftNode.AdvancedTo (n : RaftNode) (m : SnapshotMeta) (n' : RaftNode) : Prop where
  forward : n.boundaryConflict m = false → n.NotAheadOf n'
  tail : n.storage.termAt m.lastIncludedIndex = some m.lastIncludedTerm →
    ∀ e ∈ n.storage.entries, m.lastIncludedIndex < e.index → e ∈ n'.storage.entries

/-- The snapshot ends at or behind everything the node has, or conflicts. -/
def RaftNode.SupersededBy (n : RaftNode) (m : SnapshotMeta) : Prop :=
  n.boundaryConflict m = true ∨
    n.storage.snapshotIndex ≤ m.lastIncludedIndex ∧
      n.snapshotBoundary.1 ≤ m.lastIncludedIndex ∧ n.cachedLastLog.1 ≤ m.lastIncludedIndex
deriving Decidable

/-! ## How a chunk ends -/

/-- Either nothing of the log changes, or a snapshot is completed. -/
inductive ChunkOutcome (n : RaftNode) (m : SnapshotMeta) (complete : Prop) : RaftNode → Prop
  | kept {n' : RaftNode} : ¬ complete → SameLog n n' → ChunkOutcome n m complete n'
  | installed {n₁ n' : RaftNode} {bytes : List UInt8} : complete → SameLog n n₁ →
      SameLog (n₁.completeSnapshot m bytes) n' → ChunkOutcome n m complete n'

section Outcome

variable {n : RaftNode} {sender : PeerId} {msg : InstallSnapshot} {chunk : List UInt8}

theorem respondSnapshot_ends (accepted : Bool) (next : Nat) :
    Ends (respondSnapshot sender accepted next) n (fun _ n' => SameLog n n') (SameLog n) := by
  unfold respondSnapshot
  refine .read ?_
  have hsend : Ends (sendMessage sender (.installSnapshotResp
      ⟨n.hardState.currentTerm, next, accepted⟩)) n (fun _ n' => SameLog n n') (SameLog n) := by
    unfold Ends
    rw [sendMessage_eq]
    exact .replied n _ sender _
  refine hsend.seq ?_
  intro _ n' hsame
  exact .ret hsame

variable {complete : Prop}

theorem ChunkOutcome.sameLog {n₀ n' : RaftNode} {m : SnapshotMeta}
    (h : ChunkOutcome n m complete n') (hs : SameLog n₀ n) : ChunkOutcome n₀ m complete n' := by
  cases h with
  | kept hnot hsame => exact .kept hnot (hs.trans hsame)
  | installed hcomplete hsame hdone => exact .installed hcomplete (hs.trans hsame) hdone

/-- A chunk that completes nothing is answered, and the log stays. -/
theorem respondSnapshot_kept {n₁ : RaftNode} {m : SnapshotMeta} (accepted : Bool) (next : Nat)
    (hnot : ¬ complete) (hsame : SameLog n n₁) :
    Ends (respondSnapshot sender accepted next) n₁
      (fun _ n' => ChunkOutcome n m complete n') (ChunkOutcome n m complete) := by
  refine (respondSnapshot_ends accepted next).mono ?_ ?_
  · exact fun _ n' h => .kept hnot (hsame.trans h)
  · exact fun n' h => .kept hnot (hsame.trans h)

theorem acceptChunk_ends (pending : PendingSnapshot) :
    Ends (acceptChunk sender msg chunk pending) n
      (fun _ n' => ChunkOutcome n pending.snapshotMeta (msg.done = true ∧
        (pending.bytes ++ chunk).length ≤ n.config.limits.maxSnapshotBytes) n')
      (ChunkOutcome n pending.snapshotMeta (msg.done = true ∧
        (pending.bytes ++ chunk).length ≤ n.config.limits.maxSnapshotBytes)) := by
  unfold acceptChunk
  refine .read ?_
  dsimp only
  split
  · rename_i hlarge
    refine .updateSeq (.seq (respondSnapshot_kept _ _ ?_ ?_) ?_)
    · exact fun h => absurd h.2 (by omega)
    · exact ⟨⟨rfl, rfl, rfl, rfl, rfl⟩, rfl, rfl, rfl⟩
    · exact fun _ n' h => .fail h
  · rename_i hfits
    split
    · rename_i hdone
      have hdrop : SameLog n (n.dropPending sender) :=
        ⟨⟨rfl, rfl, rfl, rfl, rfl⟩, rfl, rfl, rfl⟩
      refine .updateSeq ((respondSnapshot_ends _ _).mono ?_ ?_)
      · exact fun _ n' h => .installed ⟨hdone, by omega⟩ hdrop h
      · exact fun n' h => .installed ⟨hdone, by omega⟩ hdrop h
    · rename_i hmore
      refine .updateSeq (respondSnapshot_kept _ _ ?_ ?_)
      · exact fun h => absurd h.1 hmore
      · exact ⟨⟨rfl, rfl, rfl, rfl, rfl⟩, rfl, rfl, rfl⟩

theorem receiveChunk_ends (hc : complete ↔ msg.done = true ∧
      (n.pendingFor sender msg.snapshotMeta msg.offset).bytes.length = msg.offset ∧
      ((n.pendingFor sender msg.snapshotMeta msg.offset).bytes ++ chunk).length ≤
        n.config.limits.maxSnapshotBytes) :
    Ends (receiveChunk sender msg chunk) n
      (fun _ n' => ChunkOutcome n msg.snapshotMeta complete n')
      (ChunkOutcome n msg.snapshotMeta complete) := by
  have hsame : SameLog n
      (n.setPending sender (n.pendingFor sender msg.snapshotMeta msg.offset)) :=
    ⟨⟨rfl, rfl, rfl, rfl, rfl⟩, rfl, rfl, rfl⟩
  have hmeta := pendingFor_meta n sender msg.snapshotMeta msg.offset
  unfold receiveChunk
  refine .read (.updateSeq ?_)
  split
  · rename_i hoffset
    exact respondSnapshot_kept _ _ (fun h => absurd (hc.mp h).2.1 hoffset) hsame
  · rename_i hoffset
    have hout : ∀ n', ChunkOutcome (n.setPending sender
        (n.pendingFor sender msg.snapshotMeta msg.offset))
        (n.pendingFor sender msg.snapshotMeta msg.offset).snapshotMeta
        (msg.done = true ∧ ((n.pendingFor sender msg.snapshotMeta msg.offset).bytes ++
          chunk).length ≤ n.config.limits.maxSnapshotBytes) n' →
        ChunkOutcome n msg.snapshotMeta complete n' := by
      intro n' h
      rw [hmeta] at h
      cases h.sameLog hsame with
      | kept hnot hkept => exact .kept (fun h => hnot ⟨(hc.mp h).1, (hc.mp h).2.2⟩) hkept
      | installed hdone hbefore hafter =>
        exact .installed (hc.mpr ⟨hdone.1, not_not.mp hoffset, hdone.2⟩) hbefore hafter
    refine (acceptChunk_ends _).mono ?_ ?_
    · exact fun _ n' h => hout n' h
    · exact fun n' h => hout n' h

/-- A chunk of a member in the current term. -/
theorem handleInstallSnapshot_outcome (hmember : sender ∈ n.config.peers)
    (hterm : msg.term = n.hardState.currentTerm) :
    ChunkOutcome n msg.snapshotMeta (n.CompletedBy sender msg chunk)
      ((handleInstallSnapshot sender msg chunk).after n) := by
  refine Ends.after (Q := ChunkOutcome n msg.snapshotMeta (n.CompletedBy sender msg chunk)) ?_
  unfold handleInstallSnapshot
  refine .read ?_
  by_cases hlen : chunk.length % 2 ^ 32 = msg.chunkLen
  case neg =>
    rw [if_pos hlen]
    exact .fail (.kept (fun h => absurd h.1 hlen) (.refl n))
  case pos =>
    rw [if_neg (not_not.mpr hlen), if_neg (not_not.mpr hmember)]
    refine .updateSeq ?_
    rw [if_neg (by omega)]
    have hobserved : Ends (observeTerm msg.term) n.evictStalledSnapshots
        (fun _ n' => n' = n.evictStalledSnapshots)
        (ChunkOutcome n msg.snapshotMeta (n.CompletedBy sender msg chunk)) :=
      observeTerm_ends (fun h => absurd h hterm.le.not_gt) (fun h => absurd h hterm.le.not_gt) rfl
    refine hobserved.seq ?_
    rintro _ _ rfl
    have hcomplete : n.CompletedBy sender msg chunk ↔ msg.done = true ∧
        (n.evictStalledSnapshots.pendingFor sender msg.snapshotMeta msg.offset).bytes.length =
          msg.offset ∧
        ((n.evictStalledSnapshots.pendingFor sender msg.snapshotMeta msg.offset).bytes ++
          chunk).length ≤ n.config.limits.maxSnapshotBytes := and_iff_right hlen
    have hsame : SameLog n (n.evictStalledSnapshots.followSnapshotLeader msg.leaderId) :=
      ⟨⟨rfl, rfl, rfl, rfl, rfl⟩, rfl, rfl, rfl⟩
    refine .updateSeq ((receiveChunk_ends
      (n := n.evictStalledSnapshots.followSnapshotLeader msg.leaderId) hcomplete).mono ?_ ?_)
    · exact fun _ n' h => h.sameLog hsame
    · exact fun n' h => h.sameLog hsame

end Outcome

/-! ## What a completed transfer leaves -/

section Complete

variable {n : RaftNode} {m : SnapshotMeta}

theorem snapshotIndex_completeSnapshot (bytes : List UInt8) :
    (n.completeSnapshot m bytes).storage.snapshotIndex = m.lastIncludedIndex := by
  apply Storage.snapshotIndex_of_some
  unfold RaftNode.completeSnapshot
  rw [loadSnapshotMeta_anchorOnSnapshot, storage_commitSnapshot]
  rfl

theorem commitIndex_completeSnapshot (bytes : List UInt8) :
    n.softState.commitIndex ≤ (n.completeSnapshot m bytes).softState.commitIndex := by
  show _ ≤ (RaftNode.commitSnapshot _ m).softState.commitIndex
  unfold RaftNode.commitSnapshot
  split
  · rename_i h
    exact h.le
  · exact le_rfl

/-- The log above a boundary it does not contradict stays. -/
theorem mem_completeSnapshot (bytes : List UInt8) (hconf : n.boundaryConflict m = false)
    {e : LogEntry} (he : e ∈ n.storage.entries) (hlt : m.lastIncludedIndex < e.index) :
    e ∈ (n.completeSnapshot m bytes).storage.entries := by
  have hkeep : satAdd m.lastIncludedIndex 1 ≤ e.index :=
    (satAdd_le m.lastIncludedIndex 1).trans hlt
  unfold RaftNode.completeSnapshot RaftNode.anchorOnSnapshot
  rw [boundaryConflict_congr (n := n) (by rw [storage_commitSnapshot]; rfl), hconf,
    storage_commitSnapshot]
  exact List.mem_filter.mpr ⟨he, decide_eq_true hkeep⟩

theorem boundaryConflict_of_match
    (h : n.storage.termAt m.lastIncludedIndex = some m.lastIncludedTerm) :
    n.boundaryConflict m = false := by
  unfold RaftNode.boundaryConflict
  rw [h]
  simp

/-- The snapshot index, the boundary and the tip become those of the snapshot. -/
theorem notAheadOf_completeSnapshot (bytes : List UInt8) :
    n.NotAheadOf (n.completeSnapshot m bytes) ↔
      n.storage.snapshotIndex ≤ m.lastIncludedIndex ∧
        n.snapshotBoundary.1 ≤ m.lastIncludedIndex ∧
        n.cachedLastLog.1 ≤ m.lastIncludedIndex := by
  have hsnap := snapshotIndex_completeSnapshot (n := n) (m := m) bytes
  constructor
  · intro h
    exact ⟨hsnap ▸ h.snapshot, h.boundary, h.tip⟩
  · rintro ⟨hs, hb, ht⟩
    exact ⟨hsnap.symm ▸ hs, hb, commitIndex_completeSnapshot bytes, ht⟩

end Complete

theorem SameLog.snapshotIndex {n n' : RaftNode} (h : SameLog n n') :
    n'.storage.snapshotIndex = n.storage.snapshotIndex := by
  unfold Storage.snapshotIndex Storage.loadSnapshotMeta
  rw [h.snapshot]

theorem SameLog.notAheadOf {n n₁ n₂ n' : RaftNode} (h : SameLog n n₁) (h' : SameLog n₂ n') :
    n.NotAheadOf n' ↔ n₁.NotAheadOf n₂ := by
  rw [RaftNode.notAheadOf_iff, RaftNode.notAheadOf_iff, h'.snapshotIndex, h'.boundary, h'.commit,
    h'.cached, h.snapshotIndex, h.boundary, h.commit, h.cached]

/-- A chunk of a member in the current term takes the node nowhere back exactly
where the snapshot it completes, if any, ends at or behind all the node has. -/
theorem install_never_backwards_iff (n : RaftNode) (sender : PeerId) (msg : InstallSnapshot)
    (chunk : List UInt8) (hmember : sender ∈ n.config.peers)
    (hterm : msg.term = n.hardState.currentTerm) :
    n.AdvancedTo msg.snapshotMeta ((handleInstallSnapshot sender msg chunk).after n) ↔
      (n.CompletedBy sender msg chunk → n.SupersededBy msg.snapshotMeta) := by
  have hout : ChunkOutcome n msg.snapshotMeta (n.CompletedBy sender msg chunk)
      ((handleInstallSnapshot sender msg chunk).after n) :=
    handleInstallSnapshot_outcome hmember hterm
  generalize (handleInstallSnapshot sender msg chunk).after n = n' at hout ⊢
  cases hout with
  | kept hnot hsame =>
      have hstays : n.AdvancedTo msg.snapshotMeta n' := by
        refine ⟨fun _ => ?_, fun _ e he _ => ?_⟩
        · rw [(SameLog.refl n).notAheadOf hsame]
          exact ⟨le_rfl, le_rfl, le_rfl, le_rfl⟩
        · rw [hsame.entries]
          exact he
      exact iff_of_true hstays fun h => absurd h hnot
  | installed hcomplete hbefore hafter =>
      rename_i n₁ bytes
      have hconf := boundaryConflict_congr hbefore.entries msg.snapshotMeta
      have hforward : n.NotAheadOf n' ↔ _ :=
        (hbefore.notAheadOf hafter).trans (notAheadOf_completeSnapshot bytes)
      rw [hbefore.snapshotIndex, hbefore.boundary, hbefore.cached] at hforward
      constructor
      · intro h _
        cases hc : n.boundaryConflict msg.snapshotMeta with
        | true => exact .inl hc
        | false => exact .inr (hforward.mp (h.forward hc))
      · intro h
        refine ⟨fun hc => ?_, fun hmatch e he hlt => ?_⟩
        · refine hforward.mpr ((h hcomplete).resolve_left ?_)
          rw [hc]
          exact Bool.noConfusion
        · rw [hafter.entries]
          refine mem_completeSnapshot bytes ?_ (hbefore.entries.symm ▸ he) hlt
          rw [hconf]
          exact boundaryConflict_of_match hmatch

/-- A first snapshot up to index 10 in one chunk. -/
theorem install_never_backwards_iff_first :
    let n : RaftNode := trioNode 1 { Storage.empty false with hardState := ⟨1, none⟩ }
    let msg : InstallSnapshot := ⟨1, 2, 10, 1, 0, 3, true⟩
    n.CompletedBy 2 msg [7, 8, 9] ∧
      n.AdvancedTo msg.snapshotMeta ((handleInstallSnapshot 2 msg [7, 8, 9]).after n) := by
  intro n msg
  refine ⟨by decide, ?_⟩
  exact (install_never_backwards_iff n 2 msg [7, 8, 9] (by decide) rfl).mpr
    fun _ => .inr (by decide)

/-- Node 2, leader of term 1, sends node 1 the snapshot up to index `last`. -/
def transferTo (last : Nat) : Event :=
  .act (Env.calm 0) (.inbound ⟨2, .installSnapshot ⟨1, 2, last, 1, 0, 0, true⟩ []⟩)

/-- The transfer up to 5 arrives once more after the one up to 10: the saved
snapshot, the boundary and the tip go back to 5 under a commit index of 10. -/
theorem install_redelivered_goes_back :
    Booted (trioNode 1 (.empty false)) ∧
      (Event.nextAll [transferTo 5, transferTo 10] (trioNode 1 (.empty false))).map (fun n =>
        (n.storage.loadSnapshotMeta, n.snapshotBoundary, n.cachedLastLog,
          n.softState.commitIndex, n.hardState.currentTerm)) =
        some (some ⟨10, 1⟩, (10, 1), (10, 1), 10, 1) ∧
      (Event.nextAll [transferTo 5, transferTo 10, transferTo 5]
        (trioNode 1 (.empty false))).map (fun n =>
        (n.storage.loadSnapshotMeta, n.snapshotBoundary, n.cachedLastLog,
          n.softState.commitIndex, n.hardState.currentTerm)) =
        some (some ⟨5, 1⟩, (5, 1), (5, 1), 10, 1) :=
  ⟨booted_trioNode_one _, rfl, rfl⟩

end ArbitroRaft
