import ArbitroRaft.Machine.Anchored

/-!
# Storage without holes

What storage holds, in the log or under its snapshot, is an initial segment of
the indices.  It stays one as long as senders ship contiguous batches and no
snapshot older than the saved one is installed.
-/

namespace ArbitroRaft

open Library

namespace Storage

/-- What storage holds is an initial segment. -/
def Unbroken (s : Storage) : Prop := ∀ i j, s.Holds i → j ≤ i → s.Holds j

variable {s : Storage}

/-- Entries attach behind an index that is held. -/
theorem Unbroken.append (h : s.Unbroken) {p : Nat} (hp : s.Holds p) {l : List LogEntry}
    (hl : Contiguous LogEntry.index p l) : (s.appendEntries l).Unbroken := by
  intro i j hi hji
  rcases Nat.lt_or_ge p j with hpj | hjp
  · -- behind `p` only the new entries can reach past what was there
    by_cases hold : s.Holds i
    · exact (h i j hold hji).append l
    · have hmem : ∃ e ∈ l, e.index = i := by
        rcases hi with hi | ⟨e, he, hei⟩
        · exact absurd (.inl hi) hold
        · rcases List.mem_append.mp he with he | he
          · exact absurd (.inr ⟨e, he, hei⟩) hold
          · exact ⟨e, he, hei⟩
      obtain ⟨e, he, rfl⟩ := hmem
      obtain ⟨x, hx, rfl⟩ := hl.exists_idx hpj (hji.trans (hl.bounds he).2)
      exact holds_append_of_mem hx
  · exact (h p j hp hjp).append l

theorem Unbroken.truncateSuffix (h : s.Unbroken) (k : Nat) : (s.truncateSuffix k).Unbroken := by
  intro i j hi hji
  rcases hi with hi | ⟨e, he, rfl⟩
  · exact .inl (hji.trans hi)
  · obtain ⟨hmem, hlt⟩ := List.mem_filter.mp he
    have hlt' : e.index < k := of_decide_eq_true hlt
    exact (h e.index j (.inr ⟨e, hmem, rfl⟩) hji).truncateSuffix (by omega)

/-- The prefix may go as far as the snapshot reaches. -/
theorem Unbroken.truncateBefore (h : s.Unbroken) {k : Nat} (hk : k ≤ s.snapshotIndex + 1) :
    (s.truncateBefore k).Unbroken := by
  intro i j hi hji
  by_cases hcov : j ≤ s.snapshotIndex
  · exact .inl hcov
  · have hold : s.Holds i := by
      rcases hi with hi | ⟨e, he, hei⟩
      · exact .inl hi
      · exact .inr ⟨e, (List.mem_filter.mp he).1, hei⟩
    rcases h i j hold hji with hj | ⟨e, he, rfl⟩
    · exact absurd hj hcov
    · exact .inr ⟨e, List.mem_filter.mpr ⟨he, decide_eq_true (by omega)⟩, rfl⟩

/-- A newer snapshot may replace the saved one. -/
theorem Unbroken.saveSnapshot (h : s.Unbroken) {m : SnapshotMeta}
    (hm : s.snapshotIndex ≤ m.lastIncludedIndex) (bytes : List UInt8) :
    (s.saveSnapshot m bytes).Unbroken := by
  intro i j hi hji
  rcases hi with hi | ⟨e, he, rfl⟩
  · exact .inl (hji.trans hi)
  · rcases h e.index j (.inr ⟨e, he, rfl⟩) hji with hj | hj
    · exact .inl (hj.trans hm)
    · exact .inr hj

end Storage

theorem Storage.Unbroken.of_sameStore {n n' : RaftNode} (h : n.storage.Unbroken)
    (hs : SameStore n n') : n'.storage.Unbroken := by
  have hback : SameStore n' n :=
    ⟨hs.entries.symm, hs.snapshot.symm, hs.arena.symm, hs.cached.symm, hs.boundary.symm⟩
  exact fun i j hi hji => (h i j (hi.of_sameStore hback) hji).of_sameStore hs

/-! ## The log -/

/-- What a scan leaves to store continues something that is held. -/
structure Attached (n : RaftNode) (rest : List LogEntry) : Prop where
  ne_nil : rest ≠ []
  prev : ∃ p, n.storage.Holds p ∧ Contiguous LogEntry.index p rest

variable {n : RaftNode} {msg : AppendEntries} {rest entries : List LogEntry}

theorem Anchored.attached (h : Anchored n) {pre rest : List LogEntry} (hp : n.prevOk msg = true)
    (hc : Contiguous LogEntry.index msg.prevLogIndex (pre ++ rest)) (hne : rest ≠ [])
    (hpre : ∀ x ∈ pre, n.localTerm x.index = some x.term) : Attached n rest := by
  obtain ⟨hcpre, hcrest⟩ := contiguous_append.mp hc
  refine ⟨hne, _, ?_, hcrest⟩
  rcases List.eq_nil_or_concat pre with rfl | ⟨init, x, rfl⟩
  · exact h.prevOk hp
  · have hidx : x.index = msg.prevLogIndex + (init ++ [x]).length := by
      have := hcpre.idx_eq (i := init.length) (x := x) (by simp)
      simp only [List.length_append, List.length_singleton]
      omega
    rw [List.concat_eq_append, ← hidx]
    exact h.localTerm (hpre x (by simp))

theorem Anchored.scan_conflict (h : Anchored n) (hp : n.prevOk msg = true)
    (hc : Contiguous LogEntry.index msg.prevLogIndex entries)
    (hs : n.scan msg entries = .conflict rest) : Attached n rest := by
  obtain ⟨pre, e, tl, t, rfl, rfl, hpre, -⟩ := scanEntries_conflict hs
  exact h.attached hp hc (by simp) hpre

theorem Anchored.scan_missing (h : Anchored n) (hp : n.prevOk msg = true)
    (hc : Contiguous LogEntry.index msg.prevLogIndex entries)
    (hs : n.scan msg entries = .missing rest) : Attached n rest := by
  obtain ⟨pre, e, tl, rfl, rfl, hpre, -⟩ := scanEntries_missing hs
  exact h.attached hp hc (by simp) hpre

/-- Cutting where the rest begins keeps what the rest continues. -/
theorem Attached.cutAt (h : Attached n rest) : Attached (n.cutAt rest) rest := by
  obtain ⟨hne, p, hp, hc⟩ := h
  cases rest with
  | nil => exact absurd rfl hne
  | cons e rest =>
    refine ⟨hne, p, hp.truncateSuffix ?_, hc⟩
    have := hc.1
    omega

theorem unbroken_stored (h : n.storage.Unbroken) (ha : Attached n rest) :
    (n.stored rest).storage.Unbroken := by
  obtain ⟨-, p, hp, hc⟩ := ha
  exact h.append hp hc

theorem unbroken_cutAt (h : n.storage.Unbroken) (rest : List LogEntry) :
    (n.cutAt rest).storage.Unbroken := by
  cases rest with
  | nil => exact h
  | cons e rest => exact h.truncateSuffix e.index

theorem unbroken_spliced (h : n.storage.Unbroken) (hn : Anchored n) (hp : n.prevOk msg = true)
    (hc : Contiguous LogEntry.index msg.prevLogIndex entries) :
    (n.spliced msg entries).storage.Unbroken := by
  unfold RaftNode.spliced
  cases hs : n.scan msg entries with
  | malformed => exact h
  | matched => exact h
  | conflict rest =>
    exact unbroken_stored (unbroken_cutAt h rest) (hn.scan_conflict hp hc hs).cutAt
  | missing rest => exact unbroken_stored h (hn.scan_missing hp hc hs)

/-- A leader's batch continues its tip. -/
theorem unbroken_proposed (hu : n.storage.Unbroken) (hn : Anchored n)
    (payloads : List EntryPayload) :
    (n.stored (n.proposedBatch payloads)).storage.Unbroken := by
  obtain ⟨b, hb, hc⟩ := exists_contiguous_proposedBatch n payloads
  exact hu.append (hu _ b hn.tip hb) hc

theorem unbroken_anchorOnSnapshot (h : n.storage.Unbroken) {m : SnapshotMeta}
    (hm : n.storage.loadSnapshotMeta = some m) : (n.anchorOnSnapshot m).storage.Unbroken := by
  have hidx := Storage.snapshotIndex_of_some hm
  unfold RaftNode.anchorOnSnapshot
  dsimp only
  split
  · exact h.truncateSuffix 1
  · refine h.truncateBefore ?_
    rw [hidx]
    exact satAdd_le _ _

theorem unbroken_completeSnapshot (h : n.storage.Unbroken) {m : SnapshotMeta}
    (hm : n.storage.snapshotIndex ≤ m.lastIncludedIndex) (bytes : List UInt8) :
    (n.completeSnapshot m bytes).storage.Unbroken := by
  have hs := storage_commitSnapshot { n with storage := n.storage.saveSnapshot m bytes } m
  refine unbroken_anchorOnSnapshot ?_ ?_
  · rw [hs]
    exact h.saveSnapshot hm bytes
  · rw [hs]
    rfl

theorem LogEffect.unbroken {sc : Scope} {n n' : RaftNode} (he : LogEffect sc n n')
    (hu : n.storage.Unbroken) (hn : Anchored n)
    (hc : ∀ sender msg entries, Receives sc n sender msg entries →
      Contiguous LogEntry.index msg.prevLogIndex entries)
    (hi : ∀ sender msg chunk, sc.rx ⟨sender, .installSnapshot msg chunk⟩ →
      sc.completes sender msg chunk → Arrived sc n →
      n.storage.snapshotIndex ≤ msg.lastIncludedIndex) : n'.storage.Unbroken := by
  have hsp : ∀ sender msg entries, Receives sc n sender msg entries →
      (n.spliced msg entries).storage.Unbroken :=
    fun sender msg entries hr => unbroken_spliced hu hn hr.prevOk (hc sender msg entries hr)
  cases he with
  | cut sender msg entries rest => exact unbroken_cutAt hu rest
  | spliced sender msg entries hr => exact hsp sender msg entries hr
  | accepted sender msg entries reply hr =>
    have hs := SameStore.accepted n msg entries reply sender
      (((n.tookOver msg entries).adopted msg.leaderCommit).ackOf msg)
    exact (hsp sender msg entries hr).of_sameStore hs
  | led payloads => exact unbroken_proposed hu hn payloads
  | learned index t => exact hu
  | installed sender msg chunk bytes _ hrx _ hf _ hcomp =>
    obtain ⟨m, hfresh, hsame, -⟩ := hf
    exact unbroken_completeSnapshot hu (hi sender msg chunk hrx hcomp ⟨m, hfresh, hsame⟩) bytes
  | restored m _ _ hm =>
    refine unbroken_anchorOnSnapshot ?_ ?_
    · change (n.commitSnapshot m).storage.Unbroken
      rw [storage_commitSnapshot]
      exact hu
    · change (n.commitSnapshot m).storage.loadSnapshotMeta = some m
      rw [storage_commitSnapshot]
      exact hm
  | compacted term bytes _ _ hlt =>
    have hsaved : (n.storage.saveSnapshot ⟨n.lastApplied, term⟩ bytes).Unbroken :=
      hu.saveSnapshot (snapshotIndex_le_lastApplied hlt) bytes
    unfold RaftNode.compacted
    dsimp only
    split
    · exact hsaved.truncateBefore ((compactionHorizon_le n).trans (Nat.le_succ _))
    · exact hsaved

end ArbitroRaft
