import ArbitroRaft.Effect.Frame
import ArbitroRaft.Machine.Run

/-!
# What the caches point at

Storage holds an index if the log has an entry there or the saved snapshot
covers it.  Whatever happens to a node, its tip cache and its term arena only
point at indices that storage holds.
-/

namespace ArbitroRaft

open Library

namespace Storage

/-- The last index the saved snapshot covers, 0 without one. -/
def snapshotIndex (s : Storage) : Nat :=
  (s.loadSnapshotMeta.map SnapshotMeta.lastIncludedIndex).getD 0

/-- The index is in the log or covered by the saved snapshot. -/
def Holds (s : Storage) (i : Nat) : Prop :=
  i ≤ s.snapshotIndex ∨ ∃ e ∈ s.entries, e.index = i

variable {s : Storage} {i : Nat}

theorem snapshotIndex_of_some {m : SnapshotMeta} (h : s.loadSnapshotMeta = some m) :
    s.snapshotIndex = m.lastIncludedIndex := by
  rw [snapshotIndex, h]
  rfl

theorem holds_zero (s : Storage) : s.Holds 0 := .inl (Nat.zero_le _)

theorem Holds.of_termAt {t : Nat} (h : s.termAt i = some t) : s.Holds i := by
  obtain ⟨e, he, hei, -⟩ := mem_of_termAt h
  exact .inr ⟨e, he, hei⟩

theorem Holds.append (h : s.Holds i) (l : List LogEntry) : (s.appendEntries l).Holds i := by
  rcases h with h | ⟨e, he, hei⟩
  · exact .inl h
  · exact .inr ⟨e, List.mem_append_left l he, hei⟩

theorem holds_append_of_mem {e : LogEntry} {l : List LogEntry} (he : e ∈ l) :
    (s.appendEntries l).Holds e.index :=
  .inr ⟨e, List.mem_append_right s.entries he, rfl⟩

theorem Holds.truncateSuffix (h : s.Holds i) {k : Nat} (hlt : i < k) :
    (s.truncateSuffix k).Holds i := by
  rcases h with h | ⟨e, he, rfl⟩
  · exact .inl h
  · exact .inr ⟨e, List.mem_filter.mpr ⟨he, decide_eq_true hlt⟩, rfl⟩

theorem highest_spec (l : List LogEntry) :
    highest l = (0, 0) ∨ ∃ e ∈ l, highest l = (e.index, e.term) := by
  induction l with
  | nil => exact .inl rfl
  | cons e l ih =>
    unfold highest
    split
    · exact .inr ⟨e, List.mem_cons_self, rfl⟩
    · rcases ih with h | ⟨x, hx, h⟩
      · exact .inl h
      · exact .inr ⟨x, List.mem_cons_of_mem e hx, h⟩

theorem holds_lastLogPosition (s : Storage) : s.Holds s.lastLogPosition.1 := by
  unfold lastLogPosition
  rcases highest_spec s.entries with h | ⟨e, he, h⟩
  · rw [h]
    exact s.holds_zero
  · rw [h]
    exact .inr ⟨e, he, rfl⟩

/-- A filter that lets the entries under `i` pass does not change what is found
there. -/
theorem entryAt_filter (s : Storage) {p : LogEntry → Bool}
    (h : ∀ e ∈ s.entries, e.index = i → p e = true) :
    { s with entries := s.entries.filter p }.entryAt i = s.entryAt i := by
  change (s.entries.filter p).reverse.find? _ = s.entries.reverse.find? _
  rw [← List.filter_reverse, List.find?_filter]
  refine List.find?_congr fun e he => ?_
  by_cases hidx : e.index = i
  · simp [hidx, h e (List.mem_reverse.mp he) hidx]
  · simp [hidx]

end Storage

/-! ## The invariant -/

@[simp] theorem loadSnapshotMeta_anchorOnSnapshot (n : RaftNode) (m : SnapshotMeta) :
    (n.anchorOnSnapshot m).storage.loadSnapshotMeta = n.storage.loadSnapshotMeta := by
  unfold RaftNode.anchorOnSnapshot
  dsimp only
  split <;> rfl

@[simp] theorem loadSnapshotMeta_compacted (n : RaftNode) (term : Nat) (bytes : List UInt8)
    (upTo : Nat) : (n.compacted term bytes upTo).storage.loadSnapshotMeta =
      some ⟨n.lastApplied, term⟩ := by
  unfold RaftNode.compacted
  dsimp only
  split <;> rfl

/-- Compaction keeps the entries from its horizon on. -/
theorem mem_compacted {n : RaftNode} {term : Nat} {bytes : List UInt8} {upTo : Nat}
    {e : LogEntry} : e ∈ (n.compacted term bytes upTo).storage.entries ↔
      e ∈ n.storage.entries ∧ upTo ≤ e.index := by
  unfold RaftNode.compacted
  dsimp only
  split
  · simp only [Storage.truncateBefore, List.mem_filter, decide_eq_true_eq]
    rfl
  · rename_i hz
    exact ⟨fun he => ⟨he, by omega⟩, fun he => he.1⟩

structure Anchored (n : RaftNode) : Prop where
  tip : n.storage.Holds n.cachedLastLog.1
  arena : ∀ i t, n.logMetadata.getTerm i = some t → n.storage.Holds i

theorem Storage.Holds.of_sameStore {n n' : RaftNode} (hs : SameStore n n') {i : Nat}
    (h : n.storage.Holds i) : n'.storage.Holds i := by
  unfold Storage.Holds Storage.snapshotIndex Storage.loadSnapshotMeta at h ⊢
  rw [hs.entries, hs.snapshot]
  exact h

namespace Anchored

variable {n n' : RaftNode}

theorem of_sameStore (h : Anchored n) (hs : SameStore n n') : Anchored n' := by
  refine ⟨?_, fun i t hi => ?_⟩
  · rw [hs.cached]
    exact h.tip.of_sameStore hs
  · rw [hs.arena] at hi
    exact (h.arena i t hi).of_sameStore hs

/-- Where a lookup of the handler finds a term there is something. -/
theorem localTerm (h : Anchored n) {i t : Nat} (hi : n.localTerm i = some t) :
    n.storage.Holds i := by
  unfold RaftNode.localTerm at hi
  split at hi
  · rename_i u hu
    exact h.arena i u hu
  · exact Storage.Holds.of_termAt hi

/-- The entry before an accepted batch is there. -/
theorem prevOk (h : Anchored n) {msg : AppendEntries} (hp : n.prevOk msg = true) :
    n.storage.Holds msg.prevLogIndex := by
  unfold RaftNode.prevOk at hp
  split at hp
  · rename_i t ht
    exact h.arena _ t ht
  · split at hp
    · rename_i hz
      rw [hz]
      exact n.storage.holds_zero
    · split at hp
      · rename_i t ht
        exact Storage.Holds.of_termAt ht
      · have hc : n.cachedLastLog = (msg.prevLogIndex, msg.prevLogTerm) := by simpa using hp
        have ht := h.tip
        rw [hc] at ht
        exact ht

theorem stored (h : Anchored n) (rest : List LogEntry) : Anchored (n.stored rest) := by
  refine ⟨?_, fun i t hi => ?_⟩
  · rw [n.tip_stored rest]
    cases hl : rest.getLast? with
    | none => exact h.tip.append rest
    | some e => exact Storage.holds_append_of_mem (List.mem_of_getLast? hl)
  · rcases Coherent.foldl_getTerm hi with ⟨e, he, rfl, -⟩ | hold
    · exact Storage.holds_append_of_mem he
    · exact (h.arena i t hold).append rest

theorem cutAt (h : Anchored n) (rest : List LogEntry) : Anchored (n.cutAt rest) := by
  cases rest with
  | nil => exact h
  | cons e rest =>
    refine ⟨Storage.holds_lastLogPosition _, fun i t hi => ?_⟩
    obtain ⟨hlt, hold⟩ := LogMetadataArena.getTerm_truncateSuffix hi
    exact (h.arena i t hold).truncateSuffix hlt

/-- A node that re-anchors on its saved snapshot. -/
theorem anchorOnSnapshot {m : SnapshotMeta} (hm : n.storage.loadSnapshotMeta = some m) :
    Anchored (n.anchorOnSnapshot m) := by
  refine ⟨.inl ?_, fun i t hi => ?_⟩
  · rw [Storage.snapshotIndex_of_some ((loadSnapshotMeta_anchorOnSnapshot n m).trans hm)]
    exact le_rfl
  · simp [RaftNode.anchorOnSnapshot] at hi

end Anchored

/-- A leader's batch continues its tip, or repeats it at the numeric limit. -/
theorem exists_contiguous_proposedBatch (n : RaftNode) (payloads : List EntryPayload) :
    ∃ b ≤ n.cachedLastLog.1, Contiguous LogEntry.index b (n.proposedBatch payloads) := by
  obtain ⟨b, hb⟩ : ∃ b, satAdd n.cachedLastLog.1 1 = b + 1 := by
    refine ⟨satAdd n.cachedLastLog.1 1 - 1, ?_⟩
    have hpos : 0 < satAdd n.cachedLastLog.1 1 := by
      unfold satAdd u64Max
      split <;> omega
    omega
  have hle := satAdd_le n.cachedLastLog.1 1
  refine ⟨b, by omega, ?_⟩
  unfold RaftNode.proposedBatch
  rw [hb]
  exact contiguous_buildBatch _ _ _

theorem foldl_min_le_start (l : List Nat) (b : Nat) : l.foldl min b ≤ b := by
  induction l generalizing b with
  | nil => exact le_rfl
  | cons a l ih => exact (ih (min b a)).trans (min_le_left b a)

theorem compactionHorizon_le (n : RaftNode) : n.compactionHorizon ≤ n.lastApplied := by
  unfold RaftNode.compactionHorizon
  dsimp only
  split
  · exact (Nat.sub_le _ _).trans (foldl_min_le_start _ _)
  · exact Nat.sub_le _ _

theorem snapshotIndex_le_lastApplied {n : RaftNode}
    (h : ∀ m, n.storage.loadSnapshotMeta = some m → m.lastIncludedIndex < n.lastApplied) :
    n.storage.snapshotIndex ≤ n.lastApplied := by
  unfold Storage.snapshotIndex
  cases hm : n.storage.loadSnapshotMeta with
  | none => exact Nat.zero_le _
  | some m => exact (h m hm).le

/-- Compaction drops only what the new snapshot covers. -/
theorem Storage.Holds.compacted {n : RaftNode} {i : Nat} (h : n.storage.Holds i)
    (hsnap : n.storage.snapshotIndex ≤ n.lastApplied) (term : Nat) (bytes : List UInt8) :
    (n.compacted term bytes n.compactionHorizon).storage.Holds i := by
  have hle := compactionHorizon_le n
  unfold Storage.Holds
  rw [Storage.snapshotIndex_of_some (loadSnapshotMeta_compacted n term bytes _)]
  rcases h with h | ⟨e, he, rfl⟩
  · exact .inl (h.trans hsnap)
  · by_cases hcov : e.index ≤ n.lastApplied
    · exact .inl hcov
    · exact .inr ⟨e, mem_compacted.mpr ⟨he, by omega⟩, rfl⟩

/-- A statement about the log and its caches that every way to change them keeps. -/
structure LogInvariant (P : RaftNode → Prop) : Prop where
  same : ∀ {n n' : RaftNode}, P n → SameStore n n' → P n'
  stored : ∀ {n : RaftNode}, P n → ∀ rest, P (n.stored rest)
  cutAt : ∀ {n : RaftNode}, P n → ∀ rest, P (n.cutAt rest)
  learned : ∀ {n : RaftNode} {index t : Nat}, P n → n.storage.termAt index = some t →
    P { n with logMetadata := n.logMetadata.append index t }
  anchored : ∀ {n : RaftNode} {m : SnapshotMeta}, n.storage.loadSnapshotMeta = some m →
    P (n.anchorOnSnapshot m)
  compacted : ∀ {n : RaftNode}, P n → n.storage.snapshotIndex ≤ n.lastApplied →
    ∀ term bytes, P (n.compacted term bytes n.compactionHorizon)

namespace LogInvariant

variable {P : RaftNode → Prop} {n n' : RaftNode}

theorem spliced (hP : LogInvariant P) (h : P n) (msg : AppendEntries)
    (entries : List LogEntry) : P (n.spliced msg entries) := by
  unfold RaftNode.spliced
  cases n.scan msg entries with
  | malformed => exact h
  | matched => exact h
  | conflict rest => exact hP.stored (hP.cutAt h rest) rest
  | missing rest => exact hP.stored h rest

theorem logEffect (hP : LogInvariant P) {sc : Scope} (he : LogEffect sc n n') (h : P n) : P n' := by
  cases he with
  | cut sender msg entries rest => exact hP.cutAt h rest
  | spliced sender msg entries => exact hP.spliced h msg entries
  | accepted sender msg entries reply =>
    exact hP.same (hP.spliced h msg entries) (SameStore.accepted n msg entries reply _ _)
  | led payloads => exact hP.stored h _
  | learned index t ht => exact hP.learned h ht
  | installed sender msg chunk bytes =>
    refine hP.anchored ?_
    rw [storage_commitSnapshot]
    rfl
  | restored m _ _ hm =>
    refine hP.anchored ?_
    change (n.commitSnapshot m).storage.loadSnapshotMeta = some m
    rw [storage_commitSnapshot]
    exact hm
  | compacted term bytes _ _ hlt =>
    exact hP.compacted h (snapshotIndex_le_lastApplied hlt) term bytes

theorem effect (hP : LogInvariant P) {sc : Scope} (he : Effect sc n n') (h : P n) : P n' := by
  rcases he.store with hs | hl
  · exact hP.same h hs
  · exact hP.logEffect hl h

end LogInvariant

theorem logInvariant_anchored : LogInvariant Anchored where
  same h hs := h.of_sameStore hs
  stored h := h.stored
  cutAt h := h.cutAt
  learned h ht := by
    refine ⟨h.tip, fun i u hi => ?_⟩
    rcases LogMetadataArena.getTerm_append hi with ⟨rfl, -⟩ | ⟨-, hold⟩
    · exact Storage.Holds.of_termAt ht
    · exact h.arena i u hold
  anchored := Anchored.anchorOnSnapshot
  compacted h hsnap term bytes :=
    ⟨h.tip.compacted hsnap term bytes, fun i t hi => (h.arena i t hi).compacted hsnap term bytes⟩

theorem RaftNode.anchored_fromStorage (config : NodeConfig) (s : Storage)
    (sent : List SentFrame) (env : Env) : Anchored (fromStorage config s sent env) :=
  ⟨s.holds_lastLogPosition, fun i t hi => by simp [fromStorage] at hi⟩

end ArbitroRaft
