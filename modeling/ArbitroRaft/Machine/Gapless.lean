import ArbitroRaft.Machine.Unbroken
import ArbitroRaft.Machine.Tip

/-!
# The log and the snapshot meet

The entries in storage have consecutive indices, the first of them at most one
behind the snapshot, and nothing that is committed leaves the log other than
under a snapshot.  Three things can break this: an old message whose entries
the snapshot covers already, a snapshot that ends before the log begins, and a
leader that appends with a tip cache that left the tip.  `RaftNode.Extends`,
`RaftNode.Meets` and `Action.KeepsLog` leave them out, together with messages
that contradict what is committed.

## Main results

* `log_gapless_and_kept`: both hold in every run of steps that keep the log.
-/

namespace ArbitroRaft

open Library

namespace Storage

/-- Consecutive entries that begin at most one behind the snapshot. -/
def Gapless (s : Storage) : Prop :=
  ∃ b ≤ s.snapshotIndex, Contiguous LogEntry.index b s.entries

/-- The log and the snapshot fit together. -/
structure Whole (s : Storage) : Prop where
  /-- A log that is not empty begins and ends around the snapshot. -/
  spans : ∃ b ≤ s.snapshotIndex, Contiguous LogEntry.index b s.entries ∧
    (s.entries ≠ [] → s.snapshotIndex ≤ b + s.entries.length)
  agrees : ∀ m, s.loadSnapshotMeta = some m → ∀ e ∈ s.entries,
    e.index = m.lastIncludedIndex → e.term = m.lastIncludedTerm

theorem Whole.gapless {s : Storage} (h : s.Whole) : s.Gapless := by
  obtain ⟨b, hb, hc, -⟩ := h.spans
  exact ⟨b, hb, hc⟩

end Storage

/-! ## The condition -/

/-- The message ships consecutive entries, contradicts nothing that is
committed or under the snapshot, and brings nothing the snapshot covers. -/
def RaftNode.Extends (n : RaftNode) (msg : AppendEntries) (entries : List LogEntry) : Prop :=
  Contiguous LogEntry.index msg.prevLogIndex entries ∧
    match n.scan msg entries with
    | .missing rest => ∀ e ∈ rest.head?, n.storage.snapshotIndex < e.index
    | .conflict rest => ∀ e ∈ rest.head?,
        n.storage.snapshotIndex < e.index ∧ n.softState.commitIndex < e.index
    | .matched | .malformed => True

/-- The snapshot does not contradict a committed entry, and the log does not
begin behind it. -/
def RaftNode.Meets (n : RaftNode) (m : SnapshotMeta) : Prop :=
  m.lastIncludedIndex ≤ u64Max ∧
    (n.boundaryConflict m = true → n.softState.commitIndex ≤ m.lastIncludedIndex) ∧
    ∀ e ∈ n.storage.entries.head?, e.index ≤ m.lastIncludedIndex + 1

/-- The frame extends what the node holds. -/
def RaftNode.LogSafe (n : RaftNode) (f : InboundRaftMessage) : Prop :=
  match f.message with
  | .appendEntries msg entries | .appendEntriesSeeded msg entries =>
    n.hardState.currentTerm ≤ msg.term → n.prevOk msg = true → n.Extends msg entries
  | .installSnapshot msg chunk => n.Completes f.sender msg chunk → n.Meets msg.snapshotMeta
  | _ => True

/-- The action handles such a frame, and appends where its tip cache is the
tip. -/
structure Action.KeepsLog (a : Action) (n : RaftNode) : Prop where
  frame : ∀ f, a.frame = some f → n.LogSafe f
  append : a.appends = true →
    n.cachedLastLog = n.storage.effectiveTip ∧ n.cachedLastLog.1 < u64Max

def Event.KeepsLog (n : RaftNode) : Event → Prop
  | .act env a => a.KeepsLog (n.within env)
  | .restart _ _ => True

/-! ## Storage operations -/

namespace Storage

variable {s : Storage}

theorem Whole.of_nil (h : s.entries = []) : s.Whole := by
  refine ⟨⟨0, Nat.zero_le _, ?_, fun hne => absurd h hne⟩, ?_⟩
  · rw [h]
    exact trivial
  · rw [h]
    intro _ _ e he
    cases he

/-- Entries behind everything there is. -/
theorem Whole.append (h : s.Whole) {p : Nat} {rest : List LogEntry} (hp : s.Holds p)
    (hc : Contiguous LogEntry.index p rest) (hall : ∀ x ∈ s.entries, x.index ≤ p)
    (hsnap : s.snapshotIndex ≤ p) : (s.appendEntries rest).Whole := by
  obtain ⟨b, hb, hcb, hcov⟩ := h.spans
  refine ⟨?_, ?_⟩
  · by_cases hnil : s.entries = []
    · have hle : p ≤ s.snapshotIndex := by
        refine hp.resolve_right ?_
        rintro ⟨e, he, -⟩
        rw [hnil] at he
        cases he
      refine ⟨p, hle, ?_, fun _ => hsnap.trans (Nat.le_add_right _ _)⟩
      change Contiguous LogEntry.index p (s.entries ++ rest)
      rw [hnil]
      exact hc
    · have hend : p = b + s.entries.length := by
        have hge : p ≤ b + s.entries.length := by
          rcases hp with hp | ⟨e, he, rfl⟩
          · exact hp.trans (hcov hnil)
          · exact (hcb.bounds he).2
        have hpos : 0 < s.entries.length := List.length_pos_of_ne_nil hnil
        obtain ⟨x, hx, hidx⟩ := hcb.exists_idx (j := b + s.entries.length) (by omega) le_rfl
        have := hall x hx
        omega
      refine ⟨b, hb, contiguous_append.mpr ⟨hcb, hend ▸ hc⟩, fun _ => ?_⟩
      change s.snapshotIndex ≤ b + (s.entries ++ rest).length
      rw [List.length_append]
      omega
  · intro m hm e he hidx
    rcases List.mem_append.mp he with he | he
    · exact h.agrees m hm e he hidx
    · have hlt := (hc.bounds he).1
      have hm' := snapshotIndex_of_some (s := s) hm
      omega

/-- A cut behind the snapshot. -/
theorem Whole.truncateSuffix (h : s.Whole) {k : Nat} (hk : s.snapshotIndex < k) :
    (s.truncateSuffix k).Whole := by
  obtain ⟨b, hb, hcb, hcov⟩ := h.spans
  have htake : (s.truncateSuffix k).entries = s.entries.take (k - (b + 1)) := hcb.filter_lt k
  refine ⟨⟨b, hb, ?_, ?_⟩, fun m hm e he => h.agrees m hm e (List.mem_filter.mp he).1⟩
  · rw [htake]
    exact hcb.take _
  · rw [htake]
    intro hne
    change s.snapshotIndex ≤ _
    have hcov' := hcov fun hnil => hne (by rw [hnil, List.take_nil])
    rw [List.length_take]
    omega

/-- The prefix under the snapshot goes; what is left reaches the snapshot. -/
theorem whole_truncateBefore {b k : Nat} (hc : Contiguous LogEntry.index b s.entries)
    (hb : b ≤ s.snapshotIndex) (hk : k ≤ s.snapshotIndex + 1)
    (hcov : (s.truncateBefore k).entries ≠ [] → s.snapshotIndex ≤ b + s.entries.length)
    (hag : ∀ m, s.loadSnapshotMeta = some m → ∀ e ∈ s.entries,
      e.index = m.lastIncludedIndex → e.term = m.lastIncludedTerm) :
    (s.truncateBefore k).Whole := by
  by_cases hnil : (s.truncateBefore k).entries = []
  · exact Whole.of_nil hnil
  refine ⟨?_, fun m hm e he => hag m hm e (List.mem_filter.mp he).1⟩
  have hcov' := hcov hnil
  have hdrop : (s.truncateBefore k).entries = s.entries.drop (k - (b + 1)) := hc.filter_ge k
  rw [hdrop] at hnil ⊢
  have hlt : k - (b + 1) < s.entries.length := by
    by_contra hge
    exact hnil (List.drop_eq_nil_of_le (by omega))
  refine ⟨b + (k - (b + 1)), ?_, hc.drop hlt.le, fun _ => ?_⟩
  · change b + (k - (b + 1)) ≤ s.snapshotIndex
    omega
  · change s.snapshotIndex ≤ _
    rw [List.length_drop]
    omega

/-- The last position agrees with the log it is read from. -/
theorem Gapless.term_lastLogPosition (h : s.Gapless) {e : LogEntry} (he : e ∈ s.entries)
    (hidx : e.index = s.lastLogPosition.1) : e.term = s.lastLogPosition.2 := by
  obtain ⟨b, -, hc⟩ := h
  unfold lastLogPosition at hidx ⊢
  rcases highest_spec s.entries with h0 | ⟨x, hx, hx'⟩
  · have hpos := (hc.bounds he).1
    rw [h0] at hidx
    dsimp only at hidx
    omega
  · rw [hx'] at hidx ⊢
    rw [hc.eq_of_idx he hx hidx]

/-- No lookup at the boundary contradicts the snapshot. -/
theorem Gapless.agrees (h : s.Gapless) {m : SnapshotMeta}
    (hm : ∀ t, s.termAt m.lastIncludedIndex = some t → t = m.lastIncludedTerm) {e : LogEntry}
    (he : e ∈ s.entries) (hidx : e.index = m.lastIncludedIndex) : e.term = m.lastIncludedTerm := by
  obtain ⟨b, -, hc⟩ := h
  have hsome : (s.termAt m.lastIncludedIndex).isSome = true := by
    rw [termAt, Option.isSome_map, entryAt, List.find?_isSome]
    exact ⟨e, List.mem_reverse.mpr he, decide_eq_true hidx⟩
  obtain ⟨t, ht⟩ := Option.isSome_iff_exists.mp hsome
  obtain ⟨x, hx, hxi, rfl⟩ := mem_of_termAt ht
  rw [hc.eq_of_idx he hx (hidx.trans hxi.symm)]
  exact hm _ ht

end Storage

/-! ## The invariant -/

structure WholeInv (n : RaftNode) : Prop where
  whole : n.storage.Whole
  boundary : n.snapshotBoundary = n.storage.boundary
  /-- The caches do not contradict the log. -/
  tip : ∀ e ∈ n.storage.entries, e.index = n.cachedLastLog.1 → e.term = n.cachedLastLog.2
  arena : ∀ i t, n.logMetadata.getTerm i = some t → ∀ e ∈ n.storage.entries,
    e.index = i → e.term = t
  anchored : Anchored n

namespace WholeInv

variable {n n' : RaftNode}

theorem of_sameStore (h : WholeInv n) (hs : SameStore n n') : WholeInv n' := by
  refine ⟨⟨?_, ?_⟩, ?_, ?_, ?_, h.anchored.of_sameStore hs⟩
  · simp only [Storage.snapshotIndex, Storage.loadSnapshotMeta, hs.entries, hs.snapshot]
    exact h.whole.spans
  · simp only [Storage.loadSnapshotMeta, hs.entries, hs.snapshot]
    exact h.whole.agrees
  · rw [hs.boundary, h.boundary]
    simp only [Storage.boundary, Storage.loadSnapshotMeta, hs.snapshot]
  · rw [hs.entries, hs.cached]
    exact h.tip
  · rw [hs.entries, hs.arena]
    exact h.arena

/-- A batch behind everything there is. -/
theorem stored (h : WholeInv n) {p : Nat} {rest : List LogEntry} (hp : n.storage.Holds p)
    (hc : Contiguous LogEntry.index p rest) (hall : ∀ x ∈ n.storage.entries, x.index ≤ p)
    (hsnap : n.storage.snapshotIndex ≤ p) : WholeInv (n.stored rest) := by
  have hnew : ∀ x ∈ rest, ¬ n.storage.Holds x.index := by
    intro x hx hheld
    have hlt := (hc.bounds hx).1
    rcases hheld with hle | ⟨y, hy, hyx⟩
    · omega
    · have := hall y hy
      omega
  refine ⟨h.whole.append hp hc hall hsnap, h.boundary, ?_, ?_, h.anchored.stored rest⟩
  · intro e he hidx
    rw [n.tip_stored rest] at hidx ⊢
    cases hl : rest.getLast? with
    | none =>
      rw [hl] at hidx
      rcases List.mem_append.mp he with he | he
      · exact h.tip e he hidx
      · rw [List.getLast?_eq_none_iff.mp hl] at he
        cases he
    | some x =>
      rw [hl] at hidx
      have hx := List.mem_of_getLast? hl
      rcases List.mem_append.mp he with he | he
      · exact absurd (.inr ⟨e, he, hidx⟩) (hnew x hx)
      · exact congrArg LogEntry.term (hc.eq_of_idx he hx hidx)
  · intro i t hi e he hei
    rcases Coherent.foldl_getTerm hi with ⟨x, hx, rfl, rfl⟩ | hold
    · rcases List.mem_append.mp he with he | he
      · exact absurd (.inr ⟨e, he, hei⟩) (hnew x hx)
      · rw [hc.eq_of_idx he hx hei]
    · rcases List.mem_append.mp he with he | he
      · exact h.arena i t hold e he hei
      · exact absurd (hei ▸ h.anchored.arena i t hold) (hnew e he)

theorem cutAt (h : WholeInv n) {e : LogEntry} {rest : List LogEntry}
    (hlt : n.storage.snapshotIndex < e.index) : WholeInv (n.cutAt (e :: rest)) := by
  have hw := h.whole.truncateSuffix hlt
  refine ⟨hw, h.boundary, fun x hx hidx => hw.gapless.term_lastLogPosition hx hidx, ?_,
    h.anchored.cutAt _⟩
  intro i t hi x hx
  obtain ⟨-, hold⟩ := LogMetadataArena.getTerm_truncateSuffix hi
  exact h.arena i t hold x (List.mem_filter.mp hx).1

variable {m : SnapshotMeta}

/-- A node that re-anchors on its saved snapshot. -/
theorem anchorOnSnapshot {b : Nat} (hm : n.storage.loadSnapshotMeta = some m)
    (hc : Contiguous LogEntry.index b n.storage.entries) (hb : b ≤ m.lastIncludedIndex)
    (hcov : (n.storage.truncateBefore (satAdd m.lastIncludedIndex 1)).entries ≠ [] →
      m.lastIncludedIndex ≤ b + n.storage.entries.length) : WholeInv (n.anchorOnSnapshot m) := by
  have hidx := Storage.snapshotIndex_of_some hm
  have hsnap := (loadSnapshotMeta_anchorOnSnapshot n m).trans hm
  have hwhole : (n.anchorOnSnapshot m).storage.Whole := by
    unfold RaftNode.anchorOnSnapshot
    dsimp only
    split
    · refine Storage.Whole.of_nil (List.filter_eq_nil_iff.mpr fun e he => ?_)
      have hpos := (hc.bounds he).1
      simp only [decide_eq_true_eq]
      omega
    · rename_i hno
      refine Storage.whole_truncateBefore hc (hidx ▸ hb) (hidx ▸ satAdd_le _ _)
        (hidx ▸ hcov) ?_
      intro m' hm' e he hei
      obtain rfl : m = m' := Option.some.inj (hm.symm.trans hm')
      refine Storage.Gapless.agrees ⟨b, hidx ▸ hb, hc⟩ (fun t ht => ?_) he hei
      unfold RaftNode.boundaryConflict at hno
      rw [ht] at hno
      simpa using hno
  refine ⟨hwhole, ?_, fun e he hei => hwhole.agrees m hsnap e he hei, fun i t hi => ?_,
    Anchored.anchorOnSnapshot hm⟩
  · rw [Storage.boundary, hsnap]
    rfl
  · simp [RaftNode.anchorOnSnapshot] at hi

theorem completeSnapshot (h : WholeInv n) (hmeets : n.Meets m) (bytes : List UInt8) :
    WholeInv (n.completeSnapshot m bytes) := by
  obtain ⟨hmax, -, hhead⟩ := hmeets
  obtain ⟨b, -, hc, -⟩ := h.whole.spans
  have hs := storage_commitSnapshot { n with storage := n.storage.saveSnapshot m bytes } m
  obtain ⟨b', hb', hc'⟩ : ∃ b' ≤ m.lastIncludedIndex,
      Contiguous LogEntry.index b' n.storage.entries := by
    cases hent : n.storage.entries with
    | nil => exact ⟨0, Nat.zero_le _, trivial⟩
    | cons e tl =>
      rw [hent] at hc hhead
      have hle := hhead e rfl
      have hidx := hc.1
      exact ⟨b, by omega, hc⟩
  refine anchorOnSnapshot (b := b') (by rw [hs]; rfl) (by rw [hs]; exact hc') hb' ?_
  rw [hs]
  intro hne
  obtain ⟨x, hx⟩ := List.exists_mem_of_ne_nil _ hne
  obtain ⟨hx, hge⟩ := List.mem_filter.mp hx
  have hle := (hc'.bounds hx).2
  have hge' : satAdd m.lastIncludedIndex 1 ≤ x.index := of_decide_eq_true hge
  have hsat : m.lastIncludedIndex ≤ satAdd m.lastIncludedIndex 1 := by
    unfold satAdd
    split <;> omega
  exact (hsat.trans hge').trans hle

theorem restoredFrom (h : WholeInv n) (hm : n.storage.loadSnapshotMeta = some m) :
    WholeInv (n.restoredFrom m) := by
  obtain ⟨b, hb, hc, hcov⟩ := h.whole.spans
  have hidx := Storage.snapshotIndex_of_some hm
  have hs : { n.commitSnapshot m with lastApplied := m.lastIncludedIndex }.storage =
      n.storage := storage_commitSnapshot n m
  refine anchorOnSnapshot (b := b) (by rw [hs]; exact hm) (by rw [hs]; exact hc)
    (hidx ▸ hb) ?_
  rw [hs, ← hidx]
  intro hne
  obtain ⟨x, hx⟩ := List.exists_mem_of_ne_nil _ hne
  exact hcov (List.ne_nil_of_mem (List.mem_filter.mp hx).1)

theorem compacted (h : WholeInv n) {term : Nat} (bytes : List UInt8) (hpos : n.lastApplied ≠ 0)
    (hlt : ∀ m, n.storage.loadSnapshotMeta = some m → m.lastIncludedIndex < n.lastApplied)
    (hk : TermKnown n n.lastApplied term) :
    WholeInv (n.compacted term bytes n.compactionHorizon) := by
  obtain ⟨hold, e, he, hei⟩ := h.anchored.applied_stored h.boundary hpos hlt hk
  obtain ⟨b, hb, hc, -⟩ := h.whole.spans
  have hhor := compactionHorizon_le n
  have hterm : ∀ x ∈ n.storage.entries, x.index = n.lastApplied → x.term = term := by
    intro x hx hxi
    rcases hk with ⟨hz, -⟩ | hk | hk | hk | hk
    · exact absurd hz hpos
    · have htip := h.tip x hx
      rw [hk] at htip
      exact htip hxi
    · exact h.arena _ _ hk x hx hxi
    · have hfst := n.storage.boundary_fst
      rw [← h.boundary, hk] at hfst
      exact absurd hfst hold.ne'
    · obtain ⟨y, hy, hyi, rfl⟩ := Storage.mem_of_termAt hk
      rw [hc.eq_of_idx hx hy (hxi.trans hyi.symm)]
  have hreach : n.lastApplied ≤ b + n.storage.entries.length := hei ▸ (hc.bounds he).2
  have hag : ∀ m, (n.storage.saveSnapshot ⟨n.lastApplied, term⟩ bytes).loadSnapshotMeta =
      some m → ∀ x ∈ n.storage.entries, x.index = m.lastIncludedIndex →
        x.term = m.lastIncludedTerm := by
    intro m hm
    cases hm
    exact hterm
  refine ⟨?_, ?_, fun x hx => h.tip x (mem_compacted.mp hx).1,
    fun i t hi x hx => h.arena i t hi x (mem_compacted.mp hx).1,
    h.anchored.tip.compacted hold.le term bytes,
    fun i t hi => (h.anchored.arena i t hi).compacted hold.le term bytes⟩
  · have hb' : b ≤ n.lastApplied := hb.trans hold.le
    unfold RaftNode.compacted
    dsimp only
    split
    · exact Storage.whole_truncateBefore (s := n.storage.saveSnapshot _ bytes) hc hb'
        (hhor.trans (Nat.le_succ _)) (fun _ => hreach) hag
    · exact ⟨⟨b, hb', hc, fun _ => hreach⟩, hag⟩
  · rw [Storage.boundary, loadSnapshotMeta_compacted]
    rfl

/-- Where no lookup finds a term nothing is stored. -/
theorem missing_lt (h : WholeInv n) {e : LogEntry} (hlt : n.storage.snapshotIndex < e.index)
    (hnone : n.localTerm e.index = none) : ∀ x ∈ n.storage.entries, x.index < e.index := by
  intro x hx
  by_contra hge
  obtain ⟨b, hb, hc, -⟩ := h.whole.spans
  have hle := (hc.bounds hx).2
  obtain ⟨y, hy, hye⟩ := hc.exists_idx (j := e.index) (by omega) (by omega)
  have hterm : n.storage.termAt e.index = none := by
    unfold RaftNode.localTerm at hnone
    split at hnone
    · cases hnone
    · exact hnone
  rw [Storage.termAt, Option.map_eq_none_iff, Storage.entryAt, List.find?_eq_none] at hterm
  exact hterm y (List.mem_reverse.mpr hy) (decide_eq_true hye)

theorem spliced (h : WholeInv n) {msg : AppendEntries} {entries : List LogEntry}
    (hp : n.prevOk msg = true) (hext : n.Extends msg entries) :
    WholeInv (n.spliced msg entries) := by
  obtain ⟨hc, hext⟩ := hext
  unfold RaftNode.spliced
  cases hs : n.scan msg entries with
  | malformed => exact h
  | matched => exact h
  | missing rest =>
    rw [hs] at hext
    obtain ⟨-, p, hheld, hrest⟩ := h.anchored.scan_missing hp hc hs
    obtain ⟨pre, e, tl, rfl, rfl, -, hnone⟩ := scanEntries_missing hs
    have hlt := hext e rfl
    have hidx := hrest.1
    have hall := h.missing_lt hlt hnone
    exact h.stored hheld hrest (fun x hx => by have := hall x hx; omega) (by omega)
  | conflict rest =>
    rw [hs] at hext
    have hatt := (h.anchored.scan_conflict hp hc hs).cutAt
    obtain ⟨pre, e, tl, t, rfl, rfl, -⟩ := scanEntries_conflict hs
    obtain ⟨-, p, hheld, hrest⟩ := hatt
    have hlt := (hext e rfl).1
    have hidx := hrest.1
    refine (h.cutAt hlt).stored hheld hrest (fun x hx => ?_) ?_
    · have hx' : x.index < e.index := of_decide_eq_true (List.mem_filter.mp hx).2
      omega
    · change n.storage.snapshotIndex ≤ p
      omega

/-- A leader's batch behind its tip. -/
theorem proposed (h : WholeInv n) (htip : n.cachedLastLog = n.storage.effectiveTip)
    (hlt : n.cachedLastLog.1 < u64Max) (payloads : List EntryPayload) :
    WholeInv (n.stored (n.proposedBatch payloads)) := by
  have hc := contiguous_proposedBatch hlt payloads
  obtain ⟨b, hb, hcb, hcov⟩ := h.whole.spans
  refine h.stored h.anchored.tip hc (fun x hx => ?_) ?_
  · rw [htip, Storage.effectiveTip, if_neg (List.ne_nil_of_mem hx)]
    exact Storage.le_highest hx
  · rw [htip, Storage.effectiveTip]
    split
    · exact n.storage.boundary_fst.ge
    · rename_i hne
      rw [Storage.lastLogPosition, Storage.highest_of_contiguous hcb hne]
      exact hcov hne

end WholeInv

/-! ## Committed entries -/

/-- The entries of `s` up to `c` are in `s'`, or went with a prefix that the
snapshot of `s'` covers. -/
def KeptTo (c : Nat) (s s' : Storage) : Prop :=
  ∀ x ∈ s.entries, x.index ≤ c →
    x ∈ s'.entries ∨ x.index ≤ s'.snapshotIndex ∧ ∀ y ∈ s'.entries, x.index < y.index

namespace KeptTo

variable {c : Nat} {n : RaftNode}

theorem of_mem {s s' : Storage} (h : ∀ x ∈ s.entries, x.index ≤ c → x ∈ s'.entries) :
    KeptTo c s s' :=
  fun x hx hle => .inl (h x hx hle)

theorem cutAt {e : LogEntry} {rest : List LogEntry} (h : c < e.index) :
    KeptTo c n.storage (n.cutAt (e :: rest)).storage :=
  of_mem fun _ hx hle => List.mem_filter.mpr ⟨hx, decide_eq_true (hle.trans_lt h)⟩

theorem spliced {msg : AppendEntries} {entries : List LogEntry} (h : n.Extends msg entries) :
    KeptTo n.softState.commitIndex n.storage (n.spliced msg entries).storage := by
  obtain ⟨-, h⟩ := h
  unfold RaftNode.spliced
  cases hs : n.scan msg entries with
  | malformed => exact of_mem fun x hx _ => hx
  | matched => exact of_mem fun x hx _ => hx
  | missing rest => exact of_mem fun x hx _ => List.mem_append_left rest hx
  | conflict rest =>
    rw [hs] at h
    obtain ⟨pre, e, tl, t, rfl, rfl, -⟩ := scanEntries_conflict hs
    have hlt := (h e rfl).2
    exact of_mem fun x hx hle => List.mem_append_left _
      (List.mem_filter.mpr ⟨hx, decide_eq_true (hle.trans_lt hlt)⟩)

theorem anchorOnSnapshot {m : SnapshotMeta} (hm : n.storage.loadSnapshotMeta = some m)
    (hpos : ∀ e ∈ n.storage.entries, 0 < e.index)
    (hconf : n.boundaryConflict m = true → c ≤ m.lastIncludedIndex) :
    KeptTo c n.storage (n.anchorOnSnapshot m).storage := by
  intro x hx hle
  have hidx := Storage.snapshotIndex_of_some
    ((loadSnapshotMeta_anchorOnSnapshot n m).trans hm)
  rw [hidx]
  unfold RaftNode.anchorOnSnapshot
  dsimp only
  split
  · rename_i hc
    refine .inr ⟨hle.trans (hconf hc), fun y hy => ?_⟩
    obtain ⟨hy, hlt⟩ := List.mem_filter.mp hy
    have hlt' : y.index < 1 := of_decide_eq_true hlt
    exact absurd (hpos y hy) (by omega)
  · have hsat := satAdd_le m.lastIncludedIndex 1
    by_cases hk : satAdd m.lastIncludedIndex 1 ≤ x.index
    · exact .inl (List.mem_filter.mpr ⟨hx, decide_eq_true hk⟩)
    · refine .inr ⟨by omega, fun y hy => ?_⟩
      have hge : satAdd m.lastIncludedIndex 1 ≤ y.index :=
        of_decide_eq_true (List.mem_filter.mp hy).2
      omega

theorem compacted (n : RaftNode) (term : Nat) (bytes : List UInt8) :
    KeptTo c n.storage (n.compacted term bytes n.compactionHorizon).storage := by
  intro x hx _
  have hhor := compactionHorizon_le n
  rw [Storage.snapshotIndex_of_some (loadSnapshotMeta_compacted n term bytes _)]
  by_cases hk : n.compactionHorizon ≤ x.index
  · exact .inl (mem_compacted.mpr ⟨hx, hk⟩)
  · refine .inr ⟨?_, fun y hy => ?_⟩
    · change x.index ≤ n.lastApplied
      omega
    · have hge := (mem_compacted.mp hy).2
      omega

end KeptTo

variable {n n' : RaftNode} {m : SnapshotMeta}

theorem WholeInv.positive (h : WholeInv n) : ∀ e ∈ n.storage.entries, 0 < e.index := by
  obtain ⟨b, -, hc, -⟩ := h.whole.spans
  exact fun e he => (hc.bounds he).1.pos

/-- A saved snapshot agrees with the log it was taken from. -/
theorem WholeInv.boundaryConflict (h : WholeInv n) (hm : n.storage.loadSnapshotMeta = some m) :
    n.boundaryConflict m = false := by
  unfold RaftNode.boundaryConflict
  split
  · rename_i t ht
    obtain ⟨e, he, hei, rfl⟩ := Storage.mem_of_termAt ht
    simpa using h.whole.agrees m hm e he hei
  · rfl

theorem WholeInv.kept_completeSnapshot (h : WholeInv n) (hmeets : n.Meets m) (bytes : List UInt8) :
    KeptTo n.softState.commitIndex n.storage (n.completeSnapshot m bytes).storage := by
  have hs := storage_commitSnapshot { n with storage := n.storage.saveSnapshot m bytes } m
  have hkept := KeptTo.anchorOnSnapshot (c := n.softState.commitIndex)
    (n := { n with storage := n.storage.saveSnapshot m bytes }.commitSnapshot m) (m := m)
    (by rw [hs]; rfl) (by rw [hs]; exact h.positive) (by
      rw [boundaryConflict_congr (n := n) (by rw [hs]; rfl)]
      exact hmeets.2.1)
  rw [hs] at hkept
  exact hkept

theorem WholeInv.kept_restoredFrom (h : WholeInv n) (hm : n.storage.loadSnapshotMeta = some m) :
    KeptTo n.softState.commitIndex n.storage (n.restoredFrom m).storage := by
  have hs : { n.commitSnapshot m with lastApplied := m.lastIncludedIndex }.storage =
      n.storage := storage_commitSnapshot n m
  have hkept := KeptTo.anchorOnSnapshot (c := n.softState.commitIndex)
    (n := { n.commitSnapshot m with lastApplied := m.lastIncludedIndex }) (m := m)
    (by rw [hs]; exact hm) (by rw [hs]; exact h.positive) (by
      rw [boundaryConflict_congr (n := n) (by rw [hs]), h.boundaryConflict hm]
      exact fun hf => absurd hf Bool.false_ne_true)
  rw [hs] at hkept
  exact hkept

/-- Entries only go with a prefix under a snapshot that does not go back. -/
structure Trims (s s' : Storage) : Prop where
  snapshot : s.snapshotIndex ≤ s'.snapshotIndex
  subset : ∀ y ∈ s'.entries, y ∈ s.entries
  kept : ∀ c, KeptTo c s s'

theorem KeptTo.trims {c : Nat} {s s' s'' : Storage} (h : KeptTo c s s')
    (ht : Trims s' s'') : KeptTo c s s'' := by
  intro x hx hle
  rcases h x hx hle with hmem | ⟨hcov, hlt⟩
  · exact ht.kept c x hmem hle
  · exact .inr ⟨hcov.trans ht.snapshot, fun y hy => hlt y (ht.subset y hy)⟩

theorem Trims.refl (s : Storage) : Trims s s :=
  ⟨le_rfl, fun _ hy => hy, fun _ => .of_mem fun _ hx _ => hx⟩

theorem Trims.of_sameStore (h : SameStore n n') : Trims n.storage n'.storage := by
  refine ⟨?_, fun y hy => h.entries ▸ hy, fun c => .of_mem fun x hx _ => ?_⟩
  · simp only [Storage.snapshotIndex, Storage.loadSnapshotMeta, h.snapshot, le_refl]
  · rw [h.entries]
    exact hx

/-! ## Effects and runs -/

theorem LogEffect.whole {sc : Scope} (he : LogEffect sc n n') (h : WholeInv n)
    (hk : ∀ sender msg entries, Receives sc n sender msg entries → n.Extends msg entries)
    (hi : ∀ sender msg chunk, sc.rx ⟨sender, .installSnapshot msg chunk⟩ →
      sc.completes sender msg chunk → Arrived sc n → n.Meets msg.snapshotMeta)
    (hl : sc.appends → Arrived sc n →
      n.cachedLastLog = n.storage.effectiveTip ∧ n.cachedLastLog.1 < u64Max) :
    WholeInv n' ∧ (Arrived sc n ∧ KeptTo n.softState.commitIndex n.storage n'.storage ∨
      Trims n.storage n'.storage) := by
  have hanch := logInvariant_anchored.logEffect he h.anchored
  cases he with
  | cut sender msg entries rest hr hscan =>
    obtain ⟨-, hext⟩ := hk sender msg entries hr
    rw [hscan] at hext
    obtain ⟨pre, e, tl, t, rfl, rfl, -⟩ := scanEntries_conflict hscan
    obtain ⟨hsnap, hcommit⟩ := hext e rfl
    exact ⟨h.cutAt hsnap, .inl ⟨hr.toArrived, .cutAt hcommit⟩⟩
  | spliced sender msg entries hr =>
    have hext := hk sender msg entries hr
    exact ⟨h.spliced hr.prevOk hext, .inl ⟨hr.toArrived, .spliced hext⟩⟩
  | accepted sender msg entries reply hr =>
    have hext := hk sender msg entries hr
    have hs := SameStore.accepted n msg entries reply sender
      (((n.tookOver msg entries).adopted msg.leaderCommit).ackOf msg)
    exact ⟨(h.spliced hr.prevOk hext).of_sameStore hs,
      .inl ⟨hr.toArrived, (KeptTo.spliced hext).trims (Trims.of_sameStore hs)⟩⟩
  | led payloads happ harr =>
    obtain ⟨htip, hlt⟩ := hl happ harr
    exact ⟨h.proposed htip hlt payloads,
      .inl ⟨harr, .of_mem fun x hx _ => List.mem_append_left _ hx⟩⟩
  | learned index t ht =>
    refine ⟨⟨h.whole, h.boundary, h.tip, fun i u hi e he hei => ?_, hanch⟩,
      .inr (Trims.refl _)⟩
    rcases LogMetadataArena.getTerm_append hi with ⟨rfl, rfl⟩ | ⟨-, hold⟩
    · obtain ⟨x, hx, hxi, rfl⟩ := Storage.mem_of_termAt ht
      obtain ⟨b, -, hc, -⟩ := h.whole.spans
      rw [hc.eq_of_idx he hx (hei.trans hxi.symm)]
    · exact h.arena i u hold e he hei
  | installed sender msg chunk bytes _ hrx _ hf _ hcomp =>
    obtain ⟨m, hfresh, hsame, -⟩ := hf
    have hmeets := hi sender msg chunk hrx hcomp ⟨m, hfresh, hsame⟩
    exact ⟨h.completeSnapshot hmeets bytes,
      .inl ⟨⟨m, hfresh, hsame⟩, h.kept_completeSnapshot hmeets bytes⟩⟩
  | restored m _ harr hm =>
    exact ⟨h.restoredFrom hm, .inl ⟨harr, h.kept_restoredFrom hm⟩⟩
  | compacted term bytes _ hpos hlt hterm =>
    refine ⟨h.compacted bytes hpos hlt hterm, .inr ⟨?_, fun y hy => (mem_compacted.mp hy).1,
      fun c => .compacted n term bytes⟩⟩
    rw [Storage.snapshotIndex_of_some (loadSnapshotMeta_compacted n term bytes _)]
    exact snapshotIndex_le_lastApplied hlt

theorem SameLog.extends {n m : RaftNode} (h : SameLog n m) {msg : AppendEntries}
    {entries : List LogEntry} (he : n.Extends msg entries) : m.Extends msg entries := by
  unfold RaftNode.Extends Storage.snapshotIndex Storage.loadSnapshotMeta at he ⊢
  rw [h.scan, h.snapshot, h.commit]
  exact he

theorem SameLog.meets {n m : RaftNode} (h : SameLog n m) {snap : SnapshotMeta}
    (hm : n.Meets snap) : m.Meets snap := by
  unfold RaftNode.Meets at hm ⊢
  rw [boundaryConflict_congr h.entries, h.commit, h.entries]
  exact hm

theorem Action.whole {a : Action} (h : WholeInv n) (hok : a.KeepsLog n) :
    WholeInv (a.run n) ∧ KeptTo n.softState.commitIndex n.storage (a.run n).storage := by
  refine Action.preserves
    (P := fun m => WholeInv m ∧ KeptTo n.softState.commitIndex n.storage m.storage)
    ⟨h, (Trims.refl n.storage).kept _⟩ ?_
  rintro m m' ⟨hm, hkept⟩ he
  rcases he.store with hs | hl
  · exact ⟨hm.of_sameStore hs, hkept.trims (Trims.of_sameStore hs)⟩
  have hext : ∀ sender msg entries, Receives (a.scope n False) m sender msg entries →
      m.Extends msg entries := by
    intro sender msg entries hr
    obtain ⟨hlog, hterm⟩ := hr.arrived
    have hprev : n.prevOk msg = true := hlog.prevOk msg ▸ hr.prevOk
    rcases hr.rx with hrx | hrx
    · exact hlog.extends (hok.frame _ hrx hterm hprev)
    · exact hlog.extends (hok.frame _ hrx hterm hprev)
  obtain ⟨hm', hstep⟩ := hl.whole hm hext (by
    intro sender msg chunk hrx hcomp harr
    exact harr.of_scope.meets (hok.frame _ hrx hcomp)) (by
    intro happ harr
    have hlog := harr.of_scope
    simp only [Storage.effectiveTip, Storage.boundary, Storage.loadSnapshotMeta,
      Storage.lastLogPosition, hlog.cached, hlog.entries, hlog.snapshot]
    exact hok.append happ)
  refine ⟨hm', ?_⟩
  rcases hstep with ⟨harr, hstep⟩ | ht
  · have hlog := harr.of_scope
    rw [hlog.commit] at hstep
    exact fun x hx hle => hstep x (hlog.entries ▸ hx) hle
  · exact hkept.trims ht

theorem RaftNode.wholeInv_fromStorage (config : NodeConfig) {s : Storage}
    (sent : List SentFrame) (env : Env) (h : s.Whole) : WholeInv (fromStorage config s sent env) :=
  ⟨h, rfl, fun _ he hidx => h.gapless.term_lastLogPosition he hidx,
    fun i t hi => by simp [fromStorage] at hi, anchored_fromStorage config s sent env⟩

theorem Event.whole {e : Event} (h : WholeInv n) (hok : e.KeepsLog n) (hnext : e.next n = some n') :
    WholeInv n' ∧ KeptTo n.softState.commitIndex n.storage n'.storage := by
  cases e with
  | act env a =>
    cases hnext
    have hw : WholeInv (n.within env) :=
      ⟨h.whole, h.boundary, h.tip, h.arena, h.anchored.tip, h.anchored.arena⟩
    exact Action.whole hw hok
  | restart env config =>
    obtain ⟨-, rfl⟩ := Event.next_restart hnext
    exact ⟨RaftNode.wholeInv_fromStorage config n.sent env h.whole,
      (Trims.refl n.storage).kept _⟩

/-- In every state reached by steps that keep the log the entries in storage are
consecutive and begin at most one behind the snapshot, and no such step takes a
committed entry away other than with a prefix that the snapshot covers. -/
theorem log_gapless_and_kept {n₀ n : RaftNode} (h₀ : Booted n₀)
    (hs : n₀.storage.Whole) (h : NodeRun Event.KeepsLog n₀ n) :
    n.storage.Gapless ∧ ∀ (e : Event) (n' : RaftNode), e.KeepsLog n → e.next n = some n' →
      KeptTo n.softState.commitIndex n.storage n'.storage := by
  have hinv : WholeInv n := by
    refine NodeRun.invariant h ?_ fun _ _ _ hm hok hnext => (Event.whole hm hok hnext).1
    obtain ⟨config, storage, env, rfl⟩ := h₀.eq
    exact RaftNode.wholeInv_fromStorage config [] env hs
  exact ⟨hinv.whole.gapless, fun e n' hok hnext => (Event.whole hinv hok hnext).2⟩

/-- A node with a snapshot through 20 and the entries 21 to 25 stores and
commits entry 26; it keeps them when it restores its snapshot. -/
theorem log_gapless_and_kept_behind_snapshot :
    let n := (Action.inbound ⟨2, .appendEntries ⟨1, 2, 25, 1, 26, 0⟩ [⟨1, 26, [7]⟩]⟩).run
      (trioNode 1 retainedTail)
    n.softState.commitIndex = 26 ∧ n.storage.Gapless ∧
      KeptTo 26 n.storage (Action.restore.run n).storage := by
  refine ⟨rfl, ?_⟩
  have hrun : NodeRun Event.KeepsLog (trioNode 1 retainedTail) _ :=
    NodeRun.act (Env.calm 0)
      (.inbound ⟨2, .appendEntries ⟨1, 2, 25, 1, 26, 0⟩ [⟨1, 26, [7]⟩]⟩) (by
        refine ⟨?_, by decide⟩
        rintro f ⟨⟩ _ _
        refine ⟨⟨rfl, trivial⟩, ?_⟩
        change ∀ e ∈ [(⟨1, 26, [7]⟩ : LogEntry)].head?, 20 < e.index
        decide)
  have hwhole : retainedTail.Whole := by
    refine ⟨⟨20, le_rfl, ⟨rfl, rfl, rfl, rfl, rfl, trivial⟩, fun _ => by decide⟩, ?_⟩
    rintro m ⟨⟩
    decide
  obtain ⟨hgap, hstep⟩ := log_gapless_and_kept (booted_trioNode_one _) hwhole hrun
  exact ⟨hgap, hstep (.act (Env.calm 0) .restore) _ ⟨by rintro f ⟨⟩, by decide⟩ rfl⟩

/-- Node 1 of three, compacting after every applied entry. -/
def compactingConfig : NodeConfig :=
  { trioConfig 1 with
    limits :=
      { LimitsConfig.initial with compactionThresholdEntries := 1, compactionMinRetain := 0 } }

/-- The leader of term 1 ships its first two entries, committed. -/
def firstBatch : Event :=
  .act (Env.calm 0)
    (.inbound ⟨2, .appendEntries ⟨1, 2, 0, 0, 2, 0⟩ [⟨1, 1, [7]⟩, ⟨1, 2, [8]⟩]⟩)

/-- The node applies and compacts them and restarts, and the batch arrives once
more. -/
def redeliverAfterCompaction : List Event :=
  [firstBatch, .act (Env.calm 0) .applyNext, .act (Env.calm 0) .applyNext,
    .act (Env.calm 0) .compact, .restart (Env.calm 0) compactingConfig, firstBatch]

/-- The redelivered batch is appended again behind its own second entry, and an
old snapshot that arrives late leaves a hole in front of the log. -/
theorem log_gap_after_redelivery :
    (∃ n₀, RaftNode.new compactingConfig (.empty false) [] (Env.calm 0) = .ok n₀ ∧
      (Event.nextAll redeliverAfterCompaction n₀).map
        (fun n => n.storage.entries.map LogEntry.index) = some [2, 1, 2]) ∧
      (Event.nextAll [.act (Env.calm 0)
          (.inbound ⟨2, .installSnapshot ⟨1, 2, 10, 1, 0, 0, true⟩ []⟩)]
        (trioNode 1 retainedTail)).map
        (fun n => (n.storage.snapshotIndex, n.storage.entries.map LogEntry.index)) =
        some (10, [21, 22, 23, 24, 25]) :=
  ⟨⟨_, rfl, rfl⟩, rfl⟩

end ArbitroRaft
