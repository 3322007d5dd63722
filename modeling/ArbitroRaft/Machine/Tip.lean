import ArbitroRaft.Machine.Anchored

/-!
# The tip cache

The effective tip of a node is the last entry of its log, or the boundary of
its snapshot when the log is empty.  The tip cache is meant to equal it: a
leader numbers its entries from the cache.  There are steps after which it does
not, because the cache is refreshed from the log alone or from the snapshot
alone, and `TipStep` leaves those out.

## Main results

* `cachedLastLog_eq_effectiveTip`: the two agree along every run of `TipStep`.
-/

namespace ArbitroRaft

open Library

/-- The boundary of the saved snapshot. -/
def Storage.boundary (s : Storage) : Nat × Nat :=
  match s.loadSnapshotMeta with
  | some m => (m.lastIncludedIndex, m.lastIncludedTerm)
  | none => (0, 0)

/-- The last entry of the log, or else the snapshot boundary. -/
def Storage.effectiveTip (s : Storage) : Nat × Nat :=
  if s.entries = [] then s.boundary else s.lastLogPosition

/-! ## The condition -/

/-- The log alone shows the tip: there is no snapshot, or the log reaches
it. -/
def Storage.TipInLog (s : Storage) : Prop :=
  s.snapshot = none ∨ s.entries ≠ [] ∧ s.snapshotIndex ≤ s.lastLogPosition.1

/-- A batch that is stored ends at or behind the tip; where it replaces a tail
it ends at or behind the snapshot, and a refused append leaves a log that shows
the tip. -/
def RaftNode.AppendsAtTip (n : RaftNode) (seeded : Bool) (msg : AppendEntries)
    (entries : List LogEntry) : Prop :=
  Contiguous LogEntry.index msg.prevLogIndex entries ∧
    match n.scan msg entries with
    | .missing _ => n.cachedLastLog.1 ≤ msg.prevLogIndex + entries.length
    | .conflict rest =>
      n.storage.snapshotIndex ≤ msg.prevLogIndex + entries.length ∧
        ((n.cutAt rest).Refuses rest ∨ seeded = true ∧ n.storage.seeded = false →
          (n.cutAt rest).storage.TipInLog)
    | .matched | .malformed => True

/-- The log conflicts with the snapshot at its boundary, or ends there. -/
def RaftNode.CoveredBy (n : RaftNode) (m : SnapshotMeta) : Prop :=
  n.boundaryConflict m = true ∨ ∀ e ∈ n.storage.entries, e.index < satAdd m.lastIncludedIndex 1

def RaftNode.TipSafe (n : RaftNode) (f : InboundRaftMessage) : Prop :=
  match f.message with
  | .appendEntries msg entries =>
    n.hardState.currentTerm ≤ msg.term → n.prevOk msg = true →
      n.AppendsAtTip false msg entries
  | .appendEntriesSeeded msg entries =>
    n.hardState.currentTerm ≤ msg.term → n.prevOk msg = true →
      n.AppendsAtTip true msg entries
  | .installSnapshot msg chunk =>
    n.Completes f.sender msg chunk → n.CoveredBy msg.snapshotMeta
  | _ => True

/-- The action handles such a frame, appends below the numeric limit, and
restores a snapshot that covers the log. -/
structure Action.KeepsTip (a : Action) (n : RaftNode) : Prop where
  frame : ∀ f, a.frame = some f → n.TipSafe f
  append : a.appends = true → n.cachedLastLog.1 < u64Max
  restore : a = .restore → ∀ m, n.storage.loadSnapshotMeta = some m →
    n.lastApplied < m.lastIncludedIndex → n.CoveredBy m

def Event.KeepsTip (n : RaftNode) : Event → Prop
  | .act env a => a.KeepsTip (n.within env)
  | .restart _ _ => n.storage.TipInLog

/-- An event or a truncation of its own that keeps the tip cache. -/
inductive TipStep (n : RaftNode) : RaftNode → Prop
  | event (n' : RaftNode) : NodeStep Event.KeepsTip n n' → TipStep n n'
  | truncate (start : Nat) : (n.storage.truncateSuffix start).TipInLog →
      TipStep n (n.storageTruncate start)

/-! ## The highest entry -/

namespace Storage

theorem boundary_fst (s : Storage) : s.boundary.1 = s.snapshotIndex := by
  unfold boundary snapshotIndex
  cases s.loadSnapshotMeta <;> rfl

theorem highest_append_singleton {l : List LogEntry} {x : LogEntry} (hx : 0 < x.index)
    (h : ∀ e ∈ l, e.index ≤ x.index) : highest (l ++ [x]) = (x.index, x.term) := by
  induction l with
  | nil => exact if_pos hx
  | cons e l ih =>
    rw [List.cons_append, highest, ih fun y hy => h y (List.mem_cons_of_mem e hy),
      if_neg (by have := h e List.mem_cons_self; omega)]

/-- Dropping entries below the highest one keeps it. -/
theorem highest_filter {l : List LogEntry} {k : Nat} (h : k ≤ (highest l).1) :
    highest (l.filter fun e => decide (k ≤ e.index)) = highest l := by
  induction l with
  | nil => rfl
  | cons e l ih =>
    rw [highest] at h ⊢
    split at h
    · rename_i hlt
      have hle : (highest (l.filter fun e => decide (k ≤ e.index))).1 < e.index := by
        rcases highest_spec (l.filter fun e => decide (k ≤ e.index)) with h0 | ⟨x, hx, hmax⟩
        · rw [h0]
          exact lt_of_le_of_lt (Nat.zero_le _) hlt
        · rw [hmax]
          exact lt_of_le_of_lt (le_highest (List.mem_filter.mp hx).1) hlt
      have hkeep : decide (k ≤ e.index) = true := decide_eq_true h
      rw [List.filter_cons, hkeep, if_pos rfl, highest, if_pos hle, if_pos hlt]
    · rename_i hge
      rw [if_neg hge]
      by_cases hk : k ≤ e.index
      · have hkeep : decide (k ≤ e.index) = true := decide_eq_true hk
        rw [List.filter_cons, hkeep, if_pos rfl, highest, ih h, if_neg hge]
      · have hdrop : decide (k ≤ e.index) = false := decide_eq_false hk
        rw [List.filter_cons, hdrop, if_neg Bool.false_ne_true, ih h]

end Storage

variable {n n' : RaftNode}

/-- An applied index behind the snapshot whose term is known is in the log. -/
theorem Anchored.applied_stored (h : Anchored n) {term : Nat}
    (hb : n.snapshotBoundary = n.storage.boundary) (hpos : n.lastApplied ≠ 0)
    (hlt : ∀ m, n.storage.loadSnapshotMeta = some m → m.lastIncludedIndex < n.lastApplied)
    (hk : TermKnown n n.lastApplied term) :
    n.storage.snapshotIndex < n.lastApplied ∧
      ∃ e ∈ n.storage.entries, e.index = n.lastApplied := by
  have hold : n.storage.snapshotIndex < n.lastApplied := by
    unfold Storage.snapshotIndex
    cases hm : n.storage.loadSnapshotMeta with
    | none => exact Nat.pos_of_ne_zero hpos
    | some m => exact hlt m hm
  have hheld : n.storage.Holds n.lastApplied := by
    rcases hk with ⟨hz, -⟩ | hk | hk | hk | hk
    · exact absurd hz hpos
    · have htip := h.tip
      rw [hk] at htip
      exact htip
    · exact h.arena _ _ hk
    · left
      rw [← Storage.boundary_fst, ← hb, hk]
    · exact Storage.Holds.of_termAt hk
  exact ⟨hold, hheld.resolve_left (by omega)⟩

theorem boundaryConflict_congr (he : n'.storage.entries = n.storage.entries) (m : SnapshotMeta) :
    n'.boundaryConflict m = n.boundaryConflict m := by
  simp only [RaftNode.boundaryConflict, Storage.termAt, Storage.entryAt, he]

/-- Below the numeric limit a leader numbers its entries from its tip cache. -/
theorem contiguous_proposedBatch (hlt : n.cachedLastLog.1 < u64Max) (payloads : List EntryPayload) :
    Contiguous LogEntry.index n.cachedLastLog.1 (n.proposedBatch payloads) := by
  unfold RaftNode.proposedBatch
  rw [satAdd_of_le (by omega)]
  exact contiguous_buildBatch _ _ _

/-! ## The invariant -/

structure TipInv (n : RaftNode) : Prop where
  tip : n.cachedLastLog = n.storage.effectiveTip
  /-- A log that is not empty reaches the snapshot. -/
  covers : n.storage.entries ≠ [] → n.storage.snapshotIndex ≤ n.storage.lastLogPosition.1
  positive : ∀ e ∈ n.storage.entries, 0 < e.index
  boundary : n.snapshotBoundary = n.storage.boundary
  anchored : Anchored n

namespace TipInv

variable {n n' : RaftNode}

theorem of_sameStore (h : TipInv n) (hs : SameStore n n') : TipInv n' := by
  refine ⟨?_, ?_, ?_, ?_, h.anchored.of_sameStore hs⟩
  · rw [hs.cached, h.tip]
    simp only [Storage.effectiveTip, Storage.boundary, Storage.loadSnapshotMeta,
      Storage.lastLogPosition, hs.entries, hs.snapshot]
  · simp only [Storage.snapshotIndex, Storage.loadSnapshotMeta, Storage.lastLogPosition,
      hs.entries, hs.snapshot]
    exact h.covers
  · rw [hs.entries]
    exact h.positive
  · rw [hs.boundary, h.boundary]
    simp only [Storage.boundary, Storage.loadSnapshotMeta, hs.snapshot]

/-- Both the snapshot and every entry are within the tip. -/
theorem snapshotIndex_le (h : TipInv n) : n.storage.snapshotIndex ≤ n.cachedLastLog.1 := by
  rw [h.tip]
  unfold Storage.effectiveTip
  split
  · exact n.storage.boundary_fst.ge
  · rename_i hne
    exact h.covers hne

theorem index_le (h : TipInv n) {e : LogEntry} (he : e ∈ n.storage.entries) :
    e.index ≤ n.cachedLastLog.1 := by
  rw [h.tip]
  unfold Storage.effectiveTip
  rw [if_neg (List.ne_nil_of_mem he)]
  exact Storage.le_highest he

/-- Storage whose log shows the tip, behind a cache read from the log. -/
theorem of_log (hc : n.cachedLastLog = n.storage.lastLogPosition)
    (ht : n.storage.TipInLog) (hp : ∀ e ∈ n.storage.entries, 0 < e.index)
    (hb : n.snapshotBoundary = n.storage.boundary) (ha : Anchored n) : TipInv n := by
  refine ⟨?_, ?_, hp, hb, ha⟩
  · rw [hc]
    unfold Storage.effectiveTip
    split
    · rename_i hnil
      have hnone : n.storage.snapshot = none := ht.resolve_right fun h => h.1 hnil
      simp only [Storage.boundary, Storage.loadSnapshotMeta, hnone, Option.map_none,
        Storage.lastLogPosition, hnil, Storage.highest]
    · rfl
  · intro hne
    rcases ht with hnone | ⟨-, hle⟩
    · simp only [Storage.snapshotIndex, Storage.loadSnapshotMeta, hnone, Option.map_none,
        Option.getD_none]
      exact Nat.zero_le _
    · exact hle

/-- A batch that ends at or behind everything there is. -/
theorem stored (h : Anchored n) {rest : List LogEntry} {p : Nat}
    (hb : n.snapshotBoundary = n.storage.boundary) (hp : ∀ e ∈ n.storage.entries, 0 < e.index)
    (hne : rest ≠ []) (hc : Contiguous LogEntry.index p rest)
    (hk : ∀ e ∈ n.storage.entries, e.index ≤ p + rest.length)
    (hs : n.storage.snapshotIndex ≤ p + rest.length) : TipInv (n.stored rest) := by
  obtain ⟨init, last, rfl⟩ := (List.eq_nil_or_concat' rest).resolve_left hne
  have hlast : last.index = p + (init ++ [last]).length := by
    have := hc.idx_eq (i := init.length) (x := last) (by simp)
    simp only [List.length_append, List.length_singleton]
    omega
  have hhigh : Storage.highest (n.storage.entries ++ (init ++ [last])) =
      (last.index, last.term) := by
    rw [← List.append_assoc]
    refine Storage.highest_append_singleton (hc.bounds (by simp)).1.pos fun e he => ?_
    rw [hlast]
    rcases List.mem_append.mp he with he | he
    · exact hk e he
    · exact (hc.bounds (List.mem_append_left _ he)).2
  refine ⟨?_, fun _ => ?_, ?_, hb, h.stored _⟩
  · change _ = if n.storage.entries ++ (init ++ [last]) = [] then _ else
      Storage.highest (n.storage.entries ++ (init ++ [last]))
    rw [RaftNode.tip_stored_of_last List.getLast?_concat, if_neg (by simp), hhigh]
  · change n.storage.snapshotIndex ≤
      (Storage.highest (n.storage.entries ++ (init ++ [last]))).1
    rw [hhigh, hlast]
    exact hs
  · intro e he
    rcases List.mem_append.mp he with he | he
    · exact hp e he
    · exact (hc.bounds he).1.pos

theorem truncated (h : TipInv n) {start : Nat}
    (ht : (n.storage.truncateSuffix start).TipInLog) : TipInv (n.storageTruncate start) := by
  refine of_log rfl ht (fun e he => h.positive e (List.mem_filter.mp he).1) h.boundary ?_
  exact ⟨Storage.holds_lastLogPosition _, fun i t hi => by
    obtain ⟨hlt, hold⟩ := LogMetadataArena.getTerm_truncateSuffix hi
    exact (h.anchored.arena i t hold).truncateSuffix hlt⟩

variable {m : SnapshotMeta}

/-- Nothing of a covered log is left. -/
theorem entries_anchorOnSnapshot (hp : ∀ e ∈ n.storage.entries, 0 < e.index)
    (hcov : n.CoveredBy m) :
    (n.anchorOnSnapshot m).storage.entries = [] := by
  unfold RaftNode.anchorOnSnapshot
  dsimp only
  split
  · refine List.filter_eq_nil_iff.mpr fun e he => ?_
    have := hp e he
    simp only [decide_eq_true_eq]
    omega
  · rename_i hconf
    refine List.filter_eq_nil_iff.mpr fun e he => ?_
    have := hcov.resolve_left hconf e he
    simp only [decide_eq_true_eq]
    omega

theorem anchorOnSnapshot (hp : ∀ e ∈ n.storage.entries, 0 < e.index)
    (hm : n.storage.loadSnapshotMeta = some m) (hcov : n.CoveredBy m) :
    TipInv (n.anchorOnSnapshot m) := by
  have hnil := entries_anchorOnSnapshot hp hcov
  have hsnap := (loadSnapshotMeta_anchorOnSnapshot n m).trans hm
  have hbound : (n.anchorOnSnapshot m).storage.boundary =
      (m.lastIncludedIndex, m.lastIncludedTerm) := by
    rw [Storage.boundary, hsnap]
  refine ⟨?_, fun hne => absurd hnil hne, ?_, hbound.symm, Anchored.anchorOnSnapshot hm⟩
  · rw [Storage.effectiveTip, if_pos hnil, hbound]
    rfl
  · rw [hnil]
    intro e he
    cases he

theorem coveredBy (he : n'.storage.entries = n.storage.entries) (hcov : n.CoveredBy m) :
    n'.CoveredBy m := by
  unfold RaftNode.CoveredBy
  rw [boundaryConflict_congr he, he]
  exact hcov

theorem completeSnapshot (h : TipInv n) (hcov : n.CoveredBy m) (bytes : List UInt8) :
    TipInv (n.completeSnapshot m bytes) := by
  have hs := storage_commitSnapshot { n with storage := n.storage.saveSnapshot m bytes } m
  have he : ({ n with storage := n.storage.saveSnapshot m bytes }.commitSnapshot m
      ).storage.entries = n.storage.entries := by
    rw [hs]
    rfl
  refine anchorOnSnapshot (he ▸ h.positive) ?_ (coveredBy he hcov)
  rw [hs]
  rfl

theorem restoredFrom (h : TipInv n) (hm : n.storage.loadSnapshotMeta = some m)
    (hcov : n.CoveredBy m) : TipInv (n.restoredFrom m) := by
  have he : (n.commitSnapshot m).storage.entries = n.storage.entries := by
    rw [storage_commitSnapshot]
  refine anchorOnSnapshot (n := { n.commitSnapshot m with lastApplied := m.lastIncludedIndex })
    (he ▸ h.positive) ?_ (coveredBy he hcov)
  change (n.commitSnapshot m).storage.loadSnapshotMeta = some m
  rw [storage_commitSnapshot]
  exact hm

/-- What compaction snapshots is an entry of the log, so the log still reaches
the boundary and its last entry stays. -/
theorem compacted (h : TipInv n) {term : Nat} (bytes : List UInt8) (hpos : n.lastApplied ≠ 0)
    (hlt : ∀ m, n.storage.loadSnapshotMeta = some m → m.lastIncludedIndex < n.lastApplied)
    (hk : TermKnown n n.lastApplied term) :
    TipInv (n.compacted term bytes n.compactionHorizon) := by
  obtain ⟨hold, e, he, hei⟩ := h.anchored.applied_stored h.boundary hpos hlt hk
  have hle : n.lastApplied ≤ n.storage.lastLogPosition.1 := hei ▸ Storage.le_highest he
  have hhor := compactionHorizon_le n
  have hcached : n.cachedLastLog = n.storage.lastLogPosition := by
    rw [h.tip, Storage.effectiveTip, if_neg (List.ne_nil_of_mem he)]
  have hhigh : (n.compacted term bytes n.compactionHorizon).storage.lastLogPosition =
      n.storage.lastLogPosition := by
    unfold RaftNode.compacted
    dsimp only
    split
    · exact Storage.highest_filter (hhor.trans hle)
    · rfl
  have hmeta := loadSnapshotMeta_compacted n term bytes n.compactionHorizon
  have hne : (n.compacted term bytes n.compactionHorizon).storage.entries ≠ [] := by
    intro hnil
    rw [Storage.lastLogPosition, hnil] at hhigh
    rw [← hhigh] at hle
    exact hpos (Nat.le_zero.mp hle)
  have hsnap := hold.le
  refine ⟨?_, fun _ => ?_, fun x hx => h.positive x (mem_compacted.mp hx).1, ?_, ?_⟩
  · rw [Storage.effectiveTip, if_neg hne, hhigh]
    exact hcached
  · rw [hhigh, Storage.snapshotIndex_of_some hmeta]
    exact hle
  · rw [Storage.boundary, hmeta]
    rfl
  · exact ⟨h.anchored.tip.compacted hsnap term bytes,
      fun i t hi => (h.anchored.arena i t hi).compacted hsnap term bytes⟩

/-- The rest of a contiguous batch ends where the batch does. -/
theorem spliced (h : TipInv n) {seeded : Bool} {msg : AppendEntries} {entries : List LogEntry}
    (ha : n.AppendsAtTip seeded msg entries) : TipInv (n.spliced msg entries) := by
  obtain ⟨hc, ha⟩ := ha
  unfold RaftNode.spliced
  cases hs : n.scan msg entries with
  | malformed => exact h
  | matched => exact h
  | missing rest =>
    rw [hs] at ha
    obtain ⟨pre, e, tl, rfl, rfl, -⟩ := scanEntries_missing hs
    have hend := ha
    rw [List.length_append, ← Nat.add_assoc] at hend
    exact .stored h.anchored h.boundary h.positive (List.cons_ne_nil e tl)
      (contiguous_append.mp hc).2 (fun x hx => (h.index_le hx).trans hend)
      (h.snapshotIndex_le.trans hend)
  | conflict rest =>
    rw [hs] at ha
    obtain ⟨pre, e, tl, t, rfl, rfl, -⟩ := scanEntries_conflict hs
    have hend := ha.1
    rw [List.length_append, ← Nat.add_assoc] at hend
    have hrest := (contiguous_append.mp hc).2
    refine .stored (n := n.cutAt (e :: tl)) (h.anchored.cutAt _) h.boundary
      (fun x hx => h.positive x (List.mem_filter.mp hx).1) (List.cons_ne_nil e tl) hrest
      (fun x hx => ?_) hend
    have hlt : x.index < e.index := of_decide_eq_true (List.mem_filter.mp hx).2
    exact hlt.le.trans (hrest.bounds List.mem_cons_self).2

/-- A leader's batch. -/
theorem proposed (h : TipInv n) (hlt : n.cachedLastLog.1 < u64Max)
    (payloads : List EntryPayload) : TipInv (n.stored (n.proposedBatch payloads)) := by
  have hc := contiguous_proposedBatch hlt payloads
  by_cases hnil : n.proposedBatch payloads = []
  · rw [hnil]
    exact h.of_sameStore ⟨List.append_nil _, rfl, rfl, rfl, rfl⟩
  · exact .stored h.anchored h.boundary h.positive hnil hc
      (fun x hx => (h.index_le hx).trans (Nat.le_add_right _ _))
      (h.snapshotIndex_le.trans (Nat.le_add_right _ _))

end TipInv

/-! ## Effects and runs -/

theorem LogEffect.tipInv {sc : Scope} (he : LogEffect sc n n') (h : TipInv n)
    (hk : ∀ sender msg entries, Receives sc n sender msg entries →
      ∃ seeded, n.AppendsAtTip seeded msg entries ∧
        (sc.rx ⟨sender, .appendEntriesSeeded msg entries⟩ → seeded = true))
    (hi : ∀ sender msg chunk, sc.rx ⟨sender, .installSnapshot msg chunk⟩ →
      sc.completes sender msg chunk → Arrived sc n → n.CoveredBy msg.snapshotMeta)
    (hr : ∀ m, sc.restores → Arrived sc n → n.storage.loadSnapshotMeta = some m →
      n.lastApplied < m.lastIncludedIndex → n.CoveredBy m)
    (hl : sc.appends → Arrived sc n → n.cachedLastLog.1 < u64Max) : TipInv n' := by
  have hanch := logInvariant_anchored.logEffect he h.anchored
  cases he with
  | cut sender msg entries rest hrecv hscan href =>
    obtain ⟨seeded, ⟨-, ha⟩, hseed⟩ := hk sender msg entries hrecv
    rw [hscan] at ha
    have hcut := ha.2 (href.imp_right fun hs => ⟨hseed hs.2, hs.1⟩)
    cases rest with
    | nil => exact h
    | cons e tl => exact h.truncated hcut
  | spliced sender msg entries hrecv =>
    obtain ⟨seeded, ha, -⟩ := hk sender msg entries hrecv
    exact h.spliced ha
  | accepted sender msg entries reply hrecv =>
    obtain ⟨seeded, ha, -⟩ := hk sender msg entries hrecv
    exact (h.spliced ha).of_sameStore (SameStore.accepted n msg entries reply sender _)
  | led payloads happ harr => exact h.proposed (hl happ harr) payloads
  | learned index t =>
    exact ⟨h.tip, h.covers, h.positive, h.boundary, hanch⟩
  | installed sender msg chunk bytes _ hrx _ hf _ hcomp =>
    obtain ⟨m, hfresh, hsame, -⟩ := hf
    exact h.completeSnapshot (hi sender msg chunk hrx hcomp ⟨m, hfresh, hsame⟩) bytes
  | restored m hres harr hm hlt => exact h.restoredFrom hm (hr m hres harr hm hlt)
  | compacted term bytes _ hpos hlt hterm => exact h.compacted bytes hpos hlt hterm

theorem SameLog.appendsAtTip {n m : RaftNode} (h : SameLog n m) (henv : m.env = n.env)
    (hseed : m.storage.seeded = n.storage.seeded) {seeded : Bool} {msg : AppendEntries}
    {entries : List LogEntry} (ha : n.AppendsAtTip seeded msg entries) :
    m.AppendsAtTip seeded msg entries := by
  obtain ⟨hc, ha⟩ := ha
  refine ⟨hc, ?_⟩
  rw [h.scan]
  cases hs : n.scan msg entries with
  | malformed => exact trivial
  | matched => exact trivial
  | missing rest =>
    rw [hs] at ha
    dsimp only at ha ⊢
    rw [h.cached]
    exact ha
  | conflict rest =>
    rw [hs] at ha
    obtain ⟨hle, hcut⟩ := ha
    have hst := h.toSameStore.cutAt rest
    refine ⟨?_, fun href => ?_⟩
    · simp only [Storage.snapshotIndex, Storage.loadSnapshotMeta, h.snapshot]
      exact hle
    · simp only [Storage.TipInLog, Storage.snapshotIndex, Storage.loadSnapshotMeta,
        Storage.lastLogPosition, hst.entries, hst.snapshot]
      rw [hseed] at href
      exact hcut (href.imp_left (h.toSameStore.refuses_cutAt henv))

/-- The condition on a frame speaks of the log it arrives at. -/
theorem Action.tipInv {a : Action} (h : TipInv n) (hok : a.KeepsTip n) : TipInv (a.run n) := by
  have hall : TipInv (a.run n) ∧ (a.run n).env = n.env ∧
      (a.run n).storage.seeded = n.storage.seeded := by
    refine Action.preserves
      (P := fun m => TipInv m ∧ m.env = n.env ∧ m.storage.seeded = n.storage.seeded)
      ⟨h, rfl, rfl⟩ ?_
    rintro m m' ⟨hm, henv, hseed⟩ he
    obtain ⟨henv', hseed'⟩ := he.wire.surroundings
    refine ⟨?_, henv'.trans henv, hseed'.trans hseed⟩
    rcases he.store with hs | hl
    · exact hm.of_sameStore hs
    refine hl.tipInv hm ?_ ?_ ?_ ?_
    · intro sender msg entries hr
      obtain ⟨hlog, hterm⟩ := hr.arrived
      have hprev : n.prevOk msg = true := hlog.prevOk msg ▸ hr.prevOk
      exact hr.by_kind (P := fun seeded => m.AppendsAtTip seeded msg entries)
        (fun hrx => hlog.appendsAtTip henv hseed (hok.frame _ hrx hterm hprev))
        (fun hrx => hlog.appendsAtTip henv hseed (hok.frame _ hrx hterm hprev))
    · intro sender msg chunk hrx hcomp harr
      exact TipInv.coveredBy harr.of_scope.entries (hok.frame _ hrx hcomp)
    · intro snap hres harr hsnap hlt
      have hlog := harr.of_scope
      rw [Storage.loadSnapshotMeta, hlog.snapshot] at hsnap
      rw [hlog.applied] at hlt
      exact TipInv.coveredBy hlog.entries (hok.restore hres snap hsnap hlt)
    · intro happ harr
      rw [harr.of_scope.cached]
      exact hok.append happ
  exact hall.1

theorem RaftNode.tipInv_fromStorage (config : NodeConfig) {s : Storage}
    (sent : List SentFrame) (env : Env) (ht : s.TipInLog) (hp : ∀ e ∈ s.entries, 0 < e.index) :
    TipInv (fromStorage config s sent env) :=
  .of_log rfl ht hp rfl (anchored_fromStorage config s sent env)

theorem TipStep.tipInv (hstep : TipStep n n') (h : TipInv n) : TipInv n' := by
  cases hstep with
  | event _ he =>
    obtain ⟨e, hok, hnext⟩ := he
    cases e with
    | act env a =>
      cases hnext
      have hw : TipInv (n.within env) :=
        ⟨h.tip, h.covers, h.positive, h.boundary, h.anchored.tip, h.anchored.arena⟩
      exact Action.tipInv hw hok
    | restart env config =>
      obtain ⟨-, rfl⟩ := Event.next_restart hnext
      exact RaftNode.tipInv_fromStorage config n.sent env hok h.positive
  | truncate start ht => exact h.truncated ht

/-- In every state reached by steps that keep it the tip cache is the effective
tip, and a leader's entries come behind everything in its log and its
snapshot. -/
theorem cachedLastLog_eq_effectiveTip {n₀ n : RaftNode} (h₀ : Booted n₀) (ht : n₀.storage.TipInLog)
    (hp : ∀ e ∈ n₀.storage.entries, 0 < e.index) (h : Relation.ReflTransGen TipStep n₀ n) :
    n.cachedLastLog = n.storage.effectiveTip ∧
      (n.cachedLastLog.1 < u64Max → ∀ payloads, ∀ e ∈ n.proposedBatch payloads,
        (∀ x ∈ n.storage.entries, x.index < e.index) ∧ n.storage.snapshotIndex < e.index) := by
  have hinv : TipInv n := by
    induction h with
    | refl =>
        obtain ⟨config, storage, env, rfl⟩ := h₀.eq
        exact RaftNode.tipInv_fromStorage config [] env ht hp
    | tail _ hstep ih => exact hstep.tipInv ih
  refine ⟨hinv.tip, fun hlt payloads e he => ?_⟩
  have hbehind := ((contiguous_proposedBatch hlt payloads).bounds he).1
  exact ⟨fun x hx => (hinv.index_le hx).trans_lt hbehind,
    hinv.snapshotIndex_le.trans_lt hbehind⟩

/-- A node with a snapshot through 20 and the entries 21 to 25 stores entry
26. -/
theorem cachedLastLog_eq_effectiveTip_behind_snapshot :
    let n := (Action.inbound ⟨2, .appendEntries ⟨1, 2, 25, 1, 0, 0⟩ [⟨1, 26, [7]⟩]⟩).run
      (trioNode 1 retainedTail)
    n.cachedLastLog = (26, 1) ∧ n.cachedLastLog = n.storage.effectiveTip := by
  refine ⟨rfl, (cachedLastLog_eq_effectiveTip (booted_trioNode_one retainedTail) ?_ ?_
    (.single (.event _ ⟨.act (Env.calm 0) (.inbound ⟨2, .appendEntries ⟨1, 2, 25, 1, 0, 0⟩
      [⟨1, 26, [7]⟩]⟩), ?_, rfl⟩))).1⟩
  · exact .inr ⟨by decide, by decide⟩
  · decide
  · refine ⟨?_, by decide, by rintro ⟨⟩⟩
    rintro f ⟨⟩ _ _
    refine ⟨⟨rfl, trivial⟩, ?_⟩
    change 25 ≤ 26
    decide

/-- A snapshot through index 20 and nothing behind it. -/
def snapshotOnly : Storage := { retainedTail with entries := [] }

/-- Node 1 restores its snapshot and wins an election with the vote of node 2
before it takes a proposal. -/
def restoreAndLead : List Event :=
  [.act (Env.calm 0) .restore, .act (Env.calm 0) .startElection,
    .act (Env.calm 0) (.countVotes 2 [⟨2, .requestVoteResp ⟨2, true⟩⟩] [1]),
    .act (Env.calm 0) (.assumeLeadership 2), .act (Env.calm 0) (.replicate [[9]])]

/-- A node restarted on a snapshot and an empty log has its tip at 0.  A node
that restores its snapshot below a retained tail has its tip at the snapshot,
and as a leader it gives its entry an index that is taken. -/
theorem cachedLastLog_behind_log :
    (trioNode 1 snapshotOnly).cachedLastLog = (0, 0) ∧
      snapshotOnly.effectiveTip = (20, 1) ∧
      (Event.nextAll [.act (Env.calm 0) .restore] (trioNode 1 retainedTail)).map
        (fun n => (n.cachedLastLog, n.storage.effectiveTip)) = some ((20, 1), (25, 1)) ∧
      (Event.nextAll restoreAndLead (trioNode 1 retainedTail)).map
        (fun n => n.storage.entries.map LogEntry.index) = some [21, 22, 23, 24, 25, 21] :=
  ⟨rfl, rfl, rfl, rfl⟩

end ArbitroRaft
