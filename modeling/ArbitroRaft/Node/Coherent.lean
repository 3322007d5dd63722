import ArbitroRaft.Node.Append

/-!
# Uncompacted nodes

A node that never compacted and never installed a snapshot holds the entries
`1, 2, …` in order, and its tip cache and term arena agree with them.  On such
a node the lookups of the AppendEntries handler are positional reads of the
log, and a node that accepts a message stays such a node.
-/

namespace ArbitroRaft

open Library

/-- Term of the last entry, 0 in an empty log. -/
def Library.lastTerm {α : Type*} (l : List (Nat × α)) : Nat := (l.getLast?.map Prod.fst).getD 0

/-- What the protocol is about: an entry's term and payload.  Its index is its
position. -/
def absLog (l : List LogEntry) : List (Nat × EntryPayload) :=
  l.map fun e => (e.term, e.payload)

@[simp] theorem absLog_length (l : List LogEntry) : (absLog l).length = l.length :=
  List.length_map ..

@[simp] theorem absLog_append (l m : List LogEntry) : absLog (l ++ m) = absLog l ++ absLog m :=
  List.map_append

theorem absLog_take (l : List LogEntry) (k : Nat) : absLog (l.take k) = (absLog l).take k :=
  List.map_take

theorem absLog_drop (l : List LogEntry) (k : Nat) : absLog (l.drop k) = (absLog l).drop k :=
  List.map_drop

theorem absLog_getElem? (l : List LogEntry) (i : Nat) :
    (absLog l)[i]? = l[i]?.map fun e => (e.term, e.payload) :=
  List.getElem?_map

namespace Storage

variable {s : Storage}

theorem termAt_zero (h : Contiguous LogEntry.index 0 s.entries) : s.termAt 0 = none := by
  simp only [termAt, entryAt, h.find?_reverse, if_neg (Nat.lt_irrefl 0), Option.map_none]

theorem entryAt_succ (h : Contiguous LogEntry.index 0 s.entries) (i : Nat) :
    s.entryAt (i + 1) = s.entries[i]? := by
  simp only [entryAt, h.find?_reverse, Nat.zero_lt_succ, if_true, Nat.zero_add,
    Nat.add_sub_cancel]

theorem termAt_succ (h : Contiguous LogEntry.index 0 s.entries) (i : Nat) :
    s.termAt (i + 1) = ((absLog s.entries)[i]?).map Prod.fst := by
  rw [termAt, entryAt_succ h, absLog_getElem?, Option.map_map]
  rfl

/-- A stored entry of a contiguous log is found under its index. -/
theorem termAt_of_mem {e : LogEntry} (h : Contiguous LogEntry.index 0 s.entries)
    (he : e ∈ s.entries) : s.termAt e.index = some e.term := by
  obtain ⟨i, hi⟩ := List.getElem?_of_mem he
  rw [h.idx_eq hi, Nat.zero_add, Storage.termAt_succ h, absLog_getElem?, hi]
  rfl

theorem mem_of_termAt {i t : Nat}
    (h : s.termAt i = some t) : ∃ e ∈ s.entries, e.index = i ∧ e.term = t := by
  obtain ⟨e, he, rfl⟩ := Option.map_eq_some_iff.mp h
  have hi := List.find?_some he
  exact ⟨e, List.mem_reverse.mp (List.mem_of_find?_eq_some he),
    of_decide_eq_true hi, rfl⟩

theorem le_highest {l : List LogEntry} {e : LogEntry} (h : e ∈ l) : e.index ≤ (highest l).1 := by
  induction l with
  | nil => cases h
  | cons x l ih =>
    unfold highest
    rcases List.mem_cons.mp h with rfl | h
    · split
      · exact le_rfl
      · omega
    · have hle := ih h
      split
      · exact hle.trans (by omega)
      · exact hle

/-- The highest entry of a contiguous list is its last one. -/
theorem highest_of_contiguous {b : Nat} {l : List LogEntry} (h : Contiguous LogEntry.index b l)
    (hl : l ≠ []) : highest l = (b + l.length, lastTerm (absLog l)) := by
  induction l generalizing b with
  | nil => exact absurd rfl hl
  | cons e es ih =>
    obtain ⟨he, hes⟩ := h
    cases es with
    | nil =>
      simp only [highest, he, Nat.zero_lt_succ, if_true, List.length_cons,
        List.length_nil, Nat.zero_add]
      rfl
    | cons x xs =>
      have hrest := ih hes (by simp)
      rw [highest, hrest, if_neg (by simp only [he]; omega)]
      refine Prod.ext ?_ ?_
      · simp only [List.length_cons]
        omega
      · simp only [lastTerm, absLog, List.map_cons, List.getLast?_cons_cons]

theorem lastLogPosition_of_contiguous (h : Contiguous LogEntry.index 0 s.entries) :
    s.lastLogPosition = (s.entries.length, lastTerm (absLog s.entries)) := by
  by_cases hl : s.entries = []
  · simp only [lastLogPosition, hl, highest, List.length_nil]
    rfl
  · rw [lastLogPosition, highest_of_contiguous h hl, Nat.zero_add]

theorem truncateSuffix_entries (h : Contiguous LogEntry.index 0 s.entries) (k : Nat) :
    (s.truncateSuffix (k + 1)).entries = s.entries.take k := by
  simp only [truncateSuffix, h.filter_lt, Nat.zero_add, Nat.add_sub_cancel]

end Storage

/-- The caches of an uncompacted node agree with its log. -/
structure Coherent (n : RaftNode) : Prop where
  contiguous : Contiguous LogEntry.index 0 n.storage.entries
  bounded : n.storage.entries.length ≤ maxEntries
  cached : n.cachedLastLog =
    (n.storage.entries.length, lastTerm (absLog n.storage.entries))
  arena : ∀ i t, n.logMetadata.getTerm i = some t → n.storage.termAt i = some t
  snapshot : n.storage.snapshot = none
  boundary : n.snapshotBoundary = (0, 0)

namespace Coherent

variable {n : RaftNode}

/-- Index arithmetic stays far away from the numeric limit. -/
theorem satAdd_length (h : Coherent n) : satAdd n.storage.entries.length 1 =
    n.storage.entries.length + 1 := by
  have := h.bounded
  refine satAdd_of_le ?_
  simp only [maxEntries, u64Max] at this ⊢
  omega

theorem localTerm_eq (h : Coherent n) (i : Nat) : n.localTerm i = n.storage.termAt i := by
  unfold RaftNode.localTerm
  cases ha : n.logMetadata.getTerm i with
  | none => rfl
  | some t => exact (h.arena i t ha).symm

theorem localTerm_succ (h : Coherent n) (i : Nat) :
    n.localTerm (i + 1) = ((absLog n.storage.entries)[i]?).map Prod.fst := by
  rw [h.localTerm_eq, Storage.termAt_succ h.contiguous]

end Coherent

theorem lastTerm_take {α : Type*} {l : List (Nat × α)} {k : Nat} {e : Nat × α}
    (h : l[k]? = some e) : lastTerm (l.take (k + 1)) = e.1 := by
  obtain ⟨hk, rfl⟩ := List.getElem?_eq_some_iff.mp h
  simp [lastTerm, List.getLast?_take, hk]

theorem lastTerm_append {α : Type*} {l m : List (Nat × α)} (h : m ≠ []) :
    lastTerm (l ++ m) = lastTerm m := by
  simp only [lastTerm, List.getLast?_append_of_ne_nil l h]

/-! ## The conflict scan -/

/-- Every entry continues the batch and is in the log under its term; `idx` is the
position in the batch. -/
def MatchedFrom (localTerm : Nat → Option Nat) (start : Nat) : Nat → List LogEntry → Prop
  | _, [] => True
  | idx, e :: es =>
    e.index = satAdd start idx ∧ localTerm e.index = some e.term ∧
      MatchedFrom localTerm start (idx + 1) es

/-- The entry `e` at position `idx` ends the scan. -/
inductive ScanStop (localTerm : Nat → Option Nat) (start idx : Nat) (e : LogEntry)
    (post : List LogEntry) : Scan → Prop
  | breaks : e.index ≠ satAdd start idx → ScanStop localTerm start idx e post .malformed
  | isNew : e.index = satAdd start idx → localTerm e.index = none →
      ScanStop localTerm start idx e post (.missing (e :: post))
  | differs (t : Nat) : e.index = satAdd start idx → localTerm e.index = some t →
      t ≠ e.term → ScanStop localTerm start idx e post (.conflict (e :: post))

section Scan

variable {f : Nat → Option Nat} {start idx : Nat} {entries rest : List LogEntry}

theorem MatchedFrom.known (h : MatchedFrom f start idx entries) :
    ∀ e ∈ entries, f e.index = some e.term := by
  induction entries generalizing idx with
  | nil => simp
  | cons e es ih => exact List.forall_mem_cons.mpr ⟨h.2.1, ih h.2.2⟩

theorem scanEntries_of_matched (h : MatchedFrom f start idx entries) (es : List LogEntry) :
    scanEntries f start idx (entries ++ es) = scanEntries f start (idx + entries.length) es := by
  induction entries generalizing idx with
  | nil => rfl
  | cons x xs ih =>
    obtain ⟨hidx, hterm, hxs⟩ := h
    rw [List.cons_append, scanEntries, if_neg (not_not.mpr hidx), hterm]
    dsimp only
    rw [if_pos rfl, ih hxs, List.length_cons, Nat.add_comm xs.length, ← Nat.add_assoc]

theorem scanEntries_of_stop {pre : List LogEntry} {e : LogEntry} {post : List LogEntry} {s : Scan}
    (hpre : MatchedFrom f start idx pre) (h : ScanStop f start (idx + pre.length) e post s) :
    scanEntries f start idx (pre ++ e :: post) = s := by
  rw [scanEntries_of_matched hpre]
  cases h with
  | breaks hne => exact if_pos hne
  | isNew heq hnone => rw [scanEntries, if_neg (not_not.mpr heq), hnone]
  | differs t heq hsome hne =>
    rw [scanEntries, if_neg (not_not.mpr heq), hsome]
    exact if_neg hne

/-- The scan runs through, or stops at one entry. -/
theorem scanEntries_spec (f : Nat → Option Nat) (start idx : Nat) (entries : List LogEntry) :
    MatchedFrom f start idx entries ∨
      ∃ pre e post s, entries = pre ++ e :: post ∧ MatchedFrom f start idx pre ∧
        ScanStop f start (idx + pre.length) e post s := by
  induction entries generalizing idx with
  | nil => exact .inl trivial
  | cons e es ih =>
    by_cases hidx : e.index = satAdd start idx
    · cases hlocal : f e.index with
      | none => exact .inr ⟨[], e, es, _, rfl, trivial, .isNew hidx hlocal⟩
      | some t =>
        by_cases hterm : t = e.term
        · subst hterm
          refine (ih (idx + 1)).imp (fun h => ⟨hidx, hlocal, h⟩) ?_
          rintro ⟨pre, x, post, s, rfl, hpre, hstop⟩
          refine ⟨e :: pre, x, post, s, rfl, ⟨hidx, hlocal, hpre⟩, ?_⟩
          rwa [List.length_cons, Nat.add_comm pre.length, ← Nat.add_assoc]
        · exact .inr ⟨[], e, es, _, rfl, trivial, .differs t hidx hlocal hterm⟩
    · exact .inr ⟨[], e, es, _, rfl, trivial, .breaks hidx⟩

/-- The stop of a scan that did not run through. -/
theorem exists_scanStop {s : Scan} (h : scanEntries f start idx entries = s) (hs : s ≠ .matched) :
    ∃ pre e post, entries = pre ++ e :: post ∧ MatchedFrom f start idx pre ∧
      ScanStop f start (idx + pre.length) e post s := by
  subst h
  obtain hm | ⟨pre, e, post, s, rfl, hpre, hstop⟩ := scanEntries_spec f start idx entries
  · have hend := scanEntries_of_matched hm []
    rw [List.append_nil] at hend
    exact absurd hend hs
  · rw [scanEntries_of_stop hpre hstop]
    exact ⟨pre, e, post, rfl, hpre, hstop⟩

theorem scanEntries_matched (h : scanEntries f start idx entries = .matched) :
    ∀ e ∈ entries, f e.index = some e.term := by
  obtain hm | ⟨pre, e, post, s, rfl, hpre, hstop⟩ := scanEntries_spec f start idx entries
  · exact hm.known
  · rw [scanEntries_of_stop hpre hstop] at h
    subst h
    cases hstop

theorem scanEntries_conflict (h : scanEntries f start idx entries = .conflict rest) :
    ∃ pre e tl t, entries = pre ++ e :: tl ∧ rest = e :: tl ∧
      (∀ x ∈ pre, f x.index = some x.term) ∧ f e.index = some t ∧ t ≠ e.term := by
  obtain ⟨pre, e, post, rfl, hpre, hstop⟩ := exists_scanStop h Scan.noConfusion
  cases hstop with
  | differs t _ hterm hne => exact ⟨pre, e, post, t, rfl, rfl, hpre.known, hterm, hne⟩

theorem scanEntries_missing (h : scanEntries f start idx entries = .missing rest) :
    ∃ pre e tl, entries = pre ++ e :: tl ∧ rest = e :: tl ∧
      (∀ x ∈ pre, f x.index = some x.term) ∧ f e.index = none := by
  obtain ⟨pre, e, post, rfl, hpre, hstop⟩ := exists_scanStop h Scan.noConfusion
  cases hstop with
  | isNew _ hnone => exact ⟨pre, e, post, rfl, rfl, hpre.known, hnone⟩

end Scan

/-! ## Taking entries over -/

namespace RaftNode

/-- The batch is in storage, the arena and the tip cache. -/
def stored (n : RaftNode) (rest : List LogEntry) : RaftNode :=
  ({ n with storage := n.storage.appendEntries rest }).extendTip rest

theorem tip_stored (n : RaftNode) (rest : List LogEntry) :
    (n.stored rest).cachedLastLog =
      (rest.getLast?.map fun e => (e.index, e.term)).getD n.cachedLastLog := by
  unfold stored extendTip
  cases rest.getLast? <;> rfl

theorem tip_stored_of_last {n : RaftNode} {rest : List LogEntry} {e : LogEntry}
    (h : rest.getLast? = some e) : (n.stored rest).cachedLastLog = (e.index, e.term) := by
  rw [tip_stored, h]
  rfl

/-- The log cut at the first entry of `rest`. -/
def cutAt (n : RaftNode) (rest : List LogEntry) : RaftNode :=
  match rest with
  | e :: _ => n.storageTruncate e.index
  | [] => n

/-- The log once a message is taken over. -/
def spliced (n : RaftNode) (msg : AppendEntries) (entries : List LogEntry) : RaftNode :=
  match n.scan msg entries with
  | .conflict rest => (n.cutAt rest).stored rest
  | .missing rest => n.stored rest
  | .matched | .malformed => n

end RaftNode

/-- `entries` follows position `prev` of the log `L`, whose entry there is of
term `prevTerm`. -/
structure Slice (L : List (Nat × EntryPayload)) (prev prevTerm : Nat)
    (entries : List LogEntry) : Prop where
  contiguous : Contiguous LogEntry.index prev entries
  prev_le : prev ≤ L.length
  term : prevTerm = lastTerm (L.take prev)
  copied : absLog entries <+: L.drop prev

namespace Coherent

variable {n : RaftNode} {msg : AppendEntries} {entries rest : List LogEntry}

/-- On an uncompacted node the consistency check reads the entry itself: the
tip cache never answers for an entry that storage does not hold. -/
theorem prevOk_succ (h : Coherent n) {k : Nat} (hk : msg.prevLogIndex = k + 1)
    (hok : n.prevOk msg = true) :
    ((absLog n.storage.entries)[k]?).map Prod.fst = some msg.prevLogTerm := by
  rw [← Storage.termAt_succ h.contiguous, ← hk]
  unfold RaftNode.prevOk at hok
  split at hok
  · rename_i t ht
    rw [h.arena _ t ht, eq_of_beq hok]
  · rw [if_neg (by omega)] at hok
    split at hok
    · rename_i t ht
      rw [ht, eq_of_beq hok]
    · rename_i hnone
      have hc := eq_of_beq hok
      rw [h.cached, Prod.mk.injEq] at hc
      rw [hk, Storage.termAt_succ h.contiguous, Option.map_eq_none_iff,
        List.getElem?_eq_none_iff, absLog_length] at hnone
      omega

theorem prev_le (h : Coherent n) (hok : n.prevOk msg = true) :
    msg.prevLogIndex ≤ n.storage.entries.length := by
  cases hk : msg.prevLogIndex with
  | zero => omega
  | succ k =>
    obtain ⟨e, he, -⟩ := Option.map_eq_some_iff.mp (h.prevOk_succ hk hok)
    have := (List.getElem?_eq_some_iff.mp he).1
    rwa [absLog_length] at this

/-- Entries the scan found are within the log. -/
theorem scanned_le (h : Coherent n) {pre : List LogEntry} {prev : Nat}
    (hc : Contiguous LogEntry.index prev (pre ++ rest)) (hprev : prev ≤ n.storage.entries.length)
    (hpre : ∀ x ∈ pre, n.localTerm x.index = some x.term) :
    prev + pre.length ≤ n.storage.entries.length := by
  rcases List.eq_nil_or_concat' pre with rfl | ⟨init, x, rfl⟩
  · simpa using hprev
  · have hx : (init ++ [x] ++ rest)[init.length]? = some x := by simp
    have hloc := hpre x (by simp)
    rw [hc.idx_eq hx, h.localTerm_succ] at hloc
    obtain ⟨e, he, -⟩ := Option.map_eq_some_iff.mp hloc
    have hlen := (List.getElem?_eq_some_iff.mp he).1
    rw [absLog_length] at hlen
    rw [List.length_append, List.length_singleton]
    omega

theorem cutAt_entries (h : Coherent n) {e : LogEntry} {tl : List LogEntry} {k : Nat}
    (he : e.index = k + 1) : (n.cutAt (e :: tl)).storage.entries = n.storage.entries.take k := by
  have hk := Storage.truncateSuffix_entries h.contiguous k
  rw [← he] at hk
  exact hk

/-! ## Coherence is kept -/

theorem foldl_getTerm {l : List LogEntry} {a : LogMetadataArena} {i t : Nat}
    (h : (l.foldl (fun a e => a.append e.index e.term) a).getTerm i = some t) :
    (∃ e ∈ l, e.index = i ∧ e.term = t) ∨ a.getTerm i = some t := by
  induction l generalizing a with
  | nil => exact .inr h
  | cons e es ih =>
    rcases ih h with ⟨x, hx, hxi⟩ | h'
    · exact .inl ⟨x, List.mem_cons_of_mem e hx, hxi⟩
    · rcases LogMetadataArena.getTerm_append h' with ⟨hi, ht⟩ | ⟨-, h'⟩
      · exact .inl ⟨e, List.mem_cons_self, hi.symm, ht.symm⟩
      · exact .inr h'

theorem stored (h : Coherent n) (hrest : Contiguous LogEntry.index n.storage.entries.length rest)
    (hb : n.storage.entries.length + rest.length ≤ maxEntries) : Coherent (n.stored rest) := by
  have hcont : Contiguous LogEntry.index 0 (n.storage.entries ++ rest) :=
    contiguous_append.mpr ⟨h.contiguous, by rwa [Nat.zero_add]⟩
  refine ⟨hcont, ?_, ?_, ?_, h.snapshot, h.boundary⟩
  · change (n.storage.entries ++ rest).length ≤ maxEntries
    rwa [List.length_append]
  · change _ = ((n.storage.entries ++ rest).length, lastTerm (absLog (n.storage.entries ++ rest)))
    rw [n.tip_stored rest]
    rcases List.eq_nil_or_concat' rest with rfl | ⟨init, e, rfl⟩
    · simpa using h.cached
    · have he : (n.storage.entries ++ (init ++ [e]))[n.storage.entries.length +
          init.length]? = some e := by
        rw [← List.append_assoc, List.getElem?_append_right (by simp)]
        simp
      have hidx := hcont.idx_eq he
      rw [List.getLast?_concat, absLog_append, lastTerm_append (by simp [absLog])]
      change (e.index, e.term) = _
      refine Prod.ext ?_ ?_
      · simp only [List.length_append, List.length_singleton]
        omega
      · simp [lastTerm, absLog]
  · intro i t hi
    change Storage.termAt (n.storage.appendEntries rest) i = some t
    have hmem : ∃ e ∈ n.storage.entries ++ rest, e.index = i ∧ e.term = t := by
      rcases foldl_getTerm hi with ⟨e, he, hei⟩ | hold
      · exact ⟨e, List.mem_append_right _ he, hei⟩
      · obtain ⟨e, he, hei⟩ := Storage.mem_of_termAt (h.arena i t hold)
        exact ⟨e, List.mem_append_left _ he, hei⟩
    obtain ⟨e, he, rfl, rfl⟩ := hmem
    exact Storage.termAt_of_mem (s := n.storage.appendEntries rest) hcont he

theorem cutAt (h : Coherent n) {e : LogEntry} {tl : List LogEntry} {k : Nat}
    (he : e.index = k + 1) : Coherent (n.cutAt (e :: tl)) := by
  have hent : (n.cutAt (e :: tl)).storage.entries = n.storage.entries.take k :=
    h.cutAt_entries he
  have hcont : Contiguous LogEntry.index 0 (n.cutAt (e :: tl)).storage.entries := by
    rw [hent]
    exact h.contiguous.take k
  refine ⟨hcont, ?_, Storage.lastLogPosition_of_contiguous hcont, ?_, h.snapshot,
    h.boundary⟩
  · rw [hent, List.length_take]
    have := h.bounded
    omega
  · intro i t hi
    obtain ⟨hlt, hold⟩ := LogMetadataArena.getTerm_truncateSuffix hi
    obtain ⟨x, hx, rfl, rfl⟩ := Storage.mem_of_termAt (h.arena i t hold)
    refine Storage.termAt_of_mem hcont ?_
    exact List.mem_filter.mpr ⟨hx, decide_eq_true hlt⟩

/-- A conflict lies within the log: the cut ends right below it. -/
theorem conflict_pos (h : Coherent n) (hc : Contiguous LogEntry.index msg.prevLogIndex entries)
    (hok : n.prevOk msg = true) (hscan : n.scan msg entries = .conflict rest) :
    ∃ e tl k, rest = e :: tl ∧ e.index = k + 1 ∧ k ≤ n.storage.entries.length ∧
      Contiguous LogEntry.index k rest := by
  obtain ⟨pre, e, tl, t, rfl, rfl, hpre, -, -⟩ := scanEntries_conflict hscan
  have he : (pre ++ e :: tl)[pre.length]? = some e := by simp
  exact ⟨e, tl, _, rfl, hc.idx_eq he, h.scanned_le hc (h.prev_le hok) hpre,
    (contiguous_append.mp hc).2⟩

theorem missing_pos (h : Coherent n) (hc : Contiguous LogEntry.index msg.prevLogIndex entries)
    (hok : n.prevOk msg = true) (hscan : n.scan msg entries = .missing rest) :
    Contiguous LogEntry.index n.storage.entries.length rest := by
  obtain ⟨pre, e, tl, rfl, rfl, hpre, hnone⟩ := scanEntries_missing hscan
  have hle := h.scanned_le hc (h.prev_le hok) hpre
  have he : (pre ++ e :: tl)[pre.length]? = some e := by simp
  rw [hc.idx_eq he, h.localTerm_succ, Option.map_eq_none_iff,
    List.getElem?_eq_none_iff, absLog_length] at hnone
  rw [show n.storage.entries.length = msg.prevLogIndex + pre.length by omega]
  exact (contiguous_append.mp hc).2

theorem spliced (h : Coherent n) (hc : Contiguous LogEntry.index msg.prevLogIndex entries)
    (hok : n.prevOk msg = true) (hb : (n.spliced msg entries).storage.entries.length ≤ maxEntries) :
    Coherent (n.spliced msg entries) := by
  unfold RaftNode.spliced at hb ⊢
  cases hscan : n.scan msg entries with
  | malformed => exact h
  | matched => exact h
  | conflict rest =>
    rw [hscan] at hb
    obtain ⟨e, tl, k, rfl, he, hk, hrest⟩ := h.conflict_pos hc hok hscan
    have hlen : (n.cutAt (e :: tl)).storage.entries.length = k := by
      rw [h.cutAt_entries he, List.length_take, Nat.min_eq_left hk]
    refine (h.cutAt he).stored (by rwa [hlen]) ?_
    rw [← List.length_append]
    exact hb
  | missing rest =>
    rw [hscan] at hb
    refine h.stored (h.missing_pos hc hok hscan) ?_
    rw [← List.length_append]
    exact hb

/-- Remembering a term that storage answered. -/
theorem learned (h : Coherent n) {i t : Nat} (ht : n.storage.termAt i = some t) :
    Coherent { n with logMetadata := n.logMetadata.append i t } where
  contiguous := h.contiguous
  bounded := h.bounded
  cached := h.cached
  snapshot := h.snapshot
  boundary := h.boundary
  arena j u hj := by
    rcases LogMetadataArena.getTerm_append hj with ⟨rfl, rfl⟩ | ⟨-, hold⟩
    · exact ht
    · exact h.arena j u hold

end Coherent

end ArbitroRaft
