import ArbitroRaft.Replication.Contiguity

/-!
# The two append handlers on their bytes

A contiguous `AppendEntries` carries a body in which every header stands before
its payload; a seeded one carries a block of headers and a block of payloads.
`handle_append_entries` and `handle_append_entries_seeded` are written
separately, over two iterators, with two ways to skip what the log holds and two
ways to look for the newest configuration change.  Here both are modelled on the
bytes they read, and both are the handler over the list of entries.

## Main results

* `seeded_append_agrees`: the two end alike on every batch.
-/

namespace ArbitroRaft

open Library

/-! ## What the handlers read -/

/-- The numbers of a header. -/
def readHeader (m : Wire.AppendEntries) : AppendEntries :=
  { term := m.term.toNat
    leaderId := m.leaderId.toNat
    prevLogIndex := m.prevLogIndex.toNat
    prevLogTerm := m.prevLogTerm.toNat
    leaderCommit := m.leaderCommit.toNat
    probe := m.pad.toNat }

def readEntry (e : Wire.LogEntry) : LogEntry :=
  { term := e.term.toNat, index := e.index.toNat, payload := e.payload }

/-- A loop over the body: `remaining` bounds its turns. -/
def Wire.AppendEntriesEntryIter.collect (it : Wire.AppendEntriesEntryIter) : List Wire.LogEntry :=
  drain Wire.AppendEntriesEntryIter.next it.remaining it

/-- A loop over the blocks: every turn takes a header of 24 bytes. -/
def Wire.AppendEntriesRawIter.collect (it : Wire.AppendEntriesRawIter) :
    List (Wire.EntryHeader × List UInt8) :=
  drain Wire.AppendEntriesRawIter.next it.headers.length it

/-- `Ref::<[EntryHeader]>::from_bytes`. -/
def Wire.entryHeaders (headers : List UInt8) : Option (List Wire.EntryHeader) :=
  if headers.length % 24 = 0 then
    some ((List.range (headers.length / 24)).map (Wire.headerAt headers))
  else none

/-! ## The handlers -/

/-- The scan loop over the index and term of every entry.  The result is
`append_from`; a conflict cuts the log on the way. -/
def scanLoop (notContiguous : String) (entryCount start : Nat) :
    Nat → List (Nat × Nat) → RaftM Nat
  | _, [] => return entryCount
  | idx, (index, term) :: rest => do
    if index ≠ satAdd start idx then throw (.protocol notContiguous)
    else
      match (← get).localTerm index with
      | some t =>
        if t = term then scanLoop notContiguous entryCount start (idx + 1) rest
        else do
          modify fun n => n.storageTruncate index
          return idx
      | none => return idx

/-- `apply_append_entries`. -/
def applyAppendEntriesBody (msg : Wire.AppendEntries) (payload : List UInt8) : RaftM Unit := do
  let entryCount := msg.entryCount.toNat
  let incoming :=
    (Wire.AppendEntriesEntryIter.collect ⟨payload, entryCount⟩).map readEntry
  let appendFrom ← scanLoop "AppendEntries entries not contiguous with prev_log_index"
    entryCount (satAdd msg.prevLogIndex.toNat 1) 0 (incoming.map fun e => (e.index, e.term))
  if appendFrom < entryCount then appendRest storeEntries (incoming.drop appendFrom)
  else return ()

/-- `storage.append_entries_seeded`. -/
def storeBlocks (headers : List Wire.EntryHeader) (payloads : List (List UInt8)) : RaftM Unit :=
  storeEntriesSeeded (List.zipWith
    (fun h p => { term := h.term.toNat, index := h.index.toNat, payload := p }) headers payloads)

/-- The loop over the headers behind the storage call. -/
def RaftNode.extendTipHeaders (n : RaftNode) (headers : List Wire.EntryHeader) : RaftNode :=
  { n with
    logMetadata := headers.foldl (fun a h => a.append h.index.toNat h.term.toNat) n.logMetadata
    cachedLastLog :=
      match headers.getLast? with
      | some h => (h.index.toNat, h.term.toNat)
      | none => n.cachedLastLog }

/-- The loop that keeps the last configuration change it meets. -/
def newestConfig (appendFrom : Nat) (raw : List (Wire.EntryHeader × List UInt8)) :
    Option ConfigChangeEntry :=
  raw.zipIdx.foldl
    (fun latest item =>
      if appendFrom ≤ item.2 then (ConfigChangeEntry.decode item.1.2).or latest
      else latest) none

/-- `apply_append_entries_seeded` behind the scan. -/
def appendBlocks (headers : List UInt8) (raw : List (Wire.EntryHeader × List UInt8))
    (appendFrom : Nat) : RaftM Unit :=
  match Wire.entryHeaders headers with
  | none => throw (.protocol "header alignment in seeded batch")
  | some all => do
    let finalHeaders := all.drop appendFrom
    let payloadRefs :=
      (raw.zipIdx.filter fun item => decide (appendFrom ≤ item.2)).map fun item => item.1.2
    storeBlocks finalHeaders payloadRefs
    modify fun n => n.extendTipHeaders finalHeaders
    match newestConfig appendFrom raw with
    | some entry => applyConfigChange entry
    | none => return ()

/-- `apply_append_entries_seeded`. -/
def applyAppendEntriesBlocks (msg : Wire.AppendEntries) (headers payloads : List UInt8) :
    RaftM Unit := do
  let entryCount := msg.entryCount.toNat
  let raw := Wire.AppendEntriesRawIter.collect (.new headers (.contiguous payloads))
  let appendFrom ← scanLoop "seeded AppendEntries entries not contiguous with prev_log_index"
    entryCount (satAdd msg.prevLogIndex.toNat 1) 0
    (raw.map fun item => (item.1.index.toNat, item.1.term.toNat))
  if appendFrom < entryCount then appendBlocks headers raw appendFrom
  else return ()

/-- `handle_append_entries`. -/
def handleAppendEntriesBody (sender : PeerId) (msg : Wire.AppendEntries) (payload : List UInt8) :
    RaftM Unit :=
  handleAppendEntriesWith (fun _ _ => applyAppendEntriesBody msg payload) sender (readHeader msg) []

/-- `handle_append_entries_seeded`. -/
def handleAppendEntriesBlocks (sender : PeerId) (msg : Wire.AppendEntries)
    (headers payloads : List UInt8) : RaftM Unit :=
  handleAppendEntriesWith (fun _ _ => applyAppendEntriesBlocks msg headers payloads) sender
    (readHeader msg) []

/-! ## The scan -/

theorem scanLoop_eq (text : String) (count start : Nat) (entries : List LogEntry) (idx : Nat)
    (n : RaftNode) :
    scanLoop text count start idx (entries.map fun e => (e.index, e.term)) n =
      match scanEntries n.localTerm start idx entries with
      | .malformed => .error (.protocol text) n
      | .matched => .ok count n
      | .conflict rest => .ok (idx + entries.length - rest.length) (n.cutAt rest)
      | .missing rest => .ok (idx + entries.length - rest.length) n := by
  induction entries generalizing idx with
  | nil => rfl
  | cons e es ih =>
    rw [List.map_cons, scanLoop, scanEntries]
    by_cases hidx : e.index = satAdd start idx
    · rw [if_neg (not_not.mpr hidx), if_neg (not_not.mpr hidx), get_bind]
      cases hlocal : n.localTerm e.index with
      | none =>
        dsimp only
        rw [Nat.add_sub_cancel]
        rfl
      | some t =>
        dsimp only
        by_cases hterm : t = e.term
        · rw [if_pos hterm, if_pos hterm, ih]
          have hlen : ∀ rest : List LogEntry, idx + 1 + es.length - rest.length =
              idx + (e :: es).length - rest.length := by
            intro rest
            rw [List.length_cons]
            omega
          simp only [hlen]
        · rw [if_neg hterm, if_neg hterm, modify_bind]
          dsimp only
          rw [Nat.add_sub_cancel]
          rfl
    · rw [if_pos hidx, if_pos hidx]
      rfl

/-- A scan followed by what stores the rest is the handler over the entries. -/
theorem scan_then_store {text : String} {store : List LogEntry → RaftM Unit}
    {tail : Nat → RaftM Unit} (msg : AppendEntries) {entries : List LogEntry}
    (htail : ∀ pre rest, entries = pre ++ rest → tail pre.length = appendRest store rest) :
    (do
      let appendFrom ← scanLoop text entries.length (satAdd msg.prevLogIndex 1) 0
        (entries.map fun e => (e.index, e.term))
      if appendFrom < entries.length then tail appendFrom else return () : RaftM Unit) =
      applyAppendEntriesWith text store msg entries := by
  funext n
  have hloop := scanLoop_eq text entries.length (satAdd msg.prevLogIndex 1) entries 0 n
  have hrest : ∀ (e : LogEntry) (pre tl : List LogEntry), entries = pre ++ e :: tl →
      0 + entries.length - (e :: tl).length = pre.length ∧ pre.length < entries.length := by
    intro e pre tl hsplit
    rw [hsplit, List.length_append, List.length_cons]
    omega
  unfold applyAppendEntriesWith RaftNode.scan
  rw [get_bind]
  cases hscan : scanEntries n.localTerm (satAdd msg.prevLogIndex 1) 0 entries with
  | malformed =>
    rw [hscan] at hloop
    exact bind_of_error hloop
  | matched =>
    rw [hscan] at hloop
    rw [bind_of_ok hloop, if_neg (Nat.lt_irrefl _)]
  | conflict rest =>
    obtain ⟨pre, e, tl, t, hsplit, rfl, -⟩ := scanEntries_conflict hscan
    rw [hscan] at hloop
    dsimp only at hloop ⊢
    rw [(hrest e pre tl hsplit).1] at hloop
    rw [bind_of_ok hloop, if_pos (hrest e pre tl hsplit).2, htail pre _ hsplit]
    rfl
  | missing rest =>
    obtain ⟨pre, e, tl, hsplit, rfl, -⟩ := scanEntries_missing hscan
    rw [hscan] at hloop
    dsimp only at hloop ⊢
    rw [(hrest e pre tl hsplit).1] at hloop
    rw [bind_of_ok hloop, if_pos (hrest e pre tl hsplit).2, htail pre _ hsplit]

/-! ## The handlers over the list of entries -/

/-- The entry of a header and its payload, as both handlers read it. -/
def itemEntry (item : Wire.EntryItem) : LogEntry := readEntry item.entry

/-- What a loop over the enumerated items keeps from position `k` on. -/
theorem map_filter_zipIdx {α : Type} (k : Nat) (l : List α) (start : Nat) :
    ((l.zipIdx start).filter fun item => decide (k ≤ item.2)).map Prod.fst =
      l.drop (k - start) := by
  induction l generalizing start with
  | nil => simp
  | cons a l ih =>
    rw [List.zipIdx_cons, List.filter_cons]
    by_cases h : k ≤ start
    · have hall := ih (start + 1)
      rw [show k - (start + 1) = 0 by omega, List.drop_zero] at hall
      rw [if_pos (decide_eq_true h), List.map_cons, hall, show k - start = 0 by omega,
        List.drop_zero]
    · rw [if_neg (by simpa using h), ih, show k - start = (k - (start + 1)) + 1 by omega,
        List.drop_succ_cons]

/-- A forward loop that keeps the last hit, and a search from the end. -/
theorem foldl_last_hit {α β : Type} (g : α → Option β) (l : List α) (init : Option β) :
    l.foldl (fun latest a => (g a).or latest) init = (l.reverse.findSome? g).or init := by
  induction l generalizing init with
  | nil => rfl
  | cons a l ih =>
    rw [List.foldl_cons, ih, List.reverse_cons, List.findSome?_append, Option.or_assoc]
    congr 2
    rw [List.findSome?_singleton]

theorem filter_from (k : Nat) (items : List Wire.EntryItem) :
    (items.zipIdx.filter fun item => decide (k ≤ item.2)).map Prod.fst = items.drop k :=
  map_filter_zipIdx k items 0

theorem newestConfig_eq (k : Nat) (items : List Wire.EntryItem) :
    newestConfig k items = latestConfig ((items.drop k).map itemEntry) := by
  have hkept : newestConfig k items =
      (items.drop k).foldl (fun latest item => (ConfigChangeEntry.decode item.2).or latest)
        none := by
    rw [← filter_from k items, List.foldl_map, List.foldl_filter]
    simp only [decide_eq_true_eq]
    rfl
  have hlast := foldl_last_hit (fun item : Wire.EntryItem => ConfigChangeEntry.decode item.2)
    (items.drop k) none
  rw [Option.or_none] at hlast
  unfold latestConfig
  rw [hkept, ← List.map_reverse, List.findSome?_map]
  exact hlast

theorem entryHeaders_flatMap (items : List Wire.EntryItem) :
    Wire.entryHeaders (items.flatMap Wire.EntryItem.header) = some (items.map Prod.fst) := by
  unfold Wire.entryHeaders
  rw [Wire.length_flatMap_header, if_pos (Nat.mul_mod_left _ _), Nat.mul_div_cancel _ (by decide)]
  refine congrArg some (List.ext_getElem (by simp) ?_)
  intro i hi _
  rw [List.length_map, List.length_range] at hi
  rw [List.getElem_map, List.getElem_range, List.getElem_map]
  have hsplit : items.take i ++ items[i] :: items.drop (i + 1) = items := by
    rw [List.getElem_cons_drop, List.take_append_drop]
  have hat := Wire.headerAt_flatMap (items.take i) (items.drop (i + 1)) items[i]
  rwa [hsplit, List.length_take_of_le hi.le] at hat

theorem extendTipHeaders_eq (n : RaftNode) (items : List Wire.EntryItem) :
    n.extendTipHeaders (items.map Prod.fst) = n.extendTip (items.map itemEntry) := by
  unfold RaftNode.extendTipHeaders RaftNode.extendTip RaftNode.recordTerms
  rw [List.foldl_map, List.foldl_map, List.getLast?_map, List.getLast?_map]
  cases items.getLast? <;> rfl

theorem storeBlocks_eq (items : List Wire.EntryItem) :
    storeBlocks (items.map Prod.fst) (items.map Prod.snd) =
      storeEntriesSeeded (items.map itemEntry) := by
  unfold storeBlocks
  rw [List.zipWith_map, List.zipWith_self]
  rfl

theorem appendBlocks_eq (items : List Wire.EntryItem) (k : Nat) :
    appendBlocks (items.flatMap Wire.EntryItem.header) items k =
      appendRest storeEntriesSeeded ((items.drop k).map itemEntry) := by
  have hrefs : (items.zipIdx.filter fun item => decide (k ≤ item.2)).map (fun item => item.1.2) =
      (items.drop k).map Prod.snd := by
    rw [← filter_from k items, List.map_map]
    rfl
  unfold appendBlocks
  rw [entryHeaders_flatMap]
  dsimp only
  rw [hrefs, ← List.map_drop, storeBlocks_eq, newestConfig_eq]
  have htip : (fun n : RaftNode => n.extendTipHeaders ((items.drop k).map Prod.fst)) =
      fun n => n.extendTip ((items.drop k).map itemEntry) :=
    funext fun n => extendTipHeaders_eq n (items.drop k)
  rw [htip]
  rfl

section Batch

variable {m : Wire.AppendEntries} {items : List Wire.EntryItem}

theorem applyAppendEntriesBody_eq (hcount : items.length = m.entryCount.toNat)
    (hsized : ∀ item ∈ items, item.Sized) :
    applyAppendEntriesBody m (items.flatMap Wire.EntryItem.bytes) =
      applyAppendEntries (readHeader m) (items.map itemEntry) := by
  have hincoming : (Wire.AppendEntriesEntryIter.collect
      ⟨items.flatMap Wire.EntryItem.bytes, m.entryCount.toNat⟩).map readEntry =
        items.map itemEntry := by
    unfold Wire.AppendEntriesEntryIter.collect
    rw [← hcount, (Wire.entryIter_yields hsized).drain_eq (List.length_map _).le, List.map_map]
    rfl
  have hlen : m.entryCount.toNat = (items.map itemEntry).length := by
    rw [List.length_map, hcount]
  unfold applyAppendEntriesBody
  dsimp only
  rw [hincoming, hlen]
  refine scan_then_store (readHeader m) ?_
  intro pre rest hsplit
  rw [hsplit, List.drop_left]

theorem applyAppendEntriesBlocks_eq (hcount : items.length = m.entryCount.toNat)
    (hsized : ∀ item ∈ items, item.Sized) :
    applyAppendEntriesBlocks m (items.flatMap Wire.EntryItem.header) (items.flatMap Prod.snd) =
      applyAppendEntriesSeeded (readHeader m) (items.map itemEntry) := by
  have hraw : Wire.AppendEntriesRawIter.collect
      (.new (items.flatMap Wire.EntryItem.header) (.contiguous (items.flatMap Prod.snd))) =
        items := by
    refine (Wire.rawIter_contiguous_yields items [] hsized).drain_eq ?_
    change items.length ≤ (items.flatMap Wire.EntryItem.header).length
    rw [Wire.length_flatMap_header]
    omega
  have hpairs : items.map (fun item => (item.1.index.toNat, item.1.term.toNat)) =
      (items.map itemEntry).map fun e => (e.index, e.term) := by
    rw [List.map_map]
    rfl
  have hlen : m.entryCount.toNat = (items.map itemEntry).length := by
    rw [List.length_map, hcount]
  unfold applyAppendEntriesBlocks
  dsimp only
  rw [hraw, hpairs, hlen]
  refine scan_then_store (readHeader m) ?_
  intro pre rest hsplit
  rw [appendBlocks_eq, List.map_drop, hsplit, List.drop_left]

end Batch

/-! ## Both handlers agree -/

/-- The same result and the same node.  The two handlers name themselves in the
error for an index out of sequence. -/
inductive SameResult : EStateM.Result RaftError RaftNode Unit →
    EStateM.Result RaftError RaftNode Unit → Prop
  | same (r : EStateM.Result RaftError RaftNode Unit) : SameResult r r
  | outOfSequence (n : RaftNode) :
      SameResult
        (.error (.protocol "AppendEntries entries not contiguous with prev_log_index") n)
        (.error (.protocol "seeded AppendEntries entries not contiguous with prev_log_index") n)

section Agree

variable {n : RaftNode} {msg : AppendEntries} {entries : List LogEntry}

theorem appendRest_seeded (h : n.storage.seeded = true) (rest : List LogEntry) :
    appendRest storeEntriesSeeded rest n = appendRest storeEntries rest n := by
  have hstore : storeEntriesSeeded rest n = storeEntries rest n := by
    unfold storeEntriesSeeded
    rw [get_bind, if_pos h]
  unfold appendRest
  cases hrun : storeEntries rest n with
  | error e n' => rw [bind_of_error hrun, bind_of_error (hstore.trans hrun)]
  | ok u n' => rw [bind_of_ok hrun, bind_of_ok (hstore.trans hrun)]

theorem seeded_cutAt (n : RaftNode) (rest : List LogEntry) :
    (n.cutAt rest).storage.seeded = n.storage.seeded := by
  cases rest <;> rfl

theorem applyAppendEntries_seeded (h : n.storage.seeded = true)
    (hwell : n.scan msg entries ≠ .malformed) :
    applyAppendEntriesSeeded msg entries n = applyAppendEntries msg entries n := by
  unfold applyAppendEntriesSeeded applyAppendEntries applyAppendEntriesWith
  rw [get_bind, get_bind]
  cases hscan : n.scan msg entries with
  | malformed => exact absurd hscan hwell
  | matched => rfl
  | missing rest => exact appendRest_seeded h rest
  | conflict rest =>
    have hcut : truncateAt rest n = .ok () (n.cutAt rest) := by
      cases rest <;> rfl
    dsimp only
    rw [bind_of_ok hcut, bind_of_ok hcut]
    exact appendRest_seeded ((seeded_cutAt n rest).trans h) rest

theorem applyAppendEntries_sameResult (h : n.storage.seeded = true) :
    SameResult (applyAppendEntries msg entries n) (applyAppendEntriesSeeded msg entries n) := by
  by_cases hwell : n.scan msg entries = .malformed
  · unfold applyAppendEntriesSeeded applyAppendEntries applyAppendEntriesWith
    rw [get_bind, get_bind, hwell]
    exact .outOfSequence n
  · rw [applyAppendEntries_seeded h hwell]
    exact .same _

theorem followLeader_observed {u : Unit} {n' : RaftNode}
    (h : observeTerm msg.term n = .ok u n') : n'.followLeader msg.leaderId = n.heard msg := by
  unfold observeTerm at h
  rw [get_bind] at h
  unfold RaftNode.heard
  by_cases hlt : n.hardState.currentTerm < msg.term
  · rw [if_pos hlt, stepDown_eq] at h
    rw [if_pos hlt]
    cases hsave : n.env.saveFails n.storage.hardState ⟨msg.term, none⟩ with
    | some kind =>
      rw [hsave] at h
      cases h
    | none =>
      rw [hsave] at h
      cases h
      rfl
  · rw [if_neg hlt] at h ⊢
    cases h
    rfl

/-- The handlers end before they look at the batch, or apply it to the node that
follows the sender. -/
theorem handleAppendEntriesWith_split (n : RaftNode) (sender : PeerId) (msg : AppendEntries) :
    (∃ r, ∀ apply entries, handleAppendEntriesWith apply sender msg entries n = r) ∨
      ∀ apply entries, handleAppendEntriesWith apply sender msg entries n =
        (do
          apply msg entries
          adoptLeaderCommit msg.leaderCommit
          respondAppend sender msg true (fun m => m.cachedLastLog.1) : RaftM Unit)
          (n.heard msg) := by
  unfold handleAppendEntriesWith
  by_cases hstale : msg.term < n.hardState.currentTerm
  · refine .inl ⟨respondAppend sender msg false (fun m => m.cachedLastLog.1) n, ?_⟩
    intro apply entries
    rw [get_bind, if_pos hstale]
  cases hobserve : observeTerm msg.term n with
  | error e n' =>
    refine .inl ⟨.error e n', ?_⟩
    intro apply entries
    rw [get_bind, if_neg hstale, bind_of_error hobserve]
  | ok u n' =>
    have hheard := followLeader_observed hobserve
    by_cases hprev : (n.heard msg).prevOk msg = true
    · refine .inr ?_
      intro apply entries
      rw [get_bind, if_neg hstale, bind_of_ok hobserve, modify_bind, get_bind, hheard,
        if_pos hprev]
    · refine .inl ⟨respondAppend sender msg false
        (fun m => min m.cachedLastLog.1 (msg.prevLogIndex - 1)) (n.heard msg), ?_⟩
      intro apply entries
      rw [get_bind, if_neg hstale, bind_of_ok hobserve, modify_bind, get_bind, hheard,
        if_neg hprev]

theorem SameResult.bind {r r' : RaftM Unit} {next : Unit → RaftM Unit}
    (h : SameResult (r n) (r' n)) : SameResult ((r >>= next) n) ((r' >>= next) n) := by
  generalize hr : r n = x at h
  generalize hr' : r' n = y at h
  cases h with
  | same =>
    cases x with
    | ok u n' =>
      rw [bind_of_ok hr, bind_of_ok hr']
      exact .same _
    | error e n' =>
      rw [bind_of_error hr, bind_of_error hr']
      exact .same _
  | outOfSequence =>
    rw [bind_of_error hr, bind_of_error hr']
    exact .outOfSequence _

end Agree

/-- The frames carry these entries behind one header, each in its layout. -/
structure CarryBoth (m : Wire.AppendEntries) (payload headers payloads : List UInt8)
    (entries : List Wire.LogEntry) : Prop where
  plain : (Wire.RaftMessage.appendEntries m payload).Consistent
  plainCarries : (Wire.RaftMessage.appendEntries m payload).Carries entries
  seeded : (Wire.RaftMessage.appendEntriesSeeded m headers payloads).Consistent
  seededCarries : (Wire.RaftMessage.appendEntriesSeeded m headers payloads).Carries entries

section Carried

variable {m : Wire.AppendEntries} {payload headers payloads : List UInt8}
  {entries : List Wire.LogEntry}

theorem CarryBoth.handle_body (h : CarryBoth m payload headers payloads entries) (sender : PeerId) :
    handleAppendEntriesBody sender m payload =
      handleAppendEntries sender (readHeader m) (entries.map readEntry) := by
  obtain ⟨items, hcount, hsized, rfl⟩ := h.plain
  have hyields := Wire.entryIter_yields hsized
  rw [hcount] at hyields
  obtain rfl := h.plainCarries.unique hyields
  unfold handleAppendEntriesBody handleAppendEntries
  rw [applyAppendEntriesBody_eq hcount hsized]
  rw [List.map_map]
  rfl

theorem CarryBoth.handle_blocks (h : CarryBoth m payload headers payloads entries)
    (sender : PeerId) :
    handleAppendEntriesBlocks sender m headers payloads =
      handleAppendEntriesSeeded sender (readHeader m) (entries.map readEntry) := by
  obtain ⟨items, hcount, hsized, rfl, rfl⟩ := h.seeded
  obtain rfl := h.seededCarries.unique
    ⟨items, Wire.rawIter_contiguous_yields items [] hsized, rfl⟩
  unfold handleAppendEntriesBlocks handleAppendEntriesSeeded
  rw [applyAppendEntriesBlocks_eq hcount hsized]
  rw [List.map_map]
  rfl

end Carried

/-- The indices of the wire are in range, so a sequence of them does not saturate. -/
theorem fits_of_contiguous {m : Wire.AppendEntries} {entries : List Wire.LogEntry}
    (h : Contiguous LogEntry.index (readHeader m).prevLogIndex (entries.map readEntry)) :
    (readHeader m).prevLogIndex + (entries.map readEntry).length ≤ u64Max := by
  have hmax : ∀ x : UInt64, x.toNat ≤ u64Max := by
    intro x
    have hlt := x.toNat_lt
    unfold u64Max
    omega
  cases hlast : (entries.map readEntry).getLast? with
  | none =>
    rw [List.getLast?_eq_none_iff.mp hlast]
    exact hmax m.prevLogIndex
  | some e =>
    rw [← h.getLast?_idx hlast]
    obtain ⟨x, -, rfl⟩ := List.mem_map.mp (List.mem_of_getLast? hlast)
    exact hmax x.index

/-- **Seeded and contiguous appends are one.**  On a storage with seeded appends the
two handlers return the same and leave the same node, answer included, whatever the
entries; an index out of sequence is refused by both, each under its own text. -/
theorem seeded_append_agrees {m : Wire.AppendEntries} {payload headers payloads : List UInt8}
    {entries : List Wire.LogEntry} (h : CarryBoth m payload headers payloads entries)
    (n : RaftNode) (hseeded : n.storage.seeded = true) (sender : PeerId) :
    SameResult (handleAppendEntriesBody sender m payload n)
        (handleAppendEntriesBlocks sender m headers payloads n) ∧
      (Contiguous LogEntry.index (readHeader m).prevLogIndex (entries.map readEntry) →
        handleAppendEntriesBlocks sender m headers payloads n =
          handleAppendEntriesBody sender m payload n) := by
  rw [h.handle_body, h.handle_blocks]
  unfold handleAppendEntries handleAppendEntriesSeeded
  have hheard := (seeded_heard n (readHeader m)).trans hseeded
  rcases handleAppendEntriesWith_split n sender (readHeader m) with ⟨r, hr⟩ | hrun
  · rw [hr, hr]
    exact ⟨.same r, fun _ => rfl⟩
  · rw [hrun, hrun]
    refine ⟨.bind (applyAppendEntries_sameResult hheard), ?_⟩
    intro hcontiguous
    have happly := applyAppendEntries_seeded hheard 
      (scan_ne_malformed hcontiguous (fits_of_contiguous hcontiguous))
    cases hplain : applyAppendEntries (readHeader m) (entries.map readEntry)
        (n.heard (readHeader m)) with
    | ok u n' => rw [bind_of_ok hplain, bind_of_ok (happly.trans hplain)]
    | error e n' => rw [bind_of_error hplain, bind_of_error (happly.trans hplain)]

/-- The header and the entries of a batch of two. -/
def pairHeader : Wire.AppendEntries := ⟨1, 2, 0, 0, 1, 2, 77⟩

def pairItems : List Wire.EntryItem := [(⟨1, 1, 1, 0⟩, [5]), (⟨1, 2, 1, 0⟩, [6])]

theorem pairItems_carried :
    CarryBoth pairHeader (pairItems.flatMap Wire.EntryItem.bytes)
      (pairItems.flatMap Wire.EntryItem.header) (pairItems.flatMap Prod.snd)
      (pairItems.map Wire.EntryItem.entry) := by
  have hsized : ∀ item ∈ pairItems, item.Sized := by
    unfold Wire.EntryItem.Sized
    decide
  exact ⟨⟨pairItems, rfl, hsized, rfl⟩, Wire.entryIter_yields hsized,
    ⟨pairItems, rfl, hsized, rfl, rfl⟩,
    ⟨pairItems, Wire.rawIter_contiguous_yields pairItems [] hsized, rfl⟩⟩

/-- Both frames make an empty follower store and commit the same. -/
theorem seeded_append_agrees_pair :
    let n := trioNode 1 (.empty true)
    let plain := handleAppendEntriesBody 2 pairHeader (pairItems.flatMap Wire.EntryItem.bytes)
    let seeded := handleAppendEntriesBlocks 2 pairHeader
      (pairItems.flatMap Wire.EntryItem.header) (pairItems.flatMap Prod.snd)
    seeded n = plain n ∧ (plain.after n).storage.entries = [⟨1, 1, [5]⟩, ⟨1, 2, [6]⟩] ∧
      (plain.after n).softState.commitIndex = 1 ∧
      (plain.after n).sent.map SentFrame.message = [.appendEntriesResp ⟨1, 2, true, 77⟩] := by
  refine ⟨?_, ?_⟩
  · exact (seeded_append_agrees pairItems_carried (trioNode 1 (.empty true)) rfl 2).2
      (by decide)
  · decide +kernel

end ArbitroRaft
