import ArbitroRaft.Machine.Tip
import ArbitroRaft.Membership.Ledger

/-!
# Staying in step with the history

What compacting, restoring, applying and proposing one entry do to the roll and
to the changes in the log.  A compaction drops changes that the snapshot covers
from then on, applying puts the entry at the next index in force once more or,
for a final entry that waits, for the first time.
-/

namespace ArbitroRaft

open Library

/-! ## Dropping a prefix -/

/-- The entries of `n` below everything `n'` has. -/
def RaftNode.droppedBy (n n' : RaftNode) : List LogEntry :=
  n.storage.entries.filter fun e => decide (∀ x ∈ n'.storage.entries, e.index < x.index)

theorem filter_lt_append_filter_le {l : List LogEntry}
    (h : l.Pairwise fun d e => d.index < e.index) (k : Nat) :
    l.filter (fun e => decide (e.index < k)) ++ l.filter (fun e => decide (k ≤ e.index)) = l := by
  induction l with
  | nil => rfl
  | cons e l ih =>
    obtain ⟨hhead, htail⟩ := List.pairwise_cons.mp h
    by_cases hk : e.index < k
    · rw [List.filter_cons_of_pos (by simpa using hk),
        List.filter_cons_of_neg (by simpa using hk), List.cons_append, ih htail]
    · -- from here on everything is kept
      have hnone : l.filter (fun e => decide (e.index < k)) = [] := by
        rw [List.filter_eq_nil_iff]
        intro x hx
        have := hhead x hx
        simp only [decide_eq_true_eq]
        omega
      have hall : l.filter (fun e => decide (k ≤ e.index)) = l := by
        rw [List.filter_eq_self]
        intro x hx
        have := hhead x hx
        simp only [decide_eq_true_eq]
        omega
      rw [List.filter_cons_of_neg (by simpa using hk),
        List.filter_cons_of_pos (by simpa using hk), hnone, hall, List.nil_append]

variable {n n' : RaftNode} {e : LogEntry}

theorem droppedBy_eq {k : Nat}
    (h : n'.storage.entries = n.storage.entries.filter fun e => decide (k ≤ e.index)) :
    n.droppedBy n' = n.storage.entries.filter fun e => decide (e.index < k) := by
  unfold RaftNode.droppedBy
  refine List.filter_congr fun e he => ?_
  rw [decide_eq_decide, h]
  constructor
  · intro hbelow
    by_contra hk
    have hself := hbelow e (List.mem_filter.mpr ⟨he, decide_eq_true (by omega)⟩)
    omega
  · intro hk x hx
    have := of_decide_eq_true (List.mem_filter.mp hx).2
    omega

namespace Ledger

variable {g : Ledger} {n n' : RaftNode}

/-- What is dropped is covered. -/
def cover (g : Ledger) (dropped : List LogEntry) : Ledger :=
  { g with covered := g.covered ++ g.counted dropped }

theorem effective_cover (g : Ledger) (dropped entries : List LogEntry) :
    (g.cover dropped).effective entries = g.effective (dropped ++ entries) := by
  have hcounted : (g.cover dropped).counted entries = g.counted entries := rfl
  unfold effective
  rw [hcounted, counted_append]
  change g.boot.adoptAll (g.covered ++ g.counted dropped ++ g.counted entries) = _
  rw [List.append_assoc]

/-- A prefix below everything that waits may go. -/
theorem Tracks.cover (h : g.Tracks n) (hord : n.Ordered) {k : Nat}
    (hentries : n'.storage.entries = n.storage.entries.filter fun e => decide (k ≤ e.index))
    (hroll : n'.roll = n.roll) (hwait : ∀ i ∈ g.waiting, k ≤ i ∧ n'.lastApplied < i) :
    (g.cover (n.droppedBy n')).Tracks n' := by
  have hsplit : n.droppedBy n' ++ n'.storage.entries = n.storage.entries := by
    rw [droppedBy_eq hentries, hentries]
    exact filter_lt_append_filter_le hord.ascending k
  refine ⟨?_, ?_⟩
  · rw [effective_cover, hsplit, hroll, h.roll]
  · intro i hi
    obtain ⟨-, c, hmem, hphase⟩ := h.waiting i hi
    obtain ⟨e, he, rfl, hdec⟩ := mem_changesOf.mp hmem
    refine ⟨(hwait _ hi).2, c, mem_changesOf.mpr ⟨e, ?_, rfl, hdec⟩, hphase⟩
    rw [hentries]
    exact List.mem_filter.mpr ⟨he, decide_eq_true (hwait _ hi).1⟩

end Ledger

/-! ## Compacting and restoring -/

/-- Compaction drops a prefix under what is applied. -/
structure Compacts (n n' : RaftNode) : Prop where
  roll : n'.roll = n.roll
  applied : n'.lastApplied = n.lastApplied
  entries : ∃ k ≤ n.lastApplied,
    n'.storage.entries = n.storage.entries.filter fun e => decide (k ≤ e.index)

theorem Compacts.still {n m m' : RaftNode} (h : Compacts n m) (hs : Still m m') : Compacts n m' :=
  ⟨hs.roll.trans h.roll, hs.applied.trans h.applied, by rw [hs.entries]; exact h.entries⟩

theorem Compacts.compacted {n m : RaftNode} (h : Compacts n m) (term : Nat)
    (bytes : List UInt8) : Compacts n (m.compacted term bytes m.compactionHorizon) := by
  obtain ⟨k, hk, hentries⟩ := h.entries
  have hhorizon := compactionHorizon_le m
  rw [h.applied] at hhorizon
  refine ⟨h.roll, h.applied, ?_⟩
  by_cases hpos : 0 < m.compactionHorizon
  · refine ⟨max k m.compactionHorizon, max_le hk hhorizon, ?_⟩
    unfold RaftNode.compacted
    dsimp only
    rw [if_pos hpos]
    change m.storage.entries.filter _ = _
    rw [hentries, List.filter_filter]
    refine List.filter_congr fun e _ => ?_
    rw [← Bool.decide_and, decide_eq_decide]
    omega
  · refine ⟨k, hk, ?_⟩
    unfold RaftNode.compacted
    dsimp only
    rw [if_neg hpos]
    exact hentries

theorem Action.compact_compacts (n : RaftNode) : Compacts n (Action.compact.run n) := by
  have hstart : Compacts n n := by
    refine ⟨rfl, rfl, 0, Nat.zero_le _, ?_⟩
    exact (List.filter_eq_self.mpr fun e _ => decide_eq_true (Nat.zero_le _)).symm
  refine Action.preserves hstart fun m m' hm he => ?_
  have hbatch : ∀ payloads, ¬ (Action.compact.scope n False).batch payloads :=
    fun _ h => h.elim (fun h => nomatch h) fun h => nomatch h
  have hcontrol : ¬ (Action.compact.scope n False).control :=
    fun h => h.elim (fun h => nomatch h) fun ⟨_, h⟩ => nomatch h
  rcases he.still_or_compacted (fun _ h => nomatch h) hbatch (fun h => nomatch h) hcontrol with
    hs | ⟨-, term, bytes, rfl⟩
  · exact hm.still hs
  · exact hm.compacted term bytes

/-- The restore finds no entry of another history at its boundary, and nothing
that waits under it. -/
def Ledger.Restores (g : Ledger) (n : RaftNode) : Prop :=
  ∀ m, n.storage.loadSnapshotMeta = some m → n.lastApplied < m.lastIncludedIndex →
    n.boundaryConflict m = false ∧ ∀ i ∈ g.waiting, m.lastIncludedIndex < i

theorem Action.restore_run (n : RaftNode) :
    Action.restore.run n = n ∨ ∃ m, n.storage.loadSnapshotMeta = some m ∧
      n.lastApplied < m.lastIncludedIndex ∧
      Action.restore.run n = (n.restoredFrom m).settleCompactionDebt := by
  refine Ends.after (Q := fun n' => n' = n ∨ ∃ m, n.storage.loadSnapshotMeta = some m ∧
    n.lastApplied < m.lastIncludedIndex ∧ n' = (n.restoredFrom m).settleCompactionDebt) ?_
  unfold Action.perform RaftM.ignore restoreStateMachineFromSnapshot
  refine Ends.seq (.read ?_) fun _ _ h => .ret h
  split
  · exact .ret (.inl rfl)
  · rename_i m hm
    split
    · exact .ret (.inl rfl)
    · rename_i hlt
      split
      · exact .fail (.inl rfl)
      · exact .inr ⟨m, hm, by omega, rfl⟩

theorem Ledger.Tracks.restore {g : Ledger} (h : g.Tracks n) (hord : n.Ordered) (hr : g.Restores n) :
    (g.cover (n.droppedBy (Action.restore.run n))).Tracks (Action.restore.run n) := by
  rcases Action.restore_run n with heq | ⟨m, hm, hlt, heq⟩
  · have hkeep : n.storage.entries =
        n.storage.entries.filter fun e => decide (0 ≤ e.index) :=
      (List.filter_eq_self.mpr fun e _ => decide_eq_true (Nat.zero_le _)).symm
    rw [heq]
    exact h.cover hord hkeep rfl fun i hi => ⟨Nat.zero_le i, (h.waiting i hi).1⟩
  · obtain ⟨hconf, hwait⟩ := hr m hm hlt
    rw [heq]
    refine h.cover hord (k := satAdd m.lastIncludedIndex 1) ?_ ?_ ?_
    · have hsame : n.boundaryConflict m =
          ({ n.commitSnapshot m with lastApplied := m.lastIncludedIndex }).boundaryConflict m :=
        (boundaryConflict_congr (congrArg Storage.entries (storage_commitSnapshot n m)) m).symm
      change (RaftNode.anchorOnSnapshot _ m).storage.entries = _
      unfold RaftNode.anchorOnSnapshot
      dsimp only
      rw [← hsame, hconf, if_neg Bool.false_ne_true, storage_commitSnapshot]
      rfl
    · exact (SameOffice.restoredFrom n m).toSameRoll.roll
    · intro i hi
      refine ⟨?_, hwait i hi⟩
      have := hwait i hi
      unfold satAdd
      split <;> omega

/-! ## Applying -/

/-- The change at the next index is not refused, and every change behind it still
waits. -/
def Ledger.Applies (g : Ledger) (n : RaftNode) : Prop :=
  ∀ c, Action.applyNext.reconfigures n = some c → c.isRefused = false ∧
    ∀ x ∈ changesOf n.storage.entries, n.lastApplied + 1 < x.1 → x.1 ∈ g.waiting

/-- The node once `e` took effect on its configuration. -/
def RaftNode.tookEffect (n : RaftNode) (e : LogEntry) : RaftNode :=
  match ConfigChangeEntry.decode e.payload with
  | some c => n.adoptConfig c
  | none => n

theorem still_settleConfig (n : RaftNode) : Still n n.settleConfig :=
  .of_same (.settleConfig n) (.settleConfig n)

theorem leaveIfRemoved_still (n : RaftNode) :
    Ends leaveIfRemoved n (fun _ n' => Still n n') (Still n) := by
  have hm : Emits (Moves (callScope (fun _ => False) fun _ => False)) leaveIfRemoved n
      (fun _ n' => SameLog n n') := leaveIfRemoved_emits fun _ => trivial
  exact (Ends.of_emits hm).mono (fun _ _ h => h.1.still) fun _ h => h.still

theorem applyConfigChange_still {c : ConfigChangeEntry} (hvalid : c.isRefused = false) :
    Ends (applyConfigChange c) n (fun _ n' => Still (n.adoptConfig c) n')
      (Still (n.adoptConfig c)) := by
  unfold applyConfigChange
  rw [hvalid, if_neg Bool.false_ne_true]
  refine .updateSeq ((leaveIfRemoved_still _).mono ?_ ?_)
  · exact fun _ _ h => (still_settleConfig _).trans h
  · exact fun _ h => (still_settleConfig _).trans h

theorem decode_noopEntry : ConfigChangeEntry.decode noopEntry = none := by decide

/-- What is left behind by an attempt to apply `e`. -/
def Applied (n : RaftNode) (e : LogEntry) (n' : RaftNode) : Prop :=
  n'.roll = (n.tookEffect e).roll ∧ n'.storage.entries = n.storage.entries ∧
    (n'.lastApplied = n.lastApplied ∨ n'.lastApplied = n.lastApplied + 1)

theorem Applied.of_still (h : Still (n.tookEffect e) n') : Applied n e n' := by
  have hsame : SameLog n (n.tookEffect e) := by
    unfold RaftNode.tookEffect
    split
    · exact .adoptConfig n _
    · exact .refl n
  exact ⟨h.roll, h.entries.trans hsame.entries, .inl (h.applied.trans hsame.applied)⟩

theorem Applied.marked (h : Applied n e n') (len : Nat) :
    Applied n e (n'.markApplied (n.lastApplied + 1) len) :=
  ⟨h.1, h.2.1, .inr rfl⟩

theorem applyIfConfigChange_applied
    (hvalid : ∀ c, ConfigChangeEntry.decode e.payload = some c → c.isRefused = false) :
    Ends (applyIfConfigChange e.payload) n (fun _ n' => Applied n e n') (Applied n e) := by
  unfold applyIfConfigChange
  split
  · rename_i hnoop
    refine .ret (Applied.of_still ?_)
    unfold RaftNode.tookEffect
    rw [eq_of_beq hnoop, decode_noopEntry]
    exact .refl n
  · have htook : n.tookEffect e = match ConfigChangeEntry.decode e.payload with
        | some c => n.adoptConfig c
        | none => n := rfl
    split
    · rename_i c hdec
      rw [hdec] at htook
      refine ((applyConfigChange_still (hvalid c hdec)).mono ?_ ?_).seq fun _ _ h => .ret h
      · exact fun _ _ h => Applied.of_still (htook ▸ h)
      · exact fun _ h => Applied.of_still (htook ▸ h)
    · rename_i hdec
      rw [hdec] at htook
      exact .ret (Applied.of_still (htook ▸ Still.refl n))

theorem applyEntry_applied
    (hvalid : ∀ c, ConfigChangeEntry.decode e.payload = some c → c.isRefused = false) :
    Ends (applyEntry e) n (fun _ n' => Applied n e n') (Applied n e) := by
  unfold applyEntry
  refine .read ((applyIfConfigChange_applied hvalid).seq fun consumed m hm => ?_)
  split
  · exact hm.marked _
  · split
    · exact .fail hm
    · exact hm.marked _

/-- One turn of the apply loop. -/
theorem run_applyNext
    (hvalid : ∀ c, Action.applyNext.reconfigures n = some c → c.isRefused = false) :
    Action.applyNext.run n = n ∧ ¬ (n.lastApplied + 1 ≤ n.softState.commitIndex ∧
        (n.storage.entryAt (n.lastApplied + 1)).isSome) ∨
      n.lastApplied + 1 ≤ n.softState.commitIndex ∧
        ∃ e, n.storage.entryAt (n.lastApplied + 1) = some e ∧
          Applied n e (Action.applyNext.run n) := by
  by_cases hdue : n.lastApplied + 1 ≤ n.softState.commitIndex
  · cases he : n.storage.entryAt (n.lastApplied + 1) with
    | none =>
      refine .inl ⟨Ends.after (Q := fun n' => n' = n) ?_, fun h => nomatch h.2⟩
      change Ends applyIfCommitted n _ _
      unfold applyIfCommitted RaftM.ignore applyNext
      refine .read ?_
      rw [if_pos hdue]
      refine .seq (.read ?_) fun _ _ h => .ret h
      rw [he]
      exact .ret rfl
    | some e =>
      refine .inr ⟨hdue, e, rfl, Ends.after (Q := Applied n e) ?_⟩
      have hvalid : ∀ c, ConfigChangeEntry.decode e.payload = some c → c.isRefused = false := by
        intro c hdec
        refine hvalid c ?_
        simp only [Action.reconfigures, if_pos hdue, he, Option.bind_some, hdec]
      change Ends applyIfCommitted n _ _
      unfold applyIfCommitted RaftM.ignore applyNext
      refine .read ?_
      rw [if_pos hdue]
      refine .seq (.read ?_) fun _ _ h => .ret h
      rw [he]
      exact (applyEntry_applied hvalid).seq fun _ _ h => .ret h
  · refine .inl ⟨Ends.after (Q := fun n' => n' = n) ?_, fun h => hdue h.1⟩
    change Ends applyIfCommitted n _ _
    unfold applyIfCommitted
    refine .read ?_
    rw [if_neg hdue]
    exact .ret rfl

namespace Ledger

variable {g : Ledger} {n n' : RaftNode}

/-- The entry at `i` counts from now on. -/
def count (g : Ledger) (i : Nat) : Ledger :=
  { g with waiting := g.waiting.filter fun j => decide (j ≠ i) }

variable {i : Nat}

theorem count_of_not_mem (h : i ∉ g.waiting) : g.count i = g := by
  have hself : g.waiting.filter (fun j => decide (j ≠ i)) = g.waiting := by
    rw [List.filter_eq_self]
    intro j hj
    exact decide_eq_true fun heq => h (heq ▸ hj)
  unfold count
  rw [hself]

theorem mem_count {i j : Nat} : j ∈ (g.count i).waiting ↔ j ∈ g.waiting ∧ j ≠ i := by
  unfold count
  rw [List.mem_filter, decide_eq_true_eq]

/-- Entries at other indices count as before. -/
theorem counted_count {entries : List LogEntry} (h : ∀ e ∈ entries, e.index ≠ i) :
    (g.count i).counted entries = g.counted entries := by
  unfold counted
  refine congrArg (List.map Prod.snd) (List.filter_congr fun x hx => ?_)
  obtain ⟨e, he, hi, -⟩ := mem_changesOf.mp hx
  rw [decide_eq_decide, mem_count, ← hi]
  exact not_congr ⟨fun hm => hm.1, fun hm => ⟨hm, h e he⟩⟩

/-- The last change of the log that counts, or is about to. -/
theorem effective_count {pre post : List LogEntry} {e : LogEntry} {c : ConfigChangeEntry}
    (hpre : ∀ x ∈ pre, x.index ≠ e.index) (hpost : ∀ x ∈ post, x.index ≠ e.index)
    (hdec : ConfigChangeEntry.decode e.payload = some c)
    (hwait : ∀ x ∈ changesOf post, x.1 ∈ g.waiting) :
    (g.count e.index).effective (pre ++ e :: post) = (g.effective (pre ++ e :: post)).adopt c := by
  have hone : changesOf [e] = [(e.index, c)] := by
    unfold changesOf
    rw [List.filterMap_cons, hdec]
    rfl
  have hsplit : pre ++ e :: post = pre ++ ([e] ++ post) := rfl
  have hnew : (g.count e.index).counted [e] = [c] := by
    rw [counted_eq_all _ fun x hx => ?_, hone]
    · rfl
    · rw [hone, List.mem_singleton] at hx
      subst hx
      exact fun hmem => (mem_count.mp hmem).2 rfl
  have hnone : g.counted post = [] := g.counted_eq_nil hwait
  have hboth : (g.count e.index).effective pre = g.effective pre := by
    unfold effective
    rw [counted_count hpre]
    rfl
  rw [hsplit, effective_append, counted_append, hboth, hnew, counted_count hpost, hnone,
    effective_append, counted_append, hnone, List.append_nil, List.append_nil,
    Roll.adoptAll_singleton]
  by_cases hmem : e.index ∈ g.waiting
  · have hold : g.counted [e] = [] := by
      refine g.counted_eq_nil fun x hx => ?_
      rw [hone, List.mem_singleton] at hx
      exact hx ▸ hmem
    rw [hold, Roll.adoptAll_nil]
  · have hold : g.counted [e] = [c] := by
      rw [g.counted_eq_all fun x hx => ?_, hone]
      · rfl
      · rw [hone, List.mem_singleton] at hx
        exact hx ▸ hmem
    rw [hold, Roll.adoptAll_singleton, Roll.adopt_adopt]

/-- The ledger behind a turn of the apply loop. -/
def afterApply (g : Ledger) (n : RaftNode) : Ledger :=
  if n.lastApplied + 1 ≤ n.softState.commitIndex then g.count (n.lastApplied + 1) else g

theorem Tracks.not_waiting (h : g.Tracks n) (hno : ∀ x ∈ changesOf n.storage.entries, x.1 ≠ i) :
    i ∉ g.waiting := by
  intro hi
  obtain ⟨-, c, hmem, -⟩ := h.waiting i hi
  exact hno _ hmem rfl

theorem Tracks.count (h : g.Tracks n) (hroll : n'.roll = (g.count i).effective n.storage.entries)
    (hentries : n'.storage.entries = n.storage.entries) (hi : i = n.lastApplied + 1)
    (happlied : n'.lastApplied = n.lastApplied ∨ n'.lastApplied = n.lastApplied + 1) :
    (g.count i).Tracks n' := by
  refine ⟨hentries ▸ hroll, fun j hj => ?_⟩
  obtain ⟨hmem, hne⟩ := mem_count.mp hj
  obtain ⟨hlt, hlogged⟩ := h.waiting j hmem
  rw [hentries]
  exact ⟨by omega, hlogged⟩

theorem Tracks.applied (h : g.Tracks n) (hord : n.Ordered) {e : LogEntry}
    (he : n.storage.entryAt (n.lastApplied + 1) = some e)
    (hbehind : ∀ c, ConfigChangeEntry.decode e.payload = some c →
      ∀ x ∈ changesOf n.storage.entries, n.lastApplied + 1 < x.1 → x.1 ∈ g.waiting)
    (hn' : Applied n e n') : (g.count (n.lastApplied + 1)).Tracks n' := by
  have hmem : e ∈ n.storage.entries := List.mem_reverse.mp (List.mem_of_find?_eq_some he)
  have hidx : e.index = n.lastApplied + 1 := by
    have hfound := List.find?_some he
    exact of_decide_eq_true hfound
  obtain ⟨pre, post, hsplit⟩ := List.append_of_mem hmem
  have hasc := hord.ascending
  rw [hsplit, List.pairwise_append, List.pairwise_cons] at hasc
  obtain ⟨-, ⟨hpost, -⟩, hpre⟩ := hasc
  refine h.count ?_ hn'.2.1 rfl hn'.2.2
  rw [hn'.1]
  unfold RaftNode.tookEffect
  cases hdec : ConfigChangeEntry.decode e.payload with
  | some c =>
    have hwait : ∀ x ∈ changesOf post, x.1 ∈ g.waiting := by
      intro x hx
      obtain ⟨y, hy, hi, hdecy⟩ := mem_changesOf.mp hx
      refine hbehind c hdec x (mem_changesOf.mpr ⟨y, ?_, hi, hdecy⟩) ?_
      · rw [hsplit]
        exact List.mem_append_right pre (List.mem_cons_of_mem e hy)
      · rw [← hidx, ← hi]
        exact hpost y hy
    have hcount : (g.count e.index).effective (pre ++ e :: post) =
        (g.effective (pre ++ e :: post)).adopt c :=
      effective_count (fun x hx => (hpre x hx e List.mem_cons_self).ne)
        (fun x hx => (hpost x hx).ne') hdec hwait
    rw [← hsplit, hidx] at hcount
    rw [hcount, ← h.roll]
    exact roll_adoptConfig n c
  | none =>
    -- no other entry has this index, so nothing that waits has it
    have hno : ∀ x ∈ changesOf n.storage.entries, x.1 ≠ n.lastApplied + 1 := by
      intro x hx heq
      obtain ⟨y, hy, hi, hdecy⟩ := mem_changesOf.mp hx
      rw [hsplit] at hy
      rcases List.mem_append.mp hy with hy | hy
      · have := hpre y hy e List.mem_cons_self
        omega
      · rcases List.mem_cons.mp hy with rfl | hy
        · rw [hdec] at hdecy
          cases hdecy
        · have := hpost y hy
          omega
    rw [count_of_not_mem (h.not_waiting hno)]
    exact h.roll

theorem Tracks.applyNext (h : g.Tracks n) (hord : n.Ordered) (ha : g.Applies n) :
    (g.afterApply n).Tracks (Action.applyNext.run n) := by
  unfold afterApply
  rcases run_applyNext fun c hc => (ha c hc).1 with ⟨heq, hno⟩ | ⟨hdue, e, he, hn'⟩
  · rw [heq]
    split
    · rename_i hdue
      rw [count_of_not_mem (h.not_waiting ?_)]
      · exact h
      · intro x hx hi
        obtain ⟨y, hy, hidx, -⟩ := mem_changesOf.mp hx
        refine hno ⟨hdue, ?_⟩
        unfold Storage.entryAt
        rw [List.find?_isSome]
        exact ⟨y, List.mem_reverse.mpr hy, decide_eq_true (hidx.trans hi)⟩
    · exact h
  · rw [if_pos hdue]
    refine h.applied hord he (fun c hdec => (ha c ?_).2) hn'
    simp only [Action.reconfigures, if_pos hdue, he, Option.bind_some, hdec]

end Ledger

/-! ## Proposing one entry -/

/-- The entry of a proposal is the last one of the log. -/
structure Landed (n : RaftNode) (payload : EntryPayload) (n' : RaftNode) : Prop where
  roll : n'.roll = n.roll
  entries : n'.storage.entries = n.storage.entries ++ n.proposedBatch [payload]
  tip : n'.cachedLastLog.1 = satAdd n.cachedLastLog.1 1
  applied : n'.lastApplied = n.lastApplied

theorem Landed.still {n m n' : RaftNode} {payload : EntryPayload} (h : Landed n payload m)
    (hs : Still m n') : Landed n payload n' :=
  ⟨hs.roll.trans h.roll, hs.entries.trans h.entries, (congrArg Prod.fst hs.tip).trans h.tip,
    hs.applied.trans h.applied⟩

/-- A leader that is not handing over, in front of a storage that takes the
entry. -/
def RaftNode.CanPropose (n : RaftNode) (payload : EntryPayload) : Prop :=
  n.isLeader = true ∧ n.expireTransfer.pendingTransfer = none ∧
    ¬ n.Refuses (n.proposedBatch [payload])

/-- A failed proposal left its entry in the log, or was refused. -/
def Failed (n : RaftNode) (payload : EntryPayload) (n' : RaftNode) : Prop :=
  Still n n' ∧ ¬ n.CanPropose payload ∨ Landed n payload n'

theorem appendProposeEntries_lands {n₀ n : RaftNode} {payload : EntryPayload}
    (hstill : Still n₀ n) (hterm : n.hardState = n₀.hardState) (henv : n.env = n₀.env) :
    Ends (appendProposeEntries [payload]) n (fun _ n' => Landed n₀ payload n')
      (Failed n₀ payload) := by
  have hbatch : n.proposedBatch [payload] = n₀.proposedBatch [payload] := by
    unfold RaftNode.proposedBatch
    rw [hterm, hstill.tip]
  unfold appendProposeEntries
  refine .read ?_
  change Ends (do
    set { n with scratchIndexes := (n.proposedBatch [payload]).map LogEntry.index }
    storeEntries (n.proposedBatch [payload])
    modify fun n' => n'.extendTip (n.proposedBatch [payload])
    return satAdd n.cachedLastLog.1 1) n _ _
  refine .updateSeq (g := fun _ =>
    { n with scratchIndexes := (n.proposedBatch [payload]).map LogEntry.index }) ?_
  rcases stores_storeEntries (n.proposedBatch [payload])
      { n with scratchIndexes := (n.proposedBatch [payload]).map LogEntry.index } with
    ⟨hrefuse, e, he⟩ | ⟨hok, -⟩
  · unfold Ends
    rw [bind_of_error he]
    refine .inl ⟨⟨hstill.roll, hstill.entries, hstill.tip, hstill.applied⟩, fun hcan => ?_⟩
    refine hcan.2.2 ?_
    rcases hrefuse.resolve_right id with hfull | hfail
    · left
      rw [← hstill.entries, ← hbatch]
      exact hfull
    · right
      rw [← henv, ← hbatch]
      exact hfail
  · unfold Ends
    rw [bind_of_ok hok]
    refine ⟨hstill.roll, ?_, ?_, hstill.applied⟩
    · rw [← hstill.entries, ← hbatch]
      rfl
    · rw [← hstill.tip]
      rfl

theorem checkTransferFreeze_ends (n : RaftNode) :
    Ends checkTransferFreeze n
      (fun _ n' => n' = n.expireTransfer)
      (fun n' => n' = n.expireTransfer ∧ n.expireTransfer.pendingTransfer ≠ none) := by
  unfold checkTransferFreeze
  refine .updateSeq (.read ?_)
  split
  · rename_i t ht
    exact .fail ⟨rfl, by rw [ht]; exact Option.some_ne_none t⟩
  · exact .ret rfl

theorem sendInitialAppends_still (entries : List LogEntry) (n : RaftNode) :
    Ends (sendInitialAppends entries) n (fun _ n' => Still n n') (Still n) := by
  have hm : Emits (Moves (callScope (fun _ => False) fun _ => False))
      (sendInitialAppends entries) n _ :=
    sendInitialAppends_emits (fun _ _ => trivial) False.elim
  exact (Ends.of_emits hm).mono (fun _ _ h => h.1.still) fun _ h => h.still

theorem startPropose_lands (n : RaftNode) (payload : EntryPayload) :
    Ends (startPropose [payload]) n (fun _ n' => Landed n payload n') (Failed n payload) := by
  unfold startPropose
  refine .read ?_
  split
  · rename_i hl
    have hcore := congrArg Prod.fst (core_expireTransfer n)
    have hexpired : Still n n.expireTransfer :=
      .of_same (SameOffice.of_core hcore).toSameRoll (.of_core hcore)
    refine .seq ((checkTransferFreeze_ends n).mono (fun _ _ h => h) ?_) ?_
    · rintro _ ⟨rfl, hfrozen⟩
      exact .inl ⟨hexpired, fun hcan => hfrozen hcan.2.1⟩
    · rintro _ _ rfl
      rw [if_neg (List.cons_ne_nil payload [])]
      refine .updateSeq (.read ?_)
      obtain ⟨-, hhard, -, -, -⟩ := ensureProgress_same n.expireTransfer
      have hready : Still n n.expireTransfer.ensureLeaderProgressInitialized := by
        refine hexpired.trans (.of_same ?_ (.ensureProgress _))
        unfold RaftNode.ensureLeaderProgressInitialized
        split <;> exact ⟨rfl, rfl⟩
      have henv : n.expireTransfer.ensureLeaderProgressInitialized.env = n.env := by
        refine Eq.trans ?_ (congrArg Core.env hcore)
        unfold RaftNode.ensureLeaderProgressInitialized
        split <;> rfl
      refine .seq (appendProposeEntries_lands hready
        (hhard.trans (congrArg Core.hardState hcore)) henv) ?_
      intro last m hm
      refine .seq ((sendInitialAppends_still _ m).mono (fun _ _ h => h) ?_) ?_
      · exact fun _ hs => .inr (hm.still hs)
      · intro _ m' hs
        exact .read (.ret (hm.still hs))
  · rename_i hl
    exact .fail (.inl ⟨.refl n, fun hcan => hl hcan.1⟩)

theorem startProposeOnce_lands (n : RaftNode) (payload : EntryPayload) :
    Ends (startProposeOnce payload) n (fun _ n' => Landed n payload n') (Failed n payload) := by
  unfold startProposeOnce
  refine (startPropose_lands n payload).seq fun r n' h => ?_
  cases r with
  | none => exact .fail (.inr h)
  | some g => exact .ret h

end ArbitroRaft
