import ArbitroRaft.Client.Slot
import ArbitroRaft.Library.SwapRemove

/-!
# Waiters for a commit

`commit_waiters` holds a client's slot for every entry that was appended for it.
`replicate_pending` pushes waiters with growing indices; `drain_commit_waiters`
notifies those the commit index has reached.

A call that commits only some of them removes by swapping and leaves the vector
out of order.  A later call looks at the last element alone to decide whether
everything is committed.

## Main results

* `drain_exact_iff`: when a call notifies just those up to its commit index.
-/

namespace ArbitroRaft

open Library

structure CommitWaiter where
  index : Nat
  slotId : SlotId
deriving DecidableEq, Repr

/-- `drain_commit_waiters`: the waiters it notifies as committed, in this order,
and those it keeps. -/
def drainCommitWaiters (commitIndex : Nat) (waiters : List CommitWaiter) :
    List CommitWaiter × List CommitWaiter :=
  match waiters.getLast? with
  | none => ([], waiters)
  | some last =>
    -- Fast path: the whole batch is committed.
    if last.index ≤ commitIndex then (waiters, [])
    else drainIf (fun w => decide (w.index ≤ commitIndex)) waiters.length 0 waiters

/-- A call notifies the waiters up to the commit index and keeps the others. -/
def DrainsExactly (commitIndex : Nat) (waiters : List CommitWaiter) : Prop :=
  List.Perm (drainCommitWaiters commitIndex waiters).1
      (waiters.filter fun w => decide (w.index ≤ commitIndex)) ∧
    List.Perm (drainCommitWaiters commitIndex waiters).2
      (waiters.filter fun w => decide (commitIndex < w.index))

/-- If the last waiter is committed, all are. -/
def LastDecides (commitIndex : Nat) (waiters : List CommitWaiter) : Prop :=
  ∀ last, waiters.getLast? = some last → last.index ≤ commitIndex →
    ∀ w ∈ waiters, w.index ≤ commitIndex

theorem filter_uncommitted (commitIndex : Nat) (waiters : List CommitWaiter) :
    (waiters.filter fun w => !decide (w.index ≤ commitIndex)) =
      waiters.filter fun w => decide (commitIndex < w.index) := by
  refine List.filter_congr fun w _ => ?_
  rw [← decide_not, decide_eq_decide]
  exact Nat.not_le

/-- The slow path. -/
theorem drainIf_committed (commitIndex : Nat) (waiters : List CommitWaiter) :
    List.Perm (drainIf (fun w => decide (w.index ≤ commitIndex)) waiters.length 0 waiters).1
        (waiters.filter fun w => decide (w.index ≤ commitIndex)) ∧
      List.Perm (drainIf (fun w => decide (w.index ≤ commitIndex)) waiters.length 0 waiters).2
        (waiters.filter fun w => decide (commitIndex < w.index)) := by
  have hstart : waiters.length ≤ 0 + waiters.length := by omega
  rw [← filter_uncommitted]
  exact drainIf_perm hstart (by simp)

theorem drainsExactly_iff (commitIndex : Nat) (waiters : List CommitWaiter) :
    DrainsExactly commitIndex waiters ↔ LastDecides commitIndex waiters := by
  unfold DrainsExactly LastDecides drainCommitWaiters
  cases hlast : waiters.getLast? with
  | none =>
    rw [List.getLast?_eq_none_iff.mp hlast]
    simp
  | some last =>
    simp only [Option.some.injEq, forall_eq']
    by_cases hle : last.index ≤ commitIndex
    · simp only [hle, if_true, true_implies]
      constructor
      · rintro ⟨hall, -⟩ w hw
        have hmem := hall.mem_iff.mp hw
        exact of_decide_eq_true (List.mem_filter.mp hmem).2
      · intro hall
        have hfull : waiters.filter (fun w => decide (w.index ≤ commitIndex)) = waiters :=
          List.filter_eq_self.mpr fun w hw => decide_eq_true (hall w hw)
        have hnone : waiters.filter (fun w => decide (commitIndex < w.index)) = [] := by
          rw [List.filter_eq_nil_iff]
          intro w hw
          have := hall w hw
          simpa using this
        rw [hfull, hnone]
        exact ⟨List.Perm.refl _, List.Perm.refl _⟩
    · simp only [hle, if_false, false_implies, iff_true]
      exact drainIf_committed commitIndex waiters

/-- No waiter gets lost or comes twice. -/
theorem drainCommitWaiters_perm (commitIndex : Nat) (waiters : List CommitWaiter) :
    List.Perm ((drainCommitWaiters commitIndex waiters).1 ++
      (drainCommitWaiters commitIndex waiters).2) waiters := by
  unfold drainCommitWaiters
  cases hlast : waiters.getLast? with
  | none => exact List.Perm.refl _
  | some last =>
    dsimp only
    split
    · rw [List.append_nil]
    · obtain ⟨hremoved, hleft⟩ := drainIf_committed commitIndex waiters
      refine (hremoved.append hleft).trans ?_
      rw [← filter_uncommitted]
      exact List.filter_append_perm _ waiters

/-- A vector in the order of the indices, as pushes build it. -/
theorem lastDecides_of_sorted {commitIndex : Nat} {waiters : List CommitWaiter}
    (h : waiters.Pairwise fun v w => v.index < w.index) : LastDecides commitIndex waiters := by
  intro last hlast hle w hw
  obtain ⟨init, rfl⟩ := List.getLast?_eq_some_iff.mp hlast
  rcases List.mem_append.mp hw with hw | hw
  · have := (List.pairwise_append.mp h).2.2 w hw last List.mem_cons_self
    omega
  · rw [List.mem_singleton.mp hw]
    exact hle

/-! ## Whole runs -/

/-- The vector with what happened so far: the waiters that were pushed, those
that were notified and the commit index of the last call. -/
structure Waiting where
  waiters : List CommitWaiter
  pushed : List CommitWaiter
  notified : List CommitWaiter
  commitIndex : Nat
deriving DecidableEq, Repr

inductive WaiterOp where
  | push (w : CommitWaiter)
  | drain (commitIndex : Nat)
deriving DecidableEq, Repr

namespace Waiting

def empty : Waiting := ⟨[], [], [], 0⟩

def step (s : Waiting) : WaiterOp → Option Waiting
  | .push w => some { s with waiters := s.waiters ++ [w], pushed := s.pushed ++ [w] }
  | .drain commitIndex =>
    let (committed, left) := drainCommitWaiters commitIndex s.waiters
    some { s with
      waiters := left
      notified := s.notified ++ committed
      commitIndex := commitIndex }

/-- Indices grow from push to push, the commit index never falls. -/
def Ordered (s : Waiting) : WaiterOp → Prop
  | .push w => ∀ x ∈ s.pushed, x.index < w.index
  | .drain commitIndex => s.commitIndex ≤ commitIndex

/-- What every run keeps. -/
structure Kept (s : Waiting) : Prop where
  perm : List.Perm (s.notified ++ s.waiters) s.pushed
  increasing : s.pushed.Pairwise fun v w => v.index < w.index

theorem Kept.step {s s' : Waiting} {op : WaiterOp} (h : s.Kept) (hop : s.Ordered op)
    (hstep : s.step op = some s') : s'.Kept := by
  cases op with
  | push w =>
    cases hstep
    constructor
    · change List.Perm (s.notified ++ (s.waiters ++ [w])) (s.pushed ++ [w])
      rw [← List.append_assoc]
      exact h.perm.append_right [w]
    · refine List.pairwise_append.mpr ⟨h.increasing, List.pairwise_singleton _ w, ?_⟩
      intro x hx y hy
      rw [List.mem_singleton.mp hy]
      exact hop x hx
  | drain commitIndex =>
    cases hstep
    constructor
    · change List.Perm (s.notified ++ _ ++ _) s.pushed
      rw [List.append_assoc]
      exact ((drainCommitWaiters_perm commitIndex s.waiters).append_left _).trans h.perm
    · exact h.increasing

/-- **Draining the waiters.**  In every run each waiter that was pushed was
notified once or still waits, and the next call notifies just those up to its
commit index if and only if the last waiter decides about all of them. -/
theorem drain_exact_iff {s : Waiting} (hrun : Reaches step Ordered empty s) (commitIndex : Nat) :
    (s.pushed.Nodup ∧ List.Perm (s.notified ++ s.waiters) s.pushed) ∧
      (DrainsExactly commitIndex s.waiters ↔ LastDecides commitIndex s.waiters) := by
  have hkept : s.Kept := by
    refine hrun.invariant ⟨List.Perm.refl _, List.Pairwise.nil⟩ ?_
    exact fun _ _ _ h hop hstep => h.step hop hstep
  refine ⟨⟨hkept.increasing.imp ?_, hkept.perm⟩, drainsExactly_iff commitIndex s.waiters⟩
  rintro v w hlt rfl
  exact Nat.lt_irrefl _ hlt

/-- A waiter for index `i`. -/
def waiterAt (i : Nat) : CommitWaiter := ⟨i, ⟨i, 0⟩⟩

/-- The vector and the waiters notified so far. -/
def outcome (ops : List WaiterOp) : Option (List Nat × List Nat) :=
  (runSteps step empty ops).map fun s =>
    (s.waiters.map CommitWaiter.index, s.notified.map CommitWaiter.index)

/-- Two waiters, the first of which is committed. -/
theorem drain_exact_iff_first : DrainsExactly 1 [waiterAt 1, waiterAt 2] := by
  have hone : Reaches step Ordered empty ⟨[waiterAt 1], [waiterAt 1], [], 0⟩ :=
    Reaches.refl.next (.push (waiterAt 1)) (by rintro _ ⟨⟩) rfl
  have htwo : Reaches step Ordered empty
      ⟨[waiterAt 1, waiterAt 2], [waiterAt 1, waiterAt 2], [], 0⟩ := by
    refine hone.next (.push (waiterAt 2)) ?_ rfl
    intro x hx
    rw [List.mem_singleton.mp hx]
    exact Nat.lt_succ_self 1
  refine (drain_exact_iff htwo 1).2.mpr (lastDecides_of_sorted ?_)
  exact List.pairwise_pair.mpr (Nat.lt_succ_self 1)

/-- Four waiters; a commit of the first moves the fourth to the front, and a
commit of the third then notifies the fourth as well. -/
theorem drain_notifies_uncommitted :
    outcome [.push (waiterAt 1), .push (waiterAt 2), .push (waiterAt 3), .push (waiterAt 4),
        .drain 1] = some ([4, 2, 3], [1]) ∧
      outcome [.push (waiterAt 1), .push (waiterAt 2), .push (waiterAt 3), .push (waiterAt 4),
        .drain 1, .drain 3] = some ([], [1, 4, 2, 3]) := by
  decide

end Waiting

end ArbitroRaft
