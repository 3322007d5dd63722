import Mathlib.Data.List.Sort
import Mathlib.Data.List.Perm.Subperm
import Mathlib.Tactic

/-!
# Majorities

Two facts about counting votes: majorities of one voter list intersect, and the
`k`-th largest acknowledgement is the greatest one that more than `k` of the
voters reach.
-/

namespace ArbitroRaft.Library

variable {N : Type*}

/-- A duplicate-free list of more than half of the voters. -/
structure Majority (voters Q : List N) : Prop where
  nodup : Q.Nodup
  subset : Q ⊆ voters
  half : voters.length / 2 + 1 ≤ Q.length

/-- Majorities of the same voters share a voter. -/
theorem Majority.intersect {voters Q Q' : List N}
    (h : Majority voters Q) (h' : Majority voters Q') : ∃ v, v ∈ Q ∧ v ∈ Q' := by
  classical
  by_contra hno
  push Not at hno
  have hdisj : (Q ++ Q').Nodup := by
    refine List.nodup_append.mpr ⟨h.nodup, h'.nodup, ?_⟩
    intro a ha b hb hab
    exact hno a ha (hab ▸ hb)
  have hsub : Q ++ Q' ⊆ voters := List.append_subset.mpr ⟨h.subset, h'.subset⟩
  have hlen := (List.subperm_of_subset hdisj hsub).length_le
  have h1 := h.half
  have h2 := h'.half
  rw [List.length_append] at hlen
  omega

/-- In a descending list, the element at position `k` is reached by more than
`k` elements. -/
theorem lt_countP_of_pairwise {l : List Nat} (hl : l.Pairwise (fun a b => b ≤ a))
    {k q : Nat} (hk : l[k]? = some q) : k < l.countP (fun a => decide (q ≤ a)) := by
  induction l generalizing k with
  | nil => simp at hk
  | cons x xs ih =>
    obtain ⟨hx, hxs⟩ := List.pairwise_cons.mp hl
    cases k with
    | zero =>
      obtain rfl : x = q := by simpa using hk
      rw [List.countP_cons_of_pos (by simp)]
      omega
    | succ k =>
      have hk' : xs[k]? = some q := by simpa using hk
      have hq : q ≤ x := hx q (List.mem_of_getElem? hk')
      rw [List.countP_cons_of_pos (by simpa using hq)]
      have := ih hxs hk'
      omega

/-- In a descending list, at most `k` elements exceed the one at position `k`. -/
theorem countP_le_of_pairwise {l : List Nat} (hl : l.Pairwise (fun a b => b ≤ a))
    {k q i : Nat} (hk : l[k]? = some q) (hi : q < i) : l.countP (fun a => decide (i ≤ a)) ≤ k := by
  induction l generalizing k with
  | nil => simp
  | cons x xs ih =>
    obtain ⟨hx, hxs⟩ := List.pairwise_cons.mp hl
    cases k with
    | zero =>
      obtain rfl : x = q := by simpa using hk
      rw [Nat.le_zero, List.countP_eq_zero]
      intro a ha
      have hle : a ≤ x := by
        rcases List.mem_cons.mp ha with rfl | ha
        · exact le_rfl
        · exact hx a ha
      simp only [decide_eq_true_eq]
      omega
    | succ k =>
      have hk' : xs[k]? = some q := by simpa using hk
      have := ih hxs hk'
      rw [List.countP_cons]
      split <;> omega

/-- A bound is at most the `k`-th largest value of `l` when more than `k` members
reach it. -/
theorem le_iff_lt_length_filter {l : List N} {f : N → Nat} {k q : Nat}
    (hk : ((l.map f).insertionSort (fun a b => b ≤ a))[k]? = some q) (i : Nat) :
    i ≤ q ↔ k < (l.filter (fun v => decide (i ≤ f v))).length := by
  have hsorted : ((l.map f).insertionSort (fun a b => b ≤ a)).Pairwise
      (fun a b => b ≤ a) :=
    List.pairwise_insertionSort (fun a b : Nat => b ≤ a) (l.map f)
  have hcount (i : Nat) : ((l.map f).insertionSort (fun a b => b ≤ a)).countP
      (fun a => decide (i ≤ a)) = (l.filter (fun v => decide (i ≤ f v))).length := by
    rw [(List.perm_insertionSort _ _).countP_eq, List.countP_map,
      List.countP_eq_length_filter]
    rfl
  constructor
  · intro hi
    have hreached := lt_countP_of_pairwise hsorted hk
    rw [hcount] at hreached
    refine hreached.trans_le (List.monotone_filter_right l ?_).length_le
    intro v hv
    rw [decide_eq_true_eq] at hv ⊢
    exact hi.trans hv
  · intro hlt
    by_contra hi
    have hfew := countP_le_of_pairwise hsorted hk (not_le.mp hi)
    rw [hcount] at hfew
    omega

end ArbitroRaft.Library
