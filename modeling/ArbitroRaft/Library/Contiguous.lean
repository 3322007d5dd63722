import Mathlib.Data.List.Basic
import Mathlib.Tactic

/-!
# Contiguously indexed lists

A list whose elements carry an index is *contiguous above* `b` when the indices
are `b + 1, b + 2, …` in order.  On such a list the searches a storage performs
by index (lookup, cutting a prefix or a suffix) are plain positional operations;
the lemmas here say so, and nothing in them knows what the elements are.
-/

namespace ArbitroRaft.Library

variable {α : Type*}

/-- The indices of `l` are `b + 1, b + 2, …`. -/
def Contiguous (idx : α → Nat) : Nat → List α → Prop
  | _, [] => True
  | b, x :: xs => idx x = b + 1 ∧ Contiguous idx (b + 1) xs

instance decidableContiguous (idx : α → Nat) :
    ∀ (b : Nat) (l : List α), Decidable (Contiguous idx b l)
  | _, [] => inferInstanceAs (Decidable True)
  | b, _ :: xs =>
    have := decidableContiguous idx (b + 1) xs
    inferInstanceAs (Decidable (_ ∧ _))

variable {idx : α → Nat} {b k : Nat} {l m : List α} {x : α}

theorem contiguous_append :
    Contiguous idx b (l ++ m) ↔
      Contiguous idx b l ∧ Contiguous idx (b + l.length) m := by
  induction l generalizing b with
  | nil => simp [Contiguous]
  | cons y ys ih =>
    simp only [List.cons_append, Contiguous, ih, List.length_cons, and_assoc]
    rw [show b + 1 + ys.length = b + (ys.length + 1) by omega]

theorem Contiguous.idx_eq (h : Contiguous idx b l) {i : Nat}
    (hx : l[i]? = some x) : idx x = b + i + 1 := by
  induction l generalizing b i with
  | nil => simp at hx
  | cons y ys ih =>
    cases i with
    | zero =>
      obtain rfl : y = x := by simpa using hx
      exact h.1
    | succ i =>
      have := ih h.2 (by simpa using hx)
      omega

theorem Contiguous.bounds (h : Contiguous idx b l) (hx : x ∈ l) :
    b < idx x ∧ idx x ≤ b + l.length := by
  obtain ⟨i, hi, rfl⟩ := List.mem_iff_getElem.mp hx
  have := h.idx_eq (List.getElem?_eq_getElem hi)
  omega

/-- Every index in the range of the list is one of its elements'. -/
theorem Contiguous.exists_idx (h : Contiguous idx b l) {j : Nat} (hb : b < j)
    (hj : j ≤ b + l.length) : ∃ x ∈ l, idx x = j := by
  have hlt : j - (b + 1) < l.length := by omega
  refine ⟨l[j - (b + 1)], List.getElem_mem hlt, ?_⟩
  have := h.idx_eq (List.getElem?_eq_getElem hlt)
  omega

theorem Contiguous.getLast?_idx (h : Contiguous idx b l) (hx : l.getLast? = some x) :
    idx x = b + l.length := by
  have hpos : 0 < l.length := List.length_pos_of_mem (List.mem_of_getLast? hx)
  rw [List.getLast?_eq_getElem?] at hx
  have := h.idx_eq hx
  omega

/-- An index determines its element. -/
theorem Contiguous.eq_of_idx (h : Contiguous idx b l) {y : α} (hx : x ∈ l) (hy : y ∈ l)
    (hxy : idx x = idx y) : x = y := by
  obtain ⟨i, hi, rfl⟩ := List.mem_iff_getElem.mp hx
  obtain ⟨j, hj, rfl⟩ := List.mem_iff_getElem.mp hy
  have hidx := h.idx_eq (List.getElem?_eq_getElem hi)
  have hjdx := h.idx_eq (List.getElem?_eq_getElem hj)
  obtain rfl : i = j := by omega
  rfl

theorem Contiguous.take (h : Contiguous idx b l) (n : Nat) : Contiguous idx b (l.take n) := by
  rw [← List.take_append_drop n l, contiguous_append] at h
  exact h.1

theorem Contiguous.drop (h : Contiguous idx b l) {n : Nat} (hn : n ≤ l.length) :
    Contiguous idx (b + n) (l.drop n) := by
  rw [← List.take_append_drop n l, contiguous_append] at h
  simpa only [List.length_take, Nat.min_eq_left hn] using h.2

/-- Cutting everything from index `k` on keeps a prefix. -/
theorem Contiguous.filter_lt (h : Contiguous idx b l) (k : Nat) :
    l.filter (fun x => decide (idx x < k)) = l.take (k - (b + 1)) := by
  induction l generalizing b with
  | nil => simp
  | cons y ys ih =>
    have hy : idx y = b + 1 := h.1
    by_cases hk : b + 1 < k
    · rw [List.filter_cons_of_pos (by simpa [hy] using hk), ih h.2,
        show k - (b + 1) = (k - (b + 1 + 1)) + 1 by omega, List.take_succ_cons]
    · rw [List.filter_cons_of_neg (by simpa [hy] using hk), ih h.2,
        show k - (b + 1) = 0 by omega, show k - (b + 1 + 1) = 0 by omega]
      simp

/-- Cutting everything below index `k` keeps a suffix. -/
theorem Contiguous.filter_ge (h : Contiguous idx b l) (k : Nat) :
    l.filter (fun x => decide (k ≤ idx x)) = l.drop (k - (b + 1)) := by
  induction l generalizing b with
  | nil => simp
  | cons y ys ih =>
    have hy : idx y = b + 1 := h.1
    by_cases hk : k ≤ b + 1
    · rw [List.filter_cons_of_pos (by simpa [hy] using hk), ih h.2,
        show k - (b + 1) = 0 by omega, show k - (b + 1 + 1) = 0 by omega]
      simp
    · rw [List.filter_cons_of_neg (by simpa [hy] using hk), ih h.2,
        show k - (b + 1) = (k - (b + 1 + 1)) + 1 by omega, List.drop_succ_cons]

/-- Looking an index up from the back is reading a position. -/
theorem Contiguous.find?_reverse (h : Contiguous idx b l) (k : Nat) :
    l.reverse.find? (fun x => decide (idx x = k)) =
      if b < k then l[k - (b + 1)]? else none := by
  induction l generalizing b with
  | nil => simp
  | cons y ys ih =>
    have hy : idx y = b + 1 := h.1
    rw [List.reverse_cons, List.find?_append, ih h.2]
    by_cases hk : b < k
    · rw [if_pos hk]
      by_cases hk1 : b + 1 < k
      · rw [if_pos hk1, show k - (b + 1) = (k - (b + 1 + 1)) + 1 by omega,
          List.getElem?_cons_succ]
        have hne : idx y ≠ k := by omega
        cases ys[k - (b + 1 + 1)]? <;> simp [hne]
      · obtain rfl : k = b + 1 := by omega
        simp [hy]
    · rw [if_neg hk, if_neg (by omega)]
      have hne : idx y ≠ k := by omega
      simp [hne]

end ArbitroRaft.Library
