import Mathlib.Data.List.Perm.Basic
import Mathlib.Tactic

/-!
# Removing from a vector by swapping

`swapRemove` takes an element out of a vector and fills the hole with the last
one; `drainIf` walks over the vector with it.  Both lose the order and nothing
else, which is what the two permutation lemmas say.
-/

namespace ArbitroRaft.Library

variable {α : Type*}

/-- The head goes and the last element takes its place. -/
def swapHead : List α → List α
  | [] => []
  | _ :: rest =>
    match rest.getLast? with
    | none => []
    | some last => last :: rest.dropLast

/-- `Vec::swap_remove`. -/
def swapRemove (l : List α) (i : Nat) : List α :=
  l.take i ++ swapHead (l.drop i)

/-- The loop `while i < len { if p(v[i]) { v.swap_remove(i) } else { i += 1 } }`
with what it removed, in this order, and what it left.  Every turn brings `i`
one closer to the end, so `fuel` is their distance. -/
def drainIf (p : α → Bool) : Nat → Nat → List α → List α × List α
  | 0, _, l => ([], l)
  | fuel + 1, i, l =>
    match l[i]? with
    | none => ([], l)
    | some x =>
      if p x then
        let (removed, left) := drainIf p fuel i (swapRemove l i)
        (x :: removed, left)
      else drainIf p fuel (i + 1) l

theorem swapHead_cons_perm (x : α) (rest : List α) : List.Perm (swapHead (x :: rest)) rest := by
  rcases List.eq_nil_or_concat' rest with rfl | ⟨init, last, rfl⟩
  · exact List.Perm.refl _
  · unfold swapHead
    dsimp only
    rw [List.getLast?_concat, List.dropLast_concat]
    exact (List.perm_append_singleton last init).symm

variable {l : List α} {i : Nat} {x : α}

theorem drop_of_getElem? (h : l[i]? = some x) : l.drop i = x :: l.drop (i + 1) := by
  obtain ⟨hi, rfl⟩ := List.getElem?_eq_some_iff.mp h
  exact List.drop_eq_getElem_cons hi

theorem swapRemove_perm (h : l[i]? = some x) : List.Perm l (x :: swapRemove l i) := by
  have hsplit : l = l.take i ++ x :: l.drop (i + 1) := by
    rw [← drop_of_getElem? h, List.take_append_drop]
  unfold swapRemove
  rw [drop_of_getElem? h]
  conv_lhs => rw [hsplit]
  refine List.perm_middle.trans (List.Perm.cons x ?_)
  exact (swapHead_cons_perm x _).symm.append_left _

/-- What lies before the hole stays where it is. -/
theorem take_swapRemove (h : l[i]? = some x) : (swapRemove l i).take i = l.take i := by
  have hi := (List.getElem?_eq_some_iff.mp h).1
  unfold swapRemove
  rw [List.take_append_of_le_length (by simp; omega), List.take_take, Nat.min_self]

/-- Nothing is left to do at the end of the vector. -/
theorem filter_of_passed {p : α → Bool} (h : ∀ x ∈ l, p x = false) :
    l.filter p = [] ∧ (l.filter fun x => !p x) = l := by
  constructor
  · rw [List.filter_eq_nil_iff]
    intro x hx
    rw [h x hx]
    exact Bool.false_ne_true
  · rw [List.filter_eq_self]
    intro x hx
    rw [h x hx]
    rfl

/-- The walk removes what satisfies `p` and leaves the rest. -/
theorem drainIf_perm {p : α → Bool} {fuel i : Nat} (hlen : l.length ≤ i + fuel)
    (hpassed : ∀ x ∈ l.take i, p x = false) :
    List.Perm (drainIf p fuel i l).1 (l.filter p) ∧
      List.Perm (drainIf p fuel i l).2 (l.filter fun x => !p x) := by
  -- The invariant: whatever the walk has passed does not satisfy `p`.
  induction fuel generalizing i l with
  | zero =>
    have hend : l.length ≤ i := hlen
    rw [List.take_of_length_le hend] at hpassed
    obtain ⟨hnone, hall⟩ := filter_of_passed hpassed
    rw [hnone, hall]
    exact ⟨List.Perm.refl _, List.Perm.refl _⟩
  | succ fuel ih =>
    unfold drainIf
    cases hx : l[i]? with
    | none =>
      rw [List.take_of_length_le (List.getElem?_eq_none_iff.mp hx)] at hpassed
      obtain ⟨hnone, hall⟩ := filter_of_passed hpassed
      rw [hnone, hall]
      exact ⟨List.Perm.refl _, List.Perm.refl _⟩
    | some x =>
      dsimp only
      cases hp : p x with
      | true =>
        have hperm := swapRemove_perm hx
        have hlength := hperm.length_eq
        rw [List.length_cons] at hlength
        rw [← take_swapRemove hx] at hpassed
        obtain ⟨hremoved, hleft⟩ := ih (by omega) hpassed
        have hfilter := hperm.filter p
        have hrest := hperm.filter fun x => !p x
        rw [List.filter_cons_of_pos hp] at hfilter
        rw [List.filter_cons_of_neg (by simp [hp])] at hrest
        exact ⟨(hremoved.cons x).trans hfilter.symm, hleft.trans hrest.symm⟩
      | false =>
        refine ih (by omega) ?_
        intro y hy
        rw [List.take_add_one, hx] at hy
        rcases List.mem_append.mp hy with hy | hy
        · exact hpassed y hy
        · rw [List.mem_singleton.mp hy]
          exact hp

end ArbitroRaft.Library
