import Mathlib.Data.List.AList
import Mathlib.Algebra.BigOperators.Group.List.Basic
import Mathlib.Tactic

/-!
# Weights of a keyed table

The sum of a weight over the values of an association table, and how it moves
when one key is set or erased.
-/

namespace ArbitroRaft.Library

variable {K V : Type*}

/-- The values of `m` weighed by `f`. -/
def weigh (f : V → Nat) (m : AList fun _ : K => V) : Nat :=
  (m.entries.map fun e => f e.2).sum

theorem weigh_empty (f : V → Nat) : weigh f (∅ : AList fun _ : K => V) = 0 := rfl

variable [DecidableEq K] {f : V → Nat} {m : AList fun _ : K => V} {a : K} {b : V}

theorem sum_kerase {l : List (Sigma fun _ : K => V)} (h : l.dlookup a = some b) :
    (l.map fun e => f e.2).sum = f b + ((l.kerase a).map fun e => f e.2).sum := by
  induction l with
  | nil => cases h
  | cons e es ih =>
    by_cases hk : a = e.1
    · obtain ⟨k, v⟩ := e
      subst hk
      have hrest : ((⟨a, v⟩ : Sigma fun _ : K => V) :: es).kerase a = es :=
        List.kerase_cons_eq rfl
      rw [List.dlookup_cons_eq] at h
      rw [hrest, List.map_cons, List.sum_cons, ← Option.some.inj h]
    · rw [List.dlookup_cons_ne _ _ hk] at h
      rw [List.kerase_cons_ne hk, List.map_cons, List.map_cons, List.sum_cons, List.sum_cons,
        ih h]
      omega

theorem weigh_eq_add_erase (h : m.lookup a = some b) : weigh f m = f b + weigh f (m.erase a) :=
  sum_kerase h

theorem weigh_insert (f : V → Nat) (m : AList fun _ : K => V) (a : K) (b : V) :
    weigh f (m.insert a b) = f b + weigh f (m.erase a) := by
  unfold weigh
  rw [AList.entries_insert, List.map_cons, List.sum_cons]
  rfl

theorem weigh_erase_of_none (h : m.lookup a = none) : weigh f (m.erase a) = weigh f m := by
  unfold weigh
  rw [show (m.erase a).entries = m.entries.kerase a from rfl,
    List.kerase_of_notMem_keys (AList.lookup_eq_none.mp h)]

theorem exists_of_weigh_pos (h : 0 < weigh f m) : ∃ a b, m.lookup a = some b ∧ 0 < f b := by
  obtain ⟨w, hw, hpos⟩ : ∃ w ∈ m.entries.map fun e => f e.2, 0 < w := by
    by_contra hnone
    push Not at hnone
    refine absurd (List.sum_eq_zero fun w hw => ?_) (Nat.ne_of_gt h)
    exact Nat.le_zero.mp (hnone w hw)
  obtain ⟨⟨a, b⟩, he, rfl⟩ := List.mem_map.mp hw
  exact ⟨a, b, AList.mem_lookup_iff.mpr he, hpos⟩

end ArbitroRaft.Library
