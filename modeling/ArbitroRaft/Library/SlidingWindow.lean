import ArbitroRaft.Library.Contiguous
import Mathlib.Data.PNat.Basic

/-!
# Sliding windows

Values at consecutive indices, at most `cap` of them.  The index behind the newest pair
extends the window, which then drops what it has no room for; any other index restarts it.
-/

namespace ArbitroRaft.Library

variable {α : Type*} {cap : ℕ+}

/-- Pairs of consecutive indices, the oldest first. -/
structure SlidingWindow (α : Type*) (cap : ℕ+) where
  pairs : List (Nat × α)
  consecutive : ∃ first, Contiguous (fun p : Nat × α => p.1 + 1) first pairs
  bounded : pairs.length ≤ cap

namespace SlidingWindow

def empty : SlidingWindow α cap := ⟨[], ⟨0, trivial⟩, Nat.zero_le _⟩

/-- The index behind the newest pair. -/
def next (w : SlidingWindow α cap) : Option Nat := w.pairs.getLast?.map fun p => p.1 + 1

variable {w : SlidingWindow α cap} {i : Nat}

/-- The index behind a window that starts at `first`. -/
theorem next_eq {first : Nat} (h : Contiguous (fun p : Nat × α => p.1 + 1) first w.pairs) :
    w.next = if w.pairs = [] then none else some (first + w.pairs.length) := by
  unfold next
  cases hlast : w.pairs.getLast? with
  | none => rw [if_pos (List.getLast?_eq_none_iff.mp hlast), Option.map_none]
  | some p =>
    have hne : w.pairs ≠ [] := fun hnil => by simp [hnil] at hlast
    rw [if_neg hne, Option.map_some, h.getLast?_idx hlast]

theorem consecutive_extend (h : w.next = some i) (a : α) :
    ∃ first, Contiguous (fun p : Nat × α => p.1 + 1) first
      ((w.pairs ++ [(i, a)]).drop (w.pairs.length + 1 - cap)) := by
  obtain ⟨first, hfirst⟩ := w.consecutive
  rw [next_eq hfirst] at h
  split at h
  · cases h
  · cases h
    have hall : Contiguous (fun p : Nat × α => p.1 + 1) first
        (w.pairs ++ [(first + w.pairs.length, a)]) :=
      contiguous_append.mpr ⟨hfirst, rfl, trivial⟩
    exact ⟨_, hall.drop (by simp)⟩

def append (w : SlidingWindow α cap) (i : Nat) (a : α) : SlidingWindow α cap :=
  if h : w.next = some i then
    { pairs := (w.pairs ++ [(i, a)]).drop (w.pairs.length + 1 - cap)
      consecutive := consecutive_extend h a
      bounded := by
        rw [List.length_drop, List.length_append, List.length_singleton]
        omega }
  else
    { pairs := [(i, a)]
      consecutive := ⟨i, rfl, trivial⟩
      bounded := cap.pos }

theorem pairs_append_next (h : w.next = some i) (a : α) :
    (w.append i a).pairs = (w.pairs ++ [(i, a)]).drop (w.pairs.length + 1 - cap) := by
  unfold append
  rw [dif_pos h]

theorem pairs_append_other (h : w.next ≠ some i) (a : α) : (w.append i a).pairs = [(i, a)] := by
  unfold append
  rw [dif_neg h]

/-- Drop the pairs from index `f` on. -/
def truncateSuffix (w : SlidingWindow α cap) (f : Nat) : SlidingWindow α cap where
  pairs := w.pairs.filter fun p => decide (p.1 < f)
  consecutive := by
    obtain ⟨first, hfirst⟩ := w.consecutive
    have hcut := hfirst.filter_lt (f + 1)
    simp only [Nat.add_lt_add_iff_right] at hcut
    exact ⟨first, hcut ▸ hfirst.take _⟩
  bounded := (List.length_filter_le _ _).trans w.bounded

def lookup (w : SlidingWindow α cap) (i : Nat) : Option α :=
  (w.pairs.find? fun p => decide (p.1 = i)).map Prod.snd

/-- The window holds one value at an index. -/
theorem lookup_eq_some {a : α} : w.lookup i = some a ↔ (i, a) ∈ w.pairs := by
  unfold lookup
  constructor
  · intro h
    obtain ⟨p, hp, rfl⟩ := Option.map_eq_some_iff.mp h
    have hi : p.1 = i := by simpa using List.find?_some hp
    subst hi
    exact List.mem_of_find?_eq_some hp
  · intro h
    obtain ⟨first, hfirst⟩ := w.consecutive
    cases hfind : w.pairs.find? fun p => decide (p.1 = i) with
    | none => exact absurd (List.find?_eq_none.mp hfind _ h) (by simp)
    | some p =>
      have hi : p.1 = i := by simpa using List.find?_some hfind
      have hp : p = (i, a) :=
        hfirst.eq_of_idx (List.mem_of_find?_eq_some hfind) h (congrArg (· + 1) hi)
      rw [hp, Option.map_some]

/-- What a window holds behind an append: the new pair, or a pair of another index that it
held before. -/
theorem mem_append {i j : Nat} {a b : α} (h : (j, b) ∈ (w.append i a).pairs) :
    j = i ∧ b = a ∨ j ≠ i ∧ (j, b) ∈ w.pairs := by
  by_cases hnext : w.next = some i
  · rw [pairs_append_next hnext] at h
    rcases List.mem_append.mp (List.mem_of_mem_drop h) with hold | hnew
    · obtain ⟨first, hfirst⟩ := w.consecutive
      rw [next_eq hfirst] at hnext
      split at hnext
      · cases hnext
      · have hlast := (hfirst.bounds hold).2
        have hi := Option.some.inj hnext
        exact .inr ⟨by omega, hold⟩
    · exact .inl (Prod.mk.inj (List.mem_singleton.mp hnew))
  · rw [pairs_append_other hnext] at h
    exact .inl (Prod.mk.inj (List.mem_singleton.mp h))

theorem mem_truncateSuffix {f j : Nat} {b : α} :
    (j, b) ∈ (w.truncateSuffix f).pairs ↔ (j, b) ∈ w.pairs ∧ j < f := by
  simp [truncateSuffix]

end SlidingWindow

end ArbitroRaft.Library
