import ArbitroRaft.Types
import Mathlib.Data.Nat.ModEq
import Mathlib.Logic.Function.Basic
import Mathlib.Tactic

/-!
# The circular log-metadata arena

`LogMetadataArena` is a ring of `(index, term)` slots that answers term lookups
for the newest part of the log without touching storage.  The generation tags
of the source are written and never read, so a slot here is the pair alone.

The node relies on it that a lookup never invents a term (`getTerm_append`,
`getTerm_truncateSuffix`); that it finds what was appended is in `Arena.Refinement`.
-/

namespace ArbitroRaft

@[ext] structure LogMetadataSlot where
  term : Nat
  index : Nat
deriving DecidableEq, Repr

structure LogMetadataArena where
  /-- Length of the boxed slice. -/
  cap : Nat
  slots : Nat → LogMetadataSlot
  head : Nat
  len : Nat
  baseIndex : Nat

namespace LogMetadataArena

def new (capacity : Nat) : LogMetadataArena :=
  { cap := capacity
    slots := fun _ => { term := 0, index := 0 }
    head := 0
    len := 0
    baseIndex := 0 }

def clear (a : LogMetadataArena) (newBase : Nat) : LogMetadataArena :=
  { a with head := 0, len := 0, baseIndex := newBase }

/-- An empty window starts at the index that is appended to it. -/
def windowBase (a : LogMetadataArena) (index : Nat) : Nat :=
  if a.len = 0 then index else a.baseIndex

/-- First half of `append`: an index that does not continue the window
restarts the arena at that index. -/
def rebase (a : LogMetadataArena) (index : Nat) : LogMetadataArena :=
  if index ≠ satAdd (a.windowBase index) a.len then a.clear index
  else { a with baseIndex := a.windowBase index }

/-- A full arena drops its oldest slot. -/
def evict (a : LogMetadataArena) : LogMetadataArena :=
  if a.len = a.cap then
    { a with
      head := (a.head + 1) % a.cap
      baseIndex := satAdd a.baseIndex 1
      len := a.len - 1 }
  else a

/-- Write the pair in the slot behind the window. -/
def push (a : LogMetadataArena) (index : Nat) (term : Nat) : LogMetadataArena :=
  { a with
    slots := Function.update a.slots ((a.head + a.len) % a.cap)
      { term := term, index := index }
    len := a.len + 1 }

def append (a : LogMetadataArena) (index : Nat) (term : Nat) : LogMetadataArena :=
  if a.cap = 0 then a else ((a.rebase index).evict).push index term

def getTerm (a : LogMetadataArena) (index : Nat) : Option Nat :=
  if a.cap = 0 ∨ a.len = 0 then none
  else if a.baseIndex ≤ index ∧ index < satAdd a.baseIndex a.len then
    let slot := a.slots ((a.head + (index - a.baseIndex)) % a.cap)
    if slot.index = index then some slot.term else none
  else none

def truncateSuffix (a : LogMetadataArena) (index : Nat) : LogMetadataArena :=
  if a.len = 0 then a
  else if index ≤ a.baseIndex then a.clear index
  else if index < satAdd a.baseIndex a.len then
    { a with len := index - a.baseIndex }
  else a

/-! ## Lookups -/

variable {a : LogMetadataArena}

theorem getTerm_eq_some {index : Nat} {t : Nat} :
    a.getTerm index = some t ↔
      a.cap ≠ 0 ∧ a.len ≠ 0 ∧ a.baseIndex ≤ index ∧
        index < satAdd a.baseIndex a.len ∧
        a.slots ((a.head + (index - a.baseIndex)) % a.cap) =
          { term := t, index := index } := by
  unfold getTerm
  by_cases h0 : a.cap = 0 ∨ a.len = 0
  · rw [if_pos h0]
    constructor
    · intro h
      cases h
    · rintro ⟨hc, hl, -⟩
      exact absurd h0 (by simp [hc, hl])
  · rw [if_neg h0]
    push Not at h0
    by_cases hw : a.baseIndex ≤ index ∧ index < satAdd a.baseIndex a.len
    · simp only [h0.1, h0.2, hw.1, hw.2, ne_eq, not_false_eq_true, true_and,
        LogMetadataSlot.ext_iff]
      split <;> simp_all [and_comm]
    · rw [if_neg hw]
      constructor
      · intro h
        cases h
      · rintro ⟨-, -, h1, h2, -⟩
        exact absurd ⟨h1, h2⟩ hw

@[simp] theorem getTerm_new (capacity : Nat) (index : Nat) :
    (new capacity).getTerm index = none := by
  simp [getTerm, new]

@[simp] theorem getTerm_clear (a : LogMetadataArena) (newBase index : Nat) :
    (a.clear newBase).getTerm index = none := by
  simp [getTerm, clear]

private theorem getTerm_rebase {a : LogMetadataArena} {i j : Nat} {u : Nat}
    (h : (a.rebase i).getTerm j = some u) : a.getTerm j = some u := by
  unfold rebase at h
  split at h
  · simp at h
  · by_cases hl : a.len = 0
    · simp [getTerm, hl] at h
    · simpa only [windowBase, if_neg hl] using h

/-- After rebasing, the next slot to fill is the one for `i`. -/
private theorem satAdd_rebase (a : LogMetadataArena) (i : Nat) :
    satAdd (a.rebase i).baseIndex (a.rebase i).len = i := by
  have hz : satAdd i 0 = i := by
    unfold satAdd
    split <;> omega
  unfold rebase
  split
  · exact hz
  · rename_i hi
    exact (not_not.mp hi).symm

private theorem satAdd_evict (a : LogMetadataArena) (hc : a.cap ≠ 0) :
    satAdd a.evict.baseIndex a.evict.len = satAdd a.baseIndex a.len := by
  unfold evict
  split
  · rename_i hl
    simp only [satAdd]
    repeat' split
    all_goals omega
  · rfl

private theorem getTerm_evict {a : LogMetadataArena} {j : Nat} {u : Nat}
    (h : a.evict.getTerm j = some u) : a.getTerm j = some u := by
  unfold evict at h
  split at h
  · rename_i hl
    obtain ⟨hc, hl', hb, hlt, hs⟩ := getTerm_eq_some.mp h
    simp only at hc hl' hb hlt hs
    -- At the numeric limit the shifted window is empty.
    have hb' : satAdd a.baseIndex 1 = a.baseIndex + 1 := by
      by_contra hne
      simp only [satAdd] at hb hlt hne
      repeat' split at hlt
      all_goals repeat' split at hb
      all_goals repeat' split at hne
      all_goals omega
    rw [hb'] at hb hlt hs
    refine getTerm_eq_some.mpr ⟨hc, by omega, by omega, ?_, ?_⟩
    · simp only [satAdd] at hlt ⊢
      split at hlt <;> split <;> omega
    · have hpos : (a.head + 1) % a.cap + (j - (a.baseIndex + 1)) ≡
          a.head + (j - a.baseIndex) [MOD a.cap] := by
        have hj : j - a.baseIndex = 1 + (j - (a.baseIndex + 1)) := by omega
        rw [hj, ← Nat.add_assoc]
        exact (Nat.mod_modEq _ _).add_right _
      rw [← hs]
      exact congrArg a.slots hpos.symm
  · exact h

private theorem getTerm_push {a : LogMetadataArena} {i j : Nat} {t u : Nat}
    (hi : satAdd a.baseIndex a.len = i) (h : (a.push i t).getTerm j = some u) :
    j = i ∧ u = t ∨ j ≠ i ∧ a.getTerm j = some u := by
  obtain ⟨hc, -, hb, hlt, hs⟩ := getTerm_eq_some.mp h
  simp only [push] at hc hb hlt hs
  by_cases hw : (a.head + (j - a.baseIndex)) % a.cap = (a.head + a.len) % a.cap
  · rw [hw, Function.update_self] at hs
    injection hs with ht hj
    exact .inl ⟨hj.symm, ht.symm⟩
  · rw [Function.update_of_ne hw] at hs
    have hne : j - a.baseIndex ≠ a.len := fun e => hw (by rw [e])
    have hjlt : j < satAdd a.baseIndex a.len := by
      simp only [satAdd] at hlt ⊢
      split at hlt <;> split <;> omega
    refine .inr ⟨by omega, getTerm_eq_some.mpr ⟨hc, ?_, hb, hjlt, hs⟩⟩
    have := satAdd_le a.baseIndex a.len
    omega

/-- A lookup after `append` sees the appended pair or what was there before. -/
theorem getTerm_append {i j : Nat} {t u : Nat} (h : (a.append i t).getTerm j = some u) :
    j = i ∧ u = t ∨ j ≠ i ∧ a.getTerm j = some u := by
  unfold append at h
  split at h
  · rename_i hc
    simp [getTerm, hc] at h
  · rename_i hc
    have hcr : (a.rebase i).cap ≠ 0 := by
      unfold rebase clear
      split <;> exact hc
    have hnext : satAdd (a.rebase i).evict.baseIndex (a.rebase i).evict.len = i := by
      rw [satAdd_evict _ hcr, satAdd_rebase]
    obtain h' | ⟨hne, h'⟩ := getTerm_push hnext h
    · exact .inl h'
    · exact .inr ⟨hne, getTerm_rebase (getTerm_evict h')⟩

/-- A suffix truncation keeps exactly lookups below the cut. -/
theorem getTerm_truncateSuffix {k j : Nat} {u : Nat} (h : (a.truncateSuffix k).getTerm j = some u) :
    j < k ∧ a.getTerm j = some u := by
  unfold truncateSuffix at h
  split at h
  · rename_i hl
    simp [getTerm, hl] at h
  · rename_i hl
    split at h
    · simp at h
    · split at h
      · rename_i hk hlt
        obtain ⟨hc, -, hb, hj, hs⟩ := getTerm_eq_some.mp h
        simp only at hc hb hj hs
        have hle := satAdd_le a.baseIndex (k - a.baseIndex)
        exact ⟨by omega,
          getTerm_eq_some.mpr ⟨hc, hl, hb, by omega, hs⟩⟩
      · obtain ⟨-, -, -, hj, -⟩ := getTerm_eq_some.mp h
        exact ⟨by omega, h⟩

end LogMetadataArena

end ArbitroRaft
