import ArbitroRaft.Types
import Mathlib.Data.List.Perm.Basic
import Mathlib.Tactic

/-!
# Per-peer tables

`PeerMap` is the packed association vector of the source.  Insertion replaces
the slot of a known key in place, removal swaps the last slot into the hole;
the lemmas below are what the rest of the development knows about it.
-/

namespace ArbitroRaft

abbrev PeerMap (V : Type) : Type := List (PeerId × V)

namespace PeerMap

variable {V : Type}

def empty : PeerMap V := []

def isEmpty (m : PeerMap V) : Bool := List.isEmpty m

def keys (m : PeerMap V) : List PeerId := List.map Prod.fst m

def insert : PeerMap V → PeerId → V → PeerMap V
  | [], k, v => [(k, v)]
  | (k', v') :: rest, k, v =>
    if k' = k then (k, v) :: rest else (k', v') :: insert rest k v

def get : PeerMap V → PeerId → Option V
  | [], _ => none
  | (k', v') :: rest, k => if k' = k then some v' else get rest k

/-- `swap_remove`: the last slot fills the hole. -/
def remove : PeerMap V → PeerId → PeerMap V
  | [], _ => []
  | (k', v') :: rest, k =>
    if k' = k then
      match List.getLast? rest with
      | none => []
      | some slot => slot :: List.dropLast rest
    else (k', v') :: remove rest k

def containsKey (m : PeerMap V) (k : PeerId) : Bool := (m.get k).isSome

@[simp] theorem keys_empty : (empty : PeerMap V).keys = [] := rfl

variable {m : PeerMap V} {k : PeerId} {v : V}

theorem isEmpty_iff : m.isEmpty = true ↔ m = empty := by
  unfold isEmpty empty
  exact List.isEmpty_iff

theorem get_insert (m : PeerMap V) (k j : PeerId) (v : V) :
    (m.insert k v).get j = if j = k then some v else m.get j := by
  induction m with
  | nil =>
    by_cases h : j = k
    · simp [insert, get, h]
    · simp [insert, get, h, Ne.symm h]
  | cons slot rest ih =>
    obtain ⟨k', v'⟩ := slot
    by_cases hk : k' = k
    · subst hk
      by_cases h : j = k'
      · simp [insert, get, h]
      · simp [insert, get, h, Ne.symm h]
    · simp only [insert, if_neg hk, get, ih]
      by_cases h : k' = j
      · subst h
        simp [hk]
      · simp [h]

theorem mem_keys_iff : k ∈ m.keys ↔ (m.get k).isSome := by
  induction m with
  | nil => simp [keys, get]
  | cons slot rest ih =>
    obtain ⟨k', v'⟩ := slot
    have ih' : k ∈ List.map Prod.fst rest ↔ (get rest k).isSome := ih
    by_cases h : k' = k
    · simp [keys, get, h]
    · simp [keys, get, h, Ne.symm h, ← ih']

/-- A slot after an insertion is an old one or the new one. -/
theorem mem_insert {slot : PeerId × V} (h : slot ∈ m.insert k v) : slot ∈ m ∨ slot = (k, v) := by
  induction m with
  | nil => exact .inr (List.mem_singleton.mp h)
  | cons first rest ih =>
    obtain ⟨k', v'⟩ := first
    unfold insert at h
    split at h
    · rcases List.mem_cons.mp h with rfl | h
      · exact .inr rfl
      · exact .inl (List.mem_cons_of_mem _ h)
    · rcases List.mem_cons.mp h with rfl | h
      · exact .inl List.mem_cons_self
      · exact (ih h).imp_left (List.mem_cons_of_mem _)

theorem mem_of_get (h : m.get k = some v) : (k, v) ∈ m := by
  induction m with
  | nil => cases h
  | cons first rest ih =>
    obtain ⟨k', v'⟩ := first
    unfold get at h
    split at h
    · rename_i hk
      cases h
      rw [hk]
      exact List.mem_cons_self
    · exact List.mem_cons_of_mem _ (ih h)

theorem mem_of_mem_remove {slot : PeerId × V} (h : slot ∈ m.remove k) : slot ∈ m := by
  induction m with
  | nil => cases h
  | cons first rest ih =>
    obtain ⟨k', v'⟩ := first
    unfold remove at h
    split at h
    · cases hlast : List.getLast? rest with
      | none =>
        rw [hlast] at h
        cases h
      | some last =>
        rw [hlast] at h
        refine List.mem_cons_of_mem _ ?_
        rcases List.mem_cons.mp h with rfl | h
        · exact List.mem_of_getLast? hlast
        · exact List.mem_of_mem_dropLast h
    · rcases List.mem_cons.mp h with rfl | h
      · exact List.mem_cons_self
      · exact List.mem_cons_of_mem _ (ih h)

theorem keys_insert_of_mem (v : V) (h : k ∈ m.keys) : (m.insert k v).keys = m.keys := by
  induction m with
  | nil => simp [keys] at h
  | cons slot rest ih =>
    obtain ⟨k', v'⟩ := slot
    by_cases hk : k' = k
    · simp [insert, keys, hk]
    · have hrest : k ∈ keys rest := by
        have : k = k' ∨ k ∈ keys rest := by simpa [keys] using h
        exact this.resolve_left (Ne.symm hk)
      have := ih hrest
      simp only [insert, if_neg hk]
      simpa [keys] using this

theorem keys_insert_of_not_mem (v : V) (h : k ∉ m.keys) : (m.insert k v).keys = m.keys ++ [k] := by
  induction m with
  | nil => rfl
  | cons slot rest ih =>
    obtain ⟨k', v'⟩ := slot
    have hk : k ≠ k' ∧ k ∉ keys rest := by simpa [keys] using h
    have := ih hk.2
    simp only [insert, if_neg (Ne.symm hk.1)]
    simpa [keys] using this

theorem nodup_keys_insert (k : PeerId) (v : V) (h : m.keys.Nodup) : (m.insert k v).keys.Nodup := by
  by_cases hk : k ∈ m.keys
  · rwa [keys_insert_of_mem v hk]
  · rw [keys_insert_of_not_mem v hk]
    simpa using h.concat hk

/-- Removal drops the first slot of the key, up to the order of the slots. -/
theorem keys_remove_perm (m : PeerMap V) (k : PeerId) :
    (m.remove k).keys.Perm (m.keys.erase k) := by
  induction m with
  | nil => exact List.Perm.refl _
  | cons slot rest ih =>
    obtain ⟨k', v'⟩ := slot
    by_cases hk : k' = k
    · subst hk
      have herase : (keys ((k', v') :: rest)).erase k' = List.map Prod.fst rest := by
        simp [keys]
      rw [herase]
      simp only [remove, if_true]
      rcases List.eq_nil_or_concat rest with h | ⟨init, slot, h⟩
      · simp [h, keys]
      · subst h
        simp [keys, List.perm_append_comm.symm.trans, List.perm_comm]
    · have herase : (keys ((k', v') :: rest)).erase k = k' :: (keys rest).erase k := by
        simp [keys, hk]
      rw [herase]
      simp only [remove, if_neg hk]
      exact List.Perm.cons k' ih

theorem mem_keys_remove (h : m.keys.Nodup) {k j : PeerId} :
    j ∈ (m.remove k).keys ↔ j ≠ k ∧ j ∈ m.keys := by
  rw [(keys_remove_perm m k).mem_iff, h.mem_erase_iff]

theorem nodup_keys_remove (k : PeerId) (h : m.keys.Nodup) : (m.remove k).keys.Nodup :=
  (keys_remove_perm m k).nodup_iff.mpr (h.erase k)

theorem get_eq_some_iff (h : m.keys.Nodup) : m.get k = some v ↔ (k, v) ∈ m := by
  refine ⟨mem_of_get, fun hmem => ?_⟩
  induction m with
  | nil => cases hmem
  | cons slot rest ih =>
    obtain ⟨k', v'⟩ := slot
    obtain ⟨hnot, hrest⟩ := List.nodup_cons.mp h
    rw [get]
    obtain heq | hmem := List.mem_cons.mp hmem
    · cases heq
      exact if_pos rfl
    · have hkey : k ∈ PeerMap.keys rest := List.mem_map_of_mem hmem
      have hne : k' ≠ k := fun heq => hnot (heq ▸ hkey)
      rw [if_neg hne]
      exact ih hrest hmem

/-- The order of the slots does not matter. -/
theorem get_of_perm {m m' : PeerMap V} (h : m.keys.Nodup) (hp : m.Perm m') (k : PeerId) :
    m'.get k = m.get k := by
  have h' : m'.keys.Nodup := (hp.map Prod.fst).nodup_iff.mp h
  ext v
  rw [get_eq_some_iff h, get_eq_some_iff h', hp.mem_iff]

theorem get_remove (h : m.keys.Nodup) (k j : PeerId) :
    (m.remove k).get j = if j = k then none else m.get j := by
  induction m with
  | nil => exact (ite_self none).symm
  | cons slot rest ih =>
    obtain ⟨k', v'⟩ := slot
    obtain ⟨hnot, hrest⟩ := List.nodup_cons.mp h
    by_cases hk : k' = k
    · subst hk
      rw [remove, if_pos rfl]
      have hswap : List.Perm rest (match List.getLast? rest with
          | none => []
          | some slot => slot :: List.dropLast rest) := by
        rcases List.eq_nil_or_concat rest with rfl | ⟨front, last, rfl⟩
        · exact List.Perm.refl _
        · rw [List.concat_eq_append, List.getLast?_concat, List.dropLast_concat]
          exact List.perm_append_singleton last front
      rw [get_of_perm hrest hswap, get]
      by_cases hj : j = k'
      · rw [hj, if_pos rfl, ← Option.not_isSome_iff_eq_none, ← mem_keys_iff]
        exact hnot
      · rw [if_neg hj, if_neg (Ne.symm hj)]
    · rw [remove, if_neg hk, get, get, ih hrest]
      by_cases hj : k' = j
      · rw [if_pos hj, if_pos hj, if_neg (hj ▸ hk)]
      · rw [if_neg hj, if_neg hj]

end PeerMap

/-! ## Slots -/

structure PeerProgress where
  nextIndex : Nat
  matchIndex : Nat
deriving DecidableEq, Repr

structure AppendAttemptState where
  attempts : Nat
  sentLastIndex : Nat
deriving DecidableEq, Repr

inductive AppendAdvance where
  | completed
  | retry (state : AppendAttemptState)
  | dropped
  | ignored
deriving DecidableEq, Repr

structure PendingSnapshot where
  snapshotMeta : SnapshotMeta
  bytes : List UInt8
  /-- Instant after which the transfer is evicted as stalled. -/
  deadline : Nat
deriving DecidableEq, Repr

structure SnapshotAttempts where
  attempts : Nat
  cooldownUntil : Option Nat
deriving DecidableEq, Repr

end ArbitroRaft
