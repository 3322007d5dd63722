import ArbitroRaft.Arena
import ArbitroRaft.Library.SlidingWindow

/-!
# The arena is a sliding window

The ring of `LogMetadataArena` and the window of the newest terms it stands for.  `Mirrors`
relates the two: the slots from `head` on are the pairs of the window, and the arithmetic of
the ring stays below the numeric limit.  An operation of the arena does to the window what
the operation of the same name does (`Mirrors.append`, `Mirrors.truncateSuffix`), so that
every run of the one mirrors the run of the other.

## Main results

* `arena_refines_window`: every run of the arena refines the run of the window.
-/

namespace ArbitroRaft

open Library

namespace LogMetadataArena

variable {cap : ℕ+}

/-- The slots of `a` from its head on are `pairs`. -/
structure Mirrors (cap : ℕ+) (a : LogMetadataArena) (pairs : List (Nat × Nat)) : Prop where
  cap : a.cap = cap
  len : pairs.length = a.len
  consecutive : Contiguous (fun p : Nat × Nat => p.1 + 1) a.baseIndex pairs
  slot : ∀ k p, pairs[k]? = some p →
    a.slots ((a.head + k) % a.cap) = { term := p.2, index := p.1 }
  room : a.baseIndex + a.len ≤ u64Max

namespace Mirrors

variable {a : LogMetadataArena} {pairs : List (Nat × Nat)}

theorem cap_pos (h : Mirrors cap a pairs) : 0 < a.cap := h.cap ▸ cap.pos

theorem index_eq (h : Mirrors cap a pairs) {k : Nat} {p : Nat × Nat}
    (hp : pairs[k]? = some p) : p.1 = a.baseIndex + k := by
  have := h.consecutive.idx_eq hp
  omega

/-- A lookup reads the window. -/
theorem getTerm_eq_some (h : Mirrors cap a pairs) {i t : Nat} :
    a.getTerm i = some t ↔ (i, t) ∈ pairs := by
  have hcap := h.cap_pos
  rw [LogMetadataArena.getTerm_eq_some, satAdd_of_le h.room, List.mem_iff_getElem?]
  constructor
  · rintro ⟨-, -, hbase, hlt, hslot⟩
    have hk : i - a.baseIndex < pairs.length := by
      rw [h.len]
      omega
    have hget := List.getElem?_eq_getElem hk
    have hindex := h.index_eq hget
    have hread := h.slot _ _ hget
    rw [hslot] at hread
    injection hread with hterm
    exact ⟨_, hget.trans (congrArg some (Prod.ext (by omega) hterm.symm))⟩
  · rintro ⟨k, hk⟩
    have hlt : k < a.len := by
      rw [← h.len]
      exact (List.getElem?_eq_some_iff.mp hk).1
    obtain rfl : i = a.baseIndex + k := h.index_eq hk
    refine ⟨by omega, by omega, by omega, by omega, ?_⟩
    rw [Nat.add_sub_cancel_left]
    exact h.slot k _ hk

/-- An arena of length 0 holds nothing, whatever its slots are. -/
theorem nil (hcap : a.cap = cap) (hlen : a.len = 0) (hbase : a.baseIndex ≤ u64Max) :
    Mirrors cap a [] where
  cap := hcap
  len := hlen.symm
  consecutive := trivial
  slot _ _ hp := nomatch hp
  room := by
    rw [hlen]
    exact hbase

/-- Behind `rebase` the window goes on or is empty, and ends right below the index. -/
theorem rebase (h : Mirrors cap a pairs) {i : Nat} (hi : i ≤ u64Max) :
    Mirrors cap (a.rebase i) (if i = a.baseIndex + a.len then pairs else []) ∧
      (a.rebase i).baseIndex + (a.rebase i).len = i := by
  unfold LogMetadataArena.rebase windowBase
  by_cases hlen : a.len = 0
  · have hnil : pairs = [] := List.length_eq_zero_iff.mp (h.len.trans hlen)
    have hstart : i = satAdd i 0 := by
      rw [satAdd_of_le (show i + 0 ≤ u64Max from hi), Nat.add_zero]
    rw [if_pos hlen, hlen, if_neg (not_not.mpr hstart), hnil, ite_self]
    exact ⟨.nil h.cap rfl hi, rfl⟩
  · rw [if_neg hlen, satAdd_of_le h.room]
    by_cases hnext : i = a.baseIndex + a.len
    · rw [if_neg (not_not.mpr hnext), if_pos hnext]
      exact ⟨⟨h.cap, h.len, h.consecutive, h.slot, h.room⟩, hnext.symm⟩
    · rw [if_pos hnext, if_neg hnext]
      exact ⟨.nil h.cap rfl hi, rfl⟩

/-- A full arena gives up the oldest pair, so that one more fits behind the window. -/
theorem evict (h : Mirrors cap a pairs) (hlen : a.len ≤ cap) :
    Mirrors cap a.evict (pairs.drop (a.len + 1 - cap)) ∧ a.evict.len < cap ∧
      a.evict.baseIndex + a.evict.len = a.baseIndex + a.len := by
  have hpos := cap.pos
  have hroom := h.room
  unfold LogMetadataArena.evict
  by_cases hfull : a.len = a.cap
  · have hone : a.len + 1 - cap = 1 := by
      rw [hfull, h.cap]
      omega
    have hsome : 0 < a.len := hfull ▸ h.cap_pos
    rw [if_pos hfull, hone, satAdd_of_le (by omega)]
    refine ⟨⟨h.cap, ?_, h.consecutive.drop ?_, ?_, ?_⟩, ?_, ?_⟩
    · rw [List.length_drop, h.len]
    · rw [h.len]
      exact hsome
    · intro k p hp
      rw [List.getElem?_drop] at hp
      -- The ring moved on by one slot, and so did the positions of the pairs.
      have hpos : (a.head + 1) % a.cap + k ≡ a.head + (1 + k) [MOD a.cap] := by
        rw [← Nat.add_assoc]
        exact (Nat.mod_modEq _ _).add_right _
      exact (congrArg a.slots hpos).trans (h.slot _ _ hp)
    · show a.baseIndex + 1 + (a.len - 1) ≤ u64Max
      omega
    · show a.len - 1 < cap
      omega
    · show a.baseIndex + 1 + (a.len - 1) = a.baseIndex + a.len
      omega
  · rw [h.cap] at hfull
    have hzero : a.len + 1 - cap = 0 := by omega
    rw [h.cap, if_neg hfull, hzero]
    exact ⟨h, by omega, rfl⟩

/-- The slot behind the window is none of its slots. -/
theorem push (h : Mirrors cap a pairs) (hlen : a.len < cap) {i t : Nat}
    (hi : a.baseIndex + a.len = i) (hroom : i < u64Max) :
    Mirrors cap (a.push i t) (pairs ++ [(i, t)]) where
  cap := h.cap
  len := by
    rw [List.length_append, h.len]
    rfl
  consecutive := by
    refine contiguous_append.mpr ⟨h.consecutive, ?_, trivial⟩
    show i + 1 = a.baseIndex + pairs.length + 1
    rw [h.len, hi]
  slot k p hp := by
    show Function.update a.slots ((a.head + a.len) % a.cap) _ ((a.head + k) % a.cap) = _
    rw [← h.cap] at hlen
    rcases Nat.lt_or_ge k pairs.length with hk | hk
    · rw [List.getElem?_append_left hk] at hp
      rw [h.len] at hk
      have hne : (a.head + k) % a.cap ≠ (a.head + a.len) % a.cap := by
        intro heq
        have hmod : k ≡ a.len [MOD a.cap] := Nat.ModEq.add_left_cancel' a.head heq
        have := hmod.eq_of_lt_of_lt (hk.trans hlen) hlen
        omega
      rw [Function.update_of_ne hne]
      exact h.slot k p hp
    · rw [List.getElem?_append_right hk] at hp
      obtain ⟨hz, rfl⟩ := List.getElem?_eq_some_iff.mp hp
      rw [List.length_singleton] at hz
      obtain rfl : k = a.len := by
        rw [← h.len]
        omega
      rw [Function.update_self, List.getElem_singleton]
  room := by
    show a.baseIndex + (a.len + 1) ≤ u64Max
    omega

theorem append {w : SlidingWindow Nat cap} (h : Mirrors cap a w.pairs) {i : Nat}
    (hi : i < u64Max) (t : Nat) : Mirrors cap (a.append i t) (w.append i t).pairs := by
  have hpos := cap.pos
  obtain ⟨hbase, hend⟩ := h.rebase hi.le
  have hlen : (a.rebase i).len ≤ cap := by
    rw [← hbase.len]
    split
    · exact w.bounded
    · exact Nat.zero_le _
  obtain ⟨hroom, hfits, hend'⟩ := hbase.evict hlen
  have hpush := hroom.push (t := t) hfits (hend'.trans hend) hi
  have hnext := SlidingWindow.next_eq h.consecutive
  unfold LogMetadataArena.append
  rw [if_neg h.cap_pos.ne']
  rw [← hbase.len] at hpush
  by_cases hcont : i = a.baseIndex + a.len ∧ w.pairs ≠ []
  · rw [if_neg hcont.2, h.len, ← hcont.1] at hnext
    rw [if_pos hcont.1] at hpush
    rwa [SlidingWindow.pairs_append_next hnext, List.drop_append_of_le_length (by omega)]
  · -- The window is empty or ends elsewhere.
    have hnil : (if i = a.baseIndex + a.len then w.pairs else []) = [] := by
      split
      · rename_i heq
        exact not_not.mp fun hne => hcont ⟨heq, hne⟩
      · rfl
    have hother : w.next ≠ some i := by
      rw [hnext]
      split
      · exact nofun
      · rename_i hne
        intro heq
        rw [h.len] at heq
        exact hcont ⟨(Option.some.inj heq).symm, hne⟩
    rw [hnil, List.drop_nil] at hpush
    rwa [SlidingWindow.pairs_append_other hother]

theorem truncateSuffix {w : SlidingWindow Nat cap} (h : Mirrors cap a w.pairs) {f : Nat}
    (hf : f ≤ u64Max) : Mirrors cap (a.truncateSuffix f) (w.truncateSuffix f).pairs := by
  have hcut : (w.truncateSuffix f).pairs = w.pairs.take (f - a.baseIndex) := by
    have hlt := h.consecutive.filter_lt (f + 1)
    simp only [Nat.add_lt_add_iff_right, Nat.add_sub_add_right] at hlt
    exact hlt
  rw [hcut]
  unfold LogMetadataArena.truncateSuffix
  split
  · rename_i hlen
    rw [List.length_eq_zero_iff.mp (h.len.trans hlen), List.take_nil]
    exact .nil h.cap hlen (by have := h.room; omega)
  · split
    · rename_i hbelow
      rw [Nat.sub_eq_zero_of_le hbelow, List.take_zero]
      exact .nil h.cap rfl hf
    · rw [satAdd_of_le h.room]
      split
      · refine ⟨h.cap, ?_, h.consecutive.take _, ?_, ?_⟩
        · rw [List.length_take, h.len]
          show min (f - a.baseIndex) a.len = f - a.baseIndex
          omega
        · intro k p hp
          rw [List.getElem?_take] at hp
          split at hp
          · exact h.slot k p hp
          · cases hp
        · show a.baseIndex + (f - a.baseIndex) ≤ u64Max
          omega
      · rwa [List.take_of_length_le (by rw [h.len]; omega)]

end Mirrors

end LogMetadataArena

/-! ## Runs -/

inductive ArenaOp where
  | append (index term : Nat)
  | truncateSuffix (index : Nat)
  | clear (newBase : Nat)
deriving DecidableEq, Repr

namespace ArenaOp

/-- The index that is handed to the operation. -/
def index : ArenaOp → Nat
  | append i _ => i
  | truncateSuffix f => f
  | clear b => b

def perform (a : LogMetadataArena) : ArenaOp → LogMetadataArena
  | append i t => a.append i t
  | truncateSuffix f => a.truncateSuffix f
  | clear b => a.clear b

variable {cap : ℕ+}

/-- The operation on the window of the newest terms. -/
def slide (w : SlidingWindow Nat cap) : ArenaOp → SlidingWindow Nat cap
  | append i t => w.append i t
  | truncateSuffix f => w.truncateSuffix f
  | clear _ => .empty

/-- The operation neither replaces nor drops the term of `i`. -/
def Passes (i : Nat) : ArenaOp → Prop
  | append j _ => j ≠ i
  | truncateSuffix f => i < f
  | clear _ => False

theorem perform_mirrors {a : LogMetadataArena} {w : SlidingWindow Nat cap} {op : ArenaOp}
    (h : LogMetadataArena.Mirrors cap a w.pairs) (hop : op.index < u64Max) :
    LogMetadataArena.Mirrors cap (op.perform a) (op.slide w).pairs := by
  cases op with
  | append i t => exact h.append hop t
  | truncateSuffix f => exact h.truncateSuffix hop.le
  | clear b => exact .nil h.cap rfl hop.le

theorem run_mirrors {ops : List ArenaOp} (hops : ∀ op ∈ ops, op.index < u64Max)
    {a : LogMetadataArena} {w : SlidingWindow Nat cap}
    (h : LogMetadataArena.Mirrors cap a w.pairs) :
    LogMetadataArena.Mirrors cap (ops.foldl perform a) (ops.foldl slide w).pairs := by
  induction ops generalizing a w with
  | nil => exact h
  | cons op ops ih =>
    rw [List.forall_mem_cons] at hops
    exact ih hops.2 (perform_mirrors h hops.1)

/-- A term of the window is the one that was appended last at its index, and nothing behind
that append replaced or dropped it. -/
theorem mem_slide {ops : List ArenaOp} {i t : Nat}
    (h : (i, t) ∈ (ops.foldl slide (.empty : SlidingWindow Nat cap)).pairs) :
    ∃ front back, ops = front ++ append i t :: back ∧ ∀ op ∈ back, op.Passes i := by
  induction ops using List.reverseRecOn with
  | nil => cases h
  | append_singleton ops op ih =>
    rw [List.foldl_concat] at h
    have hkept : (i, t) ∈ (ops.foldl slide (.empty : SlidingWindow Nat cap)).pairs →
        op.Passes i →
        ∃ front back, ops ++ [op] = front ++ append i t :: back ∧ ∀ op ∈ back, op.Passes i := by
      intro hold hop
      obtain ⟨front, back, rfl, hback⟩ := ih hold
      refine ⟨front, back ++ [op], by simp, ?_⟩
      simpa using fun x hx => hx.elim (hback x) (fun heq => heq ▸ hop)
    cases op with
    | append j u =>
      rcases SlidingWindow.mem_append h with ⟨rfl, rfl⟩ | ⟨hne, hold⟩
      · exact ⟨ops, [], rfl, fun _ hop => nomatch hop⟩
      · exact hkept hold hne.symm
    | truncateSuffix f =>
      obtain ⟨hold, hlt⟩ := SlidingWindow.mem_truncateSuffix.mp h
      exact hkept hold hlt
    | clear b => cases h

end ArenaOp

/-- The arena answers as the sliding window does: with the term that was appended last at an
index and neither replaced nor dropped since, and with nothing behind a truncation until the
index is appended again. -/
theorem arena_refines_window (cap : ℕ+) (ops : List ArenaOp)
    (hops : ∀ op ∈ ops, op.index < 2 ^ 64 - 1 - cap) :
    let arena := ops.foldl ArenaOp.perform (.new cap)
    let window := ops.foldl ArenaOp.slide (.empty : SlidingWindow Nat cap)
    (∀ i, arena.getTerm i = window.lookup i) ∧
      (∀ i t, arena.getTerm i = some t →
        ∃ front back, ops = front ++ .append i t :: back ∧ ∀ op ∈ back, op.Passes i) ∧
      ∀ front f back, ops = front ++ .truncateSuffix f :: back →
        ∀ i, f ≤ i → (∀ op ∈ back, ∀ t, op ≠ .append i t) → arena.getTerm i = none := by
  intro arena window
  have hmirrors : LogMetadataArena.Mirrors cap arena window.pairs := by
    refine ArenaOp.run_mirrors (fun op hop => ?_) (.nil rfl rfl (Nat.zero_le _))
    have := hops op hop
    unfold u64Max
    omega
  have hlast : ∀ i t, arena.getTerm i = some t →
      ∃ front back, ops = front ++ .append i t :: back ∧ ∀ op ∈ back, op.Passes i :=
    fun i t h => ArenaOp.mem_slide (hmirrors.getTerm_eq_some.mp h)
  refine ⟨fun i => Option.ext fun t => ?_, hlast, ?_⟩
  · rw [hmirrors.getTerm_eq_some, SlidingWindow.lookup_eq_some]
  · intro front f back hsplit i hf hback
    rw [Option.eq_none_iff_forall_ne_some]
    intro t ht
    obtain ⟨front', back', hsplit', hpasses⟩ := hlast i t ht
    -- The last append at `i` is in front of the truncation, which then dropped its pair.
    rcases List.append_eq_append_iff.mp (hsplit.symm.trans hsplit') with
      ⟨mid, -, hmid⟩ | ⟨mid, -, hmid⟩
    · cases mid with
      | nil => cases hmid
      | cons op mid =>
          rw [List.cons_append, List.cons.injEq] at hmid
          exact hback _ (hmid.2 ▸ List.mem_append_right _ List.mem_cons_self) t rfl
    · cases mid with
      | nil => cases hmid
      | cons op mid =>
          rw [List.cons_append, List.cons.injEq] at hmid
          have hcut : i < f := hpasses (.truncateSuffix f)
            (hmid.2 ▸ List.mem_append_right _ List.mem_cons_self)
          omega

/-- A window of two terms that slides on and is cut: the evicted term and the one that was
cut are gone. -/
theorem arena_refines_window_evict_then_cut :
    let arena := [ArenaOp.append 5 3, .append 6 3, .append 7 4, .truncateSuffix 7].foldl
      ArenaOp.perform (.new 2)
    (arena.getTerm 5 = none ∧ arena.getTerm 6 = some 3) ∧ arena.getTerm 7 = none := by
  obtain ⟨hlookup, -, hcut⟩ := arena_refines_window 2
    [.append 5 3, .append 6 3, .append 7 4, .truncateSuffix 7] (by decide)
  exact ⟨⟨(hlookup 5).trans (by decide), (hlookup 6).trans (by decide)⟩,
    hcut [.append 5 3, .append 6 3, .append 7 4] 7 [] rfl 7 (Nat.le_refl 7) nofun⟩

end ArbitroRaft
