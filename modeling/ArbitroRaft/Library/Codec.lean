import Mathlib.Data.List.Basic
import Mathlib.Tactic

/-!
# Byte layouts, buffers and iterators

What a hand-written binary codec is made of: values of a fixed size laid out in
bytes, a buffer filled from the front, output gathered from slices of a buffer
and of foreign memory, and iterators that read items back one at a time.
-/

namespace ArbitroRaft.Library

/-! ## Little-endian numbers -/

/-- Little-endian value of a byte string. -/
def leValue : List UInt8 → Nat
  | [] => 0
  | b :: bs => b.toNat + 256 * leValue bs

/-- The `count` low bytes of a number. -/
def leBytes : Nat → Nat → List UInt8
  | 0, _ => []
  | count + 1, n => UInt8.ofNat n :: leBytes count (n / 256)

@[simp] theorem length_leBytes (count n : Nat) : (leBytes count n).length = count := by
  induction count generalizing n with
  | zero => rfl
  | succ count ih => simp [leBytes, ih]

/-- Writing a number cuts it to the bytes there are. -/
theorem leValue_leBytes_mod (count n : Nat) : leValue (leBytes count n) = n % 256 ^ count := by
  induction count generalizing n with
  | zero => rw [leBytes, leValue, Nat.pow_zero, Nat.mod_one]
  | succ count ih =>
    have hlow : (UInt8.ofNat n).toNat = n % 256 := by simp
    rw [leBytes, leValue, ih, hlow, Nat.pow_succ', Nat.mod_mul]

theorem leValue_leBytes {count n : Nat} (h : n < 256 ^ count) : leValue (leBytes count n) = n := by
  rw [leValue_leBytes_mod, Nat.mod_eq_of_lt h]

theorem leBytes_leValue (bytes : List UInt8) : leBytes bytes.length (leValue bytes) = bytes := by
  induction bytes with
  | nil => rfl
  | cons b bs ih =>
    have hlt : b.toNat < 256 := b.toNat_lt
    have hquot : (b.toNat + 256 * leValue bs) / 256 = leValue bs := by omega
    have hlow : UInt8.ofNat (b.toNat + 256 * leValue bs) = b := by
      rw [← UInt8.toNat_inj, UInt8.toNat_ofNat']
      omega
    rw [List.length_cons, leValue, leBytes, hquot, hlow, ih]

theorem leValue_lt (bytes : List UInt8) : leValue bytes < 256 ^ bytes.length := by
  induction bytes with
  | nil => decide
  | cons b bs ih =>
    have hlt : b.toNat < 256 := b.toNat_lt
    rw [List.length_cons, leValue, Nat.pow_succ]
    omega

/-! ## Layouts -/

/-- A type whose values occupy `size` bytes.  Any bytes of that size are read
as some value. -/
structure Layout (α : Type*) where
  size : Nat
  toBytes : α → List UInt8
  ofBytes : List UInt8 → α
  length_toBytes : ∀ a, (toBytes a).length = size
  ofBytes_toBytes : ∀ a, ofBytes (toBytes a) = a

namespace Layout

variable {α β : Type*}

attribute [simp] length_toBytes ofBytes_toBytes

def u8 : Layout UInt8 where
  size := 1
  toBytes a := [a]
  ofBytes bytes := bytes.headD 0
  length_toBytes _ := rfl
  ofBytes_toBytes _ := rfl

def u16 : Layout UInt16 where
  size := 2
  toBytes a := leBytes 2 a.toNat
  ofBytes bytes := UInt16.ofNat (leValue bytes)
  length_toBytes _ := length_leBytes _ _
  ofBytes_toBytes a := by rw [leValue_leBytes a.toNat_lt, UInt16.ofNat_toNat]

def u32 : Layout UInt32 where
  size := 4
  toBytes a := leBytes 4 a.toNat
  ofBytes bytes := UInt32.ofNat (leValue bytes)
  length_toBytes _ := length_leBytes _ _
  ofBytes_toBytes a := by rw [leValue_leBytes a.toNat_lt, UInt32.ofNat_toNat]

def u64 : Layout UInt64 where
  size := 8
  toBytes a := leBytes 8 a.toNat
  ofBytes bytes := UInt64.ofNat (leValue bytes)
  length_toBytes _ := length_leBytes _ _
  ofBytes_toBytes a := by rw [leValue_leBytes a.toNat_lt, UInt64.ofNat_toNat]

/-- An array of `n` bytes. -/
def array (n : Nat) : Layout (Vector UInt8 n) where
  size := n
  toBytes a := a.toList
  ofBytes bytes := Vector.ofFn fun i => bytes.getD i 0
  length_toBytes a := a.length_toList
  ofBytes_toBytes a := by
    ext i hi
    simp

/-- One value after another. -/
def pair (L : Layout α) (M : Layout β) : Layout (α × β) where
  size := L.size + M.size
  toBytes a := L.toBytes a.1 ++ M.toBytes a.2
  ofBytes bytes := (L.ofBytes (bytes.take L.size), M.ofBytes (bytes.drop L.size))
  length_toBytes a := by rw [List.length_append, L.length_toBytes, M.length_toBytes]
  ofBytes_toBytes a := by
    rw [List.take_left' (L.length_toBytes a.1), List.drop_left' (L.length_toBytes a.1),
      L.ofBytes_toBytes, M.ofBytes_toBytes]

/-- A record laid out as the tuple of its fields. -/
def record (L : Layout α) (build : α → β) (fields : β → α)
    (h : ∀ b, build (fields b) = b) : Layout β where
  size := L.size
  toBytes b := L.toBytes (fields b)
  ofBytes bytes := build (L.ofBytes bytes)
  length_toBytes b := L.length_toBytes (fields b)
  ofBytes_toBytes b := by rw [L.ofBytes_toBytes, h]

/-- Read a value off the front. -/
def read (L : Layout α) (bytes : List UInt8) : Option (α × List UInt8) :=
  if bytes.length < L.size then none
  else some (L.ofBytes (bytes.take L.size), bytes.drop L.size)

@[simp] theorem read_toBytes_append (L : Layout α) (a : α) (rest : List UInt8) :
    L.read (L.toBytes a ++ rest) = some (a, rest) := by
  have hlen : ¬ (L.toBytes a ++ rest).length < L.size := by
    rw [List.length_append, L.length_toBytes]
    omega
  rw [read, if_neg hlen, List.take_left' (L.length_toBytes a),
    List.drop_left' (L.length_toBytes a), L.ofBytes_toBytes]

/-! A layout without padding: what it reads it writes back. -/

/-- Every byte string of the right size is the bytes of the value it is read as. -/
def Exact (L : Layout α) : Prop := ∀ bytes, bytes.length = L.size → L.toBytes (L.ofBytes bytes) = bytes

theorem exact_u8 : u8.Exact := by
  intro bytes h
  obtain ⟨b, rfl⟩ := List.length_eq_one_iff.mp h
  rfl

theorem exact_u16 : u16.Exact := by
  intro bytes h
  have hlt := leValue_lt bytes
  have hlen : bytes.length = 2 := h
  rw [hlen] at hlt
  have hvalue : (UInt16.ofNat (leValue bytes)).toNat = leValue bytes :=
    UInt16.toNat_ofNat_of_lt hlt
  change leBytes 2 (UInt16.ofNat (leValue bytes)).toNat = bytes
  rw [hvalue, ← hlen, leBytes_leValue]

theorem exact_u32 : u32.Exact := by
  intro bytes h
  have hlt := leValue_lt bytes
  have hlen : bytes.length = 4 := h
  rw [hlen] at hlt
  have hvalue : (UInt32.ofNat (leValue bytes)).toNat = leValue bytes :=
    UInt32.toNat_ofNat_of_lt hlt
  change leBytes 4 (UInt32.ofNat (leValue bytes)).toNat = bytes
  rw [hvalue, ← hlen, leBytes_leValue]

theorem exact_u64 : u64.Exact := by
  intro bytes h
  have hlt := leValue_lt bytes
  have hlen : bytes.length = 8 := h
  rw [hlen] at hlt
  have hvalue : (UInt64.ofNat (leValue bytes)).toNat = leValue bytes :=
    UInt64.toNat_ofNat_of_lt hlt
  change leBytes 8 (UInt64.ofNat (leValue bytes)).toNat = bytes
  rw [hvalue, ← hlen, leBytes_leValue]

theorem exact_array (n : Nat) : (array n).Exact := by
  intro bytes h
  refine List.ext_getElem ?_ ?_
  · rw [(array n).length_toBytes, h]
  · intro i _ hi
    simp [array, hi]

theorem Exact.pair {L : Layout α} {M : Layout β} (hL : L.Exact) (hM : M.Exact) :
    (L.pair M).Exact := by
  intro bytes h
  have hsize : bytes.length = L.size + M.size := h
  have hfront : (bytes.take L.size).length = L.size := List.length_take_of_le (by omega)
  have hback : (bytes.drop L.size).length = M.size := by
    rw [List.length_drop]
    omega
  change L.toBytes (L.ofBytes (bytes.take L.size)) ++ M.toBytes (M.ofBytes (bytes.drop L.size)) =
    bytes
  rw [hL _ hfront, hM _ hback, List.take_append_drop]

theorem Exact.record {L : Layout α} (hL : L.Exact) {build : α → β} {fields : β → α}
    {h : ∀ b, build (fields b) = b} (hfields : ∀ a, fields (build a) = a) :
    (L.record build fields h).Exact := by
  intro bytes hlen
  change L.toBytes (fields (build (L.ofBytes bytes))) = bytes
  rw [hfields]
  exact hL bytes hlen

theorem Exact.of_read {L : Layout α} (hL : L.Exact) {bytes rest : List UInt8} {a : α}
    (h : L.read bytes = some (a, rest)) : bytes = L.toBytes a ++ rest := by
  unfold read at h
  split at h
  · cases h
  · rename_i hlen
    cases h
    rw [hL _ (List.length_take_of_le (by omega)), List.take_append_drop]

end Layout

/-! ## Filling a buffer -/

/-- A buffer whose bytes before `offset` have been written. -/
structure Cursor where
  buf : List UInt8
  offset : Nat

namespace Cursor

/-- Copy bytes to the cursor; `none` when they do not fit. -/
def put (c : Cursor) (bytes : List UInt8) : Option Cursor :=
  if c.offset + bytes.length ≤ c.buf.length then
    some
      { buf := c.buf.take c.offset ++ bytes ++ c.buf.drop (c.offset + bytes.length)
        offset := c.offset + bytes.length }
  else none

def written (c : Cursor) : List UInt8 := c.buf.take c.offset

/-- A step of a writer: the buffer keeps its size and what was written, and
`bytes` come next. -/
structure Wrote (c : Cursor) (bytes : List UInt8) (c' : Cursor) : Prop where
  length_eq : c'.buf.length = c.buf.length
  offset_eq : c'.offset = c.offset + bytes.length
  fits : c'.offset ≤ c'.buf.length
  written_eq : c'.written = c.written ++ bytes

theorem put_wrote {c : Cursor} {bytes : List UInt8} (h : c.offset + bytes.length ≤ c.buf.length) :
    ∃ c', c.put bytes = some c' ∧ c.Wrote bytes c' := by
  have hfront : (c.buf.take c.offset).length = c.offset := by
    rw [List.length_take]
    omega
  refine ⟨_, if_pos h, ?_, rfl, ?_, ?_⟩
  · simp only [List.length_append, List.length_drop, hfront]
    omega
  · simp only [List.length_append, List.length_drop, hfront]
    omega
  · have hlen : (c.buf.take c.offset ++ bytes).length = c.offset + bytes.length := by
      rw [List.length_append, hfront]
    exact List.take_left' hlen

theorem Wrote.refl {c : Cursor} (h : c.offset ≤ c.buf.length) : c.Wrote [] c :=
  ⟨rfl, rfl, h, (List.append_nil _).symm⟩

theorem Wrote.trans {c c' c'' : Cursor} {bytes bytes' : List UInt8}
    (h : c.Wrote bytes c') (h' : c'.Wrote bytes' c'') : c.Wrote (bytes ++ bytes') c'' where
  length_eq := h'.length_eq.trans h.length_eq
  offset_eq := by rw [h'.offset_eq, h.offset_eq, List.length_append, Nat.add_assoc]
  fits := h'.fits
  written_eq := by rw [h'.written_eq, h.written_eq, List.append_assoc]

/-- A buffer filled to its end holds what was written. -/
theorem written_of_full {c : Cursor} (h : c.buf.length ≤ c.offset) : c.written = c.buf :=
  List.take_of_length_le h

end Cursor

/-! ## Gathered output -/

/-- A slice of an output: part of the header buffer, or foreign memory. -/
inductive Slice where
  | header (start len : Nat)
  | payload (bytes : List UInt8)
deriving DecidableEq, Repr

namespace Slice

def bytes (buf : List UInt8) : Slice → List UInt8
  | .header start len => (buf.drop start).take len
  | .payload bytes => bytes

/-- The bytes of the slices, one after another. -/
def gather (buf : List UInt8) (slices : List Slice) : List UInt8 :=
  slices.flatMap (bytes buf)

/-- The slice does not reach past the first `k` bytes of the buffer. -/
def Below (k : Nat) : Slice → Prop
  | .header start len => start + len ≤ k
  | .payload _ => True

theorem bytes_eq_of_take_eq {buf buf' : List UInt8} {k : Nat} {s : Slice} (hs : s.Below k)
    (h : buf'.take k = buf.take k) : s.bytes buf' = s.bytes buf := by
  cases s with
  | payload bytes => rfl
  | header start len =>
    have hbound : start + len ≤ k := hs
    have hcut : ∀ l : List UInt8, (l.drop start).take len = ((l.take k).drop start).take len := by
      intro l
      rw [List.drop_take, List.take_take, Nat.min_eq_left (by omega)]
    show (buf'.drop start).take len = (buf.drop start).take len
    rw [hcut buf', hcut buf, h]

end Slice

/-- Slices taken so far and the bytes they stand for, none past the cursor. -/
structure Cursor.Gathers (c : Cursor) (slices : List Slice) (bytes : List UInt8) : Prop where
  below : ∀ s ∈ slices, s.Below c.offset
  gather_eq : Slice.gather c.buf slices = bytes

namespace Cursor.Gathers

variable {c c' : Cursor} {slices : List Slice} {bytes chunk : List UInt8}

/-- Foreign memory needs no room. -/
theorem payload (h : c.Gathers slices bytes) (chunk : List UInt8) :
    c.Gathers (slices ++ [.payload chunk]) (bytes ++ chunk) := by
  constructor
  · intro s hs
    obtain hs | hs := List.mem_append.mp hs
    · exact h.below s hs
    · obtain rfl := List.mem_singleton.mp hs
      trivial
  · rw [Slice.gather, List.flatMap_append, ← h.gather_eq]
    simp [Slice.gather, Slice.bytes]

/-- Writing a chunk leaves the earlier slices as they were, and its own slice
reads it back. -/
theorem header (h : c.Gathers slices bytes) (hfits : c.offset ≤ c.buf.length)
    (hw : c.Wrote chunk c') :
    c'.Gathers (slices ++ [.header c.offset chunk.length]) (bytes ++ chunk) := by
  have hfront : (c.buf.take c.offset).length = c.offset := by
    rw [List.length_take]
    omega
  have hwritten : c'.buf.take c'.offset = c.buf.take c.offset ++ chunk := hw.written_eq
  have hle : c.offset ≤ c'.offset := by
    rw [hw.offset_eq]
    omega
  have hkeep : c'.buf.take c.offset = c.buf.take c.offset := by
    have hcut : (c'.buf.take c'.offset).take c.offset = c'.buf.take c.offset := by
      rw [List.take_take, Nat.min_eq_left hle]
    rw [← hcut, hwritten, List.take_left' hfront]
  have hown : (c'.buf.drop c.offset).take chunk.length = chunk := by
    have hdrop : (c'.buf.take c'.offset).drop c.offset = chunk := by
      rw [hwritten, List.drop_left' hfront]
    rwa [List.drop_take, hw.offset_eq, Nat.add_sub_cancel_left] at hdrop
  constructor
  · intro s hs
    obtain hs | hs := List.mem_append.mp hs
    · have hs' := h.below s hs
      cases s with
      | payload bytes => trivial
      | header start len => exact Nat.le_trans hs' hle
    · obtain rfl := List.mem_singleton.mp hs
      show c.offset + chunk.length ≤ c'.offset
      rw [hw.offset_eq]
  · have hold : Slice.gather c'.buf slices = bytes := by
      rw [← h.gather_eq]
      exact List.flatMap_congr fun s hs => Slice.bytes_eq_of_take_eq (h.below s hs) hkeep
    rw [Slice.gather, List.flatMap_append]
    simp only [List.flatMap_singleton]
    exact congrArg₂ (· ++ ·) hold hown

end Cursor.Gathers

/-! ## Iterators -/

/-- The items an iterator hands out before it ends. -/
inductive Yields {σ α : Type*} (next : σ → Option (α × σ)) : σ → List α → Prop where
  | done {s : σ} : next s = none → Yields next s []
  | item {s s' : σ} {a : α} {as : List α} :
      next s = some (a, s') → Yields next s' as → Yields next s (a :: as)

/-- An iterator hands out one sequence. -/
theorem Yields.unique {σ α : Type*} {next : σ → Option (α × σ)} {s : σ} {as bs : List α}
    (h : Yields next s as) (h' : Yields next s bs) : as = bs := by
  induction h generalizing bs with
  | done hnone =>
    cases h' with
    | done => rfl
    | item hsome => rw [hnone] at hsome; cases hsome
  | item hsome _ ih =>
    cases h' with
    | done hnone => rw [hsome] at hnone; cases hnone
    | item hsome' htail =>
      rw [hsome] at hsome'
      cases hsome'
      rw [ih htail]

/-- A loop over an iterator that takes at most `fuel` items. -/
def drain {σ α : Type*} (next : σ → Option (α × σ)) : Nat → σ → List α
  | 0, _ => []
  | fuel + 1, s =>
    match next s with
    | some (a, s') => a :: drain next fuel s'
    | none => []

theorem Yields.drain_eq {σ α : Type*} {next : σ → Option (α × σ)} {s : σ} {as : List α}
    (h : Yields next s as) {fuel : Nat} (hfuel : as.length ≤ fuel) : drain next fuel s = as := by
  induction h generalizing fuel with
  | done hnone =>
    cases fuel with
    | zero => rfl
    | succ fuel => rw [drain, hnone]
  | item hsome _ ih =>
    cases fuel with
    | zero => cases hfuel
    | succ fuel =>
      rw [drain, hsome]
      exact congrArg _ (ih (Nat.le_of_succ_le_succ hfuel))

end ArbitroRaft.Library
