import ArbitroRaft.Dispatch.Transaction
import Mathlib.Tactic

/-!
# Dispatch specs and their transaction ids

`dispatch/spec.rs`.  A spec numbers its transactions from a cell of its own that its
clones share.  The cell starts at a multiple of `TX_ID_SEED_MIX`, one for every spec
that the process constructs, and an id is the command over the low 56 bits of the
cell.  The multiples are far enough apart for the low bits alone to tell the ids of
two specs from each other.

The cells are atomics and every access is one `fetch_add`, so what the threads of a
process do with them is a sequence of accesses.

## Main results

* `issued_nodup`: no id twice, below `2 ^ 16` specs and up to `2 ^ 30` ids of each.
-/

namespace ArbitroRaft

/-! ## The cells of a process -/

def txIdSeedMix : UInt64 := 0x9E3779B97F4A7C15

def txIdSeqMask : UInt64 := ((1 : UInt64) <<< 56) - 1

/-- `TX_ID_SEED_EPOCH`, and the `tx_ids` cells in the order of their allocation. -/
structure TxIdCells where
  epoch : UInt64
  cells : List UInt64
deriving DecidableEq, Repr

/-- What a process starts with. -/
def TxIdCells.initial : TxIdCells := { epoch := 0, cells := [] }

/-- `fetch_add(1)` on a cell. -/
def TxIdCells.fetchAdd (c : TxIdCells) (cell : Nat) : UInt64 × TxIdCells :=
  (c.cells.getD cell 0, { c with cells := c.cells.modify cell (· + 1) })

/-! ## Specs -/

/-- `tx_ids` is the index of the cell. -/
structure DispatchSpec (P R : Type) where
  command : UInt8
  defaults : DispatchOptions
  txIds : Nat
  encodeParams : P → Except RaftError (List UInt8)
  decodeParams : List UInt8 → Except RaftError P
  encodeResponse : R → Except RaftError (List UInt8)
  decodeResponse : List UInt8 → Except RaftError R

namespace DispatchSpec

variable {P R : Type}

def new (command : UInt8) (encodeParams : P → Except RaftError (List UInt8))
    (decodeParams : List UInt8 → Except RaftError P)
    (encodeResponse : R → Except RaftError (List UInt8))
    (decodeResponse : List UInt8 → Except RaftError R) (c : TxIdCells) :
    DispatchSpec P R × TxIdCells :=
  let seed := txIdSeedMix * c.epoch
  ({ command := command
     defaults := .default
     txIds := c.cells.length
     encodeParams := encodeParams
     decodeParams := decodeParams
     encodeResponse := encodeResponse
     decodeResponse := decodeResponse },
    { epoch := c.epoch + 1, cells := c.cells ++ [seed] })

def nextTxId (spec : DispatchSpec P R) (c : TxIdCells) : UInt64 × TxIdCells :=
  let (seq, c) := c.fetchAdd spec.txIds
  (spec.command.toUInt64 <<< 56 ||| seq &&& txIdSeqMask, c)

end DispatchSpec

/-! ## A process -/

/-- A spec of whatever types. -/
structure AnySpec where
  P : Type
  R : Type
  spec : DispatchSpec P R

/-- What a process does with its specs, addressed by the handles it holds.  The `with_*`
calls hand the spec back with other defaults. -/
inductive SpecOp where
  | new (P R : Type) (command : UInt8) (encodeParams : P → Except RaftError (List UInt8))
      (decodeParams : List UInt8 → Except RaftError P)
      (encodeResponse : R → Except RaftError (List UInt8))
      (decodeResponse : List UInt8 → Except RaftError R)
  | withDefaults (handle : Nat) (defaults : DispatchOptions)
  | clone (handle : Nat)
  | drop (handle : Nat)
  | nextTxId (handle : Nat)

/-- The handles that are alive, and the ids issued so far, each with the cell it is
from. -/
structure SpecProcess where
  cells : TxIdCells
  handles : List AnySpec
  issued : List (Nat × UInt64)

namespace SpecProcess

def initial : SpecProcess := { cells := .initial, handles := [], issued := [] }

def step (p : SpecProcess) : SpecOp → SpecProcess
  | .new P R command encodeParams decodeParams encodeResponse decodeResponse =>
    let (spec, cells) :=
      DispatchSpec.new command encodeParams decodeParams encodeResponse decodeResponse p.cells
    { p with cells := cells, handles := p.handles ++ [⟨P, R, spec⟩] }
  | .withDefaults handle defaults =>
    { p with
      handles := p.handles.modify handle fun h =>
        { h with spec := { h.spec with defaults := defaults } } }
  | .clone handle =>
    match p.handles[handle]? with
    | some h => { p with handles := p.handles ++ [h] }
    | none => p
  | .drop handle => { p with handles := p.handles.eraseIdx handle }
  | .nextTxId handle =>
    match p.handles[handle]? with
    | some h =>
      let (id, cells) := h.spec.nextTxId p.cells
      { p with cells := cells, issued := p.issued ++ [(h.spec.txIds, id)] }
    | none => p

def run (ops : List SpecOp) : SpecProcess := ops.foldl step initial

/-- The specs that were constructed. -/
def constructed (p : SpecProcess) : Nat := p.cells.cells.length

/-- The ids that came from a cell. -/
def issuedBy (p : SpecProcess) (cell : Nat) : Nat := p.issued.countP fun i => i.1 = cell

end SpecProcess

/-! ## The spacing of the seeds -/

/-- The multiples of `m` around a circle of `w`.  Two of them that go past a whole number of
turns by `g` and fall short of one by `g`, and that span all of them, keep every multiple
below their sum at least `g` away from every turn. -/
theorem multiples_spaced {m w p₁ q₁ p₂ q₂ g : ℤ} (hspan : p₂ * q₁ - p₁ * q₂ = 1) (hq₁ : 0 < q₁)
    (hq₂ : 0 < q₂) (hg : 0 < g) (hover : g ≤ m * q₁ - w * p₁) (hunder : g ≤ w * p₂ - m * q₂) {d : ℤ}
    (hpos : 0 < d) (hlt : d < q₁ + q₂) (t : ℤ) : g ≤ m * d - w * t ∨ m * d - w * t ≤ -g := by
  -- `d` turned `t` times is `a` times the first and `b` times the second
  obtain ⟨a, ha⟩ : ∃ a, a = p₂ * d - q₂ * t := ⟨_, rfl⟩
  obtain ⟨b, hb⟩ : ∃ b, b = q₁ * t - p₁ * d := ⟨_, rfl⟩
  have hd : d = a * q₁ + b * q₂ := by
    rw [ha, hb]
    linear_combination -d * hspan
  have hx : m * d - w * t = a * (m * q₁ - w * p₁) - b * (w * p₂ - m * q₂) := by
    rw [ha, hb]
    linear_combination -(m * d - w * t) * hspan
  rw [hx]
  by_cases hapos : 1 ≤ a
  · by_cases hbpos : 1 ≤ b
    · nlinarith
    · left
      nlinarith
  · by_cases hbpos : 1 ≤ b
    · right
      nlinarith
    · nlinarith

/-- The distances between the seeds of fewer than `2 ^ 16` specs are at least `2 ^ 30`
around the circle of 56 bits. -/
theorem seeds_spaced {d : Nat} (hpos : 0 < d) (hlt : d < 2 ^ 16) :
    2 ^ 30 ≤ txIdSeedMix.toNat * d % 2 ^ 56 ∧
      txIdSeedMix.toNat * d % 2 ^ 56 ≤ 2 ^ 56 - 2 ^ 30 := by
  have hmix : txIdSeedMix.toNat = 0x9E3779B97F4A7C15 := rfl
  -- the 25639th seed is past its last turn and the 64822nd short of its next
  have hspaced : ∀ t : ℤ, 2 ^ 30 ≤ (0x9E3779B97F4A7C15 : ℤ) * d - 2 ^ 56 * t ∨
      (0x9E3779B97F4A7C15 : ℤ) * d - 2 ^ 56 * t ≤ -2 ^ 30 :=
    @multiples_spaced 0x9E3779B97F4A7C15 (2 ^ 56) 4056518 25639 10255923 64822 (2 ^ 30)
      (by norm_num) (by norm_num) (by norm_num) (by norm_num) (by norm_num) (by norm_num)
      d (by omega) (by omega)
  have hlast := hspaced (txIdSeedMix.toNat * d / 2 ^ 56 : ℕ)
  have hnext := hspaced (txIdSeedMix.toNat * d / 2 ^ 56 + 1 : ℕ)
  rw [hmix] at hlast hnext ⊢
  omega

/-- The low bits of an id name the spec and the number of the id. -/
theorem seq_injective {k l i j : Nat} (hk : k < 2 ^ 16) (hl : l < 2 ^ 16) (hi : i < 2 ^ 30)
    (hj : j < 2 ^ 30)
    (h : (txIdSeedMix.toNat * k + i) % 2 ^ 56 = (txIdSeedMix.toNat * l + j) % 2 ^ 56) :
    k = l ∧ i = j := by
  wlog hle : k ≤ l generalizing k l i j
  · obtain ⟨hlk, hji⟩ := this hl hk hj hi h.symm (by omega)
    exact ⟨hlk.symm, hji.symm⟩
  obtain ⟨d, rfl⟩ := Nat.exists_eq_add_of_le hle
  rw [Nat.mul_add, Nat.add_assoc] at h
  have hcancel : i % 2 ^ 56 = (txIdSeedMix.toNat * d + j) % 2 ^ 56 :=
    Nat.ModEq.add_left_cancel' _ h
  rcases Nat.eq_zero_or_pos d with rfl | hpos
  · omega
  · have hspaced := seeds_spaced hpos (by omega)
    omega

/-- The low bits of an id are those of the cell. -/
theorem nextTxId_low {P R : Type} (spec : DispatchSpec P R) (c : TxIdCells) :
    (spec.nextTxId c).1.toNat % 2 ^ 56 = (c.cells.getD spec.txIds 0).toNat % 2 ^ 56 := by
  have hmask : txIdSeqMask.toNat = 2 ^ 56 - 1 := rfl
  show (spec.command.toUInt64 <<< 56 ||| c.cells.getD spec.txIds 0 &&& txIdSeqMask).toNat %
    2 ^ 56 = _
  rw [UInt64.toNat_or, UInt64.toNat_and, hmask, Nat.and_two_pow_sub_one_eq_mod,
    Nat.or_mod_two_pow, Nat.mod_mod]
  have hhigh : (spec.command.toUInt64 <<< 56).toNat % 2 ^ 56 = 0 := by
    rw [UInt64.toNat_shiftLeft]
    simp [Nat.shiftLeft_eq]
  rw [hhigh, Nat.zero_or]

/-! ## Runs of a process -/

namespace SpecProcess

/-- The process behind an id. -/
def issue (p : SpecProcess) (handle : AnySpec) : SpecProcess :=
  { p with
    cells := (handle.spec.nextTxId p.cells).2
    issued := p.issued ++ [(handle.spec.txIds, (handle.spec.nextTxId p.cells).1)] }

/-- What an operation comes to: other handles for the same cells, another spec, or
another id. -/
inductive Stepped (p : SpecProcess) : SpecProcess → Prop
  | holds (handles : List AnySpec)
      (hcells : ∀ handle ∈ handles, ∃ old ∈ p.handles, handle.spec.txIds = old.spec.txIds) :
      Stepped p { p with handles := handles }
  | constructs (P R : Type) (command : UInt8)
      (encodeParams : P → Except RaftError (List UInt8))
      (decodeParams : List UInt8 → Except RaftError P)
      (encodeResponse : R → Except RaftError (List UInt8))
      (decodeResponse : List UInt8 → Except RaftError R) :
      Stepped p (p.step (.new P R command encodeParams decodeParams encodeResponse
        decodeResponse))
  | issues (handle : AnySpec) (hmem : handle ∈ p.handles) : Stepped p (p.issue handle)

theorem step_cases (p : SpecProcess) (op : SpecOp) : p.Stepped (p.step op) := by
  cases op with
  | new P R command encodeParams decodeParams encodeResponse decodeResponse =>
    exact .constructs P R command encodeParams decodeParams encodeResponse decodeResponse
  | withDefaults i defaults =>
    apply Stepped.holds
    intro handle hmem
    obtain ⟨j, hj⟩ := List.mem_iff_getElem?.mp hmem
    rw [List.getElem?_modify] at hj
    obtain ⟨old, hold, heq⟩ := Option.map_eq_some_iff.mp hj
    refine ⟨old, List.mem_of_getElem? hold, ?_⟩
    dsimp only at heq
    by_cases hij : i = j
    · rw [if_pos hij] at heq
      rw [← heq]
    · rw [if_neg hij] at heq
      rw [heq]
  | clone i =>
    show p.Stepped (match p.handles[i]? with
      | some h => { p with handles := p.handles ++ [h] }
      | none => p)
    cases hget : p.handles[i]? with
    | none => exact .holds p.handles fun handle hmem => ⟨handle, hmem, rfl⟩
    | some h =>
      apply Stepped.holds
      intro handle hmem
      rcases List.mem_append.mp hmem with hold | hnew
      · exact ⟨handle, hold, rfl⟩
      · rw [List.mem_singleton.mp hnew]
        exact ⟨h, List.mem_of_getElem? hget, rfl⟩
  | drop i =>
    exact .holds _ fun handle hmem => ⟨handle, List.mem_of_mem_eraseIdx hmem, rfl⟩
  | nextTxId i =>
    show p.Stepped (match p.handles[i]? with
      | some h => p.issue h
      | none => p)
    cases hget : p.handles[i]? with
    | none => exact .holds p.handles fun handle hmem => ⟨handle, hmem, rfl⟩
    | some h => exact .issues h (List.mem_of_getElem? hget)

/-- Every cell stands as far behind its seed as ids came from it, every handle has a
cell, and an id has the low bits of its cell at its time. -/
structure Numbered (p : SpecProcess) : Prop where
  epoch_eq : p.cells.epoch = UInt64.ofNat p.constructed
  cell_eq : ∀ k < p.constructed, p.cells.cells.getD k 0 =
    UInt64.ofNat (txIdSeedMix.toNat * k + p.issuedBy k)
  handles_lt : ∀ h ∈ p.handles, h.spec.txIds < p.constructed
  issued_lt : ∀ i ∈ p.issued, i.1 < p.constructed
  issued_eq : ∀ i ∈ p.issued, ∃ n < p.issuedBy i.1,
    i.2.toNat % 2 ^ 56 = (txIdSeedMix.toNat * i.1 + n) % 2 ^ 56

theorem numbered_initial : initial.Numbered where
  epoch_eq := rfl
  cell_eq := nofun
  handles_lt := nofun
  issued_lt := nofun
  issued_eq := nofun

variable {p : SpecProcess} {handle : AnySpec}

theorem Numbered.holds (h : p.Numbered) {handles : List AnySpec}
    (hcells : ∀ handle ∈ handles, ∃ old ∈ p.handles, handle.spec.txIds = old.spec.txIds) :
    Numbered { p with handles := handles } where
  epoch_eq := h.epoch_eq
  cell_eq := h.cell_eq
  handles_lt handle hmem := by
    obtain ⟨old, hold, heq⟩ := hcells handle hmem
    rw [heq]
    exact h.handles_lt old hold
  issued_lt := h.issued_lt
  issued_eq := h.issued_eq

theorem Numbered.new (h : p.Numbered) {P R : Type} (command : UInt8)
    (encodeParams : P → Except RaftError (List UInt8))
    (decodeParams : List UInt8 → Except RaftError P)
    (encodeResponse : R → Except RaftError (List UInt8))
    (decodeResponse : List UInt8 → Except RaftError R) :
    (p.step (.new P R command encodeParams decodeParams encodeResponse
      decodeResponse)).Numbered := by
  have hgrown : (p.step (.new P R command encodeParams decodeParams encodeResponse
      decodeResponse)).constructed = p.constructed + 1 := List.length_append
  constructor
  · rw [hgrown, UInt64.ofNat_add, ← h.epoch_eq]
    rfl
  · intro k hk
    rw [hgrown] at hk
    show (p.cells.cells ++ [txIdSeedMix * p.cells.epoch]).getD k 0 =
      UInt64.ofNat (txIdSeedMix.toNat * k + p.issuedBy k)
    rcases Nat.lt_or_ge k p.constructed with hold | hnew
    · rw [List.getD_eq_getElem?_getD, List.getElem?_append_left hold, ← List.getD_eq_getElem?_getD]
      exact h.cell_eq k hold
    · -- no id came from a cell before it was there
      have hk : k = p.constructed := by omega
      have hnone : p.issuedBy k = 0 := by
        apply List.countP_eq_zero.mpr
        intro i hi heq
        have hlt := h.issued_lt i hi
        have hcell : i.1 = k := of_decide_eq_true heq
        omega
      rw [hnone, List.getD_eq_getElem?_getD, List.getElem?_append_right hnew, hk, h.epoch_eq]
      simp [constructed]
  · intro handle hmem
    rw [hgrown]
    rcases List.mem_append.mp hmem with hold | hnew
    · exact Nat.lt_succ_of_lt (h.handles_lt handle hold)
    · rw [List.mem_singleton.mp hnew]
      exact Nat.lt_succ_self _
  · intro i hi
    rw [hgrown]
    exact Nat.lt_succ_of_lt (h.issued_lt i hi)
  · exact h.issued_eq

theorem issuedBy_issue (p : SpecProcess) (handle : AnySpec) (k : Nat) :
    (p.issue handle).issuedBy k = p.issuedBy k + if handle.spec.txIds = k then 1 else 0 := by
  show (p.issued ++ _).countP _ = _
  rw [List.countP_append, List.countP_singleton]
  simp [issuedBy]

/-- The number of an id in its cell. -/
theorem Numbered.low (h : p.Numbered) (hmem : handle ∈ p.handles) :
    (handle.spec.nextTxId p.cells).1.toNat % 2 ^ 56 =
      (txIdSeedMix.toNat * handle.spec.txIds + p.issuedBy handle.spec.txIds) % 2 ^ 56 := by
  rw [nextTxId_low, h.cell_eq _ (h.handles_lt handle hmem), UInt64.toNat_ofNat',
    Nat.mod_mod_of_dvd _ (by norm_num)]

theorem Numbered.issue (h : p.Numbered) (hmem : handle ∈ p.handles) :
    (p.issue handle).Numbered := by
  have hsame : (p.issue handle).constructed = p.constructed := List.length_modify ..
  constructor
  · rw [hsame]
    exact h.epoch_eq
  · intro k hk
    rw [hsame] at hk
    show (p.cells.cells.modify handle.spec.txIds (· + 1)).getD k 0 = _
    rw [issuedBy_issue, ← Nat.add_assoc, UInt64.ofNat_add, ← h.cell_eq k hk]
    have hlen : k < p.cells.cells.length := hk
    by_cases hcell : handle.spec.txIds = k
    · simp [hcell, hlen]
    · simp [hcell, hlen]
  · rw [hsame]
    exact h.handles_lt
  · intro i hi
    rw [hsame]
    rcases List.mem_append.mp hi with hold | hnew
    · exact h.issued_lt i hold
    · rw [List.mem_singleton.mp hnew]
      exact h.handles_lt handle hmem
  · intro i hi
    rw [issuedBy_issue]
    rcases List.mem_append.mp hi with hold | hnew
    · obtain ⟨n, hn, hlow⟩ := h.issued_eq i hold
      exact ⟨n, Nat.lt_add_right _ hn, hlow⟩
    · rw [List.mem_singleton.mp hnew]
      exact ⟨p.issuedBy handle.spec.txIds, by simp, h.low hmem⟩

theorem Numbered.step (h : p.Numbered) (op : SpecOp) : (p.step op).Numbered := by
  have hcases := p.step_cases op
  generalize p.step op = q at hcases
  cases hcases with
  | holds handles hcells => exact h.holds hcells
  | constructs P R command encodeParams decodeParams encodeResponse decodeResponse =>
    exact h.new command encodeParams decodeParams encodeResponse decodeResponse
  | issues handle hmem => exact h.issue hmem

theorem run_append (ops : List SpecOp) (op : SpecOp) : run (ops ++ [op]) = (run ops).step op :=
  List.foldl_concat ..

theorem numbered_run (ops : List SpecOp) : (run ops).Numbered := by
  induction ops using List.reverseRecOn with
  | nil => exact numbered_initial
  | append_singleton ops op ih =>
    rw [run_append]
    exact ih.step op

/-! ## Distinct ids -/

/-- What a process is asked to keep to: its specs and the ids of each of them. -/
structure Bounded (p : SpecProcess) : Prop where
  specs : p.constructed < 2 ^ 16
  ids : ∀ cell, p.issuedBy cell ≤ 2 ^ 30

/-- An operation takes neither specs nor ids back. -/
theorem bounded_of_step {op : SpecOp} (h : (p.step op).Bounded) : p.Bounded := by
  have hcases := p.step_cases op
  generalize p.step op = q at hcases h
  cases hcases with
  | holds handles hcells => exact ⟨h.specs, h.ids⟩
  | constructs =>
    have hlen : p.constructed ≤ p.constructed + 1 := Nat.le_succ _
    have hgrown := h.specs
    change (p.cells.cells ++ _).length < 2 ^ 16 at hgrown
    rw [List.length_append] at hgrown
    exact ⟨Nat.lt_of_le_of_lt hlen hgrown, h.ids⟩
  | issues handle hmem =>
    constructor
    · have hspecs := h.specs
      change (p.cells.cells.modify _ _).length < 2 ^ 16 at hspecs
      rwa [List.length_modify] at hspecs
    · intro cell
      have hids := h.ids cell
      rw [issuedBy_issue] at hids
      omega

/-- An id that is issued was not issued before. -/
theorem Numbered.fresh (h : p.Numbered) (hmem : handle ∈ p.handles) (hbounded : p.Bounded)
    (hroom : p.issuedBy handle.spec.txIds < 2 ^ 30) :
    (handle.spec.nextTxId p.cells).1 ∉ p.issued.map Prod.snd := by
  intro hissued
  obtain ⟨i, hi, heq⟩ := List.mem_map.mp hissued
  obtain ⟨n, hn, hlow⟩ := h.issued_eq i hi
  rw [heq, h.low hmem] at hlow
  have hcell := h.handles_lt handle hmem
  have hold := h.issued_lt i hi
  have hspecs := hbounded.specs
  have hids := hbounded.ids i.1
  obtain ⟨hsame, hnumber⟩ :=
    seq_injective (by omega) (by omega) hroom (by omega) hlow
  rw [hsame] at hnumber
  omega

/-- A process that constructs fewer than `2 ^ 16` specs and takes at most `2 ^ 30` ids of
each of them, through whichever handles and in whatever order, never issues an id
twice. -/
theorem issued_nodup (ops : List SpecOp) (hspecs : (run ops).constructed < 2 ^ 16)
    (hids : ∀ cell, (run ops).issuedBy cell ≤ 2 ^ 30) : ((run ops).issued.map Prod.snd).Nodup := by
  have hbounded : (run ops).Bounded := ⟨hspecs, hids⟩
  clear hspecs hids
  induction ops using List.reverseRecOn with
  | nil => exact List.nodup_nil
  | append_singleton ops op ih =>
      rw [run_append] at hbounded ⊢
      have hbefore := bounded_of_step hbounded
      have hnodup := ih hbefore
      have hcases := (run ops).step_cases op
      generalize (run ops).step op = q at hcases hbounded
      cases hcases with
      | holds handles hcells => exact hnodup
      | constructs => exact hnodup
      | issues handle hmem =>
          have hroom := hbounded.ids handle.spec.txIds
          rw [issuedBy_issue, if_pos rfl] at hroom
          have hfresh := (numbered_run ops).fresh hmem hbefore hroom
          show ((run ops).issued ++ [_]).map Prod.snd |>.Nodup
          rw [List.map_append, List.nodup_append']
          refine ⟨hnodup, List.nodup_singleton _, ?_⟩
          intro id hid hnew
          rw [List.mem_singleton.mp hnew] at hid
          exact hfresh hid

/-- Two specs of one command, and a clone that goes on where its original was dropped. -/
def sharing : List SpecOp :=
  [.new Unit Unit 7 (fun _ => .ok []) (fun _ => .ok ()) (fun _ => .ok []) (fun _ => .ok ()),
    .new Unit Unit 7 (fun _ => .ok []) (fun _ => .ok ()) (fun _ => .ok []) (fun _ => .ok ()),
    .nextTxId 0, .nextTxId 1, .clone 0, .drop 0, .nextTxId 1]

theorem issued_nodup_sharing :
    ((run sharing).issued.map Prod.snd).Nodup ∧ (run sharing).issued.map Prod.fst = [0, 1, 0] :=
  ⟨issued_nodup sharing (by decide) fun _ => List.countP_le_length.trans (by decide), by decide⟩

end SpecProcess

end ArbitroRaft
