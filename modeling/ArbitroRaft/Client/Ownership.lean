import ArbitroRaft.Client.Slot
import Mathlib.Data.Nat.Bitwise

/-!
# Slot ownership

A slot is leasable as soon as it is notified, and `poll` and `release` look at
the state word without the generation.  Ownership therefore rests on two things
the code does not enforce: a slot is taken only after its last holder is gone,
and a notification is stored while its slot is still the one it checked.  In a
run that keeps to both, a future resolves to what was delivered for its id and
nothing of another id touches its slot.

## Main results

* `slots_owned`: the same, over every run that keeps to both.
-/

namespace ArbitroRaft

open Library

/-! ## The word of an outcome -/

namespace Outcome

theorem toNat_lt_of_le_indexMask {index : UInt64} (h : index ≤ indexMask) :
    index.toNat < 2 ^ 62 := by
  have hle : index.toNat ≤ indexMask.toNat := h
  have hmask : indexMask.toNat = 2 ^ 62 - 1 := by decide
  omega

theorem and_indexMask_toNat (v : UInt64) : (v &&& indexMask).toNat = v.toNat % 2 ^ 62 := by
  have hmask : indexMask.toNat = 2 ^ 62 - 1 := by decide
  rw [UInt64.toNat_and, hmask, Nat.and_two_pow_sub_one_eq_mod]

theorem encode_committed_toNat {index : UInt64} (h : index ≤ indexMask) :
    (encode (.committed index)).toNat = 2 ^ 62 + index.toNat := by
  have hlt := toNat_lt_of_le_indexMask h
  have htag : tagCommitted.toNat = 2 ^ 62 := by decide
  have hor := Nat.two_pow_add_eq_or_of_lt hlt 1
  rw [Nat.mul_one] at hor
  rw [encode, UInt64.toNat_or, and_indexMask_toNat, htag, Nat.mod_eq_of_lt hlt, hor]

theorem decode_encode {r : Outcome} (h : r.Encodable) : decode r.encode = r := by
  cases r with
  | notLeader => decide
  | committed index =>
    have hnat := encode_committed_toNat h
    have hlt := toNat_lt_of_le_indexMask h
    have hleader : encode (.committed index) &&& tagNotLeader = 0 := by
      have htag : tagNotLeader.toNat = 2 ^ 63 := by decide
      apply UInt64.toNat_inj.mp
      rw [UInt64.toNat_and, htag, hnat, Nat.and_two_pow,
        Nat.testBit_lt_two_pow (by omega : 2 ^ 62 + index.toNat < 2 ^ 63)]
      rfl
    have hindex : encode (.committed index) &&& indexMask = index := by
      apply UInt64.toNat_inj.mp
      rw [and_indexMask_toNat, hnat]
      omega
    rw [decode, if_neg (fun hne => hne hleader), hindex]

end Outcome

/-! ## What a task relies on -/

/-- The arena index a task has taken. -/
def ClientTask.index? : ClientTask → Option Nat
  | .bumping idx => some idx
  | .leased id | .waiting id | .registered id | .resolved id _ | .releasing id
  | .cancelling id => some id.index
  | .idle | .scanning _ _ | .exchanging _ _ _ => none

/-- The id a task holds. -/
def ClientTask.slot? : ClientTask → Option SlotId
  | .leased id | .waiting id | .registered id | .resolved id _ | .releasing id
  | .cancelling id => some id
  | .idle | .scanning _ _ | .exchanging _ _ _ | .bumping _ => none

/-- A task that has taken a slot is about to bump it or holds an id. -/
theorem ClientTask.index?_cases {t : ClientTask} {k : Nat} (h : t.index? = some k) :
    t = .bumping k ∨ ∃ id, t.slot? = some id ∧ id.index = k := by
  cases t with
  | idle => cases h
  | scanning start i => cases h
  | exchanging start i current => cases h
  | bumping idx => exact .inl (congrArg ClientTask.bumping (Option.some.inj h))
  | _ => exact .inr ⟨_, rfl, Option.some.inj h⟩

theorem ClientTask.index?_of_slot? {t : ClientTask} {id : SlotId} (h : t.slot? = some id) :
    t.index? = some id.index := by
  cases t with
  | idle => cases h
  | scanning start i => cases h
  | exchanging start i current => cases h
  | bumping idx => cases h
  | _ => exact congrArg some (congrArg SlotId.index (Option.some.inj h))

/-- The word a holder finds: pending until its outcome is stored. -/
def wordOf : Option Outcome → UInt64
  | none => slotPending
  | some r => r.encode

namespace SlotWorld

/-- The slot is at the generation of the id and holds what was delivered for
it. -/
structure Live (w : SlotWorld) (id : SlotId) : Prop where
  generation_eq : (w.arena id.index).generation = id.generation
  state_eq : (w.arena id.index).state = wordOf (w.delivered id)

/-- The raft task has heard of the id. -/
def Known (w : SlotWorld) (id : SlotId) : Prop :=
  id ∈ w.mailbox ∨ (∃ r, w.raft = .storing id r) ∨ w.delivered id ≠ none

def TaskOk (w : SlotWorld) : ClientTask → Prop
  | .idle => True
  | .scanning _ i | .exchanging _ i _ => i < w.capacity
  | .bumping idx => idx < 2 ^ 32 ∧ (w.arena idx).state = slotPending
  | .leased id => w.Live id ∧ ¬ w.Known id
  | .waiting id | .registered id | .releasing id | .cancelling id => w.Live id
  | .resolved id v => w.Live id ∧ v = (w.arena id.index).state ∧ v ≠ slotPending

variable {w w' : SlotWorld} {t : ClientTask}

theorem TaskOk.live (h : w.TaskOk t) {id : SlotId} (hid : t.slot? = some id) : w.Live id := by
  cases t with
  | idle => cases hid
  | scanning start i => cases hid
  | exchanging start i current => cases hid
  | bumping idx => cases hid
  | leased id' => exact Option.some.inj hid ▸ h.1
  | resolved id' v => exact Option.some.inj hid ▸ h.1
  | waiting id' => exact Option.some.inj hid ▸ h
  | registered id' => exact Option.some.inj hid ▸ h
  | releasing id' => exact Option.some.inj hid ▸ h
  | cancelling id' => exact Option.some.inj hid ▸ h

/-- What holds in a run that keeps to ownership. -/
structure Owned (w : SlotWorld) : Prop where
  capacity_le : w.capacity ≤ 2 ^ 32
  tasks : ∀ c, w.TaskOk (w.clients c)
  unique : ∀ c c' k, (w.clients c).index? = some k → (w.clients c').index? = some k → c = c'
  bounded : ∀ k, (w.arena k).generation < 2 ^ 32
  known_le : ∀ id, w.Known id → id.generation ≤ (w.arena id.index).generation
  nodup : w.mailbox.Nodup
  once : ∀ id ∈ w.mailbox, (∀ r, w.raft ≠ .storing id r) ∧ w.delivered id = none
  storing : ∀ id r, w.raft = .storing id r → w.delivered id = none ∧ r.Encodable
  encodable : ∀ id r, w.delivered id = some r → r.Encodable

/-! ## Steps that keep to ownership -/

/-- The discipline the code leaves to its callers: a slot is taken only when no
task has it, a notification is stored only at the generation it checked with no
lease halfway, and the stored index fits its field. -/
def Careful (w : SlotWorld) : SlotAct → Prop
  | .client c .exchange =>
    ∀ start i current, w.clients c = .exchanging start i current →
      (w.arena (w.slotAt start i)).state = current →
        ∀ c', (w.clients c').index? ≠ some (w.slotAt start i)
  | .store =>
    ∀ id r, w.raft = .storing id r →
      (w.arena id.index).generation % 2 ^ 32 = id.generation ∧
        ∀ c, w.clients c ≠ .bumping id.index
  | .notify _ outcome => outcome.Encodable
  | _ => True

/-- Fewer than `2 ^ 32` leases of a slot. -/
def Spare (w : SlotWorld) : SlotAct → Prop
  | .client c .bump =>
    ∀ idx, w.clients c = .bumping idx → (w.arena idx).generation + 1 < 2 ^ 32
  | _ => True

/-- A task's facts depend on its own slot and id. -/
theorem TaskOk.of_same (h : w.TaskOk t) (hcap : w'.capacity = w.capacity)
    (harena : ∀ k, t.index? = some k → w'.arena k = w.arena k)
    (hdelivered : ∀ id, t.slot? = some id → w'.delivered id = w.delivered id)
    (hknown : ∀ id, t = .leased id → w'.Known id → w.Known id) : w'.TaskOk t := by
  have hlive : ∀ id, t.slot? = some id → t.index? = some id.index → w.Live id → w'.Live id := by
    intro id hslot hindex hl
    constructor
    · rw [harena _ hindex]
      exact hl.generation_eq
    · rw [harena _ hindex, hdelivered _ hslot]
      exact hl.state_eq
  cases t with
  | idle => trivial
  | scanning start i => exact Nat.lt_of_lt_of_eq h hcap.symm
  | exchanging start i current => exact Nat.lt_of_lt_of_eq h hcap.symm
  | bumping idx => exact ⟨h.1, by rw [harena idx rfl]; exact h.2⟩
  | leased id => exact ⟨hlive id rfl rfl h.1, fun hk => h.2 (hknown id rfl hk)⟩
  | waiting id => exact hlive id rfl rfl h
  | registered id => exact hlive id rfl rfl h
  | releasing id => exact hlive id rfl rfl h
  | cancelling id => exact hlive id rfl rfl h
  | resolved id v =>
    exact ⟨hlive id rfl rfl h.1, by rw [harena _ rfl]; exact h.2.1, h.2.2⟩

theorem TaskOk.setClient (h : w.TaskOk t) (c : Nat) (t' : ClientTask) :
    (w.setClient c t').TaskOk t :=
  h.of_same rfl (fun _ _ => rfl) (fun _ _ => rfl) (fun _ _ hk => hk)

namespace Owned

variable {w : SlotWorld} {c : Nat}

/-- A client moves to a task that fits and does not clash with the others. -/
theorem place (h : w.Owned) {t : ClientTask} (hok : w.TaskOk t)
    (hfree : ∀ k, t.index? = some k → ∀ c', c' ≠ c → (w.clients c').index? ≠ some k) :
    (w.setClient c t).Owned := by
  refine { h with tasks := ?_, unique := ?_ }
  · intro c'
    apply TaskOk.setClient
    by_cases hc : c' = c
    · rw [hc, setClient_clients_self]
      exact hok
    · rw [setClient_clients_of_ne _ _ hc]
      exact h.tasks c'
  · intro c₁ c₂ k h₁ h₂
    by_cases hc₁ : c₁ = c <;> by_cases hc₂ : c₂ = c
    · rw [hc₁, hc₂]
    · rw [hc₁, setClient_clients_self] at h₁
      rw [setClient_clients_of_ne _ _ hc₂] at h₂
      exact absurd h₂ (hfree k h₁ c₂ hc₂)
    · rw [hc₂, setClient_clients_self] at h₂
      rw [setClient_clients_of_ne _ _ hc₁] at h₁
      exact absurd h₁ (hfree k h₂ c₁ hc₁)
    · rw [setClient_clients_of_ne _ _ hc₁] at h₁
      rw [setClient_clients_of_ne _ _ hc₂] at h₂
      exact h.unique c₁ c₂ k h₁ h₂

/-- A client that stays on its slot clashes with nobody. -/
theorem stay (h : w.Owned) {t : ClientTask} (hok : w.TaskOk t)
    (hindex : ∀ k, t.index? = some k → (w.clients c).index? = some k) :
    (w.setClient c t).Owned := by
  refine h.place hok fun k hk c' hc hk' => ?_
  exact hc (h.unique c' c k hk' (hindex k hk))

theorem scanFrom (h : w.Owned) (start i : Nat) : (w.scanFrom c start i).Owned := by
  unfold SlotWorld.scanFrom
  split
  · rename_i hi
    exact h.stay hi (by simp [ClientTask.index?])
  · exact h.stay trivial (by simp [ClientTask.index?])

/-- A word changes in a slot nobody relies on. -/
theorem setState (h : w.Owned) {idx : Nat} (word : UInt64)
    (hfree : ∀ c, (w.clients c).index? ≠ some idx) : (w.setState idx word).Owned := by
  refine { h with tasks := ?_, bounded := ?_, known_le := ?_ }
  · intro c
    refine (h.tasks c).of_same rfl ?_ (fun _ _ => rfl) (fun _ _ hk => hk)
    intro k hk
    refine setState_arena_of_ne w word ?_
    rintro rfl
    exact hfree c hk
  · intro k
    rw [setState_generation]
    exact h.bounded k
  · intro id hid
    rw [setState_generation]
    exact h.known_le id hid

theorem slotAt_lt (h : w.Owned) {start i : Nat} (hi : i < w.capacity) : w.slotAt start i < 2 ^ 32 :=
  Nat.lt_of_lt_of_le (Nat.mod_lt _ (Nat.zero_lt_of_lt hi)) h.capacity_le

/-! ### The moves that touch shared memory -/

theorem exchange (h : w.Owned) {start i : Nat} (hi : i < w.capacity)
    (hfree : ∀ c', (w.clients c').index? ≠ some (w.slotAt start i)) :
    ((w.setState (w.slotAt start i) slotPending).setClient c
      (.bumping (w.slotAt start i))).Owned := by
  refine (h.setState slotPending hfree).place ⟨h.slotAt_lt hi, ?_⟩ ?_
  · rw [setState_arena_self]
  · rintro k ⟨⟩ c' -
    exact hfree c'

theorem bump (h : w.Owned) {idx : Nat} (hc : w.clients c = .bumping idx)
    (hspare : (w.arena idx).generation + 1 < 2 ^ 32) :
    ({ w with
      arena := Function.update w.arena idx
        { w.arena idx with generation := (w.arena idx).generation + 1 } }.setClient c
      (.leased (.new idx ((w.arena idx).generation + 1)))).Owned := by
  have hindex : (w.clients c).index? = some idx := by rw [hc]; rfl
  obtain ⟨hidx, hpending⟩ : idx < 2 ^ 32 ∧ (w.arena idx).state = slotPending := by
    have hok := h.tasks c
    rw [hc] at hok
    exact hok
  have hother : ∀ k, k ≠ idx → Function.update w.arena idx
      { w.arena idx with generation := (w.arena idx).generation + 1 } k = w.arena k :=
    fun k hk => Function.update_of_ne hk _ _
  have hgrows : ∀ k, (w.arena k).generation ≤ (Function.update w.arena idx
      { w.arena idx with generation := (w.arena idx).generation + 1 } k).generation := by
    intro k
    by_cases hk : k = idx
    · rw [hk, Function.update_self]
      exact Nat.le_succ _
    · rw [hother k hk]
  have hbumped : ({ w with
      arena := Function.update w.arena idx
        { w.arena idx with generation := (w.arena idx).generation + 1 } } : SlotWorld).Owned := by
    refine { h with tasks := ?_, bounded := ?_, known_le := ?_ }
    · intro c'
      by_cases hcc : c' = c
      · show TaskOk _ (w.clients c')
        rw [hcc, hc]
        exact ⟨hidx, by simpa only [Function.update_self] using hpending⟩
      · refine (h.tasks c').of_same rfl ?_ (fun _ _ => rfl) (fun _ _ hk => hk)
        intro k hk
        refine hother k ?_
        rintro rfl
        exact hcc (h.unique c' c k hk hindex)
    · intro k
      by_cases hk : k = idx
      · simp only [hk, Function.update_self]
        exact hspare
      · simp only [hother k hk]
        exact h.bounded k
    · intro id hid
      exact (h.known_le id hid).trans (hgrows id.index)
  have hnew : SlotId.new idx ((w.arena idx).generation + 1) =
      ⟨idx, (w.arena idx).generation + 1⟩ := by
    rw [SlotId.new, Nat.mod_eq_of_lt hidx, Nat.mod_eq_of_lt hspare]
  -- the raft task only knows generations that were handed out before
  have hfresh : ¬ w.Known ⟨idx, (w.arena idx).generation + 1⟩ := by
    intro hk
    exact absurd (h.known_le _ hk) (Nat.not_succ_le_self _)
  have hnone : w.delivered ⟨idx, (w.arena idx).generation + 1⟩ = none := by
    by_contra hsome
    exact hfresh (.inr (.inr hsome))
  rw [hnew]
  refine hbumped.stay ⟨⟨?_, ?_⟩, hfresh⟩ ?_
  · simp only [Function.update_self]
  · simp only [Function.update_self, hnone]
    exact hpending
  · rintro k ⟨⟩
    exact hindex

variable {id : SlotId}

theorem enqueue (h : w.Owned) (hlive : w.Live id) (hunknown : ¬ w.Known id)
    (hleased : ∀ c, w.clients c ≠ .leased id) :
    ({ w with mailbox := w.mailbox ++ [id] } : SlotWorld).Owned := by
  have hknown : ∀ id', ({ w with mailbox := w.mailbox ++ [id] } : SlotWorld).Known id' →
      w.Known id' ∨ id' = id := by
    rintro id' (hmem | hrest)
    · obtain hmem | hmem := List.mem_append.mp hmem
      · exact .inl (.inl hmem)
      · exact .inr (List.mem_singleton.mp hmem)
    · exact .inl (.inr hrest)
  refine { h with tasks := ?_, known_le := ?_, nodup := ?_, once := ?_ }
  · intro c
    refine (h.tasks c).of_same rfl (fun _ _ => rfl) (fun _ _ => rfl) ?_
    intro id' hid' hk
    obtain hk | rfl := hknown id' hk
    · exact hk
    · exact absurd hid' (hleased c)
  · intro id' hk
    obtain hk | rfl := hknown id' hk
    · exact h.known_le id' hk
    · exact hlive.generation_eq.ge
  · refine List.nodup_append.mpr ⟨h.nodup, List.nodup_singleton id, ?_⟩
    rintro x hx y hy rfl
    rw [List.mem_singleton.mp hy] at hx
    exact hunknown (.inl hx)
  · intro id' hmem
    obtain hmem | hmem := List.mem_append.mp hmem
    · exact h.once id' hmem
    · obtain rfl := List.mem_singleton.mp hmem
      refine ⟨fun r hr => hunknown (.inr (.inl ⟨r, hr⟩)), ?_⟩
      by_contra hsome
      exact hunknown (.inr (.inr hsome))

theorem send (h : w.Owned) (hc : w.clients c = .leased id) :
    ({ w with mailbox := w.mailbox ++ [id] }.setClient c (.waiting id)).Owned := by
  obtain ⟨hlive, hunknown⟩ : w.Live id ∧ ¬ w.Known id := by
    have hok := h.tasks c
    rw [hc] at hok
    exact hok
  have hwaits : (w.setClient c (.waiting id)).Owned := by
    refine h.stay hlive ?_
    rw [hc]
    exact fun _ hk => hk
  have hlive' : (w.setClient c (.waiting id)).Live id := ⟨hlive.generation_eq, hlive.state_eq⟩
  refine hwaits.enqueue hlive' hunknown ?_
  intro c' hc'
  by_cases hcc : c' = c
  · rw [hcc, setClient_clients_self] at hc'
    cases hc'
  · rw [setClient_clients_of_ne _ _ hcc] at hc'
    exact hcc (h.unique c' c id.index (by rw [hc']; rfl) (by rw [hc]; rfl))

theorem releaseStore (h : w.Owned) (hc : w.clients c = .cancelling id) :
    ((w.setState id.index tagNotLeader).setClient c .idle).Owned := by
  have hidle : (w.setClient c .idle).Owned := h.stay trivial (by simp [ClientTask.index?])
  show ((w.setClient c .idle).setState id.index tagNotLeader).Owned
  refine hidle.setState tagNotLeader ?_
  intro c' hc'
  by_cases hcc : c' = c
  · rw [hcc, setClient_clients_self] at hc'
    cases hc'
  · rw [setClient_clients_of_ne _ _ hcc] at hc'
    exact hcc (h.unique c' c id.index hc' (by rw [hc]; rfl))

theorem notify (h : w.Owned) {outcome : Outcome} (hmem : id ∈ w.mailbox)
    (henc : outcome.Encodable) :
    ({ w with
      mailbox := w.mailbox.erase id
      raft := if (w.arena id.index).generation % 2 ^ 32 = id.generation
        then .storing id outcome else .idle } : SlotWorld).Owned := by
  have hraft : ∀ id' r, (if (w.arena id.index).generation % 2 ^ 32 = id.generation
      then RaftTask.storing id outcome else .idle) = .storing id' r →
      id = id' ∧ outcome = r := by
    intro id' r heq
    split at heq
    · exact ⟨(RaftTask.storing.inj heq).1, (RaftTask.storing.inj heq).2⟩
    · cases heq
  have hknown : ∀ id', ({ w with
      mailbox := w.mailbox.erase id
      raft := if (w.arena id.index).generation % 2 ^ 32 = id.generation
        then .storing id outcome else .idle } : SlotWorld).Known id' → w.Known id' := by
    rintro id' (hmem' | ⟨r, hr⟩ | hdel)
    · exact .inl (List.mem_of_mem_erase hmem')
    · obtain ⟨rfl, -⟩ := hraft id' r hr
      exact .inl hmem
    · exact .inr (.inr hdel)
  refine { h with tasks := ?_, known_le := ?_, nodup := ?_, once := ?_, storing := ?_ }
  · intro c
    exact (h.tasks c).of_same rfl (fun _ _ => rfl) (fun _ _ => rfl) fun id' _ hk => hknown id' hk
  · intro id' hk
    exact h.known_le id' (hknown id' hk)
  · exact h.nodup.erase id
  · intro id' hmem'
    obtain ⟨hne, hmem'⟩ := h.nodup.mem_erase_iff.mp hmem'
    refine ⟨fun r hr => hne (hraft id' r hr).1.symm, (h.once id' hmem').2⟩
  · intro id' r hr
    obtain ⟨rfl, rfl⟩ := hraft id' r hr
    exact ⟨(h.once id hmem).2, henc⟩

/-- At the checked generation with no lease halfway, the only task on the slot
is the one the outcome is for. -/
theorem slot_eq_of_current (h : w.Owned)
    (hcurrent : (w.arena id.index).generation % 2 ^ 32 = id.generation)
    (hbump : ∀ c, w.clients c ≠ .bumping id.index) (hindex : (w.clients c).index? = some id.index) :
    (w.clients c).slot? = some id := by
  have hgen : (w.arena id.index).generation = id.generation := by
    rwa [Nat.mod_eq_of_lt (h.bounded id.index)] at hcurrent
  obtain hbumping | ⟨id', hid', hidx⟩ := ClientTask.index?_cases hindex
  · exact absurd hbumping (hbump c)
  · have hgen' := ((h.tasks c).live hid').generation_eq
    rw [hidx, hgen] at hgen'
    obtain ⟨idx', gen'⟩ := id'
    obtain ⟨idx, gen⟩ := id
    obtain rfl : idx' = idx := hidx
    obtain rfl : gen = gen' := hgen'
    exact hid'

theorem store (h : w.Owned) {r : Outcome} (hraft : w.raft = .storing id r)
    (hcurrent : (w.arena id.index).generation % 2 ^ 32 = id.generation)
    (hbump : ∀ c, w.clients c ≠ .bumping id.index) :
    ({ w with
      raft := .idle
      delivered := Function.update w.delivered id (some r) }.setState id.index
        r.encode).Owned := by
  obtain ⟨hnone, henc⟩ := h.storing id r hraft
  have hdelivered : ∀ id', id' ≠ id →
      Function.update w.delivered id (some r) id' = w.delivered id' :=
    fun id' hne => Function.update_of_ne hne _ _
  have hknown : ∀ id', ({ w with
      raft := .idle
      delivered := Function.update w.delivered id (some r) }.setState id.index
        r.encode).Known id' → w.Known id' := by
    rintro id' (hmem | ⟨r', hr'⟩ | hdel)
    · exact .inl hmem
    · cases hr'
    · by_cases hid : id' = id
      · exact .inr (.inl ⟨r, hid ▸ hraft⟩)
      · refine .inr (.inr ?_)
        rw [← hdelivered id' hid]
        exact hdel
  refine { h with tasks := ?_, bounded := ?_, known_le := ?_, once := ?_, storing := ?_,
                  encodable := ?_ }
  · intro c
    by_cases hindex : (w.clients c).index? = some id.index
    · -- the holder is the addressee: its word becomes the outcome
      have hslot := h.slot_eq_of_current hcurrent hbump hindex
      have hok := h.tasks c
      have hlive := hok.live hslot
      have hlive' : ({ w with
          raft := .idle
          delivered := Function.update w.delivered id (some r) }.setState id.index
            r.encode).Live id := by
        refine ⟨?_, ?_⟩
        · rw [setState_generation]
          exact hlive.generation_eq
        · rw [setState_arena_self]
          show r.encode = wordOf (Function.update w.delivered id (some r) id)
          rw [Function.update_self]
          rfl
      show TaskOk _ (w.clients c)
      cases ht : w.clients c with
      | idle => rw [ht] at hslot; cases hslot
      | scanning start i => rw [ht] at hslot; cases hslot
      | exchanging start i current => rw [ht] at hslot; cases hslot
      | bumping idx => rw [ht] at hslot; cases hslot
      | leased id' =>
        rw [ht] at hslot hok
        cases hslot
        exact absurd (.inr (.inl ⟨r, hraft⟩)) hok.2
      | resolved id' v =>
        rw [ht] at hslot hok
        cases hslot
        obtain ⟨-, hv, hpending⟩ := hok
        rw [hlive.state_eq, hnone] at hv
        exact absurd hv hpending
      | waiting id' => rw [ht] at hslot; exact Option.some.inj hslot ▸ hlive'
      | registered id' => rw [ht] at hslot; exact Option.some.inj hslot ▸ hlive'
      | releasing id' => rw [ht] at hslot; exact Option.some.inj hslot ▸ hlive'
      | cancelling id' => rw [ht] at hslot; exact Option.some.inj hslot ▸ hlive'
    · refine (h.tasks c).of_same rfl ?_ ?_ fun id' _ hk => hknown id' hk
      · intro k hk
        refine setState_arena_of_ne _ _ ?_
        rintro rfl
        exact hindex hk
      · intro id' hid'
        refine hdelivered id' ?_
        rintro rfl
        exact hindex (ClientTask.index?_of_slot? hid')
  · intro k
    rw [setState_generation]
    exact h.bounded k
  · intro id' hk
    rw [setState_generation]
    exact h.known_le id' (hknown id' hk)
  · intro id' hmem
    obtain ⟨hne, hnone'⟩ := h.once id' hmem
    refine ⟨fun r' hr' => RaftTask.noConfusion hr', ?_⟩
    show Function.update w.delivered id (some r) id' = none
    rw [hdelivered id' ?_]
    · exact hnone'
    · rintro rfl
      exact hne r hraft
  · rintro id' r' ⟨⟩
  · intro id' r' hr'
    by_cases hid : id' = id
    · have hr'' : Function.update w.delivered id (some r) id' = some r' := hr'
      rw [hid, Function.update_self] at hr''
      exact Option.some.inj hr'' ▸ henc
    · refine h.encodable id' r' ?_
      rw [← hdelivered id' hid]
      exact hr'

end Owned

/-! ## Runs -/

theorem Owned.new {cap : Nat} (hcap : cap ≤ 2 ^ 32) : (SlotWorld.new cap).Owned where
  capacity_le := hcap
  tasks _ := trivial
  unique _ _ _ h := by cases h
  bounded _ := Nat.two_pow_pos 32
  known_le := by
    rintro id (hmem | ⟨r, hr⟩ | hdel)
    · exact absurd hmem List.not_mem_nil
    · cases hr
    · exact absurd rfl hdel
  nodup := List.nodup_nil
  once _ hmem := absurd hmem List.not_mem_nil
  storing _ _ h := by cases h
  encodable _ _ h := by cases h

/-- What a client's move does. -/
inductive Moved (w : SlotWorld) (c : Nat) : ClientMove → SlotWorld → Prop where
  | began : Moved w c .lease
      ({ w with cursor := (w.cursor + 1) % 2 ^ 64 }.scanFrom c w.cursor 0)
  | passed (move : ClientMove) (start i : Nat) : Moved w c move (w.scanFrom c start i)
  /-- Only the client's own task changes, on the slot it is on. -/
  | own (move : ClientMove) (t : ClientTask) : (w.TaskOk (w.clients c) → w.TaskOk t) →
      (∀ k, t.index? = some k → (w.clients c).index? = some k) →
      Moved w c move (w.setClient c t)
  | took (start i : Nat) (current : UInt64) : w.clients c = .exchanging start i current →
      (w.arena (w.slotAt start i)).state = current →
      Moved w c .exchange ((w.setState (w.slotAt start i) slotPending).setClient c
        (.bumping (w.slotAt start i)))
  | bumped (idx : Nat) : w.clients c = .bumping idx →
      Moved w c .bump
        ({ w with
          arena := Function.update w.arena idx
            { w.arena idx with generation := (w.arena idx).generation + 1 } }.setClient c
          (.leased (.new idx ((w.arena idx).generation + 1))))
  | sent (id : SlotId) : w.clients c = .leased id →
      Moved w c (.send true)
        ({ w with mailbox := w.mailbox ++ [id] }.setClient c (.waiting id))
  | cancelled (id : SlotId) : w.clients c = .cancelling id →
      Moved w c .releaseStore ((w.setState id.index tagNotLeader).setClient c .idle)

/-- A load of `poll` finds the word of the holder's slot. -/
theorem Moved.pollLoad {c : Nat} {move : ClientMove} {id : SlotId} {pending : ClientTask}
    (hid : (w.clients c).slot? = some id) (hok : w.TaskOk (w.clients c) → w.TaskOk pending)
    (hpending : pending.index? = some id.index) : w.Moved c move (w.pollLoad c id pending) := by
  have hindex := ClientTask.index?_of_slot? hid
  unfold SlotWorld.pollLoad
  dsimp only
  split
  · rename_i hv
    refine .own move _ (fun hlive => ⟨hlive.live hid, rfl, hv⟩) ?_
    rintro k ⟨⟩
    exact hindex
  · refine .own move _ hok ?_
    intro k hk
    rw [← hk, hpending]
    exact hindex

theorem clientStep_moved {c : Nat} {move : ClientMove}
    (h : w.clientStep c move (w.clients c) = some w') : w.Moved c move w' := by
  -- every move is possible at one or two points of the write
  cases move <;> cases ht : w.clients c <;> rw [ht] at h <;>
    simp only [SlotWorld.clientStep, reduceCtorEq, Option.some.injEq] at h
  case lease.idle =>
    subst h
    exact .began
  case scan.scanning start i =>
    subst h
    split
    · refine .own _ _ ?_ ?_
      · rw [ht]
        exact fun hi => hi
      · rintro k ⟨⟩
    · exact .passed _ start (i + 1)
  case exchange.exchanging start i current =>
    subst h
    split
    · rename_i hstate
      exact .took start i current ht hstate
    · exact .passed _ start (i + 1)
  case bump.bumping idx =>
    subst h
    exact .bumped idx ht
  case send.leased accepted id =>
    cases accepted with
    | true =>
      cases h
      exact .sent id ht
    | false =>
      cases h
      refine .own _ _ ?_ ?_
      · rw [ht]
        exact fun hok => hok.1
      · rw [ht]
        exact fun _ hk => hk
  case poll.waiting id =>
    subst h
    refine Moved.pollLoad (by rw [ht]; rfl) ?_ rfl
    rw [ht]
    exact fun hlive => hlive
  case repoll.registered id =>
    subst h
    refine Moved.pollLoad (by rw [ht]; rfl) ?_ rfl
    rw [ht]
    exact fun hlive => hlive
  case dropFuture.waiting id =>
    subst h
    refine .own _ _ ?_ ?_
    · rw [ht]
      exact fun hlive => hlive
    · rw [ht]
      exact fun _ hk => hk
  case dropFuture.resolved id v =>
    subst h
    refine .own _ _ ?_ ?_
    · rw [ht]
      exact fun hok => hok.1
    · rw [ht]
      exact fun _ hk => hk
  case releaseLoad.releasing id =>
    subst h
    refine .own _ _ ?_ ?_
    · rw [ht]
      split
      · exact fun hlive => hlive
      · exact fun _ => trivial
    · rw [ht]
      split
      · exact fun _ hk => hk
      · rintro k ⟨⟩
  case releaseStore.cancelling id =>
    subst h
    exact .cancelled id ht

/-- **Step lemma.**  A careful step keeps ownership. -/
theorem Owned.step {a : SlotAct} (h : w.Owned) (hcareful : w.Careful a) (hspare : w.Spare a)
    (hstep : w.step a = some w') : w'.Owned := by
  cases a with
  | client c move =>
    have hok := h.tasks c
    cases clientStep_moved hstep with
    | began =>
      have hcursor : ({ w with cursor := (w.cursor + 1) % 2 ^ 64 } : SlotWorld).Owned := by
        refine { h with tasks := fun c' => ?_ }
        exact (h.tasks c').of_same rfl (fun _ _ => rfl) (fun _ _ => rfl) (fun _ _ hk => hk)
      exact hcursor.scanFrom w.cursor 0
    | passed move start i => exact h.scanFrom start i
    | own move t hok' hindex => exact h.stay (hok' hok) hindex
    | took start i current ht hstate =>
      rw [ht] at hok
      exact h.exchange hok (hcareful start i current ht hstate)
    | bumped idx ht => exact h.bump ht (hspare idx ht)
    | sent id ht => exact h.send ht
    | cancelled id ht => exact h.releaseStore ht
  | notify id outcome =>
    have hnotify : w.notifyStep id outcome = some w' := hstep
    unfold notifyStep at hnotify
    split at hnotify
    · rename_i hguard
      cases hnotify
      exact h.notify hguard.1 hcareful
    · cases hnotify
  | store =>
    have hstore : w.storeStep = some w' := hstep
    unfold storeStep at hstore
    split at hstore
    · cases hstore
    · rename_i id outcome hraft
      cases hstore
      obtain ⟨hcurrent, hbump⟩ := hcareful id outcome hraft
      exact h.store hraft hcurrent hbump

end SlotWorld

/-- The id a step belongs to. -/
def SlotAct.owner (w : SlotWorld) : SlotAct → Option SlotId
  | .client c _ => (w.clients c).slot?
  | .notify id _ => some id
  | .store =>
    match w.raft with
    | .storing id _ => some id
    | .idle => none

namespace SlotWorld

/-- A careful step of another id leaves a holder's slot alone. -/
theorem Owned.arena_eq {w w' : SlotWorld} {a : SlotAct} (h : w.Owned) (hcareful : w.Careful a)
    (hstep : w.step a = some w') {c : Nat} {id : SlotId} (hid : (w.clients c).slot? = some id)
    (howner : a.owner w ≠ some id) : w'.arena id.index = w.arena id.index := by
  have hindex := ClientTask.index?_of_slot? hid
  cases a with
  | client c' move =>
    have hne : c' ≠ c := by
      rintro rfl
      exact howner hid
    have hfree : (w.clients c').index? ≠ some id.index := fun h' =>
      hne (h.unique c' c id.index h' hindex)
    cases clientStep_moved hstep with
    | began => rfl
    | passed move start i => rfl
    | own move t hok hindex' => rfl
    | took start i current ht hstate =>
      refine setState_arena_of_ne w slotPending ?_
      intro heq
      exact hcareful start i current ht hstate c (heq ▸ hindex)
    | bumped idx ht =>
      refine Function.update_of_ne ?_ _ _
      rintro rfl
      rw [ht] at hfree
      exact hfree rfl
    | sent id' ht => rfl
    | cancelled id' ht =>
      refine setState_arena_of_ne w tagNotLeader ?_
      intro heq
      rw [ht] at hfree
      exact hfree (congrArg some heq.symm)
  | notify id' outcome =>
    have hnotify : w.notifyStep id' outcome = some w' := hstep
    unfold notifyStep at hnotify
    split at hnotify
    · cases hnotify
      rfl
    · cases hnotify
  | store =>
    have hstore : w.storeStep = some w' := hstep
    unfold storeStep at hstore
    split at hstore
    · cases hstore
    · rename_i id' outcome hraft
      cases hstore
      obtain ⟨hcurrent, hbump⟩ := hcareful id' outcome hraft
      refine setState_arena_of_ne _ _ ?_
      intro heq
      have hslot := h.slot_eq_of_current hcurrent hbump (heq ▸ hindex)
      have hsame : id' = id := Option.some.inj (hslot.symm.trans hid)
      refine howner ?_
      rw [SlotAct.owner, hraft, hsame]

/-- Steps that keep to ownership, with fewer than `2 ^ 32` leases of a slot. -/
def Disciplined (w : SlotWorld) (a : SlotAct) : Prop := w.Careful a ∧ w.Spare a

/-- **Slot ownership.**  In a disciplined run a future resolves to what was
delivered for its id, a notification for a holder passes the generation check,
and a step of another id leaves the holder's slot as it is. -/
theorem slots_owned {cap : Nat} (hcap : cap ≤ 2 ^ 32) {w : SlotWorld}
    (hrun : Reaches step Disciplined (SlotWorld.new cap) w) :
    (∀ c id v, w.clients c = .resolved id v → w.delivered id = some (Outcome.decode v)) ∧
    (∀ c id, (w.clients c).slot? = some id →
      (w.arena id.index).generation % 2 ^ 32 = id.generation) ∧
    (∀ a w', w.Disciplined a → w.step a = some w' →
      ∀ c id, (w.clients c).slot? = some id → a.owner w ≠ some id →
        w'.arena id.index = w.arena id.index) := by
  have howned : w.Owned := hrun.invariant (Owned.new hcap) fun u v a hu hadmits hnext =>
    hu.step hadmits.1 hadmits.2 hnext
  refine ⟨?_, ?_, ?_⟩
  · intro c id v hc
    have hok := howned.tasks c
    rw [hc] at hok
    obtain ⟨hlive, hv, hpending⟩ := hok
    rw [hlive.state_eq] at hv
    cases hd : w.delivered id with
    | none =>
        rw [hd] at hv
        exact absurd hv hpending
    | some r =>
        rw [hd] at hv
        rw [hv, wordOf, Outcome.decode_encode (howned.encodable id r hd)]
  · intro c id hid
    rw [Nat.mod_eq_of_lt (howned.bounded id.index)]
    exact ((howned.tasks c).live hid).generation_eq
  · intro a w' hdisciplined hstep c id hid howner
    exact howned.arena_eq hdisciplined.1 hstep hid howner

/-- Client `c` leases a slot and enqueues its proposal. -/
def leaseAndSend (c : Nat) : List SlotAct :=
  [.client c .lease, .client c .scan, .client c .exchange, .client c .bump,
    .client c (.send true)]

/-- The raft task notifies an id. -/
def notifyAll (id : SlotId) (r : Outcome) : List SlotAct := [.notify id r, .store]

theorem slots_owned_one_write :
    ∃ w, Reaches step Disciplined (SlotWorld.new 1) w ∧
      w.clients 0 = .resolved ⟨0, 1⟩ (Outcome.committed 5).encode ∧
      w.delivered ⟨0, 1⟩ = some (Outcome.decode (Outcome.committed 5).encode) := by
  have go : ∀ {w w' : SlotWorld} (a : SlotAct), Reaches step Disciplined (SlotWorld.new 1) w →
      w.Careful a → w.Spare a → w.step a = some w' →
      Reaches step Disciplined (SlotWorld.new 1) w' :=
    fun a h hc hs hstep => .next a h ⟨hc, hs⟩ hstep
  have h₁ := go (.client 0 .lease) .refl trivial trivial rfl
  have h₂ := go (.client 0 .scan) h₁ trivial trivial rfl
  have h₃ := go (.client 0 .exchange) h₂ (by
    intro start i current _ _ c'
    cases c' with
    | zero => exact (nofun : (none : Option Nat) ≠ some _)
    | succ c => exact (nofun : (none : Option Nat) ≠ some _)) trivial rfl
  have h₄ := go (.client 0 .bump) h₃ trivial (by
    intro idx hidx
    obtain rfl : 0 = idx := ClientTask.bumping.inj hidx
    show 0 + 1 < 2 ^ 32
    decide) rfl
  have h₅ := go (.client 0 (.send true)) h₄ trivial trivial rfl
  have h₆ := go (.notify ⟨0, 1⟩ (.committed 5)) h₅ (by
    show (5 : UInt64) ≤ indexMask
    decide) trivial rfl
  have h₇ := go .store h₆ (by
    intro id r hr
    obtain ⟨rfl, rfl⟩ : ⟨0, 1⟩ = id ∧ Outcome.committed 5 = r :=
      ⟨(RaftTask.storing.inj hr).1, (RaftTask.storing.inj hr).2⟩
    refine ⟨rfl, fun c hc => ?_⟩
    cases c with
    | zero => exact ClientTask.noConfusion hc
    | succ c => exact ClientTask.noConfusion hc) trivial rfl
  have h₈ := go (.client 0 .poll) h₇ trivial trivial rfl
  exact ⟨_, h₈, rfl, (slots_owned (by decide) h₈).1 0 ⟨0, 1⟩ _ rfl⟩

/-- With one slot, a second writer takes it between delivery and poll: the first
future resolves to the second's index.  And a resolved future that is dropped
after the slot was taken again cancels the new lessee. -/
theorem slot_stolen :
    ((runSteps step (SlotWorld.new 1)
      (leaseAndSend 0 ++ notifyAll ⟨0, 1⟩ (.committed 5) ++ leaseAndSend 1 ++
        notifyAll ⟨0, 2⟩ (.committed 9) ++ [.client 0 .poll])).map
      fun w => (w.clients 0, w.delivered ⟨0, 1⟩)) =
      some (.resolved ⟨0, 1⟩ (Outcome.committed 9).encode, some (.committed 5)) ∧
    ((runSteps step (SlotWorld.new 1)
      (leaseAndSend 0 ++ notifyAll ⟨0, 1⟩ (.committed 5) ++ [.client 0 .poll] ++
        leaseAndSend 1 ++
        [.client 0 .dropFuture, .client 0 .releaseLoad, .client 0 .releaseStore,
          .client 1 .poll])).map
      fun w => (w.clients 1, w.delivered ⟨0, 2⟩)) =
      some (.resolved ⟨0, 2⟩ Outcome.notLeader.encode, none) := by
  decide

end SlotWorld

end ArbitroRaft
