import ArbitroRaft.Dispatch.Transaction
import Mathlib.Tactic

/-!
# How a dispatch transaction resolves

A transaction is evaluated behind every answer, so as long as it is open its policy can
still be met by the targets that have not answered.  It follows that a transaction all
of whose targets have answered is resolved, and the first resolution stays.

A success means what its policy says, with one exception: where the last connected
target disconnects, nothing is required any more and the transaction succeeds without
an acknowledgement.

## Main results

* `transaction_resolves`: the first resolution stays, and comes with the last answer.
* `success_acknowledged_iff`: when a success was acknowledged.
-/

namespace ArbitroRaft

variable {R : Type}

namespace DispatchState

/-- The policy is not met and can be met by the targets that are pending. -/
structure Reachable (s : DispatchState R) : Prop where
  short : s.acceptedCount < s.requiredAccepts
  within : s.requiredAccepts ≤ s.acceptedCount + s.pendingCount

/-- A transaction that is open can be met. -/
def Settled (s : DispatchState R) : Prop := s.completion = none → s.Reachable

/-! ## Evaluation -/

/-- What an evaluation of an open transaction comes to. -/
inductive Evaluated (s : DispatchState R) : DispatchState R → Prop
  | succeeded (h : s.requiredAccepts = 0 ∨ s.requiredAccepts ≤ s.acceptedCount) :
      Evaluated s { s with completion := some (.succeeded s.resultSnapshot) }
  | failed (failure : DispatchFailure) :
      Evaluated s { s with completion := some (.failed failure) }
  | goesOn (h : s.Reachable) : Evaluated s s

variable {s : DispatchState R}

theorem evaluate_cases (h : s.completion = none) : s.Evaluated s.evaluate := by
  unfold evaluate
  rw [if_neg (by rw [h]; exact Bool.false_ne_true)]
  dsimp only
  by_cases hmet : s.requiredAccepts = 0 ∨ s.requiredAccepts ≤ s.acceptedCount
  · rw [if_pos hmet]
    exact .succeeded hmet
  rw [if_neg hmet]
  split
  · exact .failed _
  split
  · exact .failed _
  · rename_i hroom
    refine .goesOn ⟨?_, Nat.le_of_not_lt hroom⟩
    omega

theorem settled_evaluate (h : s.completion = none) : s.evaluate.Settled := by
  have hcases := evaluate_cases h
  generalize s.evaluate = t at hcases
  intro hopen
  cases hcases with
  | succeeded => cases hopen
  | failed => cases hopen
  | goesOn hreach => exact hreach

/-! ## Steps -/

/-- What an event comes to. -/
inductive Stepped (s : DispatchState R) (e : DispatchEvent R) : DispatchState R → Prop
  | still : Stepped s e s
  | failed (failure : DispatchFailure) (h : s.completion = none) :
      Stepped s e { s with completion := some (.failed failure) }
  | moved (peer : PeerId) (next : DispatchPeerState R → DispatchPeerState R)
      (peers : List (DispatchPeerSlot R)) (h : s.completion = none)
      (hmove : moveSlot peer next s.peers = some peers)
      (hnext : (∀ state, (next state).isConnected = state.isConnected ∨
          (next state).isConnected = true) ∧ (∀ p, e ≠ .disconnect p) ∨
        e = .disconnect peer ∧ ∀ state, next state = .disconnected) :
      Stepped s e (evaluate { s with peers := peers })

theorem updatePeerState_stepped {e : DispatchEvent R} (peer : PeerId)
    (next : DispatchPeerState R → DispatchPeerState R)
    (hnext : (∀ state, (next state).isConnected = state.isConnected ∨
        (next state).isConnected = true) ∧ (∀ p, e ≠ .disconnect p) ∨
      e = .disconnect peer ∧ ∀ state, next state = .disconnected) :
    Stepped s e (s.updatePeerState peer next).2 := by
  unfold updatePeerState
  by_cases hdone : s.completion.isSome = true
  · rw [if_pos hdone]
    exact .still
  rw [if_neg hdone]
  have hopen := Option.not_isSome_iff_eq_none.mp hdone
  cases hmove : moveSlot peer next s.peers with
  | none => exact .still
  | some peers => exact .moved peer next peers hopen hmove hnext

theorem step_cases (s : DispatchState R) (e : DispatchEvent R) : Stepped s e (s.step e) := by
  cases e with
  | accept peer value =>
    exact updatePeerState_stepped peer _ (.inl ⟨fun _ => .inr rfl, nofun⟩)
  | reject peer reason =>
    exact updatePeerState_stepped peer _ (.inl ⟨fun _ => .inr rfl, nofun⟩)
  | progress peer payload =>
    refine updatePeerState_stepped peer _ (.inl ⟨?_, fun p h => nomatch h⟩)
    intro state
    split
    · exact .inr rfl
    · exact .inl rfl
  | fail peer error =>
    exact updatePeerState_stepped peer _ (.inl ⟨fun _ => .inr rfl, nofun⟩)
  | disconnect peer =>
    exact updatePeerState_stepped peer _ (.inr ⟨rfl, fun _ => rfl⟩)
  | abort failure =>
    show Stepped s _ (s.abort failure)
    unfold abort
    split
    · exact .still
    · rename_i hopen
      exact .failed failure (Option.not_isSome_iff_eq_none.mp hopen)
  | checkTimeout now =>
    show Stepped s _ (s.checkTimeout now)
    unfold checkTimeout
    split
    · exact .still
    rename_i hopen
    split
    · exact .still
    split
    · exact .failed .timeout (Option.not_isSome_iff_eq_none.mp hopen)
    · exact .still
  | pollWait now slept =>
    show Stepped s _ (s.pollWait now slept)
    unfold pollWait
    split
    · exact .still
    rename_i hopen
    split
    · exact .still
    split
    · exact .failed .timeout (Option.not_isSome_iff_eq_none.mp hopen)
    · exact .still

/-- A transaction that is resolved does not change. -/
theorem step_of_resolved {c : DispatchCompletion R} (h : s.completion = some c)
    (e : DispatchEvent R) : s.step e = s := by
  have hcases := step_cases s e
  generalize s.step e = t at hcases
  cases hcases with
  | still => rfl
  | failed failure hopen => rw [hopen] at h; cases h
  | moved peer next peers hopen => rw [hopen] at h; cases h

theorem run_of_resolved {c : DispatchCompletion R} (h : s.completion = some c)
    (events : List (DispatchEvent R)) : s.run events = s := by
  induction events with
  | nil => rfl
  | cons e rest ih =>
    show (s.step e).run rest = s
    rw [step_of_resolved h e]
    exact ih

theorem settled_step (h : s.Settled) (e : DispatchEvent R) : (s.step e).Settled := by
  have hcases := step_cases s e
  generalize s.step e = t at hcases
  cases hcases with
  | still => exact h
  | failed failure hopen => exact nofun
  | moved peer next peers hopen => exact settled_evaluate hopen

theorem settled_run (h : s.Settled) (events : List (DispatchEvent R)) : (s.run events).Settled := by
  induction events generalizing s with
  | nil => exact h
  | cons e rest ih => exact ih (settled_step h e)

theorem settled_begin (txId : UInt64) (command : UInt8) (options : DispatchOptions)
    (targets : List PeerId) (now : Nat) :
    (beginTransaction txId command options targets now : DispatchState R).Settled :=
  settled_evaluate rfl

/-- A transaction can be met by pending targets only. -/
theorem Settled.resolved (h : s.Settled) (hdone : ∀ slot ∈ s.peers, slot.state.isPending = false) :
    s.completion.isSome := by
  by_contra hopen
  obtain ⟨hshort, hwithin⟩ := h (Option.not_isSome_iff_eq_none.mp hopen)
  have hpending : s.pendingCount = 0 := by
    apply List.countP_eq_zero.mpr
    intro slot hmem hslot
    rw [hdone slot hmem] at hslot
    exact Bool.false_ne_true hslot
  omega

/-! ## Resolution -/

/-- Whatever happens to a transaction in whatever order, its first resolution stays, and
once no target is left that has not answered or disconnected it is resolved. -/
theorem transaction_resolves (txId : UInt64) (command : UInt8) (options : DispatchOptions)
    (targets : List PeerId) (now : Nat) (events : List (DispatchEvent R)) :
    (∀ c, ((beginTransaction txId command options targets now).run events).completion = some c →
      ∀ more, (((beginTransaction txId command options targets now).run events).run
        more).completion = some c) ∧
    ((∀ slot ∈ ((beginTransaction txId command options targets now).run events).peers,
        slot.state.isPending = false) →
      ((beginTransaction txId command options targets now).run events).completion.isSome) := by
  constructor
  · intro c hc more
    rw [run_of_resolved hc more]
    exact hc
  · exact (settled_run (settled_begin txId command options targets now) events).resolved

/-- Two targets answer, one by an acceptance and one by a refusal, with an answer of a
third peer and a late acceptance among them. -/
theorem transaction_resolves_rejected :
    ((beginTransaction 7 3 .default [1, 2] 0).run
      [.accept 1 (), .accept 9 (), .reject 2 [], .accept 2 ()]).completion.isSome :=
  (transaction_resolves 7 3 .default [1, 2] 0
    [.accept 1 (), .accept 9 (), .reject 2 [], .accept 2 ()]).2 (by decide)

end DispatchState

/-! ## Success -/

/-- What a policy asks of the acceptances among `connected` targets. -/
def DispatchAckOptions.Met (ack : DispatchAckOptions) (connected accepted : Nat) : Prop :=
  1 ≤ accepted ∧
    match ack.policy with
    | .all => connected ≤ accepted
    | .quorum => connected < 2 * accepted
    | .atLeast => min ack.count.toNat connected ≤ accepted
    | .percent => ack.percent.toNat * connected ≤ 100 * accepted
    | .bestEffort => True

/-- More is asked for than all the targets. -/
def DispatchAckOptions.Exceeds (ack : DispatchAckOptions) : Prop :=
  ack.policy = .percent ∧ 100 < ack.percent.toNat

instance (ack : DispatchAckOptions) : Decidable ack.Exceeds := by
  unfold DispatchAckOptions.Exceeds
  infer_instance

namespace DispatchState

/-- The acceptances are what the policy asks for, and not all targets are gone. -/
structure Acknowledged (s : DispatchState R) : Prop where
  connected : 0 < s.activeCount
  met : s.options.ack.Met s.activeCount s.acceptedCount

/-- The event takes the only target that is still connected away. -/
def LosesLast (s : DispatchState R) : DispatchEvent R → Prop
  | .disconnect peer =>
    s.activeCount = 1 ∧
      (s.peers.find? fun slot => slot.peer = peer).any fun slot => slot.state.isConnected
  | _ => False

instance (s : DispatchState R) : (e : DispatchEvent R) → Decidable (s.LosesLast e)
  | .disconnect _ => inferInstanceAs (Decidable (_ ∧ _))
  | .accept _ _ | .reject _ _ | .progress _ _ | .fail _ _ | .abort _ | .checkTimeout _
  | .pollWait _ _ => inferInstanceAs (Decidable False)

/-- A target that accepted is connected. -/
theorem acceptedCount_le_activeCount (s : DispatchState R) : s.acceptedCount ≤ s.activeCount := by
  apply List.countP_mono_left
  intro slot _ h
  cases hstate : slot.state with
  | accepted value => rfl
  | pending | progress payload | rejected reason | failed error | disconnected =>
    rw [hstate] at h
    cases h

variable {s : DispatchState R}

/-- With a target left, what the code requires is what the policy asks for. -/
theorem met_of_required (hactive : 0 < s.activeCount)
    (h : s.requiredAccepts = 0 ∨ s.requiredAccepts ≤ s.acceptedCount) :
    s.options.ack.Met s.activeCount s.acceptedCount ↔ ¬ s.options.ack.Exceeds := by
  have hle := s.acceptedCount_le_activeCount
  unfold requiredAccepts at h
  rw [if_neg (by omega)] at h
  unfold DispatchAckOptions.Met DispatchAckOptions.Exceeds
  cases hpolicy : s.options.ack.policy with
  | all | quorum | atLeast | bestEffort =>
    rw [hpolicy] at h
    simp only [reduceCtorEq, false_and, not_false_eq_true, iff_true, and_true]
    dsimp only at h
    omega
  | percent =>
    rw [hpolicy] at h
    have hdiv : (s.activeCount * min (max s.options.ack.percent.toNat 1) 100 + 99) / 100 ≤
        s.acceptedCount := by
      dsimp only at h
      omega
    have hone : 1 ≤ s.acceptedCount := by
      dsimp only at h
      omega
    have hceil : s.activeCount * min (max s.options.ack.percent.toNat 1) 100 ≤
        100 * s.acceptedCount := by omega
    simp only [true_and, not_lt, hone]
    constructor
    · intro hmet
      by_contra hover
      have hmul := Nat.mul_le_mul_right s.activeCount (Nat.lt_of_not_le hover)
      omega
    · intro hle
      calc s.options.ack.percent.toNat * s.activeCount
          = s.activeCount * s.options.ack.percent.toNat := Nat.mul_comm _ _
        _ ≤ s.activeCount * min (max s.options.ack.percent.toNat 1) 100 :=
            Nat.mul_le_mul_left _ (by omega)
        _ ≤ 100 * s.acceptedCount := hceil

/-- Moving a slot on changes a count by that slot. -/
theorem countP_moveSlot {peer : PeerId} {next : DispatchPeerState R → DispatchPeerState R}
    {slots moved : List (DispatchPeerSlot R)} (h : moveSlot peer next slots = some moved)
    (p : DispatchPeerSlot R → Bool) :
    ∃ slot, slots.find? (fun slot => slot.peer = peer) = some slot ∧
      moved.countP p + (p slot).toNat =
        slots.countP p + (p { slot with state := next slot.state }).toNat := by
  induction slots generalizing moved with
  | nil => cases h
  | cons slot rest ih =>
    unfold moveSlot at h
    by_cases hpeer : slot.peer = peer
    · rw [if_pos hpeer] at h
      cases h
      refine ⟨slot, List.find?_cons_of_pos (by simpa using hpeer), ?_⟩
      rw [List.countP_cons, List.countP_cons]
      cases p slot <;> cases p { slot with state := next slot.state } <;> simp
    · rw [if_neg hpeer] at h
      obtain ⟨rest', hrest, rfl⟩ := Option.map_eq_some_iff.mp h
      obtain ⟨found, hfound, hcount⟩ := ih hrest
      refine ⟨found, ?_, ?_⟩
      · rw [List.find?_cons_of_neg (by simpa using hpeer)]
        exact hfound
      · rw [List.countP_cons, List.countP_cons]
        omega

/-- The targets are all gone behind an event exactly if it takes the last one away. -/
theorem activeCount_moved {e : DispatchEvent R} {peer : PeerId}
    {next : DispatchPeerState R → DispatchPeerState R} {peers : List (DispatchPeerSlot R)}
    (hactive : 0 < s.activeCount) (hmove : moveSlot peer next s.peers = some peers)
    (hnext : (∀ state, (next state).isConnected = state.isConnected ∨
        (next state).isConnected = true) ∧ (∀ p, e ≠ .disconnect p) ∨
      e = .disconnect peer ∧ ∀ state, next state = .disconnected) :
    activeCount { s with peers := peers } = 0 ↔ s.LosesLast e := by
  obtain ⟨slot, hfind, hcount⟩ := countP_moveSlot hmove fun slot => slot.state.isConnected
  change activeCount { s with peers := peers } + slot.state.isConnected.toNat =
    s.activeCount + (next slot.state).isConnected.toNat at hcount
  rcases hnext with ⟨hkeep, hother⟩ | ⟨rfl, hgone⟩
  · have hnot : ¬ s.LosesLast e := by
      cases e with
      | disconnect p => exact absurd rfl (hother p)
      | accept | reject | progress | fail | abort | checkTimeout | pollWait => exact id
    have hle : slot.state.isConnected.toNat ≤ (next slot.state).isConnected.toNat := by
      rcases hkeep slot.state with hsame | hon
      · rw [hsame]
      · rw [hon]
        exact Bool.toNat_le _
    refine iff_of_false ?_ hnot
    omega
  · rw [hgone] at hcount
    change _ = s.activeCount + 0 at hcount
    show _ ↔ s.activeCount = 1 ∧ _
    rw [hfind]
    show _ ↔ s.activeCount = 1 ∧ slot.state.isConnected = true
    cases hconn : slot.state.isConnected with
    | false =>
      rw [hconn] at hcount
      simp only [Bool.toNat_false] at hcount
      simp only [Bool.false_eq_true, and_false, iff_false]
      omega
    | true =>
      rw [hconn] at hcount
      simp only [Bool.toNat_true] at hcount
      simp only [and_true]
      omega

theorem Settled.activeCount_pos (h : s.Settled) (hopen : s.completion = none) :
    0 < s.activeCount := by
  have hshort := (h hopen).short
  by_contra hzero
  unfold requiredAccepts at hshort
  rw [if_pos (by omega)] at hshort
  omega

/-- A step that completes a transaction with a success is acknowledged, unless the last
connected target goes away in it or the policy asks for more than there is. -/
theorem Settled.acknowledged_iff (h : s.Settled) (hopen : s.completion = none) {e : DispatchEvent R}
    {r : DispatchResult R} (hsuccess : (s.step e).completion = some (.succeeded r)) :
    (s.step e).Acknowledged ↔ ¬ s.LosesLast e ∧ ¬ s.options.ack.Exceeds := by
  have hcases := step_cases s e
  generalize s.step e = t at hcases hsuccess
  cases hcases with
  | still => rw [hopen] at hsuccess; cases hsuccess
  | failed failure => cases hsuccess
  | moved peer next peers _ hmove hnext =>
    have hactive := activeCount_moved (h.activeCount_pos hopen) hmove hnext
    have hevaluated := evaluate_cases (s := { s with peers := peers }) hopen
    generalize evaluate { s with peers := peers } = t at hevaluated hsuccess
    cases hevaluated with
    | failed failure => cases hsuccess
    | goesOn => rw [hopen] at hsuccess; cases hsuccess
    | succeeded hmet =>
      rw [← hactive]
      constructor
      · intro hack
        have hpos : 0 < activeCount { s with peers := peers } := hack.connected
        exact ⟨by omega, (met_of_required hpos hmet).mp hack.met⟩
      · intro hcond
        have hpos : 0 < activeCount { s with peers := peers } := by omega
        exact ⟨hpos, (met_of_required hpos hmet).mpr hcond.2⟩

theorem evaluate_options (s : DispatchState R) : s.evaluate.options = s.options := by
  cases hdone : s.completion with
  | some c =>
    unfold evaluate
    rw [hdone]
    rfl
  | none =>
    have hcases := evaluate_cases hdone
    generalize s.evaluate = t at hcases
    cases hcases <;> rfl

theorem step_options (s : DispatchState R) (e : DispatchEvent R) :
    (s.step e).options = s.options := by
  have hcases := step_cases s e
  generalize s.step e = t at hcases
  cases hcases with
  | still | failed => rfl
  | moved => exact evaluate_options _

theorem run_options (s : DispatchState R) (events : List (DispatchEvent R)) :
    (s.run events).options = s.options := by
  induction events generalizing s with
  | nil => rfl
  | cons e rest ih => exact (ih (s.step e)).trans (step_options s e)

/-- A transaction before its first evaluation. -/
def unevaluated (txId : UInt64) (command : UInt8) (options : DispatchOptions)
    (targets : List PeerId) (now : Nat) : DispatchState R :=
  { txId := txId
    command := command
    options := options
    peers := targets.map fun peer => { peer := peer, state := .pending }
    completion := none
    startInstant := now
    timeout := options.timeout }

theorem counts_unevaluated (txId : UInt64) (command : UInt8) (options : DispatchOptions)
    (targets : List PeerId) (now : Nat) :
    (unevaluated txId command options targets now : DispatchState R).acceptedCount = 0 ∧
      (unevaluated txId command options targets now : DispatchState R).failedCount = 0 ∧
      (unevaluated txId command options targets now : DispatchState R).activeCount =
        targets.length := by
  refine ⟨?_, ?_, ?_⟩
  · simp [acceptedCount, unevaluated, List.countP_map, Function.comp_def,
      DispatchPeerState.isAccepted]
  · simp [failedCount, unevaluated, List.countP_map, Function.comp_def,
      DispatchPeerState.isFailed]
  · simp [activeCount, unevaluated, List.countP_map, Function.comp_def,
      DispatchPeerState.isConnected]

/-- A transaction with a target does not begin as a success. -/
theorem begin_not_succeeded (txId : UInt64) (command : UInt8) (options : DispatchOptions)
    {targets : List PeerId} (hne : targets ≠ []) (now : Nat) (r : DispatchResult R) :
    (beginTransaction txId command options targets now).completion ≠ some (.succeeded r) := by
  intro hsuccess
  change (unevaluated txId command options targets now).evaluate.completion = _ at hsuccess
  obtain ⟨haccepted, _, hactive⟩ := counts_unevaluated (R := R) txId command options targets now
  have hpos := List.length_pos_iff.mpr hne
  have hcases := evaluate_cases (s := unevaluated (R := R) txId command options targets now) rfl
  generalize (unevaluated txId command options targets now).evaluate = t at hcases hsuccess
  cases hcases with
  | failed => cases hsuccess
  | goesOn => cases hsuccess
  | succeeded hmet =>
    have hnone : (unevaluated (R := R) txId command options targets now).requiredAccepts = 0 := by
      omega
    unfold requiredAccepts at hnone
    rw [if_neg (by omega)] at hnone
    cases hpolicy : (unevaluated (R := R) txId command options targets now).options.ack.policy <;>
      rw [hpolicy] at hnone <;> dsimp only at hnone <;> omega

/-- A transaction with targets succeeds with the acknowledgements its policy asks for,
except where the last connected target disconnects, and where the policy asks for more
than a hundred percent. -/
theorem success_acknowledged_iff (txId : UInt64) (command : UInt8) (options : DispatchOptions)
    {targets : List PeerId} (hne : targets ≠ []) (now : Nat) :
    (∀ r : DispatchResult R,
      (beginTransaction txId command options targets now).completion ≠ some (.succeeded r)) ∧
    ∀ (events : List (DispatchEvent R)) (e : DispatchEvent R) (r : DispatchResult R),
      ((beginTransaction txId command options targets now).run events).completion = none →
      (((beginTransaction txId command options targets now).run events).step e).completion =
        some (.succeeded r) →
      ((((beginTransaction txId command options targets now).run events).step e).Acknowledged ↔
        ¬ ((beginTransaction txId command options targets now).run events).LosesLast e ∧
          ¬ options.ack.Exceeds) := by
  constructor
  · exact begin_not_succeeded txId command options hne now
  · intro events e r hopen hsuccess
    have hsettled := settled_run (R := R) (settled_begin txId command options targets now) events
    have hoptions : ((beginTransaction txId command options targets now).run events :
        DispatchState R).options = options := by
      rw [run_options]
      exact evaluate_options _
    rw [hsettled.acknowledged_iff hopen hsuccess, hoptions]

/-- A quorum of three, by the second acceptance. -/
theorem success_acknowledged_quorum :
    (((beginTransaction 7 3 .default [1, 2, 3] 0).run [.accept 1 ()]).step
      (.accept 2 ())).Acknowledged :=
  ((success_acknowledged_iff 7 3 .default (List.cons_ne_nil 1 [2, 3]) 0).2
    [.accept 1 ()] (.accept 2 ()) _ (by decide) rfl).mpr (by decide)

/-- A transaction whose only target disconnects. -/
def deserted : DispatchState Unit :=
  (beginTransaction 7 3 .default [1] 0).step (.disconnect 1)

/-- It is a success. -/
theorem success_unacknowledged :
    (beginTransaction 7 3 .default [1] 0 : DispatchState Unit).completion = none ∧
      deserted.completion = some (.succeeded deserted.resultSnapshot) ∧
      deserted.acceptedCount = 0 ∧ deserted.activeCount = 0 ∧ ¬ deserted.Acknowledged := by
  refine ⟨by decide, rfl, by decide, by decide, ?_⟩
  intro hack
  exact absurd hack.connected (by decide)

end DispatchState

end ArbitroRaft
