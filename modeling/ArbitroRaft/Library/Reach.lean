import Mathlib.Data.List.Basic

/-!
# Runs of a step function

The states a partial step function reaches through steps that are each admitted
where they are taken, and the rule that carries an invariant along them.
-/

namespace ArbitroRaft.Library

variable {S A : Type*}

/-- States reached from `s` through admitted steps. -/
inductive Reaches (step : S → A → Option S) (admits : S → A → Prop) (s : S) : S → Prop where
  | refl : Reaches step admits s s
  | next {t u : S} (a : A) : Reaches step admits s t → admits t a → step t a = some u →
      Reaches step admits s u

variable {step : S → A → Option S} {admits : S → A → Prop}

/-- A property of the start that every admitted step preserves holds throughout. -/
theorem Reaches.invariant {I : S → Prop} {s t : S} (h : Reaches step admits s t) (hs : I s)
    (hstep : ∀ u v a, I u → admits u a → step u a = some v → I v) : I t := by
  induction h with
  | refl => exact hs
  | next a _ hadmits hnext ih => exact hstep _ _ a ih hadmits hnext

/-- Run a list of actions. -/
def runSteps (step : S → A → Option S) : S → List A → Option S
  | s, [] => some s
  | s, a :: as => (step s a).bind fun t => runSteps step t as

/-- A list of steps that are admitted wherever they are taken. -/
theorem Reaches.steps {s t u : S} {as : List A} (h : Reaches step admits s t)
    (hrun : runSteps step t as = some u) (ha : ∀ a ∈ as, ∀ v, admits v a) :
    Reaches step admits s u := by
  induction as generalizing t with
  | nil =>
    cases hrun
    exact h
  | cons a as ih =>
    obtain ⟨v, hv, hrest⟩ := Option.bind_eq_some_iff.mp hrun
    exact ih (h.next a (ha a List.mem_cons_self t) hv) hrest
      fun b hb => ha b (List.mem_cons_of_mem a hb)

/-- Run a list of actions, each behind a check. -/
def runChecked (step : S → A → Option S) (ok : S → A → Bool) : S → List A → Option S
  | s, [] => some s
  | s, a :: as => if ok s a then (step s a).bind fun t => runChecked step ok t as else none

/-- A list of steps that were checked where they were taken. -/
theorem Reaches.checked {ok : S → A → Bool} (hok : ∀ v a, ok v a = true → admits v a) {s t u : S}
    {as : List A} (h : Reaches step admits s t) (hrun : runChecked step ok t as = some u) :
    Reaches step admits s u := by
  induction as generalizing t with
  | nil =>
    cases hrun
    exact h
  | cons a as ih =>
    obtain ⟨ha, hrun⟩ := Option.ite_none_right_eq_some.mp hrun
    obtain ⟨v, hv, hrest⟩ := Option.bind_eq_some_iff.mp hrun
    exact ih (h.next a (hok t a ha) hv) hrest

end ArbitroRaft.Library
