import Mathlib.Logic.Relation
import Mathlib.Order.Defs.Unbundled

/-!
# What a fallible stateful computation does to its state

A computation of `EStateM` keeps the state it reached when it fails, so a
specification has to speak of both outcomes.  `Emits R m s Q` says that `m`
started in `s` ends in a state `R`-related to `s` whichever way it ends, and in
a result satisfying `Q` when it returns.  With `R` the closure of a relation of
primitive changes this reads: a run of `m` is a chain of such changes.

There is one rule for each operation of the monad.  `Ends m s Q E` is the plain
triple with a postcondition for each outcome.
-/

namespace ArbitroRaft.Library

universe u

variable {ε σ : Type u} {α β : Type u}

/-! ## Running a computation -/

section Run

variable {m : EStateM ε σ β} {f : β → EStateM ε σ α} {s s' : σ}

theorem bind_of_ok {b : β} (h : m s = .ok b s') : (m >>= f) s = f b s' := by
  change EStateM.bind m f s = _
  rw [EStateM.bind, h]

theorem bind_of_error {e : ε} (h : m s = .error e s') : (m >>= f) s = .error e s' := by
  change EStateM.bind m f s = _
  rw [EStateM.bind, h]

/-- What follows depends on how the first part ends only. -/
theorem bind_of_eq {m' : EStateM ε σ β} (h : m s = m' s') : (m >>= f) s = (m' >>= f) s' := by
  change EStateM.bind m f s = EStateM.bind m' f s'
  rw [EStateM.bind, EStateM.bind, h]

/-- A sequence that returns: both parts did. -/
theorem ok_of_bind {a : α} {s'' : σ} (h : (m >>= f) s = .ok a s'') :
    ∃ b s', m s = .ok b s' ∧ f b s' = .ok a s'' := by
  change EStateM.bind m f s = _ at h
  unfold EStateM.bind at h
  cases hm : m s with
  | ok b s' =>
    rw [hm] at h
    exact ⟨b, s', rfl, h⟩
  | error e s' =>
    rw [hm] at h
    cases h

theorem get_bind {f : σ → EStateM ε σ α} : (get >>= f) s = f s s := rfl

theorem set_bind {f : PUnit → EStateM ε σ α} : (set s' >>= f) s = f ⟨⟩ s' := rfl

theorem modify_bind {g : σ → σ} {f : PUnit → EStateM ε σ α} :
    (modify g >>= f) s = f ⟨⟩ (g s) := rfl

theorem tryCatch_of_ok {b : β} {c : ε → EStateM ε σ β} (h : m s = .ok b s') :
    (tryCatch m c : EStateM ε σ β) s = .ok b s' := by
  change EStateM.tryCatch m c s = _
  unfold EStateM.tryCatch
  rw [h]

/-- The state survives the error. -/
theorem tryCatch_of_error {e : ε} {c : ε → EStateM ε σ β} (h : m s = .error e s') :
    (tryCatch m c : EStateM ε σ β) s = c e s' := by
  change EStateM.tryCatch m c s = _
  unfold EStateM.tryCatch
  rw [h]
  rfl

/-- The state behind a run. -/
def final : EStateM.Result ε σ α → σ
  | .ok _ s => s
  | .error _ s => s

end Run

/-! ## Two postconditions -/

/-- From `s`, `m` returns into `Q` or fails into `E`. -/
def Ends (m : EStateM ε σ α) (s : σ) (Q : α → σ → Prop) (E : σ → Prop) : Prop :=
  match m s with
  | .ok a s' => Q a s'
  | .error _ s' => E s'

namespace Ends

variable {s s' : σ} {Q : α → σ → Prop} {E : σ → Prop}

variable {m : EStateM ε σ α}

theorem mono {Q' : α → σ → Prop} {E' : σ → Prop} (h : Ends m s Q E) (hQ : ∀ a s', Q a s' → Q' a s')
    (hE : ∀ s', E s' → E' s') : Ends m s Q' E' := by
  unfold Ends at h ⊢
  cases hm : m s with
  | ok a s' =>
    rw [hm] at h
    exact hQ a s' h
  | error e s' =>
    rw [hm] at h
    exact hE s' h

theorem mono_error {E' : σ → Prop} (h : Ends m s Q E) (hE : ∀ s', E s' → E' s') : Ends m s Q E' :=
  h.mono (fun _ _ h => h) hE

/-- Nothing is asked. -/
theorem any : Ends m s (fun _ _ => True) (fun _ => True) := by
  unfold Ends
  split <;> exact True.intro

/-- A computation that does not fail returns. -/
theorem returns (h : Ends m s Q fun _ => False) : ∃ a s', m s = .ok a s' ∧ Q a s' := by
  unfold Ends at h
  cases hm : m s with
  | ok a s' =>
    rw [hm] at h
    exact ⟨a, s', rfl, h⟩
  | error e s' =>
    rw [hm] at h
    exact h.elim

theorem ret {a : α} (h : Q a s) : Ends (pure a : EStateM ε σ α) s Q E := h

theorem fail {e : ε} (h : E s) : Ends (throw e : EStateM ε σ α) s Q E := h

theorem seq {P : β → σ → Prop} {m : EStateM ε σ β} {f : β → EStateM ε σ α}
    (h : Ends m s P E) (k : ∀ b s', P b s' → Ends (f b) s' Q E) : Ends (m >>= f) s Q E := by
  unfold Ends at h
  cases hm : m s with
  | ok b s' =>
    rw [hm] at h
    have hk := k b s' h
    unfold Ends at hk ⊢
    rwa [bind_of_ok hm]
  | error e s' =>
    rw [hm] at h
    unfold Ends
    rwa [bind_of_error hm]

theorem read {f : σ → EStateM ε σ α} (k : Ends (f s) s Q E) : Ends (get >>= f) s Q E := k

theorem updateSeq {g : σ → σ} {f : PUnit → EStateM ε σ α} (k : Ends (f ⟨⟩) (g s) Q E) :
    Ends (modify g >>= f) s Q E := k

theorem put {Q : PUnit → σ → Prop} (h : Q ⟨⟩ s') :
    Ends (set s' : EStateM ε σ PUnit) s Q E := h

theorem putSeq {f : PUnit → EStateM ε σ α} (k : Ends (f ⟨⟩) s' Q E) :
    Ends (set s' >>= f) s Q E := k

/-- The handler starts where the computation failed. -/
theorem recover {F : σ → Prop} {c : ε → EStateM ε σ α} (h : Ends m s Q F)
    (k : ∀ e s', F s' → Ends (c e) s' Q E) : Ends (tryCatch m c) s Q E := by
  unfold Ends at h ⊢
  change match EStateM.tryCatch m c s with
    | .ok a s' => Q a s'
    | .error _ s' => E s'
  unfold EStateM.tryCatch
  cases hm : m s with
  | ok a s' =>
    rw [hm] at h
    exact h
  | error e s' =>
    rw [hm] at h
    exact k e s' h

/-- An error handler that cleans up and passes the error on. -/
theorem cleanup {g : σ → σ} (h : Ends m s Q fun s' => E (g s')) :
    Ends (tryCatch m fun e => do modify g; throw e) s Q E :=
  h.recover fun _ _ hs => hs

theorem of_ok {a : α} (h : Ends m s Q E) (hm : m s = .ok a s') : Q a s' := by
  unfold Ends at h
  rwa [hm] at h

theorem of_error {e : ε} (h : Ends m s Q E) (hm : m s = .error e s') : E s' := by
  unfold Ends at h
  rwa [hm] at h

end Ends

/-! ## A relation and a postcondition -/

/-- Both outcomes of `m` from `s` are `R`-related to `s`; a result satisfies
`Q`. -/
def Emits (R : σ → σ → Prop) (m : EStateM ε σ α) (s : σ) (Q : α → σ → Prop) : Prop :=
  match m s with
  | .ok a s' => R s s' ∧ Q a s'
  | .error _ s' => R s s'

theorem Ends.of_emits {R : σ → σ → Prop} {m : EStateM ε σ α} {s : σ} {Q : α → σ → Prop}
    (h : Emits R m s Q) : Ends m s (fun a s' => R s s' ∧ Q a s') (R s) := h

namespace Emits

variable {R : σ → σ → Prop} {s s' : σ} {Q : α → σ → Prop}

variable {m : EStateM ε σ α}

theorem of_ends (h : Ends m s (fun a s' => R s s' ∧ Q a s') (R s)) : Emits R m s Q := h

/-- A run seen from an earlier state. -/
theorem since [IsTrans σ R] {t : σ} (hR : R t s) (h : Emits R m s Q) :
    Ends m s (fun a s' => R t s' ∧ Q a s') (R t) :=
  (Ends.of_emits h).mono (fun _ _ hs => ⟨trans_of R hR hs.1, hs.2⟩) fun _ hs => trans_of R hR hs

theorem mono {P : α → σ → Prop} (h : Emits R m s P) (hPQ : ∀ a s', R s s' → P a s' → Q a s') :
    Emits R m s Q :=
  .of_ends ((Ends.of_emits h).mono (fun a s' hs => ⟨hs.1, hPQ a s' hs.1 hs.2⟩) fun _ hs => hs)

theorem of_ok {a : α} (h : Emits R m s Q) (hm : m s = .ok a s') : R s s' ∧ Q a s' :=
  (Ends.of_emits h).of_ok hm

/-- Forget the result. -/
theorem trivial {P : α → σ → Prop} (h : Emits R m s P) : Emits R m s (fun _ _ => True) :=
  h.mono fun _ _ _ _ => True.intro

theorem weaken {R' : σ → σ → Prop} (h : Emits R m s Q) (hR : ∀ s', R s s' → R' s s') :
    Emits R' m s Q :=
  .of_ends ((Ends.of_emits h).mono (fun _ s' hs => ⟨hR s' hs.1, hs.2⟩) hR)

theorem and {R' : σ → σ → Prop} {Q' : α → σ → Prop} (h : Emits R m s Q) (h' : Emits R' m s Q') :
    Emits (fun s s' => R s s' ∧ R' s s') m s (fun a s' => Q a s' ∧ Q' a s') := by
  unfold Emits at h h' ⊢
  split
  · rename_i a s' hm
    rw [hm] at h h'
    exact ⟨⟨h.1, h'.1⟩, h.2, h'.2⟩
  · rename_i e s' hm
    rw [hm] at h h'
    exact ⟨h, h'⟩

theorem ret [Std.Refl R] {a : α} (h : Q a s) : Emits R (pure a : EStateM ε σ α) s Q :=
  ⟨refl_of R s, h⟩

theorem fail [Std.Refl R] {e : ε} : Emits R (throw e : EStateM ε σ α) s Q :=
  refl_of R s

theorem put {Q : PUnit → σ → Prop} (h : R s s') (hQ : Q ⟨⟩ s') :
    Emits R (set s' : EStateM ε σ PUnit) s Q :=
  ⟨h, hQ⟩

theorem update {g : σ → σ} {Q : PUnit → σ → Prop} (h : R s (g s)) (hQ : Q ⟨⟩ (g s)) :
    Emits R (modify g : EStateM ε σ PUnit) s Q :=
  ⟨h, hQ⟩

theorem seq [IsTrans σ R] {P : β → σ → Prop} {m : EStateM ε σ β}
    {f : β → EStateM ε σ α} (h : Emits R m s P)
    (k : ∀ b s', R s s' → P b s' → Emits R (f b) s' Q) : Emits R (m >>= f) s Q :=
  .of_ends ((Ends.of_emits h).seq fun b s' hs => (k b s' hs.1 hs.2).since hs.1)

theorem next [IsTrans σ R] {m : EStateM ε σ β} {f : β → EStateM ε σ α}
    (h : Emits R m s fun _ _ => True) (k : ∀ b s', R s s' → Emits R (f b) s' Q) :
    Emits R (m >>= f) s Q :=
  h.seq fun b s' hs _ => k b s' hs

/-- The beginning of a run may be taken as one change. -/
theorem of_run [IsTrans σ R] {m k : EStateM ε σ α} (hrun : m s = k s') (hR : R s s')
    (hk : Emits R k s' Q) : Emits R m s Q := by
  have hends := hk.since hR
  unfold Ends at hends
  unfold Emits
  rwa [hrun]

theorem read [Std.Refl R] [IsTrans σ R] {f : σ → EStateM ε σ α}
    (k : Emits R (f s) s Q) : Emits R (get >>= f) s Q := by
  have hget : Emits R (get : EStateM ε σ σ) s (fun a s' => a = s ∧ s' = s) :=
    ⟨refl_of R s, rfl, rfl⟩
  refine hget.seq ?_
  rintro _ _ - ⟨rfl, rfl⟩
  exact k

theorem putSeq [IsTrans σ R] {f : PUnit → EStateM ε σ α} (h : R s s')
    (k : Emits R (f ⟨⟩) s' Q) : Emits R (set s' >>= f) s Q := by
  refine seq (put (Q := fun _ t => t = s') h rfl) ?_
  rintro _ _ - rfl
  exact k

theorem updateSeq [IsTrans σ R] {g : σ → σ} {f : PUnit → EStateM ε σ α}
    (h : R s (g s)) (k : Emits R (f ⟨⟩) (g s) Q) : Emits R (modify g >>= f) s Q := by
  refine seq (update (Q := fun _ t => t = g s) h rfl) ?_
  rintro _ _ - rfl
  exact k

/-- What follows returns. -/
theorem returns [Std.Refl R] [IsTrans σ R] {m : EStateM ε σ β} {f : β → α}
    (h : Emits R m s fun _ _ => True) : Emits R (do let b ← m; return f b) s fun _ _ => True :=
  h.next fun _ _ _ => ret True.intro

theorem recover [IsTrans σ R] {c : ε → EStateM ε σ α} (h : Emits R m s Q)
    (k : ∀ e s', R s s' → Emits R (c e) s' Q) : Emits R (tryCatch m c) s Q :=
  .of_ends ((Ends.of_emits h).recover fun e s' hs => (k e s' hs).since hs)

end Emits

/-! ## Invariants -/

/-- `m` preserves `P`, whichever way it ends. -/
def Preserves (P : σ → Prop) (m : EStateM ε σ α) : Prop :=
  ∀ s, P s → Ends m s (fun _ => P) P

namespace Preserves

variable {P : σ → Prop}

theorem ret (a : α) : Preserves P (pure a : EStateM ε σ α) := fun _ hs => .ret hs

theorem fail (e : ε) : Preserves P (throw e : EStateM ε σ α) := fun _ hs => .fail hs

theorem step {g : σ → σ} (h : ∀ s, P s → P (g s)) : Preserves P (modify g : EStateM ε σ PUnit) :=
  fun s hs => h s hs

theorem bind {m : EStateM ε σ β} {f : β → EStateM ε σ α} (h : Preserves P m)
    (k : ∀ b, Preserves P (f b)) : Preserves P (m >>= f) :=
  fun s hs => (h s hs).seq fun b s' hs' => k b s' hs'

theorem read {f : σ → EStateM ε σ α} (k : ∀ s, Preserves P (f s)) : Preserves P (get >>= f) :=
  fun s hs => k s s hs

theorem recover {m : EStateM ε σ α} {c : ε → EStateM ε σ α} (h : Preserves P m)
    (k : ∀ e, Preserves P (c e)) : Preserves P (tryCatch m c) :=
  fun s hs => (h s hs).recover fun e s' hs' => k e s' hs'

theorem ite {c : Prop} [Decidable c] {m m' : EStateM ε σ α} (h : Preserves P m)
    (h' : Preserves P m') : Preserves P (if c then m else m') := by
  split
  · exact h
  · exact h'

end Preserves

end ArbitroRaft.Library
