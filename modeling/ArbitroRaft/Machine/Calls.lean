import ArbitroRaft.Machine.Action

/-!
# What a call leaves behind

The state behind a call, in terms of the actions the call is made of.  To discard
a result or to tolerate an error keeps the state that was reached (`after_ignore`,
`after_handleInboundTolerant`), so a frame that is drained does what the action
that handles it does, and a list of frames what every one of them does:
`drainFrames_keeps`.  `ends_after` and `emits_after` turn a fact about the state
left behind into a postcondition of both outcomes.
-/

namespace ArbitroRaft

open Library

section

variable {n : RaftNode} {α : Type}

theorem after_return {α β : Type} (m : RaftM α) (b : β) (n : RaftNode) :
    (m >>= fun _ => pure b : RaftM β).after n = m.after n := by
  unfold RaftM.after EStateM.run
  cases hm : m n with
  | ok a n' =>
    rw [bind_of_ok hm]
    rfl
  | error e n' => rw [bind_of_error hm]

theorem after_ignore (m : RaftM α) (n : RaftNode) : (RaftM.ignore m).after n = m.after n :=
  after_return m () n

/-- Tolerating an error keeps the state it left behind. -/
theorem after_caught {α : Type} (m : RaftM α) (fatal : RaftError → Bool) (a : α) (n : RaftNode) :
    (tryCatch m fun e => if fatal e then throw e else pure a : RaftM α).after n = m.after n := by
  unfold RaftM.after EStateM.run
  cases hm : m n with
  | ok x n' => rw [tryCatch_of_ok hm]
  | error e n' =>
    rw [tryCatch_of_error hm]
    cases fatal e <;> rfl

/-- A frame whose error is tolerated leaves the state its handler leaves. -/
theorem after_handleInboundTolerant (f : InboundRaftMessage) (n : RaftNode) :
    (handleInboundTolerant f).after n = (Action.inbound f).run n :=
  after_caught (handleInbound f) RaftError.isFatal () n

/-- Both postconditions are about the state the computation leaves. -/
theorem ends_after {m : RaftM α} {P : RaftNode → Prop} (h : P (m.after n)) :
    Ends m n (fun _ => P) P := by
  unfold RaftM.after EStateM.run at h
  unfold Ends
  split
  all_goals
    rename_i hm
    rwa [hm] at h

theorem emits_after {m : RaftM α} {R : RaftNode → RaftNode → Prop} (h : R n (m.after n)) :
    Emits R m n (fun _ _ => True) :=
  (ends_after h).mono (fun _ _ h => ⟨h, trivial⟩) fun _ h => h

end

/-! ## Frames -/

section

variable {R : RaftNode → RaftNode → Prop} [Std.Refl R] [IsTrans RaftNode R] {n : RaftNode}

theorem tolerate_keeps {m : RaftM Unit} (h : Emits R m n (fun _ _ => True)) :
    Emits R (tolerate m) n (fun _ _ => True) := by
  unfold tolerate
  refine .recover h ?_
  intro e n' _
  split
  · exact .fail
  · exact .ret trivial

/-- What every frame does, a list of frames does. -/
theorem drainFrames_keeps {fs : List InboundRaftMessage}
    (h : ∀ f ∈ fs, ∀ n, R n ((Action.inbound f).run n)) :
    Emits R (drainFrames fs) n (fun _ _ => True) := by
  induction fs generalizing n with
  | nil => exact .ret trivial
  | cons f fs ih =>
    have hone : Emits R (handleInbound f) n (fun _ _ => True) :=
      emits_after (h f List.mem_cons_self n)
    unfold drainFrames
    exact (tolerate_keeps hone).next fun _ _ _ => ih fun g hg => h g (List.mem_cons_of_mem f hg)

end

end ArbitroRaft
