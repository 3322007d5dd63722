import ArbitroRaft.Machine.Calls
import ArbitroRaft.Machine.Spares
import ArbitroRaft.Membership.Changes

/-!
# Invariants of a host

Whatever a node does, it does through effects; a membership call that fails also
takes its change back.  A property that survives both, a new environment and a
restart holds in every state a host reaches.
-/

namespace ArbitroRaft

open Library

/-- What every step of a host keeps. -/
structure Hosted (J : RaftNode → Prop) : Prop where
  within : ∀ n env, J n → J (n.within env)
  effect : ∀ (sc : Scope) n n', ¬ sc.strict → J n → Effect sc n n' → J n'
  revert : ∀ (c : ConfigCall) n, J n → J (c.revert n)
  restart : ∀ config n env, J n → J (RaftNode.fromStorage config n.storage n.sent env)

/-- A call may put a change in force. -/
def activationScope : Scope where
  rx _ := False
  stands _ := False
  crowns _ := False
  demotes _ := True
  appends := False
  batch _ := False
  restores := False
  compacts := False
  control := True
  change _ := True
  gather _ := False
  pends _ _ := False
  strict := False
  fresh _ := True

namespace Hosted

variable {J : RaftNode → Prop} {n n' : RaftNode} {c : ConfigCall} {α : Type}
  {rx : InboundRaftMessage → Prop} {batch : List EntryPayload → Prop} {sc : Scope}
  (hJ : Hosted J)

include hJ

theorem moves (hns : ¬ sc.strict) (h : Moves sc n n') (hn : J n) : J n' :=
  h.preserves hns hn fun m m' hm he => hJ.effect sc m m' hns hm he

theorem emits (hns : ¬ sc.strict) {m : RaftM α} {Q : α → RaftNode → Prop}
    (hm : Emits (Moves sc) m n Q) (hn : J n) : Ends m n (fun _ => J) J :=
  (Ends.of_emits hm).mono (fun _ _ h => hJ.moves hns h.1 hn) fun _ h => hJ.moves hns h hn

theorem undo (hn : J n) : J (c.undo n) := by
  unfold ConfigCall.undo
  split
  · exact hJ.revert c n hn
  · exact hn

theorem guard (hns : ¬ sc.strict) {m : RaftM α} {Q : α → RaftNode → Prop}
    (hm : Emits (Moves sc) m n Q) (hn : J n) : Ends (c.guard m) n (fun _ => J) J :=
  .cleanup ((hJ.emits hns hm hn).mono (fun _ _ h => h) fun _ h => hJ.undo h)

theorem activateAndPropose (entry : ConfigChangeEntry) (hn : J n) :
    Ends (activateAndPropose entry) n (fun _ => J) J := by
  have happly : Emits (Moves activationScope) (applyConfigChange entry) n
      (fun _ n' => SameLog n n') :=
    applyConfigChange_emits trivial trivial fun _ => trivial
  unfold ArbitroRaft.activateAndPropose
  refine .read ((hJ.emits (fun hs => hs) happly hn).seq ?_)
  intro _ n₁ hn₁
  refine (hJ.guard (fun hs => hs) startProposeOnce_emits hn₁).seq ?_
  intro g n₂ hn₂
  exact .ret hn₂

theorem openCall (r : ConfigRequest) (hn : J n) : Ends (openCall r) n (fun _ => J) J := by
  unfold ArbitroRaft.openCall
  refine .read ?_
  split
  · exact .fail hn
  · exact .ret hn
  · refine (hJ.activateAndPropose _ hn).seq ?_
    intro c n' h
    exact .ret h

theorem gatherCall (f : InboundRaftMessage) (hn : J n) :
    Ends (gatherCall f c) n (fun _ => J) J :=
  (hJ.guard (fun hs => hs) (gatherFrame_called f c.gather) hn).seq fun _ _ h => .ret h

theorem commitCall (hn : J n) : Ends (commitCall c) n (fun _ => J) J :=
  (hJ.guard (fun hs => hs) (finishPropose_called c.gather) hn).seq fun _ _ h => .ret h

theorem drainCall (f : InboundRaftMessage) (hn : J n) : Ends (drainCall f c) n (fun _ => J) J :=
  (hJ.guard (fun hs => hs) (handleInboundTolerant_called f) hn).seq fun _ _ h => .ret h

theorem closeCall (hn : J n) : Ends (closeCall c) n (fun _ => J) J := by
  unfold ArbitroRaft.closeCall
  refine (hJ.guard (fun hs => hs) firstIndex_called hn).seq ?_
  intro _ n₁ hn₁
  split
  · refine .read ((hJ.emits (fun hs => hs) startProposeOnce_emits hn₁).seq ?_)
    exact fun _ _ h => .ret h
  · exact .ret hn₁

/-- A step of a host keeps what its effects keep. -/
theorem step {h h' : Host} {env : Env} {a : HostAct} (hn : J h.node)
    (hstep : h.step env a = some h') : J h'.node := by
  have hw := hJ.within _ env hn
  cases Host.step_inv hstep with
  | request r => exact Ends.resumed (J := fun _ => J) (hJ.openCall r hw)
  | gather f c => exact Ends.resumed (J := fun _ => J) (hJ.gatherCall f hw)
  | commit c => exact Ends.resumed (J := fun _ => J) (hJ.commitCall hw)
  | drain f c => exact Ends.resumed (J := fun _ => J) (hJ.drainCall f hw)
  | close c => exact Ends.resumed (J := fun _ => J) (hJ.closeCall hw)
  | act a => exact Action.preserves hw fun m m' hm he => hJ.effect _ m m' (fun hs => hs) hm he
  | restart config m hnew =>
    rw [RaftNode.new_eq hnew]
    exact hJ.restart config _ _ hw

end Hosted

/-! ## What a call leaves alone -/

section Sparing

variable {P : Part → Prop} {n : RaftNode} {α : Type}

theorem ConfigCall.spares_undo (c : ConfigCall) (n : RaftNode) : Spares P n (c.undo n) := by
  have hsettle : ∀ m : RaftNode, Spares P n m → Spares P n m.settleConfig :=
    fun m hm => trans_of (Spares P) hm (.of_side (.settleConfig m))
  unfold ConfigCall.undo ConfigCall.revert
  split
  · split
    · exact hsettle _ (.same rfl rfl rfl rfl)
    · exact refl_of (Spares P) n
    · exact hsettle _ (.same rfl rfl rfl rfl)
    · exact hsettle _ (.same rfl rfl rfl rfl)
  · exact refl_of (Spares P) n

/-- The undoing of a part that fails touches the configuration only. -/
theorem ConfigCall.guard_ends {J : RaftNode → Prop} (c : ConfigCall) {m : RaftM α}
    (hJ : ∀ n n', J n → Spares P n n' → J n') (h : Ends m n (fun _ => J) J) :
    Ends (c.guard m) n (fun _ => J) J :=
  .cleanup (h.mono_error fun n' hn' => hJ _ _ hn' (c.spares_undo n'))

theorem ConfigCall.guard_spares (c : ConfigCall) {m : RaftM α} (h : Sparing P m n) :
    Sparing P (c.guard m) n := by
  refine .recover h fun e n' _ => ?_
  exact .updateSeq (c.spares_undo n') Emits.fail

theorem startProposeOnce_spares (payload : EntryPayload) :
    Sparing P (startProposeOnce payload) n := by
  unfold startProposeOnce
  have hstart : Sparing P (startPropose [payload]) n :=
    .silent (startPropose_emits [payload] trivial trivial trivial fun _ _ => trivial)
  refine hstart.next fun r _ _ => ?_
  cases r with
  | none => exact .fail
  | some g => exact .ret trivial

theorem openCall_spares (r : ConfigRequest) : Sparing P (openCall r) n := by
  unfold openCall
  refine .read ?_
  split
  · exact .fail
  · exact .ret trivial
  · refine .returns ?_
    unfold activateAndPropose
    refine .read ((Sparing.silent (applyConfigChange_emits trivial trivial fun _ => trivial)).next
      fun _ n' _ => ?_)
    exact (ConfigCall.guard_spares _ (startProposeOnce_spares _)).returns

theorem commitCall_spares (c : ConfigCall) : Sparing P (commitCall c) n :=
  (c.guard_spares (.silent (finishPropose_emits trivial fun _ _ _ _ => trivial))).returns

theorem closeCall_spares (c : ConfigCall) : Sparing P (closeCall c) n := by
  have hfirst : Sparing P firstIndex n := by
    unfold firstIndex
    refine .read ?_
    split
    · exact .fail
    · exact .ret trivial
  unfold closeCall
  refine (c.guard_spares hfirst).next fun _ n' _ => ?_
  split
  · exact .read ((startProposeOnce_spares _).returns)
  · exact .ret trivial

/-- An action, and what a call does behind it. -/
theorem ConfigCall.guard_action (c : ConfigCall) (b : Action) {m : RaftM α}
    (h : m.after n = b.run n) :
    Ends (c.guard m) n (fun _ => Spares P (b.run n)) (Spares P (b.run n)) := by
  refine c.guard_ends (fun _ _ => trans_of (Spares P)) (Ends.of_after ?_)
  rw [h]
  exact refl_of (Spares P) _

end Sparing

/-- The frame a step handles. -/
def HostAct.frame : HostAct → Option InboundRaftMessage
  | .gather f | .drain f => some f
  | .act a => a.frame
  | _ => none

/-- What one step of a host amounts to: parts of a call that handle no frame, an
action, or a restart. -/
inductive Host.Turn (n : RaftNode) (a : HostAct) : RaftNode → Prop where
  | quiet {n' : RaftNode} (hframe : a.frame = none) (h : Spares (fun _ => True) n n') :
      Host.Turn n a n'
  | acts (b : Action) {n' : RaftNode} (hframe : a.frame = b.frame)
      (h : Spares (fun _ => True) (b.run n) n') : Host.Turn n a n'
  | restart (config : NodeConfig) (ha : a = .restart config) :
      Host.Turn n a (RaftNode.fromStorage config n.storage n.sent n.env)

theorem Host.step_turn {h h' : Host} {env : Env} {a : HostAct}
    (hstep : h.step env a = some h') : Host.Turn (h.node.within env) a h'.node := by
  have hquiet : ∀ {m : RaftM (Option ConfigCall)},
      Sparing (fun _ => True) m (h.node.within env) → Spares (fun _ => True)
        (h.node.within env) (Host.resume m (h.node.within env)).node := by
    intro m hm
    refine Ends.resumed (J := fun _ => Spares (fun _ => True) (h.node.within env)) ?_
    exact (Ends.of_emits hm).mono (fun _ _ hs => hs.1) fun _ hs => hs
  have hacts : ∀ {m : RaftM (Option ConfigCall)} (b : Action),
      Ends m (h.node.within env) (fun _ => Spares (fun _ => True) (b.run (h.node.within env)))
        (Spares (fun _ => True) (b.run (h.node.within env))) → Spares (fun _ => True)
        (b.run (h.node.within env)) (Host.resume m (h.node.within env)).node :=
    fun b hm => Ends.resumed (J := fun _ => Spares (fun _ => True) (b.run (h.node.within env))) hm
  cases Host.step_inv hstep with
  | request r => exact .quiet rfl (hquiet (openCall_spares r))
  | gather f c =>
    refine .acts (.gatherFrame f c.gather) rfl (hacts _ ?_)
    exact (c.guard_action _ (after_ignore _ _).symm).seq fun _ _ hs => .ret hs
  | commit c => exact .quiet rfl (hquiet (commitCall_spares c))
  | drain f c =>
    refine .acts (.inbound f) rfl (hacts _ ?_)
    exact (c.guard_action _ (after_handleInboundTolerant f _)).seq fun _ _ hs => .ret hs
  | close c => exact .quiet rfl (hquiet (closeCall_spares c))
  | act b => exact .acts b rfl (refl_of (Spares _) _)
  | restart config m hnew =>
    rw [RaftNode.new_eq hnew]
    exact .restart config rfl

namespace Host

/-- A host with the environment of each step. -/
def stepIn (h : Host) (a : Env × HostAct) : Option Host := h.step a.1 a.2

/-- Whatever happens to a host. -/
abbrev Run (h h' : Host) : Prop := Reaches stepIn (fun _ _ => True) h h'

/-- A process that was just started, on any storage, with no call open. -/
def Started (h : Host) : Prop :=
  h.call = none ∧ ∃ config storage sent env,
    h.node = RaftNode.fromStorage config storage sent env

/-- An invariant that every started node satisfies holds along every run. -/
theorem Run.invariant {J : RaftNode → Prop} (hJ : Hosted J)
    (hstart : ∀ config storage sent env, J (RaftNode.fromStorage config storage sent env))
    {h h' : Host} (hb : h.Started) (hrun : h.Run h') : J h'.node := by
  obtain ⟨-, config, storage, sent, env, hnode⟩ := hb
  refine Reaches.invariant (I := fun h => J h.node) hrun ?_ ?_
  · rw [hnode]
    exact hstart config storage sent env
  · intro u v a hu _ hstep
    exact hJ.step hu hstep

end Host

end ArbitroRaft
