import ArbitroRaft.Membership.Hosted
import ArbitroRaft.Node.GroupDriver

/-!
# The sanction of a `TimeoutNow` and the term it was given in

A run is watched with one bit: a `TimeoutNow` was accepted and the term has not
changed since.  In the driver of a single group the bit is set whenever a campaign
starts without a pre-vote.  In the `MultiRaftDriver` the flag of the timers outlives
the term, and the bit is set as long as no term passes while the flag waits.

## Main results

* `forced_campaign_in_term`: both halves of this, over every run.
-/

namespace ArbitroRaft

open Library

/-- The handler accepts the `TimeoutNow` that `f` is. -/
def RaftNode.acceptsSanction (n : RaftNode) (f : InboundRaftMessage) : Bool :=
  match f.message with
  | .timeoutNow msg =>
    decide (n.hardState.currentTerm ≤ msg.term) &&
      match observeTerm msg.term (n.stampContact f) with
      | .ok _ n' => n'.acceptsTimeoutNow f.sender msg
      | .error _ _ => false
  | _ => false

/-- The action handles a `TimeoutNow` that is accepted. -/
def Action.sanctions (a : Action) (n : RaftNode) : Bool := a.frame.any n.acceptsSanction

/-- The sanction is written for the term of its acceptance, or stays. -/
structure Arms (armed : Bool) (n n' : RaftNode) : Prop where
  rises : n.hardState.currentTerm ≤ n'.hardState.currentTerm
  field : n'.forcedCampaignTerm =
    if armed then some n'.hardState.currentTerm else n.forcedCampaignTerm

section Arms

variable {armed : Bool} {n m n' : RaftNode}

theorem Arms.spared (h : Arms armed n m) (hs : Spares (fun _ => True) m n') :
    Arms armed n n' where
  rises := h.rises.trans hs.rises
  field := by
    rw [hs.sanction trivial, hs.term trivial]
    exact h.field

theorem Arms.quiet (hs : Spares (· = .sanction) n n') : Arms false n n' where
  rises := hs.rises
  field := hs.sanction rfl

theorem stampContact_frame (n : RaftNode) (f : InboundRaftMessage) :
    (n.stampContact f).hardState = n.hardState ∧
      (n.stampContact f).forcedCampaignTerm = n.forcedCampaignTerm := by
  unfold RaftNode.stampContact
  split <;> exact ⟨rfl, rfl⟩

/-- The handler arms the campaign exactly when it accepts. -/
theorem handleTimeoutNow_arms (sender : PeerId) (msg : TimeoutNow) (n : RaftNode) :
    Arms (decide (n.hardState.currentTerm ≤ msg.term) &&
        match observeTerm msg.term n with
        | .ok _ n' => n'.acceptsTimeoutNow sender msg
        | .error _ _ => false) n ((handleTimeoutNow sender msg).after n) := by
  have hobs : Sparing (· = .sanction) (observeTerm msg.term) n := observeTerm_spares _ nofun
  unfold Sparing Emits at hobs
  by_cases hstale : msg.term < n.hardState.currentTerm
  · have hret : handleTimeoutNow sender msg n = .ok () n := by
      unfold handleTimeoutNow
      rw [get_bind, if_pos hstale]
      rfl
    rw [after_of_ok hret, decide_eq_false (Nat.not_le.mpr hstale), Bool.false_and]
    exact .quiet (refl_of (Spares _) n)
  have hgo : handleTimeoutNow sender msg n = (do
      observeTerm msg.term
      modify fun n => if n.acceptsTimeoutNow sender msg then n.armForcedCampaign else n :
        RaftM Unit) n := by
    unfold handleTimeoutNow
    rw [get_bind, if_neg hstale]
  rw [decide_eq_true (Nat.le_of_not_lt hstale), Bool.true_and]
  cases hrun : observeTerm msg.term n with
  | ok u m =>
    rw [hrun] at hobs
    rw [after_of_ok (hgo.trans (bind_of_ok hrun))]
    dsimp only
    cases hacc : m.acceptsTimeoutNow sender msg with
    | true => exact ⟨hobs.1.rises, rfl⟩
    | false => exact .quiet hobs.1
  | error e m =>
    rw [hrun] at hobs
    rw [after_of_error (hgo.trans (bind_of_error hrun))]
    exact .quiet hobs

theorem handleInbound_arms (f : InboundRaftMessage) :
    Arms (n.acceptsSanction f) n ((handleInbound f).after n) := by
  by_cases hnow : ∃ msg, f.message = .timeoutNow msg
  · obtain ⟨sender, message⟩ := f
    obtain ⟨msg, rfl⟩ := hnow
    obtain ⟨hhard, hfield⟩ := stampContact_frame n ⟨sender, .timeoutNow msg⟩
    have harms := handleTimeoutNow_arms sender msg (n.stampContact ⟨sender, .timeoutNow msg⟩)
    rw [hhard] at harms
    refine ⟨?_, ?_⟩
    · exact (congrArg HardState.currentTerm hhard).ge.trans harms.rises
    · exact harms.field.trans (by rw [hfield]; rfl)
  · have hno : n.acceptsSanction f = false := by
      unfold RaftNode.acceptsSanction
      split
      · rename_i msg hmsg
        exact absurd ⟨msg, hmsg⟩ hnow
      · rfl
    rw [hno]
    have hspares : f.Spares (· = .sanction) n :=
      ⟨nofun, fun _ msg hmsg => hnow ⟨msg, hmsg⟩, nofun⟩
    exact .quiet (Emits.after (handleInbound_spares hspares))

theorem gatherDispatchFrame_arms (f : InboundRaftMessage) (g : Gather) :
    Arms (n.acceptsSanction f) n ((gatherDispatchFrame f g).after n) := by
  unfold gatherDispatchFrame
  split
  · rename_i resp hmsg
    have hno : n.acceptsSanction f = false := by
      unfold RaftNode.acceptsSanction
      rw [hmsg]
    rw [hno]
    exact .quiet (Emits.after (processAppendResp_spares hmsg g nofun))
  · rw [after_return]
    exact handleInbound_arms f

theorem Action.run_arms (a : Action) : Arms (a.sanctions n) n (a.run n) := by
  by_cases hframe : ∃ f, a.frame = some f
  · obtain ⟨f, hf⟩ := hframe
    cases a with
    | inbound g =>
      obtain rfl := Option.some.inj hf
      exact handleInbound_arms g
    | gatherFrame g gather =>
      obtain rfl := Option.some.inj hf
      have hrun : (Action.gatherFrame g gather).run n = (gatherDispatchFrame g gather).after n :=
        (after_ignore _ n).trans (after_caught _ RaftError.isFatal gather n)
      rw [hrun]
      exact gatherDispatchFrame_arms g gather
    | _ => cases hf
  · have hnone : a.frame = none := Option.eq_none_iff_forall_ne_some.mpr fun f hf => hframe ⟨f, hf⟩
    unfold Action.sanctions
    rw [hnone]
    exact .quiet (Action.run_spares ⟨fun f hf => absurd ⟨f, hf⟩ hframe, nofun, nofun⟩)

end Arms

/-! ## Watched runs -/

/-- A state with the bit: a `TimeoutNow` was accepted and the term is still the same. -/
structure Watched (S : Type) where
  state : S
  sanctioned : Bool

/-- A step with the bit behind it. -/
def watch {S A : Type} (node : S → RaftNode) (step : S → A → Option S) (accepts : S → A → Bool)
    (w : Watched S) (a : A) : Option (Watched S) :=
  (step w.state a).map fun s =>
    ⟨s, accepts w.state a || w.sanctioned &&
      (node s).hardState.currentTerm == (node w.state).hardState.currentTerm⟩

/-- A sanction that the node holds was given in a term of its past, and is the one of
the bit when that is the current term. -/
def Backed (n : RaftNode) (sanctioned : Bool) : Prop :=
  ∀ t, n.forcedCampaignTerm = some t →
    t ≤ n.hardState.currentTerm ∧ (t = n.hardState.currentTerm → sanctioned = true)

section Backed

variable {n n' : RaftNode} {armed sanctioned : Bool}

theorem Backed.of_none (h : n.forcedCampaignTerm = none) : Backed n sanctioned := by
  intro t ht
  rw [h] at ht
  cases ht

/-- The bit behind a step. -/
theorem Backed.arms (hn : Backed n sanctioned) (h : Arms armed n n') :
    Backed n' (armed || sanctioned &&
      n'.hardState.currentTerm == n.hardState.currentTerm) := by
  intro t ht
  have hfield := h.field
  have hrises := h.rises
  rw [ht] at hfield
  cases armed with
  | true =>
    cases hfield
    exact ⟨le_rfl, fun _ => rfl⟩
  | false =>
    obtain ⟨hle, hbit⟩ := hn t hfield.symm
    refine ⟨hle.trans hrises, ?_⟩
    rintro rfl
    have hsame : n'.hardState.currentTerm = n.hardState.currentTerm := le_antisymm hle hrises
    rw [hbit hsame, hsame, beq_self_eq_true]
    rfl

theorem Backed.take (hn : Backed n sanctioned) (h : n.takeForcedCampaign.1 = true) :
    sanctioned = true := by
  cases hfield : n.forcedCampaignTerm with
  | none =>
    rw [RaftNode.takeForcedCampaign, hfield] at h
    cases h
  | some t =>
    rw [RaftNode.takeForcedCampaign, hfield] at h
    have hterm : (t == n.hardState.currentTerm) = true :=
      (Bool.and_eq_true_iff.mp (Bool.and_eq_true_iff.mp h).1).1
    exact (hn t hfield).2 (beq_iff_eq.mp hterm)

end Backed

/-! ## The driver of a single group -/

/-- What a host does, and the question behind the frames it handled. -/
inductive SoloAct where
  | host (a : HostAct)
  | forced
  | sweep

namespace Host

/-- `run_follower_once` asks for a sanction between two frames and campaigns at once. -/
def soloStep (h : Host) (a : Env × SoloAct) : Option Host :=
  match a.2, h.call with
  | .host act, _ => h.step a.1 act
  | .forced, none =>
    let n := h.node.within a.1
    let n' := n.takeForcedCampaign.2
    some ⟨if n.takeForcedCampaign.1 then startElection.after n' else n', none⟩
  | .forced, some _ => none
  | .sweep, _ => some { h with node := (h.node.within a.1).evictStalledSnapshots }

def soloAccepts (h : Host) (a : Env × SoloAct) : Bool :=
  match a.2 with
  | .host act => act.frame.any (h.node.within a.1).acceptsSanction
  | _ => false

/-- Whatever happens to a host and its run loop. -/
abbrev SoloRun (w w' : Watched Host) : Prop :=
  Reaches (watch Host.node soloStep soloAccepts) (fun _ _ => True) w w'

end Host

theorem Host.soloStep_backed {w w' : Watched Host} {a : Env × SoloAct}
    (hw : Backed w.state.node w.sanctioned)
    (hstep : watch Host.node Host.soloStep Host.soloAccepts w a = some w') :
    Backed w'.state.node w'.sanctioned := by
  obtain ⟨h', hnext, rfl⟩ := Option.map_eq_some_iff.mp hstep
  obtain ⟨env, act⟩ := a
  have hwithin : Backed (w.state.node.within env) w.sanctioned := hw
  cases act with
  | sweep =>
    cases hnext
    exact hwithin.arms (.quiet (spares_evict _))
  | forced =>
    cases hcall : w.state.call with
    | some c =>
      rw [Host.soloStep, hcall] at hnext
      cases hnext
    | none =>
      rw [Host.soloStep, hcall] at hnext
      cases hnext
      refine Backed.of_none ?_
      dsimp only
      split
      · exact (startElection_spares nofun).sanction rfl
      · rfl
  | host act =>
    have hnext : w.state.step env act = some h' := hnext
    have hturn := Host.step_turn hnext
    show Backed h'.node (act.frame.any (w.state.node.within env).acceptsSanction ||
      w.sanctioned && h'.node.hardState.currentTerm ==
        (w.state.node.within env).hardState.currentTerm)
    generalize h'.node = n' at hturn
    cases hturn with
    | quiet hframe hs =>
      rw [hframe]
      exact hwithin.arms (.quiet hs.only)
    | acts b hframe hs =>
      rw [hframe]
      exact hwithin.arms ((b.run_arms).spared hs)
    | restart config => exact Backed.of_none rfl

/-! ## A group of the `MultiRaftDriver` -/

inductive GroupAct where
  | act (a : Action)
  | dispatch (inbound : Option InboundRaftMessage)
  | tick (now : Nat)
  | settle (elected : Bool)
  | restart (groupId : Nat) (config : NodeConfig)

namespace Group

/-- What the driver does to one group; the frames of the others do not touch it. -/
def step (g : Group) (a : Env × GroupAct) : Option Group :=
  let g : Group := { g with node := g.node.within a.1 }
  match a.2 with
  | .act b => some { g with node := b.run g.node }
  | .dispatch inbound => some (g.dispatchFrame inbound)
  | .tick now => some (g.tickGroup now)
  | .settle elected => some (g.settle elected)
  | .restart groupId config =>
    if config.nodeId = g.node.config.nodeId then
      (RaftNode.new config g.node.storage g.node.sent a.1).toOption.map fun n =>
        ⟨n, GroupTimers.new groupId config.nodeId config.timing a.1.now⟩
    else none

def accepts (g : Group) (a : Env × GroupAct) : Bool :=
  match a.2 with
  | .act b => b.sanctions (g.node.within a.1)
  | .dispatch inbound => inbound.any (g.node.within a.1).acceptsSanction
  | _ => false

/-- While the flag waits, the step hears no term above the node's and starts no
campaign of its own. -/
def KeepsTerm (w : Watched Group) (a : Env × GroupAct) : Prop :=
  w.state.timers.forcedCampaign = true →
    match a.2 with
    | .act b => b ≠ .startElection ∧ ∀ f ∈ b.hears, ∀ t, messageTerm f.message = some t →
        t ≤ w.state.node.hardState.currentTerm
    | .dispatch inbound => ∀ f, inbound = some f → ∀ t, messageTerm f.message = some t →
        t ≤ w.state.node.hardState.currentTerm
    | _ => True

/-- A group that was just added, on any storage. -/
def Started (g : Group) : Prop :=
  ∃ config storage sent env groupId,
    g = ⟨RaftNode.fromStorage config storage sent env,
      GroupTimers.new groupId config.nodeId config.timing env.now⟩

/-- Runs in which no term passes while the flag waits. -/
abbrev Run (w w' : Watched Group) : Prop :=
  Reaches (watch Group.node step accepts) KeepsTerm w w'

end Group

section Frame

variable {n : RaftNode} {P : Part → Prop}

theorem settleFrame_spares : Sparing P settleFrame n := by
  unfold settleFrame
  refine .read ?_
  split
  · exact (Sparing.silent (tryAdvanceCommitIndex_emits fun _ _ _ _ => trivial)).next fun _ _ _ =>
      applyCommittedEntries_spares
  · exact applyCommittedEntries_spares

/-- What follows a frame touches neither the sanction nor the term. -/
theorem stepFrame_ends {J : RaftNode → Prop} {inbound : Option InboundRaftMessage}
    (hJ : ∀ n n', J n → Spares (fun _ => True) n n' → J n')
    (h : Ends (handleDecoded inbound) n (fun _ => J) J) :
    Ends (stepFrame inbound) n (fun _ => J) J := by
  refine .seq h fun _ n' hn' => ?_
  exact (Ends.of_emits settleFrame_spares).mono (fun _ _ hs => hJ _ _ hn' hs.1)
    fun _ hs => hJ _ _ hn' hs

theorem stepFrame_arms (inbound : Option InboundRaftMessage) :
    Arms (inbound.any n.acceptsSanction) n ((stepFrame inbound).after n) := by
  refine Ends.after (stepFrame_ends (fun _ _ h hs => h.spared hs) ?_)
  cases inbound with
  | none => exact .ret (.quiet (refl_of (Spares _) n))
  | some f =>
    refine Ends.of_after ?_
    have hrun : (handleDecoded (some f)).after n = (handleInbound f).after n :=
      after_caught (handleInbound f) RaftError.isFatal () n
    rw [hrun]
    exact handleInbound_arms f

theorem stepFrame_term {inbound : Option InboundRaftMessage}
    (h : ∀ f, inbound = some f → ∀ t, messageTerm f.message = some t →
      t ≤ n.hardState.currentTerm) : Spares (· = .term) n ((stepFrame inbound).after n) := by
  refine Ends.after (stepFrame_ends (fun _ _ hs hs' => trans_of (Spares _) hs hs'.only) ?_)
  cases inbound with
  | none => exact .ret (refl_of (Spares _) n)
  | some f =>
    have hspares : f.Spares (· = .term) n := ⟨nofun, nofun, fun _ => h f rfl⟩
    exact (Ends.of_emits (tolerate_spares (handleInbound_spares hspares))).mono
      (fun _ _ hs => hs.1) fun _ hs => hs

end Frame

/-- The flag waits for a sanction that is still the one of the bit. -/
structure Group.Backed (g : Group) (sanctioned : Bool) : Prop where
  node : ArbitroRaft.Backed g.node sanctioned
  flag : g.timers.forcedCampaign = true → sanctioned = true

section Groups

variable {g : Group} {armed sanctioned : Bool}

/-- A flag that waited still waits for the bit when the term is the same. -/
theorem Group.Backed.step (hg : g.Backed sanctioned) (g' : Group)
    (harms : Arms armed g.node g'.node)
    (hflag : g'.timers.forcedCampaign = true → g.timers.forcedCampaign = true ∧
      g'.node.hardState.currentTerm = g.node.hardState.currentTerm) :
    g'.Backed (armed || sanctioned &&
      g'.node.hardState.currentTerm == g.node.hardState.currentTerm) where
  node := hg.node.arms harms
  flag hset := by
    obtain ⟨hwaits, hsame⟩ := hflag hset
    rw [hg.flag hwaits, hsame, beq_self_eq_true]
    exact Bool.or_true armed

theorem Group.heartbeatTick_spares (g : Group) (now : Nat) :
    Spares (fun _ => True) g.node (g.heartbeatTick now).node ∧
      (g.heartbeatTick now).timers.forcedCampaign = g.timers.forcedCampaign := by
  unfold Group.heartbeatTick
  split
  · refine ⟨?_, rfl⟩
    dsimp only
    split
    · exact Action.run_spares (a := .abdicate) ⟨nofun, nofun, fun _ => nofun⟩
    · exact refl_of (Spares _) _
  · exact ⟨refl_of (Spares _) _, rfl⟩

theorem Group.Backed.act (hg : g.Backed sanctioned) {b : Action}
    (hb : g.timers.forcedCampaign = true → b ≠ .startElection ∧
      ∀ f ∈ b.hears, ∀ t, messageTerm f.message = some t → t ≤ g.node.hardState.currentTerm) :
    Group.Backed { g with node := b.run g.node } (b.sanctions g.node || sanctioned &&
      (b.run g.node).hardState.currentTerm == g.node.hardState.currentTerm) := by
  refine hg.step { g with node := b.run g.node } b.run_arms fun hset => ⟨hset, ?_⟩
  obtain ⟨hno, hhears⟩ := hb hset
  have hleaves : b.Leaves (· = .term) g.node := by
    refine ⟨fun f hf => ⟨nofun, nofun, fun _ => hhears f ?_⟩, fun _ => hhears, fun _ => hno⟩
    cases b <;> cases hf <;> exact List.mem_cons_self
  exact (Action.run_spares hleaves).term rfl

theorem Group.Backed.dispatchFrame (hg : g.Backed sanctioned) {inbound : Option InboundRaftMessage}
    (h : g.timers.forcedCampaign = true → ∀ f, inbound = some f → ∀ t,
      messageTerm f.message = some t → t ≤ g.node.hardState.currentTerm) :
    (g.dispatchFrame inbound).Backed (inbound.any g.node.acceptsSanction || sanctioned &&
      (g.dispatchFrame inbound).node.hardState.currentTerm == g.node.hardState.currentTerm) := by
  have hstep := hg.step { g with node := (stepFrame inbound).after g.node }
    (stepFrame_arms inbound) fun hset => ⟨hset, (stepFrame_term (h hset)).term rfl⟩
  unfold Group.dispatchFrame RaftNode.takeForcedCampaign
  dsimp only at hstep ⊢
  generalize (stepFrame inbound).after g.node = n at hstep ⊢
  refine ⟨.of_none rfl, fun hset => ?_⟩
  by_cases htake : n.takeForcedCampaign.1 = true
  · exact hstep.node.take htake
  · refine hstep.flag ?_
    unfold RaftNode.takeForcedCampaign at htake
    rwa [if_neg htake] at hset

theorem Group.Backed.tickGroup (hg : g.Backed sanctioned) (now : Nat) :
    (g.tickGroup now).Backed (sanctioned &&
      (g.tickGroup now).node.hardState.currentTerm == g.node.hardState.currentTerm) := by
  obtain ⟨hspares, htimers⟩ := Group.heartbeatTick_spares g now
  unfold Group.tickGroup
  split
  · refine hg.step _ (.quiet (trans_of (Spares _) hspares.only ?_)) nofun
    unfold Group.openElection
    dsimp only
    split
    · exact startElection_spares nofun
    · exact startPreVote_spares
  · refine hg.step _ (.quiet hspares.only) fun hset => ⟨?_, hspares.term trivial⟩
    rw [← htimers]
    exact hset

theorem Group.Backed.settle (hg : g.Backed sanctioned) (elected : Bool) :
    (g.settle elected).Backed (sanctioned &&
      (g.settle elected).node.hardState.currentTerm == g.node.hardState.currentTerm) := by
  refine hg.step (g.settle elected) (.quiet (refl_of (Spares _) g.node)) ?_
  intro hset
  cases elected <;> exact ⟨hset, rfl⟩

end Groups

theorem Group.step_backed {w w' : Watched Group} {a : Env × GroupAct}
    (hw : w.state.Backed w.sanctioned) (ha : Group.KeepsTerm w a)
    (hstep : watch Group.node Group.step Group.accepts w a = some w') :
    w'.state.Backed w'.sanctioned := by
  obtain ⟨g', hnext, rfl⟩ := Option.map_eq_some_iff.mp hstep
  obtain ⟨env, act⟩ := a
  let g : Group := { w.state with node := w.state.node.within env }
  have hg : g.Backed w.sanctioned := ⟨hw.node, hw.flag⟩
  cases act with
  | act b =>
    cases hnext
    exact hg.act ha
  | dispatch inbound =>
    cases hnext
    exact hg.dispatchFrame ha
  | tick now =>
    cases hnext
    exact hg.tickGroup now
  | settle elected =>
    cases hnext
    exact hg.settle elected
  | restart groupId config =>
    obtain ⟨-, hnext⟩ := Option.ite_none_right_eq_some.mp hnext
    obtain ⟨n, hnew, rfl⟩ := Option.map_eq_some_iff.mp hnext
    refine ⟨.of_none ?_, nofun⟩
    rw [RaftNode.new_toOption hnew]
    rfl

/-- A campaign that skips the pre-vote rests on a `TimeoutNow` of the current term: in every
run of the single-group driver, and in the runs of a `MultiRaftDriver` group in which
no term passes while its flag waits. -/
theorem forced_campaign_in_term (h : Host) (g : Group) :
    (h.Started → ∀ w : Watched Host, Host.SoloRun ⟨h, false⟩ w →
      ∀ env, (w.state.node.within env).takeForcedCampaign.1 = true → w.sanctioned = true) ∧
    (g.Started → ∀ w : Watched Group, Group.Run ⟨g, false⟩ w →
      ∀ now, w.state.skipsPreVote now = true → w.sanctioned = true) := by
  constructor
  · intro hstart w hrun env htake
    obtain ⟨-, config, storage, sent, env₀, hnode⟩ := hstart
    have hbacked : Backed w.state.node w.sanctioned := by
      refine hrun.invariant (I := fun w => Backed w.state.node w.sanctioned) ?_ ?_
      · exact .of_none (hnode ▸ rfl)
      · intro u v a hu _ hstep
        exact Host.soloStep_backed hu hstep
    exact Backed.take (n := w.state.node.within env) hbacked htake
  · intro hstart w hrun now hskips
    obtain ⟨config, storage, sent, env, groupId, rfl⟩ := hstart
    have hbacked : w.state.Backed w.sanctioned := by
      refine hrun.invariant (I := fun w => w.state.Backed w.sanctioned) ?_ ?_
      · exact ⟨.of_none rfl, nofun⟩
      · intro u v a hu ha hstep
        exact Group.step_backed hu ha hstep
    exact hbacked.flag (Bool.and_eq_true_iff.mp hskips).2

/-- Node 2 of three under the `MultiRaftDriver`. -/
def targetGroup : Group :=
  ⟨trioNode 2 (.empty false), GroupTimers.new 7 2 TimingConfig.initial 0⟩

/-- The leader of term 1 sanctions a campaign, and in the same burst a heartbeat of
`leader` in `term` follows. -/
def sanctionThenHeartbeat (leader term : Nat) : List (Env × GroupAct) :=
  [(Env.calm 10, .dispatch (some ⟨1, .timeoutNow ⟨1, 1⟩⟩)),
    (Env.calm 10, .dispatch (some ⟨leader, .appendEntries ⟨term, leader, 0, 0, 0, 0⟩ []⟩))]

/-- The heartbeat of a newer leader moves the node to term 2 and the deadline out of reach.
The next election timeout campaigns for term 3 without a pre-vote. -/
theorem stale_sanction_campaigns :
    (runSteps (watch Group.node Group.step Group.accepts) ⟨targetGroup, false⟩
      (sanctionThenHeartbeat 3 2)).map (fun w =>
        (w.sanctioned, w.state.node.hardState.currentTerm, w.state.skipsPreVote 10,
          w.state.skipsPreVote 1000)) = some (false, 2, false, true) ∧
    (runSteps (watch Group.node Group.step Group.accepts) ⟨targetGroup, false⟩
      (sanctionThenHeartbeat 3 2 ++ [(Env.calm 1000, .tick 1000)])).map (fun w =>
        (w.state.node.softState.role, w.state.node.hardState.currentTerm,
          w.state.node.sent.any fun f => match f.message with
            | .preVote _ => true
            | _ => false)) = some (.candidate, 3, false) := by
  decide +kernel

/-- A frame that comes before the flag is set or in the node's term. -/
def frameInTerm (w : Watched Group) (a : Env × GroupAct) : Bool :=
  match a.2 with
  | .dispatch (some f) => !w.state.timers.forcedCampaign ||
      (messageTerm f.message).all fun t => decide (t ≤ w.state.node.hardState.currentTerm)
  | _ => false

theorem keepsTerm_of_frameInTerm (w : Watched Group) (a : Env × GroupAct)
    (h : frameInTerm w a = true) : Group.KeepsTerm w a := by
  obtain ⟨env, act⟩ := a
  intro hset
  cases act with
  | dispatch inbound =>
    rintro f rfl t ht
    simp only [frameInTerm, hset, ht, Option.all_some, Bool.not_true, Bool.false_or] at h
    exact of_decide_eq_true h
  | _ => cases h

/-- A heartbeat of the leader that sanctioned the campaign follows. -/
def sanctionedRun : Option (Watched Group) :=
  runChecked (watch Group.node Group.step Group.accepts) frameInTerm ⟨targetGroup, false⟩
    (sanctionThenHeartbeat 1 1)

/-- The target of a transfer campaigns for either driver. -/
theorem forced_campaign_in_term_target :
    (∃ w : Watched Host, Host.SoloRun ⟨⟨trioNode 2 (.empty false), none⟩, false⟩ w ∧
      (w.state.node.within (Env.calm 20)).takeForcedCampaign.1 = true ∧ w.sanctioned = true) ∧
    (∃ w : Watched Group, Group.Run ⟨targetGroup, false⟩ w ∧
      w.state.skipsPreVote 1000 = true ∧ w.sanctioned = true) := by
  constructor
  · let a : Env × SoloAct := (Env.calm 10, .host (.act (.inbound ⟨1, .timeoutNow ⟨1, 1⟩⟩)))
    let h : Host := ⟨trioNode 2 (.empty false), none⟩
    have hrun : Host.SoloRun ⟨h, false⟩
        ⟨⟨(Action.inbound ⟨1, .timeoutNow ⟨1, 1⟩⟩).run (h.node.within (Env.calm 10)), none⟩,
          _⟩ := Reaches.refl.next a trivial rfl
    have htake : (((Action.inbound ⟨1, .timeoutNow ⟨1, 1⟩⟩).run
        (h.node.within (Env.calm 10))).within (Env.calm 20)).takeForcedCampaign.1 = true := by
      decide +kernel
    exact ⟨_, hrun, htake,
      (forced_campaign_in_term h targetGroup).1 ⟨rfl, _, _, _, _, rfl⟩ _ hrun (Env.calm 20) htake⟩
  · have hskips : (sanctionedRun.map fun w => w.state.skipsPreVote 1000) = some true := by
      decide +kernel
    obtain ⟨w, hw, hskips⟩ := Option.map_eq_some_iff.mp hskips
    have hrun : Group.Run ⟨targetGroup, false⟩ w :=
      .checked keepsTerm_of_frameInTerm .refl hw
    exact ⟨w, hrun, hskips,
      (forced_campaign_in_term ⟨trioNode 2 (.empty false), none⟩ targetGroup).2
        ⟨_, _, _, _, _, rfl⟩ w hrun 1000 hskips⟩

end ArbitroRaft
