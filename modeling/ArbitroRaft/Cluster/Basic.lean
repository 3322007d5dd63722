import ArbitroRaft.Library.Reach
import ArbitroRaft.Machine.Calls
import ArbitroRaft.Machine.StepDown

/-!
# Clusters

Any number of nodes.  A node is in the middle of at most one call: a campaign
that collects votes, a proposal that gathers acknowledgements, or the tick of a
leader.  Between two frames of a call the other nodes go on, so a call is taken
apart into the steps between its frames, and what the call carries from one step
to the next is kept next to the node (`Call`).  In the end the calls are put
together again: each of them is a run of steps.

Every frame that was ever sent stays on the wire: it may be read late, out of
order, any number of times or never, but only by the node it was sent to.  A
node may crash between two durable writes and starts again from its storage.

## Main results

* `Server.campaignOnce_serves`: a campaign is a run of vote steps over its frames.
* `Server.proposeBatchOnce_serves`: a proposal appends, gathers, commits and drains, in
  this order.
-/

namespace ArbitroRaft

open Library

/-! ## Servers -/

/-- The call a node is in the middle of, with what the call keeps to itself. -/
inductive Call where
  | idle
  /-- `campaign_once`, the term it campaigns in and the votes so far. -/
  | campaign (term : Nat) (granted : List PeerId)
  /-- `propose_batch_once` behind its append. -/
  | propose (g : Gather)
  /-- A tick that began on a leader. -/
  | tick
deriving DecidableEq, Repr

structure Server where
  node : RaftNode
  call : Call

/-- The actions that are steps of their own while a call is open.  The others are
parts of calls.  The commit rule is only tried in the tick of a leader, and behind
a gather. -/
def Call.allows : Call → Action → Bool
  | _, .startElection | _, .countVotes _ _ _ | _, .assumeLeadership _ | _, .startPropose _
  | _, .gatherFrame _ _ | _, .finishPropose _ => false
  | .idle, .tryAdvance => false
  | .idle, _ | .tick, _ => true
  | .campaign _ _, .inbound _ => true
  | .campaign _ _, _ | .propose _, _ => false

/-- The campaign a won start leads to: the node has its own vote. -/
def Call.afterStart : Option (Nat × Nat) → RaftNode → Call
  | some (term, _), n => .campaign term [n.config.nodeId]
  | none, _ => .idle

def Call.afterCount (term : Nat) : Option (List PeerId) → RaftNode → Call
  | some granted, _ => .campaign term granted
  | none, _ => .idle

def Call.afterAppend : Option Gather → RaftNode → Call
  | some g, _ => .propose g
  | none, _ => .idle

inductive ServerAct where
  | act (a : Action)
  | campaign
  /-- A campaign counts the vote responses of a batch. -/
  | votes (batch : List InboundRaftMessage)
  /-- A campaign that has its majority claims the crown. -/
  | crown
  | propose (payloads : List EntryPayload)
  | gather (f : InboundRaftMessage)
  | finish
  | beginTick
  /-- The end of a call that has nothing more to do, or no time left. -/
  | leave
  | restart (config : NodeConfig)
  /-- A crash in the handler of `f`, and a restart. -/
  | crash (f : InboundRaftMessage) (config : NodeConfig)

/-- The term a handler adopts before it writes anything else. -/
def RaftMessage.adoptedTerm? : RaftMessage → Option Nat
  | .requestVote m => some m.term
  | .appendEntries m _ | .appendEntriesSeeded m _ => some m.term
  | .installSnapshot m _ => some m.term
  | _ => none

/-- The node when the handler of `m` has adopted the term and done nothing else. -/
def RaftNode.halfway (n : RaftNode) (m : RaftMessage) : RaftNode :=
  match m.adoptedTerm? with
  | some t => (observeTerm t).after n
  | none => n

namespace Server

/-- The server after a part of its call; the call ends where the part fails. -/
def proceed {α : Type} (m : RaftM α) (goOn : α → RaftNode → Call) (n : RaftNode) : Server :=
  match m n with
  | .ok a n' => ⟨n', goOn a n'⟩
  | .error _ n' => ⟨n', .idle⟩

/-- The server after a restart of its node `n`. -/
def reborn (n : RaftNode) (env : Env) (config : NodeConfig) : Option Server :=
  ((Event.restart env config).next n).map fun n' => ⟨n', .idle⟩

/-- What a server does next; `none` if its call does not go on like that. -/
def next (p : Server) (env : Env) : ServerAct → Option Server
  | .act a =>
    if p.call.allows a then some { p with node := a.run (p.node.within env) } else none
  | .campaign =>
    match p.call with
    | .idle => some (proceed startElection Call.afterStart (p.node.within env))
    | _ => none
  | .votes batch =>
    match p.call with
    | .campaign term granted =>
      some (proceed (countVoteResponses term batch granted) (Call.afterCount term)
        (p.node.within env))
    | _ => none
  | .crown =>
    match p.call with
    | .campaign term granted =>
      if p.node.voterMajority granted then
        some (proceed (assumeLeadership term) (fun _ _ => .idle) (p.node.within env))
      else none
    | _ => none
  | .propose payloads =>
    match p.call with
    | .idle => some (proceed (startPropose payloads) Call.afterAppend (p.node.within env))
    | _ => none
  | .gather f =>
    match p.call with
    | .propose g => some (proceed (gatherFrame f g) (fun g' _ => .propose g') (p.node.within env))
    | _ => none
  | .finish =>
    match p.call with
    | .propose g => some (proceed (finishPropose g) (fun _ _ => .idle) (p.node.within env))
    | _ => none
  | .beginTick =>
    match p.call with
    | .idle => if p.node.isLeader then some { p with call := .tick } else none
    | _ => none
  | .leave => some { p with call := .idle }
  | .restart config => reborn p.node env config
  | .crash f config => reborn ((p.node.within env).halfway f.message) env config

/-- The term a server takes the crown of. -/
def crowns (p : Server) : ServerAct → Option Nat
  | .crown =>
    match p.call with
    | .campaign term granted =>
      if p.node.voterMajority granted && p.node.isCandidateOf term then some term else none
    | _ => none
  | _ => none

end Server

namespace ServerAct

/-- The frames a server reads. -/
def hears : ServerAct → List InboundRaftMessage
  | act a => a.hears
  | votes batch => batch
  | gather f | crash f _ => [f]
  | _ => []

/-- The action of the node behind the act. -/
def action (c : Call) : ServerAct → Option Action
  | act a => some a
  | campaign => some .startElection
  | votes batch =>
    match c with
    | .campaign term granted => some (.countVotes term batch granted)
    | _ => none
  | crown =>
    match c with
    | .campaign term _ => some (.assumeLeadership term)
    | _ => none
  | propose payloads => some (.startPropose payloads)
  | gather f =>
    match c with
    | .propose g => some (.gatherFrame f g)
    | _ => none
  | finish =>
    match c with
    | .propose g => some (.finishPropose g)
    | _ => none
  | beginTick | leave | restart _ | crash _ _ => none

end ServerAct

/-! ## Clusters -/

structure Cluster where
  server : PeerId → Server
  /-- Who became leader by a campaign, and of which term. -/
  crowned : List (PeerId × Nat)

structure ClusterStep where
  site : PeerId
  env : Env
  act : ServerAct

namespace Cluster

def node (s : Cluster) (i : PeerId) : RaftNode := (s.server i).node

/-- The frame is on the wire: somebody else sent it, to `i`. -/
def onWire (s : Cluster) (i : PeerId) (f : InboundRaftMessage) : Bool :=
  decide (f.sender ≠ i) &&
    (s.node f.sender).sent.any fun x => decide (x.receiver = i ∧ x.message = f.message)

theorem onWire_iff {s : Cluster} {i : PeerId} {f : InboundRaftMessage} :
    s.onWire i f = true ↔ f.sender ≠ i ∧ ∃ x ∈ (s.node f.sender).sent,
      x.receiver = i ∧ x.message = f.message := by
  simp only [onWire, Bool.and_eq_true, decide_eq_true_eq, List.any_eq_true]

/-- The server `i` went on to `p`. -/
def moved (s : Cluster) (i : PeerId) (p : Server) (won : Option Nat) : Cluster :=
  { server := Function.update s.server i p
    crowned := s.crowned ++ won.toList.map fun t => (i, t) }

/-- One server moves, if the frames it reads are there. -/
def step (s : Cluster) (a : ClusterStep) : Option Cluster :=
  if a.act.hears.all (s.onWire a.site) then
    ((s.server a.site).next a.env a.act).map fun p =>
      s.moved a.site p ((s.server a.site).crowns a.act)
  else none

/-- Every node was just started, on some storage. -/
def Booted (s : Cluster) : Prop :=
  s.crowned = [] ∧ ∀ i, ∃ n, ArbitroRaft.Booted n ∧ n.config.nodeId = i ∧ s.server i = ⟨n, .idle⟩

theorem step_eq_some {s t : Cluster} {a : ClusterStep} (h : s.step a = some t) :
    (∀ f ∈ a.act.hears, s.onWire a.site f = true) ∧
      ∃ p, (s.server a.site).next a.env a.act = some p ∧
        t = s.moved a.site p ((s.server a.site).crowns a.act) := by
  unfold step at h
  split at h
  · rename_i hheard
    obtain ⟨p, hp, rfl⟩ := Option.map_eq_some_iff.mp h
    exact ⟨List.all_eq_true.mp hheard, p, hp, rfl⟩
  · cases h

@[simp] theorem node_moved_self (s : Cluster) (i : PeerId) (p : Server) (won : Option Nat) :
    (s.moved i p won).node i = p.node := by
  simp only [node, moved, Function.update_self]

theorem node_moved_of_ne {s : Cluster} {i j : PeerId} {p : Server} {won : Option Nat}
    (h : j ≠ i) : (s.moved i p won).node j = s.node j := by
  simp only [node, moved, Function.update_of_ne h]

end Cluster

/-! ## What a step does to the node -/

section Node

variable {p p' : Server} {env : Env} {act : ServerAct}

variable {α : Type}

theorem Server.proceed_node (m : RaftM α) (goOn : α → RaftNode → Call) (n : RaftNode) :
    (Server.proceed m goOn n).node = m.after n := by
  unfold Server.proceed RaftM.after EStateM.run
  cases m n <;> rfl

theorem Server.proceed_run {m : RaftM α} (goOn : α → RaftNode → Call) (n : RaftNode) {a : Action}
    (ha : a.perform = RaftM.ignore m) : (Server.proceed m goOn n).node = a.run n := by
  rw [proceed_node, Action.run, ha, after_ignore]

/-- The part of a call behind which the call goes on returned. -/
theorem Server.proceed_cases (m : RaftM α) (goOn : α → RaftNode → Call) (n : RaftNode) :
    (∃ a n', m n = .ok a n' ∧ Server.proceed m goOn n = ⟨n', goOn a n'⟩) ∨
      (Server.proceed m goOn n).call = .idle := by
  unfold Server.proceed
  cases hm : m n with
  | ok a n' => exact .inl ⟨a, n', rfl, rfl⟩
  | error e n' => exact .inr rfl

theorem Server.proceed_call {m : RaftM α} {goOn : α → RaftNode → Call} {n : RaftNode} {c : Call}
    (h : (Server.proceed m goOn n).call = c) : c = .idle ∨ ∃ a n', c = goOn a n' := by
  obtain ⟨a, n', -, hproceed⟩ | hidle := Server.proceed_cases m goOn n
  · rw [hproceed] at h
    exact .inr ⟨a, n', h.symm⟩
  · exact .inl (h.symm.trans hidle)

/-- What `Server.next` can do, with its guards. -/
inductive Server.Moved (p : Server) (env : Env) : ServerAct → Server → Prop
  | act (a : Action) : p.call.allows a = true →
      Moved p env (.act a) ⟨a.run (p.node.within env), p.call⟩
  | campaign : p.call = .idle →
      Moved p env .campaign (proceed startElection Call.afterStart (p.node.within env))
  | votes (batch : List InboundRaftMessage) (term : Nat) (granted : List PeerId) :
      p.call = .campaign term granted → Moved p env (.votes batch)
        (proceed (countVoteResponses term batch granted) (Call.afterCount term)
          (p.node.within env))
  | crown (term : Nat) (granted : List PeerId) : p.call = .campaign term granted →
      p.node.voterMajority granted = true →
      Moved p env .crown (proceed (assumeLeadership term) (fun _ _ => .idle) (p.node.within env))
  | propose (payloads : List EntryPayload) : p.call = .idle →
      Moved p env (.propose payloads)
        (proceed (startPropose payloads) Call.afterAppend (p.node.within env))
  | gather (f : InboundRaftMessage) (g : Gather) : p.call = .propose g →
      Moved p env (.gather f)
        (proceed (gatherFrame f g) (fun g' _ => .propose g') (p.node.within env))
  | finish (g : Gather) : p.call = .propose g →
      Moved p env .finish (proceed (finishPropose g) (fun _ _ => .idle) (p.node.within env))
  | beginTick : p.call = .idle → p.node.isLeader = true →
      Moved p env .beginTick ⟨p.node, .tick⟩
  | leave : Moved p env .leave ⟨p.node, .idle⟩
  | restart (config : NodeConfig) (p' : Server) : reborn p.node env config = some p' →
      Moved p env (.restart config) p'
  | crash (f : InboundRaftMessage) (config : NodeConfig) (p' : Server) :
      reborn ((p.node.within env).halfway f.message) env config = some p' →
      Moved p env (.crash f config) p'

theorem Server.next_moved (h : p.next env act = some p') : p.Moved env act p' := by
  cases act with
  | act b =>
    obtain ⟨hb, hp⟩ := Option.ite_none_right_eq_some.mp h
    cases hp
    exact .act b hb
  | restart config => exact .restart config p' h
  | crash f config => exact .crash f config p' h
  | leave =>
    cases h
    exact .leave
  | crown =>
    unfold Server.next at h
    dsimp only at h
    split at h
    · rename_i hcall
      obtain ⟨hmajority, hp⟩ := Option.ite_none_right_eq_some.mp h
      cases hp
      exact .crown _ _ hcall hmajority
    · cases h
  | beginTick =>
    unfold Server.next at h
    dsimp only at h
    split at h
    · rename_i hcall
      obtain ⟨hleader, hp⟩ := Option.ite_none_right_eq_some.mp h
      cases hp
      exact .beginTick hcall hleader
    · cases h
  | _ =>
    unfold Server.next at h
    dsimp only at h
    split at h
    · rename_i hcall
      cases h
      constructor
      exact hcall
    · cases h

/-- The node of a server moves by actions, stays, or starts again. -/
theorem Server.Moved.node (h : p.Moved env act p') :
    (∃ a, act.action p.call = some a ∧ p'.node = a.run (p.node.within env)) ∨
      p'.node = p.node ∨
      ∃ n config, (n = p.node ∨ ∃ m, n = (p.node.within env).halfway m) ∧
        reborn n env config = some p' := by
  cases h with
  | act a _ => exact .inl ⟨a, rfl, rfl⟩
  | campaign _ => exact .inl ⟨_, rfl, proceed_run _ _ rfl⟩
  | votes batch term granted hcall =>
    exact .inl ⟨.countVotes term batch granted, by simp only [ServerAct.action, hcall],
      proceed_run _ _ rfl⟩
  | crown term granted hcall =>
    exact .inl ⟨.assumeLeadership term, by simp only [ServerAct.action, hcall],
      proceed_run _ _ rfl⟩
  | propose payloads _ => exact .inl ⟨_, rfl, proceed_run _ _ rfl⟩
  | gather f g hcall =>
    exact .inl ⟨.gatherFrame f g, by simp only [ServerAct.action, hcall], proceed_run _ _ rfl⟩
  | finish g hcall =>
    exact .inl ⟨.finishPropose g, by simp only [ServerAct.action, hcall], proceed_node _ _ _⟩
  | beginTick => exact .inr (.inl rfl)
  | leave => exact .inr (.inl rfl)
  | restart config p' hp => exact .inr (.inr ⟨_, config, .inl rfl, hp⟩)
  | crash f config p' hp => exact .inr (.inr ⟨_, config, .inr ⟨f.message, rfl⟩, hp⟩)

end Node

/-! ## The calls are runs of steps -/

namespace Server

/-- The acts lead from `p` to `q`, one after the other. -/
inductive Serves (p : Server) : List ServerAct → Server → Prop
  | refl : Serves p [] p
  | step {acts : List ServerAct} {q q' : Server} (act : ServerAct) :
      Serves p acts q → q.next q.node.env act = some q' → Serves p (acts ++ [act]) q'

/-- A beginning of the plan leads from `p` to `q`. -/
def Begun (p : Server) (plan : List ServerAct) (q : Server) : Prop :=
  ∃ done, done <+: plan ∧ Serves p done q

/-- The plan leads from `p` to `q` if `todo` is left out at its end. -/
def Along (p : Server) (plan todo : List ServerAct) (q : Server) : Prop :=
  ∃ done, done ++ todo = plan ∧ Serves p done q

def readActs (fs : List InboundRaftMessage) : List ServerAct := fs.map fun f => .act (.inbound f)

/-- What a campaign does with a batch: it counts the votes, then it handles the rest. -/
def roundActs (batch : List InboundRaftMessage) : List ServerAct :=
  .votes batch :: readActs (campaignRequests batch)

variable {p q : Server} {plan todo : List ServerAct} {n : RaftNode} {c : Call}

theorem Along.begun (h : Along p plan todo q) : Begun p plan q := by
  obtain ⟨done, rfl, hserves⟩ := h
  exact ⟨done, List.prefix_append _ _, hserves⟩

theorem Along.take {act : ServerAct} {q' : Server} (h : Along p plan (act :: todo) q)
    (hact : q.next q.node.env act = some q') : Along p plan todo q' := by
  obtain ⟨done, rfl, hserves⟩ := h
  exact ⟨done ++ [act], List.append_assoc .., hserves.step act hact⟩

/-- A part of a call is a step. -/
theorem Along.part {α : Type} {m : RaftM α} {goOn : α → RaftNode → Call} {act : ServerAct}
    (h : Along p plan (act :: todo) ⟨n, c⟩)
    (hact : next ⟨n, c⟩ n.env act = some (proceed m goOn n)) :
    Ends m n (fun a n' => Along p plan todo ⟨n', goOn a n'⟩)
      (fun n' => Along p plan todo ⟨n', .idle⟩) := by
  have hpart := h.take hact
  unfold proceed at hpart
  unfold Ends
  cases hm : m n
  all_goals
    rw [hm] at hpart
    exact hpart

/-- The first part of a call; all of the rest is still to be done. -/
theorem along_start {α : Type} (plan : List ServerAct) (m : RaftM α)
    (goOn : α → RaftNode → Call) (n : RaftNode) :
    Ends m n (fun a n' => Along (proceed m goOn n) plan plan ⟨n', goOn a n'⟩)
      (fun n' => Along (proceed m goOn n) plan plan ⟨n', .idle⟩) := by
  unfold proceed Ends
  cases m n <;> exact ⟨[], rfl, .refl⟩

theorem drainFrames_along (hc : ∀ f, c.allows (.inbound f) = true)
    (fs : List InboundRaftMessage) (h : Along p plan (readActs fs ++ todo) ⟨n, c⟩) :
    Ends (drainFrames fs) n (fun _ n' => Along p plan todo ⟨n', c⟩)
      (fun n' => Begun p plan ⟨n', c⟩) := by
  induction fs generalizing n with
  | nil => exact .ret h
  | cons f fs ih =>
    have hframe : Along p plan (readActs fs ++ todo) ⟨(handleInboundTolerant f).after n, c⟩ := by
      rw [after_handleInboundTolerant]
      exact h.take (if_pos (hc f))
    exact ((ends_after hframe).mono_error fun _ h' => h'.begun).seq fun _ n' h' => ih h'

/-- Where a campaign is won or lost: a candidate with a majority, or not. -/
def Decided (p : Server) (plan : List ServerAct) (term : Nat) (won : Bool) (n : RaftNode) : Prop :=
  if won then ∃ granted, Begun p plan ⟨n, .campaign term granted⟩ ∧
    n.voterMajority granted = true
  else ∃ c, Begun p plan ⟨n, c⟩ ∧ crowns ⟨n, c⟩ .crown = none

/-- How a round leaves the server. -/
def AfterRound (p : Server) (plan todo : List ServerAct) (term : Nat) (n : RaftNode) :
    CampaignRound → Prop
  | .won => Decided p plan term true n
  | .lost => Decided p plan term false n
  | .goOn granted => Along p plan todo ⟨n, .campaign term granted⟩

variable {term : Nat} {granted : List PeerId}

theorem decided_majority (h : Begun p plan ⟨n, .campaign term granted⟩) :
    Decided p plan term (n.voterMajority granted) n := by
  cases hwon : n.voterMajority granted with
  | true => exact ⟨granted, h, hwon⟩
  | false =>
    refine ⟨_, h, if_neg ?_⟩
    rw [hwon]
    exact Bool.false_ne_true

theorem campaignRound_along (batch : List InboundRaftMessage)
    (h : Along p plan (roundActs batch ++ todo) ⟨n, .campaign term granted⟩) :
    Ends (campaignRound term batch granted) n (fun r n' => AfterRound p plan todo term n' r)
      (fun n' => ∃ c, Begun p plan ⟨n', c⟩) := by
  unfold campaignRound
  refine ((h.part rfl).mono_error fun _ h' => ⟨_, h'.begun⟩).seq ?_
  intro r n₁ h₁
  cases r with
  | none => exact .ret ⟨_, h₁.begun, rfl⟩
  | some granted' =>
    refine .read ?_
    split
    · rename_i hwon
      exact .ret ⟨granted', h₁.begun, hwon⟩
    · refine ((drainFrames_along (fun _ => rfl) _ h₁).mono_error fun _ h' => ⟨_, h'⟩).seq ?_
      intro _ n₂ h₂
      refine .read ?_
      split
      · exact .ret h₂
      · rename_i hdeposed
        refine .ret ⟨_, h₂.begun, if_neg fun hboth => hdeposed ?_⟩
        exact (Bool.and_eq_true_iff.mp hboth).2

theorem collectVotes_along (possible : Nat) (batches : List (List InboundRaftMessage))
    (h : Along p plan (batches.flatMap roundActs) ⟨n, .campaign term granted⟩) :
    Ends (collectVotes term possible batches granted) n
      (fun won n' => Decided p plan term won n') (fun n' => ∃ c, Begun p plan ⟨n', c⟩) := by
  induction batches generalizing granted n with
  | nil =>
    unfold collectVotes
    refine .read ?_
    split
    · exact .ret (decided_majority h.begun)
    · exact .fail ⟨_, h.begun⟩
  | cons batch rest ih =>
    unfold collectVotes
    refine .read ?_
    split
    · exact .ret (decided_majority h.begun)
    · refine (campaignRound_along batch h).seq ?_
      intro r n' h'
      cases r with
      | won => exact .ret h'
      | lost => exact .ret h'
      | goOn granted' => exact ih h'

/-- A campaign is the start of one and a beginning of the rounds over its batches.  If it won,
it took the crown behind them; if it lost, it could not have. -/
theorem campaignOnce_serves (batches : List (List InboundRaftMessage)) (n : RaftNode) :
    ∃ p, next ⟨n, .idle⟩ n.env .campaign = some p ∧
      Ends (campaignOnce batches) n
        (fun won n' =>
          if won then ∃ q t, Begun p (batches.flatMap roundActs) q ∧
            q.crowns .crown = some t ∧ q.next q.node.env .crown = some ⟨n', .idle⟩
          else ∃ c, Begun p (batches.flatMap roundActs) ⟨n', c⟩ ∧ crowns ⟨n', c⟩ .crown = none)
        (fun n' => ∃ c, Begun p (batches.flatMap roundActs) ⟨n', c⟩) := by
  have hstart := along_start (batches.flatMap roundActs) startElection Call.afterStart n
  refine ⟨_, rfl, (hstart.mono_error fun _ h => ⟨_, h.begun⟩).seq ?_⟩
  intro r n₁ h₁
  cases r with
  | none => exact .ret ⟨_, h₁.begun, rfl⟩
  | some tp =>
    refine .read ((collectVotes_along tp.2 batches h₁).seq ?_)
    intro won n₂ h₂
    cases won with
    | false => exact .ret h₂
    | true =>
      obtain ⟨granted, hbegun, hmajority⟩ := h₂
      have hcrown : crowns ⟨n₂, .campaign tp.1 granted⟩ .crown =
          if n₂.isCandidateOf tp.1 then some tp.1 else none := by
        show (if n₂.voterMajority granted && n₂.isCandidateOf tp.1 then some tp.1 else none) = _
        rw [hmajority, Bool.true_and]
      have hnext : next ⟨n₂, .campaign tp.1 granted⟩ n₂.env .crown =
          some (proceed (assumeLeadership tp.1) (fun _ _ => .idle) n₂) := if_pos hmajority
      unfold proceed at hnext
      show Ends (assumeLeadership tp.1) n₂ _ _
      unfold assumeLeadership at hnext ⊢
      rw [get_bind] at hnext
      refine .read ?_
      split
      · rename_i hcandidate
        rw [if_pos hcandidate] at hnext
        exact ⟨_, tp.1, hbegun, hcrown.trans (if_pos hcandidate), hnext⟩
      · rename_i hdeposed
        exact ⟨_, hbegun, hcrown.trans (if_neg hdeposed)⟩

/-- The gather of a proposal is over at `q`: it is decided, or the frames are used up. -/
def Gathered (p : Server) (fs : List InboundRaftMessage) (q : Server) : Prop :=
  Begun p (fs.map .gather) q ∧ ∃ g, q.call = .propose g ∧
    (q.node.gatherDone g = true ∨ Serves p (fs.map .gather) q)

theorem gatherQuorumAcks_along (fs : List InboundRaftMessage) {frames : List InboundRaftMessage}
    {g : Gather} (h : Along p (frames.map .gather) (fs.map .gather) ⟨n, .propose g⟩) :
    Ends (gatherQuorumAcks fs g) n (fun g' n' => Gathered p frames ⟨n', .propose g'⟩)
      (fun n' => Begun p (frames.map .gather) ⟨n', .idle⟩) := by
  induction fs generalizing g n with
  | nil =>
    obtain ⟨done, hdone, hserves⟩ := h
    rw [List.map_nil, List.append_nil] at hdone
    exact .ret ⟨⟨done, hdone ▸ List.prefix_rfl, hserves⟩, g, rfl, .inr (hdone ▸ hserves)⟩
  | cons f fs ih =>
    unfold gatherQuorumAcks
    refine .read ?_
    split
    · rename_i hdone
      exact .ret ⟨h.begun, g, rfl, .inl hdone⟩
    · exact ((h.part rfl).mono_error fun _ h' => h'.begun).seq fun g' n' h' => ih h'

end Server

end ArbitroRaft
