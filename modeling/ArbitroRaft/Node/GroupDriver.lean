import ArbitroRaft.Node.Driver

/-!
# Campaigns without a pre-vote in the two drivers

A leader that hands its leadership off sanctions a campaign of the target with a
`TimeoutNow`.  The run loop of a single group asks `take_forced_campaign` behind
the frames it handled and campaigns on the spot.  The `MultiRaftDriver` asks it
behind every frame and hands the answer to the timers of the group, where a flag
waits for the next election tick.
-/

namespace ArbitroRaft

/-- `take_forced_campaign`: the sanction is used up, and counts in the term it was
given in. -/
def RaftNode.takeForcedCampaign (n : RaftNode) : Bool × RaftNode :=
  (n.forcedCampaignTerm.any fun t =>
      t == n.hardState.currentTerm && !n.isLeader && decide (n.config.nodeId ∈ n.config.peers),
    { n with forcedCampaignTerm := none })

/-! ## Timers of a group -/

def mix64 (x : UInt64) : UInt64 :=
  let x := x ^^^ (x >>> 30)
  let x := 0xbf58476d1ce4e5b9 * x
  let x := x ^^^ (x >>> 27)
  let x := 0x94d049bb133111eb * x
  x ^^^ (x >>> 31)

structure GroupTimers where
  nextElectionAt : Nat
  nextHeartbeatAt : Nat
  /-- A `TimeoutNow` was accepted: the next election tick skips the pre-vote. -/
  forcedCampaign : Bool
  rng : UInt64
  heartbeatMs : Nat
  electionMinMs : Nat
  electionMaxMs : Nat
deriving DecidableEq, Repr

namespace GroupTimers

def resetHeartbeat (t : GroupTimers) (now : Nat) : GroupTimers :=
  { t with nextHeartbeatAt := now + t.heartbeatMs }

def resetElection (t : GroupTimers) (now : Nat) : GroupTimers :=
  let rng := mix64 t.rng
  { t with
    rng := rng
    nextElectionAt :=
      now + (t.electionMinMs + rng.toNat % (t.electionMaxMs - t.electionMinMs + 1)) }

def new (groupId : Nat) (nodeId : PeerId) (timing : TimingConfig) (now : Nat) : GroupTimers :=
  (({ nextElectionAt := now
      nextHeartbeatAt := now
      forcedCampaign := false
      rng := mix64 (UInt64.ofNat groupId ^^^ (0x9e3779b97f4a7c15 * UInt64.ofNat nodeId))
      heartbeatMs := max timing.heartbeatMs 1
      electionMinMs := max timing.electionMinMs 1
      electionMaxMs := max timing.electionMaxMs (max timing.electionMinMs 1) } :
    GroupTimers).resetElection now).resetHeartbeat now

end GroupTimers

/-! ## A group of the driver -/

structure Group where
  node : RaftNode
  timers : GroupTimers

/-- A frame that does not decode is dropped. -/
def handleDecoded : Option InboundRaftMessage → RaftM Unit
  | some f => handleInboundTolerant f
  | none => return ()

/-- What the driver does behind a frame that was handled. -/
def settleFrame : RaftM Unit := do
  if (← get).isLeader then tryAdvanceCommitIndex
  applyCommittedEntries

/-- The node's part of `dispatch_frame`. -/
def stepFrame (inbound : Option InboundRaftMessage) : RaftM Unit := do
  handleDecoded inbound
  settleFrame

namespace Group

/-- `dispatch_frame`: the sanction is taken and the timers are set whichever way the
frame was handled. -/
def dispatchFrame (g : Group) (inbound : Option InboundRaftMessage) : Group :=
  let n := (stepFrame inbound).after g.node
  let timers := g.timers.resetElection n.env.now
  { node := n.takeForcedCampaign.2
    timers :=
      if n.takeForcedCampaign.1 then
        { timers with nextElectionAt := n.env.now, forcedCampaign := true }
      else timers }

def electionDue (g : Group) (now : Nat) : Bool :=
  !g.node.isLeader && decide (g.timers.nextElectionAt ≤ now)

/-- The tick at `now` starts a campaign without a pre-vote. -/
def skipsPreVote (g : Group) (now : Nat) : Bool :=
  g.electionDue now && g.timers.forcedCampaign

/-- The heartbeat part of `tick_group`, up to the heartbeats of a leader. -/
def heartbeatTick (g : Group) (now : Nat) : Group :=
  if g.timers.nextHeartbeatAt ≤ now then
    { node := if g.node.isLeader then abdicateIfIsolated.after g.node else g.node
      timers := g.timers.resetHeartbeat g.node.env.now }
  else g

/-- The election part of `tick_group`, up to the wait for votes. -/
def openElection (g : Group) : Group :=
  { node :=
      if g.timers.forcedCampaign then startElection.after g.node else startPreVote.after g.node
    timers := { g.timers with forcedCampaign := false }.resetElection g.node.env.now }

/-- `tick_group` up to its first wait; a leader at the start of the tick does not
campaign in it. -/
def tickGroup (g : Group) (now : Nat) : Group :=
  if g.electionDue now then (g.heartbeatTick now).openElection else g.heartbeatTick now

/-- The timers behind an election. -/
def settle (g : Group) (elected : Bool) : Group :=
  let timers := g.timers.resetElection g.node.env.now
  { g with timers := if elected then timers.resetHeartbeat g.node.env.now else timers }

end Group

end ArbitroRaft
