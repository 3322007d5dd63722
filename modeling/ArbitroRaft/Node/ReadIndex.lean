import ArbitroRaft.Node.Driver

/-!
# The quorum confirmation of a linearizable read

`confirm_leadership_quorum`: a round begins with a fresh probe token, which every
`AppendEntries` carries from then on and every answer echoes.  Voters that answer
in the term of the round and echo its token are counted; whatever arrives is
handled as usual.
-/

namespace ArbitroRaft

/-- What a round carries from frame to frame. -/
structure Confirmation where
  term : Nat
  probe : Nat
  acks : List PeerId
deriving DecidableEq, Repr

/-- A round begins: the leader counts itself. -/
def openConfirmation (confirmTerm : Nat) : RaftM Confirmation := do
  bumpReadProbe
  let n ← get
  return { term := confirmTerm, probe := n.readProbeSeq, acks := [n.config.nodeId] }

namespace Confirmation

/-- The frame is an answer of a voter that was not counted yet, in the term of the
round and with its token. -/
def counts (c : Confirmation) (n : RaftNode) (f : InboundRaftMessage) : Bool :=
  match f.message with
  | .appendEntriesResp resp =>
    resp.term == c.term && resp.probe == c.probe && decide (f.sender ∈ n.config.peers) &&
      decide (f.sender ∉ c.acks)
  | _ => false

def count (c : Confirmation) (n : RaftNode) (f : InboundRaftMessage) : Confirmation :=
  if c.counts n f then { c with acks := c.acks ++ [f.sender] } else c

end Confirmation

/-- A frame is counted before it is handled. -/
def confirmFrame (f : InboundRaftMessage) (c : Confirmation) : RaftM Confirmation := do
  let n ← get
  handleInboundTolerant f
  return c.count n f

def confirmFrames : List InboundRaftMessage → Confirmation → RaftM Confirmation
  | [], c => return c
  | f :: fs, c => do
    let c ← confirmFrame f c
    confirmFrames fs c

/-- What one turn of the loop meets: the frames that arrive during the heartbeat
tick, if one is due, and the frames it drains. -/
structure ConfirmTurn where
  tick : Option (List InboundRaftMessage)
  batch : List InboundRaftMessage

/-- The heartbeat tick of a turn. -/
def probeVoters : Option (List InboundRaftMessage) → RaftM Unit
  | some frames => sendHeartbeatOnce frames
  | none => return ()

/-- The loop of a round; the end of the turns is its deadline. -/
def confirmLoop : List ConfirmTurn → Confirmation → RaftM Confirmation
  | turns, c => do
    let n ← get
    if n.isLeader ∧ n.hardState.currentTerm = c.term then
      if n.voterMajority c.acks then return c
      else
        match turns with
        | [] => throw .noQuorum
        | turn :: rest => do
          probeVoters turn.tick
          let c ← confirmFrames turn.batch c
          confirmLoop rest c
    else throw n.notLeaderError

/-- `confirm_leadership_quorum`; the result is the round with those it counted. -/
def confirmLeadershipQuorum (confirmTerm : Nat) (turns : List ConfirmTurn) :
    RaftM Confirmation := do
  let c ← openConfirmation confirmTerm
  if (← get).voterMajority c.acks then return c else confirmLoop turns c

end ArbitroRaft
