import ArbitroRaft.Node.Election
import ArbitroRaft.Node.Snapshot

/-!
# Inbound dispatch

`handle_inbound` and the handlers that belong to no other module.
-/

namespace ArbitroRaft

namespace RaftNode

/-- Arm the immediate campaign a leadership transfer asks for. -/
def armForcedCampaign (n : RaftNode) : RaftNode :=
  { n with forcedCampaignTerm := some n.hardState.currentTerm }

/-- The checks `handle_timeout_now` makes once its term is adopted. -/
def acceptsTimeoutNow (n : RaftNode) (sender : PeerId) (msg : TimeoutNow) : Bool :=
  !n.isLeader && decide (n.config.nodeId ∈ n.config.peers) &&
    !(msg.term == n.hardState.currentTerm &&
      n.softState.leaderId.any (fun l => decide (l ≠ sender)))

/-- A current-term frame from a voter keeps the quorum lease alive. -/
def stampContact (n : RaftNode) (inbound : InboundRaftMessage) : RaftNode :=
  if n.isLeader ∧ inbound.sender ∈ n.config.peers ∧
      messageTerm inbound.message = some n.hardState.currentTerm then
    { n with lastVoterContact := n.lastVoterContact.insert inbound.sender n.env.now }
  else n

end RaftNode

def handleTimeoutNow (sender : PeerId) (msg : TimeoutNow) : RaftM Unit := do
  let n ← get
  if msg.term < n.hardState.currentTerm then return ()
  else do
    observeTerm msg.term
    modify fun n =>
      if n.acceptsTimeoutNow sender msg then n.armForcedCampaign else n

/-- A custom frame is answered by the dispatch registry and touches no
consensus state. -/
def handleCustomMessage (sender : PeerId) (payload : List UInt8) : RaftM Unit := do
  let n ← get
  match n.env.customReply payload with
  | .error e => throw e
  | .ok reply => do
    let _ ← sendMessage sender (.customResponse reply)
    return ()

def dispatchMessage (sender : PeerId) : RaftMessage → RaftM Unit
  | .appendEntries msg entries => handleAppendEntries sender msg entries
  | .appendEntriesSeeded msg entries => handleAppendEntriesSeeded sender msg entries
  | .appendEntriesResp msg => handleAppendEntriesResponse sender msg
  | .custom payload => handleCustomMessage sender payload
  | .customResponse _ => return ()
  | .requestVote msg => handleRequestVote sender msg
  | .requestVoteResp msg => handleRequestVoteResponse msg
  | .preVote msg => handlePreVote sender msg
  | .preVoteResp msg => handlePreVoteResponse msg
  | .installSnapshot msg chunk => handleInstallSnapshot sender msg chunk
  | .installSnapshotResp msg => handleInstallSnapshotResponse msg
  | .timeoutNow msg => handleTimeoutNow sender msg

def handleInbound (inbound : InboundRaftMessage) : RaftM Unit := do
  modify fun n => n.stampContact inbound
  dispatchMessage inbound.sender inbound.message

/-- Swallow every error that is not fatal. -/
def tolerate (m : RaftM Unit) : RaftM Unit :=
  tryCatch m fun e => if e.isFatal then throw e else pure ()

def handleInboundTolerant (inbound : InboundRaftMessage) : RaftM Unit :=
  tolerate (handleInbound inbound)

/-- Handle a list of frames, stopping at a fatal error. -/
def drainFrames : List InboundRaftMessage → RaftM Unit
  | [] => return ()
  | f :: fs => do
    handleInboundTolerant f
    drainFrames fs

end ArbitroRaft
