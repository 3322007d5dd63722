import ArbitroRaft.Node.Inbound

/-!
# Campaigns

`campaign_once` and `campaign_pre_vote`.  A campaign receives its frames in
batches of at most sixteen; the vote responses of a batch are counted before
the other frames are handled.  The end of the list of batches is the deadline.
-/

namespace ArbitroRaft

namespace RaftNode

/-- Candidacy: the next term, saturating, and a vote for oneself. -/
def becomeCandidate (n : RaftNode) : RaftNode :=
  { n with
    softState :=
      { n.softState with role := .candidate, isLeader := false, leaderId := none }
    hardState :=
      { currentTerm := satAdd n.hardState.currentTerm 1
        votedFor := some n.config.nodeId } }

def becomeLeader (n : RaftNode) : RaftNode :=
  ({ n with
    softState :=
      { n.softState with
        role := .leader, isLeader := true, leaderId := some n.config.nodeId } }
    ).initializeLeaderProgress

def voteRequest (n : RaftNode) (term : Nat) : RequestVote :=
  { term := term
    candidateId := n.config.nodeId
    lastLogIndex := n.storage.lastLogPosition.1
    lastLogTerm := n.storage.lastLogPosition.2 }

def addResponder (n : RaftNode) (sender : PeerId) : RaftNode :=
  { n with scratchResponders := n.scratchResponders ++ [sender] }

/-- Still the candidate of `term`. -/
def isCandidateOf (n : RaftNode) (term : Nat) : Bool :=
  n.softState.role == .candidate && n.hardState.currentTerm == term

end RaftNode

/-- Broadcast a vote request to the other voters; counts this node and every
send that succeeded. -/
def broadcastVotes (msg : RaftMessage) : RaftM Nat := do
  modify fun n => n.setScratchPeers n.otherPeers
  encodeShared msg
  let n ← get
  let oks ← sendAll msg n.scratchPeers
  return 1 + oks.length

/-- `campaign_once` up to the vote collection: the term and the number of
votes that can arrive, or `none` for a node that is not a voter. -/
def startElection : RaftM (Option (Nat × Nat)) := do
  let n ← get
  if n.config.nodeId ∉ n.config.peers then return none
  else do
    modify RaftNode.becomeCandidate
    saveHardState
    let n ← get
    let term := n.hardState.currentTerm
    let possible ← broadcastVotes (.requestVote (n.voteRequest term))
    if possible < quorum n.config.peers.length then throw .noQuorum
    else do
      modify fun n => { n with scratchResponders := [] }
      return some (term, possible)

/-- Count one vote response; `none` when it carried a higher term. -/
def countVoteResponse (term : Nat) (sender : PeerId) (resp : RequestVoteResp)
    (granted : List PeerId) : RaftM (Option (List PeerId)) := do
  let n ← get
  if sender ∈ n.scratchResponders then return some granted
  else do
    set (n.addResponder sender)
    if n.hardState.currentTerm < resp.term then do
      stepDown resp.term
      return none
    else if resp.term = term ∧ resp.voteGranted = true ∧ sender ∈ n.config.peers then
      return some (granted ++ [sender])
    else return some granted

/-- First pass over a batch: the vote responses. -/
def countVoteResponses (term : Nat) :
    List InboundRaftMessage → List PeerId → RaftM (Option (List PeerId))
  | [], granted => return some granted
  | f :: fs, granted =>
    match f.message with
    | .requestVoteResp resp => do
      match ← countVoteResponse term f.sender resp granted with
      | none => return none
      | some granted => countVoteResponses term fs granted
    | _ => countVoteResponses term fs granted

/-- The frames of a batch that are no vote responses. -/
def campaignRequests (batch : List InboundRaftMessage) : List InboundRaftMessage :=
  batch.filter fun f =>
    match f.message with
    | .requestVoteResp _ => false
    | _ => true

/-- Second pass over a batch: everything else. -/
def handleCampaignRequests (batch : List InboundRaftMessage) : RaftM Unit :=
  drainFrames (campaignRequests batch)

/-- How one round over a batch ended. -/
inductive CampaignRound where
  | won
  | lost
  | goOn (granted : List PeerId)
deriving DecidableEq, Repr

/-- One turn of the `collect_votes` loop. -/
def campaignRound (term : Nat) (batch : List InboundRaftMessage)
    (granted : List PeerId) : RaftM CampaignRound := do
  match ← countVoteResponses term batch granted with
  | none => return .lost
  | some granted => do
    if (← get).voterMajority granted then return .won
    else do
      handleCampaignRequests batch
      if (← get).isCandidateOf term then return .goOn granted else return .lost

/-- `collect_votes`. -/
def collectVotes (term possible : Nat) :
    List (List InboundRaftMessage) → List PeerId → RaftM Bool
  | batches, granted => do
    let n ← get
    if n.voterMajority granted ∨ ¬ n.scratchResponders.length < possible then
      return n.voterMajority granted
    else
      match batches with
      | [] => throw .noQuorum
      | batch :: rest => do
        match ← campaignRound term batch granted with
        | .won => return true
        | .lost => return false
        | .goOn granted => collectVotes term possible rest granted

/-- The crown is claimed only by the candidate of the term it campaigned in. -/
def assumeLeadership (term : Nat) : RaftM Bool := do
  let n ← get
  if n.isCandidateOf term then do
    set n.becomeLeader
    return true
  else return false

def campaignOnce (batches : List (List InboundRaftMessage)) : RaftM Bool := do
  match ← startElection with
  | none => return false
  | some (term, possible) => do
    if ← collectVotes term possible batches [(← get).config.nodeId] then
      assumeLeadership term
    else return false

/-- The opening of `campaign_pre_vote`: no state changes, the next term is only
asked about. -/
def startPreVote : RaftM (Option (Nat × Nat)) := do
  let n ← get
  if n.config.nodeId ∉ n.config.peers then return none
  else do
    let term := satAdd n.hardState.currentTerm 1
    let possible ← broadcastVotes (.preVote (n.voteRequest term))
    if possible < quorum n.config.peers.length then return none
    else do
      modify fun n => { n with scratchResponders := [] }
      return some (term, possible)

/-- Count one pre-vote response; grants are of the term the node is in. -/
def countPreVoteResponse (sender : PeerId) (resp : RequestVoteResp) (granted : List PeerId) :
    RaftM (Option (List PeerId)) := do
  let n ← get
  countVoteResponse n.hardState.currentTerm sender resp granted

/-- First pass over a batch of a pre-vote. -/
def countPreVoteResponses :
    List InboundRaftMessage → List PeerId → RaftM (Option (List PeerId))
  | [], granted => return some granted
  | f :: fs, granted =>
    match f.message with
    | .preVoteResp resp => do
      match ← countPreVoteResponse f.sender resp granted with
      | none => return none
      | some granted => countPreVoteResponses fs granted
    | _ => countPreVoteResponses fs granted

/-- Handle a list of frames, stopping at any error. -/
def handleFrames : List InboundRaftMessage → RaftM Unit
  | [] => return ()
  | f :: fs => do
    handleInbound f
    handleFrames fs

/-- Second pass over a batch of a pre-vote. -/
def handlePreVoteRequests (batch : List InboundRaftMessage) : RaftM Unit :=
  handleFrames (batch.filter fun f =>
    match f.message with
    | .preVoteResp _ => false
    | _ => true)

/-- One turn of the `campaign_pre_vote` loop.  A node that has reached the term it
asks about gives up. -/
def preVoteRound (preVoteTerm : Nat) (batch : List InboundRaftMessage)
    (granted : List PeerId) : RaftM CampaignRound := do
  match ← countPreVoteResponses batch granted with
  | none => return .lost
  | some granted => do
    if (← get).voterMajority granted then return .won
    else do
      handlePreVoteRequests batch
      if preVoteTerm ≤ (← get).hardState.currentTerm then return .lost else return .goOn granted

def collectPreVotes (preVoteTerm possible : Nat) :
    List (List InboundRaftMessage) → List PeerId → RaftM Bool
  | batches, granted => do
    let n ← get
    if n.voterMajority granted ∨ ¬ n.scratchResponders.length < possible then
      return n.voterMajority granted
    else
      match batches with
      | [] => return false
      | batch :: rest => do
        match ← preVoteRound preVoteTerm batch granted with
        | .won => return true
        | .lost => return false
        | .goOn granted => collectPreVotes preVoteTerm possible rest granted

def campaignPreVote (batches : List (List InboundRaftMessage)) : RaftM Bool := do
  match ← startPreVote with
  | none => return false
  | some (preVoteTerm, possible) =>
    collectPreVotes preVoteTerm possible batches [(← get).config.nodeId]

end ArbitroRaft
