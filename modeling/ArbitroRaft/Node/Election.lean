import ArbitroRaft.Node.Append

/-!
# Votes

The vote and pre-vote handlers of `election.rs` and the majority predicate all
quorum decisions share.
-/

namespace ArbitroRaft

def subsetVoteMajority (subset granted : List PeerId) : Bool :=
  decide (quorum subset.length ≤ (subset.filter (fun p => decide (p ∈ granted))).length)

namespace RaftNode

/-- Majority of the effective configuration: of both sides while a joint
transition is active. -/
def voterMajority (n : RaftNode) (granted : List PeerId) : Bool :=
  match n.jointPeers with
  | some (old, new) => subsetVoteMajority old granted && subsetVoteMajority new granted
  | none => decide (quorum n.config.peers.length ≤ granted.length)

def electionTimeout (n : RaftNode) : Nat := max n.config.timing.electionMaxMs 1

/-- This node and the voters it heard from within the election timeout. -/
def recentVoters (n : RaftNode) : List PeerId :=
  n.config.nodeId :: n.otherPeers.filter fun p =>
    (n.lastVoterContact.get p).any (fun t => decide (n.env.now - t < n.electionTimeout))

/-- Whether the leader heard from a majority of voters recently. -/
def checkQuorumActive (n : RaftNode) : Bool :=
  n.voterMajority n.recentVoters

/-- The candidate's log is at least as up to date as the stored one. -/
def candidateUpToDate (n : RaftNode) (msg : RequestVote) : Bool :=
  let last := n.storage.lastLogPosition
  decide (last.2 < msg.lastLogTerm) ||
    (msg.lastLogTerm == last.2 && decide (last.1 ≤ msg.lastLogIndex))

def canVote (n : RaftNode) (msg : RequestVote) : Bool :=
  msg.term == n.hardState.currentTerm && n.candidateUpToDate msg &&
    (match n.hardState.votedFor with
      | some voted => voted == msg.candidateId
      | none => true)

def castVote (n : RaftNode) (candidate : PeerId) : RaftNode :=
  { n with hardState := { n.hardState with votedFor := some candidate } }

/-- A leader is active: this node, or one heard from within the minimum
election timeout. -/
def leaderActive (n : RaftNode) : Bool :=
  n.isLeader ||
    n.lastLeaderContact.any
      (fun t => decide (n.env.now - t < max n.config.timing.electionMinMs 1))

def canGrantPreVote (n : RaftNode) (msg : RequestVote) : Bool :=
  !n.leaderActive && decide (n.hardState.currentTerm ≤ msg.term) &&
    n.candidateUpToDate msg

end RaftNode

/-- Persist the vote before it is answered. -/
def grantVote (sender : PeerId) (msg : RequestVote) : RaftM Unit := do
  modify fun n => n.castVote msg.candidateId
  saveHardState
  let n ← get
  let _ ← sendMessage sender (.requestVoteResp
    { term := n.hardState.currentTerm, voteGranted := true })
  return ()

def refuseVote (sender : PeerId) : RaftM Unit := do
  let n ← get
  let _ ← sendMessage sender (.requestVoteResp
    { term := n.hardState.currentTerm, voteGranted := false })
  return ()

def handleRequestVote (sender : PeerId) (msg : RequestVote) : RaftM Unit := do
  observeTerm msg.term
  let n ← get
  if n.canVote msg then grantVote sender msg else refuseVote sender

def handleRequestVoteResponse (resp : RequestVoteResp) : RaftM Unit :=
  observeTerm resp.term

def handlePreVote (sender : PeerId) (msg : RequestVote) : RaftM Unit := do
  let n ← get
  let _ ← sendMessage sender (.preVoteResp
    { term := n.hardState.currentTerm, voteGranted := n.canGrantPreVote msg })
  return ()

def handlePreVoteResponse (resp : RequestVoteResp) : RaftM Unit :=
  observeTerm resp.term

end ArbitroRaft
