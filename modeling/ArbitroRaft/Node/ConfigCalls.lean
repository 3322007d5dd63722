import ArbitroRaft.Node.Driver

/-!
# Membership calls

`propose_config_change`, `add_learner`, `remove_learner` and `promote_learner`
check the request against the current configuration, put its entry in force and
propose it.  The proposal waits for frames, so a call is cut at its waits:
`openCall` runs up to the first one, `gatherCall` handles a frame of the gather,
`commitCall` ends the gather, `drainCall` handles a frame that arrived by then,
and `closeCall` returns or goes on to the final entry of a voter change.

A call that fails is undone when the log is as long as it was before the call.
-/

namespace ArbitroRaft

open Library

def ConfigChangePhase.toByte : ConfigChangePhase → UInt8
  | .joint => 1
  | .final => 2
  | .addLearner => 3
  | .removeLearner => 4

/-- `ConfigChangeEntry::encode`; the two lengths are cut to 32 bits. -/
def ConfigChangeEntry.encode (c : ConfigChangeEntry) : EntryPayload :=
  [configChangeMagic, configChangeVersion, c.phase.toByte, 0] ++
    leBytes 4 c.oldPeers.length ++ leBytes 4 c.newPeers.length ++
    c.oldPeers.flatMap (leBytes 8) ++ c.newPeers.flatMap (leBytes 8)

/-! ## Requests -/

inductive ConfigRequest where
  | proposeConfigChange (newPeers : List PeerId)
  | addLearner (peer : PeerId)
  | removeLearner (peer : PeerId)
  | promoteLearner (peer : PeerId)
deriving DecidableEq, Repr

/-- What a call decides before it touches the node. -/
inductive ChangeDecision where
  | refuse (e : RaftError)
  /-- A leader that removes itself transfers its leadership and redirects. -/
  | handOff (target : PeerId)
  | propose (entry : ConfigChangeEntry)
deriving DecidableEq, Repr

namespace RaftNode

/-- `max_by_key` over the acknowledged indices; of equals the last one. -/
def handOffTarget (n : RaftNode) (newPeers : List PeerId) : PeerId :=
  let matched := fun p => ((n.peerProgress.get p).map PeerProgress.matchIndex).getD 0
  match newPeers with
  | [] => n.config.nodeId
  | p :: ps => ps.foldl (fun best q => if matched best ≤ matched q then q else best) p

/-- The checks of `propose_config_change`. -/
def decideVoters (n : RaftNode) (newPeers : List PeerId) : ChangeDecision :=
  if n.isLeader = false then .refuse n.notLeaderError
  else if n.jointPeers.isSome then
    .refuse (.invalidConfig "config change already in progress")
  else if newPeers = [] then
    .refuse (.invalidConfig "config-change new_peers must be non-empty")
  else if n.config.nodeId ∉ newPeers then .handOff (n.handOffTarget newPeers)
  else if ∀ p ∈ newPeers, p ∉ n.config.peers then
    .refuse (.invalidConfig "config-change new_peers must overlap current peers")
  else .propose { phase := .joint, oldPeers := n.config.peers, newPeers := newPeers }

/-- The checks of `propose_learner_change`. -/
def decideLearner (n : RaftNode) (peer : PeerId) (add : Bool) : ChangeDecision :=
  if n.isLeader = false then .refuse n.notLeaderError
  else if n.jointPeers.isSome then
    .refuse (.invalidConfig "config change already in progress")
  else if add = true ∧ peer ∈ n.config.peers then
    .refuse (.invalidConfig "add_learner: peer is already a voter")
  else if add = true ∧ peer ∈ n.config.learners then
    .refuse (.invalidConfig "add_learner: peer is already a learner")
  else if add = false ∧ peer ∉ n.config.learners then
    .refuse (.invalidConfig "remove_learner: peer is not a learner")
  else .propose
    { phase := if add then .addLearner else .removeLearner
      oldPeers := []
      newPeers := [peer] }

/-- `learner_caught_up` on a leader, for one of its learners. -/
def learnerCaughtUp (n : RaftNode) (peer : PeerId) : Bool :=
  (n.peerProgress.get peer).any fun p => decide (n.softState.commitIndex ≤ p.matchIndex)

/-- The checks of `promote_learner`, then those of the voter change it asks for. -/
def decidePromotion (n : RaftNode) (peer : PeerId) : ChangeDecision :=
  if n.isLeader = false then .refuse n.notLeaderError
  else if peer ∉ n.config.learners then
    .refuse (.invalidConfig "promote_learner: peer is not a learner")
  else if n.learnerCaughtUp peer = false then
    .refuse (.invalidConfig
      "promote_learner: learner not caught up (match_index < commit_index); retry later")
  else n.decideVoters (n.config.peers ++ [peer])

def decision (n : RaftNode) : ConfigRequest → ChangeDecision
  | .proposeConfigChange newPeers => n.decideVoters newPeers
  | .addLearner peer => n.decideLearner peer true
  | .removeLearner peer => n.decideLearner peer false
  | .promoteLearner peer => n.decidePromotion peer

/-! ## Undoing an activation -/

def revertJointActivation (n : RaftNode) (oldPeers : List PeerId) : RaftNode :=
  ({ n with config := { n.config with peers := oldPeers }, jointPeers := none }).settleConfig

def revertLearnerActivation (n : RaftNode) (prevLearners : List PeerId) : RaftNode :=
  (n.setLearners prevLearners).settleConfig

end RaftNode

/-! ## Calls -/

/-- A call that waits. -/
structure ConfigCall where
  entry : ConfigChangeEntry
  /-- The voters and learners before the entry was put in force. -/
  oldPeers : List PeerId
  prevLearners : List PeerId
  tipBefore : Nat
  gather : Gather
  /-- The gather is over. -/
  committed : Bool
deriving DecidableEq, Repr

namespace ConfigCall

/-- The final entry of a voter change is not in force yet when its proposal
fails, so there is nothing to undo. -/
def revert (c : ConfigCall) (n : RaftNode) : RaftNode :=
  match c.entry.phase with
  | .joint => n.revertJointActivation c.oldPeers
  | .final => n
  | .addLearner | .removeLearner => n.revertLearnerActivation c.prevLearners

/-- The error path of a call. -/
def undo (c : ConfigCall) (n : RaftNode) : RaftNode :=
  if n.cachedLastLog.1 = c.tipBefore then c.revert n else n

end ConfigCall

/-- Run a part of a call; an error ends the call. -/
def ConfigCall.guard {α : Type} (c : ConfigCall) (m : RaftM α) : RaftM α :=
  tryCatch m fun e => do
    modify c.undo
    throw e

/-- `propose_once` up to its wait. -/
def startProposeOnce (payload : EntryPayload) : RaftM Gather := do
  match ← startPropose [payload] with
  | some g => return g
  | none => throw (.protocol "propose failed to return index")

/-- The call `entry` starts in `n`. -/
def RaftNode.callOf (n : RaftNode) (entry : ConfigChangeEntry) (g : Gather) : ConfigCall :=
  { entry := entry
    oldPeers := n.config.peers
    prevLearners := n.config.learners
    tipBefore := n.cachedLastLog.1
    gather := g
    committed := false }

/-- No acknowledgement is awaited yet. -/
def Gather.unopened : Gather := { lastIndex := 0, proposeTerm := 0, needed := 0, accepted := 0 }

/-- Put `entry` in force and propose it. -/
def activateAndPropose (entry : ConfigChangeEntry) : RaftM ConfigCall := do
  let n ← get
  applyConfigChange entry
  let g ← (n.callOf entry Gather.unopened).guard (startProposeOnce entry.encode)
  return n.callOf entry g

/-- A call up to its first wait; `none` when it hands its leadership off, which
is done by the transfer's own actions. -/
def openCall (request : ConfigRequest) : RaftM (Option ConfigCall) := do
  match (← get).decision request with
  | .refuse e => throw e
  | .handOff _ => return none
  | .propose entry => do
    let c ← activateAndPropose entry
    return some c

/-- One frame of the gather. -/
def gatherCall (f : InboundRaftMessage) (c : ConfigCall) : RaftM (Option ConfigCall) := do
  let g ← c.guard (gatherFrame f c.gather)
  return some { c with gather := g }

/-- The end of the gather. -/
def commitCall (c : ConfigCall) : RaftM (Option ConfigCall) := do
  c.guard (finishPropose c.gather)
  return some { c with committed := true }

/-- One of the frames that are ready behind the commit. -/
def drainCall (f : InboundRaftMessage) (c : ConfigCall) : RaftM (Option ConfigCall) := do
  c.guard (handleInboundTolerant f)
  return some c

/-- `propose_once` returns the first of the proposed indices. -/
def firstIndex : RaftM Nat := do
  match (← get).scratchIndexes with
  | [] => throw (.protocol "propose failed to return index")
  | i :: _ => return i

def ConfigChangeEntry.toFinal (c : ConfigChangeEntry) : ConfigChangeEntry :=
  { c with phase := .final }

/-- The end of a proposal: a voter change goes on to its final entry, which is
proposed but not put in force. -/
def closeCall (c : ConfigCall) : RaftM (Option ConfigCall) := do
  let _ ← c.guard firstIndex
  if c.entry.phase = .joint then do
    let n ← get
    let g ← startProposeOnce c.entry.toFinal.encode
    return some (n.callOf c.entry.toFinal g)
  else return none

end ArbitroRaft
