import ArbitroRaft.Node.Inbound

/-!
# Proposals

`propose_batch_once` appends, fans out, gathers acknowledgements while it
handles whatever else arrives, and commits.  `replicate_batch_async` appends and
fans out only.
-/

namespace ArbitroRaft

/-- The batch a leader appends: consecutive indices behind `tip`, one term. -/
def buildBatch (term : Nat) : Nat → List EntryPayload → List LogEntry
  | _, [] => []
  | index, p :: ps =>
    { term := term, index := index, payload := p } :: buildBatch term (index + 1) ps

namespace RaftNode

def proposedBatch (n : RaftNode) (payloads : List EntryPayload) : List LogEntry :=
  buildBatch n.hardState.currentTerm (satAdd n.cachedLastLog.1 1) payloads

/-- Lazily close a transfer window that ran out. -/
def expireTransfer (n : RaftNode) : RaftNode :=
  match n.pendingTransfer with
  | some t => if n.env.now < t.deadline then n else { n with pendingTransfer := none }
  | none => n

def setPendingAcks (n : RaftNode) (peers : List PeerId) (lastIndex : Nat) : RaftNode :=
  { n with
    scratchPending := peers.foldl
      (fun m p => m.insert p { attempts := 1, sentLastIndex := lastIndex }) PeerMap.empty }

end RaftNode

/-- Proposals are refused while a leadership transfer is in flight. -/
def checkTransferFreeze : RaftM Unit := do
  modify RaftNode.expireTransfer
  let n ← get
  match n.pendingTransfer with
  | some t => throw (.notLeader (some t.target))
  | none => return ()

/-- `append_propose_entries`, which returns the last index. -/
def appendProposeEntries (payloads : List EntryPayload) : RaftM Nat := do
  let n ← get
  let entries := n.proposedBatch payloads
  set { n with scratchIndexes := entries.map LogEntry.index }
  match entries.getLast? with
  | none => throw (.invalidPayload "empty payload batch")
  | some last => do
    storeEntries entries
    modify fun n => n.extendTip entries
    return last.index

/-- `send_initial_appends`: one frame for all targets; the peers whose send
succeeded are the ones an acknowledgement is awaited from. -/
def sendInitialAppends (entries : List LogEntry) : RaftM Unit := do
  modify fun n => n.setScratchPeers n.replicationTargets
  let n ← get
  if n.scratchPeers = [] then return ()
  else
    let lastIndex := n.storage.lastLogPosition.1
    if lastIndex < entries.length then
      throw (.corruptLog
        "last_log_position smaller than just-appended batch (prev_log_index underflow)")
    else do
      let prevIndex := lastIndex - entries.length
      let prevTerm ← termAt prevIndex
      let n ← get
      let msg : RaftMessage :=
        .appendEntries (n.appendHeader prevIndex prevTerm) entries
      set { n with scratchPending := PeerMap.empty }
      encodeShared msg
      let oks ← sendAll msg n.scratchPeers
      modify fun n => n.setPendingAcks oks lastIndex

/-- What a propose call carries across its gather loop. -/
structure Gather where
  lastIndex : Nat
  proposeTerm : Nat
  needed : Nat
  accepted : Nat
deriving DecidableEq, Repr

/-- `propose_batch_once` up to the gather; `none` for an empty batch. -/
def startPropose (payloads : List EntryPayload) : RaftM (Option Gather) := do
  let n ← get
  if n.isLeader then do
    checkTransferFreeze
    if payloads = [] then return none
    else do
      modify RaftNode.ensureLeaderProgressInitialized
      let n ← get
      let lastIndex ← appendProposeEntries payloads
      sendInitialAppends (n.proposedBatch payloads)
      let n ← get
      return some
        { lastIndex := lastIndex
          proposeTerm := n.hardState.currentTerm
          needed := quorum n.config.peers.length
          accepted := 1 }
  else throw n.notLeaderError

/-- `process_append_resp`: a completed acknowledgement of a voter moves the
counter. -/
def processAppendResp (sender : PeerId) (resp : AppendEntriesResp) (g : Gather) :
    RaftM Gather := do
  let n ← get
  match n.scratchPending.get sender with
  | none => do
    handleAppendEntriesResponse sender resp
    return g
  | some state => do
    match ← advanceAppendReplication sender g.lastIndex state resp with
    | .completed => do
      let n ← get
      set { n with scratchPending := n.scratchPending.remove sender }
      if sender ∈ n.config.peers then return { g with accepted := g.accepted + 1 }
      else return g
    | _ => return g

def gatherDispatchFrame (f : InboundRaftMessage) (g : Gather) : RaftM Gather :=
  match f.message with
  | .appendEntriesResp resp => processAppendResp f.sender resp g
  | _ => do
    handleInbound f
    return g

/-- One frame of the gather; an error that is not fatal only drops it. -/
def gatherFrame (f : InboundRaftMessage) (g : Gather) : RaftM Gather :=
  tryCatch (gatherDispatchFrame f g) fun e => if e.isFatal then throw e else pure g

/-- The gather loop has what it waits for, or nobody left to wait for. -/
def RaftNode.gatherDone (n : RaftNode) (g : Gather) : Bool :=
  n.proposeCommitReached g.needed g.accepted g.lastIndex || n.scratchPending.isEmpty

/-- `gather_quorum_acks` over the frames that arrive before the deadline. -/
def gatherQuorumAcks : List InboundRaftMessage → Gather → RaftM Gather
  | [], g => return g
  | f :: fs, g => do
    if (← get).gatherDone g then return g
    else do
      let g ← gatherFrame f g
      gatherQuorumAcks fs g

/-- The commit decision behind the gather. -/
def commitProposed (g : Gather) : RaftM Unit := do
  let n ← get
  if n.jointPeers = none ∧ n.isLeader ∧ n.hardState.currentTerm = g.proposeTerm ∧
      g.needed ≤ g.accepted then
    set (if n.softState.commitIndex < g.lastIndex then n.setCommitIndex g.lastIndex else n)
  else tryAdvanceCommitIndex

/-- `propose_batch_once` behind the gather. -/
def finishPropose (g : Gather) : RaftM Unit := do
  commitProposed g
  if (← get).softState.commitIndex < g.lastIndex then throw .noQuorum
  else return ()

/-- `propose_batch_once`: `gathered` arrives during the gather, `ready` is
drained after the commit. -/
def proposeBatchOnce (payloads : List EntryPayload)
    (gathered ready : List InboundRaftMessage) : RaftM (List Nat) := do
  match ← startPropose payloads with
  | none => return []
  | some g => do
    let g ← gatherQuorumAcks gathered g
    finishPropose g
    drainFrames ready
    return (← get).scratchIndexes

/-- `replicate_batch_inner`. -/
def replicateBatchInner (payloads : List EntryPayload) : RaftM (Nat × Nat) := do
  let n ← get
  let entries := n.proposedBatch payloads
  storeEntries entries
  modify fun n => (n.extendTip entries).setScratchPeers n.replicationTargets
  let msg : RaftMessage :=
    .appendEntries (n.appendHeader n.cachedLastLog.1 n.cachedLastLog.2) entries
  encodeShared msg
  let _ ← sendAll msg n.replicationTargets
  return (satAdd n.cachedLastLog.1 1, payloads.length)

def replicateBatchAsync (payloads : List EntryPayload) : RaftM (Nat × Nat) := do
  let n ← get
  if n.isLeader then do
    checkTransferFreeze
    if payloads = [] then return (0, 0)
    else do
      modify RaftNode.ensureLeaderProgressInitialized
      replicateBatchInner payloads
  else throw n.notLeaderError

end ArbitroRaft
