import ArbitroRaft.Node.Inbound

/-!
# Heartbeats, snapshot streaming and leadership transfer

What a leader sends outside of a proposal.  A heartbeat tick ships backlog to a
lagging peer and a bare frame to the others; a peer whose backlog was compacted
away gets the snapshot, at most one per tick.
-/

namespace ArbitroRaft

/-- The bare heartbeat for `peer`; `none` on a node that does not lead. -/
def buildHeartbeatWire (peer : PeerId) : RaftM (Option AppendEntries) := do
  let n ← get
  if n.isLeader then do
    modify RaftNode.ensureLeaderProgressInitialized
    let (prevIndex, prevTerm, _) ← appendPrevForPeer peer
    let n ← get
    return some (n.appendHeader prevIndex prevTerm)
  else return none

/-- A bare heartbeat to `peer`; a peer whose header cannot be built is
skipped. -/
def sendBareHeartbeat (peer : PeerId) : RaftM Unit :=
  tryCatch
    (do
      match ← buildHeartbeatWire peer with
      | some header => do
        let _ ← sendMessage peer (.appendEntries header [])
        return ()
      | none => return ())
    fun _ => pure ()

def sendBareHeartbeats : List PeerId → RaftM Unit
  | [] => return ()
  | peer :: rest => do
    sendBareHeartbeat peer
    sendBareHeartbeats rest

def sendBareHeartbeatsExcept (skip : PeerId) : RaftM Unit := do
  let n ← get
  if n.isLeader then do
    set (n.setScratchPeers (n.replicationTargets.filter (fun p => decide (p ≠ skip))))
    sendBareHeartbeats (n.replicationTargets.filter (fun p => decide (p ≠ skip)))
  else return ()

/-- `send_batched_heartbeats`, for one of the groups it serves. -/
def sendBatchedHeartbeats : RaftM Unit := do
  let n ← get
  if n.isLeader then do
    set (n.setScratchPeers n.replicationTargets)
    sendBareHeartbeats n.replicationTargets
  else return ()

/-! ## Snapshot streaming -/

/-- What `install_snapshot_once` carries from chunk to chunk. -/
structure Install where
  peer : PeerId
  snapshotMeta : SnapshotMeta
  bytes : List UInt8
  startTerm : Nat
  offset : Nat
  noProgress : Nat
deriving DecidableEq, Repr

def RaftNode.chunkEnd (n : RaftNode) (i : Install) : Nat :=
  min (i.offset + max n.config.limits.snapshotChunkBytes 1) i.bytes.length

def RaftNode.chunkDone (n : RaftNode) (i : Install) : Bool :=
  n.chunkEnd i == i.bytes.length

def RaftNode.chunkHeader (n : RaftNode) (i : Install) (chunk : List UInt8) : InstallSnapshot :=
  { term := n.hardState.currentTerm
    leaderId := n.config.nodeId
    lastIncludedIndex := i.snapshotMeta.lastIncludedIndex
    lastIncludedTerm := i.snapshotMeta.lastIncludedTerm
    offset := i.offset
    chunkLen := chunk.length % 2 ^ 32
    done := n.chunkDone i }

/-- Send the chunk at the current offset, after the bare heartbeats that are
due to the other followers. -/
def sendChunk (i : Install) : RaftM Unit := do
  if (← get).env.heartbeatDue i.offset then sendBareHeartbeatsExcept i.peer
  let n ← get
  let chunk := (i.bytes.take (n.chunkEnd i)).drop i.offset
  let _ ← sendMessage i.peer (.installSnapshot (n.chunkHeader i chunk) chunk)
  return ()

/-- Digest a response of the peer: `none` when the transfer is complete. -/
def advanceInstall (i : Install) (resp : InstallSnapshotResp) :
    RaftM (Option Install) := do
  let n ← get
  if n.hardState.currentTerm < resp.term then do
    stepDown resp.term
    throw (.termChanged resp.term)
  else if i.bytes.length < resp.nextOffset then
    throw (.protocol "install snapshot next_offset past total")
  else if resp.accepted ∧ (n.chunkDone i ∨ i.bytes.length ≤ resp.nextOffset) then
    return none
  else if resp.accepted ∧ i.offset < resp.nextOffset then
    return some { i with offset := resp.nextOffset, noProgress := 0 }
  else if max n.config.limits.snapshotMaxAttemptsPerPeer 1 ≤ i.noProgress + 1 then
    throw (.snapshot "install snapshot aborted: no-progress round cap exceeded")
  else return some { i with offset := resp.nextOffset, noProgress := i.noProgress + 1 }

/-- A frame of someone else that arrives during an install. -/
def installInterlude (i : Install) (f : InboundRaftMessage) : RaftM Unit := do
  handleInbound f
  let n ← get
  if n.isLeader ∧ n.hardState.currentTerm = i.startTerm then return ()
  else throw n.notLeaderError

/-- The response of the peer that is being served, if `f` is one. -/
def Install.responseOf (i : Install) (f : InboundRaftMessage) : Option InstallSnapshotResp :=
  match f.message with
  | .installSnapshotResp resp => if f.sender = i.peer then some resp else none
  | _ => none

/-- The receive loop of `install_snapshot_once`; the end of the frames is the
receive timeout. -/
def installLoop : List InboundRaftMessage → Install → RaftM Unit
  | [], _ => throw .noQuorum
  | f :: fs, i =>
    match i.responseOf f with
    | some resp => do
      match ← advanceInstall i resp with
      | none => return ()
      | some i => do
        sendChunk i
        installLoop fs i
    | none => do
      installInterlude i f
      installLoop fs i

def installSnapshotOnce (peer : PeerId) (m : SnapshotMeta) (bytes : List UInt8)
    (frames : List InboundRaftMessage) : RaftM Unit := do
  let n ← get
  if n.isLeader then do
    let i : Install :=
      { peer := peer
        snapshotMeta := m
        bytes := bytes
        startTerm := n.hardState.currentTerm
        offset := 0
        noProgress := 0 }
    sendChunk i
    installLoop frames i
  else throw n.notLeaderError

namespace RaftNode

/-- The attempt budget of `peer` once an elapsed cooldown is forgiven. -/
def attemptsOf (n : RaftNode) (peer : PeerId) : SnapshotAttempts :=
  match n.snapshotAttempts.get peer with
  | none => { attempts := 0, cooldownUntil := none }
  | some a =>
    if a.cooldownUntil.any (fun t => decide (t ≤ n.env.now)) then
      { attempts := 0, cooldownUntil := none }
    else a

def setAttempts (n : RaftNode) (peer : PeerId) (a : SnapshotAttempts) : RaftNode :=
  { n with snapshotAttempts := n.snapshotAttempts.insert peer a }

/-- Progress of a peer that was brought to the snapshot boundary. -/
def anchorProgress (n : RaftNode) (peer : PeerId) (boundary : Nat) : RaftNode :=
  match n.peerProgress.get peer with
  | none => n
  | some p =>
    n.setProgress peer
      { matchIndex := max p.matchIndex (min boundary n.cachedLastLog.1)
        nextIndex := max p.nextIndex
          (min (satAdd boundary 1) (satAdd n.cachedLastLog.1 1)) }

/-- Successful install: fresh attempt budget, re-anchored progress. -/
def installSucceeded (n : RaftNode) (peer : PeerId) (boundary : Nat) : RaftNode :=
  ({ n with snapshotAttempts := n.snapshotAttempts.remove peer }).anchorProgress peer boundary

end RaftNode

/-- The attempt cap of `maybe_install_snapshot_to_lagging_peer`: whether an
attempt is admitted, counted up front. -/
def admitInstall (peer : PeerId) : RaftM Bool := do
  let n ← get
  let a := n.attemptsOf peer
  if a.cooldownUntil.isSome then return false
  else if max n.config.limits.snapshotMaxAttemptsPerPeer 1 ≤ a.attempts then do
    set (n.setAttempts peer
      { a with cooldownUntil := some (n.env.now + n.config.limits.snapshotAttemptCooldownMs) })
    return false
  else do
    set (n.setAttempts peer { a with attempts := a.attempts + 1 })
    return true

def maybeInstallSnapshotToLaggingPeer (peer : PeerId)
    (frames : List InboundRaftMessage) : RaftM Bool := do
  let n ← get
  match n.peerProgress.get peer, n.storage.snapshot with
  | some progress, some (m, bytes) =>
    if m.lastIncludedIndex < progress.nextIndex then return false
    else if ← admitInstall peer then do
      installSnapshotOnce peer m bytes frames
      modify fun n => n.installSucceeded peer m.lastIncludedIndex
      return true
    else return false
  | _, _ => return false

/-! ## The heartbeat tick -/

inductive SnapshotEscalation where
  | streamed
  | refused
  | failed
deriving DecidableEq, Repr

def escalateSnapshotCatchup (peer : PeerId) (frames : List InboundRaftMessage) :
    RaftM SnapshotEscalation :=
  tryCatch
    (do
      if ← maybeInstallSnapshotToLaggingPeer peer frames then return .streamed
      else return .refused)
    fun _ => pure .failed

/-- Escalate unless this tick already did; the result is whether it has now. -/
def escalateOnce (peer : PeerId) (escalated : Bool)
    (frames : List InboundRaftMessage) : RaftM Bool := do
  if escalated then return true
  else
    match ← escalateSnapshotCatchup peer frames with
    | .refused => return false
    | _ => return true

/-- `send_heartbeat_once` for one peer. -/
def heartbeatPeer (peer : PeerId) (lastLog : Nat) (escalated : Bool)
    (frames : List InboundRaftMessage) : RaftM Bool := do
  let n ← get
  match (n.peerProgress.get peer).map PeerProgress.nextIndex with
  | some next =>
    if next ≤ lastLog then
      if (n.storage.entryAt next).isNone then escalateOnce peer escalated frames
      else
        tryCatch
          (do
            let _ ← sendAppendAttempt peer
            return escalated)
          fun _ => escalateOnce peer escalated frames
    else do
      sendBareHeartbeat peer
      return escalated
  | none => do
    sendBareHeartbeat peer
    return escalated

/-- The loop over the peers.  Its length is fixed on entry while the vector it
indexes is shared with the calls in its body, so an index can miss. -/
def heartbeatPeers (lastLog : Nat) (frames : List InboundRaftMessage) :
    (count i : Nat) → (escalated : Bool) → RaftM Unit
  | 0, _, _ => return ()
  | count + 1, i, escalated => do
    match (← get).scratchPeers[i]? with
    | none => throw .panicked
    | some peer => do
      let escalated ← heartbeatPeer peer lastLog escalated frames
      heartbeatPeers lastLog frames count (i + 1) escalated

/-- `send_heartbeat_once`; `frames` arrive during the install it may run. -/
def sendHeartbeatOnce (frames : List InboundRaftMessage) : RaftM Unit := do
  let n ← get
  if n.isLeader then do
    modify RaftNode.ensureLeaderProgressInitialized
    modify fun n => n.setScratchPeers n.replicationTargets
    let n ← get
    heartbeatPeers n.cachedLastLog.1 frames n.scratchPeers.length 0 false
  else throw n.notLeaderError

/-! ## Leadership transfer and read probes -/

/-- The last step of `transfer_leadership`: tell the caught-up target to
campaign and freeze proposals. -/
def sendTimeoutNow (target : PeerId) (transferTerm : Nat) : RaftM Unit := do
  let n ← get
  if n.isLeader ∧ n.hardState.currentTerm = transferTerm then
    if (n.peerProgress.get target).any (fun p => decide (n.cachedLastLog.1 ≤ p.matchIndex))
    then do
      if ← sendMessage target (.timeoutNow
          { term := transferTerm, leaderId := n.config.nodeId }) then
        modify fun n =>
          { n with
            pendingTransfer :=
              some { target := target, deadline := n.env.now + n.electionTimeout } }
      else
        throw (.transport "leadership transfer: failed to send TimeoutNow to target")
    else throw (.transferTimeout target)
  else throw n.notLeaderError

/-- A quorum confirmation starts a fresh probe; 0 is reserved. -/
def bumpReadProbe : RaftM Unit :=
  modify fun n =>
    { n with
      readProbeSeq :=
        if (n.readProbeSeq + 1) % 2 ^ 32 = 0 then 1 else (n.readProbeSeq + 1) % 2 ^ 32 }

end ArbitroRaft
