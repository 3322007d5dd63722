import ArbitroRaft.Client.Waiters
import ArbitroRaft.Membership.Grammar
import ArbitroRaft.Node.ReadIndex
import ArbitroRaft.Registry.Nodes

/-!
# The run loop of a single group

`arbitro_raft/mod.rs` and `arbitro_raft/run.rs`: a node, the mailbox its clients write to
and the vectors their slots pass through.  A write is queued in `client_rx`, staged in
`pending_batch` and `pending_slots`, and waits in `commit_waiters` until it is notified.

What a call meets is its input: the frames and proposals that arrive while it waits, and
whether a deadline has passed.  A frame is decoded, or `none` if it is dropped unread.
-/

namespace ArbitroRaft

/-! ## What a tick meets -/

structure ClientProposal where
  payload : EntryPayload
  slotId : SlotId
deriving DecidableEq, Repr

/-- What the transport returns. -/
inductive Recv where
  | frame (inbound : Option InboundRaftMessage)
  | nothing
  | failed (e : RaftError)

structure Tick where
  /-- Frames that are there. -/
  burst : List Recv
  heartbeatDue : Bool
  /-- How the wait behind them ends, and the clients that write meanwhile. -/
  waited : Recv
  arrived : List ClientProposal
  /-- Frames that arrive during heartbeats, a campaign and the proposal behind it. -/
  (preVote votes : List (List InboundRaftMessage))
  (heartbeat gathered ready farewell : List InboundRaftMessage)

/-- An error that is not fatal is passed over. -/
def unlessFatal {S A : Type} (m : EStateM RaftError S A) (a : A) : EStateM RaftError S A :=
  tryCatch m fun e => if e.isFatal then throw e else pure a

/-- `recv_inbound`, and `dispatch_inbound` if there is a frame. -/
def receive : Recv → RaftM Bool
  | .frame inbound => do
    handleDecoded inbound
    return true
  | .nothing => return false
  | .failed e => if e.isFatal then throw e else return false

/-- The frames that are there, 128 at most; the result is their number. -/
def drainBurst : List Recv → Nat → RaftM Nat
  | [], processed => return processed
  | r :: rest, processed => do
    if ← receive r then
      if 128 ≤ processed + 1 then return processed + 1 else drainBurst rest (processed + 1)
    else return processed

/-! ## A tick of a follower -/

/-- A leader elected in the middle of a voter change proposes its final entry. -/
def finalizeJointIfInherited (t : Tick) : RaftM Unit := do
  let n ← get
  match n.isLeader, n.jointPeers with
  | true, some (oldPeers, newPeers) => do
    let entry : ConfigChangeEntry :=
      { phase := .final, oldPeers := oldPeers, newPeers := newPeers }
    let proposed ← unlessFatal (do
      let _ ← proposeOnce entry.encode t.gathered t.ready
      return true) false
    if proposed && (← get).isLeader then sendHeartbeatOnce t.farewell else return ()
  | _, _ => return ()

def campaignAndSettle (t : Tick) : RaftM Unit := do
  if ← unlessFatal (campaignOnce t.votes) false then do
    sendHeartbeatOnce t.heartbeat
    finalizeJointIfInherited t
  else return ()

/-- A sanctioned campaign starts on the spot. -/
def campaignIfForced (t : Tick) : RaftM Bool := do
  if ← modifyGet RaftNode.takeForcedCampaign then do
    campaignAndSettle t
    return true
  else return false

/-- The wait for the election deadline, with a pre-vote if it passes. -/
def awaitElection (t : Tick) : RaftM Unit := do
  if ← receive t.waited then do
    applyCommittedEntries
    let _ ← campaignIfForced t
    return ()
  else if ← unlessFatal (campaignPreVote t.preVote) false then campaignAndSettle t
  else return ()

def runFollowerOnce (t : Tick) : RaftM Unit := do
  modify RaftNode.evictStalledSnapshots
  if 0 < (← drainBurst t.burst 0) then do
    applyCommittedEntries
    let _ ← campaignIfForced t
    return ()
  else if ← campaignIfForced t then return ()
  else awaitElection t

/-! ## The loop -/

structure RunLoop where
  node : RaftNode
  stopped : Bool
  mailboxCap : Nat
  clientRx : List ClientProposal
  closed : Bool
  pendingBatch : List EntryPayload
  pendingSlots : List SlotId
  commitWaiters : List CommitWaiter
  /-- History: the slots the mailbox took, and what was stored in them. -/
  accepted : List SlotId
  notified : List (SlotId × Outcome)

abbrev LoopM := EStateM RaftError RunLoop

namespace RunLoop

def new (node : RaftNode) (mailboxCapacity : Nat) : RunLoop :=
  { node := node, mailboxCap := max mailboxCapacity 1
    stopped := false, closed := false, clientRx := []
    pendingBatch := [], pendingSlots := [], commitWaiters := []
    accepted := [], notified := [] }

/-- A method of the node. -/
def onNode {A : Type} (m : RaftM A) : LoopM A := fun l =>
  match m l.node with
  | .ok a n => .ok a { l with node := n }
  | .error e n => .error e { l with node := n }

/-- `write_bytes` with the slot it leased. -/
def writeBytes (p : ClientProposal) : LoopM Unit := do
  let l ← get
  match rejectReservedPrefix p.payload with
  | .error e => throw e
  | .ok _ =>
    if l.closed then throw (.transport "raft node stopped")
    else if l.mailboxCap ≤ l.clientRx.length then throw .overloaded
    else set { l with clientRx := l.clientRx ++ [p], accepted := l.accepted ++ [p.slotId] }

def notify (l : RunLoop) (answers : List (SlotId × Outcome)) : RunLoop :=
  { l with notified := l.notified ++ answers }

def notifyErrors (l : RunLoop) (slots : List SlotId) : RunLoop :=
  l.notify (slots.map fun s => (s, .notLeader))

def drainWaiters (l : RunLoop) : RunLoop :=
  let (committed, left) := drainCommitWaiters l.node.softState.commitIndex l.commitWaiters
  { l with commitWaiters := left }.notify
    (committed.map fun w : CommitWaiter => (w.slotId, .committed (UInt64.ofNat w.index)))

def failCommitWaiters (l : RunLoop) : RunLoop :=
  { l with commitWaiters := [] }.notifyErrors (l.commitWaiters.map CommitWaiter.slotId)

/-- Take `count` proposals out of the mailbox, if there are as many. -/
def stage (l : RunLoop) (count : Nat) : RunLoop :=
  { l with
    clientRx := l.clientRx.drop count
    pendingBatch := l.pendingBatch ++ (l.clientRx.take count).map ClientProposal.payload
    pendingSlots := l.pendingSlots ++ (l.clientRx.take count).map ClientProposal.slotId }

/-- The staged slots wait for the entries from `first` on. -/
def awaitCommit (first : Nat) (l : RunLoop) : RunLoop :=
  { l with
    pendingBatch := []
    pendingSlots := []
    commitWaiters := l.commitWaiters ++
      l.pendingSlots.zipIdx.map fun s => { index := first + s.2, slotId := s.1 } }

def failPending (l : RunLoop) : RunLoop :=
  { l with pendingBatch := [], pendingSlots := [] }.notifyErrors l.pendingSlots

def replicatePending : LoopM Unit := do
  let l ← get
  let range ← tryCatch (onNode (replicateBatchAsync l.pendingBatch)) fun e => do
    modify failPending
    throw e
  modify (awaitCommit range.1)

def flushPending : LoopM Unit := do
  if (← get).pendingBatch = [] then return () else replicatePending

/-- `stop`; a second call does nothing. -/
def stop (l : RunLoop) : RunLoop :=
  if l.stopped then l
  else
    ({ l with stopped := true, closed := true, clientRx := [] }.notifyErrors
      (l.clientRx.map ClientProposal.slotId)).failCommitWaiters

/-! ## A tick of a leader -/

def advanceCommit : LoopM Unit := do
  onNode tryAdvanceCommitIndex
  modify drainWaiters

/-- What a leader does behind frames. -/
def settleInbound : LoopM Unit := do
  advanceCommit
  onNode applyCommittedEntries
  if (← get).node.isLeader then return () else modify failCommitWaiters

/-- The frame a wait ends with, and what is done behind it. -/
def attend (r : Recv) (settle : LoopM Unit) : LoopM Unit := do
  if ← onNode (receive r) then settle else return ()

/-- Clients that are refused give up. -/
def arrivals : List ClientProposal → LoopM Unit
  | [] => return ()
  | p :: ps => do
    tryCatch (writeBytes p) fun _ => pure ()
    arrivals ps

/-- `leadership_transfer_in_progress`. -/
def transferInProgress : RaftM Bool := do
  modify RaftNode.expireTransfer
  return (← get).pendingTransfer.isSome

/-- Fill the batch, with `least` proposals in any case, and replicate it.  Proposals stay
in the mailbox while a transfer is pending. -/
def intake (transferring : Bool) (least : Nat) : LoopM Unit :=
  if transferring then return ()
  else do
    modify fun l =>
      l.stage (max least (l.node.config.limits.appendBatchEntries - l.pendingBatch.length))
    flushPending

/-- The heartbeat, unless the leader lost contact to a majority. -/
def heartbeatDuty (t : Tick) : LoopM Unit := do
  let active := (← get).node.checkQuorumActive
  onNode abdicateIfIsolated
  if active then onNode (sendHeartbeatOnce t.heartbeat) else modify failCommitWaiters

/-- The wait ends with a frame, or with a first proposal. -/
def idleLeader (transferring : Bool) (t : Tick) : LoopM Unit := do
  arrivals t.arrived
  match t.waited with
  | .nothing => intake transferring 1
  | r => attend r settleInbound

def runLeaderOnce (t : Tick) : LoopM Unit := do
  let transferring ← onNode transferInProgress
  onNode (modify RaftNode.evictStalledSnapshots)
  intake transferring 0
  if 0 < (← onNode (drainBurst t.burst 0)) then settleInbound
  else if t.heartbeatDue then heartbeatDuty t
  else idleLeader transferring t

/-! ## Calls -/

def degrade : LoopM Unit := do
  let led := (← get).node.isLeader
  onNode degradeOnResourceExhaustion
  if led then modify failCommitWaiters else return ()

def runOnce (t : Tick) : LoopM Bool := do
  let l ← get
  if l.stopped then return false
  else do
    tryCatch (if l.node.isLeader then runLeaderOnce t else onNode (runFollowerOnce t)) fun e =>
      if e.isResourceExhaustion then degrade else throw e
    return !(← get).stopped

def whenLeader (m : LoopM Unit) : LoopM Unit := do
  if (← get).node.isLeader then m else return ()

/-- What is staged is replicated before `m`, the `transfer_leadership` of the node. -/
def transferLeadership (m : RaftM Unit) : LoopM Unit := do
  whenLeader flushPending
  onNode m

/-- `m` is the `read_index` of the node. -/
def readIndex (m : RaftM Nat) : LoopM Nat := do
  let index ← onNode m
  onNode applyCommittedEntries
  modify drainWaiters
  if (← get).node.lastApplied < index then
    throw (.protocol "read_index: local apply lagged behind the confirmed read point")
  else return index

/-- The frames of the handoff window, until the target deposes the leader. -/
def serveHandoff : List Recv → LoopM Unit
  | [] => return ()
  | r :: rest => whenLeader (do
      attend r advanceCommit
      serveHandoff rest)

/-- The voter that acknowledged most takes over, if there is one. -/
def drainLeaderHandoff (m : PeerId → RaftM Unit) (window : List Recv) : LoopM Unit := do
  unlessFatal flushPending ()
  let n := (← get).node
  match n.config.peers.filter fun p => p ≠ n.config.nodeId with
  | [] => return ()
  | voters =>
    if ← unlessFatal (do
        transferLeadership (m (n.handOffTarget voters))
        return true) false
    then serveHandoff window
    else return ()

/-- `drain` closes the mailbox, hands over and stops, whatever fails before. -/
def drain (m : PeerId → RaftM Unit) (window : List Recv) : LoopM Unit := do
  if (← get).stopped then return ()
  else do
    modify fun l => { l with closed := true }
    let resolve : LoopM Unit := do
      whenLeader (drainLeaderHandoff m window)
      onNode applyCommittedEntries
      modify drainWaiters
    tryCatch resolve fun e => do
      modify stop
      throw e
    modify stop

/-- What the owner of the loop calls. -/
inductive LoopCall where
  | writeBytes (p : ClientProposal)
  | runOnce (t : Tick)
  | transferLeadership (m : RaftM Unit)
  | readIndex (m : RaftM Nat)
  | drain (m : PeerId → RaftM Unit) (window : List Recv)
  | stop
  /-- The other methods work on the node alone. -/
  | method (m : RaftM Unit)

def LoopCall.perform : LoopCall → LoopM Unit
  | writeBytes p => RunLoop.writeBytes p
  | runOnce t => discard (RunLoop.runOnce t)
  | transferLeadership m => RunLoop.transferLeadership m
  | readIndex m => discard (RunLoop.readIndex m)
  | drain m window => RunLoop.drain m window
  | stop => modify RunLoop.stop
  | method m => onNode m

/-- The loop after calls, each with the world it meets. -/
def calls (l : RunLoop) : List (Env × LoopCall) → RunLoop
  | [] => l
  | (env, c) :: rest =>
    match c.perform { l with node := l.node.within env } with
    | .ok _ l' | .error _ l' => l'.calls rest

end RunLoop

end ArbitroRaft
