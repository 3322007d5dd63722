import ArbitroRaft.Arena
import ArbitroRaft.Config
import ArbitroRaft.Message
import ArbitroRaft.Storage
import ArbitroRaft.Node.Progress

/-!
# The node and its monad

`RaftNode` holds the fields of the source's struct of that name that any
modelled function reads, its storage and its transport included.  The handlers
are computations of `RaftM`, a state monad in which an error keeps the state
reached so far: that is how `?` leaves a `&mut self` method.

What the environment decides is gathered in `Env`: the clock, which sends the
transport reports as failed, which messages the codec refuses, and which
storage writes fail.  The transport keeps every frame that was put on the wire,
with the storage as it was at that moment; a frame whose send is reported as
failed may still have reached the wire and is kept too.
-/

namespace ArbitroRaft

/-- A frame on the wire, and what was durable when it left. -/
structure SentFrame where
  receiver : PeerId
  message : RaftMessage
  stored : Storage
deriving DecidableEq, Repr

structure Env where
  now : Nat
  reachable : PeerId → Bool
  encodes : RaftMessage → Bool
  /-- Outcome of `save_hard_state`, given the durable state and the new one. -/
  saveFails : HardState → HardState → Option IoErrorKind
  /-- Outcome of `append_entries` on a batch. -/
  appendFails : List LogEntry → Option IoErrorKind
  /-- The user state machine: the bytes `snapshot` returns, and whether
  `restore` and `apply_at` fail. -/
  smSnapshot : Except RaftError (List UInt8)
  smRestoreFails : Option RaftError
  smApplyFails : Nat → Option RaftError
  /-- What the dispatch registry answers to a custom frame. -/
  customReply : List UInt8 → Except RaftError (List UInt8)
  /-- Whether a heartbeat interval elapsed before the snapshot chunk at an
  offset is sent. -/
  heartbeatDue : Nat → Bool

/-- Nothing fails. -/
def Env.calm (now : Nat) : Env :=
  { now := now
    reachable := fun _ => true
    encodes := fun _ => true
    saveFails := fun _ _ => none
    appendFails := fun _ => none
    smSnapshot := .ok []
    smRestoreFails := none
    smApplyFails := fun _ => none
    customReply := fun payload => .ok payload
    heartbeatDue := fun _ => false }

/-- Leader-side window of a leadership transfer. -/
structure PendingTransfer where
  target : PeerId
  deadline : Nat
deriving DecidableEq, Repr

structure RaftNode where
  config : NodeConfig
  storage : Storage
  sent : List SentFrame
  env : Env
  hardState : HardState
  softState : SoftState
  peerProgress : PeerMap PeerProgress
  jointPeers : Option (List PeerId × List PeerId)
  pendingSnapshots : PeerMap PendingSnapshot
  snapshotAttempts : PeerMap SnapshotAttempts
  logMetadata : LogMetadataArena
  scratchIndexes : List Nat
  scratchPeers : List PeerId
  scratchPending : PeerMap AppendAttemptState
  lastVoterContact : PeerMap Nat
  scratchResponders : List PeerId
  cachedLastLog : Nat × Nat
  snapshotBoundary : Nat × Nat
  commitIndexPub : Nat
  lastApplied : Nat
  compactionDebtEntries : Nat
  compactionDebtBytes : Nat
  lastLeaderContact : Option Nat
  pendingTransfer : Option PendingTransfer
  forcedCampaignTerm : Option Nat
  readProbeSeq : Nat

abbrev RaftM := EStateM RaftError RaftNode

/-- State a computation leaves behind, whether it returned or failed. -/
def RaftM.after {α : Type} (m : RaftM α) (n : RaftNode) : RaftNode :=
  match m.run n with
  | .ok _ n' => n'
  | .error _ n' => n'

def quorum (nodes : Nat) : Nat := nodes / 2 + 1

namespace RaftNode

/-- The node `RaftNode::new` builds on what storage holds. -/
def fromStorage (config : NodeConfig) (storage : Storage) (sent : List SentFrame)
    (env : Env) : RaftNode :=
  { config := config
    storage := storage
    sent := sent
    env := env
    hardState := storage.hardState
    softState :=
      { leaderId := none, isLeader := false, role := .follower, commitIndex := 0 }
    peerProgress := PeerMap.empty
    jointPeers := none
    pendingSnapshots := PeerMap.empty
    snapshotAttempts := PeerMap.empty
    logMetadata := LogMetadataArena.new 8192
    scratchIndexes := []
    scratchPeers := []
    scratchPending := PeerMap.empty
    lastVoterContact := PeerMap.empty
    scratchResponders := []
    cachedLastLog := storage.lastLogPosition
    snapshotBoundary :=
      match storage.loadSnapshotMeta with
      | some m => (m.lastIncludedIndex, m.lastIncludedTerm)
      | none => (0, 0)
    commitIndexPub := 0
    lastApplied := 0
    compactionDebtEntries := 0
    compactionDebtBytes := 0
    lastLeaderContact := none
    pendingTransfer := none
    forcedCampaignTerm := none
    readProbeSeq := 0 }

/-- `RaftNode::new`. -/
def new (config : NodeConfig) (storage : Storage) (sent : List SentFrame)
    (env : Env) : Except RaftError RaftNode := do
  validateNodeConfig config
  return fromStorage config storage sent env

theorem new_eq {config : NodeConfig} {storage : Storage} {sent : List SentFrame}
    {env : Env} {n : RaftNode} (h : new config storage sent env = .ok n) :
    n = fromStorage config storage sent env := by
  unfold new at h
  simp only [bind, Except.bind, pure, Except.pure] at h
  split at h
  · cases h
  · exact (Except.ok.inj h).symm

/-- A process that starts comes up on its storage. -/
theorem new_toOption {config : NodeConfig} {storage : Storage} {sent : List SentFrame}
    {env : Env} {n : RaftNode} (h : (new config storage sent env).toOption = some n) :
    n = fromStorage config storage sent env := by
  cases hnew : new config storage sent env with
  | error e =>
    rw [hnew] at h
    cases h
  | ok m =>
    rw [hnew] at h
    cases h
    exact new_eq hnew

def isLeader (n : RaftNode) : Bool := n.softState.role == .leader

def notLeaderError (n : RaftNode) : RaftError :=
  .notLeader n.softState.leaderId

def setScratchPeers (n : RaftNode) (peers : List PeerId) : RaftNode :=
  { n with scratchPeers := peers }

/-- Voters other than this node. -/
def otherPeers (n : RaftNode) : List PeerId :=
  n.config.peers.filter (fun p => decide (p ≠ n.config.nodeId))

/-- Replication targets: voters, then learners, without this node. -/
def replicationTargets (n : RaftNode) : List PeerId :=
  (n.config.peers ++ n.config.learners).filter (fun p => decide (p ≠ n.config.nodeId))

/-- `set_commit_index` also publishes the value to observers. -/
def setCommitIndex (n : RaftNode) (idx : Nat) : RaftNode :=
  { n with
    softState := { n.softState with commitIndex := idx }
    commitIndexPub := idx }

def demoteToFollowerKeepTerm (n : RaftNode) : RaftNode :=
  { n with
    softState :=
      { n.softState with role := .follower, isLeader := false, leaderId := none }
    peerProgress := PeerMap.empty
    pendingSnapshots := PeerMap.empty
    snapshotAttempts := PeerMap.empty
    lastVoterContact := PeerMap.empty
    pendingTransfer := none }

/-- `storage_truncate`: cut the log and refresh the tip cache from storage. -/
def storageTruncate (n : RaftNode) (start : Nat) : RaftNode :=
  let storage := n.storage.truncateSuffix start
  { n with
    storage := storage
    logMetadata := n.logMetadata.truncateSuffix start
    cachedLastLog := storage.lastLogPosition }

/-- `log_metadata.append` for every entry of a stored batch, in order. -/
def recordTerms (n : RaftNode) (entries : List LogEntry) : RaftNode :=
  { n with
    logMetadata := entries.foldl (fun a e => a.append e.index e.term) n.logMetadata }

def putOnWire (n : RaftNode) (peer : PeerId) (msg : RaftMessage) : RaftNode :=
  { n with sent := n.sent ++ [⟨peer, msg, n.storage⟩] }

/-- Term the conflict scan reads at `index`: the arena, then storage. -/
def localTerm (n : RaftNode) (index : Nat) : Option Nat :=
  match n.logMetadata.getTerm index with
  | some t => some t
  | none => n.storage.termAt index

end RaftNode

/-! ## Storage and transport calls -/

/-- `storage.save_hard_state(&self.hard_state)`. -/
def saveHardState : RaftM Unit := do
  let n ← get
  match n.env.saveFails n.storage.hardState n.hardState with
  | some kind => throw (.io kind)
  | none => set { n with storage := n.storage.saveHardState n.hardState }

/-- `storage.append_entries`. -/
def storeEntries (entries : List LogEntry) : RaftM Unit := do
  let n ← get
  if maxEntries < n.storage.entries.length + entries.length then
    throw (.io .storageFull)
  match n.env.appendFails entries with
  | some kind => throw (.io kind)
  | none => set { n with storage := n.storage.appendEntries entries }

/-- Encode and send one message; the result is whether the send succeeded. -/
def sendMessage (peer : PeerId) (msg : RaftMessage) : RaftM Bool := do
  let n ← get
  if n.env.encodes msg then
    set (n.putOnWire peer msg)
    return n.env.reachable peer
  else
    return false

/-- Encode a message that is shared by a fan-out. -/
def encodeShared (msg : RaftMessage) : RaftM Unit := do
  let n ← get
  if n.env.encodes msg then return ()
  else throw (.protocol "frame body length exceeds u32 wire field")

/-- Send one message to each peer in turn; the result lists the peers whose
send succeeded. -/
def sendAll (msg : RaftMessage) : List PeerId → RaftM (List PeerId)
  | [] => return []
  | peer :: rest => do
    let ok ← sendMessage peer msg
    let oks ← sendAll msg rest
    return if ok then peer :: oks else oks

/-! ## Demotion -/

def stepDown (newTerm : Nat) : RaftM Unit := do
  modify fun n => { n with hardState := { currentTerm := newTerm, votedFor := none } }
  saveHardState
  modify RaftNode.demoteToFollowerKeepTerm

end ArbitroRaft
