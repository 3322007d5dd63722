import ArbitroRaft.Node.Append

/-!
# Snapshots and log compaction

The receiving side of `InstallSnapshot`, the restore that re-anchors a node on
its saved snapshot, and the compaction of the log.
-/

namespace ArbitroRaft

namespace RaftNode

/-- Drop transfers that made no progress before their deadline. -/
def evictStalledSnapshots (n : RaftNode) : RaftNode :=
  { n with
    pendingSnapshots :=
      n.pendingSnapshots.filter (fun slot => decide (n.env.now ≤ slot.2.deadline)) }

/-- Become a follower of the leader that streams a snapshot; unlike
`followLeader` this does not stamp leader contact. -/
def followSnapshotLeader (n : RaftNode) (leaderId : PeerId) : RaftNode :=
  { n with
    softState :=
      { n.softState with role := .follower, isLeader := false, leaderId := some leaderId } }

/-- The transfer of `sender`, fresh if there is none, reset by a first chunk or
by another snapshot. -/
def pendingFor (n : RaftNode) (sender : PeerId) (m : SnapshotMeta) (offset : Nat) :
    PendingSnapshot :=
  let fresh : PendingSnapshot :=
    { snapshotMeta := m
      bytes := []
      deadline := n.env.now + n.config.limits.snapshotStallTimeoutMs }
  match n.pendingSnapshots.get sender with
  | none => fresh
  | some p => if offset = 0 ∨ p.snapshotMeta ≠ m then fresh else p

def setPending (n : RaftNode) (sender : PeerId) (p : PendingSnapshot) : RaftNode :=
  { n with pendingSnapshots := n.pendingSnapshots.insert sender p }

def dropPending (n : RaftNode) (sender : PeerId) : RaftNode :=
  { n with pendingSnapshots := n.pendingSnapshots.remove sender }

/-- Whether the log holds another term at the snapshot boundary. -/
def boundaryConflict (n : RaftNode) (m : SnapshotMeta) : Bool :=
  match n.storage.termAt m.lastIncludedIndex with
  | some t => t != m.lastIncludedTerm
  | none => false

/-- Re-anchor the log on a snapshot: a conflicting log goes wholesale,
otherwise its prefix through the boundary does.  The tip cache and the boundary
become the snapshot's. -/
def anchorOnSnapshot (n : RaftNode) (m : SnapshotMeta) : RaftNode :=
  { n with
    storage :=
      if n.boundaryConflict m then n.storage.truncateSuffix 1
      else n.storage.truncateBefore (satAdd m.lastIncludedIndex 1)
    logMetadata := n.logMetadata.clear (satAdd m.lastIncludedIndex 1)
    cachedLastLog := (m.lastIncludedIndex, m.lastIncludedTerm)
    snapshotBoundary := (m.lastIncludedIndex, m.lastIncludedTerm) }

/-- Raise the commit index to the snapshot boundary. -/
def commitSnapshot (n : RaftNode) (m : SnapshotMeta) : RaftNode :=
  if n.softState.commitIndex < m.lastIncludedIndex then
    n.setCommitIndex m.lastIncludedIndex
  else n

/-- Completion of a transfer. -/
def completeSnapshot (n : RaftNode) (m : SnapshotMeta) (bytes : List UInt8) : RaftNode :=
  ({ n with storage := n.storage.saveSnapshot m bytes }.commitSnapshot m).anchorOnSnapshot m

/-- Restore of the state machine from a saved snapshot. -/
def restoredFrom (n : RaftNode) (m : SnapshotMeta) : RaftNode :=
  ({ n.commitSnapshot m with lastApplied := m.lastIncludedIndex }).anchorOnSnapshot m

def settleCompactionDebt (n : RaftNode) : RaftNode :=
  { n with compactionDebtEntries := 0, compactionDebtBytes := 0 }

end RaftNode

def respondSnapshot (sender : PeerId) (accepted : Bool) (nextOffset : Nat) :
    RaftM Unit := do
  let n ← get
  let _ ← sendMessage sender (.installSnapshotResp
    { term := n.hardState.currentTerm, nextOffset := nextOffset, accepted := accepted })
  return ()

/-- Buffer a chunk at the right offset; the last one completes the transfer. -/
def acceptChunk (sender : PeerId) (msg : InstallSnapshot) (chunk : List UInt8)
    (pending : PendingSnapshot) : RaftM Unit := do
  let n ← get
  let bytes := pending.bytes ++ chunk
  if n.config.limits.maxSnapshotBytes < bytes.length then do
    modify fun n => n.dropPending sender
    respondSnapshot sender false 0
    throw (.snapshot
      s!"install snapshot exceeds max_snapshot_bytes ({n.config.limits.maxSnapshotBytes})")
  else if msg.done then do
    modify fun n => (n.dropPending sender).completeSnapshot pending.snapshotMeta bytes
    respondSnapshot sender true bytes.length
  else do
    modify fun n => n.setPending sender
      { pending with
        bytes := bytes
        deadline := n.env.now + n.config.limits.snapshotStallTimeoutMs }
    respondSnapshot sender true bytes.length

/-- A chunk of the current term: find its transfer and check its offset. -/
def receiveChunk (sender : PeerId) (msg : InstallSnapshot) (chunk : List UInt8) :
    RaftM Unit := do
  let n ← get
  let pending := n.pendingFor sender
    { lastIncludedIndex := msg.lastIncludedIndex
      lastIncludedTerm := msg.lastIncludedTerm } msg.offset
  set (n.setPending sender pending)
  if pending.bytes.length ≠ msg.offset then
    respondSnapshot sender false pending.bytes.length
  else acceptChunk sender msg chunk pending

def handleInstallSnapshot (sender : PeerId) (msg : InstallSnapshot)
    (chunk : List UInt8) : RaftM Unit := do
  let n ← get
  if chunk.length % 2 ^ 32 ≠ msg.chunkLen then
    throw (.protocol "install snapshot chunk_len mismatch")
  else if sender ∉ n.config.peers then return ()
  else do
    modify RaftNode.evictStalledSnapshots
    if msg.term < n.hardState.currentTerm then respondSnapshot sender false 0
    else do
      observeTerm msg.term
      modify fun n => n.followSnapshotLeader msg.leaderId
      receiveChunk sender msg chunk

def handleInstallSnapshotResponse (resp : InstallSnapshotResp) : RaftM Unit :=
  observeTerm resp.term

/-! ## Restore and compaction -/

/-- `restore_state_machine_from_snapshot`: a saved snapshot ahead of
`last_applied` replaces the state machine and re-anchors the log. -/
def restoreStateMachineFromSnapshot : RaftM Bool := do
  let n ← get
  match n.storage.loadSnapshotMeta with
  | none => return false
  | some m =>
    if m.lastIncludedIndex ≤ n.lastApplied then return false
    else
      match n.env.smRestoreFails with
      | some e => throw e
      | none => do
        set (n.restoredFrom m).settleCompactionDebt
        return true

namespace RaftNode

/-- Whether the applied debt crossed a configured threshold. -/
def compactionDue (n : RaftNode) : Bool :=
  let limits := n.config.limits
  (limits.compactionThresholdEntries != 0 &&
      decide (limits.compactionThresholdEntries ≤ n.compactionDebtEntries)) ||
    (limits.compactionThresholdBytes != 0 &&
      decide (limits.compactionThresholdBytes ≤ n.compactionDebtBytes))

/-- Conservative truncation horizon: a leader never cuts above what some voter
has replicated, and the newest `compaction_min_retain` entries stay. -/
def compactionHorizon (n : RaftNode) : Nat :=
  let matched := fun p => ((n.peerProgress.get p).map PeerProgress.matchIndex).getD 0
  let horizon :=
    if n.isLeader then
      (n.otherPeers.map matched).foldl min n.lastApplied
    else n.lastApplied
  horizon - n.config.limits.compactionMinRetain

/-- A snapshot at `last_applied` is saved and the prefix below `upTo` goes. -/
def compacted (n : RaftNode) (term : Nat) (bytes : List UInt8) (upTo : Nat) : RaftNode :=
  let m : SnapshotMeta :=
    { lastIncludedIndex := n.lastApplied, lastIncludedTerm := term }
  let saved := n.storage.saveSnapshot m bytes
  { n.settleCompactionDebt with
    storage := if 0 < upTo then saved.truncateBefore upTo else saved
    snapshotBoundary := (n.lastApplied, term) }

end RaftNode

def compactWithHorizon (upTo : Nat) : RaftM Unit := do
  let term ← termAt (← get).lastApplied
  let n ← get
  match n.env.smSnapshot with
  | .error e => throw e
  | .ok bytes => set (n.compacted term bytes upTo)

def maybeCompact : RaftM Unit := do
  let n ← get
  if ¬ n.compactionDue then return ()
  else if ¬ n.pendingSnapshots.isEmpty then return ()
  else if n.lastApplied = 0 then return ()
  else if (n.storage.loadSnapshotMeta).any
      (fun m => decide (n.lastApplied ≤ m.lastIncludedIndex)) then
    set n.settleCompactionDebt
  else compactWithHorizon n.compactionHorizon

end ArbitroRaft
