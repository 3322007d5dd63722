import ArbitroRaft.Node.Membership
import Mathlib.Data.List.Sort

/-!
# Replication shared by all paths

Term lookups, the per-peer append, leader progress and the commit rule of
`replication/shared.rs`.
-/

namespace ArbitroRaft

/-! ## Terms -/

/-- `term_at`: the tip cache, the arena, the snapshot boundary, then storage,
whose answer is remembered in the arena. -/
def termAt (index : Nat) : RaftM Nat := do
  let n ← get
  if index = 0 then return 0
  else if index = n.cachedLastLog.1 then return n.cachedLastLog.2
  else
    match n.logMetadata.getTerm index with
    | some t => return t
    | none =>
      if index = n.snapshotBoundary.1 then return n.snapshotBoundary.2
      else
        match n.storage.termAt index with
        | some t => do
          set { n with logMetadata := n.logMetadata.append index t }
          return t
        | none => throw (.corruptLog s!"missing term at index {index}")

/-! ## Leader progress -/

namespace RaftNode

def freshProgress (n : RaftNode) : PeerProgress :=
  { nextIndex := satAdd n.cachedLastLog.1 1, matchIndex := 0 }

def initializeLeaderProgress (n : RaftNode) : RaftNode :=
  let learners := n.config.learners.filter (fun p => decide (p ≠ n.config.nodeId))
  { n with
    peerProgress := (n.otherPeers ++ learners).foldl
      (fun m p => m.insert p n.freshProgress) PeerMap.empty
    lastVoterContact := n.otherPeers.foldl
      (fun m p => m.insert p n.env.now) PeerMap.empty }

def ensureLeaderProgressInitialized (n : RaftNode) : RaftNode :=
  if n.peerProgress.isEmpty then n.initializeLeaderProgress else n

/-- The `AppendEntries` header this node stamps as leader. -/
def appendHeader (n : RaftNode) (prevIndex prevTerm : Nat) : AppendEntries :=
  { term := n.hardState.currentTerm
    leaderId := n.config.nodeId
    prevLogIndex := prevIndex
    prevLogTerm := prevTerm
    leaderCommit := n.softState.commitIndex
    probe := n.readProbeSeq }

/-- Backlog for a peer: at most one batch from `nextIndex` on. -/
def backlog (n : RaftNode) (nextIndex : Nat) : List LogEntry :=
  (n.storage.readEntries nextIndex u64Max).take
    (max n.config.limits.appendBatchEntries 1)

end RaftNode

/-- `(prev_log_index, prev_log_term, next_index)` for an append to `peer`. -/
def appendPrevForPeer (peer : PeerId) : RaftM (Nat × Nat × Nat) := do
  let n ← get
  match n.peerProgress.get peer with
  | none => throw (.peerUnknown peer)
  | some progress => do
    let prevIndex := progress.nextIndex - 1
    let prevTerm ← termAt prevIndex
    return (prevIndex, prevTerm, progress.nextIndex)

/-- `send_append_attempt`: ship one batch from the peer's `next_index`.  A
storage with the zero-copy operations ships a non-empty batch in the seeded
frame.  The result is the last index shipped, if the send succeeded. -/
def sendAppendAttempt (peer : PeerId) : RaftM (Option Nat) := do
  let (prevIndex, prevTerm, nextIndex) ← appendPrevForPeer peer
  let n ← get
  let entries := n.backlog nextIndex
  let header := n.appendHeader prevIndex prevTerm
  let msg : RaftMessage :=
    if n.storage.seeded ∧ entries ≠ [] then .appendEntriesSeeded header entries
    else .appendEntries header entries
  let ok ← sendMessage peer msg
  return if ok then some ((entries.getLast?.map LogEntry.index).getD prevIndex) else none

/-! ## The commit rule -/

/-- `subset_quorum_index_into`: the highest index a strict majority of
`subset` has replicated.  A member without progress counts as 0. -/
def subsetQuorumIndex (progress : PeerMap PeerProgress) (selfId : PeerId)
    (subset : List PeerId) (lastIndex : Nat) : Option Nat :=
  if subset = [] then none
  else
    let acks := subset.map fun peer =>
      if peer = selfId then lastIndex
      else ((progress.get peer).map PeerProgress.matchIndex).getD 0
    (acks.insertionSort (fun a b => b ≤ a))[quorum subset.length - 1]?

namespace RaftNode

def quorumIndexOf (n : RaftNode) (subset : List PeerId) : Option Nat :=
  subsetQuorumIndex n.peerProgress n.config.nodeId subset n.cachedLastLog.1

/-- Highest index that meets the quorum of the effective configuration. -/
def quorumIndex (n : RaftNode) : Option Nat :=
  match n.jointPeers with
  | some (old, new) =>
    match n.quorumIndexOf old, n.quorumIndexOf new with
    | some q, some q' => some (min q q')
    | _, _ => none
  | none => n.quorumIndexOf n.config.peers

def indexMeetsCommitQuorum (n : RaftNode) (index : Nat) : Bool :=
  let meets := fun subset => (n.quorumIndexOf subset).any (fun q => decide (index ≤ q))
  match n.jointPeers with
  | some (old, new) => meets old && meets new
  | none => meets n.config.peers

/-- Stop condition of the synchronous gather. -/
def proposeCommitReached (n : RaftNode) (needed accepted lastIndex : Nat) : Bool :=
  if n.jointPeers.isSome then n.indexMeetsCommitQuorum lastIndex
  else decide (needed ≤ accepted)

end RaftNode

/-- Term of the quorum entry: the tip cache, the arena, then storage (0 when
absent), whose answer is remembered. -/
def quorumTerm (index : Nat) : RaftM Nat := do
  let n ← get
  if index = n.cachedLastLog.1 then return n.cachedLastLog.2
  else
    match n.logMetadata.getTerm index with
    | some t => return t
    | none => do
      let t := (n.storage.termAt index).getD 0
      if 0 < t then
        set { n with logMetadata := n.logMetadata.append index t }
        return t
      else return t

/-- Commit `index` if its entry is of the current term. -/
def commitIfCurrentTerm (index : Nat) : RaftM Unit := do
  let t ← quorumTerm index
  let n ← get
  if t = n.hardState.currentTerm then set (n.setCommitIndex index)

def tryAdvanceCommitIndex : RaftM Unit := do
  let n ← get
  if 1 < n.config.peers.length ∧ n.peerProgress.isEmpty then return ()
  else if n.cachedLastLog.1 ≤ n.softState.commitIndex then return ()
  else
    match n.quorumIndex with
    | none => return ()
    | some q =>
      if q ≤ n.softState.commitIndex then return () else commitIfCurrentTerm q

end ArbitroRaft
