import ArbitroRaft.Node.Campaign
import ArbitroRaft.Node.Propose
import ArbitroRaft.Node.Heartbeat

/-!
# The run loop's own steps

Applying committed entries, check-quorum abdication, degradation on resource
exhaustion and restart.
-/

namespace ArbitroRaft

namespace RaftNode

/-- `set_last_applied` and the compaction debt of one entry. -/
def markApplied (n : RaftNode) (index payloadLen : Nat) : RaftNode :=
  { n with
    lastApplied := index
    compactionDebtEntries := n.compactionDebtEntries + 1
    compactionDebtBytes := n.compactionDebtBytes + payloadLen }

end RaftNode

/-- Hand one committed entry to the membership layer or the state machine. -/
def applyEntry (entry : LogEntry) : RaftM Unit := do
  let n ← get
  let next := n.lastApplied + 1
  if ← applyIfConfigChange entry.payload then
    modify fun n => n.markApplied next entry.payload.length
  else
    match n.env.smApplyFails next with
    | some e => throw e
    | none => modify fun n => n.markApplied next entry.payload.length

/-- One turn of the apply loop; `false` when the next entry is not in the
log. -/
def applyNext : RaftM Bool := do
  let n ← get
  match n.storage.entryAt (n.lastApplied + 1) with
  | none => return false
  | some entry => do
    applyEntry entry
    return true

/-- The apply loop through `commit`, which is at most `fuel` entries away. -/
def applyThrough (commit : Nat) : Nat → RaftM Unit
  | 0 => return ()
  | fuel + 1 => do
    if (← get).lastApplied + 1 ≤ commit then
      if ← applyNext then applyThrough commit fuel else return ()
    else return ()

def applyCommittedEntries : RaftM Unit := do
  let _ ← restoreStateMachineFromSnapshot
  let n ← get
  applyThrough n.softState.commitIndex n.softState.commitIndex
  maybeCompact

/-- Check-quorum abdication of `run_leader_once` and `tick_group`: a leader
without recent contact to a majority steps down in its own term. -/
def abdicateIfIsolated : RaftM Unit := do
  let n ← get
  if n.isLeader then do
    set (n.setScratchPeers n.recentVoters)
    if n.checkQuorumActive then return () else stepDown n.hardState.currentTerm
  else return ()

/-- Resource exhaustion demotes a leader without a storage write. -/
def degradeOnResourceExhaustion : RaftM Unit :=
  modify fun n => if n.isLeader then n.demoteToFollowerKeepTerm else n

end ArbitroRaft
