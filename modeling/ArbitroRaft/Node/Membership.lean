import ArbitroRaft.Library.Codec
import ArbitroRaft.Node.Basic

/-!
# Membership control entries

A configuration change travels as an ordinary log payload behind the reserved
first byte `0xC0`.  `decode` is total: anything malformed is an application
payload.  Followers adopt a change when they append it, and every node applies
it again when it commits.
-/

namespace ArbitroRaft

open Library

def configChangeMagic : UInt8 := 0xC0

def configChangeVersion : UInt8 := 1

def noopDiscriminant : UInt8 := 0x7F

/-- Payload of the leader no-op entry. -/
def noopEntry : List UInt8 :=
  [configChangeMagic, configChangeVersion, noopDiscriminant, 0]

def isNoopEntry (payload : List UInt8) : Bool := payload == noopEntry

/-- Magic, version, phase, pad, `old_len` and `new_len`. -/
def headerLen : Nat := 12

inductive ConfigChangePhase where
  | joint
  | final
  | addLearner
  | removeLearner
deriving DecidableEq, Repr

structure ConfigChangeEntry where
  phase : ConfigChangePhase
  oldPeers : List PeerId
  newPeers : List PeerId
deriving DecidableEq, Repr

/-- `count` little-endian `u64` ids. -/
def readPeers : Nat → List UInt8 → List PeerId
  | 0, _ => []
  | count + 1, bytes => leValue (bytes.take 8) :: readPeers count (bytes.drop 8)

def ConfigChangePhase.ofByte (b : UInt8) : Option ConfigChangePhase :=
  if b = 1 then some .joint
  else if b = 2 then some .final
  else if b = 3 then some .addLearner
  else if b = 4 then some .removeLearner
  else none

namespace ConfigChangeEntry

/-- The body behind a recognised header. -/
def decodeBody (phase : ConfigChangePhase) (bytes : List UInt8) : Option ConfigChangeEntry :=
  let oldLen := leValue ((bytes.drop 4).take 4)
  let newLen := leValue ((bytes.drop 8).take 4)
  if bytes.length < headerLen + oldLen * 8 + newLen * 8 then none
  else some
    { phase := phase
      oldPeers := readPeers oldLen (bytes.drop headerLen)
      newPeers := readPeers newLen (bytes.drop (headerLen + oldLen * 8)) }

def decode (bytes : List UInt8) : Option ConfigChangeEntry :=
  if bytes.length < headerLen then none
  else if bytes.getD 0 0 ≠ configChangeMagic then none
  else if bytes.getD 1 0 ≠ configChangeVersion then none
  else (ConfigChangePhase.ofByte (bytes.getD 2 0)).bind (fun p => decodeBody p bytes)

end ConfigChangeEntry

namespace RaftNode

/-- Union kept in order: the old voters, then the new ones not among them. -/
def mergePeers (old new : List PeerId) : List PeerId :=
  new.foldl (fun merged p => if p ∈ merged then merged else merged ++ [p]) old

def setPeers (n : RaftNode) (peers : List PeerId)
    (joint : Option (List PeerId × List PeerId)) : RaftNode :=
  { n with
    config :=
      { n.config with
        peers := peers
        learners := n.config.learners.filter (fun p => decide (p ∉ peers)) }
    jointPeers := joint }

def setLearners (n : RaftNode) (learners : List PeerId) : RaftNode :=
  { n with config := { n.config with learners := learners } }

/-- Forget a peer that is no longer a member. -/
def dropPeer (n : RaftNode) (peer : PeerId) : RaftNode :=
  { n with
    peerProgress := n.peerProgress.remove peer
    pendingSnapshots := n.pendingSnapshots.remove peer
    lastVoterContact := n.lastVoterContact.remove peer }

/-- Fresh replication progress for a member that has none. -/
def addProgress (n : RaftNode) (peer : PeerId) : RaftNode :=
  if peer = n.config.nodeId ∨ n.peerProgress.containsKey peer then n
  else
    { n with
      peerProgress := n.peerProgress.insert peer
        { nextIndex := satAdd n.cachedLastLog.1 1, matchIndex := 0 } }

def reconcileLeaderProgressWithConfig (n : RaftNode) : RaftNode :=
  let stale := n.peerProgress.keys.filter
    (fun p => decide (p ∉ n.config.peers ∧ p ∉ n.config.learners))
  let n := stale.foldl dropPeer n
  (n.config.peers ++ n.config.learners).foldl addProgress n

/-- The effect of a change on the configuration itself. -/
def adoptConfig (n : RaftNode) (entry : ConfigChangeEntry) : RaftNode :=
  match entry.phase with
  | .joint =>
    n.setPeers (mergePeers entry.oldPeers entry.newPeers)
      (some (entry.oldPeers, entry.newPeers))
  | .final => n.setPeers entry.newPeers none
  | .addLearner =>
    n.setLearners (entry.newPeers.foldl
      (fun ls p => if p ∉ n.config.peers ∧ p ∉ ls then ls ++ [p] else ls)
      n.config.learners)
  | .removeLearner =>
    n.setLearners (n.config.learners.filter (fun p => decide (p ∉ entry.newPeers)))

/-- A leader brings its progress table in line with the new membership. -/
def settleConfig (n : RaftNode) : RaftNode :=
  if n.isLeader then n.reconcileLeaderProgressWithConfig else n

/-- A leader that is not one of its own voters. -/
def leadsFromOutside (n : RaftNode) : Bool :=
  n.isLeader && decide (n.config.nodeId ∉ n.config.peers)

end RaftNode

/-- A final configuration without voters is refused. -/
def ConfigChangeEntry.isRefused (entry : ConfigChangeEntry) : Bool :=
  decide (entry.phase = .final ∧ entry.newPeers = [])

/-- The tail of `apply_config_change`: a leader that removed itself steps down
in its own term. -/
def leaveIfRemoved : RaftM Unit := do
  let n ← get
  if n.leadsFromOutside then stepDown n.hardState.currentTerm

def applyConfigChange (entry : ConfigChangeEntry) : RaftM Unit := do
  if entry.isRefused then
    throw (.invalidConfig "config-change Final phase with empty new_peers")
  else do
    modify fun n => (n.adoptConfig entry).settleConfig
    leaveIfRemoved

/-- Consume a control payload; `false` leaves it to the state machine. -/
def applyIfConfigChange (payload : List UInt8) : RaftM Bool :=
  if isNoopEntry payload then return true
  else
    match ConfigChangeEntry.decode payload with
    | some entry => do
      applyConfigChange entry
      return true
    | none => return false

end ArbitroRaft
