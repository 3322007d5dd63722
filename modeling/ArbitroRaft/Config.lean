import ArbitroRaft.Types

/-!
# Node configuration

Only the settings some modelled function reads are kept.
-/

namespace ArbitroRaft

structure TimingConfig where
  heartbeatMs : Nat
  electionMinMs : Nat
  electionMaxMs : Nat
deriving DecidableEq, Repr

def TimingConfig.initial : TimingConfig :=
  { heartbeatMs := 50, electionMinMs := 300, electionMaxMs := 600 }

structure LimitsConfig where
  appendBatchEntries : Nat
  snapshotChunkBytes : Nat
  maxSnapshotBytes : Nat
  snapshotStallTimeoutMs : Nat
  snapshotMaxAttemptsPerPeer : Nat
  snapshotAttemptCooldownMs : Nat
  compactionThresholdEntries : Nat
  compactionThresholdBytes : Nat
  compactionMinRetain : Nat
deriving DecidableEq, Repr

def LimitsConfig.initial : LimitsConfig :=
  { appendBatchEntries := 1024
    snapshotChunkBytes := 256 * 1024
    maxSnapshotBytes := 4 * 1024 * 1024 * 1024
    snapshotStallTimeoutMs := 60000
    snapshotMaxAttemptsPerPeer := 3
    snapshotAttemptCooldownMs := 5000
    compactionThresholdEntries := 4096
    compactionThresholdBytes := 64 * 1024 * 1024
    compactionMinRetain := 64 }

structure NodeConfig where
  nodeId : PeerId
  /-- Voter set, the authority for quorum arithmetic. -/
  peers : List PeerId
  /-- Non-voting members. -/
  learners : List PeerId
  /-- Ids of the static seed list. -/
  bootstrapPeers : List PeerId
  timing : TimingConfig
  limits : LimitsConfig
deriving DecidableEq, Repr

/-- The learner checks of `validate_node_config`, made in one pass over the
learners: the first offender decides which of the two messages is returned. -/
def validateLearners (peers : List PeerId) :
    List PeerId → List PeerId → Except RaftError Unit
  | _, [] => .ok ()
  | seen, learner :: rest =>
    if learner ∈ seen then
      .error (.invalidConfig "learners must not contain duplicates")
    else if learner ∈ peers then
      .error (.invalidConfig "learners must be disjoint from peers")
    else validateLearners peers (learner :: seen) rest

def validateNodeConfig (cfg : NodeConfig) : Except RaftError Unit := do
  if cfg.peers = [] then
    throw (.invalidConfig "peers must not be empty")
  if cfg.nodeId ∉ cfg.peers ∧ cfg.nodeId ∉ cfg.learners then
    throw (.invalidConfig
      "node_id must appear in peers (voter) or learners (non-voting member)")
  if cfg.bootstrapPeers = [] then
    throw (.invalidConfig "bootstrap_peers must not be empty")
  if cfg.nodeId ∉ cfg.bootstrapPeers then
    throw (.invalidConfig "bootstrap_peers must include node_id for v1 bootstrap")
  if ¬ cfg.peers.Nodup then
    throw (.invalidConfig "peers must not contain duplicates")
  validateLearners cfg.peers [] cfg.learners
  if cfg.timing.heartbeatMs = 0 then
    throw (.invalidConfig "heartbeat_ms must be > 0")
  if cfg.timing.electionMinMs ≥ cfg.timing.electionMaxMs then
    throw (.invalidConfig "election_min_ms must be < election_max_ms")
  if cfg.timing.heartbeatMs ≥ cfg.timing.electionMinMs then
    throw (.invalidConfig
      "heartbeat_ms must be < election_min_ms (recommended: heartbeat_ms * 3 <= election_min_ms)")
  if cfg.limits.snapshotChunkBytes = 0 then
    throw (.invalidConfig "snapshot_chunk_bytes must be > 0")

end ArbitroRaft
