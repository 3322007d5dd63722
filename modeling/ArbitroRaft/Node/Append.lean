import ArbitroRaft.Node.Replication

/-!
# AppendEntries: both sides

`replication/handler.rs`.  The follower checks the previous entry, scans the
batch against its log up to the first conflict or gap, cuts the log there and
stores the rest.  The seeded handler is the same code over another frame and
another storage call, so both are instances of one definition.
-/

namespace ArbitroRaft

/-- Where the conflict scan of a batch stopped. -/
inductive Scan where
  /-- An index that does not continue the batch. -/
  | malformed
  /-- Every entry is already in the log. -/
  | matched
  /-- The first entry of the rest is in the log under another term. -/
  | conflict (rest : List LogEntry)
  /-- The first entry of the rest is not in the log. -/
  | missing (rest : List LogEntry)
deriving DecidableEq, Repr

/-- The scan loop; `idx` is the position in the batch. -/
def scanEntries (localTerm : Nat → Option Nat) (start : Nat) :
    Nat → List LogEntry → Scan
  | _, [] => .matched
  | idx, e :: es =>
    if e.index ≠ satAdd start idx then .malformed
    else
      match localTerm e.index with
      | some t =>
        if t = e.term then scanEntries localTerm start (idx + 1) es
        else .conflict (e :: es)
      | none => .missing (e :: es)

namespace RaftNode

def scan (n : RaftNode) (msg : AppendEntries) (entries : List LogEntry) : Scan :=
  scanEntries n.localTerm (satAdd msg.prevLogIndex 1) 0 entries

/-- The consistency check on the entry before the batch.  An entry neither the
arena nor storage knows matches if it is the tip of the last snapshot. -/
def prevOk (n : RaftNode) (msg : AppendEntries) : Bool :=
  match n.logMetadata.getTerm msg.prevLogIndex with
  | some t => t == msg.prevLogTerm
  | none =>
    if msg.prevLogIndex = 0 then true
    else
      match n.storage.termAt msg.prevLogIndex with
      | some t => t == msg.prevLogTerm
      | none => n.cachedLastLog == (msg.prevLogIndex, msg.prevLogTerm)

/-- Become a follower of the sender. -/
def followLeader (n : RaftNode) (leaderId : PeerId) : RaftNode :=
  { n with
    softState :=
      { n.softState with role := .follower, isLeader := false, leaderId := some leaderId }
    lastLeaderContact := some n.env.now }

/-- Bookkeeping behind a stored batch: the arena and the tip cache. -/
def extendTip (n : RaftNode) (entries : List LogEntry) : RaftNode :=
  { n.recordTerms entries with
    cachedLastLog :=
      match entries.getLast? with
      | some e => (e.index, e.term)
      | none => n.cachedLastLog }

def appendResp (n : RaftNode) (msg : AppendEntries) (success : Bool)
    (matchIndex : Nat) : RaftMessage :=
  .appendEntriesResp
    { term := n.hardState.currentTerm
      matchIndex := matchIndex
      success := success
      probe := msg.probe }

end RaftNode

/-- The newest configuration change in a batch. -/
def latestConfig (entries : List LogEntry) : Option ConfigChangeEntry :=
  entries.reverse.findSome? (fun e => ConfigChangeEntry.decode e.payload)

/-- Step down to a term above the current one. -/
def observeTerm (term : Nat) : RaftM Unit := do
  let n ← get
  if n.hardState.currentTerm < term then stepDown term

/-- `storage.append_entries_seeded`, an error where it is not implemented. -/
def storeEntriesSeeded (entries : List LogEntry) : RaftM Unit := do
  let n ← get
  if n.storage.seeded then storeEntries entries
  else throw (.storage "Seeded append not implemented")

/-- Append-time activation of the newest configuration change of a batch. -/
def activateConfig (entries : List LogEntry) : RaftM Unit :=
  match latestConfig entries with
  | some entry => applyConfigChange entry
  | none => return ()

/-- Store what the scan left over, then activate its newest configuration. -/
def appendRest (store : List LogEntry → RaftM Unit) (rest : List LogEntry) :
    RaftM Unit := do
  store rest
  modify fun n => n.extendTip rest
  activateConfig rest

def truncateAt (rest : List LogEntry) : RaftM Unit :=
  match rest with
  | e :: _ => modify fun n => n.storageTruncate e.index
  | [] => return ()

def applyAppendEntriesWith (notContiguous : String)
    (store : List LogEntry → RaftM Unit)
    (msg : AppendEntries) (entries : List LogEntry) : RaftM Unit := do
  let n ← get
  match n.scan msg entries with
  | .malformed => throw (.protocol notContiguous)
  | .matched => return ()
  | .conflict rest => do
    truncateAt rest
    appendRest store rest
  | .missing rest => appendRest store rest

def applyAppendEntries (msg : AppendEntries) (entries : List LogEntry) : RaftM Unit :=
  applyAppendEntriesWith "AppendEntries entries not contiguous with prev_log_index"
    storeEntries msg entries

def applyAppendEntriesSeeded (msg : AppendEntries) (entries : List LogEntry) : RaftM Unit :=
  applyAppendEntriesWith
    "seeded AppendEntries entries not contiguous with prev_log_index"
    storeEntriesSeeded msg entries

/-- Follower-side commit adoption: clamp the leader's commit to the tip. -/
def adoptLeaderCommit (leaderCommit : Nat) : RaftM Unit :=
  modify fun n =>
    if n.softState.commitIndex < leaderCommit then
      n.setCommitIndex (min leaderCommit n.cachedLastLog.1)
    else n

def respondAppend (sender : PeerId) (msg : AppendEntries) (success : Bool)
    (matchIndex : RaftNode → Nat) : RaftM Unit := do
  let n ← get
  let _ ← sendMessage sender (n.appendResp msg success (matchIndex n))
  return ()

def handleAppendEntriesWith
    (apply : AppendEntries → List LogEntry → RaftM Unit)
    (sender : PeerId) (msg : AppendEntries) (entries : List LogEntry) :
    RaftM Unit := do
  let n ← get
  if msg.term < n.hardState.currentTerm then
    respondAppend sender msg false (fun n => n.cachedLastLog.1)
  else do
    observeTerm msg.term
    modify fun n => n.followLeader msg.leaderId
    let n ← get
    if n.prevOk msg then do
      apply msg entries
      adoptLeaderCommit msg.leaderCommit
      respondAppend sender msg true (fun n => n.cachedLastLog.1)
    else
      -- The hint never points past the entry the leader asked about.
      respondAppend sender msg false
        (fun n => min n.cachedLastLog.1 (msg.prevLogIndex - 1))

def handleAppendEntries (sender : PeerId) (msg : AppendEntries)
    (entries : List LogEntry) : RaftM Unit :=
  handleAppendEntriesWith applyAppendEntries sender msg entries

def handleAppendEntriesSeeded (sender : PeerId) (msg : AppendEntries)
    (entries : List LogEntry) : RaftM Unit :=
  handleAppendEntriesWith applyAppendEntriesSeeded sender msg entries

/-! ## The leader's side -/

/-- `next_index` after a rejection: one step back or the hint, within the
leader's own log. -/
def rejectedNext (progress : PeerProgress) (hint cap : Nat) : Nat :=
  min (max (max (progress.nextIndex - 1) (satAdd hint 1)) 1) cap

/-- Progress of a peer after a response in the run loop. -/
def PeerProgress.respond (progress : PeerProgress) (resp : AppendEntriesResp)
    (cap : Nat) : PeerProgress :=
  if resp.success then
    { matchIndex := max progress.matchIndex resp.matchIndex
      nextIndex := max progress.nextIndex (min (satAdd resp.matchIndex 1) cap) }
  else if progress.matchIndex ≤ resp.matchIndex then
    { progress with nextIndex := rejectedNext progress resp.matchIndex cap }
  else progress

def RaftNode.setProgress (n : RaftNode) (peer : PeerId) (p : PeerProgress) : RaftNode :=
  { n with peerProgress := n.peerProgress.insert peer p }

/-- One past the leader's own tip. -/
def RaftNode.nextIndexCap (n : RaftNode) : Nat := satAdd n.cachedLastLog.1 1

def handleAppendEntriesResponse (sender : PeerId) (resp : AppendEntriesResp) :
    RaftM Unit := do
  let n ← get
  if n.hardState.currentTerm < resp.term then stepDown resp.term
  else if n.isLeader then
    match n.peerProgress.get sender with
    | none => return ()
    | some progress =>
      set (n.setProgress sender (progress.respond resp n.nextIndexCap))
  else return ()

/-- Re-send from the peer's current `next_index`. -/
def retryAppend (peer : PeerId) (state : AppendAttemptState) : RaftM AppendAdvance := do
  let attempts := state.attempts + 1
  match ← sendAppendAttempt peer with
  | some last => return .retry { attempts := attempts, sentLastIndex := last }
  | none => return .dropped

def advanceAppendReplication (peer : PeerId) (target : Nat)
    (state : AppendAttemptState) (resp : AppendEntriesResp) :
    RaftM AppendAdvance := do
  let n ← get
  if n.hardState.currentTerm < resp.term then do
    stepDown resp.term
    throw (.termChanged resp.term)
  else
    match n.peerProgress.get peer with
    | none => throw (.peerUnknown peer)
    | some progress =>
      if resp.success then
        if resp.matchIndex < state.sentLastIndex then return .ignored
        else do
          set (n.setProgress peer
            { matchIndex := resp.matchIndex
              nextIndex := min (satAdd resp.matchIndex 1) n.nextIndexCap })
          if target ≤ resp.matchIndex then return .completed
          else retryAppend peer state
      else if resp.matchIndex < progress.matchIndex then return .ignored
      else do
        set (n.setProgress peer
          { progress with
            nextIndex := rejectedNext progress resp.matchIndex n.nextIndexCap })
        retryAppend peer state

end ArbitroRaft
