import ArbitroRaft.Library.Trace
import ArbitroRaft.Node.Coherent
import ArbitroRaft.Node.Driver

/-!
# Effects

What a node does is a chain of effects: the small number of ways in which the
code changes the state consensus is about.  Each effect carries the guard under
which the code has it, so an invariant that survives every effect survives
every handler; `Effect/Handlers.lean` and its neighbours show that the code
does nothing else.

`Core` is the state the effects speak of; anything else (timers, contacts,
scratch buffers) changes quietly.  A `Scope` says what a call may do: which
frames it receives, whether it may win an election, demote itself in its own
term, and so on.  A strict scope stands for a call on an uncompacted node that
receives no snapshot; there an `AppendEntries` frame is known to be a slice of
the sender's log.
-/

namespace ArbitroRaft

open Library

/-- The state consensus is about. -/
structure Core where
  env : Env
  config : NodeConfig
  storage : Storage
  sent : List SentFrame
  hardState : HardState
  role : Role
  leaderId : Option PeerId
  commitIndex : Nat
  commitIndexPub : Nat
  lastApplied : Nat
  peerProgress : PeerMap PeerProgress
  jointPeers : Option (List PeerId × List PeerId)
  logMetadata : LogMetadataArena
  scratchIndexes : List Nat
  scratchPending : PeerMap AppendAttemptState
  cachedLastLog : Nat × Nat
  snapshotBoundary : Nat × Nat

def RaftNode.core (n : RaftNode) : Core :=
  { env := n.env
    config := n.config
    storage := n.storage
    sent := n.sent
    hardState := n.hardState
    role := n.softState.role
    leaderId := n.softState.leaderId
    commitIndex := n.softState.commitIndex
    commitIndexPub := n.commitIndexPub
    lastApplied := n.lastApplied
    peerProgress := n.peerProgress
    jointPeers := n.jointPeers
    logMetadata := n.logMetadata
    scratchIndexes := n.scratchIndexes
    scratchPending := n.scratchPending
    cachedLastLog := n.cachedLastLog
    snapshotBoundary := n.snapshotBoundary }

/-- State that few operations write: the transfers being received, the sanctioned
campaign, the token of reads and those who answered a campaign. -/
def RaftNode.aside (n : RaftNode) :=
  (n.pendingSnapshots, n.forcedCampaignTerm, n.readProbeSeq, n.scratchResponders)

/-- The same log and caches. -/
structure SameStore (n n' : RaftNode) : Prop where
  entries : n'.storage.entries = n.storage.entries
  snapshot : n'.storage.snapshot = n.storage.snapshot
  arena : n'.logMetadata = n.logMetadata
  cached : n'.cachedLastLog = n.cachedLastLog
  boundary : n'.snapshotBoundary = n.snapshotBoundary

/-- The same log, committed and applied as far. -/
structure SameLog (n n' : RaftNode) : Prop extends SameStore n n' where
  commit : n'.softState.commitIndex = n.softState.commitIndex
  pub : n'.commitIndexPub = n.commitIndexPub
  applied : n'.lastApplied = n.lastApplied

theorem SameStore.refl (n : RaftNode) : SameStore n n := ⟨rfl, rfl, rfl, rfl, rfl⟩

theorem SameStore.trans {n n' n'' : RaftNode} (h : SameStore n n')
    (h' : SameStore n' n'') : SameStore n n'' :=
  ⟨h'.entries.trans h.entries, h'.snapshot.trans h.snapshot, h'.arena.trans h.arena,
    h'.cached.trans h.cached, h'.boundary.trans h.boundary⟩

theorem SameLog.refl (n : RaftNode) : SameLog n n :=
  ⟨SameStore.refl n, rfl, rfl, rfl⟩

theorem SameLog.trans {n n' n'' : RaftNode} (h : SameLog n n') (h' : SameLog n' n'') :
    SameLog n n'' :=
  ⟨h.toSameStore.trans h'.toSameStore, h'.commit.trans h.commit, h'.pub.trans h.pub,
    h'.applied.trans h.applied⟩

variable {n n' : RaftNode}

theorem SameLog.of_core (h : n'.core = n.core) : SameLog n n' where
  entries := congrArg (fun c => c.storage.entries) h
  snapshot := congrArg (fun c => c.storage.snapshot) h
  arena := congrArg Core.logMetadata h
  cached := congrArg Core.cachedLastLog h
  boundary := congrArg Core.snapshotBoundary h
  commit := congrArg Core.commitIndex h
  pub := congrArg Core.commitIndexPub h
  applied := congrArg Core.lastApplied h

theorem SameStore.termAt (h : SameStore n n') (i : Nat) :
    n'.storage.termAt i = n.storage.termAt i := by
  simp only [Storage.termAt, Storage.entryAt, h.entries]

/-! What the checks on a message read is the log and its caches. -/

theorem SameStore.localTerm (h : SameStore n n') : n'.localTerm = n.localTerm := by
  funext i
  simp only [RaftNode.localTerm, h.arena, h.termAt]

theorem SameStore.scan (h : SameStore n n') (msg : AppendEntries) (entries : List LogEntry) :
    n'.scan msg entries = n.scan msg entries := by
  simp only [RaftNode.scan, h.localTerm]

theorem SameStore.prevOk (h : SameStore n n') (msg : AppendEntries) :
    n'.prevOk msg = n.prevOk msg := by
  simp only [RaftNode.prevOk, h.arena, h.termAt, h.cached]

theorem SameStore.stored (h : SameStore n n') (rest : List LogEntry) :
    SameStore (n.stored rest) (n'.stored rest) := by
  refine ⟨?_, h.snapshot, ?_, ?_, h.boundary⟩
  · simp only [RaftNode.stored, RaftNode.extendTip, RaftNode.recordTerms,
      Storage.appendEntries, h.entries]
  · simp only [RaftNode.stored, RaftNode.extendTip, RaftNode.recordTerms, h.arena]
  · simp only [RaftNode.stored, RaftNode.extendTip, h.cached]

theorem SameStore.cutAt (h : SameStore n n') (rest : List LogEntry) :
    SameStore (n.cutAt rest) (n'.cutAt rest) := by
  cases rest with
  | nil => exact h
  | cons e rest =>
    refine ⟨?_, h.snapshot, ?_, ?_, h.boundary⟩
    · simp only [RaftNode.cutAt, RaftNode.storageTruncate, Storage.truncateSuffix, h.entries]
    · simp only [RaftNode.cutAt, RaftNode.storageTruncate, h.arena]
    · simp only [RaftNode.cutAt, RaftNode.storageTruncate, Storage.truncateSuffix,
        Storage.lastLogPosition, h.entries]

theorem SameStore.spliced (h : SameStore n n') (msg : AppendEntries) (entries : List LogEntry) :
    SameStore (n.spliced msg entries) (n'.spliced msg entries) := by
  unfold RaftNode.spliced
  rw [h.scan]
  cases n.scan msg entries with
  | malformed => exact h
  | matched => exact h
  | conflict rest => exact (h.cutAt rest).stored rest
  | missing rest => exact h.stored rest

theorem Coherent.of_sameStore (h : Coherent n) (hs : SameStore n n') : Coherent n' := by
  refine ⟨?_, ?_, ?_, ?_, hs.snapshot ▸ h.snapshot, hs.boundary ▸ h.boundary⟩
  · rw [hs.entries]
    exact h.contiguous
  · rw [hs.entries]
    exact h.bounded
  · rw [hs.cached, hs.entries]
    exact h.cached
  · intro i t hi
    rw [hs.arena] at hi
    rw [hs.termAt]
    exact h.arena i t hi

def InstallSnapshot.snapshotMeta (msg : InstallSnapshot) : SnapshotMeta :=
  { lastIncludedIndex := msg.lastIncludedIndex, lastIncludedTerm := msg.lastIncludedTerm }

/-- What a call may do. -/
structure Scope where
  /-- The frames it receives. -/
  rx : InboundRaftMessage → Prop
  /-- Where it may become a candidate. -/
  stands : Core → Prop
  /-- The terms it may become leader of. -/
  crowns : Nat → Prop
  /-- Where it may step down in its own term. -/
  demotes : Core → Prop
  /-- It may append entries of its own. -/
  appends : Prop
  /-- The batches it may append. -/
  batch : List EntryPayload → Prop
  /-- It may restore the state machine from the saved snapshot. -/
  restores : Prop
  /-- It may compact the log. -/
  compacts : Prop
  /-- It may apply a configuration change. -/
  control : Prop
  /-- The changes it may apply. -/
  change : ConfigChangeEntry → Prop
  /-- Finished gathers it may commit. -/
  gather : Gather → Prop
  /-- How it may change which acknowledgements are awaited. -/
  pends : PeerMap AppendAttemptState → PeerMap AppendAttemptState → Prop
  /-- The node is uncompacted and receives no snapshot. -/
  strict : Prop
  /-- States equivalent to the one the current frame arrived in. -/
  fresh : Core → Prop
  /-- The newer terms it may find. -/
  raises : Nat → Prop := fun _ => True
  /-- The terms it may fail to save. -/
  refuses : Nat → Prop := fun _ => True
  /-- The indices it may decide to commit, by the state it decides in. -/
  decides : Core → Nat → Prop := fun _ _ => True
  /-- The chunks that complete a snapshot. -/
  completes : PeerId → InstallSnapshot → List UInt8 → Prop := fun _ _ _ => True
  /-- It may start a read. -/
  probes : Prop := True
  /-- It may note who answers a campaign. -/
  polls : Prop := True

variable {sc : Scope}

namespace RaftNode

def withHard (n : RaftNode) (h : HardState) : RaftNode := { n with hardState := h }

def savedHard (n : RaftNode) : RaftNode :=
  { n with storage := n.storage.saveHardState n.hardState }

/-- Storage refuses to save `h`. -/
def Unsaved (n : RaftNode) (h : HardState) : Prop :=
  n.env.saveFails n.storage.hardState h ≠ none

theorem Unsaved.of_core {n n' : RaftNode} {h : HardState} (hc : n'.core = n.core)
    (hu : n.Unsaved h) : n'.Unsaved h := by
  have henv : n'.env = n.env := congrArg Core.env hc
  have hstorage : n'.storage = n.storage := congrArg Core.storage hc
  unfold Unsaved
  rw [henv, hstorage]
  exact hu

/-- Storage refuses to append `rest`. -/
def Refuses (n : RaftNode) (rest : List LogEntry) : Prop :=
  maxEntries < n.storage.entries.length + rest.length ∨ n.env.appendFails rest ≠ none

/-- The chunk is the last one and goes behind what is buffered. -/
def FitsBehind (n : RaftNode) (buffered : List UInt8) (msg : InstallSnapshot) (chunk : List UInt8) :
    Prop :=
  msg.done = true ∧ buffered.length = msg.offset ∧
    (buffered ++ chunk).length ≤ n.config.limits.maxSnapshotBytes
deriving Decidable

/-- The chunk is the last one of a transfer that fits and is complete with it. -/
def CompletedBy (n : RaftNode) (sender : PeerId) (msg : InstallSnapshot)
    (chunk : List UInt8) : Prop :=
  chunk.length % 2 ^ 32 = msg.chunkLen ∧
    n.FitsBehind (n.evictStalledSnapshots.pendingFor sender msg.snapshotMeta msg.offset).bytes msg chunk
deriving Decidable

/-- The node saves the snapshot with this chunk: it comes from a voter in the
current term, or in a newer one that is saved and drops the transfers so far. -/
def Completes (n : RaftNode) (sender : PeerId) (msg : InstallSnapshot) (chunk : List UInt8) :
    Prop :=
  sender ∈ n.config.peers ∧
    (n.hardState.currentTerm = msg.term ∧ n.CompletedBy sender msg chunk ∨
      n.hardState.currentTerm < msg.term ∧ ¬ n.Unsaved ⟨msg.term, none⟩ ∧
        { n with pendingSnapshots := PeerMap.empty }.CompletedBy sender msg chunk)

/-- The scope allows to find the term `t`, and that it is not saved. -/
def Finds (n : RaftNode) (sc : Scope) (t : Nat) : Prop :=
  sc.raises t ∧ (n.Unsaved ⟨t, none⟩ → sc.refuses t)

theorem Finds.of_core {n n' : RaftNode} {t : Nat} (h : n.Finds sc t) (hc : n'.core = n.core) :
    n'.Finds sc t :=
  ⟨h.1, fun hu => h.2 (hu.of_core hc.symm)⟩

/-- The scope allows what handling `msg` in this state may save or fail to save. -/
structure Known (n : RaftNode) (sc : Scope) (msg : RaftMessage) : Prop where
  completes : ∀ sender m chunk, n.Completes sender m chunk → sc.completes sender m chunk
  finds : ∀ t, msg.observedTerm = some t → n.Finds sc t

/-- Append-time activation on a follower. -/
def activated (n : RaftNode) (rest : List LogEntry) : RaftNode :=
  match latestConfig rest with
  | some entry => n.adoptConfig entry
  | none => n

/-- The log and the configuration once a message is taken over. -/
def tookOver (n : RaftNode) (msg : AppendEntries) (entries : List LogEntry) : RaftNode :=
  match n.scan msg entries with
  | .conflict rest | .missing rest => (n.spliced msg entries).activated rest
  | .matched | .malformed => n

/-- The follower's commit rule. -/
def adopted (n : RaftNode) (leaderCommit : Nat) : RaftNode :=
  if n.softState.commitIndex < leaderCommit then
    n.setCommitIndex (min leaderCommit n.cachedLastLog.1)
  else n

/-- An optional frame. -/
def replied (n : RaftNode) (reply : Bool) (peer : PeerId) (msg : RaftMessage) : RaftNode :=
  if reply then n.putOnWire peer msg else n

/-- The term `quorum_term` finds for an index. -/
def quorumTermOf (n : RaftNode) (index : Nat) : Nat :=
  if index = n.cachedLastLog.1 then n.cachedLastLog.2
  else
    match n.logMetadata.getTerm index with
    | some t => t
    | none => (n.storage.termAt index).getD 0

/-- The quorum rule may commit `q`. -/
def MeetsQuorum (n : RaftNode) (q : Nat) : Prop :=
  n.quorumIndex = some q ∧ n.quorumTermOf q = n.hardState.currentTerm

/-- `propose_batch_once` may commit `q` behind the gather. -/
def CommitsGather (n : RaftNode) (g : Gather) (q : Nat) : Prop :=
  if n.jointPeers = none ∧ n.isLeader ∧ n.hardState.currentTerm = g.proposeTerm ∧
      g.needed ≤ g.accepted then q = g.lastIndex
  else n.MeetsQuorum q

/-- The answer to an accepted message. -/
def ackOf (n : RaftNode) (msg : AppendEntries) : RaftMessage :=
  n.appendResp msg true n.cachedLastLog.1

end RaftNode

/-- The header of an `AppendEntries` message. -/
def RaftMessage.appendHeader? : RaftMessage → Option AppendEntries
  | .appendEntries msg _ | .appendEntriesSeeded msg _ => some msg
  | _ => none

/-- What a sent frame says about its sender. -/
def SendOk (sc : Scope) (n : RaftNode) : RaftMessage → Prop
  | .requestVote m =>
    m = n.voteRequest n.hardState.currentTerm ∧ n.softState.role = .candidate ∧
      n.hardState.votedFor = some n.config.nodeId ∧ n.storage.hardState = n.hardState
  | .requestVoteResp m => m.term = n.hardState.currentTerm ∧ m.voteGranted = false
  | .preVote m => m.term = satAdd n.hardState.currentTerm 1
  | .preVoteResp m => m.term = n.hardState.currentTerm
  | .appendEntries m entries | .appendEntriesSeeded m entries =>
    m.term = n.hardState.currentTerm ∧ m.leaderId = n.config.nodeId ∧
      m.leaderCommit = n.softState.commitIndex ∧ m.probe = n.readProbeSeq ∧
      (sc.strict → n.isLeader = true ∧
        Slice (absLog n.storage.entries) m.prevLogIndex m.prevLogTerm entries)
  | .appendEntriesResp m => m.term = n.hardState.currentTerm ∧ m.success = false ∧
    ∃ f, sc.rx f ∧ f.message.appendHeader?.isSome
  | .installSnapshot m _ => m.term = n.hardState.currentTerm ∧ ¬ sc.strict
  | .installSnapshotResp m => m.term = n.hardState.currentTerm
  | .timeoutNow m => m.term = n.hardState.currentTerm
  | .custom _ | .customResponse _ => True

/-- Frames go to other members or back to the sender of a received frame.  This
is recorded for vote requests, and for all frames of a strict scope. -/
def Addressed (sc : Scope) (n : RaftNode) (peer : PeerId) (msg : RaftMessage) : Prop :=
  (sc.strict ∨ ∃ m, msg = .requestVote m) →
    peer ≠ n.config.nodeId ∨ ∃ f, sc.rx f ∧ f.sender = peer

/-- The log is still the one the action or the frame found. -/
def Arrived (sc : Scope) (n : RaftNode) : Prop :=
  ∃ m : RaftNode, sc.fresh m.core ∧ SameLog m n

theorem Arrived.sameLog (h : Arrived sc n) (hs : SameLog n n') : Arrived sc n' := by
  obtain ⟨m, hf, hm⟩ := h
  exact ⟨m, hf, hm.trans hs⟩

/-- An `AppendEntries` frame passed the term and consistency checks. -/
structure Receives (sc : Scope) (n : RaftNode) (sender : PeerId) (msg : AppendEntries)
    (entries : List LogEntry) : Prop where
  rx : sc.rx ⟨sender, .appendEntries msg entries⟩ ∨
    sc.rx ⟨sender, .appendEntriesSeeded msg entries⟩
  term : msg.term = n.hardState.currentTerm
  role : n.softState.role = .follower
  prevOk : n.prevOk msg = true
  shaped : sc.strict → Contiguous LogEntry.index msg.prevLogIndex entries
  fresh : ∃ m : RaftNode, sc.fresh m.core ∧ SameLog m n ∧
    m.hardState.currentTerm ≤ msg.term

theorem Receives.toArrived {sender : PeerId} {msg : AppendEntries} {entries : List LogEntry}
    (h : Receives sc n sender msg entries) : Arrived sc n := by
  obtain ⟨m, hfresh, hsame, -⟩ := h.fresh
  exact ⟨m, hfresh, hsame⟩

/-- Writes of the hard state; where the save fails the memory keeps the new
value. -/
inductive HardEffect (sc : Scope) (n : RaftNode) : RaftNode → Prop
  | steppedDown (t : Nat) : n.hardState.currentTerm < t → sc.raises t →
      HardEffect sc n (n.withHard ⟨t, none⟩).savedHard.demoteToFollowerKeepTerm
  | stepDownFailed (t : Nat) : n.hardState.currentTerm < t → sc.raises t →
      n.Unsaved ⟨t, none⟩ → sc.refuses t → HardEffect sc n (n.withHard ⟨t, none⟩)
  | abdicated : sc.demotes n.core → n.isLeader = true →
      HardEffect sc n
        (n.withHard ⟨n.hardState.currentTerm, none⟩).savedHard.demoteToFollowerKeepTerm
  | abdicationFailed : sc.demotes n.core → n.isLeader = true →
      n.Unsaved ⟨n.hardState.currentTerm, none⟩ →
      HardEffect sc n (n.withHard ⟨n.hardState.currentTerm, none⟩)
  | stood : sc.stands n.core → n.config.nodeId ∈ n.config.peers →
      HardEffect sc n n.becomeCandidate.savedHard
  | standFailed : sc.stands n.core → n.config.nodeId ∈ n.config.peers →
      n.Unsaved n.becomeCandidate.hardState →
      HardEffect sc n n.becomeCandidate
  | granted (sender : PeerId) (msg : RequestVote) (reply : Bool) :
      sc.rx ⟨sender, .requestVote msg⟩ → n.canVote msg = true →
      HardEffect sc n ((n.castVote msg.candidateId).savedHard.replied reply sender
        (.requestVoteResp ⟨n.hardState.currentTerm, true⟩))
  | grantFailed (sender : PeerId) (msg : RequestVote) :
      sc.rx ⟨sender, .requestVote msg⟩ → n.canVote msg = true →
      n.Unsaved (n.castVote msg.candidateId).hardState →
      HardEffect sc n (n.castVote msg.candidateId)

/-- Where `term_at` finds the term of an index. -/
def TermKnown (n : RaftNode) (index t : Nat) : Prop :=
  index = 0 ∧ t = 0 ∨ n.cachedLastLog = (index, t) ∨
    n.logMetadata.getTerm index = some t ∨ n.snapshotBoundary = (index, t) ∨
    n.storage.termAt index = some t

/-- The part of a received batch that goes into the log. -/
def RaftNode.fresh (n : RaftNode) (msg : AppendEntries) (entries : List LogEntry) : List LogEntry :=
  match n.scan msg entries with
  | .conflict rest | .missing rest => rest
  | .matched | .malformed => []

/-- The newest change of `rest` is one that is refused. -/
def ActivationFails (rest : List LogEntry) : Prop :=
  ∃ c, latestConfig rest = some c ∧ c.isRefused = true

/-- Changes of the log and its caches. -/
inductive LogEffect (sc : Scope) (n : RaftNode) : RaftNode → Prop
  /-- The conflicting tail went and the append behind it failed. -/
  | cut (sender : PeerId) (msg : AppendEntries) (entries rest : List LogEntry) :
      Receives sc n sender msg entries → n.scan msg entries = .conflict rest →
      (n.cutAt rest).Refuses rest ∨ n.storage.seeded = false ∧
        sc.rx ⟨sender, .appendEntriesSeeded msg entries⟩ →
      LogEffect sc n (n.cutAt rest)
  /-- The entries are stored and the activation behind them failed. -/
  | spliced (sender : PeerId) (msg : AppendEntries) (entries : List LogEntry) :
      Receives sc n sender msg entries → n.scan msg entries ≠ .malformed →
      n.scan msg entries ≠ .matched →
      (n.spliced msg entries).storage.entries.length ≤ maxEntries →
      ActivationFails (n.fresh msg entries) →
      LogEffect sc n (n.spliced msg entries)
  | accepted (sender : PeerId) (msg : AppendEntries) (entries : List LogEntry)
      (reply : Bool) :
      Receives sc n sender msg entries → n.scan msg entries ≠ .malformed →
      n.scan msg entries = .matched ∨
        (n.spliced msg entries).storage.entries.length ≤ maxEntries →
      LogEffect sc n
        (((n.tookOver msg entries).adopted msg.leaderCommit).replied reply sender
          (((n.tookOver msg entries).adopted msg.leaderCommit).ackOf msg))
  | led (payloads : List EntryPayload) : sc.appends → Arrived sc n → n.isLeader = true →
      n.storage.entries.length + (n.proposedBatch payloads).length ≤ maxEntries →
      sc.batch payloads →
      LogEffect sc n (n.stored (n.proposedBatch payloads))
  | learned (index t : Nat) : n.storage.termAt index = some t →
      LogEffect sc n { n with logMetadata := n.logMetadata.append index t }
  | installed (sender : PeerId) (msg : InstallSnapshot) (chunk bytes : List UInt8) :
      ¬ sc.strict → sc.rx ⟨sender, .installSnapshot msg chunk⟩ → msg.done = true →
      (∃ m : RaftNode, sc.fresh m.core ∧ SameLog m n ∧
        m.hardState.currentTerm ≤ msg.term) →
      n.softState.role = .follower → sc.completes sender msg chunk →
      LogEffect sc n
        (n.completeSnapshot ⟨msg.lastIncludedIndex, msg.lastIncludedTerm⟩ bytes)
  | restored (m : SnapshotMeta) : sc.restores → Arrived sc n →
      n.storage.loadSnapshotMeta = some m →
      n.lastApplied < m.lastIncludedIndex →
      LogEffect sc n (n.restoredFrom m)
  | compacted (term : Nat) (bytes : List UInt8) : ¬ sc.strict ∧ sc.compacts →
      n.lastApplied ≠ 0 →
      (∀ m, n.storage.loadSnapshotMeta = some m → m.lastIncludedIndex < n.lastApplied) →
      TermKnown n n.lastApplied term →
      LogEffect sc n (n.compacted term bytes n.compactionHorizon)

namespace PeerProgress

/-- Progress once a gather has the acknowledgement of `matched`. -/
def acknowledged (matched cap : Nat) : PeerProgress :=
  { matchIndex := matched, nextIndex := min (satAdd matched 1) cap }

/-- Progress once the snapshot up to `boundary` is installed, under a leader's log
that ends at `tip`. -/
def anchored (p : PeerProgress) (boundary tip : Nat) : PeerProgress :=
  { matchIndex := max p.matchIndex (min boundary tip)
    nextIndex := max p.nextIndex (min (satAdd boundary 1) (satAdd tip 1)) }

end PeerProgress

/-- How the progress `old` of `peer` may move with the response `resp`: as the run
loop moves it, or as a gather does that awaits the peer. -/
inductive RaftNode.Advance (n : RaftNode) (gathers : Prop) (peer : PeerId)
    (old : PeerProgress) (resp : AppendEntriesResp) : PeerProgress → Prop
  | responded : n.isLeader = true →
      Advance n gathers peer old resp (old.respond resp n.nextIndexCap)
  | acked (state : AppendAttemptState) : gathers → n.scratchPending.get peer = some state →
      resp.success = true → state.sentLastIndex ≤ resp.matchIndex →
      Advance n gathers peer old resp (.acknowledged resp.matchIndex n.nextIndexCap)
  | backed (state : AppendAttemptState) : gathers → n.scratchPending.get peer = some state →
      resp.success = false → old.matchIndex ≤ resp.matchIndex →
      Advance n gathers peer old resp
        { old with nextIndex := rejectedNext old resp.matchIndex n.nextIndexCap }

/-- How the code decides to raise the commit index on its own account: the
quorum rule of `try_advance_commit_index`, or a gather that reached its
target. -/
inductive CommitRule (sc : Scope) (n : RaftNode) (q : Nat) : Prop
  | quorum : ¬ (1 < n.config.peers.length ∧ n.peerProgress.isEmpty = true) →
      n.quorumIndex = some q → n.quorumTermOf q = n.hardState.currentTerm →
      CommitRule sc n q
  | gather (g : Gather) : sc.gather g → q = g.lastIndex → n.jointPeers = none →
      n.isLeader = true → n.hardState.currentTerm = g.proposeTerm →
      g.needed ≤ g.accepted → CommitRule sc n q

/-- What is written aside: transfers are dropped, or received with a chunk, a
campaign is sanctioned by a `TimeoutNow`. -/
structure Notes (sc : Scope) (n n' : RaftNode) : Prop where
  transfers : (∀ slot ∈ n'.pendingSnapshots, slot ∈ n.pendingSnapshots) ∨
    ∃ sender msg chunk, sc.rx ⟨sender, .installSnapshot msg chunk⟩
  sanction : n'.forcedCampaignTerm = n.forcedCampaignTerm ∨
    ∃ sender msg, sc.rx ⟨sender, .timeoutNow msg⟩
  token : n'.readProbeSeq = n.readProbeSeq ∨ sc.probes
  responders : n'.scratchResponders = n.scratchResponders ∨ sc.polls

theorem Notes.same (h : n'.aside = n.aside) : Notes sc n n' := by
  simp only [RaftNode.aside, Prod.mk.injEq] at h
  obtain ⟨hslots, hsanction, htoken, hresponders⟩ := h
  exact ⟨.inl fun _ hs => hslots ▸ hs, .inl hsanction, .inl htoken, .inl hresponders⟩

inductive Effect (sc : Scope) (n : RaftNode) : RaftNode → Prop
  | quiet (n' : RaftNode) : n'.core = n.core → Notes sc n n' → Effect sc n n'
  | sent (peer : PeerId) (msg : RaftMessage) : SendOk sc n msg → Addressed sc n peer msg →
      Effect sc n (n.putOnWire peer msg)
  | hard (n' : RaftNode) : HardEffect sc n n' → Effect sc n n'
  | log (n' : RaftNode) : LogEffect sc n n' → Effect sc n n'
  | demoted : Effect sc n n.demoteToFollowerKeepTerm
  | followed (leaderId : PeerId) :
      (∃ sender msg entries, (sc.rx ⟨sender, .appendEntries msg entries⟩ ∨
        sc.rx ⟨sender, .appendEntriesSeeded msg entries⟩) ∧
        msg.term = n.hardState.currentTerm) ∨ ¬ sc.strict →
      Effect sc n (n.followSnapshotLeader leaderId)
  | crowned : n.softState.role = .candidate → sc.crowns n.hardState.currentTerm →
      Effect sc n n.becomeLeader
  | initialized : n.isLeader = true → n.peerProgress.isEmpty = true →
      Effect sc n n.initializeLeaderProgress
  | progressed (peer : PeerId) (old p : PeerProgress) (resp : AppendEntriesResp) :
      sc.rx ⟨peer, .appendEntriesResp resp⟩ → sc.fresh n.core →
      resp.term ≤ n.hardState.currentTerm → n.peerProgress.get peer = some old →
      n.Advance (∀ m k, sc.pends m (m.remove k)) peer old resp p →
      Effect sc n (n.setProgress peer p)
  | rebased (peer : PeerId) (old p : PeerProgress) : ¬ sc.strict →
      n.peerProgress.get peer = some old →
      (∃ boundary, p = old.anchored boundary n.cachedLastLog.1) →
      Effect sc n (n.setProgress peer p)
  | committed (q : Nat) : n.softState.commitIndex < q → CommitRule sc n q →
      sc.decides n.core q → Effect sc n (n.setCommitIndex q)
  | applied (e : LogEntry) : n.storage.entryAt (n.lastApplied + 1) = some e →
      n.lastApplied + 1 ≤ n.softState.commitIndex → sc.control →
      Effect sc n (n.markApplied (n.lastApplied + 1) e.payload.length)
  | reconfigured (entry : ConfigChangeEntry) : sc.control → sc.change entry →
      entry.isRefused = false →
      Effect sc n (n.adoptConfig entry).settleConfig
  /-- The indices of a proposed batch are noted. -/
  | indexed (indexes : List Nat) : sc.appends →
      Effect sc n { n with scratchIndexes := indexes }
  | pended (m : PeerMap AppendAttemptState) : sc.pends n.scratchPending m →
      (n.scratchPending.keys.Nodup → m.keys.Nodup) →
      Effect sc n { n with scratchPending := m }

/-! ## Coherence -/

theorem buildBatch_length (term index : Nat) (payloads : List EntryPayload) :
    (buildBatch term index payloads).length = payloads.length := by
  induction payloads generalizing index with
  | nil => rfl
  | cons p ps ih => simp only [buildBatch, List.length_cons, ih]

theorem le_index_of_mem_buildBatch {term index : Nat} {payloads : List EntryPayload}
    {e : LogEntry} (he : e ∈ buildBatch term index payloads) : index ≤ e.index := by
  induction payloads generalizing index with
  | nil => cases he
  | cons p ps ih =>
    rcases List.mem_cons.mp he with rfl | he
    · exact le_rfl
    · exact (Nat.le_succ index).trans (ih he)

theorem contiguous_buildBatch (term b : Nat) (payloads : List EntryPayload) :
    Contiguous LogEntry.index b (buildBatch term (b + 1) payloads) := by
  induction payloads generalizing b with
  | nil => exact trivial
  | cons p ps ih => exact ⟨rfl, ih (b + 1)⟩

theorem Coherent.contiguous_proposedBatch (h : Coherent n) (payloads : List EntryPayload) :
    Contiguous LogEntry.index n.storage.entries.length (n.proposedBatch payloads) := by
  unfold RaftNode.proposedBatch
  rw [h.cached, h.satAdd_length]
  exact contiguous_buildBatch _ _ _

theorem SameLog.adoptConfig (n : RaftNode) (entry : ConfigChangeEntry) :
    SameLog n (n.adoptConfig entry) := by
  unfold RaftNode.adoptConfig
  cases entry.phase <;> exact ⟨⟨rfl, rfl, rfl, rfl, rfl⟩, rfl, rfl, rfl⟩

theorem SameLog.activated (n : RaftNode) (rest : List LogEntry) : SameLog n (n.activated rest) := by
  unfold RaftNode.activated
  split
  · exact .adoptConfig n _
  · exact .refl n

/-- Adopting a configuration leaves the log alone. -/
theorem SameLog.tookOver (n : RaftNode) (msg : AppendEntries) (entries : List LogEntry) :
    SameLog (n.spliced msg entries) (n.tookOver msg entries) := by
  unfold RaftNode.tookOver RaftNode.spliced
  cases n.scan msg entries with
  | malformed => exact .refl n
  | matched => exact .refl n
  | conflict rest => exact .activated _ rest
  | missing rest => exact .activated _ rest

theorem SameStore.adopted (n : RaftNode) (leaderCommit : Nat) :
    SameStore n (n.adopted leaderCommit) := by
  unfold RaftNode.adopted
  split <;> exact ⟨rfl, rfl, rfl, rfl, rfl⟩

theorem SameLog.replied (n : RaftNode) (reply : Bool) (peer : PeerId)
    (msg : RaftMessage) : SameLog n (n.replied reply peer msg) := by
  cases reply <;> exact ⟨⟨rfl, rfl, rfl, rfl, rfl⟩, rfl, rfl, rfl⟩

theorem hardState_replied (n : RaftNode) (reply : Bool) (peer : PeerId) (answer : RaftMessage) :
    (n.replied reply peer answer).hardState = n.hardState := by
  cases reply <;> rfl

/-- The store behind an accepted message is the spliced one. -/
theorem SameStore.accepted (n : RaftNode) (msg : AppendEntries) (entries : List LogEntry)
    (reply : Bool) (peer : PeerId) (answer : RaftMessage) :
    SameStore (n.spliced msg entries)
      (((n.tookOver msg entries).adopted msg.leaderCommit).replied reply peer answer) :=
  ((SameLog.tookOver n msg entries).toSameStore.trans (SameStore.adopted _ _)).trans
    (SameLog.replied _ _ _ _).toSameStore

theorem SameLog.foldl {α : Type*} {f : RaftNode → α → RaftNode}
    (h : ∀ n a, SameLog n (f n a)) (l : List α) (n : RaftNode) : SameLog n (l.foldl f n) := by
  induction l generalizing n with
  | nil => exact .refl n
  | cons a l ih => exact (h n a).trans (ih (f n a))

/-- What no step of a fold changes the fold does not change. -/
theorem foldl_same {α β : Type*} {g : RaftNode → β} {f : RaftNode → α → RaftNode}
    (h : ∀ n a, g (f n a) = g n) (l : List α) (n : RaftNode) : g (l.foldl f n) = g n := by
  induction l generalizing n with
  | nil => rfl
  | cons a l ih => exact (ih (f n a)).trans (h n a)

theorem SameLog.settleConfig (n : RaftNode) : SameLog n n.settleConfig := by
  unfold RaftNode.settleConfig RaftNode.reconcileLeaderProgressWithConfig
  split
  · refine .trans (.foldl ?_ _ n) (.foldl ?_ _ _)
    · exact fun n a => ⟨⟨rfl, rfl, rfl, rfl, rfl⟩, rfl, rfl, rfl⟩
    · intro n a
      unfold RaftNode.addProgress
      split <;> exact ⟨⟨rfl, rfl, rfl, rfl, rfl⟩, rfl, rfl, rfl⟩
  · exact .refl n

theorem HardEffect.sameLog (h : HardEffect sc n n') : SameLog n n' := by
  cases h with
  | granted sender msg reply hrx hv =>
    cases reply <;> exact ⟨⟨rfl, rfl, rfl, rfl, rfl⟩, rfl, rfl, rfl⟩
  | _ => exact ⟨⟨rfl, rfl, rfl, rfl, rfl⟩, rfl, rfl, rfl⟩

theorem LogEffect.coherent (h : LogEffect sc n n') (hs : sc.strict) (hn : Coherent n) :
    Coherent n' := by
  cases h with
  | cut sender msg entries rest hr hscan =>
    obtain ⟨e, tl, k, rfl, he, -, -⟩ :=
      hn.conflict_pos (hr.shaped hs) hr.prevOk hscan
    exact hn.cutAt he
  | spliced sender msg entries hr _ _ hb =>
    exact hn.spliced (hr.shaped hs) hr.prevOk hb
  | accepted sender msg entries reply hr _ hb =>
    refine Coherent.of_sameStore ?_ (SameStore.accepted n msg entries reply sender _)
    rcases hb with hm | hb
    · unfold RaftNode.spliced
      rw [hm]
      exact hn
    · exact hn.spliced (hr.shaped hs) hr.prevOk hb
  | led payloads _ _ _ hb => exact hn.stored (hn.contiguous_proposedBatch payloads) hb
  | learned index t ht => exact hn.learned ht
  | installed sender msg chunk bytes hno => exact absurd hs hno
  | restored m _ _ hm =>
    rw [Storage.loadSnapshotMeta, hn.snapshot] at hm
    cases hm
  | compacted term bytes hno => exact absurd hs hno.1

/-- An uncompacted node stays one. -/
theorem Effect.coherent (h : Effect sc n n') (hs : sc.strict) (hn : Coherent n) : Coherent n' := by
  cases h with
  | quiet _ hq => exact hn.of_sameStore (SameLog.of_core hq).toSameStore
  | hard _ hh => exact hn.of_sameStore hh.sameLog.toSameStore
  | log _ hl => exact hl.coherent hs hn
  | reconfigured entry _ =>
    exact hn.of_sameStore ((SameLog.adoptConfig n entry).trans
      (.settleConfig _)).toSameStore
  | _ => exact hn.of_sameStore ⟨rfl, rfl, rfl, rfl, rfl⟩

/-! ## Chains of effects -/

/-- A chain of effects.  In a strict scope it may assume that the node is
uncompacted. -/
def Moves (sc : Scope) (n n' : RaftNode) : Prop :=
  (sc.strict → Coherent n) →
    Relation.ReflTransGen (Effect sc) n n' ∧ (sc.strict → Coherent n')

instance (sc : Scope) : Std.Refl (Moves sc) where
  refl _ h := ⟨Relation.ReflTransGen.refl, h⟩

instance (sc : Scope) : IsTrans RaftNode (Moves sc) where
  trans _ _ _ h h' hn := by
    obtain ⟨hchain, hcoh⟩ := h hn
    obtain ⟨hchain', hcoh'⟩ := h' hcoh
    exact ⟨hchain.trans hchain', hcoh'⟩

theorem Moves.of_effect (h : (sc.strict → Coherent n) → Effect sc n n') : Moves sc n n' :=
  fun hn => ⟨.single (h hn), fun hs => (h hn).coherent hs (hn hs)⟩

/-- What every effect preserves a chain of effects preserves. -/
theorem Moves.preserves {J : RaftNode → Prop} (h : Moves sc n n') (hns : ¬ sc.strict) (hn : J n)
    (heff : ∀ m m', J m → Effect sc m m' → J m') : J n' := by
  have hchain := (h fun hs => absurd hs hns).1
  clear h
  induction hchain with
  | refl => exact hn
  | tail _ he ih => exact heff _ _ ih he

theorem Moves.noted (h : n'.core = n.core) (hn : Notes sc n n') : Moves sc n n' :=
  .of_effect fun _ => .quiet n' h hn

theorem Moves.quiet (h : (n'.core, n'.aside) = (n.core, n.aside)) : Moves sc n n' :=
  .noted (congrArg Prod.fst h) (.same (congrArg Prod.snd h))

theorem Moves.hard (h : HardEffect sc n n') : Moves sc n n' :=
  .of_effect fun _ => .hard n' h

theorem Moves.log (h : LogEffect sc n n') : Moves sc n n' :=
  .of_effect fun _ => .log n' h

/-- A specification may use that the node is uncompacted. -/
theorem Moves.assuming {α : Type} {m : RaftM α}
    (h : (sc.strict → Coherent n) → Emits (Moves sc) m n (fun _ _ => True)) :
    Emits (Moves sc) m n (fun _ _ => True) := by
  unfold Emits at h ⊢
  split
  · rename_i a n' hm
    rw [hm] at h
    exact ⟨fun hn => (h hn).1 hn, trivial⟩
  · rename_i e n' hm
    rw [hm] at h
    exact fun hn => h hn hn

end ArbitroRaft
