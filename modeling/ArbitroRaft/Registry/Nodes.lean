import ArbitroRaft.Registry.Service
import ArbitroRaft.Replication.Seeded
import Mathlib.Data.List.SplitLengths

/-!
# Raft nodes in the driver

The groups that the driver hosts: a `RaftNode` behind the codec, with what the state machine
answers in the surroundings of the node.  While a node waits, an election and a proposal pass
over a frame that does not decode; the install of a snapshot ends at it, as it does at a
timeout.
-/

namespace ArbitroRaft

open Library

/-! ## Messages -/

def readVote (m : Wire.RequestVote) : RequestVote :=
  { term := m.term.toNat
    candidateId := m.candidateId.toNat
    lastLogIndex := m.lastLogIndex.toNat
    lastLogTerm := m.lastLogTerm.toNat }

def readVoteResp (m : Wire.RequestVoteResp) : RequestVoteResp :=
  { term := m.term.toNat, voteGranted := decide (m.voteGranted ≠ 0) }

/-- What a handler reads of a message.  The vectored spellings are for sending only. -/
def readMessage : Wire.RaftMessage → Option RaftMessage
  | .requestVote m => some (.requestVote (readVote m))
  | .requestVoteResp m => some (.requestVoteResp (readVoteResp m))
  | .preVote m => some (.preVote (readVote m))
  | .preVoteResp m => some (.preVoteResp (readVoteResp m))
  | .appendEntries m payload =>
    some (.appendEntries (readHeader m)
      ((Wire.AppendEntriesEntryIter.collect ⟨payload, m.entryCount.toNat⟩).map readEntry))
  | .appendEntriesSeeded m headers payloads =>
    some (.appendEntriesSeeded (readHeader m)
      ((Wire.AppendEntriesRawIter.collect (.new headers (.contiguous payloads))).map itemEntry))
  | .appendEntriesResp m =>
    some (.appendEntriesResp
      { term := m.term.toNat
        matchIndex := m.matchIndex.toNat
        success := decide (m.success ≠ 0)
        probe := (Layout.u32.ofBytes (m.pad.toList.take 4)).toNat })
  | .installSnapshot m chunk =>
    some (.installSnapshot
      { term := m.term.toNat
        leaderId := m.leaderId.toNat
        lastIncludedIndex := m.lastIncludedIndex.toNat
        lastIncludedTerm := m.lastIncludedTerm.toNat
        offset := m.offset.toNat
        chunkLen := m.chunkLen.toNat
        done := decide (m.done ≠ 0) } chunk)
  | .installSnapshotResp m =>
    some (.installSnapshotResp
      { term := m.term.toNat
        nextOffset := m.nextOffset.toNat
        accepted := decide (m.accepted ≠ 0) })
  | .timeoutNow m =>
    some (.timeoutNow { term := m.term.toNat, leaderId := m.leaderId.toNat })
  | .custom payload => some (.custom payload)
  | .customResponse payload => some (.customResponse payload)
  | .appendEntriesVectored _ _ | .appendEntriesSeededVectored _ _ _ => none

def readInbound (inbound : Wire.InboundRaftMessage) : Option InboundRaftMessage :=
  (readMessage inbound.message).map fun message => ⟨inbound.sender.toNat, message⟩

/-- The message of a frame, if it decodes. -/
def readFrame (frame : List UInt8) : Option InboundRaftMessage :=
  match Wire.decodeMessage frame with
  | .ok inbound => readInbound inbound
  | .error _ => none

/-- `handle_inbound`. -/
def handleMessage (inbound : Wire.InboundRaftMessage) : RaftM Unit :=
  match readInbound inbound with
  | some inbound => handleInbound inbound
  | none => throw (.protocol "unexpected vectored inbound")

/-! ## Nodes -/

/-- What the world answers to a node while one frame or timer is serviced. -/
structure NodeWorld where
  env : Env
  /-- How many frames are there at once, in the rounds of a pre-vote and of an election. -/
  preVoteRounds : List Nat
  campaignRounds : List Nat
  /-- How many frames arrive before a proposal is committed or given up. -/
  gathered : Nat

section Hosted

variable {A : Type} (world : NodeWorld) (m : RaftM A)

def onCore (n : RaftNode) : Except RaftError A × RaftNode :=
  match m { n with env := world.env } with
  | .ok a n => (.ok a, n)
  | .error e n => (.error e, n)

/-- The node does not change the buffers it was lent for others. -/
def onHosted (n : HostedNode RaftNode) : Except RaftError A × HostedNode RaftNode :=
  ((onCore world m n.core).1, { n with core := (onCore world m n.core).2 })

/-- The operations that wait run to their end. -/
def onAwaited (n : HostedNode RaftNode) : Except Stop A × HostedNode RaftNode :=
  ((onCore world m n.core).1.mapError .failed, (onHosted world m n).2)

end Hosted

/-- `propose_once`. -/
def proposeOnce (payload : EntryPayload) (gathered ready : List InboundRaftMessage) :
    RaftM Nat := do
  match ← proposeBatchOnce [payload] gathered ready with
  | index :: _ => return index
  | [] => throw (.protocol "propose failed to return index")

def raftKind : GroupKind RaftNode Unit NodeWorld where
  isLeader := RaftNode.isLeader
  handleInbound world inbound := onAwaited world (handleMessage inbound)
  tryAdvanceCommitIndex world := onHosted world tryAdvanceCommitIndex
  applyGroup world n sm apply :=
    ((onHosted world applyCommittedEntries n).1, (onHosted world applyCommittedEntries n).2, sm,
      apply)
  takeForcedCampaign := RaftNode.takeForcedCampaign
  checkQuorumActive world n :=
    let n := { n with env := world.env }
    (n.checkQuorumActive, n.setScratchPeers n.recentVoters)
  stepDown world n := onCore world (stepDown n.hardState.currentTerm) n
  sendHeartbeatOnce world frames :=
    onAwaited world (sendHeartbeatOnce
      ((frames.takeWhile fun f => (readFrame f).isSome).filterMap readFrame))
  campaignPreVote world frames buf n :=
    let op := campaignPreVote (world.preVoteRounds.splitLengths (frames.filterMap readFrame))
    ((onAwaited world op n).1, buf, (onAwaited world op n).2)
  campaignOnce world frames buf n :=
    let op := campaignOnce (world.campaignRounds.splitLengths (frames.filterMap readFrame))
    ((onAwaited world op n).1, buf, (onAwaited world op n).2)
  proposeOnce world frames payload :=
    let frames := frames.filterMap readFrame
    onAwaited world (proposeOnce payload (frames.take world.gathered) (frames.drop world.gathered))

/-! ## A group that cannot apply -/

/-- Node 2 replicates and commits one entry in group `gid`. -/
def appendFrame (gid : UInt64) : List UInt8 :=
  Wire.RaftFrameHeader.layout.toBytes
      (Wire.frameHeader 2 gid Wire.kindAppendEntries (48 + 24 + 1)) ++
    Wire.AppendEntries.layout.toBytes ⟨1, 2, 0, 0, 1, 1, 0⟩ ++
    Wire.EntryHeader.layout.toBytes ⟨1, 1, 1, 0⟩ ++ [5]

/-- Node 1 with groups 7 and 8. -/
def twoGroups : MultiRaftDriver RaftNode Unit :=
  let add := fun (d : MultiRaftDriver RaftNode Unit) gid =>
    (raftKind.run d (.addGroup gid (.ok ⟨trioNode 1 (Storage.empty false), .standalone⟩) () 1
      TimingConfig.initial 0)).driver
  add (add .new 7) 8

theorem twoGroups_reached : raftKind.Reached twoGroups :=
  ((Reaches.refl.next (.addGroup 7 _ () 1 TimingConfig.initial 0) trivial rfl).next
    (.addGroup 8 _ () 1 TimingConfig.initial 0) trivial rfl)

/-- The disk of the state machine is full. -/
def noSpace : NodeWorld :=
  { env := { Env.calm 0 with smApplyFails := fun _ => some (.io .storageFull) }
    preVoteRounds := []
    campaignRounds := []
    gathered := 0 }

/-- A frame for each of the two groups. -/
def oneFrameEach : TickInput NodeWorld :=
  { moment := fun _ =>
      { now := 0, later := 0, world := noSpace, heartbeat := [], preVote := [], campaign := [] }
    burst := [.ok (some ⟨appendFrame 7, by decide⟩), .ok (some ⟨appendFrame 8, by decide⟩)]
    idle := .ok none
    maxWait := 0
    idleNow := 0
    timersNow := 0
    order := AList.entries
    order_perm := fun _ => .refl _ }

/-- The frame for group 8 is there and is not serviced in the call. -/
theorem full_disk_stops_other_group :
    raftKind.Reached twoGroups ∧
    (raftKind.services twoGroups oneFrameEach).map Serviced.task =
      [.frame 7 (appendFrame 7)] ∧
    raftKind.agenda twoGroups oneFrameEach =
      [.frame 7 (appendFrame 7), .frame 8 (appendFrame 8)] ∧
    ¬ raftKind.ServicesOthers twoGroups oneFrameEach := by
  have hagenda : raftKind.agenda twoGroups oneFrameEach =
      [.frame 7 (appendFrame 7), .frame 8 (appendFrame 8)] := by decide +kernel
  refine ⟨twoGroups_reached, by decide +kernel, hagenda, ?_⟩
  refine not_servicesOthers raftKind 7 (.failed (.io .storageFull)) (.frame 8 (appendFrame 8))
    (by decide +kernel) rfl ?_ (by decide)
  rw [hagenda]
  exact List.mem_cons_self

theorem groups_isolated_iff_twoGroups :
    raftKind.Reached twoGroups ∧ ∀ gid entry,
      (raftKind.run twoGroups (.runOnce oneFrameEach)).driver.registry.lookup gid = some entry →
        entry.node.scratch = .empty :=
  ⟨twoGroups_reached,
    ((groups_isolated_iff raftKind).2.1 twoGroups twoGroups_reached (.runOnce oneFrameEach)).2⟩

end ArbitroRaft
