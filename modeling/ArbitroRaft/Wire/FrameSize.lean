import ArbitroRaft.Machine.Ships
import ArbitroRaft.Wire.RoundTrip

/-!
# Frame sizes

A receiver's buffer holds `MAX_FRAME_SIZE` bytes.  Admission checks payloads one
at a time, while a frame carries a batch of them, or a snapshot chunk whose size
is configured.  Each sender's frames fit exactly when the sizes add up.

## Main results

* `frames_fit_iff`: this, for every sender.
-/

namespace ArbitroRaft

open Library

def maxFrameSize : Nat := 64 * 1024

def maxEntryPayload : Nat := maxFrameSize - 512

/-! ## The node's messages on the wire -/

def LogEntry.toWire (e : LogEntry) : Wire.LogEntry :=
  { term := UInt64.ofNat e.term, index := UInt64.ofNat e.index, payload := e.payload }

def AppendEntries.toWire (m : AppendEntries) (count : Nat) : Wire.AppendEntries :=
  { term := UInt64.ofNat m.term
    leaderId := UInt64.ofNat m.leaderId
    prevLogIndex := UInt64.ofNat m.prevLogIndex
    prevLogTerm := UInt64.ofNat m.prevLogTerm
    leaderCommit := UInt64.ofNat m.leaderCommit
    entryCount := UInt32.ofNat count
    pad := UInt32.ofNat m.probe }

def RequestVote.toWire (m : RequestVote) : Wire.RequestVote :=
  { term := UInt64.ofNat m.term
    candidateId := UInt64.ofNat m.candidateId
    lastLogIndex := UInt64.ofNat m.lastLogIndex
    lastLogTerm := UInt64.ofNat m.lastLogTerm }

def RequestVoteResp.toWire (m : RequestVoteResp) : Wire.RequestVoteResp :=
  { term := UInt64.ofNat m.term
    voteGranted := if m.voteGranted then 1 else 0
    pad := Vector.replicate 7 0 }

/-- The probe token is echoed in the first four reserved bytes. -/
def AppendEntriesResp.toWire (m : AppendEntriesResp) : Wire.AppendEntriesResp :=
  { term := UInt64.ofNat m.term
    matchIndex := UInt64.ofNat m.matchIndex
    success := if m.success then 1 else 0
    pad := Vector.ofFn fun i => (leBytes 4 m.probe).getD i 0 }

def InstallSnapshot.toWire (m : InstallSnapshot) : Wire.InstallSnapshot :=
  { term := UInt64.ofNat m.term
    leaderId := UInt64.ofNat m.leaderId
    lastIncludedIndex := UInt64.ofNat m.lastIncludedIndex
    lastIncludedTerm := UInt64.ofNat m.lastIncludedTerm
    offset := UInt64.ofNat m.offset
    chunkLen := UInt32.ofNat m.chunkLen
    done := if m.done then 1 else 0
    pad := Vector.replicate 3 0 }

def InstallSnapshotResp.toWire (m : InstallSnapshotResp) : Wire.InstallSnapshotResp :=
  { term := UInt64.ofNat m.term
    nextOffset := UInt64.ofNat m.nextOffset
    accepted := if m.accepted then 1 else 0
    pad := Vector.replicate 7 0 }

/-- The outbound spelling of a message.  A zero-copy storage keeps its headers in
wire form. -/
def RaftMessage.toWire : RaftMessage → Wire.RaftMessage
  | .requestVote m => .requestVote m.toWire
  | .requestVoteResp m => .requestVoteResp m.toWire
  | .preVote m => .preVote m.toWire
  | .preVoteResp m => .preVoteResp m.toWire
  | .appendEntries m entries =>
    .appendEntriesVectored (m.toWire entries.length) (entries.map LogEntry.toWire)
  | .appendEntriesSeeded m entries =>
    .appendEntriesSeededVectored (m.toWire entries.length)
      (entries.flatMap fun e => Wire.EntryItem.header e.toWire.item)
      (entries.map LogEntry.payload)
  | .appendEntriesResp m => .appendEntriesResp m.toWire
  | .installSnapshot m chunk => .installSnapshot m.toWire chunk
  | .installSnapshotResp m => .installSnapshotResp m.toWire
  | .timeoutNow m => .timeoutNow ⟨UInt64.ofNat m.term, UInt64.ofNat m.leaderId⟩
  | .custom p => .custom p
  | .customResponse p => .customResponse p

/-- Bytes of a message on the wire, which neither sender nor group change. -/
def RaftMessage.frameLen (msg : RaftMessage) : Nat :=
  (Wire.frameBytes 0 0 msg.toWire).length

/-- Bytes a batch takes behind the two headers of its frame. -/
def batchBytes (payloads : List EntryPayload) : Nat :=
  (payloads.map fun p => 24 + p.length).sum

theorem frameLen_eq (msg : RaftMessage) : msg.frameLen = 32 + Wire.bodyTotalLen msg.toWire := by
  rw [RaftMessage.frameLen, Wire.frameBytes, List.length_append, Wire.length_bodyBytes,
    Wire.RaftFrameHeader.layout.length_toBytes, Wire.RaftFrameHeader.layout_size]

theorem frameLen_appendEntries (m : AppendEntries) (entries : List LogEntry) :
    (RaftMessage.appendEntries m entries).frameLen =
      80 + batchBytes (entries.map LogEntry.payload) := by
  rw [frameLen_eq, RaftMessage.toWire, Wire.bodyTotalLen, Wire.foldl_add_eq_sum, batchBytes,
    List.map_map, List.map_map]
  show 32 + (48 + _) = 80 + _
  rw [← Nat.add_assoc]
  rfl

theorem frameLen_appendEntriesSeeded (m : AppendEntries) (entries : List LogEntry) :
    (RaftMessage.appendEntriesSeeded m entries).frameLen =
      80 + batchBytes (entries.map LogEntry.payload) := by
  have hsum : (entries.map fun _ => 24).sum + (entries.map fun e => e.payload.length).sum =
      (entries.map fun e => 24 + e.payload.length).sum := by
    rw [← List.sum_map_add]
  rw [frameLen_eq, RaftMessage.toWire, Wire.bodyTotalLen, Wire.foldl_add_eq_sum, batchBytes,
    List.map_map, List.map_map, Wire.AppendEntries.layout.length_toBytes,
    Wire.AppendEntries.layout_size, List.length_flatMap]
  simp only [Wire.EntryItem.length_header, Function.comp_def]
  omega

theorem frameLen_installSnapshot (m : InstallSnapshot) (chunk : List UInt8) :
    (RaftMessage.installSnapshot m chunk).frameLen = 80 + chunk.length := by
  rw [frameLen_eq, RaftMessage.toWire, Wire.bodyTotalLen,
    Wire.InstallSnapshot.layout.length_toBytes, Wire.InstallSnapshot.layout_size, ← Nat.add_assoc]

/-! ## The bound -/

theorem batchBytes_proposed (n : RaftNode) (payloads : List EntryPayload) :
    batchBytes ((n.proposedBatch payloads).map LogEntry.payload) = batchBytes payloads := by
  have hbatch : ∀ index, (buildBatch n.hardState.currentTerm index payloads).map
      LogEntry.payload = payloads := by
    induction payloads with
    | nil => exact fun _ => rfl
    | cons p ps ih => exact fun index => congrArg (p :: ·) (ih (index + 1))
  rw [RaftNode.proposedBatch, hbatch]

/-- Bytes left behind the two headers of a frame. -/
def frameRoom : Nat := maxFrameSize - 80

/-- **Frame sizes.**  A frame of a batch sender fits the receiver's buffer
exactly when the payloads of the batch, with their headers, fit behind the two
headers of the frame; a frame of a snapshot transfer fits exactly when the chunk
does, which is the configured size or what is left of the snapshot. -/
theorem frames_fit_iff (n : RaftNode) :
    (∀ payloads, ∀ f ∈ n.emitted (replicateBatchInner payloads),
      f.message.frameLen ≤ maxFrameSize ↔ batchBytes payloads ≤ frameRoom) ∧
    (∀ entries : List LogEntry, ∀ f ∈ n.emitted (sendInitialAppends entries),
      f.message.frameLen ≤ maxFrameSize ↔
        batchBytes (entries.map LogEntry.payload) ≤ frameRoom) ∧
    (∀ peer progress, n.peerProgress.get peer = some progress →
      ∀ f ∈ n.emitted (sendAppendAttempt peer),
        f.message.frameLen ≤ maxFrameSize ↔
          batchBytes (((n.storage.readEntries progress.nextIndex u64Max).take
            (max n.config.limits.appendBatchEntries 1)).map LogEntry.payload) ≤ frameRoom) ∧
    (∀ i : Install, ∀ f ∈ n.emitted (sendChunk i),
      f.message.frameLen ≤ maxFrameSize ↔
        ((∃ m chunk, f.message = .installSnapshot m chunk) →
          min (max n.config.limits.snapshotChunkBytes 1) (i.bytes.length - i.offset) ≤
            frameRoom)) := by
  have hbatch : ∀ (m : AppendEntries) (entries : List LogEntry),
      ((RaftMessage.appendEntries m entries).frameLen ≤ maxFrameSize ↔
        batchBytes (entries.map LogEntry.payload) ≤ frameRoom) := by
    intro m entries
    rw [frameLen_appendEntries]
    unfold frameRoom maxFrameSize
    omega
  refine ⟨?_, ?_, ?_, ?_⟩
  · intro payloads f hf
    refine Ships.of_emitted (P := fun msg => msg.frameLen ≤ maxFrameSize ↔ _)
      (replicateBatchInner_ships fun m => ?_) hf
    rw [hbatch, batchBytes_proposed]
  · intro entries f hf
    exact Ships.of_emitted (P := fun msg => msg.frameLen ≤ maxFrameSize ↔ _)
      (sendInitialAppends_ships fun m => hbatch m entries) hf
  · intro peer progress hprogress f hf
    refine Ships.of_emitted (P := fun msg => msg.frameLen ≤ maxFrameSize ↔ _)
      (sendAppendAttempt_ships hprogress (fun m => hbatch m _) ?_) hf
    intro m
    rw [frameLen_appendEntriesSeeded, ← frameLen_appendEntries m]
    exact hbatch m _
  · intro i f hf
    refine Ships.of_emitted (P := fun msg => msg.frameLen ≤ maxFrameSize ↔
      ((∃ m chunk, msg = .installSnapshot m chunk) → _)) (sendChunk_ships ?_ ?_) hf
    · intro m
      rw [hbatch]
      refine iff_of_true (Nat.zero_le _) ?_
      rintro ⟨m', chunk, heq⟩
      cases heq
    · intro m
      have hlen : ((i.bytes.take (n.chunkEnd i)).drop i.offset).length =
          min (max n.config.limits.snapshotChunkBytes 1) (i.bytes.length - i.offset) := by
        rw [List.length_drop, List.length_take, RaftNode.chunkEnd]
        omega
      rw [frameLen_installSnapshot, hlen, forall_prop_of_true ⟨m, _, rfl⟩]
      unfold frameRoom maxFrameSize
      omega

/-- Node 1 of three, leading term 1 with an empty log. -/
def emptyLeader : RaftNode :=
  { trioNode 1 (.empty false) with
    hardState := ⟨1, some 1⟩
    softState := ⟨some 1, true, .leader, 0⟩ }

/-- The frame of a two-entry batch, to node 2. -/
theorem emptyLeader_batch (p : EntryPayload) :
    ∃ f ∈ emptyLeader.emitted (replicateBatchInner [p, p]),
      f.message = .appendEntries ⟨1, 1, 0, 0, 0, 0⟩ [⟨1, 1, p⟩, ⟨1, 2, p⟩] :=
  ⟨_, List.mem_cons_self, rfl⟩

theorem frames_fit_iff_small_batch :
    ∃ f ∈ emptyLeader.emitted (replicateBatchInner [[7], [7]]),
      f.message.frameLen ≤ maxFrameSize := by
  obtain ⟨f, hf, -⟩ := emptyLeader_batch [7]
  exact ⟨f, hf, ((frames_fit_iff emptyLeader).1 [[7], [7]] f hf).mpr (by decide)⟩

/-- Two admitted payloads of 40000 bytes, and a snapshot in chunks of the default
size, go out in frames no receiver can take. -/
theorem frame_oversized :
    validateNodeConfig emptyLeader.config = .ok () ∧
    (∀ p ∈ List.replicate 2 (List.replicate 40000 (0 : UInt8)),
      p.length ≤ maxEntryPayload) ∧
    (∃ f ∈ emptyLeader.emitted
        (replicateBatchInner (List.replicate 2 (List.replicate 40000 0))),
      maxFrameSize < f.message.frameLen) ∧
    (∃ f ∈ emptyLeader.emitted
        (sendChunk ⟨2, ⟨1, 1⟩, List.replicate (256 * 1024) 0, 1, 0, 0⟩),
      maxFrameSize < f.message.frameLen) := by
  refine ⟨rfl, ?_, ?_, ?_⟩
  · intro p hp
    rw [List.eq_of_mem_replicate hp, List.length_replicate]
    decide
  · obtain ⟨f, hf, hmsg⟩ := emptyLeader_batch (List.replicate 40000 0)
    refine ⟨f, hf, ?_⟩
    rw [hmsg, frameLen_appendEntries]
    simp only [batchBytes, List.map_cons, List.map_nil, List.sum_cons, List.sum_nil,
      List.length_replicate]
    decide
  · have hsent : ∀ bytes : List UInt8, ∃ f ∈ emptyLeader.emitted
        (sendChunk ⟨2, ⟨1, 1⟩, bytes, 1, 0, 0⟩), ∃ m,
        f.message = .installSnapshot m ((bytes.take (min (0 + 262144) bytes.length)).drop 0) :=
      fun bytes => ⟨_, List.mem_cons_self, _, rfl⟩
    obtain ⟨f, hf, m, hmsg⟩ := hsent (List.replicate (256 * 1024) 0)
    refine ⟨f, hf, ?_⟩
    rw [hmsg, frameLen_installSnapshot, List.length_drop, List.length_take,
      List.length_replicate]
    decide

end ArbitroRaft
