import ArbitroRaft.Library.Codec
import ArbitroRaft.Types

/-!
# Wire structures

The structures of `wire.rs`, with every field at its machine width, and the
messages that refer to them.  The structures are packed and little-endian: a
value is laid out field after field in declaration order.
-/

namespace ArbitroRaft.Wire

open Library

def raftMagic : UInt32 := 0x52414654

def raftVersion : UInt8 := 0x01

def kindRequestVote : UInt8 := 1
def kindRequestVoteResp : UInt8 := 2
def kindAppendEntries : UInt8 := 3
def kindAppendEntriesResp : UInt8 := 4
def kindInstallSnapshot : UInt8 := 5
def kindInstallSnapshotResp : UInt8 := 6
def kindCustom : UInt8 := 7
def kindCustomResponse : UInt8 := 8
def kindAppendEntriesSeeded : UInt8 := 9
def kindPreVote : UInt8 := 10
def kindPreVoteResp : UInt8 := 11
def kindTimeoutNow : UInt8 := 12

/-! ## Structures -/

/-- `RaftFrameHeader`; the source's field `from` is `sender`. -/
structure RaftFrameHeader where
  magic : UInt32
  version : UInt8
  kind : UInt8
  flags : UInt16
  sender : UInt64
  bodyLen : UInt32
  reserved : UInt32
  groupId : UInt64
deriving DecidableEq, Repr

structure RequestVote where
  term : UInt64
  candidateId : UInt64
  lastLogIndex : UInt64
  lastLogTerm : UInt64
deriving DecidableEq, Repr

structure RequestVoteResp where
  term : UInt64
  voteGranted : UInt8
  pad : Vector UInt8 7
deriving DecidableEq, Repr

/-- `pad` doubles as the ReadIndex probe token. -/
structure AppendEntries where
  term : UInt64
  leaderId : UInt64
  prevLogIndex : UInt64
  prevLogTerm : UInt64
  leaderCommit : UInt64
  entryCount : UInt32
  pad : UInt32
deriving DecidableEq, Repr

structure EntryHeader where
  term : UInt64
  index : UInt64
  payloadLen : UInt32
  pad : UInt32
deriving DecidableEq, Repr

structure AppendEntriesResp where
  term : UInt64
  matchIndex : UInt64
  success : UInt8
  pad : Vector UInt8 7
deriving DecidableEq, Repr

structure InstallSnapshot where
  term : UInt64
  leaderId : UInt64
  lastIncludedIndex : UInt64
  lastIncludedTerm : UInt64
  offset : UInt64
  chunkLen : UInt32
  done : UInt8
  pad : Vector UInt8 3
deriving DecidableEq, Repr

structure InstallSnapshotResp where
  term : UInt64
  nextOffset : UInt64
  accepted : UInt8
  pad : Vector UInt8 7
deriving DecidableEq, Repr

structure TimeoutNow where
  term : UInt64
  leaderId : UInt64
deriving DecidableEq, Repr

/-! ## Layouts -/

section Layouts

open Layout

def RaftFrameHeader.layout : Layout RaftFrameHeader :=
  (u32.pair (u8.pair (u8.pair (u16.pair (u64.pair (u32.pair (u32.pair u64))))))).record
    (fun (magic, version, kind, flags, sender, bodyLen, reserved, groupId) =>
      ⟨magic, version, kind, flags, sender, bodyLen, reserved, groupId⟩)
    (fun h => (h.magic, h.version, h.kind, h.flags, h.sender, h.bodyLen, h.reserved, h.groupId))
    (fun _ => rfl)

def RequestVote.layout : Layout RequestVote :=
  (u64.pair (u64.pair (u64.pair u64))).record
    (fun (term, candidateId, lastLogIndex, lastLogTerm) =>
      ⟨term, candidateId, lastLogIndex, lastLogTerm⟩)
    (fun m => (m.term, m.candidateId, m.lastLogIndex, m.lastLogTerm))
    (fun _ => rfl)

def RequestVoteResp.layout : Layout RequestVoteResp :=
  (u64.pair (u8.pair (array 7))).record
    (fun (term, voteGranted, pad) => ⟨term, voteGranted, pad⟩)
    (fun m => (m.term, m.voteGranted, m.pad))
    (fun _ => rfl)

def AppendEntries.layout : Layout AppendEntries :=
  (u64.pair (u64.pair (u64.pair (u64.pair (u64.pair (u32.pair u32)))))).record
    (fun (term, leaderId, prevLogIndex, prevLogTerm, leaderCommit, entryCount, pad) =>
      ⟨term, leaderId, prevLogIndex, prevLogTerm, leaderCommit, entryCount, pad⟩)
    (fun m => (m.term, m.leaderId, m.prevLogIndex, m.prevLogTerm, m.leaderCommit,
      m.entryCount, m.pad))
    (fun _ => rfl)

def EntryHeader.layout : Layout EntryHeader :=
  (u64.pair (u64.pair (u32.pair u32))).record
    (fun (term, index, payloadLen, pad) => ⟨term, index, payloadLen, pad⟩)
    (fun h => (h.term, h.index, h.payloadLen, h.pad))
    (fun _ => rfl)

def AppendEntriesResp.layout : Layout AppendEntriesResp :=
  (u64.pair (u64.pair (u8.pair (array 7)))).record
    (fun (term, matchIndex, success, pad) => ⟨term, matchIndex, success, pad⟩)
    (fun m => (m.term, m.matchIndex, m.success, m.pad))
    (fun _ => rfl)

def InstallSnapshot.layout : Layout InstallSnapshot :=
  (u64.pair (u64.pair (u64.pair (u64.pair (u64.pair (u32.pair (u8.pair (array 3)))))))).record
    (fun (term, leaderId, lastIncludedIndex, lastIncludedTerm, offset, chunkLen, done, pad) =>
      ⟨term, leaderId, lastIncludedIndex, lastIncludedTerm, offset, chunkLen, done, pad⟩)
    (fun m => (m.term, m.leaderId, m.lastIncludedIndex, m.lastIncludedTerm, m.offset,
      m.chunkLen, m.done, m.pad))
    (fun _ => rfl)

def InstallSnapshotResp.layout : Layout InstallSnapshotResp :=
  (u64.pair (u64.pair (u8.pair (array 7)))).record
    (fun (term, nextOffset, accepted, pad) => ⟨term, nextOffset, accepted, pad⟩)
    (fun m => (m.term, m.nextOffset, m.accepted, m.pad))
    (fun _ => rfl)

def TimeoutNow.layout : Layout TimeoutNow :=
  (u64.pair u64).record (fun (term, leaderId) => ⟨term, leaderId⟩)
    (fun m => (m.term, m.leaderId)) (fun _ => rfl)

end Layouts

@[simp] theorem RaftFrameHeader.layout_size : RaftFrameHeader.layout.size = 32 := rfl
@[simp] theorem AppendEntries.layout_size : AppendEntries.layout.size = 48 := rfl
@[simp] theorem EntryHeader.layout_size : EntryHeader.layout.size = 24 := rfl
@[simp] theorem InstallSnapshot.layout_size : InstallSnapshot.layout.size = 48 := rfl

/-! ## Messages -/

/-- `LogEntry` with its numbers at their machine width. -/
structure LogEntry where
  term : UInt64
  index : UInt64
  payload : List UInt8
deriving DecidableEq, Repr

/-- `RaftMessage`.  Borrowed slices are byte strings. -/
inductive RaftMessage where
  | requestVote (msg : RequestVote)
  | requestVoteResp (msg : RequestVoteResp)
  | preVote (msg : RequestVote)
  | preVoteResp (msg : RequestVoteResp)
  | appendEntries (msg : AppendEntries) (payload : List UInt8)
  | appendEntriesVectored (msg : AppendEntries) (entries : List LogEntry)
  | appendEntriesSeeded (ae : AppendEntries) (headers payloads : List UInt8)
  | appendEntriesSeededVectored (ae : AppendEntries) (headers : List UInt8)
      (payloads : List (List UInt8))
  | appendEntriesResp (msg : AppendEntriesResp)
  | installSnapshot (msg : InstallSnapshot) (payload : List UInt8)
  | installSnapshotResp (msg : InstallSnapshotResp)
  | timeoutNow (msg : TimeoutNow)
  | custom (payload : List UInt8)
  | customResponse (payload : List UInt8)
deriving DecidableEq, Repr

structure InboundRaftMessage where
  sender : UInt64
  groupId : UInt64
  message : RaftMessage
deriving DecidableEq, Repr

def kindOf : RaftMessage → UInt8
  | .requestVote _ => kindRequestVote
  | .requestVoteResp _ => kindRequestVoteResp
  | .preVote _ => kindPreVote
  | .preVoteResp _ => kindPreVoteResp
  | .appendEntries _ _ => kindAppendEntries
  | .appendEntriesVectored _ _ => kindAppendEntries
  | .appendEntriesResp _ => kindAppendEntriesResp
  | .appendEntriesSeeded _ _ _ | .appendEntriesSeededVectored _ _ _ => kindAppendEntriesSeeded
  | .installSnapshot _ _ => kindInstallSnapshot
  | .installSnapshotResp _ => kindInstallSnapshotResp
  | .timeoutNow _ => kindTimeoutNow
  | .custom _ => kindCustom
  | .customResponse _ => kindCustomResponse

def bodyTotalLen : RaftMessage → Nat
  | .requestVote m => (RequestVote.layout.toBytes m).length
  | .requestVoteResp m => (RequestVoteResp.layout.toBytes m).length
  | .preVote m => (RequestVote.layout.toBytes m).length
  | .preVoteResp m => (RequestVoteResp.layout.toBytes m).length
  | .appendEntries m p => (AppendEntries.layout.toBytes m).length + p.length
  | .appendEntriesVectored _ entries =>
    entries.foldl (fun len e => len + (EntryHeader.layout.size + e.payload.length))
      AppendEntries.layout.size
  | .appendEntriesResp m => (AppendEntriesResp.layout.toBytes m).length
  | .appendEntriesSeeded ae headers payloads =>
    (AppendEntries.layout.toBytes ae).length + headers.length + payloads.length
  | .appendEntriesSeededVectored ae headers payloads =>
    payloads.foldl (fun len p => len + p.length)
      ((AppendEntries.layout.toBytes ae).length + headers.length)
  | .installSnapshot m p => (InstallSnapshot.layout.toBytes m).length + p.length
  | .installSnapshotResp m => (InstallSnapshotResp.layout.toBytes m).length
  | .timeoutNow m => (TimeoutNow.layout.toBytes m).length
  | .custom p => p.length
  | .customResponse p => p.length

end ArbitroRaft.Wire
