import ArbitroRaft.Wire.Message

/-!
# The encoders

`encode_message_to_bytes` fills one allocation of the exact frame size;
`encode_message_vectored` writes only headers and hands out slices.  A copy that
does not fit is a panic of the source, `RaftError.panicked` here.
-/

namespace ArbitroRaft.Wire

open Library

/-- A length as a `u32` wire field, or the refusal to truncate it. -/
def wireLenU32 (len : Nat) (what : String) : Except RaftError UInt32 :=
  if len < 2 ^ 32 then .ok (UInt32.ofNat len)
  else .error (.protocol s!"{what} {len} exceeds u32 wire field")

def frameHeader (sender groupId : UInt64) (kind : UInt8) (bodyLen : UInt32) : RaftFrameHeader :=
  { magic := raftMagic
    version := raftVersion
    kind := kind
    flags := 0
    sender := sender
    bodyLen := bodyLen
    reserved := 0
    groupId := groupId }

/-- The header an encoder writes in front of an entry. -/
def entryHeader (e : LogEntry) (payloadLen : UInt32) : EntryHeader :=
  { term := e.term, index := e.index, payloadLen := payloadLen, pad := 0 }

/-- `buf[offset..offset + len].copy_from_slice(bytes)`, `offset += len`. -/
def copyFromSlice (c : Cursor) (bytes : List UInt8) : Except RaftError Cursor :=
  match c.put bytes with
  | some c' => .ok c'
  | none => .error .panicked

/-- `if !bytes.is_empty()` around the copy. -/
def copyNonEmpty (c : Cursor) (bytes : List UInt8) : Except RaftError Cursor :=
  if bytes.isEmpty then .ok c else copyFromSlice c bytes

/-- `buf[offset..].copy_from_slice(bytes)`: the lengths must agree. -/
def copyToEnd (c : Cursor) (bytes : List UInt8) : Except RaftError Cursor :=
  if c.buf.length = c.offset + bytes.length then copyFromSlice c bytes
  else .error .panicked

/-! ## Contiguous -/

def encodeEntries (c : Cursor) : List LogEntry → Except RaftError Cursor
  | [] => .ok c
  | e :: es => do
    let payloadLen ← wireLenU32 e.payload.length "entry payload length"
    let c ← copyFromSlice c (EntryHeader.layout.toBytes (entryHeader e payloadLen))
    let c ← copyNonEmpty c e.payload
    encodeEntries c es

def encodePayloads (c : Cursor) : List (List UInt8) → Except RaftError Cursor
  | [] => .ok c
  | p :: ps => do
    let c ← copyNonEmpty c p
    encodePayloads c ps

def encodeBody (c : Cursor) : RaftMessage → Except RaftError Cursor
  | .appendEntriesVectored m entries => do
    let c ← copyFromSlice c (AppendEntries.layout.toBytes m)
    encodeEntries c entries
  | .appendEntries m p => do
    let c ← copyFromSlice c (AppendEntries.layout.toBytes m)
    copyNonEmpty c p
  | .requestVote m => copyToEnd c (RequestVote.layout.toBytes m)
  | .requestVoteResp m => copyToEnd c (RequestVoteResp.layout.toBytes m)
  | .preVote m => copyToEnd c (RequestVote.layout.toBytes m)
  | .preVoteResp m => copyToEnd c (RequestVoteResp.layout.toBytes m)
  | .appendEntriesResp m => copyToEnd c (AppendEntriesResp.layout.toBytes m)
  | .installSnapshot m p => do
    let c ← copyFromSlice c (InstallSnapshot.layout.toBytes m)
    copyNonEmpty c p
  | .installSnapshotResp m => copyToEnd c (InstallSnapshotResp.layout.toBytes m)
  | .timeoutNow m => copyToEnd c (TimeoutNow.layout.toBytes m)
  | .appendEntriesSeeded ae headers payloads => do
    let c ← copyFromSlice c (AppendEntries.layout.toBytes ae)
    let c ← copyNonEmpty c headers
    copyNonEmpty c payloads
  | .appendEntriesSeededVectored ae headers payloads => do
    let c ← copyFromSlice c (AppendEntries.layout.toBytes ae)
    let c ← copyNonEmpty c headers
    encodePayloads c payloads
  | .custom p | .customResponse p => if p.isEmpty then .ok c else copyToEnd c p

/-- `encode_message_to_bytes`.  `uninit` is what the fresh allocation holds. -/
def encodeMessageToBytes (uninit : Nat → UInt8) (sender : UInt64) (msg : RaftMessage) :
    Except RaftError (List UInt8) := do
  let bodyLen := bodyTotalLen msg
  let bodyLenU32 ← wireLenU32 bodyLen "frame body length"
  let totalLen := RaftFrameHeader.layout.size + bodyLen
  let buf := (List.range totalLen).map uninit
  let header := frameHeader sender 0 (kindOf msg) bodyLenU32
  let c ← copyFromSlice ⟨buf, 0⟩ (RaftFrameHeader.layout.toBytes header)
  let c ← encodeBody c msg
  return c.buf

/-! ## Vectored -/

/-- `header_buf` and the slices pushed so far. -/
structure Vectored where
  headers : Cursor
  out : List Library.Slice

namespace Vectored

/-- Write to the header buffer and push the slice just written. -/
def pushHeader (v : Vectored) (bytes : List UInt8) : Except RaftError Vectored := do
  let c ← copyFromSlice v.headers bytes
  return { headers := c, out := v.out ++ [.header v.headers.offset bytes.length] }

def push (v : Vectored) (bytes : List UInt8) : Vectored :=
  { v with out := v.out ++ [.payload bytes] }

def pushNonEmpty (v : Vectored) (bytes : List UInt8) : Vectored :=
  if bytes.isEmpty then v else v.push bytes

/-- What goes out on the wire. -/
def frame (v : Vectored) : List UInt8 := Library.Slice.gather v.headers.buf v.out

end Vectored

/-- The entry loop of the batch encoder. -/
def interleaveEntries (v : Vectored) : List LogEntry → Except RaftError Vectored
  | [] => .ok v
  | e :: es => do
    let payloadLen ← wireLenU32 e.payload.length "entry payload length"
    let v ← v.pushHeader (EntryHeader.layout.toBytes (entryHeader e payloadLen))
    interleaveEntries (v.pushNonEmpty e.payload) es

/-- `encode_append_entries_vectored_with_pad`.  The body is rebuilt from its
scalars: `entry_count` is the number of entries. -/
def encodeAppendEntriesVectoredWithPad (sender groupId : UInt64) (m : AppendEntries)
    (entries : List LogEntry) (headerBuf : List UInt8) : Except RaftError Vectored := do
  let bodyWireLen := AppendEntries.layout.size +
    entries.foldl (fun len e => len + (EntryHeader.layout.size + e.payload.length)) 0
  let bodyWireLenU32 ← wireLenU32 bodyWireLen "frame body length"
  let entryCountU32 ← wireLenU32 entries.length "entry count"
  let totalHeadersNeeded := RaftFrameHeader.layout.size + AppendEntries.layout.size +
    entries.length * EntryHeader.layout.size
  if headerBuf.length < totalHeadersNeeded then
    throw (.protocol "header buffer too small for batch")
  let header := frameHeader sender groupId kindAppendEntries bodyWireLenU32
  let body : AppendEntries :=
    { term := m.term
      leaderId := m.leaderId
      prevLogIndex := m.prevLogIndex
      prevLogTerm := m.prevLogTerm
      leaderCommit := m.leaderCommit
      entryCount := entryCountU32
      pad := m.pad }
  let v : Vectored := { headers := ⟨headerBuf, 0⟩, out := [] }
  let v ← v.pushHeader (RaftFrameHeader.layout.toBytes header ++ AppendEntries.layout.toBytes body)
  interleaveEntries v entries

/-- The slices behind the frame header, for a message that is not a batch. -/
def pushBody (v : Vectored) : RaftMessage → Vectored
  | .appendEntriesVectored _ _ => v
  | .requestVote m => v.push (RequestVote.layout.toBytes m)
  | .requestVoteResp m => v.push (RequestVoteResp.layout.toBytes m)
  | .preVote m => v.push (RequestVote.layout.toBytes m)
  | .preVoteResp m => v.push (RequestVoteResp.layout.toBytes m)
  | .appendEntries m p => (v.push (AppendEntries.layout.toBytes m)).pushNonEmpty p
  | .appendEntriesResp m => v.push (AppendEntriesResp.layout.toBytes m)
  | .appendEntriesSeeded ae headers payloads =>
    ((v.push (AppendEntries.layout.toBytes ae)).pushNonEmpty headers).pushNonEmpty payloads
  | .appendEntriesSeededVectored ae headers payloads =>
    payloads.foldl Vectored.pushNonEmpty
      ((v.push (AppendEntries.layout.toBytes ae)).pushNonEmpty headers)
  | .installSnapshot m p => (v.push (InstallSnapshot.layout.toBytes m)).pushNonEmpty p
  | .installSnapshotResp m => v.push (InstallSnapshotResp.layout.toBytes m)
  | .timeoutNow m => v.push (TimeoutNow.layout.toBytes m)
  | .custom p | .customResponse p => v.pushNonEmpty p

/-- The part of `encode_message_vectored_impl` behind the batch case. -/
def encodePlainVectored (sender groupId : UInt64) (msg : RaftMessage)
    (headerBuf : List UInt8) : Except RaftError Vectored := do
  let bodyLenU32 ← wireLenU32 (bodyTotalLen msg) "frame body length"
  if headerBuf.length < RaftFrameHeader.layout.size then
    throw (.protocol "header buffer too small")
  let header := frameHeader sender groupId (kindOf msg) bodyLenU32
  let v : Vectored := { headers := ⟨headerBuf, 0⟩, out := [] }
  let v ← v.pushHeader (RaftFrameHeader.layout.toBytes header)
  return pushBody v msg

/-- `encode_message_vectored_with_group`. -/
def encodeMessageVectoredWithGroup (sender groupId : UInt64) (msg : RaftMessage)
    (headerBuf : List UInt8) : Except RaftError Vectored :=
  match msg with
  | .appendEntriesVectored m entries =>
    encodeAppendEntriesVectoredWithPad sender groupId m entries headerBuf
  | msg => encodePlainVectored sender groupId msg headerBuf

end ArbitroRaft.Wire
