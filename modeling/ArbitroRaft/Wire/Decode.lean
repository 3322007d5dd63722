import ArbitroRaft.Wire.Message

/-!
# The decoder and the entry iterators
-/

namespace ArbitroRaft.Wire

open Library

def parsePrefix {α : Type} (L : Layout α) (buf : List UInt8) (what : String) :
    Except RaftError (α × List UInt8) :=
  match L.read buf with
  | some r => .ok r
  | none => .error (.protocol s!"short {what}")

/-- Exactly `count` entries and nothing behind them. -/
def validateAppendEntriesBody : Nat → List UInt8 → Except RaftError Unit
  | 0, body =>
    if body.isEmpty then .ok () else .error (.protocol "append entries trailing bytes")
  | count + 1, body => do
    let (header, rest) ← parsePrefix EntryHeader.layout body "append entry header"
    let len := header.payloadLen.toNat
    if rest.length < len then throw (.protocol "short append entry payload")
    validateAppendEntriesBody count (rest.drop len)

/-- The `i`-th header of a header block. -/
def headerAt (headers : List UInt8) (i : Nat) : EntryHeader :=
  EntryHeader.layout.ofBytes ((headers.drop (i * 24)).take 24)

/-- The caller split the block off at `count` headers, so every one of them is
in range. -/
def validateSeededPayloads (headers payloads : List UInt8) (count : Nat) : Except RaftError Unit :=
  let expectedLen :=
    (List.range count).foldl (fun len i => len + (headerAt headers i).payloadLen.toNat) 0
  if expectedLen ≠ payloads.length then
    .error (.protocol
      s!"seeded payloads size mismatch: headers specify={expectedLen} actual={payloads.length}")
  else .ok ()

/-- A body that is one structure. -/
def parseWhole {α : Type} (L : Layout α) (body : List UInt8) (what trailing : String) :
    Except RaftError α := do
  let (wire, rest) ← parsePrefix L body what
  if rest.isEmpty then return wire
  else throw (.protocol trailing)

def decodeSeeded (body : List UInt8) : Except RaftError RaftMessage := do
  let (ae, rest) ← parsePrefix AppendEntries.layout body "append entries seeded body"
  let count := ae.entryCount.toNat
  let headersLen := count * EntryHeader.layout.size
  if rest.length < headersLen then throw (.protocol "short seeded headers block")
  let headers := rest.take headersLen
  let payloads := rest.drop headersLen
  validateSeededPayloads headers payloads count
  return .appendEntriesSeeded ae headers payloads

def decodeBody (kind : UInt8) (body : List UInt8) : Except RaftError RaftMessage :=
  if kind = kindRequestVote then
    .requestVote <$>
      parseWhole RequestVote.layout body "request vote body" "request vote trailing bytes"
  else if kind = kindRequestVoteResp then
    .requestVoteResp <$>
      parseWhole RequestVoteResp.layout body "request vote resp body"
        "request vote resp trailing bytes"
  else if kind = kindPreVote then
    .preVote <$>
      parseWhole RequestVote.layout body "pre-vote body" "pre-vote trailing bytes"
  else if kind = kindPreVoteResp then
    .preVoteResp <$>
      parseWhole RequestVoteResp.layout body "pre-vote resp body"
        "pre-vote resp trailing bytes"
  else if kind = kindAppendEntries then do
    let (wire, rest) ← parsePrefix AppendEntries.layout body "append entries body"
    validateAppendEntriesBody wire.entryCount.toNat rest
    return .appendEntries wire rest
  else if kind = kindAppendEntriesResp then
    .appendEntriesResp <$>
      parseWhole AppendEntriesResp.layout body "append entries resp body"
        "append entries resp trailing bytes"
  else if kind = kindAppendEntriesSeeded then decodeSeeded body
  else if kind = kindInstallSnapshot then do
    let (wire, rest) ← parsePrefix InstallSnapshot.layout body "install snapshot body"
    if rest.length ≠ wire.chunkLen.toNat then
      throw (.protocol "install snapshot chunk length mismatch")
    return .installSnapshot wire rest
  else if kind = kindInstallSnapshotResp then
    .installSnapshotResp <$>
      parseWhole InstallSnapshotResp.layout body "install snapshot resp body"
        "install snapshot resp trailing bytes"
  else if kind = kindTimeoutNow then
    .timeoutNow <$>
      parseWhole TimeoutNow.layout body "timeout now body" "timeout now trailing bytes"
  else if kind = kindCustom then .ok (.custom body)
  else if kind = kindCustomResponse then .ok (.customResponse body)
  else .error (.protocol s!"unknown raft message kind {kind}")

def decodeMessage (frame : List UInt8) : Except RaftError InboundRaftMessage := do
  let (header, rest) ← parsePrefix RaftFrameHeader.layout frame "raft frame header"
  if header.magic ≠ raftMagic then throw (.protocol "invalid raft frame magic")
  if header.version ≠ raftVersion then
    throw (.protocol s!"unsupported raft frame version {header.version}")
  let bodyLen := header.bodyLen.toNat
  if rest.length ≠ bodyLen then
    throw (.protocol
      s!"raft frame length mismatch: header={bodyLen} actual={rest.length}")
  let message ← decodeBody header.kind rest
  return { sender := header.sender, groupId := header.groupId, message := message }

/-! ## Iterators -/

structure AppendEntriesEntryIter where
  payload : List UInt8
  remaining : Nat

def AppendEntriesEntryIter.next (it : AppendEntriesEntryIter) :
    Option (LogEntry × AppendEntriesEntryIter) :=
  if it.remaining = 0 then none
  else do
    let (header, rest) ← EntryHeader.layout.read it.payload
    let len := header.payloadLen.toNat
    if rest.length < len then none
    else
      some ({ term := header.term, index := header.index, payload := rest.take len },
        { payload := rest.drop len, remaining := it.remaining - 1 })

inductive SeededPayloads where
  | contiguous (bytes : List UInt8)
  | disjoint (slices : List (List UInt8))

structure AppendEntriesRawIter where
  headers : List UInt8
  payloads : SeededPayloads
  pos : Nat
  contiguousOffset : Nat

namespace AppendEntriesRawIter

def new (headers : List UInt8) (payloads : SeededPayloads) : AppendEntriesRawIter :=
  { headers := headers, payloads := payloads, pos := 0, contiguousOffset := 0 }

def next (it : AppendEntriesRawIter) : Option ((EntryHeader × List UInt8) × AppendEntriesRawIter) :=
  if it.headers.length < it.pos * 24 + 24 then none
  else
    let header := headerAt it.headers it.pos
    match it.payloads with
    | .contiguous p =>
      let stop := it.contiguousOffset + header.payloadLen.toNat
      if p.length < stop then none
      else
        some ((header, (p.drop it.contiguousOffset).take header.payloadLen.toNat),
          { it with pos := it.pos + 1, contiguousOffset := stop })
    | .disjoint p => do
      let data ← p[it.pos]?
      return ((header, data), { it with pos := it.pos + 1 })

end AppendEntriesRawIter

end ArbitroRaft.Wire
