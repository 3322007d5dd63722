import ArbitroRaft.Wire.FrameSize
import ArbitroRaft.Library.KeyedSum

/-!
# The receive-side demultiplexer

`multiplex.rs`.  All groups over one transport share a table of inboxes.  A
receiver that gets a sibling's frame parks it there; the sibling takes it with
`try_pop_into`, or a driver takes the next one of any group with
`pop_parked_into`.  Every operation runs under one lock and is one step here.

Parked frames lie in recycled buffers of `MAX_FRAME_SIZE` bytes with the length
of the frame beside them.  Each holds such a buffer, so their number, which
`pending` counts in a `usize`, is far from its limit.
-/

namespace ArbitroRaft

open Library Wire

def maxInboxFrames : Nat := 1024

def maxPoolBufs : Nat := 64

/-- A buffer of the pool. -/
structure FrameBuf where
  bytes : List UInt8
  size : bytes.length = maxFrameSize

namespace FrameBuf

def zeroed : FrameBuf := ⟨List.replicate maxFrameSize 0, List.length_replicate ..⟩

/-- `data[..frame.len()].copy_from_slice(frame)`. -/
def write (buf : FrameBuf) (frame : List UInt8) (h : frame.length ≤ maxFrameSize) : FrameBuf where
  bytes := frame ++ buf.bytes.drop frame.length
  size := by
    rw [List.length_append, List.length_drop, buf.size]
    omega

end FrameBuf

structure ParkedFrame where
  data : FrameBuf
  len : Nat
  fits : len ≤ maxFrameSize

/-- The live part of the buffer. -/
def ParkedFrame.frame (p : ParkedFrame) : List UInt8 := p.data.bytes.take p.len

/-- `recycle`. -/
def recycle (pool : List FrameBuf) (buf : FrameBuf) : List FrameBuf :=
  if pool.length < maxPoolBufs then pool ++ [buf] else pool

structure DemuxShared where
  pending : Nat
  unknownGroup : UInt64
  overflowDropped : UInt64
  inboxes : AList fun _ : UInt64 => List ParkedFrame
  ready : List UInt64
  pool : List FrameBuf

def recvBufferTooSmall : RaftError :=
  .transport "multiplex: recv buffer smaller than parked frame"

/-- Hand a frame out: its length and the buffer it was copied to. -/
def ParkedFrame.copyTo (p : ParkedFrame) (out : List UInt8) : Except RaftError Nat × List UInt8 :=
  if out.length < p.len then (.error recvBufferTooSmall, out)
  else (.ok p.len, p.frame ++ out.drop p.len)

namespace DemuxShared

def new : DemuxShared :=
  { pending := 0
    unknownGroup := 0
    overflowDropped := 0
    inboxes := ∅
    ready := []
    pool := [] }

def register (s : DemuxShared) (gid : UInt64) : DemuxShared :=
  match s.inboxes.lookup gid with
  | some _ => s
  | none => { s with inboxes := s.inboxes.insert gid [] }

def unregister (s : DemuxShared) (gid : UInt64) : DemuxShared :=
  match s.inboxes.lookup gid with
  | none => s
  | some inbox =>
    { s with
      inboxes := s.inboxes.erase gid
      pending := s.pending - inbox.length }

/-- The group has a frame parked. -/
def occupied (s : DemuxShared) (gid : UInt64) : Bool :=
  match s.inboxes.lookup gid with
  | some (_ :: _) => true
  | _ => false

/-- A frame leaves the inbox of `gid` and its buffer goes back to the pool. -/
def take (s : DemuxShared) (gid : UInt64) (p : ParkedFrame) (rest : List ParkedFrame)
    (ready : List UInt64) : DemuxShared :=
  { s with
    inboxes := s.inboxes.insert gid rest
    ready := ready
    pending := s.pending - 1
    pool := recycle s.pool p.data }

/-- `try_pop_into`. -/
def tryPopInto (s : DemuxShared) (gid : UInt64) (out : List UInt8) :
    (Except RaftError (Option Nat) × List UInt8) × DemuxShared :=
  if s.pending = 0 then ((.ok none, out), s)
  else
    -- Stale heads of the ready queue go.
    let s' := { s with ready := s.ready.dropWhile fun g => !s.occupied g }
    match s'.inboxes.lookup gid with
    | some (p :: rest) =>
      let (result, out) := p.copyTo out
      ((result.map some, out), s'.take gid p rest s'.ready)
    | _ => ((.ok none, out), s')

/-- `park`. -/
def park (s : DemuxShared) (gid : UInt64) (frame : List UInt8) : DemuxShared :=
  if h : maxFrameSize < frame.length then { s with unknownGroup := s.unknownGroup + 1 }
  else
    match s.inboxes.lookup gid with
    | none => { s with unknownGroup := s.unknownGroup + 1 }
    | some inbox =>
      have fits : frame.length ≤ maxFrameSize := Nat.le_of_not_lt h
      let data := (s.pool.getLast?.getD .zeroed).write frame fits
      let pool := s.pool.dropLast
      if maxInboxFrames ≤ inbox.length then
        { s with
          overflowDropped := s.overflowDropped + 1
          pool := recycle pool data }
      else
        { s with
          inboxes := s.inboxes.insert gid (inbox ++ [⟨data, frame.length, fits⟩])
          ready := if inbox.isEmpty then s.ready ++ [gid] else s.ready
          pending := s.pending + 1
          pool := pool }

/-- The loop of `pop_parked_into`: the first group in the queue that has a
frame, with its inbox and the queue behind it. -/
def nextReady (inboxes : AList fun _ : UInt64 => List ParkedFrame) :
    List UInt64 → Option (UInt64 × ParkedFrame × List ParkedFrame × List UInt64)
  | [] => none
  | gid :: ready =>
    match inboxes.lookup gid with
    | some (p :: rest) => some (gid, p, rest, ready)
    | _ => nextReady inboxes ready

/-- `pop_parked_into`. -/
def popParkedInto (s : DemuxShared) (out : List UInt8) :
    (Except RaftError (Option (UInt64 × Nat)) × List UInt8) × DemuxShared :=
  if s.pending = 0 then ((.ok none, out), s)
  else
    match nextReady s.inboxes s.ready with
    | none => ((.ok none, out), { s with ready := [] })
    | some (gid, p, rest, ready) =>
      let (result, out) := p.copyTo out
      ((result.map fun len => some (gid, len), out),
        s.take gid p rest (if rest.isEmpty then ready else ready ++ [gid]))

end DemuxShared

end ArbitroRaft
