import ArbitroRaft.Library.Trace
import ArbitroRaft.Node.GroupDriver
import ArbitroRaft.Transport.Routing

/-!
# The driver of several groups

`registry/driver.rs`.  One driver runs many groups over one transport: it hands every
inbound frame to the group it names, applies what the group committed and services the
timers.  The large buffers of a node belong to the driver; a node holds them while it is
stepped and gives them back, also if the call is dropped at an await.

A group is a node and a state machine of any kind; `GroupKind` lists what the driver asks of
them.  What the world answers while one frame or timer is serviced is a `Moment`: the time,
the failures, and the frames that arrive while the node waits.  A node that waits takes its
own frames and parks those of its siblings.
-/

namespace ArbitroRaft

open Library Wire

/-! ## Buffers -/

/-- `Vec<u8>`. -/
structure ByteVec where
  bytes : List UInt8
  capacity : Nat
  fits : bytes.length ≤ capacity

namespace ByteVec

/-- `Vec::new()`. -/
def new : ByteVec := ⟨[], 0, Nat.le_refl 0⟩

/-- `vec![0u8; len]`. -/
def zeroed (len : Nat) : ByteVec := ⟨List.replicate len 0, len, Nat.le_of_eq List.length_replicate⟩

end ByteVec

/-- The buffers of a node that are lent together: `scratch_payload`, `scratch_outbound` and
`scratch_quorum_buf`. -/
structure NodeScratch where
  payload : ByteVec
  outbound : ByteVec
  quorum : ByteVec

def payloadScratch : Nat := 16 * 1024 * 1024

def outboundScratch : Nat := 1024 * 1024

def quorumScratch : Nat := 64 * 1024

/-- Max frames dispatched per `run_once` burst. -/
def burstFrames : Nat := 128

namespace NodeScratch

/-- What a group holds between two calls. -/
def empty : NodeScratch := ⟨.new, .new, .new⟩

def standalone : NodeScratch :=
  ⟨.zeroed payloadScratch, .zeroed outboundScratch, .zeroed quorumScratch⟩

/-- `ensure_resident`. -/
def ensureResident (b : NodeScratch) : NodeScratch :=
  { payload := if b.payload.bytes.length < payloadScratch then .zeroed payloadScratch else b.payload
    outbound :=
      if b.outbound.capacity < outboundScratch then .zeroed outboundScratch else b.outbound
    quorum := if b.quorum.bytes.length < quorumScratch then .zeroed quorumScratch else b.quorum }

end NodeScratch

structure CoreScratch where
  inbound : FrameBuf
  /-- `payload_buf`, `outbound_buf` and `quorum_buf`. -/
  lent : NodeScratch
  apply : ByteVec

def CoreScratch.new : CoreScratch :=
  { inbound := .zeroed, lent := .standalone, apply := .zeroed payloadScratch }

/-! ## Groups -/

/-- How a call ends early: with an error, or dropped at an await. -/
inductive Stop where
  | failed (e : RaftError)
  | dropped
deriving DecidableEq, Repr

/-- An error that is not fatal. -/
def Stop.passes : Stop → Bool
  | failed e => !e.isFatal
  | dropped => false

/-- A node with the three buffers in it. -/
structure HostedNode (N : Type) where
  core : N
  scratch : NodeScratch

/-- What the driver asks of a node and its state machine, given what the world answers.
Operations that wait are given the frames that the transport of the group hands them. -/
structure GroupKind (N M E : Type) where
  isLeader : N → Bool
  handleInbound : E → Wire.InboundRaftMessage → HostedNode N → Except Stop Unit × HostedNode N
  tryAdvanceCommitIndex : E → HostedNode N → Except RaftError Unit × HostedNode N
  applyGroup : E → HostedNode N → M → ByteVec →
    Except RaftError Unit × HostedNode N × M × ByteVec
  takeForcedCampaign : N → Bool × N
  checkQuorumActive : E → N → Bool × N
  /-- `step_down(current_term())`. -/
  stepDown : E → N → Except RaftError Unit × N
  sendHeartbeatOnce : E → List (List UInt8) → HostedNode N → Except Stop Unit × HostedNode N
  campaignPreVote : E → List (List UInt8) → FrameBuf → HostedNode N →
    Except Stop Bool × FrameBuf × HostedNode N
  campaignOnce : E → List (List UInt8) → FrameBuf → HostedNode N →
    Except Stop Bool × FrameBuf × HostedNode N
  proposeOnce : E → List (List UInt8) → List UInt8 → HostedNode N →
    Except Stop Nat × HostedNode N

structure GroupEntry (N M : Type) where
  node : HostedNode N
  sm : M

structure MultiRaftDriver (N M : Type) where
  registry : AList fun _ : UInt64 => GroupEntry N M
  demux : DemuxShared
  timers : AList fun _ : UInt64 => GroupTimers
  scratch : CoreScratch
  unknownGroupFrames : UInt64
  dueScratch : List UInt64

/-! ## Receiving -/

/-- `frame_group`: bytes 24 to 32, little-endian. -/
def frameGroup (buf : List UInt8) : Option UInt64 :=
  if buf.length < 32 then none else (Layout.u64.read (buf.drop 24)).map Prod.fst

/-- A receive call of a waiting node: the room in its buffer, and what the shared transport
delivers meanwhile. -/
structure RecvCall where
  room : Nat
  arrivals : List (List UInt8)

namespace DemuxShared

/-- `recv_frame_timeout` of the transport of group `gid`. -/
def recvFrameTimeout (gid : UInt64) (out : List UInt8) :
    List (List UInt8) → DemuxShared → Except RaftError (Option (List UInt8)) × DemuxShared
  | arrivals, s =>
    match s.tryPopInto gid out with
    | ((.ok (some n), out), s) => (.ok (some (out.take n)), s)
    | ((.error e, _), s) => (.error e, s)
    | ((.ok none, _), s) =>
      match arrivals with
      | [] => (.ok none, s)
      | frame :: rest =>
        match frameGroup frame with
        | some g =>
          if g = gid then (.ok (some frame), s)
          else recvFrameTimeout gid out rest (s.park g frame)
        | none =>
          recvFrameTimeout gid out rest { s with unknownGroup := s.unknownGroup + 1 }

theorem length_copyTo (p : ParkedFrame) (out : List UInt8) : (p.copyTo out).2.length = out.length := by
  unfold ParkedFrame.copyTo
  split
  · rfl
  · rename_i hroom
    show (p.frame ++ out.drop p.len).length = _
    rw [List.length_append, List.length_drop, p.length_frame]
    omega

theorem length_popParkedInto (s : DemuxShared) (out : List UInt8) :
    (s.popParkedInto out).1.2.length = out.length := by
  unfold popParkedInto
  split
  · rfl
  · split
    · rfl
    · exact length_copyTo _ out

/-- The frames that the receive calls of a wait hand to the node. -/
def receives (gid : UInt64) : List RecvCall → DemuxShared → List (List UInt8) × DemuxShared
  | [], s => ([], s)
  | call :: calls, s =>
    match s.recvFrameTimeout gid (List.replicate call.room 0) call.arrivals with
    | (.ok (some frame), s) =>
      let (frames, s) := receives gid calls s
      (frame :: frames, s)
    | (_, s) => receives gid calls s

end DemuxShared

/-! ## Lending -/

/-- What an operation can reach while the buffers are lent. -/
structure Window (N M : Type) where
  node : HostedNode N
  /-- The node's own buffers, in the fields of the driver. -/
  held : NodeScratch
  sm : M
  inbound : FrameBuf
  apply : ByteVec
  demux : DemuxShared
  /-- The raw frames that went to handlers of the node. -/
  handed : List (List UInt8)

namespace MultiRaftDriver

variable {N M : Type}

/-- `lend`: the buffers of the driver and of the node change places. -/
def lend (d : MultiRaftDriver N M) (entry : GroupEntry N M) : Window N M :=
  { node := { entry.node with scratch := d.scratch.lent }
    held := entry.node.scratch
    sm := entry.sm
    inbound := d.scratch.inbound
    apply := d.scratch.apply
    demux := d.demux
    handed := [] }

/-- The lend ends, and they change places again. -/
def giveBack (d : MultiRaftDriver N M) (gid : UInt64) (w : Window N M) : MultiRaftDriver N M :=
  { d with
    registry := d.registry.insert gid { node := { w.node with scratch := w.held }, sm := w.sm }
    demux := w.demux
    scratch := { inbound := w.inbound, lent := w.node.scratch, apply := w.apply } }

def setTimers (d : MultiRaftDriver N M) (gid : UInt64) (t : GroupTimers) : MultiRaftDriver N M :=
  { d with timers := d.timers.insert gid t }

/-- `timers.get_mut`. -/
def onTimers (d : MultiRaftDriver N M) (gid : UInt64) (f : GroupTimers → GroupTimers) :
    MultiRaftDriver N M :=
  match d.timers.lookup gid with
  | some t => d.setTimers gid (f t)
  | none => d

/-- Change a node outside of a lend. -/
def setCore (d : MultiRaftDriver N M) (gid : UInt64) (entry : GroupEntry N M) (core : N) :
    MultiRaftDriver N M :=
  { d with
    registry := d.registry.insert gid { entry with node := { entry.node with core := core } } }

end MultiRaftDriver

abbrev WindowM (N M : Type) := EStateM Stop (Window N M)

namespace Window

variable {N M E A : Type}

def onNode (op : HostedNode N → Except Stop A × HostedNode N) : WindowM N M A := fun w =>
  match op w.node with
  | (.ok a, n) => .ok a { w with node := n }
  | (.error e, n) => .error e { w with node := n }

/-- An operation that receives into the buffer of the driver. -/
def onInbound (op : FrameBuf → HostedNode N → Except Stop A × FrameBuf × HostedNode N) :
    WindowM N M A := fun w =>
  match op w.inbound w.node with
  | (.ok a, buf, n) => .ok a { w with node := n, inbound := buf }
  | (.error e, buf, n) => .error e { w with node := n, inbound := buf }

/-- An operation that does not wait. -/
def atOnce (op : HostedNode N → Except RaftError A × HostedNode N) : WindowM N M A :=
  onNode fun n => ((op n).1.mapError .failed, (op n).2)

/-- The receive calls of a wait. -/
def receive (gid : UInt64) (calls : List RecvCall) : WindowM N M (List (List UInt8)) := fun w =>
  let (frames, demux) := w.demux.receives gid calls
  .ok frames { w with demux := demux, handed := w.handed ++ frames }

/-- Pass over every error that is not fatal. -/
def passOver (m : WindowM N M A) (otherwise : A) : WindowM N M A :=
  tryCatch m fun stop => if stop.passes then pure otherwise else throw stop

end Window

/-! ## One frame, one timer -/

/-- What the world answers while one frame or timer is serviced. -/
structure Moment (E : Type) where
  /-- When it starts, and when its waits are over. -/
  now : Nat
  later : Nat
  world : E
  /-- The receive calls of the heartbeat, of the pre-vote and of the election. -/
  heartbeat : List RecvCall
  preVote : List RecvCall
  campaign : List RecvCall

/-- A frame of `len` bytes in the inbound buffer, or a timer that was due at `now`. -/
inductive DriverEvent where
  | frame (gid : UInt64) (len : Nat)
  | tick (gid : UInt64) (now : Nat)
deriving DecidableEq, Repr

def DriverEvent.gid : DriverEvent → UInt64
  | frame gid _ => gid
  | tick gid _ => gid

/-- An event that a call took up, and the state it found. -/
structure Serviced (N M E : Type) where
  before : MultiRaftDriver N M
  moment : Moment E
  event : DriverEvent

/-- A call of the driver, with a record of the frames that went to handlers, by group, and
of the events that were taken up. -/
structure DriverRun (N M E : Type) where
  driver : MultiRaftDriver N M
  handed : List (UInt64 × List UInt8)
  serviced : List (Serviced N M E)

abbrev DriverM (N M E : Type) := EStateM Stop (DriverRun N M E)

namespace DriverRun

variable {N M E : Type}

def onDriver (s : DriverRun N M E) (f : MultiRaftDriver N M → MultiRaftDriver N M) :
    DriverRun N M E :=
  { s with driver := f s.driver }

/-- An event is taken up. -/
def record (s : DriverRun N M E) (m : Moment E) (event : DriverEvent) : DriverRun N M E :=
  { s with serviced := s.serviced ++ [⟨s.driver, m, event⟩] }

/-- The lend of the buffers to group `gid` ends. -/
def close (s : DriverRun N M E) (gid : UInt64) (w : Window N M) : DriverRun N M E :=
  { s with
    driver := s.driver.giveBack gid w
    handed := s.handed ++ w.handed.map fun frame => (gid, frame) }

end DriverRun

namespace GroupKind

variable {N M E : Type} (K : GroupKind N M E)

/-- The first half of `dispatch_frame`: decode the frame and hand it to the node.  What
does not decode and errors that are not fatal are dropped. -/
def handleFrame (m : Moment E) (len : Nat) : WindowM N M Unit := do
  let w ← get
  let frame := w.inbound.bytes.take len
  match Wire.decodeMessage frame with
  | .error _ => return ()
  | .ok inbound => do
    modify fun w => { w with handed := w.handed ++ [frame] }
    Window.passOver (Window.onNode (K.handleInbound m.world inbound)) ()

/-- `apply_group` with the state machine and the buffer of the driver. -/
def applyCommitted (m : Moment E) : WindowM N M Unit := fun w =>
  match K.applyGroup m.world w.node w.sm w.apply with
  | (.ok (), n, sm, buf) => .ok () { w with node := n, sm := sm, apply := buf }
  | (.error e, n, sm, buf) => .error (.failed e) { w with node := n, sm := sm, apply := buf }

/-- A leader advances its commit index. -/
def advance (m : Moment E) : WindowM N M Unit := do
  let w ← get
  if K.isLeader w.node.core then Window.atOnce (K.tryAdvanceCommitIndex m.world) else return ()

/-- The second half of `dispatch_frame`. -/
def settle (m : Moment E) : WindowM N M Unit := do
  K.advance m
  K.applyCommitted m

/-- The timers behind a frame: it counts as a sign of the leader, and a sanctioned campaign
is due at once. -/
def timersBehindFrame (m : Moment E) (forced : Bool) (t : GroupTimers) : GroupTimers :=
  let t := t.resetElection m.later
  if forced then { t with nextElectionAt := m.later, forcedCampaign := true } else t

/-- The end of `dispatch_frame`, with the result of its two halves. -/
def finishFrame (m : Moment E) (gid : UInt64) (w : Window N M) (result : Except Stop Unit) :
    DriverM N M E Unit := do
  let (forced, core) := K.takeForcedCampaign w.node.core
  modify fun s => s.close gid { w with node := { w.node with core := core } }
  modify fun s => s.onDriver fun d => d.onTimers gid (timersBehindFrame m forced)
  match result with
  | .ok () => return ()
  | .error stop => throw stop

/-- `dispatch_frame`. -/
def dispatchFrame (m : Moment E) (gid : UInt64) (len : Nat) : DriverM N M E Unit := do
  let s ← get
  match s.driver.registry.lookup gid with
  | none =>
    modify fun s => s.onDriver fun d => { d with unknownGroupFrames := d.unknownGroupFrames + 1 }
  | some entry =>
    match (K.handleFrame m len).run (s.driver.lend entry) with
    | .error .dropped w => do
      modify fun s => s.close gid w
      throw .dropped
    | .error (.failed e) w => K.finishFrame m gid w (.error (.failed e))
    | .ok () w =>
      match (K.settle m).run w with
      | .ok () w => K.finishFrame m gid w (.ok ())
      | .error stop w => K.finishFrame m gid w (.error stop)

/-- `send_heartbeat_once` with its waits. -/
def heartbeat (m : Moment E) (gid : UInt64) : WindowM N M Unit := do
  let frames ← Window.receive gid m.heartbeat
  Window.onNode (K.sendHeartbeatOnce m.world frames)

/-- `campaign_pre_vote` with its waits. -/
def preVote (m : Moment E) (gid : UInt64) : WindowM N M Bool := do
  let frames ← Window.receive gid m.preVote
  Window.onInbound (K.campaignPreVote m.world frames)

/-- `campaign_once` with its waits. -/
def election (m : Moment E) (gid : UInt64) : WindowM N M Bool := do
  let frames ← Window.receive gid m.campaign
  Window.onInbound (K.campaignOnce m.world frames)

/-- `run_election`: a sanctioned campaign skips the pre-vote. -/
def runElection (m : Moment E) (gid : UInt64) (forced : Bool) : WindowM N M Bool :=
  if forced then K.election m gid
  else do
    let pre ← Window.passOver (K.preVote m gid) false
    if pre then K.election m gid else return false

/-- The end of a lend in `tick_group`: a call that was dropped ends there, an error that is
not fatal is passed over. -/
def closeTick (gid : UInt64) (w : Window N M) (timers : GroupTimers → GroupTimers)
    (result : Except Stop Unit) : DriverM N M E Unit := do
  modify fun s => s.close gid w
  match result with
  | .error .dropped => throw .dropped
  | result => do
    modify fun s => s.onDriver fun d => d.onTimers gid timers
    match result with
    | .ok () => return ()
    | .error stop => if stop.passes then return () else throw stop

/-- A heartbeat of a leader, or its abdication. -/
def heartbeatTick (m : Moment E) (gid : UInt64) (entry : GroupEntry N M) :
    DriverM N M E Unit := do
  let (active, core) := K.checkQuorumActive m.world entry.node.core
  if active then do
    let s ← get
    let entry := { entry with node := { entry.node with core := core } }
    match (K.heartbeat m gid).run (s.driver.lend entry) with
    | .ok () w => closeTick gid w id (.ok ())
    | .error stop w => closeTick gid w id (.error stop)
  else
    match K.stepDown m.world core with
    | (.ok (), core) => modify fun s => s.onDriver fun d => d.setCore gid entry core
    | (.error e, core) => do
      modify fun s => s.onDriver fun d => d.setCore gid entry core
      throw (.failed e)

/-- The heartbeat part of `tick_group`. -/
def beatIfDue (m : Moment E) (gid : UInt64) (now : Nat) (entry : GroupEntry N M)
    (t : GroupTimers) : DriverM N M E Unit :=
  if t.nextHeartbeatAt ≤ now then do
    modify fun s => s.onDriver fun d => d.setTimers gid (t.resetHeartbeat m.now)
    if K.isLeader entry.node.core then K.heartbeatTick m gid entry else return ()
  else return ()

/-- An election of `tick_group`. -/
def electionTick (m : Moment E) (gid : UInt64) (entry : GroupEntry N M) (forced : Bool) :
    DriverM N M E Unit := do
  let s ← get
  match (K.runElection m gid forced).run (s.driver.lend entry) with
  | .error stop w => closeTick gid w (·.resetElection m.later) (.error stop)
  | .ok false w => closeTick gid w (·.resetElection m.later) (.ok ())
  | .ok true w =>
    let won := fun t : GroupTimers => (t.resetElection m.later).resetHeartbeat m.later
    match (K.heartbeat m gid).run w with
    | .ok () w => closeTick gid w won (.ok ())
    | .error stop w => closeTick gid w won (.error stop)

/-- The election part of `tick_group`; a node that led at its start does not campaign. -/
def campaignIfDue (m : Moment E) (gid : UInt64) (now : Nat) (entry : GroupEntry N M)
    (t : GroupTimers) : DriverM N M E Unit :=
  if !K.isLeader entry.node.core && decide (t.nextElectionAt ≤ now) then do
    modify fun s => s.onDriver fun d => d.onTimers gid fun t =>
      { t with forcedCampaign := false }.resetElection m.now
    K.electionTick m gid entry t.forcedCampaign
  else return ()

/-- `tick_group`. -/
def tickGroup (m : Moment E) (gid : UInt64) (now : Nat) : DriverM N M E Unit := do
  let s ← get
  match s.driver.registry.lookup gid, s.driver.timers.lookup gid with
  | some entry, some t => do
    K.beatIfDue m gid now entry t
    K.campaignIfDue m gid now entry t
  | _, _ => return ()

def perform (m : Moment E) : DriverEvent → DriverM N M E Unit
  | .frame gid len => K.dispatchFrame m gid len
  | .tick gid now => K.tickGroup m gid now

end GroupKind

/-! ## A call of `run_once` -/

/-- A frame that fits the inbound buffer. -/
structure RawFrame where
  bytes : List UInt8
  fits : bytes.length ≤ maxFrameSize

/-- What the world answers to a call of `run_once`. -/
structure TickInput (E : Type) where
  /-- While the `i`-th frame or timer is serviced. -/
  moment : Nat → Moment E
  /-- To the receive calls of the burst, and to the one when idle. -/
  burst : List (Except Stop (Option RawFrame))
  idle : Except Stop (Option RawFrame)
  maxWait : Nat
  idleNow : Nat
  timersNow : Nat
  /-- How the map of the timers is iterated. -/
  order : (AList fun _ : UInt64 => GroupTimers) → List (Sigma fun _ : UInt64 => GroupTimers)
  order_perm : ∀ timers, (order timers).Perm timers.entries

namespace GroupKind

variable {N M E : Type} (K : GroupKind N M E)

/-- Take up an event. -/
def serve (input : TickInput E) (event : DriverEvent) : DriverM N M E Unit := do
  let s ← get
  let m := input.moment s.serviced.length
  set (s.record m event)
  K.perform m event

/-- Put a frame in the inbound buffer. -/
def store (frame : RawFrame) : DriverM N M E Unit :=
  modify fun s => s.onDriver fun d =>
    { d with scratch := { d.scratch with inbound := d.scratch.inbound.write frame.bytes frame.fits } }

/-- `route_raw`, for a frame of `len` bytes in the inbound buffer. -/
def routeRaw (input : TickInput E) (len : Nat) : DriverM N M E Unit := do
  let s ← get
  match frameGroup (s.driver.scratch.inbound.bytes.take len) with
  | some gid => K.serve input (.frame gid len)
  | none =>
    modify fun s => s.onDriver fun d => { d with unknownGroupFrames := d.unknownGroupFrames + 1 }

/-- `pop_parked_into` the inbound buffer. -/
def popParked : DriverM N M E (Option (UInt64 × Nat)) := do
  let s ← get
  let inbound := s.driver.scratch.inbound
  let popped := s.driver.demux.popParkedInto inbound.bytes
  let out : FrameBuf := ⟨popped.1.2, (DemuxShared.length_popParkedInto ..).trans inbound.size⟩
  set (s.onDriver fun d =>
    { d with demux := popped.2, scratch := { d.scratch with inbound := out } })
  match popped.1.1 with
  | .ok next => return next
  | .error e => throw (.failed e)

/-- The frames that were parked, at most `room` of them; the result is their number. -/
def drainParked (input : TickInput E) : Nat → DriverM N M E Nat
  | 0 => return 0
  | room + 1 => do
    match ← popParked with
    | some (gid, len) => do
      K.serve input (.frame gid len)
      return (← drainParked input room) + 1
    | none => return 0

/-- The frames that the transport has at once. -/
def drainBurst (input : TickInput E) :
    Nat → List (Except Stop (Option RawFrame)) → DriverM N M E Nat
  | 0, _ => return 0
  | _, [] => return 0
  | room + 1, answer :: answers => do
    match answer with
    | .ok (some frame) => do
      store frame
      K.routeRaw input frame.bytes.length
      return (← drainBurst input room answers) + 1
    | .ok none => return 0
    | .error stop => if stop.passes then return 0 else throw stop

/-- The time until the next timer is due, at most `maxWait`. -/
def idleWait (input : TickInput E) (timers : AList fun _ : UInt64 => GroupTimers) : Nat :=
  (input.order timers).foldl
    (fun wait e => min (min wait (e.2.nextHeartbeatAt - input.idleNow))
      (e.2.nextElectionAt - input.idleNow)) input.maxWait

/-- If nothing was there, wait for one frame. -/
def awaitOne (input : TickInput E) (processed : Nat) : DriverM N M E Nat := do
  let s ← get
  if processed ≠ 0 ∨ input.maxWait = 0 ∨ idleWait input s.driver.timers = 0 then return 0
  else
    match input.idle with
    | .ok (some frame) => do
      store frame
      K.routeRaw input frame.bytes.length
      return 1
    | .ok none => return 0
    | .error stop => if stop.passes then return 0 else throw stop

/-- The groups that have a timer due. -/
def dueGroups (input : TickInput E) (timers : AList fun _ : UInt64 => GroupTimers) : List UInt64 :=
  ((input.order timers).filter fun e =>
    decide (e.2.nextHeartbeatAt ≤ input.timersNow ∨ e.2.nextElectionAt ≤ input.timersNow)).map
    Sigma.fst

def tickAll (input : TickInput E) : List UInt64 → DriverM N M E Unit
  | [] => return ()
  | gid :: rest => do
    K.serve input (.tick gid input.timersNow)
    tickAll input rest

/-- `tick_timers`. -/
def tickTimers (input : TickInput E) : DriverM N M E Unit := do
  modify fun s => s.onDriver fun d => { d with dueScratch := dueGroups input d.timers }
  let s ← get
  K.tickAll input s.driver.dueScratch

/-- `ensure_resident`, at the start of a call. -/
def ensureResident : DriverM N M E Unit :=
  modify fun s => s.onDriver fun d =>
    { d with scratch := { d.scratch with lent := d.scratch.lent.ensureResident } }

/-- The first three parts of `run_once`; the result is the number of frames. -/
def receiveFrames (input : TickInput E) : DriverM N M E Nat := do
  ensureResident
  let parked ← K.drainParked input burstFrames
  let burst ← K.drainBurst input (burstFrames - parked) input.burst
  let waited ← K.awaitOne input (parked + burst)
  return parked + burst + waited

/-- `run_once`. -/
def runOnce (input : TickInput E) : DriverM N M E Nat := do
  let processed ← K.receiveFrames input
  K.tickTimers input
  return processed

/-! ## The other calls -/

def noGroup (gid : UInt64) : RaftError := .protocol s!"no group {gid} in driver"

/-- The end of `campaign`: the timers are set unless the call was dropped. -/
def finishCampaign (m : Moment E) (gid : UInt64) (w : Window N M) (result : Except Stop Bool) :
    DriverM N M E Bool := do
  modify fun s => s.close gid w
  match result with
  | .error .dropped => throw .dropped
  | result => do
    modify fun s => s.onDriver fun d =>
      d.onTimers gid fun t => (t.resetElection m.later).resetHeartbeat m.later
    match result with
    | .ok elected => return elected
    | .error stop => throw stop

/-- `campaign`. -/
def campaign (m : Moment E) (gid : UInt64) : DriverM N M E Bool := do
  ensureResident
  let s ← get
  match s.driver.registry.lookup gid with
  | none => throw (.failed (noGroup gid))
  | some entry =>
    match (K.election m gid).run (s.driver.lend entry) with
    | .error stop w => finishCampaign m gid w (.error stop)
    | .ok false w => finishCampaign m gid w (.ok false)
    | .ok true w =>
      match (K.heartbeat m gid).run w with
      | .ok () w => finishCampaign m gid w (.ok true)
      | .error stop w => finishCampaign m gid w (.error stop)

/-- `propose`: the payload is applied before the call returns. -/
def proposeCommitted (m : Moment E) (gid : UInt64) (payload : List UInt8) : WindowM N M Nat := do
  let frames ← Window.receive gid m.campaign
  let index ← Window.onNode (K.proposeOnce m.world frames payload)
  K.applyCommitted m
  return index

/-- `propose`. -/
def propose (m : Moment E) (gid : UInt64) (payload : List UInt8) : DriverM N M E Nat := do
  if maxEntryPayload < payload.length then
    throw (.failed (.invalidPayload
      "payload exceeds MAX_ENTRY_PAYLOAD and would not fit a peer's frame buffer"))
  else if payload.head? = some configChangeMagic then
    throw (.failed (.invalidPayload
      "payload first byte collides with reserved config-change magic (0xC0)"))
  else do
    ensureResident
    let s ← get
    match s.driver.registry.lookup gid with
    | none => throw (.failed (noGroup gid))
    | some entry =>
      match (K.proposeCommitted m gid payload).run (s.driver.lend entry) with
      | .ok index w => do
        modify fun s => s.close gid w
        return index
      | .error stop w => do
        modify fun s => s.close gid w
        throw stop

end GroupKind

namespace MultiRaftDriver

variable {N M E : Type}

def new : MultiRaftDriver N M :=
  { registry := ∅
    demux := .new
    timers := ∅
    scratch := .new
    unknownGroupFrames := 0
    dueScratch := [] }

/-- `add_group`; `built` is what `RaftNode::new` returns.  A node that is added gives up its
buffers. -/
def addGroup (d : MultiRaftDriver N M) (gid : UInt64) (built : Except RaftError (HostedNode N))
    (sm : M) (nodeId : PeerId) (timing : TimingConfig) (now : Nat) :
    Except RaftError Unit × MultiRaftDriver N M :=
  match d.registry.lookup gid with
  | some _ => (.error (.protocol s!"duplicate group id {gid}"), d)
  | none =>
    let demux := d.demux.register gid
    match built with
    | .error e => (.error e, { d with demux := demux.unregister gid })
    | .ok node =>
      (.ok (),
        { d with
          registry := d.registry.insert gid { node := { node with scratch := .empty }, sm := sm }
          demux := demux
          timers := d.timers.insert gid (.new gid.toNat nodeId timing now) })

/-- `remove_group`: the node leaves with buffers of its own. -/
def removeGroup (d : MultiRaftDriver N M) (gid : UInt64) :
    Option (HostedNode N × M) × MultiRaftDriver N M :=
  match d.registry.lookup gid with
  | none => (none, d)
  | some entry =>
    (some ({ entry.node with scratch := .standalone }, entry.sm),
      { d with
        registry := d.registry.erase gid
        demux := d.demux.unregister gid
        timers := d.timers.erase gid })

end MultiRaftDriver

/-- A call of the driver. -/
inductive DriverCall (N M E : Type) where
  | addGroup (gid : UInt64) (built : Except RaftError (HostedNode N)) (sm : M) (nodeId : PeerId)
      (timing : TimingConfig) (now : Nat)
  | removeGroup (gid : UInt64)
  | campaign (m : Moment E) (gid : UInt64)
  | propose (m : Moment E) (gid : UInt64) (payload : List UInt8)
  | runOnce (input : TickInput E)

namespace GroupKind

variable {N M E : Type} (K : GroupKind N M E)

/-- The state behind a call, with its records. -/
def run (d : MultiRaftDriver N M) : DriverCall N M E → DriverRun N M E
  | .addGroup gid built sm nodeId timing now =>
    ⟨(d.addGroup gid built sm nodeId timing now).2, [], []⟩
  | .removeGroup gid => ⟨(d.removeGroup gid).2, [], []⟩
  | .campaign m gid => final (K.campaign m gid ⟨d, [], []⟩)
  | .propose m gid payload => final (K.propose m gid payload ⟨d, [], []⟩)
  | .runOnce input => final (K.runOnce input ⟨d, [], []⟩)

def step (d : MultiRaftDriver N M) (call : DriverCall N M E) : Option (MultiRaftDriver N M) :=
  some (K.run d call).driver

end GroupKind

end ArbitroRaft
