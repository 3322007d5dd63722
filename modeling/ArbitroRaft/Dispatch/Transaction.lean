import ArbitroRaft.Types

/-!
# Dispatch transactions

`dispatch/spec.rs` and `dispatch/tx`.  A dispatch goes to a list of targets, and a
transaction keeps what each of them answered.  Behind every answer the acknowledgement
policy and the failure policy are evaluated over the targets that are still connected,
and the first completion stays.  A waiter that finds the deadline passed completes the
transaction as timed out.

Times are nanoseconds.  A `Vec` of targets is far too short for the products of the
percentage policies to leave `usize`, so these are plain numbers.
-/

namespace ArbitroRaft

/-! ## Options -/

inductive DispatchScope where
  | all
  | others
  | followers
  | leader
  | localOnly
deriving DecidableEq, Repr

inductive DispatchNodeRole where
  | leader
  | follower
deriving DecidableEq, Repr

structure DispatchRoute where
  role : DispatchNodeRole
  isOrigin : Bool
deriving DecidableEq, Repr

def DispatchScope.allows (scope : DispatchScope) (route : DispatchRoute) : Bool :=
  match scope with
  | .all => true
  | .others => !route.isOrigin
  | .followers => route.role == .follower
  | .leader => route.role == .leader
  | .localOnly => route.isOrigin

inductive DispatchAckPolicy where
  | all
  | quorum
  | atLeast
  | percent
  | bestEffort
deriving DecidableEq, Repr

inductive DispatchFailPolicy where
  | allowFailures
  | noFailures
  | maxFailures
  | maxFailurePercent
  | failFast
deriving DecidableEq, Repr

structure DispatchAckOptions where
  policy : DispatchAckPolicy
  /-- Used by `atLeast`. -/
  count : UInt16
  /-- Used by `percent`. -/
  percent : UInt8
deriving DecidableEq, Repr

structure DispatchFailOptions where
  policy : DispatchFailPolicy
  /-- Used by `maxFailures`. -/
  count : UInt16
  /-- Used by `maxFailurePercent`. -/
  percent : UInt8
deriving DecidableEq, Repr

structure DispatchOptions where
  scope : DispatchScope
  ack : DispatchAckOptions
  fail : DispatchFailOptions
  timeout : Nat
  trace : Bool
deriving DecidableEq, Repr

def DispatchAckOptions.default : DispatchAckOptions :=
  { policy := .quorum, count := 1, percent := 100 }

def DispatchFailOptions.default : DispatchFailOptions :=
  { policy := .allowFailures, count := 0, percent := 0 }

def DispatchOptions.default : DispatchOptions :=
  { scope := .all
    ack := .default
    fail := .default
    timeout := 2 * 10 ^ 9
    trace := false }

/-! ## The state of a transaction -/

inductive DispatchFailure where
  | timeout
  | lostLeadership
  | impossible (msg : String)
  | failed (msg : String)
deriving DecidableEq, Repr

inductive DispatchPeerState (R : Type) where
  | pending
  | progress (payload : List UInt8)
  | accepted (value : R)
  | rejected (reason : List UInt8)
  | failed (error : List UInt8)
  | disconnected
deriving DecidableEq, Repr

structure DispatchPeerSlot (R : Type) where
  peer : PeerId
  state : DispatchPeerState R
deriving DecidableEq, Repr

structure DispatchResult (R : Type) where
  txId : UInt64
  command : UInt8
  options : DispatchOptions
  peers : List (DispatchPeerSlot R)
deriving DecidableEq, Repr

inductive DispatchCompletion (R : Type) where
  | succeeded (result : DispatchResult R)
  | failed (failure : DispatchFailure)
deriving DecidableEq, Repr

structure DispatchState (R : Type) where
  txId : UInt64
  command : UInt8
  options : DispatchOptions
  peers : List (DispatchPeerSlot R)
  completion : Option (DispatchCompletion R)
  startInstant : Nat
  timeout : Nat
deriving DecidableEq, Repr

variable {R : Type}

namespace DispatchPeerState

def isAccepted : DispatchPeerState R → Bool
  | accepted _ => true
  | _ => false

def isFailed : DispatchPeerState R → Bool
  | rejected _ | failed _ => true
  | _ => false

/-- The target has not answered yet. -/
def isPending : DispatchPeerState R → Bool
  | pending | progress _ => true
  | _ => false

def isConnected : DispatchPeerState R → Bool
  | disconnected => false
  | _ => true

end DispatchPeerState

def usizeMax : Nat := 2 ^ 64 - 1

namespace DispatchState

def resultSnapshot (s : DispatchState R) : DispatchResult R :=
  { txId := s.txId, command := s.command, options := s.options, peers := s.peers }

def deadline (s : DispatchState R) : Option Nat :=
  if s.timeout = 0 then none else some (s.startInstant + s.timeout)

/-- `check_timeout` at `now`. -/
def checkTimeout (s : DispatchState R) (now : Nat) : DispatchState R :=
  if s.completion.isSome then s
  else
    match s.deadline with
    | none => s
    | some deadline =>
      if deadline ≤ now then { s with completion := some (.failed .timeout) } else s

def acceptedCount (s : DispatchState R) : Nat := s.peers.countP fun p => p.state.isAccepted

def failedCount (s : DispatchState R) : Nat := s.peers.countP fun p => p.state.isFailed

def pendingCount (s : DispatchState R) : Nat := s.peers.countP fun p => p.state.isPending

def activeCount (s : DispatchState R) : Nat := s.peers.countP fun p => p.state.isConnected

def requiredAccepts (s : DispatchState R) : Nat :=
  let active := s.activeCount
  if active = 0 then 0
  else
    match s.options.ack.policy with
    | .all => active
    | .quorum => active / 2 + 1
    | .atLeast => min active (max s.options.ack.count.toNat 1)
    | .percent =>
      let pct := min (max s.options.ack.percent.toNat 1) 100
      max 1 ((active * pct + 99) / 100)
    | .bestEffort => 1

def allowedFailures (s : DispatchState R) : Nat :=
  let active := s.activeCount
  match s.options.fail.policy with
  | .allowFailures => usizeMax
  | .noFailures | .failFast => 0
  | .maxFailures => s.options.fail.count.toNat
  | .maxFailurePercent => active * min s.options.fail.percent.toNat 100 / 100

def evaluate (s : DispatchState R) : DispatchState R :=
  if s.completion.isSome then s
  else
    let required := s.requiredAccepts
    let accepted := s.acceptedCount
    let failed := s.failedCount
    let pending := s.pendingCount
    let allowed := s.allowedFailures
    if required = 0 ∨ required ≤ accepted then
      { s with completion := some (.succeeded s.resultSnapshot) }
    else if allowed < failed then
      { s with
        completion := some (.failed (.failed
          s!"dispatch failure policy exceeded: failed={failed}, allowed={allowed}")) }
    else if accepted + pending < required then
      { s with
        completion := some (.failed (.impossible
          s!"dispatch can no longer reach required accepts: accepted={accepted}, pending={pending}, required={required}")) }
    else s

end DispatchState

/-- `begin_transaction`. -/
def beginTransaction (txId : UInt64) (command : UInt8) (options : DispatchOptions)
    (targets : List PeerId) (now : Nat) : DispatchState R :=
  DispatchState.evaluate
    { txId := txId
      command := command
      options := options
      peers := targets.map fun peer => { peer := peer, state := .pending }
      completion := none
      startInstant := now
      timeout := options.timeout }

/-! ## Answers -/

/-- The first slot of `peer` moves on; `none` if there is none. -/
def moveSlot (peer : PeerId) (next : DispatchPeerState R → DispatchPeerState R) :
    List (DispatchPeerSlot R) → Option (List (DispatchPeerSlot R))
  | [] => none
  | slot :: rest =>
    if slot.peer = peer then some ({ slot with state := next slot.state } :: rest)
    else (moveSlot peer next rest).map (slot :: ·)

namespace DispatchState

def updatePeerState (s : DispatchState R) (peer : PeerId)
    (next : DispatchPeerState R → DispatchPeerState R) : Except RaftError Unit × DispatchState R :=
  if s.completion.isSome then (.ok (), s)
  else
    match moveSlot peer next s.peers with
    | none => (.error (.peerUnknown peer), s)
    | some peers => (.ok (), evaluate { s with peers := peers })

def accept (s : DispatchState R) (peer : PeerId) (value : R) :
    Except RaftError Unit × DispatchState R :=
  s.updatePeerState peer fun _ => .accepted value

def reject (s : DispatchState R) (peer : PeerId) (reason : List UInt8) :
    Except RaftError Unit × DispatchState R :=
  s.updatePeerState peer fun _ => .rejected reason

/-- Progress does not take an answer back. -/
def progress (s : DispatchState R) (peer : PeerId) (payload : List UInt8) :
    Except RaftError Unit × DispatchState R :=
  s.updatePeerState peer fun current => if current.isPending then .progress payload else current

def fail (s : DispatchState R) (peer : PeerId) (error : List UInt8) :
    Except RaftError Unit × DispatchState R :=
  s.updatePeerState peer fun _ => .failed error

def disconnect (s : DispatchState R) (peer : PeerId) : Except RaftError Unit × DispatchState R :=
  s.updatePeerState peer fun _ => .disconnected

def abort (s : DispatchState R) (failure : DispatchFailure) : DispatchState R :=
  if s.completion.isSome then s else { s with completion := some (.failed failure) }

/-- One poll of `wait`; `slept` says that its sleep until the deadline is over. -/
def pollWait (s : DispatchState R) (now : Nat) (slept : Bool) : DispatchState R :=
  if s.completion.isSome then s
  else
    match s.deadline with
    | none => s
    | some deadline =>
      if deadline ≤ now ∨ slept = true then
        { s with completion := some (.failed .timeout) }
      else s

end DispatchState

/-- What happens to a transaction. -/
inductive DispatchEvent (R : Type) where
  | accept (peer : PeerId) (value : R)
  | reject (peer : PeerId) (reason : List UInt8)
  | progress (peer : PeerId) (payload : List UInt8)
  | fail (peer : PeerId) (error : List UInt8)
  | disconnect (peer : PeerId)
  | abort (failure : DispatchFailure)
  | checkTimeout (now : Nat)
  | pollWait (now : Nat) (slept : Bool)
deriving DecidableEq, Repr

namespace DispatchState

def step (s : DispatchState R) : DispatchEvent R → DispatchState R
  | .accept peer value => (s.accept peer value).2
  | .reject peer reason => (s.reject peer reason).2
  | .progress peer payload => (s.progress peer payload).2
  | .fail peer error => (s.fail peer error).2
  | .disconnect peer => (s.disconnect peer).2
  | .abort failure => s.abort failure
  | .checkTimeout now => s.checkTimeout now
  | .pollWait now slept => s.pollWait now slept

def run (s : DispatchState R) (events : List (DispatchEvent R)) : DispatchState R :=
  events.foldl step s

end DispatchState

end ArbitroRaft
