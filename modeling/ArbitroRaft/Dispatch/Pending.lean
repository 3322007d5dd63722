import ArbitroRaft.Dispatch.Frame
import ArbitroRaft.Dispatch.Resolution
import ArbitroRaft.Library.Reach
import ArbitroRaft.Node.Basic
import ArbitroRaft.Wire.RoundTrip
import Mathlib.Data.List.AList

/-!
# The transactions a node keeps registered

`api/node/dispatch.rs` and `api/custom_registry.rs`.  `dispatch` registers a transaction,
sends its envelope to the targets and runs the handler of this node if it is one of them.
`handle_custom_response` hands an answer to the transaction it names and takes the
transaction off the map if it is complete.  Nothing else takes one off while the node
leads.

A transaction that completes elsewhere stays: one without targets, one that the local
handler completes, and one whose waiter finds the deadline passed.  So does one whose
dispatch fails behind its registration.
-/

namespace ArbitroRaft

open Library

/-! ## Answers to a registered transaction -/

/-- `DispatchTx` under a `DispatchResponseKind`: what `on_response` and `on_response_ref`
do with an answer. -/
def DispatchState.onResponse {R : Type} (decodeResponse : List UInt8 → Except RaftError R)
    (s : DispatchState R) (peer : PeerId) (kind : DispatchResponseKind) (payload : List UInt8) :
    Except RaftError Unit × DispatchState R :=
  match kind with
  | .accepted =>
    match decodeResponse payload with
    | .error e => (.error e, s)
    | .ok value => s.accept peer value
  | .rejected => s.reject peer payload
  | .progress => s.progress peer payload
  | .failed => s.fail peer payload

/-- A `PendingCustomTx` behind the trait object of the map. -/
structure PendingCustomTx where
  R : Type
  state : DispatchState R
  decodeResponse : List UInt8 → Except RaftError R

namespace PendingCustomTx

def onResponse (tx : PendingCustomTx) (peer : PeerId) (kind : DispatchResponseKind)
    (payload : List UInt8) : Except RaftError Unit × PendingCustomTx :=
  let (result, state) := tx.state.onResponse tx.decodeResponse peer kind payload
  (result, { tx with state := state })

/-- `is_ready` checks the timeout first. -/
def isReady (tx : PendingCustomTx) (now : Nat) : Bool × PendingCustomTx :=
  let state := tx.state.checkTimeout now
  (state.completion.isSome, { tx with state := state })

end PendingCustomTx

/-- `pending_custom`. -/
abbrev PendingCustom := AList fun _ : UInt64 => PendingCustomTx

/-! ## Handlers -/

/-- The code of a handler: it sends answers through its context, each of which may be
refused, and returns. -/
inductive HandlerRun where
  | done (result : Except RaftError Unit)
  | send (kind : DispatchResponseKind) (payload : List UInt8)
      (next : Except RaftError Unit → HandlerRun)

namespace HandlerRun

/-- The handler over a responder. -/
def exec {σ : Type*}
    (respond : DispatchResponseKind → List UInt8 → σ → Except RaftError Unit × σ) :
    HandlerRun → σ → Except RaftError Unit × σ
  | done result, s => (result, s)
  | send kind payload next, s =>
    let (result, s) := respond kind payload s
    (next result).exec respond s

end HandlerRun

structure DispatchRegistration where
  scope : DispatchScope
  handler : DispatchView → HandlerRun

/-- The handlers by their commands, sealed or not. -/
abbrev RaftCustomRegistry := UInt8 → Option DispatchRegistration

def DispatchNodeRole.text : DispatchNodeRole → String
  | .leader => "Leader"
  | .follower => "Follower"

/-- The `Debug` form of a route. -/
def DispatchRoute.text (route : DispatchRoute) : String :=
  "DispatchRoute \x7b role: " ++ route.role.text ++ ", is_origin: " ++ toString route.isOrigin ++
    " \x7d"

/-- `invoke_bytes_scoped`: what is run on a frame. -/
def RaftCustomRegistry.invokeBytesScoped (registry : RaftCustomRegistry) (frame : List UInt8)
    (route : DispatchRoute) : HandlerRun :=
  match DispatchView.parse frame with
  | .error e => .done (.error e)
  | .ok view =>
    let command := view.command
    match registry command with
    | none =>
      .done (.error (.dispatch s!"no dispatch handler registered for command {command}"))
    | some entry =>
      if entry.scope.allows route then entry.handler view
      else
        let text := route.text
        .done (.error (.dispatch
          s!"dispatch command {command} not allowed for route {text}"))

/-- `LocalDispatchResponder::send_response`. -/
def PendingCustom.respond (localPeer : PeerId) (txId : UInt64) (kind : DispatchResponseKind)
    (payload : List UInt8) (pending : PendingCustom) : Except RaftError Unit × PendingCustom :=
  match pending.lookup txId with
  | none => (.ok (), pending)
  | some tx =>
    let (result, tx) := tx.onResponse localPeer kind payload
    (result, pending.insert txId tx)

/-! ## The node -/

namespace RaftNode

def routeForPeer (n : RaftNode) (peer : PeerId) : DispatchRoute :=
  if peer = n.config.nodeId then
    { role := if n.isLeader then .leader else .follower, isOrigin := true }
  else if n.isLeader then { role := .follower, isOrigin := false }
  else
    { role := if n.softState.leaderId = some peer then .leader else .follower, isOrigin := false }

def populateDispatchTargets (n : RaftNode) (scope : DispatchScope) : List PeerId :=
  n.config.peers.filter fun peer =>
    if peer = n.config.nodeId ∧ 1 < n.config.peers.length ∧ n.isLeader = false then
      scope == .localOnly
    else scope.allows (n.routeForPeer peer)

end RaftNode

/-- A node with its handlers, the counters of its process and its map. -/
structure DispatchHost where
  node : RaftNode
  registry : RaftCustomRegistry
  cells : TxIdCells
  pending : PendingCustom

namespace DispatchHost

/-- The handler that `dispatch` runs on this node. -/
def localRun (h : DispatchHost) (envelope : DispatchEnvelope) : HandlerRun :=
  h.registry.invokeBytesScoped envelope.bytes (h.node.routeForPeer h.node.config.nodeId)

/-- `dispatch` behind the registration: the frame goes to the other targets, whose send
errors are only logged, and the handler runs if this node is a target. -/
def fanOut (h : DispatchHost) (uninit : Nat → UInt8) (envelope : DispatchEnvelope)
    (targets : List PeerId) : Except RaftError UInt64 × List (PeerId × List UInt8) × DispatchHost :=
  let nodeId := h.node.config.nodeId
  match Wire.encodeMessageToBytes uninit (UInt64.ofNat nodeId) (.custom envelope.bytes) with
  | .error e => (.error e, [], h)
  | .ok frame =>
    let sends := (targets.filter (· ≠ nodeId)).map (·, frame)
    if nodeId ∈ targets then
      match (h.localRun envelope).exec (PendingCustom.respond nodeId envelope.txId) h.pending with
      | (.error e, pending) => (.error e, sends, { h with pending := pending })
      | (.ok (), pending) => (.ok envelope.txId, sends, { h with pending := pending })
    else (.ok envelope.txId, sends, h)

/-- `dispatch` at `now`: the id of the handle it returns, the frames it sends and the node
behind it.  `uninit` is the memory of a fresh buffer. -/
def dispatch {P R : Type} (h : DispatchHost) (spec : DispatchSpec P R) (params : P) (now : Nat)
    (uninit : Nat → UInt8) : Except RaftError UInt64 × List (PeerId × List UInt8) × DispatchHost :=
  match (spec.dispatch params).build h.cells with
  | (.error e, cells) => (.error e, [], { h with cells := cells })
  | (.ok envelope, cells) =>
    let targets := h.node.populateDispatchTargets envelope.options.scope
    let tx : PendingCustomTx :=
      { R := R
        state := beginTransaction envelope.txId envelope.command envelope.options targets now
        decodeResponse := spec.decodeResponse }
    let h := { h with cells := cells, pending := h.pending.insert envelope.txId tx }
    h.fanOut uninit envelope targets

/-- `handle_custom_response` at `now`. -/
def handleCustomResponse (h : DispatchHost) (sender : PeerId) (payload : List UInt8)
    (now : Nat) : Except RaftError Unit × DispatchHost :=
  match DispatchResponseView.parse payload with
  | .error e => (.error e, h)
  | .ok view =>
    match h.pending.lookup view.txId with
    | none => (.ok (), h)
    | some tx =>
      match tx.onResponse sender view.kind view.body with
      | (.error e, tx) => (.error e, { h with pending := h.pending.insert view.txId tx })
      | (.ok (), tx) =>
        let (ready, tx) := tx.isReady now
        if ready then (.ok (), { h with pending := h.pending.erase view.txId })
        else (.ok (), { h with pending := h.pending.insert view.txId tx })

/-- The holder of a handle looks at its transaction. -/
def pollHandle (h : DispatchHost) (txId : UInt64)
    (poll : {R : Type} → DispatchState R → DispatchState R) : DispatchHost :=
  match h.pending.lookup txId with
  | none => h
  | some tx => { h with pending := h.pending.insert txId { tx with state := poll tx.state } }

end DispatchHost

/-- What happens on a node that keeps its leadership. -/
inductive DispatchCall where
  | dispatch (P R : Type) (spec : DispatchSpec P R) (params : P) (now : Nat)
      (uninit : Nat → UInt8)
  | customResponse (sender : PeerId) (payload : List UInt8) (now : Nat)
  /-- A poll of `wait`. -/
  | wait (txId : UInt64) (now : Nat) (slept : Bool)
  /-- `is_ready`, or `try_result`. -/
  | isReady (txId : UInt64) (now : Nat)

namespace DispatchHost

def perform (h : DispatchHost) : DispatchCall → Except RaftError Unit × DispatchHost
  | .dispatch _ _ spec params now uninit =>
    let (result, _, h) := h.dispatch spec params now uninit
    (result.map fun _ => (), h)
  | .customResponse sender payload now => h.handleCustomResponse sender payload now
  | .wait txId now slept => (.ok (), h.pollHandle txId fun s => s.pollWait now slept)
  | .isReady txId now => (.ok (), h.pollHandle txId fun s => s.checkTimeout now)

end DispatchHost

end ArbitroRaft
