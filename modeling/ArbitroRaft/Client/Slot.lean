import ArbitroRaft.Library.Reach
import Mathlib.Logic.Function.Basic
import Mathlib.Tactic

/-!
# Notification slots

`slot.rs` and the write future of `client.rs`, one atomic access a step.  Any
number of clients lease, poll and drop; the raft task notifies.  A client is at
one point of its write at a time; between two of its accesses every other task
may move.
-/

namespace ArbitroRaft

open Library

def slotPending : UInt64 := 0

def tagNotLeader : UInt64 := (1 : UInt64) <<< 63

def tagCommitted : UInt64 := (1 : UInt64) <<< 62

def indexMask : UInt64 := tagCommitted - 1

/-- What a write ends with. -/
inductive Outcome where
  | committed (index : UInt64)
  | notLeader
deriving DecidableEq, Repr

namespace Outcome

/-- The word `store_committed` or `store_error` writes. -/
def encode : Outcome → UInt64
  | .committed index => tagCommitted ||| (index &&& indexMask)
  | .notLeader => tagNotLeader

def decode (v : UInt64) : Outcome :=
  if v &&& tagNotLeader ≠ 0 then .notLeader else .committed (v &&& indexMask)

/-- The debug assertion of `store_committed`. -/
def Encodable : Outcome → Prop
  | .committed index => index ≤ indexMask
  | .notLeader => True

end Outcome

structure Slot where
  state : UInt64
  generation : Nat
deriving DecidableEq, Repr

/-- `SlotId`: both halves are `u32`. -/
structure SlotId where
  index : Nat
  generation : Nat
deriving DecidableEq, Repr

def SlotId.new (index generation : Nat) : SlotId :=
  { index := index % 2 ^ 32, generation := generation % 2 ^ 32 }

/-- Where a client is in its write. -/
inductive ClientTask where
  | idle
  /-- `lease`, about to load the state of the `i`-th slot from `start`. -/
  | scanning (start i : Nat)
  /-- `lease`, about to exchange `current` for `SLOT_PENDING`. -/
  | exchanging (start i : Nat) (current : UInt64)
  /-- `lease`, about to bump the generation of the slot it took. -/
  | bumping (idx : Nat)
  /-- Holds a lease, about to enqueue the proposal. -/
  | leased (id : SlotId)
  /-- Holds the write future. -/
  | waiting (id : SlotId)
  /-- `poll`, between the registration of the waker and the second load. -/
  | registered (id : SlotId)
  /-- `poll` returned `Ready` with the word it loaded. -/
  | resolved (id : SlotId) (word : UInt64)
  /-- `release`, about to load the state. -/
  | releasing (id : SlotId)
  /-- `release`, about to store the error. -/
  | cancelling (id : SlotId)
deriving DecidableEq, Repr

/-- Where the raft task is in a notification. -/
inductive RaftTask where
  | idle
  /-- The generation was current; about to store the outcome. -/
  | storing (id : SlotId) (outcome : Outcome)
deriving DecidableEq, Repr

/-- The registry and the tasks on it. -/
structure SlotWorld where
  capacity : Nat
  cursor : Nat
  arena : Nat → Slot
  clients : Nat → ClientTask
  /-- Ids the raft task was given and has not notified. -/
  mailbox : List SlotId
  raft : RaftTask
  /-- History: what was stored for an id. -/
  delivered : SlotId → Option Outcome

namespace SlotWorld

/-- `SlotRegistry::new`, with every task at rest. -/
def new (capacity : Nat) : SlotWorld :=
  { capacity := capacity
    cursor := 0
    arena := fun _ => { state := tagNotLeader, generation := 0 }
    clients := fun _ => .idle
    mailbox := []
    raft := .idle
    delivered := fun _ => none }

/-- The slot a lease looks at in round `i`. -/
def slotAt (w : SlotWorld) (start i : Nat) : Nat := (start + i) % 2 ^ 64 % w.capacity

def setClient (w : SlotWorld) (c : Nat) (t : ClientTask) : SlotWorld :=
  { w with clients := Function.update w.clients c t }

def setState (w : SlotWorld) (idx : Nat) (word : UInt64) : SlotWorld :=
  { w with arena := Function.update w.arena idx { w.arena idx with state := word } }

section Updates

variable (w : SlotWorld) (c idx : Nat) (t : ClientTask) (word : UInt64)

@[simp] theorem setClient_clients_self : (w.setClient c t).clients c = t := by
  simp only [setClient, Function.update_self]

theorem setClient_clients_of_ne {c c' : Nat} (h : c' ≠ c) :
    (w.setClient c t).clients c' = w.clients c' := by
  simp only [setClient, Function.update_of_ne h]

@[simp] theorem setState_arena_self :
    (w.setState idx word).arena idx = { w.arena idx with state := word } := by
  simp only [setState, Function.update_self]

theorem setState_arena_of_ne {idx k : Nat} (h : k ≠ idx) :
    (w.setState idx word).arena k = w.arena k := by
  simp only [setState, Function.update_of_ne h]

@[simp] theorem setState_generation (k : Nat) :
    ((w.setState idx word).arena k).generation = (w.arena k).generation := by
  by_cases h : k = idx
  · rw [h, setState_arena_self]
  · rw [setState_arena_of_ne w word h]

end Updates

/-- The scan moves on; past the last slot `lease` returns `None`. -/
def scanFrom (w : SlotWorld) (c start i : Nat) : SlotWorld :=
  w.setClient c (if i < w.capacity then .scanning start i else .idle)

end SlotWorld

/-- An atomic access of a client. -/
inductive ClientMove where
  /-- `cursor.fetch_add` at the start of `lease`. -/
  | lease
  | scan
  | exchange
  | bump
  /-- `try_send`: the mailbox takes the proposal, or the write gives up. -/
  | send (accepted : Bool)
  /-- First load of `poll`. -/
  | poll
  /-- Second load of `poll`. -/
  | repoll
  /-- The future is dropped, resolved or not. -/
  | dropFuture
  | releaseLoad
  | releaseStore
deriving DecidableEq, Repr

/-- An atomic access of a task. -/
inductive SlotAct where
  | client (c : Nat) (move : ClientMove)
  /-- The generation check of `notify_committed` and `notify_error`. -/
  | notify (id : SlotId) (outcome : Outcome)
  | store
deriving DecidableEq, Repr

namespace SlotWorld

/-- What a load of `poll` leads to. -/
def pollLoad (w : SlotWorld) (c : Nat) (id : SlotId) (pending : ClientTask) : SlotWorld :=
  let v := (w.arena id.index).state
  w.setClient c (if v ≠ slotPending then .resolved id v else pending)

/-- A client's move, given where it is. -/
def clientStep (w : SlotWorld) (c : Nat) : ClientMove → ClientTask → Option SlotWorld
  | .lease, .idle =>
    some ({ w with cursor := (w.cursor + 1) % 2 ^ 64 }.scanFrom c w.cursor 0)
  | .scan, .scanning start i =>
    let current := (w.arena (w.slotAt start i)).state
    some (if current ≠ slotPending then w.setClient c (.exchanging start i current)
      else w.scanFrom c start (i + 1))
  | .exchange, .exchanging start i current =>
    let idx := w.slotAt start i
    some (if (w.arena idx).state = current then
        (w.setState idx slotPending).setClient c (.bumping idx)
      else w.scanFrom c start (i + 1))
  | .bump, .bumping idx =>
    let generation := (w.arena idx).generation + 1
    some ({ w with
      arena := Function.update w.arena idx { w.arena idx with generation := generation } }
      |>.setClient c (.leased (.new idx generation)))
  | .send true, .leased id =>
    some ({ w with mailbox := w.mailbox ++ [id] }.setClient c (.waiting id))
  | .send false, .leased id => some (w.setClient c (.releasing id))
  | .poll, .waiting id => some (w.pollLoad c id (.registered id))
  | .repoll, .registered id => some (w.pollLoad c id (.waiting id))
  | .dropFuture, .waiting id => some (w.setClient c (.releasing id))
  | .dropFuture, .resolved id _ => some (w.setClient c (.releasing id))
  | .releaseLoad, .releasing id =>
    some (w.setClient c
      (if (w.arena id.index).state = slotPending then .cancelling id else .idle))
  | .releaseStore, .cancelling id =>
    some ((w.setState id.index tagNotLeader).setClient c .idle)
  | _, _ => none

/-- The raft task notifies an id it was given, once; a stale one is dropped at
the check. -/
def notifyStep (w : SlotWorld) (id : SlotId) (outcome : Outcome) : Option SlotWorld :=
  if id ∈ w.mailbox ∧ w.raft = .idle then
    some { w with
      mailbox := w.mailbox.erase id
      raft := if (w.arena id.index).generation % 2 ^ 32 = id.generation
        then .storing id outcome else .idle }
  else none

def storeStep (w : SlotWorld) : Option SlotWorld :=
  match w.raft with
  | .idle => none
  | .storing id outcome =>
    some ({ w with
      raft := .idle
      delivered := Function.update w.delivered id (some outcome) }.setState id.index
        outcome.encode)

def step (w : SlotWorld) : SlotAct → Option SlotWorld
  | .client c move => w.clientStep c move (w.clients c)
  | .notify id outcome => w.notifyStep id outcome
  | .store => w.storeStep

end SlotWorld

end ArbitroRaft
