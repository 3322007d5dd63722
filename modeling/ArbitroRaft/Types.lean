import Mathlib.Algebra.Group.Nat.Defs
import Mathlib.Data.List.Basic

/-!
# Identifiers, durable state and errors

The `u64` newtypes of the source (`Term`, `LogIndex`, `PeerId`) are natural
numbers here.  Every arithmetic step the source performs on terms and indices
saturates at `u64::MAX`, and `satAdd` says so explicitly; `saturating_sub` is
subtraction on `Nat`.
-/

namespace ArbitroRaft

abbrev PeerId := Nat

/-- `u64::MAX`. -/
def u64Max : Nat := 2 ^ 64 - 1

/-- `u64::saturating_add`.  The `max` only matters off the range of `u64`,
where it keeps the operation inflationary. -/
def satAdd (a b : Nat) : Nat :=
  if a + b ≤ u64Max then a + b else max a u64Max

theorem le_satAdd (a b : Nat) : a ≤ satAdd a b := by
  unfold satAdd
  split <;> omega

theorem satAdd_le (a b : Nat) : satAdd a b ≤ a + b := by
  unfold satAdd
  split <;> omega

theorem satAdd_of_le {a b : Nat} (h : a + b ≤ u64Max) : satAdd a b = a + b := by
  simp only [satAdd, if_pos h]

/-- The saturating increment moves unless it starts at the numeric limit. -/
theorem lt_satAdd_one {a : Nat} (h : a < u64Max) : a < satAdd a 1 := by
  rw [satAdd_of_le (show a + 1 ≤ u64Max by omega)]
  omega

theorem satAdd_one_of_ge {a : Nat} (h : u64Max ≤ a) : satAdd a 1 = a := by
  unfold satAdd
  split <;> omega

/-- `EntryPayload`: the bytes of one log entry. -/
abbrev EntryPayload := List UInt8

structure LogEntry where
  term : Nat
  index : Nat
  payload : EntryPayload
deriving DecidableEq, Repr

/-- Durable state that must be persisted before any message is sent. -/
structure HardState where
  currentTerm : Nat
  votedFor : Option PeerId
deriving DecidableEq, Repr

/-- `HardState::default`. -/
def HardState.initial : HardState := { currentTerm := 0, votedFor := none }

inductive Role where
  | follower
  | candidate
  | leader
deriving DecidableEq, Repr

/-- Volatile state rebuilt in memory on every restart. -/
structure SoftState where
  leaderId : Option PeerId
  isLeader : Bool
  role : Role
  commitIndex : Nat
deriving DecidableEq, Repr

structure SnapshotMeta where
  lastIncludedIndex : Nat
  lastIncludedTerm : Nat
deriving DecidableEq, Repr

/-! ## Errors -/

/-- The `std::io::ErrorKind`s the classification looks at. -/
inductive IoErrorKind where
  | storageFull
  | quotaExceeded
  | outOfMemory
  | other
deriving DecidableEq, Repr

inductive RaftError where
  | notLeader (leaderHint : Option PeerId)
  | noQuorum
  | transferTimeout (target : PeerId)
  | termChanged (current : Nat)
  | overloaded
  | peerUnknown (peer : PeerId)
  | invalidConfig (msg : String)
  | invalidPayload (msg : String)
  | protocol (msg : String)
  | dispatch (msg : String)
  | storage (msg : String)
  | transport (msg : String)
  | corruptLog (msg : String)
  | snapshot (msg : String)
  | io (kind : IoErrorKind)
  /-- Not an error of the source: a panic, which unwinds through every call. -/
  | panicked
deriving DecidableEq, Repr

/-- Severity class of a `RaftError`. -/
inductive ErrorClass where
  | transient
  | notLeaderRedirect
  | badFrame
  | resource
  | fatal
deriving DecidableEq, Repr

def ioKindIsResourceExhaustion : IoErrorKind → Bool
  | .storageFull | .quotaExceeded | .outOfMemory => true
  | .other => false

/-- `RaftError::class`. -/
def RaftError.errorClass : RaftError → ErrorClass
  | .io kind => if ioKindIsResourceExhaustion kind then .resource else .fatal
  | .storage _ | .corruptLog _ | .panicked => .fatal
  | .notLeader _ => .notLeaderRedirect
  | .protocol _ | .dispatch _ | .snapshot _ | .invalidPayload _
  | .invalidConfig _ | .peerUnknown _ => .badFrame
  | .noQuorum | .termChanged _ | .transport _ | .overloaded
  | .transferTimeout _ => .transient

/-- Only a fatal error ends the run loop. -/
def RaftError.isFatal (e : RaftError) : Bool :=
  e.errorClass == .fatal

def RaftError.isResourceExhaustion (e : RaftError) : Bool :=
  e.errorClass == .resource

end ArbitroRaft
