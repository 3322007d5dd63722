import ArbitroRaft.Types
import ArbitroRaft.Library.Contiguous

/-!
# Durable storage

`Storage` is the durable half of a node: the hard state, the log entries in the
order they were written and the newest saved snapshot.  The operations follow
the contract of the `RaftStorage` trait (`truncate_suffix` inclusive,
`truncate_before` exclusive, `last_log_position` the highest stored entry) and
the list-backed storages of the repository, which push on append and search
from the back.

A log is a list held in memory or mirrored there, so it never grows past
`maxEntries`; an append that would exceed it is refused like any append for
which there is no room.  A save of the hard state and an append may fail, as `Env`
says; reads, truncations and saves of snapshots are taken to succeed.
-/

namespace ArbitroRaft

open Library

structure Storage where
  hardState : HardState
  entries : List LogEntry
  snapshot : Option (SnapshotMeta × List UInt8)
  /-- Whether the optional seeded (zero-copy) operations are implemented. -/
  seeded : Bool
deriving DecidableEq, Repr

/-- `isize::MAX`, the largest number of elements of a `Vec`. -/
def maxEntries : Nat := 2 ^ 63 - 1

namespace Storage

/-- A storage nothing was ever written to. -/
def empty (seeded : Bool) : Storage :=
  { hardState := HardState.initial, entries := [], snapshot := none, seeded := seeded }

/-- The stored entry with the highest index; of equal ones the newest. -/
def highest : List LogEntry → Nat × Nat
  | [] => (0, 0)
  | e :: es => if (highest es).1 < e.index then (e.index, e.term) else highest es

def lastLogPosition (s : Storage) : Nat × Nat :=
  highest s.entries

def entryAt (s : Storage) (index : Nat) : Option LogEntry :=
  s.entries.reverse.find? (fun e => decide (e.index = index))

def termAt (s : Storage) (index : Nat) : Option Nat :=
  (s.entryAt index).map LogEntry.term

/-- `read_entries`: the entries in `[start, stop)`. -/
def readEntries (s : Storage) (start stop : Nat) : List LogEntry :=
  s.entries.filter (fun e => decide (start ≤ e.index ∧ e.index < stop))

def truncateSuffix (s : Storage) (start : Nat) : Storage :=
  { s with entries := s.entries.filter (fun e => decide (e.index < start)) }

def truncateBefore (s : Storage) (upTo : Nat) : Storage :=
  { s with entries := s.entries.filter (fun e => decide (upTo ≤ e.index)) }

def appendEntries (s : Storage) (entries : List LogEntry) : Storage :=
  { s with entries := s.entries ++ entries }

def saveHardState (s : Storage) (h : HardState) : Storage :=
  { s with hardState := h }

def saveSnapshot (s : Storage) (m : SnapshotMeta) (bytes : List UInt8) : Storage :=
  { s with snapshot := some (m, bytes) }

def loadSnapshotMeta (s : Storage) : Option SnapshotMeta :=
  s.snapshot.map Prod.fst

end Storage

end ArbitroRaft
