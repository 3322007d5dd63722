import ArbitroRaft.Types

/-!
# Protocol messages

The decoded form of the wire messages.  The decoder accepts an
`AppendEntries` body only when it holds exactly `entry_count` entries, so a
message carries its entries and the count is their number.  The reserved word
that doubles as the ReadIndex probe token is the field `probe`.
-/

namespace ArbitroRaft

structure RequestVote where
  term : Nat
  candidateId : PeerId
  lastLogIndex : Nat
  lastLogTerm : Nat
deriving DecidableEq, Repr

structure RequestVoteResp where
  term : Nat
  voteGranted : Bool
deriving DecidableEq, Repr

structure AppendEntries where
  term : Nat
  leaderId : PeerId
  prevLogIndex : Nat
  prevLogTerm : Nat
  leaderCommit : Nat
  probe : Nat
deriving DecidableEq, Repr

structure AppendEntriesResp where
  term : Nat
  matchIndex : Nat
  success : Bool
  probe : Nat
deriving DecidableEq, Repr

structure InstallSnapshot where
  term : Nat
  leaderId : PeerId
  lastIncludedIndex : Nat
  lastIncludedTerm : Nat
  offset : Nat
  chunkLen : Nat
  done : Bool
deriving DecidableEq, Repr

structure InstallSnapshotResp where
  term : Nat
  nextOffset : Nat
  accepted : Bool
deriving DecidableEq, Repr

structure TimeoutNow where
  term : Nat
  leaderId : PeerId
deriving DecidableEq, Repr

/-- `RaftMessage`.  The vectored variants are the outbound spelling of the
same frames and decode to `appendEntries` and `appendEntriesSeeded`. -/
inductive RaftMessage where
  | requestVote (msg : RequestVote)
  | requestVoteResp (msg : RequestVoteResp)
  | preVote (msg : RequestVote)
  | preVoteResp (msg : RequestVoteResp)
  | appendEntries (msg : AppendEntries) (entries : List LogEntry)
  | appendEntriesSeeded (msg : AppendEntries) (entries : List LogEntry)
  | appendEntriesResp (msg : AppendEntriesResp)
  | installSnapshot (msg : InstallSnapshot) (chunk : List UInt8)
  | installSnapshotResp (msg : InstallSnapshotResp)
  | timeoutNow (msg : TimeoutNow)
  | custom (payload : List UInt8)
  | customResponse (payload : List UInt8)
deriving DecidableEq, Repr

/-- Protocol term carried by a message; custom frames carry none. -/
def messageTerm : RaftMessage → Option Nat
  | .requestVote m | .preVote m => some m.term
  | .requestVoteResp m | .preVoteResp m => some m.term
  | .appendEntries m _ | .appendEntriesSeeded m _ => some m.term
  | .appendEntriesResp m => some m.term
  | .installSnapshot m _ => some m.term
  | .installSnapshotResp m => some m.term
  | .timeoutNow m => some m.term
  | .custom _ | .customResponse _ => none

/-- The term a receiver steps down to if it is newer; a pre-vote request asks for
nothing of the kind. -/
def RaftMessage.observedTerm (msg : RaftMessage) : Option Nat :=
  match msg with
  | .preVote _ => none
  | _ => messageTerm msg

theorem messageTerm_of_observedTerm {msg : RaftMessage} {t : Nat} (h : msg.observedTerm = some t) :
    messageTerm msg = some t := by
  unfold RaftMessage.observedTerm at h
  split at h
  · cases h
  · exact h

/-- A frame as the transport hands it to the node. -/
structure InboundRaftMessage where
  sender : PeerId
  message : RaftMessage
deriving DecidableEq, Repr

end ArbitroRaft
