import ArbitroRaft.Library.Reach
import ArbitroRaft.Machine.Run
import ArbitroRaft.Wire.Encode
import ArbitroRaft.Wire.Decode
import Mathlib.Data.List.AList
import Mathlib.Tactic

/-!
# The abuse guard

`arbitro_raft/abuse.rs` and `dispatch_inbound` of `arbitro_raft/run.rs`.  Frames that do
not decode are counted by the sender they claim, and a sender with too many of them in a
window is jailed for a while: its frames are shed unread.  Voters have a bucket each.
Everybody else, learners included, shares the bucket of unknown senders, whose key is the
largest id.

A bucket is a machine of its own (`Bucket.receive`), driven by the frames that are
attributed to it.  The frames of a voter are attributed to the voter and no others are, so
what becomes of them does not depend on the others; for everybody else it does.

Times are nanoseconds.  `limits` are the fields of the configuration that the guard reads.

## Main results

* `guard_isolates`: this, over every sequence of frames.
-/

namespace ArbitroRaft

structure InboundLimits where
  inboundDecodeErrorJailThreshold : Nat
  inboundDecodeErrorWindowMs : Nat
  inboundJailCooldownMs : Nat
deriving DecidableEq, Repr

def unknownSenderKey : UInt64 := 0xFFFFFFFFFFFFFFFF

structure PeerAbuseState where
  windowStart : Nat
  errorsInWindow : Nat
  jailedUntil : Option Nat
deriving DecidableEq, Repr

/-! ## One bucket -/

/-- What the table holds under one key. -/
abbrev Bucket := Option PeerAbuseState

namespace Bucket

/-- `is_jailed`.  A bucket whose jail is over is removed. -/
def isJailed (b : Bucket) (now : Nat) : Bool × Bucket :=
  match b with
  | none => (false, b)
  | some state =>
    match state.jailedUntil with
    | none => (false, b)
    | some deadline => if now < deadline then (true, b) else (false, none)

/-- `record_decode_error`.  The result says that the sender is jailed. -/
def recordDecodeError (b : Bucket) (now : Nat) (limits : InboundLimits) : Bool × Bucket :=
  let threshold := limits.inboundDecodeErrorJailThreshold
  if threshold = 0 then (false, b)
  else
    let window := limits.inboundDecodeErrorWindowMs * 10 ^ 6
    let state := b.getD { windowStart := now, errorsInWindow := 0, jailedUntil := none }
    let state :=
      if window < now - state.windowStart then
        { state with windowStart := now, errorsInWindow := 0 }
      else state
    let state := { state with errorsInWindow := min (state.errorsInWindow + 1) (2 ^ 32 - 1) }
    if threshold ≤ state.errorsInWindow then
      (true, some
        { state with jailedUntil := some (now + limits.inboundJailCooldownMs * 10 ^ 6) })
    else (false, some state)

end Bucket

/-! ## The table -/

abbrev InboundAbuseGuard := AList fun _ : UInt64 => PeerAbuseState

namespace InboundAbuseGuard

def keyFor (claimedFrom : Option UInt64) (members : List PeerId) : UInt64 :=
  match claimedFrom with
  | some id => if id.toNat ∈ members then id else unknownSenderKey
  | none => unknownSenderKey

/-- The table with another bucket under a key. -/
def put (g : InboundAbuseGuard) (key : UInt64) (b : Bucket) : InboundAbuseGuard :=
  match b with
  | some state => g.insert key state
  | none => g.erase key

def isJailed (g : InboundAbuseGuard) (key : UInt64) (now : Nat) : Bool × InboundAbuseGuard :=
  let (jailed, b) := Bucket.isJailed (g.lookup key) now
  (jailed, g.put key b)

def recordDecodeError (g : InboundAbuseGuard) (key : UInt64) (now : Nat)
    (limits : InboundLimits) : Bool × InboundAbuseGuard :=
  let (jailed, b) := Bucket.recordDecodeError (g.lookup key) now limits
  (jailed, g.put key b)

end InboundAbuseGuard

/-! ## Inbound frames -/

/-- The sender a frame claims, if it is long enough to claim one. -/
def claimedFrom (frame : List UInt8) : Option UInt64 :=
  match Wire.parsePrefix Wire.RaftFrameHeader.layout frame "raft frame header" with
  | .ok (header, _) => some header.sender
  | .error _ => none

/-- What became of a frame. -/
inductive InboundVerdict where
  | shed
  | undecodable (jailed : Bool)
  | handled (result : Except RaftError Unit)
deriving DecidableEq

def InboundVerdict.isShed : InboundVerdict → Bool
  | .shed => true
  | .undecodable _ | .handled _ => false

/-- The node with its guard. -/
structure Guarded (N : Type) where
  node : N
  abuse : InboundAbuseGuard

/-- What the guard knows of the node: its voters and what it does with a message. -/
structure GuardedKind (N : Type) where
  peers : N → List PeerId
  handleInbound : N → Wire.InboundRaftMessage → Except RaftError Unit × N
  limits : InboundLimits

namespace Guarded

variable {N : Type} (kind : GuardedKind N)

/-- `dispatch_inbound` at `now`.  Only a fatal error of the handler is returned. -/
def dispatchInbound (h : Guarded N) (now : Nat) (frame : List UInt8) : InboundVerdict × Guarded N :=
  let abuseKey := InboundAbuseGuard.keyFor (claimedFrom frame) (kind.peers h.node)
  match h.abuse.isJailed abuseKey now with
  | (true, abuse) => (.shed, { h with abuse := abuse })
  | (false, abuse) =>
    match Wire.decodeMessage frame with
    | .error _ =>
      let (jailed, abuse) := abuse.recordDecodeError abuseKey now kind.limits
      (.undecodable jailed, { h with abuse := abuse })
    | .ok inbound =>
      match kind.handleInbound h.node inbound with
      | (.error e, node) =>
        (.handled (if e.isFatal then .error e else .ok ()), { node := node, abuse := abuse })
      | (.ok (), node) => (.handled (.ok ()), { node := node, abuse := abuse })

end Guarded

/-- What happens in the run loop: a frame arrives, or the node changes otherwise. -/
inductive LoopEvent (N : Type) where
  | frame (now : Nat) (bytes : List UInt8)
  | other (change : N → N)

namespace Guarded

variable {N : Type} (kind : GuardedKind N)

def step (h : Guarded N) : LoopEvent N → Guarded N
  | .frame now bytes => (h.dispatchInbound kind now bytes).2
  | .other change => { h with node := change h.node }

/-- For every frame that claims `m`, whether it is shed. -/
def sheds (m : UInt64) : Guarded N → List (LoopEvent N) → List Bool
  | _, [] => []
  | h, .frame now bytes :: rest =>
    if claimedFrom bytes = some m then
      (h.dispatchInbound kind now bytes).1.isShed :: sheds m (h.step kind (.frame now bytes)) rest
    else sheds m (h.step kind (.frame now bytes)) rest
  | h, .other change :: rest => sheds m (h.step kind (.other change)) rest

end Guarded

/-! ## The guard as a table of buckets -/

/-- A bucket on a frame that is attributed to it: whether the frame is shed, and what becomes
of the bucket. -/
def Bucket.receive (limits : InboundLimits) (b : Bucket) (now : Nat) (frame : List UInt8) :
    Bool × Bucket :=
  let (jailed, b) := b.isJailed now
  if jailed then (true, b)
  else
    match Wire.decodeMessage frame with
    | .error _ => (false, (b.recordDecodeError now limits).2)
    | .ok _ => (false, b)

namespace InboundAbuseGuard

@[simp] theorem lookup_put (g : InboundAbuseGuard) (key : UInt64) (b : Bucket) :
    (g.put key b).lookup key = b := by
  cases b with
  | none => exact AList.lookup_erase key g
  | some state => exact AList.lookup_insert g

theorem lookup_put_ne (g : InboundAbuseGuard) {key other : UInt64} (b : Bucket)
    (h : other ≠ key) : (g.put key b).lookup other = g.lookup other := by
  cases b with
  | none => exact AList.lookup_erase_ne h
  | some state => exact AList.lookup_insert_ne h

/-- The key of a frame is its sender if that is a voter, and else that of unknown senders. -/
theorem keyFor_cases (claimed : Option UInt64) (members : List PeerId) :
    keyFor claimed members = unknownSenderKey ∨
      claimed = some (keyFor claimed members) ∧ (keyFor claimed members).toNat ∈ members := by
  cases claimed with
  | none => exact .inl rfl
  | some id =>
    unfold keyFor
    dsimp only
    by_cases hmem : id.toNat ∈ members
    · rw [if_pos hmem]
      exact .inr ⟨rfl, hmem⟩
    · rw [if_neg hmem]
      exact .inl rfl

end InboundAbuseGuard

namespace Guarded

open InboundAbuseGuard

variable {N : Type} {kind : GuardedKind N}

/-- The key that `dispatch_inbound` attributes a frame to. -/
def key (kind : GuardedKind N) (h : Guarded N) (frame : List UInt8) : UInt64 :=
  keyFor (claimedFrom frame) (kind.peers h.node)

/-- A frame drives the bucket it is attributed to. -/
theorem dispatchInbound_own (kind : GuardedKind N) (h : Guarded N) (now : Nat) (frame : List UInt8) :
    ((h.dispatchInbound kind now frame).1.isShed,
      (h.dispatchInbound kind now frame).2.abuse.lookup (h.key kind frame)) =
      Bucket.receive kind.limits (h.abuse.lookup (h.key kind frame)) now frame := by
  unfold dispatchInbound Bucket.receive key isJailed recordDecodeError
  dsimp only
  rcases hjailed : Bucket.isJailed
    (h.abuse.lookup (keyFor (claimedFrom frame) (kind.peers h.node))) now with ⟨_ | _, b⟩
  · cases hdecode : Wire.decodeMessage frame with
    | error e => simp [InboundVerdict.isShed]
    | ok inbound =>
      rcases hhandle : kind.handleInbound h.node inbound with ⟨e | u, node⟩
      · simp [InboundVerdict.isShed, hhandle]
      · simp [InboundVerdict.isShed, hhandle]
  · simp [InboundVerdict.isShed]

/-- The other buckets stay. -/
theorem dispatchInbound_other (kind : GuardedKind N) (h : Guarded N) (now : Nat) (frame : List UInt8) {other : UInt64}
    (hne : other ≠ h.key kind frame) :
    (h.dispatchInbound kind now frame).2.abuse.lookup other = h.abuse.lookup other := by
  unfold key at hne
  unfold dispatchInbound isJailed recordDecodeError
  dsimp only
  rcases hjailed : Bucket.isJailed
    (h.abuse.lookup (keyFor (claimedFrom frame) (kind.peers h.node))) now with ⟨_ | _, b⟩
  · cases hdecode : Wire.decodeMessage frame with
    | error e => simp [lookup_put_ne _ _ hne]
    | ok inbound =>
      rcases hhandle : kind.handleInbound h.node inbound with ⟨e | u, node⟩
      · simp [lookup_put_ne _ _ hne, hhandle]
      · simp [lookup_put_ne _ _ hne, hhandle]
  · simp [lookup_put_ne _ _ hne]

/-! ## The frames of one sender -/

/-- The frames that claim `m`, with the times they arrive at. -/
def framesOf (m : UInt64) : List (LoopEvent N) → List (Nat × List UInt8)
  | [] => []
  | .frame now bytes :: rest =>
    if claimedFrom bytes = some m then (now, bytes) :: framesOf m rest else framesOf m rest
  | .other _ :: rest => framesOf m rest

/-- A bucket on the frames that are attributed to it. -/
def bucketSheds (limits : InboundLimits) : Bucket → List (Nat × List UInt8) → List Bool
  | _, [] => []
  | b, (now, bytes) :: rest =>
    (b.receive limits now bytes).1 :: bucketSheds limits (b.receive limits now bytes).2 rest

/-- Whenever a frame claims `m`, `m` is a voter. -/
def Attributed (kind : GuardedKind N) (m : UInt64) : Guarded N → List (LoopEvent N) → Prop
  | _, [] => True
  | h, .frame now bytes :: rest =>
    (claimedFrom bytes = some m → m.toNat ∈ kind.peers h.node) ∧
      Attributed kind m (h.step kind (.frame now bytes)) rest
  | h, .other change :: rest => Attributed kind m (h.step kind (.other change)) rest

/-- The frames of a voter drive the bucket of the voter, and no other frames do. -/
theorem sheds_eq_bucketSheds {m : UInt64} (hm : m ≠ unknownSenderKey) {h : Guarded N}
    {events : List (LoopEvent N)} (hattributed : Attributed kind m h events) :
    h.sheds kind m events = bucketSheds kind.limits (h.abuse.lookup m) (framesOf m events) := by
  induction events generalizing h with
  | nil => rfl
  | cons event rest ih =>
    cases event with
    | other change => exact ih hattributed
    | frame now bytes =>
      obtain ⟨hvoter, hrest⟩ := hattributed
      unfold sheds framesOf
      by_cases hclaims : claimedFrom bytes = some m
      · have hkey : h.key kind bytes = m := by
          unfold key keyFor
          rw [hclaims]
          exact if_pos (hvoter hclaims)
        have hown := dispatchInbound_own kind h now bytes
        rw [hkey] at hown
        rw [if_pos hclaims, if_pos hclaims, ih hrest, bucketSheds, ← hown]
        rfl
      · have hkey : m ≠ h.key kind bytes := by
          intro heq
          rcases keyFor_cases (claimedFrom bytes) (kind.peers h.node) with hunknown | hmember
          · exact hm (heq.trans hunknown)
          · exact hclaims (hmember.1.trans (congrArg some heq.symm))
        rw [if_neg hclaims, if_neg hclaims, ih hrest]
        show bucketSheds kind.limits ((h.dispatchInbound kind now bytes).2.abuse.lookup m) _ = _
        rw [dispatchInbound_other kind h now bytes hkey]

/-! ## The size of the table -/

/-- Every key of the table is a voter, or that of unknown senders. -/
def Tabled (kind : GuardedKind N) (h : Guarded N) : Prop :=
  ∀ key ∈ h.abuse, key = unknownSenderKey ∨ key.toNat ∈ kind.peers h.node

/-- No voter with an entry in the table stops being one. -/
def Retains (kind : GuardedKind N) (h : Guarded N) (event : LoopEvent N) : Prop :=
  ∀ key ∈ (h.step kind event).abuse, key.toNat ∈ kind.peers h.node →
    key.toNat ∈ kind.peers (h.step kind event).node

theorem mem_iff_lookup {g : InboundAbuseGuard} {key : UInt64} :
    key ∈ g ↔ (g.lookup key).isSome := AList.lookup_isSome.symm

theorem Tabled.step {h : Guarded N} (htabled : h.Tabled kind) {event : LoopEvent N}
    (hretains : h.Retains kind event) : (h.step kind event).Tabled kind := by
  intro key hkey
  have hbefore : key = unknownSenderKey ∨ key.toNat ∈ kind.peers h.node := by
    cases event with
    | other change => exact htabled key hkey
    | frame now bytes =>
      by_cases hown : key = h.key kind bytes
      · rcases keyFor_cases (claimedFrom bytes) (kind.peers h.node) with hunknown | hmember
        · exact .inl (hown.trans hunknown)
        · right
          rw [hown]
          exact hmember.2
      · apply htabled
        rw [mem_iff_lookup] at hkey ⊢
        rw [← dispatchInbound_other kind h now bytes hown]
        exact hkey
  rcases hbefore with hunknown | hvoter
  · exact .inl hunknown
  · exact .inr (hretains key hkey hvoter)

/-- A table of voters holds one entry for each of them and one more. -/
theorem Tabled.length_le {h : Guarded N} (htabled : h.Tabled kind) :
    h.abuse.keys.length ≤ (kind.peers h.node).toFinset.card + 1 := by
  have hsub : (h.abuse.keys.map UInt64.toNat).toFinset ⊆
      insert unknownSenderKey.toNat (kind.peers h.node).toFinset := by
    intro id hid
    obtain ⟨key, hkey, rfl⟩ := List.mem_map.mp (List.mem_toFinset.mp hid)
    rcases htabled key hkey with rfl | hvoter
    · exact Finset.mem_insert_self _ _
    · exact Finset.mem_insert_of_mem (List.mem_toFinset.mpr hvoter)
  have hnodup : (h.abuse.keys.map UInt64.toNat).Nodup :=
    h.abuse.keys_nodup.map fun a b => UInt64.toNat_inj.mp
  calc h.abuse.keys.length
      = (h.abuse.keys.map UInt64.toNat).length := (List.length_map _).symm
    _ = (h.abuse.keys.map UInt64.toNat).toFinset.card :=
        (List.toFinset_card_of_nodup hnodup).symm
    _ ≤ (insert unknownSenderKey.toNat (kind.peers h.node).toFinset).card :=
        Finset.card_le_card hsub
    _ ≤ (kind.peers h.node).toFinset.card + 1 := Finset.card_insert_le _ _

/-! ## Isolation -/

/-- What becomes of the frames of a voter depends on these frames alone, whatever the others
send, as long as it is a voter when they arrive and is not the largest id.  While no voter
with an entry is removed, the table has at most one entry for every voter and one more. -/
theorem guard_isolates {N : Type} (kind : GuardedKind N) (h : Guarded N) :
    (∀ (m : UInt64) (events others : List (LoopEvent N)), m ≠ unknownSenderKey →
      framesOf m events = framesOf m others → Attributed kind m h events →
      Attributed kind m h others → h.sheds kind m events = h.sheds kind m others) ∧
    ∀ g : Guarded N, h.Tabled kind →
      Library.Reaches (fun s e => some (s.step kind e)) (fun s e => s.Retains kind e) h g →
      g.abuse.keys.length ≤ (kind.peers g.node).toFinset.card + 1 := by
  constructor
  · intro m events others hm hframes hevents hothers
    rw [sheds_eq_bucketSheds hm hevents, sheds_eq_bucketSheds hm hothers, hframes]
  · intro g htabled hreaches
    apply Tabled.length_le
    apply hreaches.invariant htabled
    intro u v event hu hretains hstep
    cases hstep
    exact hu.step hretains

/-- A node behind its guard, with the limits of the default configuration.  No frame of the
runs below decodes, so no message reaches it. -/
def defaultKind : GuardedKind RaftNode :=
  { peers := fun n => n.config.peers
    handleInbound := fun n _ => (.ok (), n)
    limits :=
      { inboundDecodeErrorJailThreshold := 32
        inboundDecodeErrorWindowMs := 10000
        inboundJailCooldownMs := 3000 } }

/-- Node 1 of the voters 1, 2 and 3, with learner 4. -/
def guardedTrio : Guarded RaftNode :=
  { node := (trioNode 1 (.empty false)).setLearners [4], abuse := ∅ }

/-- A frame that claims a sender and does not decode. -/
def garbageOf (sender : UInt64) : List UInt8 :=
  Wire.RaftFrameHeader.layout.toBytes
    { magic := 0, version := 0, kind := 0, flags := 0, sender := sender, bodyLen := 0,
      reserved := 0, groupId := 0 }

/-- A frame of voter 2, behind one of voter 3 and alone. -/
theorem guard_isolates_voter :
    guardedTrio.sheds defaultKind 2 [.frame 0 (garbageOf 3), .frame 1 (garbageOf 2)] =
      guardedTrio.sheds defaultKind 2 [.frame 1 (garbageOf 2)] :=
  (guard_isolates defaultKind guardedTrio).1 2 _ _ (by decide) (by decide)
    ⟨fun _ => by decide, fun _ => by decide, trivial⟩ ⟨fun _ => by decide, trivial⟩

/-- The voters and an unknown sender send one bad frame each, and voters 2 and 3 are
removed. -/
def removedVoters : Guarded RaftNode :=
  [.frame 0 (garbageOf 1), .frame 0 (garbageOf 2), .frame 0 (garbageOf 3), .frame 0 [],
    .other (applyConfigChange ⟨.final, [1, 2, 3], [1]⟩).after].foldl
    (fun h event => h.step defaultKind event) guardedTrio

/-- The learner's frame is shed because others sent frames too short to claim a sender, and
is not if these claim voter 2 instead.  With one voter and one learner left, the table has
four entries. -/
theorem guard_punishes_others :
    guardedTrio.sheds defaultKind 4
        (List.replicate 32 (.frame 0 []) ++ [.frame 1 (garbageOf 4)]) = [true] ∧
      guardedTrio.sheds defaultKind 4
        (List.replicate 32 (.frame 0 (garbageOf 2)) ++ [.frame 1 (garbageOf 4)]) = [false] ∧
      removedVoters.node.config.peers = [1] ∧ removedVoters.node.config.learners = [4] ∧
      removedVoters.abuse.keys.length = 4 := by
  decide +kernel

end Guarded

end ArbitroRaft
