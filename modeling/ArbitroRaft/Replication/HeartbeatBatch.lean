import ArbitroRaft.Library.Buckets
import ArbitroRaft.Membership.Changes
import ArbitroRaft.Wire.FrameSize

/-!
# Batched heartbeats

`replication/heartbeat_batch.rs`.  A host of several groups gathers the heartbeats of all
the groups it leads by their receivers, and hands the transport one list of slices for each
receiver: a header and a body for every frame.  The buffers for this are kept from call to
call.

A receiver gets what it would get from the groups one by one, each heartbeat encoded as a
message of its own.  A member that a group lists twice is sent to twice.

## Main results

* `batched_heartbeats_single_iff`: when each member gets one.
-/

namespace ArbitroRaft

open Library

/-! ## Wires -/

/-- What the two reads of a storage that go into one wire fail with. -/
structure WireReads where
  term : Option RaftError
  backlog : Option RaftError
deriving DecidableEq, Repr

def WireReads.succeed : WireReads := { term := none, backlog := none }

/-- `term_at` asks the storage: the index is neither cached nor the boundary. -/
def RaftNode.probesStorage (n : RaftNode) (index : Nat) : Bool :=
  index != 0 && index != n.cachedLastLog.1 && (n.logMetadata.getTerm index).isNone &&
    index != n.snapshotBoundary.1

/-- A read that may fail. -/
def readOr (failure : Option RaftError) : RaftM Unit :=
  match failure with
  | some e => throw e
  | none => return ()

/-- `append_prev_for_peer` over a storage whose reads may fail. -/
def appendPrevOver (reads : WireReads) (peer : PeerId) : RaftM (Nat × Nat × Nat) := do
  let n ← get
  if (n.peerProgress.get peer).any fun p => n.probesStorage (p.nextIndex - 1) then
    readOr reads.term
  appendPrevForPeer peer

/-- `build_heartbeat_wire` over a storage whose reads may fail.  The backlog is read for its
error only. -/
def heartbeatWire (reads : WireReads) (peer : PeerId) : RaftM (Option AppendEntries) := do
  let n ← get
  if n.isLeader then do
    modify RaftNode.ensureLeaderProgressInitialized
    let (prevIndex, prevTerm, _) ← appendPrevOver reads peer
    readOr reads.backlog
    let n ← get
    return some (n.appendHeader prevIndex prevTerm)
  else return none

theorem heartbeatWire_of_not_leads {n : RaftNode} (h : n.isLeader = false) (reads : WireReads)
    (peer : PeerId) : heartbeatWire reads peer n = .ok none n := by
  show (if n.isLeader then _ else _ : RaftM _) n = _
  rw [h]
  rfl

theorem heartbeatWire_none {n n' : RaftNode} {reads : WireReads} {peer : PeerId}
    (h : heartbeatWire reads peer n = .ok none n') : n.isLeader = false := by
  cases hlead : n.isLeader with
  | false => rfl
  | true =>
    have hbody : (if n.isLeader then _ else _ : RaftM (Option AppendEntries)) n =
      .ok none n' := h
    rw [hlead] at hbody
    obtain ⟨_, _, _, hprev⟩ := ok_of_bind hbody
    obtain ⟨_, _, _, hread⟩ := ok_of_bind hprev
    obtain ⟨_, _, _, hlast⟩ := ok_of_bind hread
    cases hlast

/-! ## The batch -/

structure FrameOut where
  groupId : UInt64
  sender : UInt64
  ae : Wire.AppendEntries
deriving DecidableEq

/-- Frames by their receivers. -/
abbrev PerPeer := AList fun _ : PeerId => List FrameOut

structure BatchScratch where
  perPeer : PerPeer
  headerBufs : List (List UInt8)
  aeBodies : List Wire.AppendEntries

/-- A group on this host.  `reads i` is what the reads for its `i`-th wire meet. -/
structure HostedGroup where
  groupId : UInt64
  node : RaftNode
  reads : Nat → WireReads

namespace HostedGroup

def frameOut (g : HostedGroup) (ae : AppendEntries) : FrameOut :=
  { groupId := g.groupId, sender := UInt64.ofNat g.node.config.nodeId, ae := ae.toWire 0 }

/-- The loop over the scratch peers of a group, which no wire changes: the frames by
receiver, and the node with what the wires cached. -/
def bucketPeers (g : HostedGroup) :
    List PeerId → Nat → RaftNode → PerPeer → PerPeer × RaftNode
  | [], _, n, perPeer => (perPeer, n)
  | peer :: rest, i, n, perPeer =>
    match (heartbeatWire (g.reads i) peer).run n with
    | .ok (some ae) n =>
      g.bucketPeers rest (i + 1) n (pushBucket perPeer peer (g.frameOut ae))
    -- The node stepped down: no more frames for the group.
    | .ok none n => (perPeer, n)
    | .error _ n => g.bucketPeers rest (i + 1) n perPeer

/-- One group of the first phase. -/
def bucketGroup (g : HostedGroup) (perPeer : PerPeer) : PerPeer × RaftNode :=
  if g.node.isLeader then
    g.bucketPeers g.node.replicationTargets 0
      (g.node.setScratchPeers g.node.replicationTargets) perPeer
  else (perPeer, g.node)

end HostedGroup

/-- The first phase: the frames of all groups by their receivers. -/
def bucketGroups : List HostedGroup → PerPeer → PerPeer × List RaftNode
  | [], perPeer => (perPeer, [])
  | g :: rest, perPeer =>
    let (perPeer, n) := g.bucketGroup perPeer
    let (perPeer, nodes) := bucketGroups rest perPeer
    (perPeer, n :: nodes)

/-- `write_frame_header` into a buffer that it fills. -/
def writeFrameHeader (sender groupId : UInt64) (kind : UInt8) (bodyLen : UInt32) : List UInt8 :=
  Wire.RaftFrameHeader.layout.toBytes
    { magic := Wire.raftMagic
      version := Wire.raftVersion
      kind := kind
      flags := 0
      sender := sender
      bodyLen := bodyLen
      reserved := 0
      groupId := groupId }

namespace BatchScratch

/-- Put the header and the body of a frame in the buffers. -/
def pushFrame (scratch : BatchScratch) (f : FrameOut) : BatchScratch :=
  let bodyLen := UInt32.ofNat Wire.AppendEntries.layout.size
  { scratch with
    headerBufs := scratch.headerBufs ++
      [writeFrameHeader f.sender f.groupId Wire.kindAppendEntries bodyLen]
    aeBodies := scratch.aeBodies ++ [f.ae] }

/-- Fill the buffers for one receiver. -/
def fill (scratch : BatchScratch) (frames : List FrameOut) : BatchScratch :=
  frames.foldl pushFrame { scratch with headerBufs := [], aeBodies := [] }

/-- The slices of the first `count` frames in the buffers. -/
def slices (scratch : BatchScratch) (count : Nat) : List (List UInt8) :=
  (List.range count).flatMap fun i =>
    [scratch.headerBufs.getD i [],
      (scratch.aeBodies.map Wire.AppendEntries.layout.toBytes).getD i []]

end BatchScratch

/-- A call of `send_vectored`. -/
structure VectoredSend where
  receiver : PeerId
  slices : List (List UInt8)
deriving DecidableEq

structure BatchOutcome where
  nodes : List RaftNode
  sends : List VectoredSend
  total : Nat
  scratch : BatchScratch

namespace BatchScratch

/-- The second phase, over the receivers as the map is iterated. -/
def sendBuckets (reachable : PeerId → Bool) :
    List (Sigma fun _ : PeerId => List FrameOut) → BatchScratch →
      List VectoredSend × Nat × BatchScratch
  | [], scratch => ([], 0, scratch)
  | ⟨peer, frames⟩ :: rest, scratch =>
    let scratch := scratch.fill frames
    let (sends, total, scratch') := sendBuckets reachable rest scratch
    ({ receiver := peer, slices := scratch.slices frames.length } :: sends,
      (if reachable peer then frames.length else 0) + total, scratch')

/-- `send_batched_heartbeats`.  `order` is how the map of the receivers is iterated. -/
def sendBatchedHeartbeats (scratch : BatchScratch) (groups : List HostedGroup)
    (reachable : PeerId → Bool)
    (order : PerPeer → List (Sigma fun _ : PeerId => List FrameOut)) : BatchOutcome :=
  let (perPeer, nodes) := bucketGroups groups ∅
  let (sends, total, scratch) :=
    sendBuckets reachable (order perPeer) { scratch with perPeer := perPeer }
  { nodes := nodes, sends := sends, total := total, scratch := scratch }

end BatchScratch

/-! ## Single heartbeats -/

namespace HostedGroup

/-- The wires of a group for `peers` in turn. -/
def wiresFrom (g : HostedGroup) : List PeerId → Nat → RaftNode → List (PeerId × AppendEntries)
  | [], _, _ => []
  | peer :: rest, i, n =>
    match (heartbeatWire (g.reads i) peer).run n with
    | .ok (some ae) n => (peer, ae) :: g.wiresFrom rest (i + 1) n
    | .ok none n | .error _ n => g.wiresFrom rest (i + 1) n

/-- The wires that `build_heartbeat_wire` builds for the members of a group other than the
node. -/
def wires (g : HostedGroup) : List (PeerId × AppendEntries) :=
  g.wiresFrom g.node.replicationTargets 0 (g.node.setScratchPeers g.node.replicationTargets)

/-- A wire as a message of its own. -/
def heartbeat (ae : AppendEntries) : Wire.RaftMessage := .appendEntriesVectored (ae.toWire 0) []

/-- The frame of a wire. -/
def singleFrame (g : HostedGroup) (ae : AppendEntries) : List UInt8 :=
  Wire.frameBytes (UInt64.ofNat g.node.config.nodeId) g.groupId (heartbeat ae)

/-- The frame of a wire is what the encoder makes of it. -/
theorem encode_heartbeat (g : HostedGroup) (ae : AppendEntries) {headerBuf : List UInt8}
    (hroom : 80 ≤ headerBuf.length) :
    ∃ v, Wire.encodeMessageVectoredWithGroup (UInt64.ofNat g.node.config.nodeId) g.groupId
        (heartbeat ae) headerBuf = .ok v ∧ v.frame = g.singleFrame ae := by
  apply Wire.encodeMessageVectoredWithGroup_eq
  · exact { consistent := rfl, fits := by show 48 + 0 < 2 ^ 32; omega }
  · exact hroom

theorem wiresFrom_of_not_leads {n : RaftNode} (h : n.isLeader = false) (g : HostedGroup)
    (peers : List PeerId) (i : Nat) : g.wiresFrom peers i n = [] := by
  induction peers generalizing i with
  | nil => rfl
  | cons peer rest ih =>
    unfold wiresFrom EStateM.run
    rw [heartbeatWire_of_not_leads h]
    exact ih (i + 1)

/-- A group that the node does not lead has no wires. -/
theorem wires_of_not_leads {g : HostedGroup} (h : g.node.isLeader = false) : g.wires = [] :=
  wiresFrom_of_not_leads (n := g.node.setScratchPeers g.node.replicationTargets) h g _ 0

theorem wiresFrom_sublist (g : HostedGroup) (peers : List PeerId) (i : Nat) (n : RaftNode) :
    ((g.wiresFrom peers i n).map Prod.fst).Sublist peers := by
  induction peers generalizing i n with
  | nil => exact .slnil
  | cons peer rest ih =>
    unfold wiresFrom
    split
    · exact (ih _ _).cons_cons peer
    · exact (ih _ _).cons peer
    · exact (ih _ _).cons peer

/-- The loop puts the wires in the buckets. -/
theorem bucketPeers_eq (g : HostedGroup) (peers : List PeerId) (i : Nat) (n : RaftNode)
    (perPeer : PerPeer) :
    (g.bucketPeers peers i n perPeer).1 =
      pushBuckets perPeer ((g.wiresFrom peers i n).map (Prod.map id g.frameOut)) := by
  induction peers generalizing i n perPeer with
  | nil => rfl
  | cons peer rest ih =>
    unfold bucketPeers wiresFrom
    cases hwire : (heartbeatWire (g.reads i) peer).run n with
    | error e n' => exact ih _ _ _
    | ok wire n' =>
      cases wire with
      | some ae => exact ih _ _ _
      | none =>
        -- The loop ends here; single heartbeats find no leader from here on.
        have hlead : n.isLeader = false := heartbeatWire_none hwire
        obtain rfl : n' = n := by
          rw [EStateM.run, heartbeatWire_of_not_leads hlead] at hwire
          injection hwire with _ heq
          exact heq.symm
        dsimp only
        rw [wiresFrom_of_not_leads hlead]
        rfl

theorem bucketGroup_eq (g : HostedGroup) (perPeer : PerPeer) :
    (g.bucketGroup perPeer).1 =
      pushBuckets perPeer (g.wires.map (Prod.map id g.frameOut)) := by
  unfold bucketGroup
  split
  · exact g.bucketPeers_eq _ _ _ _
  · rename_i hlead
    rw [wires_of_not_leads (Bool.eq_false_iff.mpr hlead)]
    rfl

end HostedGroup

/-- All frames, in the order of the groups. -/
def allFrames (groups : List HostedGroup) : List (PeerId × FrameOut) :=
  groups.flatMap fun g => g.wires.map (Prod.map id g.frameOut)

theorem bucketGroups_eq (groups : List HostedGroup) (perPeer : PerPeer) :
    (bucketGroups groups perPeer).1 = pushBuckets perPeer (allFrames groups) := by
  induction groups generalizing perPeer with
  | nil => rfl
  | cons g rest ih =>
    show (bucketGroups rest (g.bucketGroup perPeer).1).1 = _
    rw [ih, g.bucketGroup_eq]
    unfold pushBuckets allFrames
    rw [List.flatMap_cons, List.foldl_append]

/-! ## What is sent -/

namespace FrameOut

def header (f : FrameOut) : List UInt8 :=
  writeFrameHeader f.sender f.groupId Wire.kindAppendEntries
    (UInt32.ofNat Wire.AppendEntries.layout.size)

def body (f : FrameOut) : List UInt8 := Wire.AppendEntries.layout.toBytes f.ae

end FrameOut

/-- The header writer and the encoder agree. -/
theorem HostedGroup.header_append_body (g : HostedGroup) (ae : AppendEntries) :
    (g.frameOut ae).header ++ (g.frameOut ae).body = g.singleFrame ae := by
  unfold singleFrame Wire.frameBytes heartbeat
  show _ = _ ++ (_ ++ [])
  rw [List.append_nil]
  rfl

namespace BatchScratch

theorem foldl_pushFrame (frames : List FrameOut) (scratch : BatchScratch) :
    (frames.foldl pushFrame scratch).headerBufs =
        scratch.headerBufs ++ frames.map FrameOut.header ∧
      (frames.foldl pushFrame scratch).aeBodies =
        scratch.aeBodies ++ frames.map FrameOut.ae := by
  induction frames generalizing scratch with
  | nil => exact ⟨(List.append_nil _).symm, (List.append_nil _).symm⟩
  | cons f rest ih =>
    obtain ⟨hheaders, hbodies⟩ := ih (scratch.pushFrame f)
    constructor
    · show (rest.foldl pushFrame (scratch.pushFrame f)).headerBufs = _
      rw [hheaders]
      exact List.append_assoc _ _ _
    · show (rest.foldl pushFrame (scratch.pushFrame f)).aeBodies = _
      rw [hbodies]
      exact List.append_assoc _ _ _

/-- Two lists read in step. -/
theorem flatMap_range_getD {A B : Type} (l : List A) (h b : A → B) (d : B) :
    ((List.range l.length).flatMap fun i => [(l.map h).getD i d, (l.map b).getD i d]) =
      l.flatMap fun a => [h a, b a] := by
  induction l with
  | nil => rfl
  | cons a l ih =>
    rw [List.length_cons, List.range_succ_eq_map, List.flatMap_cons, List.flatMap_map,
      List.flatMap_cons, ← ih]
    rfl

/-- What the buffers held before does not show. -/
theorem slices_fill (scratch : BatchScratch) (frames : List FrameOut) :
    (scratch.fill frames).slices frames.length = frames.flatMap fun f => [f.header, f.body] := by
  obtain ⟨hheaders, hbodies⟩ :=
    foldl_pushFrame frames { scratch with headerBufs := [], aeBodies := [] }
  unfold slices fill
  rw [hheaders, hbodies, List.nil_append, List.nil_append, List.map_map]
  exact flatMap_range_getD frames FrameOut.header FrameOut.body []

/-- The frames for one receiver, in one call. -/
theorem sends_eq (reachable : PeerId → Bool)
    (l : List (Sigma fun _ : PeerId => List FrameOut)) (scratch : BatchScratch) :
    (sendBuckets reachable l scratch).1 =
      l.map fun e => ⟨e.1, e.2.flatMap fun f => [f.header, f.body]⟩ := by
  induction l generalizing scratch with
  | nil => rfl
  | cons e rest ih =>
    show VectoredSend.mk e.1 ((scratch.fill e.2).slices e.2.length) ::
      (sendBuckets reachable rest (scratch.fill e.2)).1 = _
    rw [ih, slices_fill]
    rfl

theorem total_eq {reachable : PeerId → Bool} {l : List (Sigma fun _ : PeerId => List FrameOut)}
    (h : ∀ e ∈ l, reachable e.1) (scratch : BatchScratch) :
    (sendBuckets reachable l scratch).2.1 = (l.map fun e => e.2.length).sum := by
  induction l generalizing scratch with
  | nil => rfl
  | cons e rest ih =>
    show (if reachable e.1 then e.2.length else 0) +
      (sendBuckets reachable rest (scratch.fill e.2)).2.1 = _
    rw [if_pos (h e List.mem_cons_self), ih fun e' he => h e' (List.mem_cons_of_mem _ he)]
    rfl

end BatchScratch

/-- The bytes that the calls for a receiver hand to the transport. -/
def BatchOutcome.bytesTo (out : BatchOutcome) (p : PeerId) : List UInt8 :=
  out.sends.flatMap fun s => if s.receiver = p then s.slices.flatten else []

/-- The frames of a bucket as bytes. -/
theorem flatten_slices (frames : List FrameOut) :
    (frames.flatMap fun f => [f.header, f.body]).flatten =
      frames.flatMap fun f => f.header ++ f.body := by
  induction frames with
  | nil => rfl
  | cons f rest ih =>
    rw [List.flatMap_cons, List.flatMap_cons, List.flatten_append, ih]
    simp

theorem frames_of_wires (g : HostedGroup) (p : PeerId) :
    (((g.wires.map (Prod.map id g.frameOut)).filter fun item => item.1 = p).map
        Prod.snd).flatMap (fun f => f.header ++ f.body) =
      (g.wires.filter fun w => w.1 = p).flatMap fun w => g.singleFrame w.2 := by
  induction g.wires with
  | nil => rfl
  | cons w rest ih =>
    rw [List.map_cons]
    by_cases h : w.1 = p
    · rw [List.filter_cons_of_pos (by simpa using h),
        List.filter_cons_of_pos (by simpa using h), List.map_cons, List.flatMap_cons,
        List.flatMap_cons, ih]
      exact congrArg (· ++ _) (g.header_append_body w.2)
    · rw [List.filter_cons_of_neg (by simpa using h),
        List.filter_cons_of_neg (by simpa using h), ih]

section Batch

variable {scratch : BatchScratch} {groups : List HostedGroup} {reachable : PeerId → Bool}
  {order : PerPeer → List (Sigma fun _ : PeerId => List FrameOut)}

/-- Every wire that was built goes out, in the order of the groups. -/
theorem bytesTo_eq (horder : ∀ m, (order m).Perm m.entries) (p : PeerId) :
    (scratch.sendBatchedHeartbeats groups reachable order).bytesTo p =
      groups.flatMap fun g =>
        (g.wires.filter fun w => w.1 = p).flatMap fun w => g.singleFrame w.2 := by
  let m := pushBuckets ∅ (allFrames groups)
  have hbucket : bucket m p =
      ((allFrames groups).filter fun item => item.1 = p).map Prod.snd := by
    rw [bucket_pushBuckets]
    rfl
  calc (scratch.sendBatchedHeartbeats groups reachable order).bytesTo p
      = (order m).flatMap fun e =>
          if e.1 = p then e.2.flatMap (fun f => f.header ++ f.body) else [] := by
        show (BatchScratch.sendBuckets reachable (order (bucketGroups groups ∅).1) _).1.flatMap
          _ = _
        rw [bucketGroups_eq, BatchScratch.sends_eq, List.flatMap_map]
        exact congrArg (List.flatMap · (order m)) (funext fun e => by rw [flatten_slices])
    _ = (bucket m p).flatMap fun f => f.header ++ f.body := by
        rw [flatMap_key (horder m) (fun frames => frames.flatMap fun f => f.header ++ f.body)]
        unfold bucket
        cases m.lookup p <;> rfl
    _ = groups.flatMap fun g =>
          (g.wires.filter fun w => w.1 = p).flatMap fun w => g.singleFrame w.2 := by
        rw [hbucket]
        unfold allFrames
        clear m hbucket
        induction groups with
        | nil => rfl
        | cons g rest ih =>
          rw [List.flatMap_cons, List.flatMap_cons, List.filter_append, List.map_append,
            List.flatMap_append, ih, frames_of_wires]

/-- Every wire that was built is counted where every call succeeds. -/
theorem total_eq_wires (horder : ∀ m, (order m).Perm m.entries)
    (hreach : ∀ s ∈ (scratch.sendBatchedHeartbeats groups reachable order).sends,
      reachable s.receiver) :
    (scratch.sendBatchedHeartbeats groups reachable order).total =
      (groups.map fun g => g.wires.length).sum := by
  let m := pushBuckets ∅ (allFrames groups)
  have hall : ∀ e ∈ order m, reachable e.1 := by
    intro e he
    refine hreach ⟨e.1, e.2.flatMap fun f => [f.header, f.body]⟩ ?_
    show _ ∈ (BatchScratch.sendBuckets reachable (order (bucketGroups groups ∅).1) _).1
    rw [bucketGroups_eq, BatchScratch.sends_eq]
    exact List.mem_map_of_mem he
  show (BatchScratch.sendBuckets reachable (order (bucketGroups groups ∅).1) _).2.1 = _
  rw [bucketGroups_eq, BatchScratch.total_eq hall, sum_map_entries (horder m), weigh_pushBuckets,
    weigh_empty, Nat.zero_add]
  unfold allFrames
  rw [List.length_flatMap]
  exact congrArg List.sum (List.map_congr_left fun g _ => List.length_map _)

/-- One call for a receiver. -/
theorem receivers_nodup (horder : ∀ m, (order m).Perm m.entries) :
    ((scratch.sendBatchedHeartbeats groups reachable order).sends.map
      VectoredSend.receiver).Nodup := by
  show ((BatchScratch.sendBuckets reachable (order (bucketGroups groups ∅).1) _).1.map _).Nodup
  rw [BatchScratch.sends_eq, List.map_map]
  exact (List.perm_nodupKeys (horder _)).mpr (bucketGroups groups ∅).1.nodupKeys

end Batch

/-! ## Members listed once -/

namespace HostedGroup

/-- The wire of a group for a member. -/
def wireTo (g : HostedGroup) (p : PeerId) : Option AppendEntries :=
  (g.wires.find? fun w => w.1 = p).map Prod.snd

/-- The members of a group that a wire was built for. -/
def served (g : HostedGroup) : Finset PeerId := (g.wires.map Prod.fst).toFinset

theorem length_singleFrame (g : HostedGroup) (ae : AppendEntries) :
    (g.singleFrame ae).length = 80 := by
  unfold singleFrame Wire.frameBytes
  rw [List.length_append, Wire.length_bodyBytes, Wire.RaftFrameHeader.layout.length_toBytes]
  rfl

/-- The frames for a member, one for each time it is listed. -/
def framesTo (g : HostedGroup) (p : PeerId) : List UInt8 :=
  (g.wires.filter fun w => w.1 = p).flatMap fun w => g.singleFrame w.2

/-- The frame for a member. -/
def frameTo (g : HostedGroup) (p : PeerId) : List UInt8 := (g.wireTo p).elim [] g.singleFrame

theorem frameTo_eq (g : HostedGroup) (p : PeerId) :
    g.frameTo p =
      ((g.wires.filter fun w => w.1 = p).head?.map Prod.snd).elim [] g.singleFrame := by
  unfold frameTo wireTo
  rw [List.head?_filter]

theorem count_wires (g : HostedGroup) (p : PeerId) :
    (g.wires.map Prod.fst).count p = (g.wires.filter fun w => w.1 = p).length := by
  rw [List.count_eq_length_filter, List.filter_map, List.length_map]
  rfl

theorem length_framesTo (g : HostedGroup) (p : PeerId) :
    (g.framesTo p).length = 80 * (g.wires.map Prod.fst).count p := by
  unfold framesTo
  rw [count_wires, List.length_flatMap]
  induction g.wires.filter fun w => w.1 = p with
  | nil => rfl
  | cons w rest ih =>
    rw [List.map_cons, List.sum_cons, ih, length_singleFrame, List.length_cons]
    omega

theorem length_frameTo (g : HostedGroup) (p : PeerId) :
    (g.frameTo p).length = 80 * min ((g.wires.map Prod.fst).count p) 1 := by
  rw [frameTo_eq, count_wires]
  cases g.wires.filter fun w => w.1 = p with
  | nil => rfl
  | cons w rest =>
    show (g.singleFrame w.2).length = _
    rw [length_singleFrame, List.length_cons]
    omega

theorem framesTo_of_once {g : HostedGroup} {p : PeerId}
    (h : (g.wires.map Prod.fst).count p ≤ 1) : g.framesTo p = g.frameTo p := by
  rw [count_wires] at h
  rw [frameTo_eq]
  unfold framesTo
  generalize (g.wires.filter fun w => w.1 = p) = l at h ⊢
  match l, h with
  | [], _ => rfl
  | [w], _ => exact List.append_nil _
  | w :: w' :: rest, h =>
    rw [List.length_cons, List.length_cons] at h
    omega

theorem card_served_le (g : HostedGroup) : g.served.card ≤ g.wires.length := by
  unfold served
  have h := (g.wires.map Prod.fst).toFinset_card_le
  rwa [List.length_map] at h

theorem card_served_eq_iff (g : HostedGroup) :
    g.served.card = g.wires.length ↔ (g.wires.map Prod.fst).Nodup := by
  let m : Multiset PeerId := ↑(g.wires.map Prod.fst)
  have h := Multiset.toFinset_card_eq_card_iff_nodup (m := m)
  rwa [Multiset.coe_card, Multiset.coe_nodup, List.length_map] at h

end HostedGroup

/-- Sums that dominate each other term by term agree if their terms do. -/
theorem sum_eq_iff_of_le {A : Type} {l : List A} {f h : A → Nat} (hle : ∀ a ∈ l, f a ≤ h a) :
    (l.map h).sum = (l.map f).sum ↔ ∀ a ∈ l, h a = f a := by
  constructor
  · intro heq a ha
    by_contra hne
    have hlt := List.sum_lt_sum f h hle ⟨a, ha, lt_of_le_of_ne (hle a ha) (Ne.symm hne)⟩
    omega
  · intro heq
    rw [List.map_congr_left heq]

section Single

variable {groups : List HostedGroup}

/-- Every member is sent one frame by a group exactly if no group serves one twice. -/
theorem frames_once_iff :
    (∀ p, (groups.flatMap fun g => g.framesTo p) = groups.flatMap fun g => g.frameTo p) ↔
      ∀ g ∈ groups, (g.wires.map Prod.fst).Nodup := by
  constructor
  · intro heq g hg
    refine List.nodup_iff_count_le_one.mpr fun p => ?_
    have hlen := congrArg List.length (heq p)
    rw [List.length_flatMap, List.length_flatMap] at hlen
    have hle : ∀ g ∈ groups, (g.frameTo p).length ≤ (g.framesTo p).length := by
      intro g _
      rw [g.length_framesTo, g.length_frameTo]
      omega
    have hone := (sum_eq_iff_of_le hle).mp hlen g hg
    rw [g.length_framesTo, g.length_frameTo] at hone
    omega
  · intro hnodup p
    exact List.flatMap_congr fun g hg =>
      HostedGroup.framesTo_of_once (List.nodup_iff_count_le_one.mp (hnodup g hg) p)

theorem count_once_iff :
    (groups.map fun g => g.wires.length).sum = (groups.map fun g => g.served.card).sum ↔
      ∀ g ∈ groups, (g.wires.map Prod.fst).Nodup := by
  rw [sum_eq_iff_of_le fun g _ => g.card_served_le]
  exact forall₂_congr fun g _ => eq_comm.trans g.card_served_eq_iff

end Single

/-- Batched heartbeats against single ones.  The frame of a wire is what the encoder makes
of it; only groups that the node leads have wires, and only for members other than itself;
there is one call for a receiver.  A receiver gets the concatenation of the frames that its
groups have for it, and the count is the number of groups and members with a wire, exactly
if no group builds two wires for one member, as none does whose voters and learners are
listed once. -/
theorem batched_heartbeats_single_iff (scratch : BatchScratch) (groups : List HostedGroup)
    (reachable : PeerId → Bool)
    (order : PerPeer → List (Sigma fun _ : PeerId => List FrameOut))
    (horder : ∀ m, (order m).Perm m.entries) :
    (∀ (g : HostedGroup) (ae : AppendEntries) (headerBuf : List UInt8), 80 ≤ headerBuf.length →
      ∃ v, Wire.encodeMessageVectoredWithGroup (UInt64.ofNat g.node.config.nodeId) g.groupId
        (HostedGroup.heartbeat ae) headerBuf = .ok v ∧ v.frame = g.singleFrame ae) ∧
    (∀ g ∈ groups, g.node.isLeader = false → g.wires = []) ∧
    (∀ g ∈ groups, ∀ w ∈ g.wires, w.1 ≠ g.node.config.nodeId ∧
      (w.1 ∈ g.node.config.peers ∨ w.1 ∈ g.node.config.learners)) ∧
    ((scratch.sendBatchedHeartbeats groups reachable order).sends.map
      VectoredSend.receiver).Nodup ∧
    ((∀ p, (scratch.sendBatchedHeartbeats groups reachable order).bytesTo p =
        groups.flatMap fun g => g.frameTo p) ↔
      ∀ g ∈ groups, (g.wires.map Prod.fst).Nodup) ∧
    ((∀ s ∈ (scratch.sendBatchedHeartbeats groups reachable order).sends,
        reachable s.receiver) →
      ((scratch.sendBatchedHeartbeats groups reachable order).total =
          (groups.map fun g => g.served.card).sum ↔
        ∀ g ∈ groups, (g.wires.map Prod.fst).Nodup)) ∧
    (∀ g ∈ groups, (g.node.config.peers ++ g.node.config.learners).Nodup →
      (g.wires.map Prod.fst).Nodup) := by
  refine ⟨fun g ae headerBuf hroom => g.encode_heartbeat ae hroom,
    fun g _ h => HostedGroup.wires_of_not_leads h, fun g _ w hw => ?_,
    receivers_nodup horder, ?_, fun hreach => ?_, fun g _ hnodup => ?_⟩
  · have hmem : w.1 ∈ g.node.replicationTargets :=
      (g.wiresFrom_sublist _ _ _).subset (List.mem_map_of_mem hw)
    obtain ⟨hmem, hne⟩ := List.mem_filter.mp hmem
    exact ⟨of_decide_eq_true hne, List.mem_append.mp hmem⟩
  · rw [← frames_once_iff]
    exact forall_congr' fun p => by rw [bytesTo_eq horder]; rfl
  · rw [total_eq_wires horder hreach]
    exact count_once_iff
  · exact (hnodup.filter _).sublist (g.wiresFrom_sublist _ _ _)

/-- The leader of term 1 after its voters were replaced by `[1, 2, 2]`. -/
def repeatedVoter : Option RaftNode :=
  (runSteps Changes.step stagedCluster (winsTerm 1 1 2 ++
    [calmStep 1 (.request (.proposeConfigChange [1, 2, 2])),
      calmStep 1 (.gather (ackFrom 2 1)), calmStep 1 .commit, calmStep 1 .close,
      calmStep 1 (.gather (ackFrom 2 2)), calmStep 1 .commit, calmStep 1 .close,
      calmStep 1 (.act .applyNext), calmStep 1 (.act .applyNext)])).map
    fun t => (t.hosts 1).node

def hostedAs (n : RaftNode) : HostedGroup :=
  { groupId := 7, node := n, reads := fun _ => .succeed }

/-- A first batch of heartbeats, with every peer in reach. -/
def freshBatch (groups : List HostedGroup) : BatchOutcome :=
  ({ perPeer := ∅, headerBufs := [], aeBodies := [] } :
    BatchScratch).sendBatchedHeartbeats groups (fun _ => true) AList.entries

/-- Two wires for one member: node 2 is sent two frames, and three frames are counted for the
members 2 and 4. -/
theorem batched_heartbeats_repeat :
    ∃ n, repeatedVoter = some n ∧ n.config.peers = [1, 2, 2] ∧ n.config.learners = [4] ∧
      (freshBatch [hostedAs n]).total = 3 ∧ (hostedAs n).served.card = 2 ∧
      ((freshBatch [hostedAs n]).bytesTo 2).length = 160 ∧
      ((hostedAs n).frameTo 2).length = 80 := by
  have hrun : repeatedVoter.map (fun n => (n.config.peers, n.config.learners,
      (freshBatch [hostedAs n]).total, (hostedAs n).served.card,
      ((freshBatch [hostedAs n]).bytesTo 2).length, ((hostedAs n).frameTo 2).length)) =
      some ([1, 2, 2], [4], 3, 2, 160, 80) := by decide +kernel
  obtain ⟨n, hn, hfacts⟩ := Option.map_eq_some_iff.mp hrun
  simp only [Prod.mk.injEq] at hfacts
  exact ⟨n, hn, hfacts⟩

/-- A leader of three and a node that leads nothing: nodes 2 and 3 are sent a frame each. -/
theorem batched_heartbeats_single_trio :
    (freshBatch [hostedAs emptyLeader, hostedAs (trioNode 1 (.empty false))]).bytesTo 2 =
        (hostedAs emptyLeader).frameTo 2 ∧
      (freshBatch [hostedAs emptyLeader, hostedAs (trioNode 1 (.empty false))]).total = 2 := by
  have hleader : ((hostedAs emptyLeader).wires.map Prod.fst).Nodup := by decide +kernel
  have hother : ((hostedAs (trioNode 1 (.empty false))).wires.map Prod.fst).Nodup := by
    decide +kernel
  have hnodup : ∀ g ∈ [hostedAs emptyLeader, hostedAs (trioNode 1 (.empty false))],
      (g.wires.map Prod.fst).Nodup := by
    intro g hg
    simp only [List.mem_cons, List.not_mem_nil, or_false] at hg
    rcases hg with rfl | rfl
    · exact hleader
    · exact hother
  obtain ⟨-, -, -, -, hbytes, htotal, -⟩ :=
    batched_heartbeats_single_iff { perPeer := ∅, headerBufs := [], aeBodies := [] }
      [hostedAs emptyLeader, hostedAs (trioNode 1 (.empty false))] (fun _ => true)
      AList.entries fun _ => .refl _
  have hsum : ([hostedAs emptyLeader, hostedAs (trioNode 1 (.empty false))].map
      fun g => g.served.card).sum = 2 := by decide +kernel
  refine ⟨(hbytes.mpr hnodup 2).trans ?_, ((htotal fun _ _ => rfl).mpr hnodup).trans hsum⟩
  have hnone : (hostedAs (trioNode 1 (.empty false))).frameTo 2 = [] := by decide +kernel
  rw [List.flatMap_cons, List.flatMap_cons, hnone]
  exact List.append_nil _

end ArbitroRaft
