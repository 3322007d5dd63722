import ArbitroRaft.Library.Reach
import ArbitroRaft.Registry.Driver
import ArbitroRaft.Transport.Stamp

/-!
# Groups that share a driver

What one group does to another: nothing while its frames and timers are serviced, and the
loss of the rest of the call when it cannot apply what it committed.
-/

namespace ArbitroRaft

open Library Wire

/-! ## The group a frame names -/

theorem frameGroup_header (header : RaftFrameHeader) (rest : List UInt8) :
    frameGroup (RaftFrameHeader.layout.toBytes header ++ rest) = some header.groupId := by
  obtain ⟨front, hlen, hbytes⟩ := header.toBytes_front
  have hframe : RaftFrameHeader.layout.toBytes header ++ rest =
      front ++ (Layout.u64.toBytes header.groupId ++ rest) := by
    rw [show RaftFrameHeader.layout.toBytes header = _ from hbytes header.groupId,
      List.append_assoc]
  unfold frameGroup
  rw [if_neg, hframe, ← hlen, List.drop_left, Layout.read_toBytes_append]
  · rfl
  · rw [List.length_append, Layout.length_toBytes, RaftFrameHeader.layout_size]
    omega

/-- A frame that decodes is for the group that it is routed by. -/
theorem frameGroup_of_decode {frame : List UInt8} {inbound : Wire.InboundRaftMessage}
    (h : decodeMessage frame = .ok inbound) : frameGroup frame = some inbound.groupId := by
  obtain ⟨header, hframe, hheader, -⟩ := decodeMessage_inv h
  rw [hframe, frameGroup_header, hheader.groupId]

/-! ## Parked frames -/

namespace DemuxShared

/-- Every frame lies in the inbox of the group it names. -/
def Sorted (s : DemuxShared) : Prop :=
  ∀ gid inbox, s.inboxes.lookup gid = some inbox → ∀ p ∈ inbox,
    frameGroup p.frame = some gid

variable {s : DemuxShared} {gid : UInt64}

theorem sorted_new : Sorted new := fun _ _ h => nomatch h

theorem Sorted.insert (h : s.Sorted) {inbox : List ParkedFrame}
    (hin : ∀ p ∈ inbox, frameGroup p.frame = some gid) {t : DemuxShared}
    (ht : t.inboxes = s.inboxes.insert gid inbox) : t.Sorted := by
  intro g box hlook
  rw [ht] at hlook
  by_cases hg : g = gid
  · subst hg
    rw [AList.lookup_insert] at hlook
    cases hlook
    exact hin
  · rw [AList.lookup_insert_ne hg] at hlook
    exact h g box hlook

theorem Sorted.take (h : s.Sorted) {p : ParkedFrame} {rest : List ParkedFrame}
    (hlook : s.inboxes.lookup gid = some (p :: rest)) (ready : List UInt64) :
    (s.take gid p rest ready).Sorted :=
  h.insert (fun q hq => h gid _ hlook q (List.mem_cons_of_mem _ hq)) rfl

theorem Sorted.register (h : s.Sorted) (gid : UInt64) : (s.register gid).Sorted := by
  unfold DemuxShared.register
  split
  · exact h
  · exact h.insert (fun p (hp : p ∈ ([] : List ParkedFrame)) => nomatch hp) rfl

theorem Sorted.unregister (h : s.Sorted) (gid : UInt64) : (s.unregister gid).Sorted := by
  unfold DemuxShared.unregister
  split
  · exact h
  · intro g box hlook
    by_cases hg : g = gid
    · subst hg
      exact absurd (hlook.symm.trans (AList.lookup_erase _ _)) nofun
    · exact h g box ((AList.lookup_erase_ne hg).symm.trans hlook)

theorem Sorted.park (h : s.Sorted) {frame : List UInt8} (hframe : frameGroup frame = some gid) :
    (s.park gid frame).Sorted := by
  unfold DemuxShared.park
  split
  · exact h
  · split
    · exact h
    · rename_i inbox hlook
      dsimp only
      split
      · exact h
      · refine Sorted.insert h (fun p hp => ?_) rfl
        rcases List.mem_append.mp hp with hp | hp
        · exact h gid inbox hlook p hp
        · rw [List.mem_singleton] at hp
          rw [hp, frame_write, hframe]

/-- A frame that a pop hands out is one of the group it was parked for. -/
theorem Sorted.tryPopInto (h : s.Sorted) (gid : UInt64) (out : List UInt8) :
    (s.tryPopInto gid out).2.Sorted ∧
      ∀ n, (s.tryPopInto gid out).1.1 = .ok (some n) →
        frameGroup ((s.tryPopInto gid out).1.2.take n) = some gid := by
  unfold DemuxShared.tryPopInto
  split
  · exact ⟨h, fun _ heq => nomatch heq⟩
  · dsimp only
    split
    · rename_i p rest hlook
      refine ⟨h.take hlook _, ?_⟩
      intro n hn
      rcases Routed.copyTo_cases p out with ⟨hcopy, -⟩ | ⟨out', hcopy, hbytes⟩
      · rw [hcopy] at hn
        cases hn
      · rw [hcopy] at hn ⊢
        cases hn
        rw [hbytes]
        exact h gid _ hlook p List.mem_cons_self
    · exact ⟨h, fun _ heq => nomatch heq⟩

theorem Sorted.popParkedInto (h : s.Sorted) (out : List UInt8) :
    (s.popParkedInto out).2.Sorted ∧
      ∀ gid n, (s.popParkedInto out).1.1 = .ok (some (gid, n)) →
        frameGroup ((s.popParkedInto out).1.2.take n) = some gid := by
  unfold DemuxShared.popParkedInto
  split
  · exact ⟨h, fun _ _ heq => nomatch heq⟩
  · split
    · exact ⟨h, fun _ _ heq => nomatch heq⟩
    · rename_i g p rest ready hnext
      obtain ⟨hlook, -, -⟩ := nextReady_eq_some hnext
      refine ⟨h.take hlook _, ?_⟩
      intro gid n hn
      dsimp only at hn ⊢
      rcases Routed.copyTo_cases p out with ⟨hcopy, -⟩ | ⟨out', hcopy, hbytes⟩
      · rw [hcopy] at hn
        cases hn
      · rw [hcopy] at hn ⊢
        cases hn
        rw [hbytes]
        exact h g _ hlook p List.mem_cons_self

theorem Sorted.recvFrameTimeout (h : s.Sorted) (gid : UInt64) (out : List UInt8)
    (arrivals : List (List UInt8)) :
    (s.recvFrameTimeout gid out arrivals).2.Sorted ∧
      ∀ frame, (s.recvFrameTimeout gid out arrivals).1 = .ok (some frame) →
        frameGroup frame = some gid := by
  induction arrivals generalizing s with
  | nil =>
    obtain ⟨hsorted, hpopped⟩ := h.tryPopInto gid out
    unfold DemuxShared.recvFrameTimeout
    rcases hpop : s.tryPopInto gid out with ⟨⟨e | _ | n, out'⟩, s'⟩ <;> rw [hpop] at hsorted hpopped
    · exact ⟨hsorted, fun _ heq => nomatch heq⟩
    · exact ⟨hsorted, fun _ heq => nomatch heq⟩
    · refine ⟨hsorted, fun frame heq => ?_⟩
      cases heq
      exact hpopped n rfl
  | cons frame rest ih =>
    obtain ⟨hsorted, hpopped⟩ := h.tryPopInto gid out
    unfold DemuxShared.recvFrameTimeout
    rcases hpop : s.tryPopInto gid out with ⟨⟨e | _ | n, out'⟩, s'⟩ <;> rw [hpop] at hsorted hpopped
    · exact ⟨hsorted, fun _ heq => nomatch heq⟩
    · dsimp only
      split
      · rename_i g hgroup
        split
        · rename_i hown
          refine ⟨hsorted, fun f heq => ?_⟩
          cases heq
          rw [hgroup, hown]
        · exact ih (hsorted.park hgroup)
      · exact ih (s := { s' with unknownGroup := s'.unknownGroup + 1 }) hsorted
    · refine ⟨hsorted, fun frame heq => ?_⟩
      cases heq
      exact hpopped n rfl

theorem Sorted.receives (h : s.Sorted) (gid : UInt64) (calls : List RecvCall) :
    (s.receives gid calls).2.Sorted ∧
      ∀ frame ∈ (s.receives gid calls).1, frameGroup frame = some gid := by
  induction calls generalizing s with
  | nil => exact ⟨h, fun _ hf => nomatch hf⟩
  | cons call calls ih =>
    obtain ⟨hsorted, hown⟩ := h.recvFrameTimeout gid (List.replicate call.room 0) call.arrivals
    unfold DemuxShared.receives
    split
    · rename_i frame s' hrecv
      rw [hrecv] at hsorted hown
      obtain ⟨hrest, hframes⟩ := ih hsorted
      exact ⟨hrest, List.forall_mem_cons.mpr ⟨hown frame rfl, hframes⟩⟩
    · rename_i result s' hnone hrecv
      rw [hrecv] at hsorted
      exact ih hsorted

end DemuxShared

/-! ## Lending -/

section Groups

variable {N M E : Type}

/-- In a lend to group `gid`: the driver holds the empty buffers of the node, and all frames
are where they belong. -/
structure Window.Fair (gid : UInt64) (w : Window N M) : Prop where
  held : w.held = .empty
  sorted : w.demux.Sorted
  handed : ∀ frame ∈ w.handed, frameGroup frame = some gid

namespace Window

variable {gid : UInt64} {A : Type}

/-- A property that is not about what an operation of the node changes. -/
def Apart (P : Window N M → Prop) : Prop :=
  ∀ w node sm inbound apply, P w →
    P { w with node := node, sm := sm, inbound := inbound, apply := apply }

theorem Fair.apart : Apart (Window.Fair (N := N) (M := M) gid) :=
  fun _ _ _ _ _ h => ⟨h.held, h.sorted, h.handed⟩

theorem apart_demux (demux : DemuxShared) : Apart fun w : Window N M => w.demux = demux :=
  fun _ _ _ _ _ h => h

variable {P : Window N M → Prop} (hP : Apart P)

theorem passOver_preserves {m : WindowM N M A} (h : Preserves P m) (otherwise : A) :
    Preserves P (Window.passOver m otherwise) := by
  refine h.recover fun stop => ?_
  split
  · exact .ret otherwise
  · exact .fail stop

include hP

theorem onNode_preserves (op : HostedNode N → Except Stop A × HostedNode N) :
    Preserves P (Window.onNode op) := by
  intro w hw
  unfold Ends Window.onNode
  rcases op w.node with ⟨_ | a, n⟩ <;> exact hP w n w.sm w.inbound w.apply hw

theorem onInbound_preserves
    (op : FrameBuf → HostedNode N → Except Stop A × FrameBuf × HostedNode N) :
    Preserves P (Window.onInbound op) := by
  intro w hw
  unfold Ends Window.onInbound
  rcases op w.inbound w.node with ⟨_ | a, buf, n⟩ <;> exact hP w n w.sm buf w.apply hw

omit hP

theorem receive_fair (calls : List RecvCall) :
    Preserves (Window.Fair gid) (Window.receive gid calls : WindowM N M (List (List UInt8))) := by
  intro w hw
  obtain ⟨hsorted, hown⟩ := hw.sorted.receives gid calls
  exact ⟨hw.held, hsorted, fun frame hf => (List.mem_append.mp hf).elim (hw.handed frame)
    (hown frame)⟩

end Window

variable (K : GroupKind N M E) {gid : UInt64}

section Node

variable {P : Window N M → Prop} (hP : Window.Apart P)

include hP

theorem applyCommitted_preserves (m : Moment E) : Preserves P (K.applyCommitted m) := by
  intro w hw
  unfold Ends GroupKind.applyCommitted
  rcases K.applyGroup m.world w.node w.sm w.apply with ⟨_ | _, n, sm, buf⟩ <;>
    exact hP w n sm w.inbound buf hw

theorem settle_preserves (m : Moment E) : Preserves P (K.settle m) := by
  refine .bind (fun w hw => .read ?_) fun _ => applyCommitted_preserves K hP m
  split
  · exact Window.onNode_preserves hP _ w hw
  · exact .ret hw

/-- A frame that decodes goes to the node. -/
theorem handleFrame_ends (m : Moment E) (len : Nat) {w : Window N M} (hw : P w)
    (hhanded : P { w with handed := w.handed ++ [w.inbound.bytes.take len] }) :
    Ends (K.handleFrame m len) w (fun _ => P) P := by
  unfold GroupKind.handleFrame
  refine .read ?_
  cases hdecode : decodeMessage (w.inbound.bytes.take len) with
  | error e =>
    simp only [hdecode]
    exact .ret hw
  | ok inbound =>
    simp only [hdecode]
    exact .updateSeq
      (Window.passOver_preserves (Window.onNode_preserves hP _) () _ hhanded)

end Node

theorem heartbeat_fair (m : Moment E) : Preserves (Window.Fair gid) (K.heartbeat m gid) :=
  (Window.receive_fair _).bind fun _ => Window.onNode_preserves Window.Fair.apart _

theorem preVote_fair (m : Moment E) : Preserves (Window.Fair gid) (K.preVote m gid) :=
  (Window.receive_fair _).bind fun _ => Window.onInbound_preserves Window.Fair.apart _

theorem election_fair (m : Moment E) : Preserves (Window.Fair gid) (K.election m gid) :=
  (Window.receive_fair _).bind fun _ => Window.onInbound_preserves Window.Fair.apart _

theorem runElection_fair (m : Moment E) (forced : Bool) :
    Preserves (Window.Fair gid) (K.runElection m gid forced) := by
  unfold GroupKind.runElection
  split
  · exact election_fair K m
  · refine (Window.passOver_preserves (preVote_fair K m) false).bind fun pre => ?_
    split
    · exact election_fair K m
    · exact .ret false

theorem proposeCommitted_fair (m : Moment E) (payload : List UInt8) :
    Preserves (Window.Fair gid) (K.proposeCommitted m gid payload) :=
  (Window.receive_fair _).bind fun _ => (Window.onNode_preserves Window.Fair.apart _).bind fun index =>
    (applyCommitted_preserves K Window.Fair.apart m).bind fun _ => .ret index

theorem handleFrame_fair (m : Moment E) (len : Nat) {w : Window N M} (hw : w.Fair gid)
    (hframe : frameGroup (w.inbound.bytes.take len) = some gid) :
    Ends (K.handleFrame m len) w (fun _ => Window.Fair gid) (Window.Fair gid) := by
  refine handleFrame_ends K Window.Fair.apart m len hw ⟨hw.held, hw.sorted, fun frame hf => ?_⟩
  rcases List.mem_append.mp hf with hf | hf
  · exact hw.handed frame hf
  · rw [List.mem_singleton] at hf
    rw [hf, hframe]

/-! ## Events -/

/-- Between two events: every group holds its empty buffers, and all frames are where they
belong. -/
structure DriverRun.Fair (s : DriverRun N M E) : Prop where
  tidy : ∀ gid entry, s.driver.registry.lookup gid = some entry → entry.node.scratch = .empty
  sorted : s.driver.demux.Sorted
  handed : ∀ item ∈ s.handed, frameGroup item.2 = some item.1

/-- Nothing but group `gid` changes. -/
structure DriverRun.Spares (gid : UInt64) (s s' : DriverRun N M E) : Prop where
  registry : ∀ g, g ≠ gid → s'.driver.registry.lookup g = s.driver.registry.lookup g
  timers : ∀ g, g ≠ gid → s'.driver.timers.lookup g = s.driver.timers.lookup g

/-- An event of group `gid` keeps to the group, and leaves the run fair if `P`. -/
structure DriverRun.Confined (gid : UInt64) (P : Prop) (s s' : DriverRun N M E) : Prop where
  spares : s.Spares gid s'
  fair : P → s.Fair → s'.Fair
  serviced : s'.serviced = s.serviced

variable {P : Prop}

namespace DriverRun

variable {s : DriverRun N M E} {w : Window N M} {entry : GroupEntry N M}

instance : Std.Refl (DriverRun.Confined (N := N) (M := M) (E := E) gid P) where
  refl _ := ⟨⟨fun _ _ => rfl, fun _ _ => rfl⟩, fun _ h => h, rfl⟩

instance : IsTrans (DriverRun N M E) (DriverRun.Confined gid P) where
  trans _ _ _ h h' :=
    { spares :=
        { registry := fun g hg => (h'.spares.registry g hg).trans (h.spares.registry g hg)
          timers := fun g hg => (h'.spares.timers g hg).trans (h.spares.timers g hg) }
      fair := fun hP hs => h'.fair hP (h.fair hP hs)
      serviced := h'.serviced.trans h.serviced }

theorem confined_counters (f : MultiRaftDriver N M → UInt64) :
    s.Confined gid P (s.onDriver fun d => { d with unknownGroupFrames := f d }) :=
  ⟨⟨fun _ _ => rfl, fun _ _ => rfl⟩, fun _ h => ⟨h.tidy, h.sorted, h.handed⟩, rfl⟩

theorem confined_setTimers (t : GroupTimers) :
    s.Confined gid P (s.onDriver fun d => d.setTimers gid t) where
  spares := ⟨fun _ _ => rfl, fun _ hg => AList.lookup_insert_ne hg⟩
  fair _ h := ⟨h.tidy, h.sorted, h.handed⟩
  serviced := rfl

theorem confined_onTimers (f : GroupTimers → GroupTimers) :
    s.Confined gid P (s.onDriver fun d => d.onTimers gid f) := by
  show s.Confined gid P { s with driver := s.driver.onTimers gid f }
  unfold MultiRaftDriver.onTimers
  split
  · exact confined_setTimers _
  · exact refl_of (DriverRun.Confined gid P) s

/-- A group whose entry is replaced by one that holds empty buffers. -/
theorem tidy_insert (h : s.Fair) (hempty : entry.node.scratch = .empty) (g : UInt64)
    (other : GroupEntry N M) (hlook : (s.driver.registry.insert gid entry).lookup g = some other) :
    other.node.scratch = .empty := by
  by_cases hg : g = gid
  · subst hg
    rw [AList.lookup_insert] at hlook
    rw [← Option.some.inj hlook]
    exact hempty
  · rw [AList.lookup_insert_ne hg] at hlook
    exact h.tidy g other hlook

theorem confined_setCore (hentry : P → s.Fair → entry.node.scratch = .empty) (core : N) :
    s.Confined gid P (s.onDriver fun d => d.setCore gid entry core) where
  spares := ⟨fun _ hg => AList.lookup_insert_ne hg, fun _ _ => rfl⟩
  fair hP h := ⟨tidy_insert h (hentry hP h), h.sorted, h.handed⟩
  serviced := rfl

theorem confined_close (hw : P → s.Fair → w.Fair gid) : s.Confined gid P (s.close gid w) where
  spares := ⟨fun _ hg => AList.lookup_insert_ne hg, fun _ _ => rfl⟩
  fair hP h :=
    { tidy := tidy_insert h (hw hP h).held
      sorted := (hw hP h).sorted
      handed := by
        intro item hitem
        rcases List.mem_append.mp hitem with hitem | hitem
        · exact h.handed item hitem
        · obtain ⟨frame, hframe, rfl⟩ := List.mem_map.mp hitem
          exact (hw hP h).handed frame hframe }
  serviced := rfl

theorem fair_lend (h : s.Fair) (hentry : entry.node.scratch = .empty) :
    (s.driver.lend entry).Fair gid :=
  ⟨hentry, h.sorted, fun _ hf => nomatch hf⟩

end DriverRun

section Confinement

variable {s : DriverRun N M E} {w : Window N M} {entry : GroupEntry N M} (m : Moment E)

theorem finishFrame_confined (hw : P → s.Fair → w.Fair gid) (result : Except Stop Unit) :
    Emits (DriverRun.Confined gid P) (K.finishFrame m gid w result) s fun _ _ => True := by
  unfold GroupKind.finishFrame
  refine .updateSeq (DriverRun.confined_close fun hP h => ?_)
    (.updateSeq (DriverRun.confined_onTimers _) ?_)
  · exact ⟨(hw hP h).held, (hw hP h).sorted, (hw hP h).handed⟩
  · cases result with
    | ok _ => exact .ret trivial
    | error stop => exact .fail

theorem closeTick_confined (hw : P → s.Fair → w.Fair gid) (timers : GroupTimers → GroupTimers)
    (result : Except Stop Unit) :
    Emits (DriverRun.Confined gid P) (GroupKind.closeTick (E := E) gid w timers result) s
      fun _ _ => True := by
  unfold GroupKind.closeTick
  refine .updateSeq (DriverRun.confined_close hw) ?_
  split
  · exact .fail
  · refine .updateSeq (DriverRun.confined_onTimers _) ?_
    split
    · exact .ret trivial
    · split
      · exact .ret trivial
      · exact .fail

theorem dispatchFrame_confined {len : Nat}
    (hframe : P → frameGroup (s.driver.scratch.inbound.bytes.take len) = some gid) :
    Emits (DriverRun.Confined gid P) (K.dispatchFrame m gid len) s fun _ _ => True := by
  unfold GroupKind.dispatchFrame
  refine .read ?_
  split
  · exact .update (DriverRun.confined_counters _) trivial
  · rename_i entry hlook
    have hhandled : P → s.Fair → Ends (K.handleFrame m len) (s.driver.lend entry)
        (fun _ => Window.Fair gid) (Window.Fair gid) :=
      fun hP h => handleFrame_fair K m len (DriverRun.fair_lend h (h.tidy gid entry hlook))
        (hframe hP)
    split
    · rename_i w hrun
      exact .updateSeq (DriverRun.confined_close fun hP h => (hhandled hP h).of_error hrun)
        .fail
    · rename_i e w hrun
      exact finishFrame_confined K m (fun hP h => (hhandled hP h).of_error hrun) _
    · rename_i w hrun
      have hw : P → s.Fair → Ends (K.settle m) w (fun _ => Window.Fair gid) (Window.Fair gid) :=
        fun hP h => settle_preserves K Window.Fair.apart m w ((hhandled hP h).of_ok hrun)
      split
      · rename_i w' hsettle
        exact finishFrame_confined K m (fun hP h => (hw hP h).of_ok hsettle) _
      · rename_i stop w' hsettle
        exact finishFrame_confined K m (fun hP h => (hw hP h).of_error hsettle) _

/-- The parked frames stay where they are. -/
theorem dispatchFrame_demux (len : Nat) :
    Ends (K.dispatchFrame m gid len) s (fun _ s' => s'.driver.demux = s.driver.demux)
      fun s' => s'.driver.demux = s.driver.demux := by
  have hfinish : ∀ (w : Window N M) result, w.demux = s.driver.demux →
      Ends (K.finishFrame m gid w result) s (fun _ s' => s'.driver.demux = s.driver.demux)
        fun s' => s'.driver.demux = s.driver.demux := by
    intro w result hw
    have htimers : ∀ (d : MultiRaftDriver N M) f, (d.onTimers gid f).demux = d.demux := by
      intro d f
      unfold MultiRaftDriver.onTimers
      split <;> rfl
    unfold GroupKind.finishFrame
    refine .updateSeq (.updateSeq ?_)
    cases result with
    | ok _ => exact .ret ((htimers _ _).trans hw)
    | error stop => exact .fail ((htimers _ _).trans hw)
  unfold GroupKind.dispatchFrame
  refine .read ?_
  split
  · exact rfl
  · rename_i entry hlook
    have hhandled := handleFrame_ends K (Window.apart_demux s.driver.demux) m len
      (w := s.driver.lend entry) rfl rfl
    split
    · rename_i w hrun
      exact .updateSeq (.fail (hhandled.of_error hrun))
    · rename_i e w hrun
      exact hfinish w _ (hhandled.of_error hrun)
    · rename_i w hrun
      have hsettled := settle_preserves K (Window.apart_demux s.driver.demux) m w
        (hhandled.of_ok hrun)
      split
      · rename_i w' hsettle
        exact hfinish w' _ (hsettled.of_ok hsettle)
      · rename_i stop w' hsettle
        exact hfinish w' _ (hsettled.of_error hsettle)

theorem heartbeatTick_confined (hentry : P → s.Fair → entry.node.scratch = .empty) :
    Emits (DriverRun.Confined gid P) (K.heartbeatTick m gid entry) s fun _ _ => True := by
  unfold GroupKind.heartbeatTick
  generalize K.checkQuorumActive m.world entry.node.core = quorum
  obtain ⟨active, core⟩ := quorum
  dsimp only
  split
  · refine .read ?_
    have hbeat : P → s.Fair → Ends (K.heartbeat m gid) (s.driver.lend
        { entry with node := { entry.node with core := core } })
        (fun _ => Window.Fair gid) (Window.Fair gid) :=
      fun hP h => heartbeat_fair K m _ (DriverRun.fair_lend h (hentry hP h))
    split
    · rename_i w hok
      exact closeTick_confined (fun hP h => (hbeat hP h).of_ok hok) _ _
    · rename_i stop w hstop
      exact closeTick_confined (fun hP h => (hbeat hP h).of_error hstop) _ _
  · split
    · exact .update (DriverRun.confined_setCore hentry _) trivial
    · exact .updateSeq (DriverRun.confined_setCore hentry _) Emits.fail

theorem electionTick_confined (hentry : P → s.Fair → entry.node.scratch = .empty) (forced : Bool) :
    Emits (DriverRun.Confined gid P) (K.electionTick m gid entry forced) s fun _ _ => True := by
  unfold GroupKind.electionTick
  refine .read ?_
  have hrun : P → s.Fair → Ends (K.runElection m gid forced) (s.driver.lend entry)
      (fun _ => Window.Fair gid) (Window.Fair gid) :=
    fun hP h => runElection_fair K m forced _ (DriverRun.fair_lend h (hentry hP h))
  split
  · rename_i stop w hstop
    exact closeTick_confined (fun hP h => (hrun hP h).of_error hstop) _ _
  · rename_i w hlost
    exact closeTick_confined (fun hP h => (hrun hP h).of_ok hlost) _ _
  · rename_i w hwon
    have hbeat : P → s.Fair → Ends (K.heartbeat m gid) w
        (fun _ => Window.Fair gid) (Window.Fair gid) :=
      fun hP h => heartbeat_fair K m w ((hrun hP h).of_ok hwon)
    dsimp only
    split
    · rename_i w' hok
      exact closeTick_confined (fun hP h => (hbeat hP h).of_ok hok) _ _
    · rename_i stop w' hstop
      exact closeTick_confined (fun hP h => (hbeat hP h).of_error hstop) _ _

/-- The heartbeat part leaves the node of a follower alone. -/
theorem beatIfDue_confined (now : Nat) (t : GroupTimers)
    (hlook : s.driver.registry.lookup gid = some entry) :
    Emits (DriverRun.Confined gid P) (K.beatIfDue m gid now entry t) s fun _ s' =>
      K.isLeader entry.node.core = false → s'.driver.registry.lookup gid = some entry := by
  unfold GroupKind.beatIfDue
  split
  · refine .updateSeq (DriverRun.confined_setTimers _) ?_
    split
    · rename_i hlead
      have hentry : P → (s.onDriver fun d => d.setTimers gid (t.resetHeartbeat m.now)).Fair →
          entry.node.scratch = .empty := fun _ h => h.tidy gid entry hlook
      exact (heartbeatTick_confined K m hentry).mono fun _ _ _ _ hnot =>
        absurd (hlead.symm.trans hnot) nofun
    · exact .ret fun _ => hlook
  · exact .ret fun _ => hlook

theorem campaignIfDue_confined (now : Nat) (t : GroupTimers)
    (hlook : K.isLeader entry.node.core = false → s.driver.registry.lookup gid = some entry) :
    Emits (DriverRun.Confined gid P) (K.campaignIfDue m gid now entry t) s fun _ _ => True := by
  unfold GroupKind.campaignIfDue
  split
  · rename_i hdue
    have hnot : K.isLeader entry.node.core = false := by
      simpa using (Bool.and_eq_true_iff.mp hdue).1
    refine .updateSeq (DriverRun.confined_onTimers _)
      (electionTick_confined K m (fun _ h => h.tidy gid entry ?_) _)
    rw [← hlook hnot]
    show (s.driver.onTimers gid _).registry.lookup gid = _
    unfold MultiRaftDriver.onTimers
    split <;> rfl
  · exact .ret trivial

theorem tickGroup_confined (now : Nat) :
    Emits (DriverRun.Confined gid P) (K.tickGroup m gid now) s fun _ _ => True := by
  unfold GroupKind.tickGroup
  refine .read ?_
  split
  · rename_i entry t hlook htimers
    exact (beatIfDue_confined K m now t hlook).seq fun _ s' _ hlook' =>
      campaignIfDue_confined K m now t hlook'
  · exact .ret trivial

end Confinement

/-- The frame of an event is for the group of the event. -/
def DriverEvent.Carried (d : MultiRaftDriver N M) : DriverEvent → Prop
  | frame gid len => frameGroup (d.scratch.inbound.bytes.take len) = some gid
  | tick _ _ => True

theorem perform_confined (m : Moment E) (event : DriverEvent) (s : DriverRun N M E) :
    Emits (DriverRun.Confined event.gid (event.Carried s.driver)) (K.perform m event) s
      fun _ _ => True := by
  cases event with
  | frame gid len => exact dispatchFrame_confined K m id
  | tick gid now => exact tickGroup_confined K m now

/-! ## Calls -/

section Calls

variable (input : TickInput E)

theorem serve_fair {event : DriverEvent} {s : DriverRun N M E} (hs : s.Fair)
    (hcarried : event.Carried s.driver) :
    Ends (K.serve input event) s (fun _ => DriverRun.Fair) DriverRun.Fair := by
  unfold GroupKind.serve
  refine .read (.putSeq ?_)
  exact (Ends.of_emits (perform_confined K _ event _)).mono
    (fun _ _ h => h.1.fair hcarried ⟨hs.tidy, hs.sorted, hs.handed⟩)
    fun _ h => h.fair hcarried ⟨hs.tidy, hs.sorted, hs.handed⟩

theorem routeRaw_fair (len : Nat) : Preserves DriverRun.Fair (K.routeRaw input len) := by
  intro s hs
  unfold GroupKind.routeRaw
  refine .read ?_
  split
  · rename_i gid hgroup
    exact serve_fair K input hs hgroup
  · exact DriverRun.Fair.mk hs.tidy hs.sorted hs.handed

theorem store_fair (frame : RawFrame) :
    Preserves DriverRun.Fair (GroupKind.store frame : DriverM N M E Unit) :=
  .step fun _ hs => ⟨hs.tidy, hs.sorted, hs.handed⟩

/-- A parked frame comes out for the group it names. -/
theorem popParked_fair {s : DriverRun N M E} (hs : s.Fair) :
    Ends (GroupKind.popParked (N := N) (M := M) (E := E)) s
      (fun next s' => s'.Fair ∧
        ∀ gid len, next = some (gid, len) → (DriverEvent.frame gid len).Carried s'.driver)
      DriverRun.Fair := by
  obtain ⟨hsorted, hcarried⟩ := hs.sorted.popParkedInto s.driver.scratch.inbound.bytes
  unfold GroupKind.popParked
  refine .read (.putSeq ?_)
  split
  · rename_i next hnext
    refine .ret ⟨⟨hs.tidy, hsorted, hs.handed⟩, ?_⟩
    rintro gid len rfl
    exact hcarried gid len hnext
  · exact .fail ⟨hs.tidy, hsorted, hs.handed⟩

theorem drainParked_fair (room : Nat) : Preserves DriverRun.Fair (K.drainParked input room) := by
  induction room with
  | zero => exact .ret 0
  | succ room ih =>
    intro s hs
    unfold GroupKind.drainParked
    refine (popParked_fair hs).seq fun next s' hs' => ?_
    cases next with
    | none => exact .ret hs'.1
    | some popped =>
      exact (serve_fair K input hs'.1 (hs'.2 _ _ rfl)).seq fun _ =>
        ih.bind fun n => .ret (n + 1)

theorem receiveFails_fair (stop : Stop) :
    Preserves DriverRun.Fair
      (if stop.passes then pure 0 else throw stop : DriverM N M E Nat) := by
  split
  · exact .ret 0
  · exact .fail stop

theorem drainBurst_fair (room : Nat) (answers : List (Except Stop (Option RawFrame))) :
    Preserves DriverRun.Fair (K.drainBurst input room answers) := by
  induction room generalizing answers with
  | zero => exact .ret 0
  | succ room ih =>
    match answers with
    | [] => exact .ret 0
    | .ok none :: _ => exact .ret 0
    | .error stop :: _ => exact receiveFails_fair stop
    | .ok (some frame) :: answers =>
      exact (store_fair frame).bind fun _ => (routeRaw_fair K input _).bind fun _ =>
        (ih answers).bind fun n => .ret (n + 1)

theorem awaitOne_fair (processed : Nat) :
    Preserves DriverRun.Fair (K.awaitOne input processed) := by
  intro s hs
  unfold GroupKind.awaitOne
  refine .read ?_
  split
  · exact .ret hs
  · cases input.idle with
    | error stop => exact receiveFails_fair stop s hs
    | ok answer =>
      cases answer with
      | none => exact .ret hs
      | some frame =>
        exact ((store_fair frame).bind fun _ => (routeRaw_fair K input _).bind
          fun _ => .ret 1) s hs

theorem tickAll_fair (due : List UInt64) : Preserves DriverRun.Fair (K.tickAll input due) := by
  induction due with
  | nil => exact .ret ()
  | cons gid rest ih =>
    exact .bind (fun s hs => serve_fair K input hs trivial) fun _ => ih

theorem ensureResident_fair :
    Preserves DriverRun.Fair (GroupKind.ensureResident (N := N) (M := M) (E := E)) :=
  .step fun _ hs => ⟨hs.tidy, hs.sorted, hs.handed⟩

theorem runOnce_fair : Preserves DriverRun.Fair (K.runOnce input) := by
  refine .bind (ensureResident_fair.bind fun _ => (drainParked_fair K input _).bind fun _ =>
    (drainBurst_fair K input _ _).bind fun _ => (awaitOne_fair K input _).bind fun _ => .ret _)
      fun _ => .bind (.bind (.step fun _ hs => ⟨hs.tidy, hs.sorted, hs.handed⟩) ?_)
        fun _ => .ret _
  exact fun _ s hs => tickAll_fair K input s.driver.dueScratch s hs

end Calls

theorem finishCampaign_fair (m : Moment E) {s : DriverRun N M E} {w : Window N M} (hs : s.Fair)
    (hw : w.Fair gid) (result : Except Stop Bool) :
    Ends (GroupKind.finishCampaign m gid w result) s (fun _ => DriverRun.Fair)
      DriverRun.Fair := by
  have hclose : (s.close gid w).Fair :=
    (DriverRun.confined_close (P := True) fun _ _ => hw).fair trivial hs
  unfold GroupKind.finishCampaign
  refine .updateSeq ?_
  split
  · exact .fail hclose
  · have htimers : ((s.close gid w).onDriver fun d => d.onTimers gid fun t =>
        (t.resetElection m.later).resetHeartbeat m.later).Fair :=
      (DriverRun.confined_onTimers (P := True) _).fair trivial hclose
    refine .updateSeq ?_
    split
    · exact .ret htimers
    · exact .fail htimers

theorem campaign_fair (m : Moment E) : Preserves DriverRun.Fair (K.campaign m gid) := by
  refine ensureResident_fair.bind fun _ s hs => .read ?_
  split
  · exact .fail hs
  · rename_i entry hlook
    have hrun : Ends (K.election m gid) (s.driver.lend entry) (fun _ => Window.Fair gid)
        (Window.Fair gid) :=
      election_fair K m _ (DriverRun.fair_lend hs (hs.tidy gid entry hlook))
    split
    · rename_i stop w hstop
      exact finishCampaign_fair m hs (hrun.of_error hstop) _
    · rename_i w hlost
      exact finishCampaign_fair m hs (hrun.of_ok hlost) _
    · rename_i w hwon
      have hbeat := heartbeat_fair K m w (hrun.of_ok hwon)
      split
      · rename_i w' hok
        exact finishCampaign_fair m hs (hbeat.of_ok hok) _
      · rename_i stop w' hstop
        exact finishCampaign_fair m hs (hbeat.of_error hstop) _

theorem propose_fair (m : Moment E) (payload : List UInt8) :
    Preserves DriverRun.Fair (K.propose m gid payload) := by
  unfold GroupKind.propose
  split
  · exact .fail _
  · split
    · exact .fail _
    · refine ensureResident_fair.bind fun _ s hs => .read ?_
      split
      · exact .fail hs
      · rename_i entry hlook
        have hrun : Ends (K.proposeCommitted m gid payload) (s.driver.lend entry)
            (fun _ => Window.Fair gid) (Window.Fair gid) :=
          proposeCommitted_fair K m payload _
            (DriverRun.fair_lend hs (hs.tidy gid entry hlook))
        split
        · rename_i index w hok
          exact (DriverRun.confined_close (P := True) fun _ _ => hrun.of_ok hok).fair trivial hs
        · rename_i stop w hstop
          exact (DriverRun.confined_close (P := True) fun _ _ => hrun.of_error hstop).fair
            trivial hs

theorem fair_final {A : Type} {c : DriverM N M E A} {s : DriverRun N M E}
    (h : Preserves DriverRun.Fair c) (hs : s.Fair) : (final (c s)).Fair := by
  have hend := h s hs
  cases hrun : c s with
  | ok a s' => exact hend.of_ok hrun
  | error stop s' => exact hend.of_error hrun

section Call

variable {d : MultiRaftDriver N M} (hd : (⟨d, [], []⟩ : DriverRun N M E).Fair)

include hd

theorem addGroup_fair (built : Except RaftError (HostedNode N)) (sm : M) (nodeId : PeerId)
    (timing : TimingConfig) (now : Nat) :
    (⟨(d.addGroup gid built sm nodeId timing now).2, [], []⟩ : DriverRun N M E).Fair := by
  unfold MultiRaftDriver.addGroup
  cases d.registry.lookup gid with
  | some _ => exact hd
  | none =>
    cases built with
    | error e => exact ⟨hd.tidy, (hd.sorted.register gid).unregister gid, hd.handed⟩
    | ok node => exact ⟨DriverRun.tidy_insert hd rfl, hd.sorted.register gid, hd.handed⟩

theorem removeGroup_fair : (⟨(d.removeGroup gid).2, [], []⟩ : DriverRun N M E).Fair := by
  unfold MultiRaftDriver.removeGroup
  cases d.registry.lookup gid with
  | none => exact hd
  | some entry =>
    refine ⟨fun g other hlook => ?_, hd.sorted.unregister gid, hd.handed⟩
    by_cases hg : g = gid
    · subst hg
      exact absurd (hlook.symm.trans (AList.lookup_erase _ _)) nofun
    · exact hd.tidy g other ((AList.lookup_erase_ne hg).symm.trans hlook)

/-- Every call leaves the groups with empty buffers and the frames where they belong, and
hands each node its own frames. -/
theorem run_fair (call : DriverCall N M E) : (K.run d call).Fair := by
  cases call with
  | addGroup gid built sm nodeId timing now => exact addGroup_fair hd built sm nodeId timing now
  | removeGroup gid => exact removeGroup_fair hd
  | campaign m gid => exact fair_final (campaign_fair K m) hd
  | propose m gid payload => exact fair_final (propose_fair K m payload) hd
  | runOnce input => exact fair_final (runOnce_fair K input) hd

end Call

/-- A driver that was made and called. -/
def GroupKind.Reached (K : GroupKind N M E) (d : MultiRaftDriver N M) : Prop :=
  Reaches K.step (fun _ _ => True) .new d

theorem GroupKind.Reached.fair {d : MultiRaftDriver N M} (h : K.Reached d) :
    (⟨d, [], []⟩ : DriverRun N M E).Fair := by
  refine h.invariant (I := fun d => (⟨d, [], []⟩ : DriverRun N M E).Fair) ?_ ?_
  · exact ⟨fun _ _ hlook => (nomatch hlook), DemuxShared.sorted_new, fun _ hi => (nomatch hi)⟩
  · intro d d' call hd _ hstep
    cases hstep
    have hrun := run_fair K hd call
    exact ⟨hrun.tidy, hrun.sorted, fun _ hitem => nomatch hitem⟩

end Groups

end ArbitroRaft
