import ArbitroRaft.Registry.Isolation

/-!
# What is left of a call

`run_once` passes over an error that is not fatal of a handler, a heartbeat, a pre-vote or an
election.  One of `try_advance_commit_index` or `apply_group` behind a frame, or of the
`step_down` of an abdication, leaves the call, with the frames and timers that were still to
be serviced.

## Main results

* `groups_isolated_iff`: when a call services the other groups to the end.
-/

namespace ArbitroRaft

open Library Wire

variable {N M E : Type} (K : GroupKind N M E)

/-! ## Errors that leave the call -/

/-- The error of `try_advance_commit_index` or `apply_group` behind a frame. -/
def GroupKind.settleFails (m : Moment E) (w : Window N M) : Option Stop :=
  match (K.settle m).run w with
  | .ok () _ => none
  | .error stop _ => some stop

/-- The error of the `step_down` of an abdication. -/
def GroupKind.abdicationFails (m : Moment E) (entry : GroupEntry N M) : Option Stop :=
  let (active, core) := K.checkQuorumActive m.world entry.node.core
  if active then none
  else
    match (K.stepDown m.world core).1 with
    | .ok () => none
    | .error e => some (.failed e)

/-- The error of an event that no one passes over. -/
def GroupKind.leaves (x : Serviced N M E) : Option Stop :=
  match x.event with
  | .frame gid len =>
    match x.before.registry.lookup gid with
    | none => none
    | some entry =>
      match (K.handleFrame x.moment len).run (x.before.lend entry) with
      | .error _ _ => none
      | .ok () w => K.settleFails x.moment w
  | .tick gid now =>
    match x.before.registry.lookup gid, x.before.timers.lookup gid with
    | some entry, some t =>
      if t.nextHeartbeatAt ≤ now ∧ K.isLeader entry.node.core = true then
        K.abdicationFails x.moment entry
      else none
    | _, _ => none

/-- The error, if there is one, is fatal. -/
def GroupKind.Contained (x : Serviced N M E) : Prop :=
  ∀ stop, K.leaves x = some stop → stop.passes = false

/-- From `s`, the computation ends in no error that could be passed over. -/
def Firm {S A : Type} (c : EStateM Stop S A) (s : S) : Prop :=
  ∀ stop s', c s = .error stop s' → stop.passes = false

namespace Firm

variable {S A B : Type} {s : S}

theorem ret (a : A) : Firm (pure a : EStateM Stop S A) s := fun _ _ h => nomatch h

theorem fail {stop : Stop} (hstop : stop.passes = false) :
    Firm (throw stop : EStateM Stop S A) s := by
  intro stop' s' h
  cases h
  exact hstop

theorem seq {c : EStateM Stop S B} {f : B → EStateM Stop S A} (h : Firm c s)
    (k : ∀ b s', Firm (f b) s') : Firm (c >>= f) s := by
  intro stop s' hstop
  cases hc : c s with
  | ok b t =>
    rw [bind_of_ok hc] at hstop
    exact k b t stop s' hstop
  | error e t =>
    rw [bind_of_error hc] at hstop
    injection hstop with hstop
    exact hstop ▸ h e t hc

theorem read {f : S → EStateM Stop S A} (k : Firm (f s) s) : Firm (get >>= f) s := k

theorem updateSeq {g : S → S} {f : PUnit → EStateM Stop S A} (k : Firm (f ⟨⟩) (g s)) :
    Firm (modify g >>= f) s := k

/-- The handler that passes errors over. -/
theorem pass {c : EStateM Stop S A} {otherwise : A} :
    Firm (tryCatch c fun stop => if stop.passes then pure otherwise else throw stop) s := by
  intro stop s' hstop
  cases hc : c s with
  | ok a t =>
    rw [tryCatch_of_ok hc] at hstop
    cases hstop
  | error e t =>
    rw [tryCatch_of_error hc] at hstop
    split at hstop
    · cases hstop
    · rename_i hpass
      cases hstop
      exact Bool.eq_false_iff.mpr hpass

end Firm

section Events

variable (m : Moment E) {gid : UInt64} {entry : GroupEntry N M} {s : DriverRun N M E}

theorem handleFrame_firm (len : Nat) (w : Window N M) : Firm (K.handleFrame m len) w := by
  unfold GroupKind.handleFrame
  refine .read ?_
  cases hdecode : decodeMessage (w.inbound.bytes.take len) with
  | error e =>
    simp only [hdecode]
    exact .ret ()
  | ok inbound =>
    simp only [hdecode]
    exact .updateSeq .pass

theorem closeTick_firm (w : Window N M) (timers : GroupTimers → GroupTimers)
    (result : Except Stop Unit) : Firm (GroupKind.closeTick gid w timers result) s := by
  unfold GroupKind.closeTick
  refine .updateSeq ?_
  split
  · exact .fail rfl
  · refine .updateSeq ?_
    split
    · exact .ret ()
    · split
      · exact .ret ()
      · rename_i hpass
        exact .fail (Bool.eq_false_iff.mpr hpass)

theorem electionTick_firm (forced : Bool) : Firm (K.electionTick m gid entry forced) s := by
  unfold GroupKind.electionTick
  refine .read ?_
  split
  · exact closeTick_firm _ _ _
  · exact closeTick_firm _ _ _
  · dsimp only
    split <;> exact closeTick_firm _ _ _

/-- From `s`, the computation ends in the error, or without one in none that could be passed
over. -/
def EndsIn {S A : Type} (c : EStateM Stop S A) (s : S) : Option Stop → Prop
  | some stop => ∃ s', c s = .error stop s'
  | none => Firm c s

theorem EndsIn.seq {S A B : Type} {c : EStateM Stop S B} {f : B → EStateM Stop S A} {s : S}
    {stop? : Option Stop} (h : EndsIn c s stop?) (k : ∀ b s', Firm (f b) s') :
    EndsIn (c >>= f) s stop? := by
  cases stop? with
  | none => exact Firm.seq h k
  | some stop =>
    obtain ⟨s', hs'⟩ := h
    exact ⟨s', bind_of_error hs'⟩

theorem endsIn_read {S A : Type} {f : S → EStateM Stop S A} {s : S} :
    EndsIn (get >>= f) s = EndsIn (f s) s := rfl

theorem heartbeatTick_endsIn :
    EndsIn (K.heartbeatTick m gid entry) s (K.abdicationFails m entry) := by
  unfold GroupKind.heartbeatTick GroupKind.abdicationFails
  generalize K.checkQuorumActive m.world entry.node.core = quorum
  obtain ⟨active, core⟩ := quorum
  cases active with
  | true =>
    refine .read ?_
    dsimp only
    split <;> exact closeTick_firm _ _ _
  | false =>
    rcases hdown : K.stepDown m.world core with ⟨e | _, core'⟩ <;> simp only [hdown]
    · exact ⟨_, rfl⟩
    · exact fun _ _ h => nomatch h

theorem finishFrame_firm (w : Window N M) {result : Except Stop Unit}
    (hresult : ∀ stop, result = .error stop → stop.passes = false) :
    Firm (K.finishFrame m gid w result) s := by
  unfold GroupKind.finishFrame
  refine .updateSeq (.updateSeq ?_)
  cases result with
  | ok _ => exact .ret ()
  | error stop => exact .fail (hresult stop rfl)

theorem dispatchFrame_endsIn (len : Nat) :
    EndsIn (K.dispatchFrame m gid len) s (K.leaves ⟨s.driver, m, .frame gid len⟩) := by
  unfold GroupKind.leaves GroupKind.dispatchFrame
  rw [endsIn_read]
  dsimp only
  cases s.driver.registry.lookup gid with
  | none => exact fun _ _ h => nomatch h
  | some entry =>
    dsimp only
    cases hrun : (K.handleFrame m len).run (s.driver.lend entry) with
    | error stop w =>
      cases stop with
      | dropped => exact .updateSeq (.fail rfl)
      | failed e =>
        refine finishFrame_firm K m w fun stop hstop => ?_
        cases hstop
        exact handleFrame_firm K m len _ _ _ hrun
    | ok _ w =>
      dsimp only
      unfold GroupKind.settleFails
      cases (K.settle m).run w with
      | ok _ w' => exact finishFrame_firm K m w' fun _ heq => nomatch heq
      | error stop w' => exact ⟨_, rfl⟩

theorem tickGroup_endsIn (now : Nat) :
    EndsIn (K.tickGroup m gid now) s (K.leaves ⟨s.driver, m, .tick gid now⟩) := by
  unfold GroupKind.leaves GroupKind.tickGroup
  rw [endsIn_read]
  dsimp only
  rcases s.driver.registry.lookup gid with _ | entry
  · exact .ret ()
  rcases s.driver.timers.lookup gid with _ | t
  · exact .ret ()
  refine .seq ?_ fun _ s' => ?_
  · unfold GroupKind.beatIfDue
    by_cases hdue : t.nextHeartbeatAt ≤ now
    · by_cases hlead : K.isLeader entry.node.core = true
      · simp only [hdue, hlead, and_self, ↓reduceIte]
        exact heartbeatTick_endsIn K m
      · simp only [hdue, hlead, ↓reduceIte]
        exact .updateSeq (.ret ())
    · simp only [hdue, false_and, ↓reduceIte]
      exact .ret ()
  · unfold GroupKind.campaignIfDue
    split
    · exact .updateSeq (electionTick_firm K m _)
    · exact .ret ()

/-- Nothing but the errors of `leaves` leaves an event that could be passed over, and they do. -/
theorem perform_endsIn (event : DriverEvent) :
    EndsIn (K.perform m event) s (K.leaves ⟨s.driver, m, event⟩) := by
  cases event with
  | frame gid len => exact dispatchFrame_endsIn K m len
  | tick gid now => exact tickGroup_endsIn K m now

end Events

theorem perform_ok_contained {m : Moment E} {event : DriverEvent} {s s' : DriverRun N M E}
    {a : Unit} (h : K.perform m event s = .ok a s') : K.Contained ⟨s.driver, m, event⟩ := by
  have hends := perform_endsIn K m event (s := s)
  intro stop hstop
  rw [hstop] at hends
  obtain ⟨t, ht⟩ := hends
  rw [h] at ht
  cases ht

theorem perform_error_contained {m : Moment E} {event : DriverEvent} {s s' : DriverRun N M E}
    {stop : Stop} (h : K.perform m event s = .error stop s') :
    K.Contained ⟨s.driver, m, event⟩ ↔ stop.passes = false := by
  have hends := perform_endsIn K m event (s := s)
  unfold GroupKind.Contained
  cases hleaves : K.leaves ⟨s.driver, m, event⟩ with
  | none =>
    rw [hleaves] at hends
    exact ⟨fun _ => hends stop s' h, fun _ _ heq => nomatch heq⟩
  | some stop' =>
    rw [hleaves] at hends
    obtain ⟨t, ht⟩ := hends
    rw [h] at ht
    injection ht with heq
    rw [heq]
    exact ⟨fun hall => hall stop' rfl, fun hpass _ hsame => Option.some.inj hsame ▸ hpass⟩

/-! ## What a call has to service -/

/-- A frame for a group, or the due timers of a group. -/
inductive Task where
  | frame (gid : UInt64) (bytes : List UInt8)
  | timers (gid : UInt64)
deriving DecidableEq, Repr

def Task.gid : Task → UInt64
  | frame gid _ => gid
  | timers gid => gid

/-- The task of an event that was taken up. -/
def Serviced.task (x : Serviced N M E) : Task :=
  match x.event with
  | .frame gid len => .frame gid (x.before.scratch.inbound.bytes.take len)
  | .tick gid _ => .timers gid

/-- The first `room` of the parked frames: one of each group in the queue, and again. -/
def DemuxShared.parked : Nat → DemuxShared → List Task
  | 0, _ => []
  | room + 1, s =>
    if s.pending = 0 then []
    else
      match DemuxShared.nextReady s.inboxes s.ready with
      | none => []
      | some (gid, p, rest, ready) =>
        .frame gid p.frame ::
          parked room (s.take gid p rest (if rest.isEmpty then ready else ready ++ [gid]))

/-- The frames that receive calls bring, up to the first call that brings none. -/
def arrivals : List (Except Stop (Option RawFrame)) → List RawFrame
  | .ok (some frame) :: answers => frame :: arrivals answers
  | _ => []

/-- A frame too short to name a group is nobody's. -/
def RawFrame.task? (frame : RawFrame) : Option Task :=
  (frameGroup frame.bytes).map fun gid => .frame gid frame.bytes

namespace TickInput

variable (input : TickInput E)

/-- The burst, with room for `room` frames. -/
def burstFrames (room : Nat) : List RawFrame := (arrivals input.burst).take room

/-- The frame that an idle call waits for. -/
def idleFrames (processed : Nat) (timers : AList fun _ : UInt64 => GroupTimers) : List RawFrame :=
  if processed ≠ 0 ∨ input.maxWait = 0 ∨ GroupKind.idleWait input timers = 0 then []
  else arrivals [input.idle]

/-- The frames that are there for a call: those parked, those the transport has at once, and
one more if there are none. -/
def frames (d : MultiRaftDriver N M) : List Task :=
  let parked := d.demux.parked ArbitroRaft.burstFrames
  let burst := input.burstFrames (ArbitroRaft.burstFrames - parked.length)
  parked ++ (burst.filterMap RawFrame.task? ++
    (input.idleFrames (parked.length + burst.length) d.timers).filterMap RawFrame.task?)

end TickInput

section Agenda

variable (d : MultiRaftDriver N M) (input : TickInput E)

/-- The events that a call of `run_once` takes up. -/
def GroupKind.services : List (Serviced N M E) := (K.run d (.runOnce input)).serviced

/-- The timers before the first event of `new`, which were taken up until `s`. -/
def timersBefore (new : List (Serviced N M E)) (s : DriverRun N M E) :
    AList fun _ : UInt64 => GroupTimers :=
  (new.head?.map fun x => x.before.timers).getD s.driver.timers

/-- The groups with a timer due behind the frames, or where the call left them. -/
def GroupKind.due : List UInt64 :=
  GroupKind.dueGroups input
    (timersBefore ((K.services d input).drop (input.frames d).length) (K.run d (.runOnce input)))

/-- What a call of `run_once` has to service. -/
def GroupKind.agenda : List Task := input.frames d ++ (K.due d input).map .timers

/-- The call ends in a fatal error, or is dropped. -/
def GroupKind.Halts : Prop :=
  ∃ stop s, K.runOnce input ⟨d, [], []⟩ = .error stop s ∧ stop.passes = false

/-- Nothing is left undone but for the group that was serviced last, unless the call halts. -/
def GroupKind.ServicesOthers : Prop :=
  K.Halts d input ∨ ∀ task ∈ (K.agenda d input).drop (K.services d input).length,
    ∃ x ∈ (K.services d input).getLast?, task.gid = x.event.gid

/-- An error that leaves the call and is not fatal comes when nothing of another group is left
to service. -/
def GroupKind.FailsLast : Prop :=
  ∀ front x back, K.services d input = front ++ x :: back → ¬ K.Contained x →
    ∀ task ∈ (K.agenda d input).drop (front.length + 1), task.gid = x.event.gid

end Agenda

/-! ## Working through it -/

/-- `new` was taken up between `s` and `s'`. -/
structure DriverRun.Adds (new : List (Serviced N M E)) (s s' : DriverRun N M E) : Prop where
  serviced : s'.serviced = s.serviced ++ new
  timers : timersBefore new s' = s.driver.timers

namespace DriverRun.Adds

variable {new new' : List (Serviced N M E)} {s s' s'' : DriverRun N M E}

theorem nothing (hserviced : s'.serviced = s.serviced)
    (htimers : s'.driver.timers = s.driver.timers) : DriverRun.Adds [] s s' :=
  ⟨by rw [hserviced, List.append_nil], htimers⟩

theorem trans (h : DriverRun.Adds new s s') (h' : DriverRun.Adds new' s' s'') :
    DriverRun.Adds (new ++ new') s s'' where
  serviced := by rw [h'.serviced, h.serviced, List.append_assoc]
  timers := by
    cases new with
    | nil => exact h'.timers.trans h.timers
    | cons x rest => exact h.timers

end DriverRun.Adds

/-- From `s`, the part of a call services `todo`.  It leaves before the end on a fatal error, or
at the first event that is not contained. -/
def GroupKind.Proceeds {A : Type} (c : DriverM N M E A) (s : DriverRun N M E) (todo : List Task)
    (Q : A → DriverRun N M E → Prop) : Prop :=
  match c s with
  | .ok a s' => ∃ new, s.Adds new s' ∧ new.map Serviced.task = todo ∧
      (∀ x ∈ new, K.Contained x) ∧ Q a s'
  | .error stop s' => ∃ new, s.Adds new s' ∧ new.map Serviced.task <+: todo ∧
      ((stop.passes = false ∧ ∀ x ∈ new, K.Contained x) ∨
        (stop.passes = true ∧
          ∃ front x, new = front ++ [x] ∧ (∀ y ∈ front, K.Contained y) ∧ ¬ K.Contained x))

namespace GroupKind.Proceeds

variable {K} {A B : Type} {s : DriverRun N M E} {todo todo' : List Task}
  {Q : A → DriverRun N M E → Prop}

variable {c : DriverM N M E A}

/-- A step that services nothing and leaves the timers. -/
theorem step {a : A} {s' : DriverRun N M E} (h : c s = .ok a s')
    (hserviced : s'.serviced = s.serviced) (htimers : s'.driver.timers = s.driver.timers)
    (hQ : Q a s') : K.Proceeds c s [] Q := by
  unfold GroupKind.Proceeds
  rw [h]
  exact ⟨[], .nothing hserviced htimers, rfl, fun _ hx => (nomatch hx), hQ⟩

theorem ret {a : A} (hQ : Q a s) : K.Proceeds (pure a) s [] Q := step rfl rfl rfl hQ

theorem fail {stop : Stop} (hstop : stop.passes = false) :
    K.Proceeds (throw stop : DriverM N M E A) s todo Q :=
  ⟨[], .nothing rfl rfl, List.nil_prefix, .inl ⟨hstop, fun _ hx => nomatch hx⟩⟩

/-- One part and the next; if the first services nothing, the timers are as before. -/
theorem seq {P : B → DriverRun N M E → Prop} {c : DriverM N M E B} {f : B → DriverM N M E A}
    (h : K.Proceeds c s todo P)
    (k : ∀ b s', c s = .ok b s' → P b s' →
      (todo = [] → s'.driver.timers = s.driver.timers) → K.Proceeds (f b) s' todo' Q) :
    K.Proceeds (c >>= f) s (todo ++ todo') Q := by
  unfold GroupKind.Proceeds at h
  cases hc : c s with
  | error stop s' =>
    rw [hc] at h
    obtain ⟨new, hadds, hnew, hend⟩ := h
    unfold GroupKind.Proceeds
    rw [bind_of_error hc]
    exact ⟨new, hadds, hnew.trans (List.prefix_append _ _), hend⟩
  | ok b s' =>
    rw [hc] at h
    obtain ⟨new, hadds, hnew, hclean, hP⟩ := h
    have hk := k b s' hc hP fun hnil => by
      rw [List.map_eq_nil_iff.mp (hnew.trans hnil)] at hadds
      exact hadds.timers
    unfold GroupKind.Proceeds at hk ⊢
    rw [bind_of_ok hc]
    cases hf : f b s' with
    | ok a s'' =>
      rw [hf] at hk
      obtain ⟨new', hadds', hnew', hclean', hQ⟩ := hk
      refine ⟨new ++ new', hadds.trans hadds', ?_, List.forall_mem_append.mpr ⟨hclean, hclean'⟩, hQ⟩
      rw [List.map_append, hnew, hnew']
    | error stop s'' =>
      rw [hf] at hk
      obtain ⟨new', hadds', hnew', hend⟩ := hk
      refine ⟨new ++ new', hadds.trans hadds', ?_, ?_⟩
      · rw [List.map_append, hnew]
        exact (List.prefix_append_right_inj todo).mpr hnew'
      · rcases hend with ⟨hstop, hclean'⟩ | ⟨hstop, front, x, rfl, hfront, hx⟩
        · exact .inl ⟨hstop, List.forall_mem_append.mpr ⟨hclean, hclean'⟩⟩
        · exact .inr ⟨hstop, new ++ front, x, (List.append_assoc ..).symm,
            List.forall_mem_append.mpr ⟨hclean, hfront⟩, hx⟩

theorem mono {Q' : A → DriverRun N M E → Prop} (h : K.Proceeds c s todo Q')
    (hQ : ∀ a s', Q' a s' → Q a s') : K.Proceeds c s todo Q := by
  unfold GroupKind.Proceeds at h ⊢
  cases hc : c s with
  | ok a s' =>
    rw [hc] at h
    obtain ⟨new, hadds, hnew, hclean, hQ'⟩ := h
    exact ⟨new, hadds, hnew, hclean, hQ a s' hQ'⟩
  | error stop s' =>
    rw [hc] at h
    exact h

theorem read {f : DriverRun N M E → DriverM N M E A} (k : K.Proceeds (f s) s todo Q) :
    K.Proceeds (get >>= f) s todo Q := k

/-- What follows services nothing. -/
theorem close {P : B → DriverRun N M E → Prop} {c : DriverM N M E B} {f : B → DriverM N M E A}
    (h : K.Proceeds c s todo P) (k : ∀ b s', P b s' → K.Proceeds (f b) s' [] Q) :
    K.Proceeds (c >>= f) s todo Q :=
  List.append_nil todo ▸ h.seq fun b s' _ hP _ => k b s' hP

theorem adds (h : K.Proceeds c s todo Q) : ∃ new, s.Adds new (final (c s)) := by
  unfold GroupKind.Proceeds at h
  cases hc : c s <;> rw [hc] at h <;> exact ⟨h.choose, h.choose_spec.1⟩

end GroupKind.Proceeds

section Calls

variable (input : TickInput E)

/-- An event is taken up, and a frame leaves the parked ones alone. -/
theorem serve_proceeds (event : DriverEvent) (s : DriverRun N M E) :
    K.Proceeds (K.serve input event) s
      [Serviced.task ⟨s.driver, input.moment s.serviced.length, event⟩]
      fun _ s' => ∀ gid len, event = .frame gid len → s'.driver.demux = s.driver.demux := by
  generalize hm : input.moment s.serviced.length = m
  have hrun : K.serve input event s = K.perform m event (s.record m event) := by
    rw [← hm]
    rfl
  have hconfined := Ends.of_emits (perform_confined K m event (s.record m event))
  unfold GroupKind.Proceeds
  rw [hrun]
  cases hperform : K.perform m event (s.record m event) with
  | ok a s' =>
    refine ⟨[⟨s.driver, m, event⟩], ⟨(hconfined.of_ok hperform).1.serviced, rfl⟩, rfl, ?_, ?_⟩
    · exact List.forall_mem_singleton.mpr
        (perform_ok_contained K (s := s.record m event) hperform)
    · rintro gid len rfl
      exact (dispatchFrame_demux K m len (s := s.record m _)).of_ok hperform
  | error stop s' =>
    have hcontained := perform_error_contained K (s := s.record m event) hperform
    refine ⟨[⟨s.driver, m, event⟩], ⟨(hconfined.of_error hperform).serviced, rfl⟩,
      List.prefix_rfl, ?_⟩
    cases hpass : stop.passes with
    | false => exact .inl ⟨rfl, List.forall_mem_singleton.mpr (hcontained.mpr hpass)⟩
    | true =>
      refine .inr ⟨rfl, [], _, rfl, fun _ hy => (nomatch hy), fun hx => ?_⟩
      exact absurd (hpass.symm.trans (hcontained.mp hx)) nofun

/-- The inbound buffer has room for every parked frame. -/
theorem popParkedInto_parked (s : DemuxShared) (buf : FrameBuf) :
    ((s.popParkedInto buf.bytes).1.1 = .ok none ∧ ∀ room, DemuxShared.parked room s = []) ∨
      ∃ gid len, (s.popParkedInto buf.bytes).1.1 = .ok (some (gid, len)) ∧
        ∀ room, DemuxShared.parked (room + 1) s =
          .frame gid ((s.popParkedInto buf.bytes).1.2.take len) ::
            DemuxShared.parked room (s.popParkedInto buf.bytes).2 := by
  have hnone : ∀ room, (s.pending = 0 ∨ DemuxShared.nextReady s.inboxes s.ready = none) →
      DemuxShared.parked room s = [] := by
    intro room hempty
    cases room with
    | zero => rfl
    | succ room =>
      unfold DemuxShared.parked
      rcases hempty with hzero | hnext
      · rw [if_pos hzero]
      · rw [hnext, ite_self]
  unfold DemuxShared.popParkedInto
  split
  · rename_i hzero
    exact .inl ⟨rfl, fun room => hnone room (.inl hzero)⟩
  · rename_i hzero
    split
    · rename_i hnext
      exact .inl ⟨rfl, fun room => hnone room (.inr hnext)⟩
    · rename_i gid p rest ready hnext
      rcases Routed.copyTo_cases p buf.bytes with ⟨-, hsmall⟩ | ⟨out, hcopy, hbytes⟩
      · rw [buf.size, p.length_frame] at hsmall
        exact absurd p.fits (Nat.not_le.mpr hsmall)
      · refine .inr ⟨gid, p.len, ?_, fun room => ?_⟩
        · simp only [hcopy]
          rfl
        · rw [DemuxShared.parked.eq_def]
          simp only [if_neg hzero, hnext, hcopy, hbytes]

theorem drainParked_proceeds (room : Nat) (s : DriverRun N M E) :
    K.Proceeds (K.drainParked input room) s (s.driver.demux.parked room)
      fun n _ => n = (s.driver.demux.parked room).length := by
  induction room generalizing s with
  | zero => exact .ret rfl
  | succ room ih =>
    unfold GroupKind.drainParked
    -- The state behind the pop; only buffers and parked frames differ.
    let popped := s.driver.demux.popParkedInto s.driver.scratch.inbound.bytes
    let out : FrameBuf := ⟨popped.1.2,
      (DemuxShared.length_popParkedInto ..).trans s.driver.scratch.inbound.size⟩
    let s₁ := s.onDriver fun d =>
      { d with demux := popped.2, scratch := { d.scratch with inbound := out } }
    have hpop : ∀ next, popped.1.1 = .ok next → GroupKind.popParked s = .ok next s₁ := by
      intro next hnext
      unfold GroupKind.popParked
      rw [get_bind, set_bind]
      simp only [popped] at hnext
      simp only [hnext]
      rfl
    rcases popParkedInto_parked s.driver.demux s.driver.scratch.inbound with
      ⟨hnone, hparked⟩ | ⟨gid, len, hsome, hparked⟩
    · rw [hparked]
      have hstep : K.Proceeds GroupKind.popParked s [] fun next _ => next = none :=
        .step (hpop none hnone) rfl rfl rfl
      refine hstep.close fun next s' hnext => ?_
      rw [hnext]
      exact .ret rfl
    · rw [hparked]
      have hstep : K.Proceeds GroupKind.popParked s [] fun next s' =>
          next = some (gid, len) ∧ s' = s₁ :=
        .step (hpop _ hsome) rfl rfl ⟨rfl, rfl⟩
      refine hstep.seq fun next s' _ hnext _ => ?_
      obtain ⟨rfl, rfl⟩ := hnext
      refine (serve_proceeds K input (.frame gid len) s₁).seq fun _ s' _ hdemux _ => ?_
      have hrest := ih s'
      rw [show s'.driver.demux = popped.2 from hdemux gid len rfl] at hrest
      exact hrest.close fun n _ hn => .ret (by rw [hn]; rfl)

theorem routeRaw_proceeds (frame : RawFrame) {s : DriverRun N M E}
    (hin : s.driver.scratch.inbound.bytes.take frame.bytes.length = frame.bytes) :
    K.Proceeds (K.routeRaw input frame.bytes.length) s frame.task?.toList fun _ _ => True := by
  unfold GroupKind.routeRaw RawFrame.task?
  refine .read ?_
  rw [hin]
  cases hgroup : frameGroup frame.bytes with
  | none => exact .step rfl rfl rfl trivial
  | some gid =>
    have hserve : K.Proceeds (K.serve input (.frame gid frame.bytes.length)) s
        [.frame gid (s.driver.scratch.inbound.bytes.take frame.bytes.length)] _ :=
      serve_proceeds K input _ s
    rw [hin] at hserve
    exact hserve.mono fun _ _ _ => trivial

/-- A frame that a receive call brought, and what follows. -/
theorem receive_proceeds {A : Type} (frame : RawFrame) {f : DriverM N M E A} {s : DriverRun N M E}
    {rest : List Task} {Q : A → DriverRun N M E → Prop} (k : ∀ s', K.Proceeds f s' rest Q) :
    K.Proceeds (do
      GroupKind.store frame
      K.routeRaw input frame.bytes.length
      f) s (frame.task?.toList ++ rest) Q := by
  have hstore : K.Proceeds (GroupKind.store frame) s [] fun _ s' =>
      s'.driver.scratch.inbound.bytes.take frame.bytes.length = frame.bytes :=
    .step rfl rfl rfl List.take_left
  exact hstore.seq fun _ s' _ hin _ =>
    (routeRaw_proceeds K input frame hin).seq fun _ s'' _ _ _ => k s''

theorem receiveFails_proceeds (stop : Stop) (s : DriverRun N M E) :
    K.Proceeds (if stop.passes then pure 0 else throw stop) s [] fun n _ => n = 0 := by
  split
  · exact .ret rfl
  · rename_i hpass
    exact .fail (Bool.eq_false_iff.mpr hpass)

theorem filterMap_task (frame : RawFrame) (frames : List RawFrame) :
    (frame :: frames).filterMap RawFrame.task? =
      frame.task?.toList ++ frames.filterMap RawFrame.task? := by
  rw [List.filterMap_cons]
  cases frame.task? <;> rfl

theorem drainBurst_proceeds (room : Nat) (answers : List (Except Stop (Option RawFrame)))
    (s : DriverRun N M E) :
    K.Proceeds (K.drainBurst input room answers) s
      (((arrivals answers).take room).filterMap RawFrame.task?)
      fun n _ => n = ((arrivals answers).take room).length := by
  induction room generalizing answers s with
  | zero => exact .ret rfl
  | succ room ih =>
    match answers with
    | [] => exact .ret rfl
    | .ok none :: _ => exact .ret rfl
    | .error stop :: _ => exact receiveFails_proceeds K stop s
    | .ok (some frame) :: answers =>
      show K.Proceeds _ s ((frame :: (arrivals answers).take room).filterMap _) _
      rw [filterMap_task]
      exact receive_proceeds K input frame fun s' =>
        (ih answers s').close fun n _ hn => .ret (by rw [hn]; rfl)

theorem awaitOne_proceeds (processed : Nat) (s : DriverRun N M E) :
    K.Proceeds (K.awaitOne input processed) s
      ((input.idleFrames processed s.driver.timers).filterMap RawFrame.task?)
      fun _ _ => True := by
  unfold GroupKind.awaitOne TickInput.idleFrames
  refine .read ?_
  split
  · exact .ret trivial
  · cases input.idle with
    | error stop => exact (receiveFails_proceeds K stop s).mono fun _ _ _ => trivial
    | ok answer =>
      cases answer with
      | none => exact .ret trivial
      | some frame =>
        show K.Proceeds _ s ([frame].filterMap _) _
        rw [filterMap_task]
        exact receive_proceeds K input frame fun _ => .ret trivial

theorem tickAll_proceeds (due : List UInt64) (s : DriverRun N M E) :
    K.Proceeds (K.tickAll input due) s (due.map .timers) fun _ _ => True := by
  induction due generalizing s with
  | nil => exact .ret trivial
  | cons gid rest ih =>
    exact (serve_proceeds K input (.tick gid input.timersNow) s).seq fun _ s' _ _ _ => ih s'

theorem tickTimers_proceeds (s : DriverRun N M E) :
    K.Proceeds (K.tickTimers input) s
      ((GroupKind.dueGroups input s.driver.timers).map .timers) fun _ _ => True := by
  have hdue : K.Proceeds (modify fun s => s.onDriver fun d =>
      { d with dueScratch := GroupKind.dueGroups input d.timers }) s [] fun _ s' =>
        s'.driver.dueScratch = GroupKind.dueGroups input s.driver.timers :=
    .step rfl rfl rfl rfl
  refine hdue.seq fun _ s' _ hs' _ => .read ?_
  rw [← hs']
  exact tickAll_proceeds K input _ s'

theorem receiveFrames_proceeds (s : DriverRun N M E) :
    K.Proceeds (K.receiveFrames input) s (input.frames s.driver) fun _ _ => True := by
  have hresident : K.Proceeds GroupKind.ensureResident s [] fun _ s' =>
      s'.driver.demux = s.driver.demux := .step rfl rfl rfl rfl
  refine hresident.seq fun _ s₁ _ hdemux htimers₁ => ?_
  rw [← hdemux]
  refine (drainParked_proceeds K input _ s₁).seq fun parked s₂ _ hparked htimers₂ => ?_
  subst hparked
  refine (drainBurst_proceeds K input _ _ s₂).seq fun burst s₃ _ hburst htimers₃ => ?_
  have hidle := awaitOne_proceeds K input
    ((s₁.driver.demux.parked burstFrames).length + burst) s₃
  have htimers : (s₁.driver.demux.parked burstFrames).length + burst = 0 →
      s₃.driver.timers = s.driver.timers := by
    intro hzero
    obtain ⟨hnone, rfl⟩ := Nat.add_eq_zero_iff.mp hzero
    rw [htimers₃ (by rw [List.length_eq_zero_iff.mp hburst.symm]; rfl),
      htimers₂ (List.length_eq_zero_iff.mp hnone), htimers₁ rfl]
  have hsame : input.idleFrames ((s₁.driver.demux.parked burstFrames).length + burst)
      s₃.driver.timers = input.idleFrames
        ((s₁.driver.demux.parked burstFrames).length + burst) s.driver.timers := by
    unfold TickInput.idleFrames
    by_cases hzero : (s₁.driver.demux.parked burstFrames).length + burst = 0
    · rw [htimers hzero]
    · rw [if_pos (.inl hzero), if_pos (.inl hzero)]
  rw [hsame, hburst] at hidle
  rw [hburst]
  exact hidle.close fun _ _ _ => .ret trivial

/-- A call works through its agenda. -/
theorem runOnce_proceeds (d : MultiRaftDriver N M) :
    K.Proceeds (K.runOnce input) ⟨d, [], []⟩ (K.agenda d input) fun _ _ => True := by
  have hframes := receiveFrames_proceeds K input ⟨d, [], []⟩
  refine hframes.seq fun n s hrun _ _ => ?_
  have hticks : K.Proceeds (do K.tickTimers input; return n) s
      ((GroupKind.dueGroups input s.driver.timers).map .timers) fun _ _ => True :=
    (tickTimers_proceeds K input s).close fun _ _ _ => .ret trivial
  -- The timers behind the frames are those before the first tick.
  have hdue : K.due d input = GroupKind.dueGroups input s.driver.timers := by
    unfold GroupKind.Proceeds at hframes
    rw [hrun] at hframes
    obtain ⟨new, hadds, hnew, -⟩ := hframes
    obtain ⟨new', hadds'⟩ := hticks.adds
    have hfinal : K.run d (.runOnce input) =
        final ((do K.tickTimers input; return n : DriverM N M E Nat) s) := by
      show final (K.runOnce input ⟨d, [], []⟩) = _
      unfold GroupKind.runOnce
      rw [bind_of_ok hrun]
    have hservices : K.services d input = new ++ new' := by
      unfold GroupKind.services
      rw [hfinal, hadds'.serviced, hadds.serviced]
      rfl
    unfold GroupKind.due
    rw [hservices, ← hnew, List.length_map, List.drop_left, hfinal, hadds'.timers]
  rw [hdue]
  exact hticks

end Calls

/-! ## Isolation -/

section Isolation

variable (d : MultiRaftDriver N M) (input : TickInput E)

/-- How far a call gets. -/
theorem services_ends : (K.services d input).map Serviced.task <+: K.agenda d input ∧
    (((K.Halts d input ∨ (K.services d input).map Serviced.task = K.agenda d input) ∧
        ∀ x ∈ K.services d input, K.Contained x) ∨
      (¬ K.Halts d input ∧ ∃ front x, K.services d input = front ++ [x] ∧
        (∀ y ∈ front, K.Contained y) ∧ ¬ K.Contained x)) := by
  have hrun := runOnce_proceeds K input d
  unfold GroupKind.Proceeds at hrun
  have hservices : K.services d input = (final (K.runOnce input ⟨d, [], []⟩)).serviced := rfl
  unfold GroupKind.Halts
  cases hc : K.runOnce input ⟨d, [], []⟩ with
  | ok n s =>
    rw [hc] at hrun hservices
    obtain ⟨new, hadds, hnew, hclean, -⟩ := hrun
    obtain rfl : K.services d input = new := hservices.trans hadds.serviced
    exact ⟨hnew ▸ List.prefix_rfl, .inl ⟨.inr hnew, hclean⟩⟩
  | error stop s =>
    rw [hc] at hrun hservices
    obtain ⟨new, hadds, hnew, hend⟩ := hrun
    obtain rfl : K.services d input = new := hservices.trans hadds.serviced
    refine ⟨hnew, hend.imp (fun h => ⟨.inl ⟨stop, s, rfl, h.1⟩, h.2⟩) fun h => ⟨?_, h.2⟩⟩
    rintro ⟨_, _, heq, hfatal⟩
    cases heq
    exact absurd (h.1.symm.trans hfatal) nofun

theorem servicesOthers_iff : K.ServicesOthers d input ↔ K.FailsLast d input := by
  unfold GroupKind.ServicesOthers GroupKind.FailsLast
  rcases (services_ends K d input).2 with ⟨hend, hclean⟩ | ⟨hgoes, front, x, heq, hfront, hx⟩
  · refine ⟨fun _ front x back hcut hx => ?_, fun _ => hend.imp id fun hall => ?_⟩
    · exact absurd (hclean x (hcut ▸ List.mem_append_right _ List.mem_cons_self)) hx
    · rw [← hall, List.drop_of_length_le (Nat.le_of_eq (List.length_map _))]
      exact fun _ ht => nomatch ht
  · rw [heq]
    constructor
    · intro hothers front' x' back hcut hx'
      -- The event that is not contained is the last.
      rcases List.eq_nil_or_concat back with rfl | ⟨most, y, rfl⟩
      · obtain ⟨rfl, hone⟩ := List.append_inj' hcut rfl
        obtain rfl := (List.cons.inj hone).1
        intro task htask
        obtain ⟨z, hz, hgid⟩ := hothers.resolve_left hgoes task (by rwa [List.length_append])
        rw [List.getLast?_concat] at hz
        exact Option.some.inj hz ▸ hgid
      · rw [List.concat_eq_append, ← List.cons_append, ← List.append_assoc] at hcut
        obtain ⟨rfl, -⟩ := List.append_inj' hcut rfl
        exact absurd (hfront x' (List.mem_append_right _ List.mem_cons_self)) hx'
    · intro hlast
      refine .inr fun task htask => ⟨x, List.getLast?_concat .., hlast front x [] rfl hx task ?_⟩
      rwa [List.length_append] at htask

variable {d input}

/-- A call that leaves at its first event with a task of another group to do. -/
theorem not_servicesOthers (gid : UInt64) (stop : Stop) (task : Task)
    (hleaves : (K.services d input).map (fun x => (x.event.gid, K.leaves x)) = [(gid, some stop)])
    (hstop : stop.passes = true) (hleft : task ∈ (K.agenda d input).drop 1)
    (hother : task.gid ≠ gid) : ¬ K.ServicesOthers d input := by
  intro hothers
  obtain ⟨x, hx, hpair⟩ := List.map_eq_singleton_iff.mp hleaves
  obtain ⟨rfl, hstops⟩ := Prod.mk.inj hpair
  refine hother ((servicesOthers_iff K d input).mp hothers [] x [] hx (fun hcontained => ?_)
    task hleft)
  exact absurd (hstop.symm.trans (hcontained stop hstops)) nofun

end Isolation

/-- A frame changes its own group only, a group is handed its own frames and holds no buffers
between two calls.  A call works through its agenda, and an error that is not fatal of
`try_advance_commit_index`, `apply_group` or an abdication takes what is left of it for the
other groups. -/
theorem groups_isolated_iff (K : GroupKind N M E) :
    (∀ (m : Moment E) gid len (s : DriverRun N M E),
      s.Spares gid (final (K.dispatchFrame m gid len s)) ∧
      (final (K.dispatchFrame m gid len s)).driver.demux = s.driver.demux) ∧
    (∀ d, K.Reached d → ∀ call : DriverCall N M E,
      (∀ p ∈ (K.run d call).handed, frameGroup p.2 = some p.1 ∧
        ∀ inbound, decodeMessage p.2 = .ok inbound → inbound.groupId = p.1) ∧
      ∀ gid entry, (K.run d call).driver.registry.lookup gid = some entry →
        entry.node.scratch = .empty) ∧
    ∀ d (input : TickInput E),
      (K.services d input).map Serviced.task <+: K.agenda d input ∧
      (K.ServicesOthers d input ↔ K.FailsLast d input) := by
  refine ⟨fun m gid len s => ?_, fun d hd call => ?_, fun d input => ⟨?_, ?_⟩⟩
  · have hconfined := Ends.of_emits (perform_confined K m (.frame gid len) s)
    have hparked : Ends (K.dispatchFrame m gid len) s _ _ := dispatchFrame_demux K m len
    cases hrun : K.dispatchFrame m gid len s with
    | ok a s' => exact ⟨(hconfined.of_ok hrun).1.spares, hparked.of_ok hrun⟩
    | error stop s' => exact ⟨(hconfined.of_error hrun).spares, hparked.of_error hrun⟩
  · have hfair := run_fair K (hd.fair K) call
    refine ⟨fun p hp => ?_, fun gid entry hentry => hfair.tidy gid entry hentry⟩
    have hgroup := hfair.handed p hp
    refine ⟨hgroup, fun inbound hdecode => ?_⟩
    exact Option.some.inj ((frameGroup_of_decode hdecode).symm.trans hgroup)
  · exact (services_ends K d input).1
  · exact servicesOthers_iff K d input

end ArbitroRaft
