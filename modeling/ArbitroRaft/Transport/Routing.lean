import ArbitroRaft.Transport.Demux
import Mathlib.Data.List.TakeWhile

/-!
# What becomes of parked frames

`History` remembers, group by group, which frames were parked and how they left,
as far as the callers of the demultiplexer can tell.  `Routed` ties it to the
shared state: what was parked is what left, in this order, followed by what lies
in the inbox.

The queue of ready groups may name a group twice or one that has nothing left;
all that is needed of it is that a group with a frame is somewhere in it.

## Main results

* `demux_routes`: this, after any operations, and the counters.
-/

namespace ArbitroRaft

open Library Wire

inductive DemuxOp where
  | register (gid : UInt64)
  | unregister (gid : UInt64)
  | park (gid : UInt64) (frame : List UInt8)
  | tryPopInto (gid : UInt64) (out : List UInt8)
  | popParkedInto (out : List UInt8)
deriving DecidableEq, Repr

/-- How a parked frame left its inbox. -/
inductive Departure where
  /-- A pop returned it; these are the bytes in the caller's buffer. -/
  | delivered (bytes : List UInt8)
  /-- A pop with room for `room` bytes dropped it and returned the error. -/
  | dropped (error : RaftError) (frame : List UInt8) (room : Nat)
  /-- Its group was unregistered. -/
  | unregistered (frame : List UInt8)

namespace Departure

def frame : Departure → List UInt8
  | delivered bytes => bytes
  | dropped _ frame _ => frame
  | unregistered frame => frame

/-- A frame is dropped for want of room only, and the caller is told. -/
def Justified : Departure → Prop
  | dropped error frame room => error = recvBufferTooSmall ∧ room < frame.length
  | _ => True

end Departure

structure History where
  parked : UInt64 → List (List UInt8)
  gone : UInt64 → List Departure
  /-- Frames that were too large or for a group nobody registered. -/
  unknown : Nat
  /-- Frames for a full inbox. -/
  overflow : Nat

namespace History

def empty : History := ⟨fun _ => [], fun _ => [], 0, 0⟩

def arrive (h : History) (gid : UInt64) (frame : List UInt8) : History :=
  { h with parked := Function.update h.parked gid (h.parked gid ++ [frame]) }

def leave (h : History) (gid : UInt64) (ds : List Departure) : History :=
  { h with gone := Function.update h.gone gid (h.gone gid ++ ds) }

end History

namespace DemuxShared

/-- The frames parked for a group, oldest first. -/
def contents (s : DemuxShared) (gid : UInt64) : List (List UInt8) :=
  ((s.inboxes.lookup gid).getD []).map ParkedFrame.frame

def perform (s : DemuxShared) : DemuxOp → DemuxShared
  | .register gid => s.register gid
  | .unregister gid => s.unregister gid
  | .park gid frame => s.park gid frame
  | .tryPopInto gid out => (s.tryPopInto gid out).2
  | .popParkedInto out => (s.popParkedInto out).2

/-- All frames that are parked. -/
def total (s : DemuxShared) : Nat := weigh List.length s.inboxes

end DemuxShared

/-- What the caller of an operation sees of it. -/
def History.record (h : History) (s : DemuxShared) : DemuxOp → History
  | .register _ => h
  | .unregister gid => h.leave gid ((s.contents gid).map .unregistered)
  | .park gid frame =>
    if maxFrameSize < frame.length ∨ gid ∉ s.inboxes then { h with unknown := h.unknown + 1 }
    else if maxInboxFrames ≤ (s.contents gid).length then { h with overflow := h.overflow + 1 }
    else h.arrive gid frame
  | .tryPopInto gid out =>
    match (s.tryPopInto gid out).1 with
    | (.ok none, _) => h
    | (.ok (some len), out') => h.leave gid [.delivered (out'.take len)]
    | (.error e, _) => h.leave gid [.dropped e ((s.contents gid).headD []) out.length]
  | .popParkedInto out =>
    match (s.popParkedInto out).1 with
    | (.ok none, _) => h
    | (.ok (some (gid, len)), out') => h.leave gid [.delivered (out'.take len)]
    | (.error e, _) =>
      -- The caller does not learn whose frame it was.
      match s.ready.find? s.occupied with
      | none => h
      | some gid => h.leave gid [.dropped e ((s.contents gid).headD []) out.length]

/-- A sequence of operations on a new demultiplexer. -/
def runDemux (ops : List DemuxOp) : History × DemuxShared :=
  ops.foldl (fun (h, s) op => (h.record s op, s.perform op)) (.empty, .new)

/-! ## Frames and inboxes -/

theorem ParkedFrame.length_frame (p : ParkedFrame) : p.frame.length = p.len := by
  unfold frame
  rw [List.length_take, p.data.size, Nat.min_eq_left p.fits]

theorem frame_write (buf : FrameBuf) (frame : List UInt8) (h : frame.length ≤ maxFrameSize) :
    ParkedFrame.frame ⟨buf.write frame h, frame.length, h⟩ = frame :=
  List.take_left

namespace DemuxShared

variable {s : DemuxShared} {gid : UInt64} {p : ParkedFrame} {rest : List ParkedFrame}

theorem contents_of_lookup {inbox : List ParkedFrame} (h : s.inboxes.lookup gid = some inbox) :
    s.contents gid = inbox.map ParkedFrame.frame := by
  unfold contents
  rw [h, Option.getD_some]

theorem contents_of_none (h : s.inboxes.lookup gid = none) : s.contents gid = [] := by
  unfold contents
  rw [h]
  rfl

theorem occupied_iff : s.occupied gid = true ↔ ∃ p rest, s.inboxes.lookup gid = some (p :: rest) := by
  unfold occupied
  split
  · rename_i p rest h
    exact ⟨fun _ => ⟨p, rest, h⟩, fun _ => rfl⟩
  · rename_i hnone
    constructor
    · intro h
      cases h
    · rintro ⟨p, rest, h⟩
      exact absurd h (hnone p rest)

/-- The loop finds the first group of the queue that has a frame, and drops
nothing but groups that have none. -/
theorem nextReady_eq_none {ready : List UInt64} (h : nextReady s.inboxes ready = none) :
    ∀ g ∈ ready, s.occupied g = false := by
  induction ready with
  | nil => simp
  | cons g ready ih =>
    unfold nextReady at h
    split at h
    · cases h
    · rename_i hfree
      refine List.forall_mem_cons.mpr ⟨?_, ih h⟩
      by_contra hocc
      obtain ⟨p, rest, hlook⟩ := occupied_iff.mp (eq_true_of_ne_false hocc)
      exact hfree p rest hlook

theorem nextReady_eq_some {ready tail : List UInt64}
    (h : nextReady s.inboxes ready = some (gid, p, rest, tail)) :
    s.inboxes.lookup gid = some (p :: rest) ∧ ready.find? s.occupied = some gid ∧
      ∀ g ∈ ready, s.occupied g = true → g = gid ∨ g ∈ tail := by
  induction ready with
  | nil => cases h
  | cons g ready ih =>
    unfold nextReady at h
    split at h
    · rename_i q qs hlook
      injection h with h
      injection h with hg h
      injection h with hp h
      injection h with hrest htail
      subst hg hp hrest htail
      have hocc : s.occupied g = true := occupied_iff.mpr ⟨q, qs, hlook⟩
      refine ⟨hlook, List.find?_cons_of_pos hocc, ?_⟩
      intro g' hg' _
      exact List.mem_cons.mp hg'
    · rename_i hfree
      have hempty : s.occupied g = false := by
        by_contra hocc
        obtain ⟨p, rest, hlook⟩ := occupied_iff.mp (eq_true_of_ne_false hocc)
        exact hfree p rest hlook
      obtain ⟨hlook, hfind, hkeep⟩ := ih h
      refine ⟨hlook, ?_, ?_⟩
      · rw [List.find?_cons_of_neg (by simp [hempty]), hfind]
      · intro g' hg' hocc
        rcases List.mem_cons.mp hg' with rfl | hg'
        · rw [hempty] at hocc
          cases hocc
        · exact hkeep g' hg' hocc

/-- A stale head is the only thing that goes. -/
theorem mem_dropWhile_stale {ready : List UInt64} (hmem : gid ∈ ready)
    (hocc : s.occupied gid = true) : gid ∈ ready.dropWhile fun g => !s.occupied g := by
  rw [← List.takeWhile_append_dropWhile (l := ready) (p := fun g => !s.occupied g)] at hmem
  rcases List.mem_append.mp hmem with hstale | hmem
  · have hfree := List.mem_takeWhile_imp hstale
    rw [hocc] at hfree
    cases hfree
  · exact hmem

end DemuxShared

/-! ## The invariant -/

/-- The history and the shared state belong together. -/
structure Routed (h : History) (s : DemuxShared) : Prop where
  order : ∀ g, h.parked g = (h.gone g).map Departure.frame ++ s.contents g
  justified : ∀ g, ∀ d ∈ h.gone g, d.Justified
  ready : ∀ g, s.occupied g = true → g ∈ s.ready
  pending : s.pending = s.total
  unknown : s.unknownGroup = UInt64.ofNat h.unknown
  overflow : s.overflowDropped = UInt64.ofNat h.overflow

namespace Routed

variable {h : History} {s : DemuxShared} {gid : UInt64} {p : ParkedFrame}
  {rest : List ParkedFrame}

theorem new : Routed .empty .new where
  order _ := rfl
  justified _ _ hd := by cases hd
  ready _ hocc := by cases hocc
  pending := rfl
  unknown := rfl
  overflow := rfl

/-- A frame leaves; what the caller is told names it. -/
theorem take (hr : Routed h s) (hlook : s.inboxes.lookup gid = some (p :: rest))
    {ready : List UInt64}
    (hready : ∀ g, (s.take gid p rest ready).occupied g = true → g ∈ ready)
    {d : Departure} (hd : d.frame = p.frame) (hj : d.Justified) :
    Routed (h.leave gid [d]) (s.take gid p rest ready) where
  order g := by
    unfold History.leave DemuxShared.contents DemuxShared.take
    dsimp only
    by_cases hg : g = gid
    · subst hg
      rw [Function.update_self, AList.lookup_insert, hr.order g,
        DemuxShared.contents_of_lookup hlook, List.map_append, List.append_assoc]
      simp [hd]
    · rw [Function.update_of_ne hg, AList.lookup_insert_ne hg]
      exact hr.order g
  justified g d' hd' := by
    unfold History.leave at hd'
    dsimp only at hd'
    by_cases hg : g = gid
    · subst hg
      rw [Function.update_self] at hd'
      rcases List.mem_append.mp hd' with hd' | hd'
      · exact hr.justified g d' hd'
      · rw [List.mem_singleton.mp hd']
        exact hj
    · rw [Function.update_of_ne hg] at hd'
      exact hr.justified g d' hd'
  ready := hready
  pending := by
    have hbefore := weigh_eq_add_erase (f := List.length) hlook
    have hafter := weigh_insert List.length s.inboxes gid rest
    have hpending := hr.pending
    unfold DemuxShared.total at hpending ⊢
    unfold DemuxShared.take
    dsimp only
    rw [hafter]
    rw [List.length_cons] at hbefore
    omega
  unknown := hr.unknown
  overflow := hr.overflow

theorem register (hr : Routed h s) (gid : UInt64) : Routed h (s.register gid) := by
  unfold DemuxShared.register
  cases hlook : s.inboxes.lookup gid with
  | some inbox => exact hr
  | none =>
    have hother : ∀ g, g ≠ gid →
        (s.inboxes.insert gid []).lookup g = s.inboxes.lookup g :=
      fun g hg => AList.lookup_insert_ne hg
    refine ⟨?_, hr.justified, ?_, ?_, hr.unknown, hr.overflow⟩
    · intro g
      rw [hr.order g]
      unfold DemuxShared.contents
      dsimp only
      by_cases hg : g = gid
      · rw [hg, hlook, AList.lookup_insert]
        rfl
      · rw [hother g hg]
    · intro g hocc
      obtain ⟨p, rest, hp⟩ := DemuxShared.occupied_iff.mp hocc
      by_cases hg : g = gid
      · rw [hg, AList.lookup_insert] at hp
        cases hp
      · rw [hother g hg] at hp
        exact hr.ready g (DemuxShared.occupied_iff.mpr ⟨p, rest, hp⟩)
    · have hafter := weigh_insert List.length s.inboxes gid []
      rw [weigh_erase_of_none hlook, List.length_nil, Nat.zero_add] at hafter
      exact hr.pending.trans hafter.symm

theorem unregister (hr : Routed h s) (gid : UInt64) :
    Routed (h.leave gid ((s.contents gid).map .unregistered)) (s.unregister gid) := by
  have hgone : ∀ g, ((h.leave gid ((s.contents gid).map .unregistered)).gone g).map
      Departure.frame = (h.gone g).map Departure.frame ++
        if g = gid then s.contents gid else [] := by
    intro g
    unfold History.leave
    dsimp only
    by_cases hg : g = gid
    · subst hg
      rw [Function.update_self, if_pos rfl, List.map_append, List.map_map]
      exact congrArg _ (List.map_id _)
    · rw [Function.update_of_ne hg, if_neg hg, List.append_nil]
  have hjustified : ∀ g, ∀ d ∈ (h.leave gid ((s.contents gid).map .unregistered)).gone g,
      d.Justified := by
    intro g d hd
    unfold History.leave at hd
    dsimp only at hd
    by_cases hg : g = gid
    · subst hg
      rw [Function.update_self] at hd
      rcases List.mem_append.mp hd with hd | hd
      · exact hr.justified g d hd
      · obtain ⟨frame, -, rfl⟩ := List.mem_map.mp hd
        exact trivial
    · rw [Function.update_of_ne hg] at hd
      exact hr.justified g d hd
  unfold DemuxShared.unregister
  cases hlook : s.inboxes.lookup gid with
  | none =>
    refine ⟨?_, hjustified, hr.ready, hr.pending, hr.unknown, hr.overflow⟩
    intro g
    rw [hgone g, DemuxShared.contents_of_none hlook, ite_self, List.append_nil]
    exact hr.order g
  | some inbox =>
    refine ⟨?_, hjustified, ?_, ?_, hr.unknown, hr.overflow⟩
    · intro g
      rw [hgone g]
      by_cases hg : g = gid
      · subst hg
        have hempty : ({ s with inboxes := s.inboxes.erase g
                                pending := s.pending - inbox.length } : DemuxShared).contents g =
            [] := DemuxShared.contents_of_none (AList.lookup_erase g _)
        rw [if_pos rfl, hempty, List.append_nil]
        exact hr.order g
      · have hsame : ({ s with inboxes := s.inboxes.erase gid
                               pending := s.pending - inbox.length } : DemuxShared).contents g =
            s.contents g := by
          unfold DemuxShared.contents
          rw [AList.lookup_erase_ne hg]
        rw [if_neg hg, List.append_nil, hsame]
        exact hr.order g
    · intro g hocc
      obtain ⟨p, rest, hp⟩ := DemuxShared.occupied_iff.mp hocc
      by_cases hg : g = gid
      · rw [hg, AList.lookup_erase] at hp
        cases hp
      · rw [AList.lookup_erase_ne hg] at hp
        exact hr.ready g (DemuxShared.occupied_iff.mpr ⟨p, rest, hp⟩)
    · have hbefore := weigh_eq_add_erase (f := List.length) hlook
      have hpending := hr.pending
      unfold DemuxShared.total at hpending ⊢
      dsimp only
      omega

/-- A frame is parked. -/
theorem push (hr : Routed h s) {inbox : List ParkedFrame}
    (hlook : s.inboxes.lookup gid = some inbox) (p : ParkedFrame) (pool : List FrameBuf) :
    Routed (h.arrive gid p.frame)
      { s with
        inboxes := s.inboxes.insert gid (inbox ++ [p])
        ready := if inbox.isEmpty then s.ready ++ [gid] else s.ready
        pending := s.pending + 1
        pool := pool } where
  order g := by
    unfold History.arrive DemuxShared.contents
    dsimp only
    by_cases hg : g = gid
    · subst hg
      rw [Function.update_self, AList.lookup_insert, hr.order g,
        DemuxShared.contents_of_lookup hlook, Option.getD_some, List.map_append, List.append_assoc]
      rfl
    · rw [Function.update_of_ne hg, AList.lookup_insert_ne hg]
      exact hr.order g
  justified := hr.justified
  ready g hocc := by
    have hmem : g = gid ∨ g ∈ s.ready := by
      by_cases hg : g = gid
      · exact .inl hg
      · obtain ⟨q, rest, hq⟩ := DemuxShared.occupied_iff.mp hocc
        rw [AList.lookup_insert_ne hg] at hq
        exact .inr (hr.ready g (DemuxShared.occupied_iff.mpr ⟨q, rest, hq⟩))
    cases inbox with
    | nil => simpa [or_comm] using hmem
    | cons q rest =>
      rcases hmem with rfl | hmem
      · exact hr.ready g (DemuxShared.occupied_iff.mpr ⟨q, rest, hlook⟩)
      · exact hmem
  pending := by
    have hbefore := weigh_eq_add_erase (f := List.length) hlook
    have hafter := weigh_insert List.length s.inboxes gid (inbox ++ [p])
    have hpending := hr.pending
    unfold DemuxShared.total at hpending ⊢
    dsimp only
    rw [hafter, List.length_append, List.length_singleton]
    omega
  unknown := hr.unknown
  overflow := hr.overflow

theorem uint64_succ {c : UInt64} {n : Nat} (hc : c = UInt64.ofNat n) :
    c + 1 = UInt64.ofNat (n + 1) := by
  rw [hc, UInt64.ofNat_add]
  rfl

theorem park (hr : Routed h s) (gid : UInt64) (frame : List UInt8) :
    Routed (h.record s (.park gid frame)) (s.park gid frame) := by
  have hunknown : Routed { h with unknown := h.unknown + 1 }
      { s with unknownGroup := s.unknownGroup + 1 } :=
    ⟨hr.order, hr.justified, hr.ready, hr.pending, uint64_succ hr.unknown, hr.overflow⟩
  unfold DemuxShared.park
  dsimp only [History.record]
  by_cases hlarge : maxFrameSize < frame.length
  · rw [dif_pos hlarge, if_pos (.inl hlarge)]
    exact hunknown
  rw [dif_neg hlarge]
  cases hlook : s.inboxes.lookup gid with
  | none =>
    rw [if_pos (.inr (AList.lookup_eq_none.mp hlook))]
    exact hunknown
  | some inbox =>
    have hmem : gid ∈ s.inboxes := by
      rw [← AList.lookup_isSome, hlook]
      rfl
    have hlength : (s.contents gid).length = inbox.length := by
      rw [DemuxShared.contents_of_lookup hlook, List.length_map]
    rw [if_neg (by simp [hlarge, hmem]), hlength]
    dsimp only
    by_cases hfull : maxInboxFrames ≤ inbox.length
    · rw [if_pos hfull, if_pos hfull]
      exact ⟨hr.order, hr.justified, hr.ready, hr.pending, hr.unknown,
        uint64_succ hr.overflow⟩
    · rw [if_neg hfull, if_neg hfull]
      have hpushed := hr.push hlook
        ⟨(s.pool.getLast?.getD .zeroed).write frame (Nat.le_of_not_lt hlarge), frame.length,
          Nat.le_of_not_lt hlarge⟩ s.pool.dropLast
      rw [frame_write] at hpushed
      exact hpushed

/-- Whoever still has a frame behind a pop had one before. -/
theorem occupied_of_take (hlook : s.inboxes.lookup gid = some (p :: rest)) {ready : List UInt64}
    {g : UInt64} (hocc : (s.take gid p rest ready).occupied g = true) :
    s.occupied g = true ∧ (g = gid → rest ≠ []) := by
  obtain ⟨q, qs, hq⟩ := DemuxShared.occupied_iff.mp hocc
  by_cases hg : g = gid
  · subst hg
    refine ⟨DemuxShared.occupied_iff.mpr ⟨p, rest, hlook⟩, ?_⟩
    rintro - rfl
    have hnone : (s.inboxes.insert g []).lookup g = some (q :: qs) := hq
    rw [AList.lookup_insert] at hnone
    cases hnone
  · have hsame : (s.inboxes.insert gid rest).lookup g = some (q :: qs) := hq
    rw [AList.lookup_insert_ne hg] at hsame
    exact ⟨DemuxShared.occupied_iff.mpr ⟨q, qs, hsame⟩, fun h => absurd h hg⟩

/-- What a pop tells its caller about the frame it took. -/
theorem copyTo_cases (p : ParkedFrame) (out : List UInt8) :
    (p.copyTo out = (.error recvBufferTooSmall, out) ∧ out.length < p.frame.length) ∨
      ∃ out', p.copyTo out = (.ok p.len, out') ∧ out'.take p.len = p.frame := by
  unfold ParkedFrame.copyTo
  by_cases hsmall : out.length < p.len
  · rw [if_pos hsmall]
    exact .inl ⟨rfl, by rwa [p.length_frame]⟩
  · rw [if_neg hsmall]
    refine .inr ⟨_, rfl, ?_⟩
    rw [← p.length_frame]
    exact List.take_left

theorem head_contents (hlook : s.inboxes.lookup gid = some (p :: rest)) :
    (s.contents gid).headD [] = p.frame := by
  rw [DemuxShared.contents_of_lookup hlook]
  rfl

theorem tryPopInto (hr : Routed h s) (gid : UInt64) (out : List UInt8) :
    Routed (h.record s (.tryPopInto gid out)) (s.tryPopInto gid out).2 := by
  dsimp only [History.record]
  unfold DemuxShared.tryPopInto
  by_cases hzero : s.pending = 0
  · rw [if_pos hzero]
    exact hr
  rw [if_neg hzero]
  dsimp only
  have hclean : Routed h { s with ready := s.ready.dropWhile fun g => !s.occupied g } :=
    ⟨hr.order, hr.justified, fun g hocc => DemuxShared.mem_dropWhile_stale (hr.ready g hocc) hocc,
      hr.pending, hr.unknown, hr.overflow⟩
  cases hlook : s.inboxes.lookup gid with
  | none => exact hclean
  | some inbox =>
    cases inbox with
    | nil => exact hclean
    | cons p rest =>
      have htake : ∀ d : Departure, d.frame = p.frame → d.Justified →
          Routed (h.leave gid [d]) (DemuxShared.take
            { s with ready := s.ready.dropWhile fun g => !s.occupied g } gid p rest
            (s.ready.dropWhile fun g => !s.occupied g)) := by
        intro d hd hj
        refine hclean.take hlook ?_ hd hj
        intro g hocc
        exact hclean.ready g (occupied_of_take hlook hocc).1
      dsimp only
      rcases copyTo_cases p out with ⟨hcopy, hsmall⟩ | ⟨out', hcopy, hbytes⟩
      · rw [hcopy, head_contents hlook]
        exact htake _ rfl ⟨rfl, hsmall⟩
      · rw [hcopy]
        exact htake _ hbytes trivial

theorem popParkedInto (hr : Routed h s) (out : List UInt8) :
    Routed (h.record s (.popParkedInto out)) (s.popParkedInto out).2 := by
  dsimp only [History.record]
  unfold DemuxShared.popParkedInto
  by_cases hzero : s.pending = 0
  · rw [if_pos hzero]
    exact hr
  rw [if_neg hzero]
  cases hnext : DemuxShared.nextReady s.inboxes s.ready with
  | none =>
    have hfree := DemuxShared.nextReady_eq_none hnext
    refine ⟨hr.order, hr.justified, ?_, hr.pending, hr.unknown, hr.overflow⟩
    intro g hocc
    have hocc : s.occupied g = true := hocc
    rw [hfree g (hr.ready g hocc)] at hocc
    cases hocc
  | some next =>
    obtain ⟨gid, p, rest, tail⟩ := next
    obtain ⟨hlook, hfind, hkeep⟩ := DemuxShared.nextReady_eq_some hnext
    have htake : ∀ d : Departure, d.frame = p.frame → d.Justified →
        Routed (h.leave gid [d])
          (s.take gid p rest (if rest.isEmpty then tail else tail ++ [gid])) := by
      intro d hd hj
      refine hr.take hlook ?_ hd hj
      intro g hocc
      obtain ⟨hbefore, hrest⟩ := occupied_of_take hlook hocc
      rcases hkeep g (hr.ready g hbefore) hbefore with hg | hmem
      · have hne := hrest hg
        rw [if_neg (by simpa using hne), hg]
        exact List.mem_append_right _ List.mem_cons_self
      · split
        · exact hmem
        · exact List.mem_append_left _ hmem
    dsimp only
    rcases copyTo_cases p out with ⟨hcopy, hsmall⟩ | ⟨out', hcopy, hbytes⟩
    · rw [hcopy, hfind]
      dsimp only
      rw [head_contents hlook]
      exact htake _ rfl ⟨rfl, hsmall⟩
    · rw [hcopy]
      exact htake _ hbytes trivial

theorem perform (hr : Routed h s) (op : DemuxOp) : Routed (h.record s op) (s.perform op) := by
  cases op with
  | register gid => exact hr.register gid
  | unregister gid => exact hr.unregister gid
  | park gid frame => exact hr.park gid frame
  | tryPopInto gid out => exact hr.tryPopInto gid out
  | popParkedInto out => exact hr.popParkedInto out

/-- Every sequence of operations. -/
theorem of_run (ops : List DemuxOp) : Routed (runDemux ops).1 (runDemux ops).2 := by
  have hfrom : ∀ (ops : List DemuxOp) (h : History) (s : DemuxShared), Routed h s →
      Routed (ops.foldl (fun (h, s) op => (h.record s op, s.perform op)) (h, s)).1
        (ops.foldl (fun (h, s) op => (h.record s op, s.perform op)) (h, s)).2 := by
    intro ops
    induction ops with
    | nil => exact fun h s hr => hr
    | cons op ops ih => exact fun h s hr => ih _ _ (hr.perform op)
  exact hfrom ops _ _ Routed.new

/-- While anything is parked the driver is given a frame or told that its
buffer is too small. -/
theorem pop_answers (hr : Routed h s) (hparked : 0 < s.total) (out : List UInt8) :
    (∃ gid len, (s.popParkedInto out).1.1 = .ok (some (gid, len))) ∨
      (s.popParkedInto out).1.1 = .error recvBufferTooSmall := by
  have hpending : s.pending ≠ 0 := by
    rw [hr.pending]
    omega
  unfold DemuxShared.popParkedInto
  rw [if_neg hpending]
  cases hnext : DemuxShared.nextReady s.inboxes s.ready with
  | none =>
    obtain ⟨gid, inbox, hlook, hpos⟩ := exists_of_weigh_pos hparked
    cases inbox with
    | nil => cases hpos
    | cons p rest =>
      have hocc : s.occupied gid = true := DemuxShared.occupied_iff.mpr ⟨p, rest, hlook⟩
      rw [DemuxShared.nextReady_eq_none hnext gid (hr.ready gid hocc)] at hocc
      cases hocc
  | some next =>
    obtain ⟨gid, p, rest, tail⟩ := next
    dsimp only
    rcases copyTo_cases p out with ⟨hcopy, -⟩ | ⟨out', hcopy, -⟩
    · rw [hcopy]
      exact .inr rfl
    · rw [hcopy]
      exact .inl ⟨gid, p.len, rfl⟩

end Routed

/-- **Routing.**  After any operations on a new demultiplexer: the frames parked
for a group are those that left it, in this order and each once, followed by
those still parked; a frame left through a pop that returned it, a pop that had
less room and said so, or the unregistering of its group; the two counters count
the frames that were refused; `pending` counts those that are parked, and while
there are any the driver gets one or the error. -/
theorem demux_routes (ops : List DemuxOp) :
    let (h, s) := runDemux ops
    (∀ gid, h.parked gid = (h.gone gid).map Departure.frame ++ s.contents gid ∧
        ∀ d ∈ h.gone gid, d.Justified) ∧
      s.unknownGroup = UInt64.ofNat h.unknown ∧ s.overflowDropped = UInt64.ofNat h.overflow ∧
      s.pending = s.total ∧
      (0 < s.total → ∀ out,
        (∃ gid len, (s.popParkedInto out).1.1 = .ok (some (gid, len))) ∨
          (s.popParkedInto out).1.1 = .error recvBufferTooSmall) := by
  have hr := Routed.of_run ops
  exact ⟨fun gid => ⟨hr.order gid, hr.justified gid⟩, hr.unknown, hr.overflow, hr.pending,
    fun hparked out => hr.pop_answers hparked out⟩

end ArbitroRaft
