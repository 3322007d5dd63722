import ArbitroRaft.Library.Reach
import ArbitroRaft.Transport.Routing

/-!
# How long the ready queue gets

The demultiplexer queues a group whenever its inbox stops being empty.  An entry is
taken off by the driver's `pop_parked_into`, or by `try_pop_into` when it is stale and
at the front.  A stale entry behind a group that nobody drains stays, and the group it
names is queued again with its next frame.  As long as no group is queued that is in
the queue already, the queue holds every group at most once.

## Main results

* `ready_bounded`: it is then no longer than there are groups.
-/

namespace ArbitroRaft

open Library Wire

namespace DemuxShared

def step (s : DemuxShared) (op : DemuxOp) : Option DemuxShared := some (s.perform op)

/-- Groups are registered from `groups` only, and a frame for an empty inbox finds no
entry of its group in the queue. -/
def Admits (groups : Finset UInt64) (s : DemuxShared) : DemuxOp → Prop
  | .register gid => gid ∈ groups
  | .park gid _ => s.occupied gid = true ∨ gid ∉ s.ready
  | _ => True

/-- Every queued group is one of `groups` and is queued once. -/
structure Orderly (groups : Finset UInt64) (s : DemuxShared) : Prop where
  keys : ∀ gid ∈ s.inboxes, gid ∈ groups
  queued : ∀ gid ∈ s.ready, gid ∈ groups
  once : s.ready.Nodup

variable {groups : Finset UInt64} {s : DemuxShared}

theorem orderly_new (groups : Finset UInt64) : Orderly groups .new where
  keys _ h := absurd h (AList.notMem_empty _)
  queued _ h := absurd h List.not_mem_nil
  once := List.nodup_nil

/-- The entries of an orderly queue are counted by the groups. -/
theorem Orderly.length_le (h : s.Orderly groups) : s.ready.length ≤ groups.card := by
  have hsub : s.ready.toFinset ⊆ groups := by
    intro gid hgid
    exact h.queued gid (List.mem_toFinset.mp hgid)
  rw [← List.toFinset_card_of_nodup h.once]
  exact Finset.card_le_card hsub

variable {gid : UInt64}

theorem Orderly.register (h : s.Orderly groups) (hgid : gid ∈ groups) :
    (s.register gid).Orderly groups := by
  unfold DemuxShared.register
  split
  · exact h
  · refine ⟨fun g hg => ?_, h.queued, h.once⟩
    obtain rfl | hg := (AList.mem_insert s.inboxes).mp hg
    · exact hgid
    · exact h.keys g hg

theorem Orderly.unregister (h : s.Orderly groups) (gid : UInt64) :
    (s.unregister gid).Orderly groups := by
  unfold DemuxShared.unregister
  split
  · exact h
  · exact ⟨fun g hg => h.keys g (AList.mem_erase.mp hg).2, h.queued, h.once⟩

/-- A frame leaves its inbox while the queue shrinks to `ready`. -/
theorem Orderly.take (h : s.Orderly groups) {p : ParkedFrame} {rest : List ParkedFrame}
    {ready : List UInt64} (hgid : gid ∈ s.inboxes) (hqueued : ∀ g ∈ ready, g ∈ groups)
    (honce : ready.Nodup) : (s.take gid p rest ready).Orderly groups := by
  refine ⟨fun g hg => ?_, hqueued, honce⟩
  obtain rfl | hg := (AList.mem_insert s.inboxes).mp hg
  · exact h.keys g hgid
  · exact h.keys g hg

theorem Orderly.tryPopInto (h : s.Orderly groups) (gid : UInt64) (out : List UInt8) :
    (s.tryPopInto gid out).2.Orderly groups := by
  have hsub := List.dropWhile_sublist (l := s.ready) fun g => !s.occupied g
  have hqueued : ∀ g ∈ s.ready.dropWhile fun g => !s.occupied g, g ∈ groups :=
    fun g hg => h.queued g (hsub.subset hg)
  have honce := h.once.sublist hsub
  unfold DemuxShared.tryPopInto
  split
  · exact h
  · dsimp only
    split
    · rename_i p rest hlook
      have hgid : gid ∈ s.inboxes := AList.lookup_isSome.mp (by rw [hlook]; rfl)
      exact h.take hgid hqueued honce
    · exact ⟨h.keys, hqueued, honce⟩

theorem Orderly.park (h : s.Orderly groups) (frame : List UInt8)
    (hfresh : s.occupied gid = true ∨ gid ∉ s.ready) : (s.park gid frame).Orderly groups := by
  unfold DemuxShared.park
  split
  · exact ⟨h.keys, h.queued, h.once⟩
  split
  · exact ⟨h.keys, h.queued, h.once⟩
  rename_i inbox hlook
  have hgid : gid ∈ s.inboxes := AList.lookup_isSome.mp (by rw [hlook]; rfl)
  dsimp only
  split
  · exact ⟨h.keys, h.queued, h.once⟩
  have hkeys : ∀ q, ∀ g ∈ s.inboxes.insert gid q, g ∈ groups := by
    intro q g hg
    obtain rfl | hg := (AList.mem_insert s.inboxes).mp hg
    · exact h.keys g hgid
    · exact h.keys g hg
  cases inbox with
  | cons p rest => exact ⟨hkeys _, h.queued, h.once⟩
  | nil =>
    have hfree : gid ∉ s.ready := by
      refine hfresh.resolve_left fun hocc => ?_
      obtain ⟨p, rest, hsome⟩ := occupied_iff.mp hocc
      rw [hlook] at hsome
      cases hsome
    refine ⟨hkeys _, ?_, ?_⟩
    · intro g hg
      obtain hg | hg := List.mem_append.mp hg
      · exact h.queued g hg
      · obtain rfl := List.mem_singleton.mp hg
        exact h.keys g hgid
    · show (s.ready ++ [gid]).Nodup
      rw [List.nodup_append_comm]
      exact List.nodup_cons.mpr ⟨hfree, h.once⟩

/-- What the driver's loop leaves of the queue. -/
theorem nextReady_sublist {inboxes : AList fun _ : UInt64 => List ParkedFrame}
    {ready tail : List UInt64} {p : ParkedFrame} {rest : List ParkedFrame}
    (h : nextReady inboxes ready = some (gid, p, rest, tail)) :
    (gid :: tail).Sublist ready ∧ gid ∈ inboxes := by
  induction ready with
  | nil => cases h
  | cons g ready ih =>
    unfold nextReady at h
    split at h
    · rename_i q qs hlook
      cases h
      exact ⟨List.Sublist.refl _, AList.lookup_isSome.mp (by rw [hlook]; rfl)⟩
    · exact ⟨(ih h).1.cons g, (ih h).2⟩

theorem Orderly.popParkedInto (h : s.Orderly groups) (out : List UInt8) :
    (s.popParkedInto out).2.Orderly groups := by
  unfold DemuxShared.popParkedInto
  split
  · exact h
  split
  · exact ⟨h.keys, fun _ hg => absurd hg List.not_mem_nil, List.nodup_nil⟩
  rename_i gid p rest tail hnext
  obtain ⟨hsub, hgid⟩ := nextReady_sublist hnext
  have honce := h.once.sublist hsub
  have hqueued : ∀ g ∈ gid :: tail, g ∈ groups := fun g hg => h.queued g (hsub.subset hg)
  dsimp only
  split
  · exact h.take hgid (fun g hg => hqueued g (List.mem_cons_of_mem gid hg))
      (List.nodup_cons.mp honce).2
  · refine h.take hgid (fun g hg => ?_) ?_
    · obtain hg | hg := List.mem_append.mp hg
      · exact hqueued g (List.mem_cons_of_mem gid hg)
      · obtain rfl := List.mem_singleton.mp hg
        exact hqueued g List.mem_cons_self
    · rw [List.nodup_append_comm]
      exact honce

theorem Orderly.step {t : DemuxShared} {op : DemuxOp} (h : s.Orderly groups)
    (hop : s.Admits groups op) (hstep : s.step op = some t) : t.Orderly groups := by
  cases hstep
  cases op with
  | register gid => exact h.register hop
  | unregister gid => exact h.unregister gid
  | park gid frame => exact h.park frame hop
  | tryPopInto gid out => exact h.tryPopInto gid out
  | popParkedInto out => exact h.popParkedInto out

/-- The queue of a demultiplexer in which no group is queued twice is no longer than
there are groups. -/
theorem ready_bounded {groups : Finset UInt64} {s : DemuxShared}
    (h : Reaches DemuxShared.step (DemuxShared.Admits groups) .new s) :
    s.ready.length ≤ groups.card :=
  (h.invariant (orderly_new groups) fun _ _ _ hs hop hstep => hs.step hop hstep).length_le

/-- One group is registered, a frame is parked for it and popped by its own receiver. -/
theorem ready_bounded_one :
    ∃ s, Reaches DemuxShared.step (DemuxShared.Admits {7}) .new s ∧ s.ready.length ≤ 1 := by
  have hrun : Reaches DemuxShared.step (DemuxShared.Admits {7}) .new
      (((DemuxShared.new.register 7).park 7 [0]).tryPopInto 7 [0]).2 := by
    refine ((Reaches.refl.next (.register 7) ?_ rfl).next (.park 7 [0]) ?_ rfl).next
      (.tryPopInto 7 [0]) trivial rfl
    · exact Finset.mem_singleton_self 7
    · exact .inr List.not_mem_nil
  exact ⟨_, hrun, ready_bounded hrun⟩

/-! ## A head that nobody drains -/

/-- Groups 1 and 2 are served by their own receivers, without a driver. -/
def Driverless (_ : DemuxShared) : DemuxOp → Prop
  | .register gid => gid = 1 ∨ gid = 2
  | .popParkedInto _ => False
  | _ => True

/-- Group 1 has a frame that it does not take, group 2 has none, and the queue names
group 2 `k` times behind group 1. -/
structure Held (k : Nat) (s : DemuxShared) : Prop where
  first : s.occupied 1 = true
  second : s.inboxes.lookup 2 = some []
  ready : s.ready = 1 :: List.replicate k 2
  pending : s.pending = 1

/-- A frame for an empty inbox. -/
theorem park_empty (h : s.inboxes.lookup gid = some []) :
    ∃ q : ParkedFrame, (s.park gid [0]).inboxes.lookup gid = some [q] ∧
      (∀ g, g ≠ gid → (s.park gid [0]).inboxes.lookup g = s.inboxes.lookup g) ∧
      (s.park gid [0]).ready = s.ready ++ [gid] ∧ (s.park gid [0]).pending = s.pending + 1 := by
  have hsmall : ¬ maxFrameSize < [(0 : UInt8)].length := by decide
  unfold DemuxShared.park
  rw [dif_neg hsmall, h]
  dsimp only
  rw [if_neg (show ¬ maxInboxFrames ≤ ([] : List ParkedFrame).length by decide)]
  exact ⟨_, AList.lookup_insert _, fun g hg => AList.lookup_insert_ne hg, rfl, rfl⟩

/-- A frame of group 2 comes and goes. -/
theorem Held.cycle {k : Nat} (h : s.Held k) :
    (((s.park 2 [0]).tryPopInto 2 [0]).2).Held (k + 1) := by
  obtain ⟨p, rest, hfirst⟩ := occupied_iff.mp h.first
  obtain ⟨q, hsecond, hothers, hready, hpending⟩ := park_empty h.second
  have hone : (s.park 2 [0]).inboxes.lookup 1 = some (p :: rest) :=
    (hothers 1 (by decide)).trans hfirst
  have hhead : (s.park 2 [0]).occupied 1 = true := occupied_iff.mpr ⟨p, rest, hone⟩
  have hqueue : (s.park 2 [0]).ready = 1 :: List.replicate (k + 1) 2 := by
    rw [hready, h.ready, List.cons_append, ← List.replicate_succ']
  have hkept : ((s.park 2 [0]).ready.dropWhile fun g => !(s.park 2 [0]).occupied g) =
      1 :: List.replicate (k + 1) 2 := by
    rw [hqueue, List.dropWhile_cons_of_neg (by rw [hhead]; decide)]
  unfold DemuxShared.tryPopInto
  rw [if_neg (by rw [hpending, h.pending]; decide)]
  dsimp only
  rw [hsecond]
  refine ⟨?_, AList.lookup_insert _, hkept, ?_⟩
  · refine occupied_iff.mpr ⟨p, rest, ?_⟩
    exact (AList.lookup_insert_ne (by decide)).trans hone
  · show (s.park 2 [0]).pending - 1 = 1
    rw [hpending, h.pending]

theorem held_run (k : Nat) : ∃ s, Reaches DemuxShared.step Driverless .new s ∧ s.Held k := by
  induction k with
  | zero =>
    have hrun : Reaches DemuxShared.step Driverless .new
        (((DemuxShared.new.register 1).register 2).park 1 [0]) := by
      refine ((Reaches.refl.next (.register 1) ?_ rfl).next (.register 2) ?_ rfl).next
        (.park 1 [0]) ?_ rfl
      · exact .inl rfl
      · exact .inr rfl
      · exact trivial
    obtain ⟨q, hfirst, hothers, hready, hpending⟩ :=
      park_empty (show ((DemuxShared.new.register 1).register 2).inboxes.lookup 1 = some [] from rfl)
    refine ⟨_, hrun, occupied_iff.mpr ⟨q, [], hfirst⟩, ?_, hready, hpending⟩
    exact (hothers 2 (by decide)).trans rfl
  | succ k ih =>
    obtain ⟨s, hrun, hheld⟩ := ih
    have hparked : Reaches DemuxShared.step Driverless .new (s.park 2 [0]) :=
      hrun.next (DemuxOp.park 2 [0]) trivial rfl
    exact ⟨_, hparked.next (DemuxOp.tryPopInto 2 [0]) trivial rfl, hheld.cycle⟩

/-- Two groups, and a queue of any length. -/
theorem ready_unbounded :
    ¬ ∃ bound, ∀ s, Reaches DemuxShared.step Driverless .new s → s.ready.length ≤ bound := by
  rintro ⟨bound, hbound⟩
  obtain ⟨s, hrun, hheld⟩ := held_run bound
  have hlen := hbound s hrun
  rw [hheld.ready, List.length_cons, List.length_replicate] at hlen
  exact absurd hlen (Nat.not_succ_le_self bound)

end DemuxShared

end ArbitroRaft
