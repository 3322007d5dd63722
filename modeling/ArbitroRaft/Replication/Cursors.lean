import ArbitroRaft.Library.Reach
import ArbitroRaft.Replication.FastPath

/-!
# The replication cursors of a leader

For every peer a leader keeps the index to send next and the index the peer has
acknowledged.  Three functions move the pair, with different clamps: the next
index never passes the leader's own log, the acknowledged one is taken as the peer
reports it, and the gather of a proposal assigns it without looking at the old
one.  The cursors stay in order exactly because nothing is acknowledged that the
leader does not have; a follower with a longer log acknowledges more.

## Main results

* `cursors_in_order`: this, over every run of a leader.
-/

namespace ArbitroRaft

open Library

/-! ## Cursors -/

/-- The cursors are in order and within a log that ends at `tip`. -/
structure PeerProgress.Within (p : PeerProgress) (tip : Nat) : Prop where
  one_le : 1 ≤ p.nextIndex
  next_le : p.nextIndex ≤ tip + 1
  match_lt : p.matchIndex < p.nextIndex

namespace PeerProgress.Within

variable {p : PeerProgress} {tip : Nat}

theorem mono {tip' : Nat} (h : p.Within tip) (hle : tip ≤ tip') : p.Within tip' :=
  ⟨h.one_le, h.next_le.trans (Nat.succ_le_succ hle), h.match_lt⟩

theorem match_le (h : p.Within tip) : p.matchIndex ≤ tip := by
  have := h.next_le
  have := h.match_lt
  omega

/-- A new peer is sent what comes next and has acknowledged nothing. -/
theorem fresh (htip : tip < u64Max) :
    PeerProgress.Within { nextIndex := satAdd tip 1, matchIndex := 0 } tip := by
  have hsat := satAdd_of_le (a := tip) (b := 1) htip
  refine ⟨?_, ?_, ?_⟩ <;> simp only [hsat] <;> omega

/-- A rejection moves the next index only, and not behind what is acknowledged. -/
theorem rejected (h : p.Within tip) {hint : Nat} (htip : tip < u64Max) (hle : p.matchIndex ≤ hint) :
    PeerProgress.Within { p with nextIndex := rejectedNext p hint (satAdd tip 1) } tip := by
  have hmatch := h.match_le
  have hhint : p.matchIndex < satAdd hint 1 := by
    by_cases hlt : hint < u64Max
    · exact hle.trans_lt (lt_satAdd_one hlt)
    · rw [satAdd_one_of_ge (not_lt.mp hlt)]
      omega
  unfold rejectedNext
  rw [satAdd_of_le (a := tip) (b := 1) htip]
  refine ⟨?_, ?_, ?_⟩ <;> dsimp only <;> omega

/-- An acknowledgement within the log, in the run loop. -/
theorem respond (h : p.Within tip) {resp : AppendEntriesResp} (htip : tip < u64Max)
    (hle : resp.success = true → resp.matchIndex ≤ tip) :
    (p.respond resp (satAdd tip 1)).Within tip := by
  unfold PeerProgress.respond
  split
  · rename_i hs
    have hr := hle hs
    have hn := h.next_le
    have hm := h.match_lt
    rw [satAdd_of_le (a := tip) (b := 1) htip, satAdd_of_le (b := 1) (hr.trans_lt htip)]
    refine ⟨?_, ?_, ?_⟩ <;> dsimp only <;> omega
  · split
    · rename_i hback
      exact h.rejected htip hback
    · exact h

/-- An acknowledgement within the log, in a gather. -/
theorem acknowledged {matched : Nat} (htip : tip < u64Max) (hle : matched ≤ tip) :
    (PeerProgress.acknowledged matched (satAdd tip 1)).Within tip := by
  unfold PeerProgress.acknowledged
  rw [satAdd_of_le (a := tip) (b := 1) htip, satAdd_of_le (b := 1) (hle.trans_lt htip)]
  refine ⟨?_, ?_, ?_⟩ <;> dsimp only <;> omega

/-- An installed snapshot, clamped to the leader's log. -/
theorem anchored (h : p.Within tip) (boundary : Nat) (htip : tip < u64Max) :
    (p.anchored boundary tip).Within tip := by
  have hn := h.next_le
  have hm := h.match_lt
  have hb : min boundary tip < min (satAdd boundary 1) (tip + 1) := by
    rcases lt_or_ge boundary u64Max with hlt | hge
    · rw [satAdd_of_le (b := 1) hlt]
      omega
    · have := le_satAdd boundary 1
      omega
  unfold PeerProgress.anchored
  rw [satAdd_of_le (a := tip) (b := 1) htip]
  refine ⟨?_, ?_, ?_⟩ <;> dsimp only <;> omega

end PeerProgress.Within

namespace RaftNode

/-- Every tracked peer has its cursors within the leader's log. -/
def CursorsWithin (n : RaftNode) : Prop :=
  ∀ peer p, n.peerProgress.get peer = some p → p.Within n.cachedLastLog.1

/-- No tracked peer is lost, and none acknowledges less. -/
def AcksKept (n n' : RaftNode) : Prop :=
  ∀ peer old, n.peerProgress.get peer = some old →
    ∃ new, n'.peerProgress.get peer = some new ∧ old.matchIndex ≤ new.matchIndex

/-- A gather awaits answers to what is the end of the log. -/
def AwaitsTip (n : RaftNode) : Prop :=
  n.replicationTargets = [] ∨ ∀ slot ∈ n.scratchPending, n.cachedLastLog.1 ≤ slot.2.sentLastIndex

/-- A successful answer of a tracked peer acknowledges nothing past the leader's
own log. -/
def Fits (n : RaftNode) (f : InboundRaftMessage) : Prop :=
  match f.message with
  | .appendEntriesResp resp =>
    resp.success = true → resp.term ≤ n.hardState.currentTerm →
      (n.peerProgress.get f.sender).isSome = true → resp.matchIndex ≤ n.cachedLastLog.1
  | _ => True

end RaftNode

/-! ## What a leader keeps -/

/-- The books of a node that has led since `s`. -/
structure Books (s n : RaftNode) : Prop where
  leader : s.isLeader = true
  roomy : n.cachedLastLog.1 < u64Max
  cursors : n.CursorsWithin
  kept : s.AcksKept n
  tracked : ∀ peer ∈ n.peerProgress.keys, peer ∈ n.replicationTargets

namespace Books

variable {s n n' : RaftNode}

theorem roll (h : Books s n) (hconfig : n'.config = n.config)
    (hprogress : n'.peerProgress = n.peerProgress)
    (htip : n.cachedLastLog.1 ≤ n'.cachedLastLog.1) (hroom : n'.cachedLastLog.1 < u64Max) :
    Books s n' where
  leader := h.leader
  roomy := hroom
  cursors peer p hp := (h.cursors peer p (hprogress ▸ hp)).mono htip
  kept peer old hold := by
    rw [hprogress]
    exact h.kept peer old hold
  tracked peer hp := by
    unfold RaftNode.replicationTargets
    rw [hconfig]
    exact h.tracked peer (hprogress ▸ hp)

theorem setProgress (h : Books s n) {peer : PeerId} {old p : PeerProgress}
    (hget : n.peerProgress.get peer = some old) (hp : p.Within n.cachedLastLog.1)
    (hle : old.matchIndex ≤ p.matchIndex) : Books s (n.setProgress peer p) := by
  have hnew (q : PeerId) : (n.setProgress peer p).peerProgress.get q =
      if q = peer then some p else n.peerProgress.get q := PeerMap.get_insert _ _ _ _
  refine ⟨h.leader, h.roomy, fun q was hwas => ?_, fun q was hwas => ?_, ?_⟩
  · rw [hnew] at hwas
    split at hwas
    · cases hwas
      exact hp
    · exact h.cursors q was hwas
  · obtain ⟨mid, hmid, hmatch⟩ := h.kept q was hwas
    by_cases heq : q = peer
    · subst heq
      rw [hget] at hmid
      cases hmid
      exact ⟨p, (hnew q).trans (if_pos rfl), hmatch.trans hle⟩
    · exact ⟨mid, ((hnew q).trans (if_neg heq)).trans hmid, hmatch⟩
  · have hkeys : (n.setProgress peer p).peerProgress.keys = n.peerProgress.keys :=
      keys_setProgress hget
    rw [hkeys]
    exact h.tracked

/-- A leader whose books are in order, as a start. -/
theorem rebase (h : Books s n) (hl : n.isLeader = true) : Books n n :=
  ⟨hl, h.roomy, h.cursors, fun _ old hold => ⟨old, hold, le_rfl⟩, h.tracked⟩

end Books

/-- The progress table a leader starts with. -/
theorem progress_fresh (n : RaftNode) {peer : PeerId} {p : PeerProgress}
    (h : n.initializeLeaderProgress.peerProgress.get peer = some p) :
    p = n.freshProgress ∧ peer ∈ n.replicationTargets := by
  have hslot := PeerMap.mem_of_get h
  have hkey : peer ∈ n.initializeLeaderProgress.peerProgress.keys :=
    List.mem_map_of_mem hslot
  have hvalue : p = n.freshProgress := by
    rcases mem_foldl_insert hslot with hnone | hvalue
    · cases hnone
    · exact hvalue
  refine ⟨hvalue, ?_⟩
  unfold RaftNode.replicationTargets
  rw [List.filter_append]
  exact ((mem_keys_foldl_insert _ _).mp hkey).resolve_left List.not_mem_nil

theorem cursorsWithin_fresh {n : RaftNode} (h : n.cachedLastLog.1 < u64Max) :
    n.initializeLeaderProgress.CursorsWithin := by
  intro peer p hp
  rw [(progress_fresh n hp).1]
  exact .fresh h

/-- `n` leads the term of `s`. -/
def LeadsSince (s n : RaftNode) : Prop :=
  n.isLeader = true ∧ n.hardState.currentTerm = s.hardState.currentTerm

/-- What a scope must not do, and what the frames it receives must meet, for the
books of a leader to stay in order. -/
structure KeepsBooks (sc : Scope) (s n : RaftNode) : Prop where
  crowns : ∀ t, ¬ sc.crowns t
  restores : ¬ sc.restores
  change : ∀ entry, ¬ sc.change entry
  room : ∀ payloads, sc.batch payloads → Arrived sc n →
    n.cachedLastLog.1 + payloads.length < u64Max
  fits : ∀ peer resp, sc.rx ⟨peer, .appendEntriesResp resp⟩ → sc.fresh n.core →
    LeadsSince s n → n.Fits ⟨peer, .appendEntriesResp resp⟩ ∧
      ((∀ m k, sc.pends m (m.remove k)) → n.AwaitsTip)

section Effects

variable {sc : Scope} {s n n' : RaftNode}

/-- The tip once a leader has appended its batch. -/
theorem tip_proposed (n : RaftNode) (payloads : List EntryPayload)
    (h : n.cachedLastLog.1 < u64Max) :
    (n.stored (n.proposedBatch payloads)).cachedLastLog.1 =
      n.cachedLastLog.1 + payloads.length := by
  have hbatch : n.proposedBatch payloads =
      buildBatch n.hardState.currentTerm (n.cachedLastLog.1 + 1) payloads := by
    rw [RaftNode.proposedBatch, satAdd_of_le h]
  have hc := contiguous_buildBatch n.hardState.currentTerm n.cachedLastLog.1 payloads
  rw [← hbatch] at hc
  rw [n.tip_stored (n.proposedBatch payloads)]
  cases hlast : (n.proposedBatch payloads).getLast? with
  | none =>
    have hlen := congrArg List.length (List.getLast?_eq_none_iff.mp hlast)
    rw [RaftNode.proposedBatch, buildBatch_length] at hlen
    rw [hlen]
    rfl
  | some e =>
    have hidx := hc.getLast?_idx hlast
    rw [RaftNode.proposedBatch, buildBatch_length] at hidx
    exact hidx

theorem RaftNode.Advance.within {gathers : Prop} {peer : PeerId} {old p : PeerProgress}
    {resp : AppendEntriesResp} (h : n.Advance gathers peer old resp p) (hb : Books s n)
    (hget : n.peerProgress.get peer = some old) (hterm : resp.term ≤ n.hardState.currentTerm)
    (hfits : n.Fits ⟨peer, .appendEntriesResp resp⟩) (hawaits : gathers → n.AwaitsTip) :
    p.Within n.cachedLastLog.1 ∧ old.matchIndex ≤ p.matchIndex := by
  have hold := hb.cursors peer old hget
  have hle (hs : resp.success = true) : resp.matchIndex ≤ n.cachedLastLog.1 :=
    hfits hs hterm (by rw [hget]; rfl)
  cases h with
  | responded _ => exact ⟨hold.respond hb.roomy hle, old.matchIndex_le_respond resp _⟩
  | acked state hg hpending hs hsent =>
    refine ⟨.acknowledged hb.roomy (hle hs), ?_⟩
    -- whoever is awaited was sent the end of the log
    rcases hawaits hg with hnone | hawaits
    · have hmem := hb.tracked peer (PeerMap.mem_keys_iff.mpr (by rw [hget]; rfl))
      rw [hnone] at hmem
      cases hmem
    · have := hawaits _ (PeerMap.mem_of_get hpending)
      exact hold.match_le.trans (this.trans hsent)
  | backed state _ _ _ hback => exact ⟨hold.rejected hb.roomy hback, le_rfl⟩

theorem LeadEffect.books (h : LeadEffect sc n n') (hsc : KeepsBooks sc s n)
    (hl : LeadsSince s n) (hb : Books s n) : Books s n' := by
  cases h with
  | kept _ hs => exact hb.roll hs.config hs.progress hs.cached.symm.le.1 (hs.cached ▸ hb.roomy)
  | crowned _ hc => exact absurd hc (hsc.crowns _)
  | initialized hempty =>
    refine ⟨hb.leader, hb.roomy, cursorsWithin_fresh hb.roomy, fun peer old hold => ?_,
      fun peer hp => ?_⟩
    · obtain ⟨new, hnew, -⟩ := hb.kept peer old hold
      rw [PeerMap.isEmpty_iff.mp hempty] at hnew
      cases hnew
    · obtain ⟨p, hp⟩ := Option.isSome_iff_exists.mp (PeerMap.mem_keys_iff.mp hp)
      exact (progress_fresh n hp).2
  | progressed peer old p resp hrx hf hle hget hadv =>
    obtain ⟨hfits, hawaits⟩ := hsc.fits peer resp hrx hf hl
    obtain ⟨hw, hmatch⟩ := hadv.within hb hget hle hfits hawaits
    exact hb.setProgress hget hw hmatch
  | rebased peer old boundary hget =>
    exact hb.setProgress hget ((hb.cursors peer old hget).anchored boundary hb.roomy)
      (le_max_left _ _)
  | led payloads _ harr hbatch =>
    have htip := tip_proposed n payloads hb.roomy
    refine hb.roll rfl rfl ?_ ?_
    · rw [htip]
      exact Nat.le_add_right _ _
    · rw [htip]
      exact hsc.room payloads hbatch harr
  | restored m hr => exact absurd hr hsc.restores
  | compacted term bytes _ => exact hb.roll rfl rfl le_rfl hb.roomy
  | reconfigured entry _ hc => exact absurd hc (hsc.change entry)
  | pended m _ _ => exact hb.roll rfl rfl le_rfl hb.roomy

/-- A leader was one before, unless the effect crowned it. -/
theorem LeadEffect.isLeader (h : LeadEffect sc n n') (hsc : KeepsBooks sc s n)
    (hl : n'.isLeader = true) : n.isLeader = true := by
  cases h with
  | kept _ hs => exact hs.isLeader.symm.trans hl
  | crowned _ hc => exact absurd hc (hsc.crowns _)
  | restored m hr => exact absurd hr hsc.restores
  | reconfigured entry _ hc => exact absurd hc (hsc.change entry)
  | _ => exact hl

/-- As long as `n` leads the term of `s`, its books are in order. -/
structure InTerm (s n : RaftNode) : Prop where
  term_le : s.hardState.currentTerm ≤ n.hardState.currentTerm
  books : LeadsSince s n → Books s n

/-- A node that leads the term of `s` afterwards led it before. -/
theorem Effect.leadsSince (h : Effect sc n n') (hsc : KeepsBooks sc s n)
    (hterm : s.hardState.currentTerm ≤ n.hardState.currentTerm) (hl : LeadsSince s n') :
    LeadEffect sc n n' ∧ LeadsSince s n := by
  have hle := h.term_le
  have ht := hl.2
  have hlead := h.lead hl.1 (by omega)
  exact ⟨hlead, hlead.isLeader hsc hl.1, by omega⟩

/-- One effect. -/
theorem Effect.inTerm (h : Effect sc n n') (hsc : KeepsBooks sc s n) (hi : InTerm s n) :
    InTerm s n' := by
  have hle := h.term_le
  have hbefore := hi.term_le
  refine ⟨hbefore.trans hle, fun ⟨hl, ht⟩ => ?_⟩
  obtain ⟨hlead, hwas⟩ := h.leadsSince hsc hi.term_le ⟨hl, ht⟩
  exact hlead.books hsc hwas (hi.books hwas)

theorem InTerm.within (h : InTerm s n) (env : Env) : InTerm s (n.within env) :=
  ⟨h.term_le, fun hl => (h.books hl).roll rfl rfl le_rfl (h.books hl).roomy⟩

theorem RaftNode.Fits.of_core {f : InboundRaftMessage} (h : n.Fits f) (hc : n'.core = n.core) :
    n'.Fits f := by
  unfold RaftNode.Fits at h ⊢
  rw [show n'.hardState = n.hardState from congrArg Core.hardState hc,
    show n'.peerProgress = n.peerProgress from congrArg Core.peerProgress hc,
    show n'.cachedLastLog = n.cachedLastLog from congrArg Core.cachedLastLog hc]
  exact h

end Effects

/-! ## Steps of a leader -/

/-- What a leader does within its term: everything but being elected, restoring the
state machine from a snapshot and putting a membership change in force. -/
structure Action.Serves (a : Action) (n : RaftNode) : Prop where
  crowns : ∀ t, a ≠ .assumeLeadership t
  restores : a ≠ .restore
  change : a.reconfigures n = none

/-- The batches an action appends leave room in the index space. -/
def Action.HasRoom (a : Action) (n : RaftNode) : Prop :=
  match a with
  | .startPropose payloads | .replicate payloads =>
    n.cachedLastLog.1 + payloads.length < u64Max
  | _ => True

theorem Action.inTerm {a : Action} {s n : RaftNode} (hi : InTerm s n) (hs : a.Serves n)
    (hroom : a.HasRoom n) (hfits : ∀ f, a.frame = some f → n.Fits f ∧ a.gathers = false) :
    InTerm s (a.run n) := by
  refine Action.preserves hi fun m m' hm he => he.inTerm ⟨?_, ?_, ?_, ?_, ?_⟩ hm
  · exact hs.crowns
  · exact hs.restores
  · intro entry hentry
    have hnone := hs.change
    rw [show a.reconfigures n = some entry from hentry] at hnone
    cases hnone
  · intro payloads hbatch harr
    rw [harr.of_scope.cached]
    rcases hbatch with rfl | rfl
    · exact hroom
    · exact hroom
  · intro peer resp hrx hfresh _
    obtain ⟨hfit, hgathers⟩ := hfits _ hrx
    refine ⟨hfit.of_core hfresh, fun hp => ?_⟩
    have hno : a.gathers = true := hp [] 0
    rw [hgathers] at hno
    cases hno

/-- What a gather awaits is the end of the log as long as nothing is appended. -/
theorem LeadEffect.awaitsTip {f : InboundRaftMessage} {start n n' : RaftNode}
    (h : LeadEffect (gatherScope start f) n n') (ha : n.AwaitsTip) : n'.AwaitsTip := by
  have hsame {n' : RaftNode} (hconfig : n'.config = n.config)
      (hcached : n'.cachedLastLog = n.cachedLastLog)
      (hpending : n'.scratchPending ⊆ n.scratchPending) : n'.AwaitsTip := by
    unfold RaftNode.AwaitsTip RaftNode.replicationTargets
    rw [hconfig, hcached]
    exact ha.imp_right fun hall slot hslot => hall slot (hpending hslot)
  cases h with
  | kept _ hs => exact hsame hs.config hs.cached (by rw [hs.pending]; exact List.Subset.refl _)
  | crowned _ hc => exact hc.elim
  | led payloads ha _ _ => exact ha.elim
  | restored m hr => exact hr.elim
  | compacted term bytes hc => exact hc.elim
  | reconfigured entry hc _ => exact hc.elim
  | pended m hm _ =>
    obtain ⟨k, rfl⟩ := hm
    exact hsame rfl rfl fun slot hslot => PeerMap.mem_of_mem_remove hslot
  | _ => exact ha

/-- The state of a leader inside the gather of a proposal. -/
structure InGather (s n : RaftNode) : Prop extends InTerm s n where
  awaits : LeadsSince s n → n.AwaitsTip

/-- A frame of a gather. -/
theorem gatherFrame_inGather {f : InboundRaftMessage} (g : Gather) {s n : RaftNode}
    (hi : InGather s n) (hfits : n.Fits f) : InGather s ((gatherFrame f g).after n) := by
  have hchain := (Emits.after (gatherFrame_gathers f g n) False.elim).1
  generalize (gatherFrame f g).after n = n' at hchain
  -- along the chain, while the node leads: an answer is taken in the state it found
  induction hchain with
  | refl => exact hi
  | @tail m m' _ he ih =>
    have hsc : KeepsBooks (gatherScope n f) s m := by
      refine ⟨fun _ => id, id, fun _ => id, fun _ => False.elim, ?_⟩
      intro peer resp hrx hfresh hl
      exact ⟨(show n.Fits ⟨peer, .appendEntriesResp resp⟩ from hrx ▸ hfits).of_core hfresh,
        fun _ => ih.awaits hl⟩
    refine ⟨he.inTerm hsc ih.toInTerm, fun hl => ?_⟩
    obtain ⟨hlead, hwas⟩ := he.leadsSince hsc ih.term_le hl
    exact hlead.awaitsTip (ih.awaits hwas)

/-! ## The run of a leader -/

/-- A leader and the gather of the proposal it is in, if it is in one. -/
structure Desk where
  node : RaftNode
  gather : Option Gather

/-- What a leader does next.  A proposal appends and fans out, takes frames until it
has enough of them, and settles the commit index; other work waits for its end. -/
inductive Duty where
  | act (a : Action)
  | propose (payloads : List EntryPayload)
  | gatherFrame (f : InboundRaftMessage)
  | settle

namespace Desk

/-- One step, in an environment of its own. -/
def step (d : Desk) : Env × Duty → Option Desk
  | (env, .act a) =>
    if d.gather = none then some ⟨a.run (d.node.within env), none⟩ else none
  | (env, .propose payloads) =>
    if d.gather = none then
      some ⟨(startPropose payloads).after (d.node.within env),
        ((startPropose payloads).result? (d.node.within env)).join⟩
    else none
  | (env, .gatherFrame f) =>
    d.gather.map fun g =>
      ⟨(ArbitroRaft.gatherFrame f g).after (d.node.within env),
        (ArbitroRaft.gatherFrame f g).result? (d.node.within env)⟩
  | (env, .settle) =>
    d.gather.map fun g => ⟨(finishPropose g).after (d.node.within env), none⟩

/-- Every step runs one action. -/
theorem step_run {d d' : Desk} {env : Env} {duty : Duty} (h : d.step (env, duty) = some d') :
    ∃ a : Action, d'.node = a.run (d.node.within env) := by
  cases duty with
  | act a =>
    obtain ⟨-, hd⟩ := Option.ite_none_right_eq_some.mp h
    cases hd
    exact ⟨a, rfl⟩
  | propose payloads =>
    obtain ⟨-, hd⟩ := Option.ite_none_right_eq_some.mp h
    cases hd
    exact ⟨.startPropose payloads, (after_ignore _ _).symm⟩
  | gatherFrame f =>
    obtain ⟨g, -, rfl⟩ := Option.map_eq_some_iff.mp h
    exact ⟨.gatherFrame f g, (after_ignore _ _).symm⟩
  | settle =>
    obtain ⟨g, -, rfl⟩ := Option.map_eq_some_iff.mp h
    exact ⟨.finishPropose g, rfl⟩

theorem step_term_le {d d' : Desk} {e : Env × Duty} (h : d.step e = some d') :
    d.node.hardState.currentTerm ≤ d'.node.hardState.currentTerm := by
  obtain ⟨a, ha⟩ := step_run h
  rw [ha]
  refine Action.preserves (P := fun n => d.node.hardState.currentTerm ≤ n.hardState.currentTerm)
    le_rfl fun m m' hm he => hm.trans he.term_le

/-- The step belongs to a term in office, acknowledges nothing past the leader's log
and leaves room for its batch. -/
def admits (d : Desk) : Env × Duty → Prop
  | (_, .act a) => a.Serves d.node ∧ a.gathers = false ∧ a.HasRoom d.node ∧
      ∀ f, a.frame = some f → d.node.Fits f
  | (_, .propose payloads) => d.node.cachedLastLog.1 + payloads.length < u64Max
  | (_, .gatherFrame f) => d.node.Fits f
  | (_, .settle) => True

/-- The books are in order, inside a gather and outside. -/
structure Sound (s : RaftNode) (d : Desk) : Prop extends InTerm s d.node where
  awaits : ∀ g, d.gather = some g → LeadsSince s d.node → d.node.AwaitsTip

/-- A finished computation leaves the node it ran to. -/
theorem sound_of_inTerm {s n : RaftNode} (h : InTerm s n) : Sound s ⟨n, none⟩ :=
  ⟨h, nofun⟩

theorem Sound.step {s : RaftNode} {d d' : Desk} (h : Sound s d) {e : Env × Duty}
    (ha : d.admits e) (hd : d.step e = some d') : Sound s d' := by
  obtain ⟨env, duty⟩ := e
  have hw := h.toInTerm.within env
  cases duty with
  | act a =>
    obtain ⟨hs, hg, hroom, hfits⟩ := ha
    obtain ⟨-, hd⟩ := Option.ite_none_right_eq_some.mp hd
    cases hd
    exact sound_of_inTerm (Action.inTerm hw ⟨hs.crowns, hs.restores, hs.change⟩ hroom
      fun f hf => ⟨hfits f hf, hg⟩)
  | propose payloads =>
    obtain ⟨-, hd⟩ := Option.ite_none_right_eq_some.mp hd
    cases hd
    have hrun := Action.inTerm (a := .startPropose payloads) hw ⟨nofun, nofun, rfl⟩ ha nofun
    refine ⟨(after_ignore (startPropose payloads) _) ▸ hrun, fun g hg _ => ?_⟩
    have hstart := startPropose_opened (RaftM.ok_of_result? (Option.join_eq_some_iff.mp hg))
    have hopen := (hstart.2 g rfl).1
    refine hopen.pending.imp_right fun ⟨_, _, hsent⟩ slot hslot => ?_
    rw [hopen.tip]
    exact hsent slot hslot
  | gatherFrame f =>
    obtain ⟨g, hg, rfl⟩ := Option.map_eq_some_iff.mp hd
    have hgather := gatherFrame_inGather g (n := d.node.within env)
      ⟨hw, fun hl => h.awaits g hg hl⟩ ha
    exact ⟨hgather.toInTerm, fun _ _ => hgather.awaits⟩
  | settle =>
    obtain ⟨g, -, rfl⟩ := Option.map_eq_some_iff.mp hd
    exact sound_of_inTerm
      (Action.inTerm (a := .finishPropose g) hw ⟨nofun, nofun, rfl⟩ trivial nofun)

end Desk

/-- The leader of a term, just elected. -/
def Elected (n : RaftNode) : Prop :=
  ∃ m : RaftNode, m.softState.role = .candidate ∧ n = m.becomeLeader

theorem Elected.books {n : RaftNode} (h : Elected n) (hroom : n.cachedLastLog.1 < u64Max) :
    Books n n := by
  obtain ⟨m, -, rfl⟩ := h
  refine ⟨rfl, hroom, cursorsWithin_fresh hroom, fun peer old hold => ⟨old, hold, le_rfl⟩,
    fun peer hp => ?_⟩
  obtain ⟨p, hp⟩ := Option.isSome_iff_exists.mp (PeerMap.mem_keys_iff.mp hp)
  exact (progress_fresh _ hp).2

/-- **The cursors of a leader stay in order.**  From its election on, as long as it
leads the term and nothing is acknowledged past its own log, every tracked peer has
its cursors within the log, and what a peer has acknowledged never goes back. -/
theorem cursors_in_order {n : RaftNode} {d d' : Desk} (he : Elected n)
    (hroom : n.cachedLastLog.1 < u64Max) (h : Reaches Desk.step Desk.admits ⟨n, none⟩ d)
    (h' : Reaches Desk.step Desk.admits d d') (hl : LeadsSince n d'.node) :
    d.node.CursorsWithin ∧ d'.node.CursorsWithin ∧ d.node.AcksKept d'.node := by
  have hfirst : Desk.Sound n d :=
    h.invariant (Desk.sound_of_inTerm ⟨le_rfl, fun _ => he.books hroom⟩)
      fun _ _ _ hs ha hstep => hs.step ha hstep
  have hmono : d.node.hardState.currentTerm ≤ d'.node.hardState.currentTerm :=
    h'.invariant (I := fun e => d.node.hardState.currentTerm ≤ e.node.hardState.currentTerm)
      le_rfl fun _ _ _ hle _ hstep => hle.trans (Desk.step_term_le hstep)
  have hterm : d.node.hardState.currentTerm = n.hardState.currentTerm :=
    le_antisymm (hmono.trans hl.2.le) hfirst.term_le
  -- the second part of the run, seen from the state it starts in
  have hbase : Desk.Sound d.node d := by
    refine ⟨⟨le_rfl, fun hd => (hfirst.books ⟨hd.1, hterm⟩).rebase hd.1⟩, fun g hg hd => ?_⟩
    exact hfirst.awaits g hg ⟨hd.1, hterm⟩
  have hlast : Desk.Sound d.node d' :=
    h'.invariant hbase fun _ _ _ hs ha hstep => hs.step ha hstep
  have hbooks := hlast.books ⟨hl.1, hl.2.trans hterm.symm⟩
  exact ⟨(hfirst.books ⟨hbooks.leader, hterm⟩).cursors, hbooks.cursors, hbooks.kept⟩

/-! ## A follower with a longer log -/

/-- Node 1 has an empty log and is elected in term 2 with the vote of node 3. -/
def bareLeader : RaftNode :=
  ((Action.countVotes 2 [⟨3, .requestVoteResp ⟨2, true⟩⟩] [1]).run (Action.startElection.run
    (trioNode 1 { Storage.empty false with hardState := ⟨1, none⟩ }))).becomeLeader

theorem elected_bareLeader : Elected bareLeader :=
  ⟨_, by decide +kernel, rfl⟩

/-- Node 2 holds five entries of term 1 that nobody else has. -/
def longFollower : RaftNode :=
  trioNode 2
    { hardState := ⟨1, some 2⟩
      entries := [⟨1, 1, [7]⟩, ⟨1, 2, [7]⟩, ⟨1, 3, [7]⟩, ⟨1, 4, [7]⟩, ⟨1, 5, [7]⟩]
      snapshot := none
      seeded := false }

/-- An answer of node 2 that acknowledges `i`. -/
def ackFromTwo (i : Nat) : InboundRaftMessage := ⟨2, .appendEntriesResp ⟨2, i, true, 0⟩⟩

/-- The leader takes an answer of node 2. -/
def answeredDesk (i : Nat) : Desk :=
  ⟨(Action.inbound (ackFromTwo i)).run (bareLeader.within (Env.calm 0)), none⟩

/-- It proposes an entry and takes a second answer in the gather. -/
def proposedDesk (d : Desk) : Desk :=
  ⟨(startPropose [[7]]).after (d.node.within (Env.calm 0)), some ⟨1, 2, 2, 1⟩⟩

def gatheredDesk (d : Desk) : Desk :=
  ⟨(gatherFrame (ackFromTwo 1) ⟨1, 2, 2, 1⟩).after ((proposedDesk d).node.within (Env.calm 0)),
    some ⟨1, 2, 2, 2⟩⟩

theorem step_proposedDesk {d : Desk} (hd : d.gather = none)
    (h : (startPropose [[7]]).result? (d.node.within (Env.calm 0)) = some (some ⟨1, 2, 2, 1⟩)) :
    d.step (Env.calm 0, .propose [[7]]) = some (proposedDesk d) := by
  unfold Desk.step proposedDesk
  dsimp only
  rw [if_pos hd, h]
  rfl

theorem step_gatheredDesk {d : Desk}
    (h : (gatherFrame (ackFromTwo 1) ⟨1, 2, 2, 1⟩).result?
      ((proposedDesk d).node.within (Env.calm 0)) = some ⟨1, 2, 2, 2⟩) :
    (proposedDesk d).step (Env.calm 0, .gatherFrame (ackFromTwo 1)) = some (gatheredDesk d) := by
  unfold gatheredDesk
  rw [← h]
  rfl

theorem cursors_in_order_acked :
    (gatheredDesk ⟨bareLeader, none⟩).node.CursorsWithin ∧
      (gatheredDesk ⟨bareLeader, none⟩).node.peerProgress.get 2 = some ⟨2, 1⟩ := by
  have hrun : Reaches Desk.step Desk.admits ⟨bareLeader, none⟩
      (gatheredDesk ⟨bareLeader, none⟩) := by
    refine (Reaches.refl.next (Env.calm 0, .propose [[7]]) ?_
      (step_proposedDesk rfl (by decide +kernel))).next
        (Env.calm 0, .gatherFrame (ackFromTwo 1)) ?_ (step_gatheredDesk (by decide +kernel))
    · show bareLeader.cachedLastLog.1 + 1 < u64Max
      decide +kernel
    · intro _ _ _
      decide +kernel
  have hl : LeadsSince bareLeader (gatheredDesk ⟨bareLeader, none⟩).node :=
    ⟨by decide +kernel, by decide +kernel⟩
  exact ⟨(cursors_in_order elected_bareLeader (by decide +kernel) .refl hrun hl).2.1,
    by decide +kernel⟩

/-- A heartbeat is answered with the end of a longer log, the entry behind it with
the end of the log that is left: the acknowledged index of node 2 passes the next
one, and goes back from 5 to 1. -/
theorem cursors_out_of_order :
    Elected bareLeader ∧
      ((Action.inbound ⟨1, .appendEntries ⟨2, 1, 0, 0, 0, 0⟩ []⟩).run
        longFollower).sent.map SentFrame.message = [(ackFromTwo 5).message] ∧
      ((Action.inbound ⟨1, .appendEntries ⟨2, 1, 0, 0, 0, 0⟩ [⟨2, 1, [7]⟩]⟩).run
        longFollower).sent.map SentFrame.message = [(ackFromTwo 1).message] ∧
      Reaches Desk.step (fun _ _ => True) ⟨bareLeader, none⟩ (answeredDesk 5) ∧
      Reaches Desk.step (fun _ _ => True) (answeredDesk 5) (gatheredDesk (answeredDesk 5)) ∧
      LeadsSince bareLeader (gatheredDesk (answeredDesk 5)).node ∧
      (answeredDesk 5).node.peerProgress.get 2 = some ⟨1, 5⟩ ∧
      (gatheredDesk (answeredDesk 5)).node.peerProgress.get 2 = some ⟨2, 1⟩ := by
  refine ⟨elected_bareLeader, by decide +kernel, by decide +kernel,
    Reaches.refl.next (Env.calm 0, .act (.inbound (ackFromTwo 5))) trivial rfl, ?_,
    ⟨by decide +kernel, by decide +kernel⟩, by decide +kernel, by decide +kernel⟩
  exact (Reaches.refl.next (Env.calm 0, .propose [[7]]) trivial
    (step_proposedDesk rfl (by decide +kernel))).next
      (Env.calm 0, .gatherFrame (ackFromTwo 1)) trivial (step_gatheredDesk (by decide +kernel))

end ArbitroRaft
