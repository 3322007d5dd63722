import ArbitroRaft.Effect.Lead
import ArbitroRaft.Machine.StepDown
import ArbitroRaft.Replication.CommitRule

/-!
# The fast path of a proposal

`propose_batch_once` does not apply the commit rule when there is one voter list:
it counts acknowledgements while it gathers them and commits its batch once the
counter has reached a majority.  A peer is counted when its acknowledgement ends
the wait for it, so it is counted once; while the node leads the term, the log and
the voters stay, and an acknowledged index of a peer that is not awaited any more
never goes back.  The counter starts at one, for the leader itself, whether or not
the leader is one of the voters.

## Main results

* `fastPath_meets_rule_iff`: when the counter agrees with the commit rule.
-/

namespace ArbitroRaft

open Library

/-! ## A term as leader -/

/-- What a leader keeps between two states of one term. -/
structure Seated (n n' : RaftNode) : Prop extends SameRoll n n' where
  leader : n.isLeader = true
  entries : n'.storage.entries = n.storage.entries
  cached : n'.cachedLastLog = n.cachedLastLog
  awaited : n'.scratchPending.keys ⊆ n.scratchPending.keys
  awaited_nodup : n.scratchPending.keys.Nodup → n'.scratchPending.keys.Nodup
  acked : ∀ p ∉ n.scratchPending.keys, ∀ old, n.peerProgress.get p = some old →
    ∃ new, n'.peerProgress.get p = some new ∧ old.matchIndex ≤ new.matchIndex

/-- A node that leads the same term afterwards led it before and kept its books. -/
structure Reigns (n n' : RaftNode) : Prop where
  term_le : n.hardState.currentTerm ≤ n'.hardState.currentTerm
  kept : n'.isLeader = true → n'.hardState.currentTerm = n.hardState.currentTerm → Seated n n'

theorem Seated.refl {n : RaftNode} (h : n.isLeader = true) : Seated n n :=
  ⟨⟨rfl, rfl⟩, h, rfl, rfl, List.Subset.refl _, id, fun _ _ old hold => ⟨old, hold, le_rfl⟩⟩

theorem Seated.trans {n n' n'' : RaftNode} (h : Seated n n') (h' : Seated n' n'') :
    Seated n n'' where
  toSameRoll := h.toSameRoll.trans h'.toSameRoll
  leader := h.leader
  entries := h'.entries.trans h.entries
  cached := h'.cached.trans h.cached
  awaited _ hp := h.awaited (h'.awaited hp)
  awaited_nodup := h'.awaited_nodup ∘ h.awaited_nodup
  acked := by
    intro p hp old hold
    obtain ⟨mid, hmid, hle⟩ := h.acked p hp old hold
    obtain ⟨new, hnew, hle'⟩ := h'.acked p (fun hmem => hp (h.awaited hmem)) mid hmid
    exact ⟨new, hnew, hle.trans hle'⟩

instance : Std.Refl Reigns := ⟨fun _ => ⟨le_rfl, fun hl _ => .refl hl⟩⟩

instance : IsTrans RaftNode Reigns where
  trans n n' n'' h h' := by
    refine ⟨h.term_le.trans h'.term_le, fun hl ht => ?_⟩
    have h₁ := h.term_le
    have h₂ := h'.term_le
    have hmid := h'.kept hl (by omega)
    exact (h.kept hmid.leader (by omega)).trans hmid

/-- What handling a frame of a gather in `n` may do. -/
def gatherScope (n : RaftNode) (f : InboundRaftMessage) : Scope where
  rx := (· = f)
  stands _ := False
  crowns _ := False
  demotes _ := False
  appends := False
  batch _ := False
  restores := False
  compacts := False
  control := False
  change _ := False
  gather _ := False
  pends m m' := ∃ k, m' = m.remove k
  strict := False
  fresh c := c = n.core

section Effects

variable {f : InboundRaftMessage} {start n n' : RaftNode}

theorem SameSeat.seated (h : SameSeat n n') (hl : n'.isLeader = true) : Seated n n' where
  toSameRoll := h.toSameRoll
  leader := h.isLeader.symm.trans hl
  entries := h.entries
  cached := h.cached
  awaited := by rw [h.pending]; exact List.Subset.refl _
  awaited_nodup := by rw [h.pending]; exact id
  acked p _ old hold := ⟨old, by rw [h.progress]; exact hold, le_rfl⟩

/-- The progress of one peer moved, that of the others is as it was. -/
theorem Seated.setProgress (hl : n.isLeader = true) {peer : PeerId} {old p : PeerProgress}
    (hget : n.peerProgress.get peer = some old)
    (h : peer ∉ n.scratchPending.keys → old.matchIndex ≤ p.matchIndex) :
    Seated n (n.setProgress peer p) := by
  refine ⟨⟨rfl, rfl⟩, hl, rfl, rfl, List.Subset.refl _, id, fun q hq was hwas => ?_⟩
  have hnew : (n.setProgress peer p).peerProgress.get q =
      if q = peer then some p else n.peerProgress.get q := PeerMap.get_insert _ _ _ _
  by_cases heq : q = peer
  · subst heq
    rw [hget] at hwas
    cases hwas
    exact ⟨p, hnew.trans (if_pos rfl), h hq⟩
  · exact ⟨was, (hnew.trans (if_neg heq)).trans hwas, le_rfl⟩

theorem PeerProgress.matchIndex_le_respond (old : PeerProgress) (resp : AppendEntriesResp)
    (cap : Nat) : old.matchIndex ≤ (old.respond resp cap).matchIndex := by
  unfold PeerProgress.respond
  split
  · exact le_max_left _ _
  · split <;> exact le_rfl

/-- Only a gather that awaits the peer may lower its acknowledged index. -/
theorem RaftNode.Advance.matchIndex_le {gathers : Prop} {peer : PeerId} {old p : PeerProgress}
    {resp : AppendEntriesResp} (h : n.Advance gathers peer old resp p)
    (hp : peer ∉ n.scratchPending.keys) : old.matchIndex ≤ p.matchIndex := by
  have hawaited {state : AppendAttemptState} (hs : n.scratchPending.get peer = some state) :
      peer ∈ n.scratchPending.keys := by
    rw [PeerMap.mem_keys_iff, hs]
    rfl
  cases h with
  | responded _ => exact old.matchIndex_le_respond resp _
  | acked state _ hs _ _ => exact absurd (hawaited hs) hp
  | backed state _ hs _ _ => exact absurd (hawaited hs) hp

theorem LeadEffect.seated (h : LeadEffect (gatherScope start f) n n') (hl : n'.isLeader = true) :
    Seated n n' := by
  cases h with
  | kept _ hs => exact hs.seated hl
  | crowned _ hc => exact hc.elim
  | initialized hempty =>
    have hnone (p : PeerId) : n.peerProgress.get p = none := by
      rw [PeerMap.isEmpty_iff.mp hempty]
      rfl
    refine ⟨⟨rfl, rfl⟩, hl, rfl, rfl, List.Subset.refl _, id, fun p _ old hold => ?_⟩
    rw [hnone] at hold
    cases hold
  | progressed peer old p resp _ _ _ hget hadv => exact .setProgress (n := n) hl hget hadv.matchIndex_le
  | rebased peer old boundary hget => exact .setProgress (n := n) hl hget fun _ => le_max_left _ _
  | led payloads ha _ _ => exact ha.elim
  | restored m hr => exact hr.elim
  | compacted term bytes hc => exact hc.elim
  | reconfigured entry hc _ => exact hc.elim
  | pended m hm hnodup =>
    obtain ⟨k, rfl⟩ := hm
    refine ⟨⟨rfl, rfl⟩, hl, rfl, rfl, fun p hp => ?_, hnodup,
      fun p _ old hold => ⟨old, hold, le_rfl⟩⟩
    exact List.mem_of_mem_erase ((PeerMap.keys_remove_perm _ k).mem_iff.mp hp)

theorem Reigns.of_chain (h : Relation.ReflTransGen (Effect (gatherScope start f)) n n') :
    Reigns n n' := by
  induction h with
  | refl => exact refl_of Reigns n
  | tail _ he ih =>
    refine trans_of Reigns ih ⟨he.term_le, fun hl ht => ?_⟩
    exact (he.lead hl ht).seated hl

end Effects

theorem gatherFrame_gathers (f : InboundRaftMessage) (g : Gather) (n : RaftNode) :
    Emits (Moves (gatherScope n f)) (gatherFrame f g) n (fun g' n' => CountStep n n' f g g') :=
  gatherFrame_emits g rfl False.elim rfl False.elim (fun _ k => ⟨k, rfl⟩)
    ⟨fun _ _ _ _ => trivial, fun _ _ => ⟨trivial, fun _ => trivial⟩⟩

/-- What a frame of the gather does to the node and to the counter. -/
theorem gatherFrame_reigns {f : InboundRaftMessage} {g g' : Gather} {n n' : RaftNode}
    (h : gatherFrame f g n = .ok g' n') : Reigns n n' ∧ CountStep n n' f g g' := by
  obtain ⟨hmoves, hstep⟩ := (gatherFrame_gathers f g n).of_ok h
  exact ⟨.of_chain (hmoves False.elim).1, hstep⟩

/-! ## Whom the counter stands for -/

/-- The senders whose frames move the counter of a gather, in order. -/
def gatherUnits : List InboundRaftMessage → Gather → RaftNode → List PeerId
  | [], _, _ => []
  | f :: fs, g, n =>
    if n.gatherDone g then []
    else
      match gatherFrame f g n with
      | .ok g' n' =>
        (if g.accepted < g'.accepted then [f.sender] else []) ++ gatherUnits fs g' n'
      | .error _ _ => []

/-- `units` are different voters, other than the leader, that are not awaited any
more and have acknowledged the batch. -/
structure Tallied (n : RaftNode) (g : Gather) (units : List PeerId) : Prop where
  awaited_nodup : n.scratchPending.keys.Nodup
  awaited_others : n.config.nodeId ∉ n.scratchPending.keys
  nodup : units.Nodup
  others : n.config.nodeId ∉ units
  settled : ∀ p ∈ units, p ∉ n.scratchPending.keys
  voters : ∀ p ∈ units, p ∈ n.config.peers
  reached : ∀ p ∈ units, ∃ progress, n.peerProgress.get p = some progress ∧
    g.lastIndex ≤ progress.matchIndex

section Loop

variable {n n' : RaftNode} {g g' : Gather} {units : List PeerId}

/-- While the node leads the term, whoever was counted stays counted. -/
theorem Tallied.seated (h : Tallied n g units) (hs : Seated n n')
    (hlast : g'.lastIndex = g.lastIndex) : Tallied n' g' units where
  awaited_nodup := hs.awaited_nodup h.awaited_nodup
  awaited_others hmem := h.awaited_others (hs.config ▸ hs.awaited hmem)
  nodup := h.nodup
  others := by rw [hs.config]; exact h.others
  settled p hp hmem := h.settled p hp (hs.awaited hmem)
  voters p hp := by rw [hs.config]; exact h.voters p hp
  reached p hp := by
    obtain ⟨old, hold, hle⟩ := h.reached p hp
    obtain ⟨new, hnew, hle'⟩ := hs.acked p (h.settled p hp) old hold
    exact ⟨new, hnew, hlast ▸ hle.trans hle'⟩

/-- One frame of the gather. -/
theorem gatherFrame_tallied {f : InboundRaftMessage} (hok : gatherFrame f g n = .ok g' n')
    (h : Tallied n g units) (hs : Seated n n') :
    Tallied n' g' (units ++ if g.accepted < g'.accepted then [f.sender] else []) := by
  cases (gatherFrame_reigns hok).2 with
  | same =>
    rw [if_neg (lt_irrefl _), List.append_nil]
    exact h.seated hs rfl
  | voter resp _ _ hmatch _ hpeer hpending hremoved _ _ hprogress =>
    rw [if_pos (Nat.lt_succ_self g.accepted)]
    have hkept : Tallied n' { g with accepted := g.accepted + 1 } units := h.seated hs rfl
    have hfresh : f.sender ∉ units := fun hmem => h.settled _ hmem hpending
    refine ⟨hkept.awaited_nodup, hkept.awaited_others,
      List.nodup_append_comm.mp (List.nodup_cons.mpr ⟨hfresh, h.nodup⟩), ?_, ?_, ?_, ?_⟩
    · rw [List.mem_append, List.mem_singleton, hs.config]
      rintro (hmem | hself)
      · exact h.others hmem
      · exact h.awaited_others (hself ▸ hpending)
    · rw [List.forall_mem_append, List.forall_mem_singleton, hremoved,
        PeerMap.mem_keys_remove h.awaited_nodup]
      exact ⟨fun p hp => hremoved ▸ hkept.settled p hp, fun hne => hne.1 rfl⟩
    · rw [List.forall_mem_append, List.forall_mem_singleton, hs.config]
      exact ⟨h.voters, hpeer⟩
    · rw [List.forall_mem_append, List.forall_mem_singleton]
      exact ⟨hkept.reached, _, hprogress, hmatch⟩

/-- The whole gather: if the node still leads the term at its end, the units are
voters that acknowledged the batch, and the counter counts them. -/
theorem gatherQuorumAcks_tallied (fs : List InboundRaftMessage)
    (hok : gatherQuorumAcks fs g n = .ok g' n') :
    g' = { g with accepted := g.accepted + (gatherUnits fs g n).length } ∧ Reigns n n' ∧
      (n'.isLeader = true → n'.hardState.currentTerm = n.hardState.currentTerm →
        ∀ units, Tallied n g units → Tallied n' g' (units ++ gatherUnits fs g n)) := by
  induction fs generalizing g n with
  | nil =>
    injection hok with hg hn
    subst hg hn
    refine ⟨rfl, refl_of Reigns n, fun _ _ units h => ?_⟩
    rw [gatherUnits, List.append_nil]
    exact h
  | cons f fs ih =>
    change (if n.gatherDone g = true then pure g
      else gatherFrame f g >>= gatherQuorumAcks fs : RaftM Gather) n = .ok g' n' at hok
    rw [gatherUnits]
    by_cases hdone : n.gatherDone g = true
    · rw [if_pos hdone] at hok ⊢
      injection hok with hg hn
      subst hg hn
      refine ⟨rfl, refl_of Reigns n, fun _ _ units h => ?_⟩
      rw [List.append_nil]
      exact h
    · rw [if_neg hdone] at hok ⊢
      obtain ⟨g₁, n₁, hframe, hrest⟩ := ok_of_bind hok
      obtain ⟨hg', hreigns, hloop⟩ := ih hrest
      obtain ⟨hfirst, hstep⟩ := gatherFrame_reigns hframe
      rw [hframe]
      dsimp only
      refine ⟨?_, trans_of Reigns hfirst hreigns, fun hl ht units h => ?_⟩
      · rw [hg', List.length_append]
        cases hstep with
        | same => simp
        | voter => simp [Nat.add_assoc]
      · have hle := hfirst.term_le
        have hle' := hreigns.term_le
        have hlead := (hreigns.kept hl (by omega)).leader
        have hcounted := gatherFrame_tallied hframe h (hfirst.kept hlead (by omega))
        rw [← List.append_assoc]
        exact hloop hl (by omega) _ hcounted

end Loop

/-! ## The fast path -/

/-- `propose_batch_once` on `n` gathers and stands at `n'` with the counter `g` when
it takes the fast path and moves the commit index to the end of its batch.  The
counter stands for `units`. -/
structure FastPath (payloads : List EntryPayload) (gathered : List InboundRaftMessage)
    (n n' : RaftNode) (g : Gather) (units : List PeerId) : Prop where
  gathers : ∃ g₀ n₀, startPropose payloads n = .ok (some g₀) n₀ ∧
    gatherQuorumAcks gathered g₀ n₀ = .ok g n' ∧
    units = n.config.nodeId :: gatherUnits gathered g₀ n₀
  single : n'.jointPeers = none
  leader : n'.isLeader = true
  term : n'.hardState.currentTerm = g.proposeTerm
  enough : g.needed ≤ g.accepted
  behind : n'.softState.commitIndex < g.lastIndex

/-- What the commit rule asks for: the batch ends in an entry of the current term,
a quorum has acknowledged it, and the counter counts different voters. -/
structure RuleMet (n : RaftNode) (g : Gather) (units : List PeerId) : Prop where
  quorum : n.indexMeetsCommitQuorum g.lastIndex = true
  current : ∃ e, n.storage.entryAt g.lastIndex = some e ∧ e.term = n.hardState.currentTerm
  nodup : units.Nodup
  voters : ∀ p ∈ units, p ∈ n.config.peers

section Agreement

variable {payloads : List EntryPayload} {gathered : List InboundRaftMessage}
  {n n' : RaftNode} {g : Gather} {units : List PeerId}

/-- Nobody to replicate to: there is at most one voter, which needs no answer. -/
theorem needed_of_no_targets {n₀ : RaftNode} {g₀ : Gather} (hg : Gathering n₀ g₀)
    (hnodup : n₀.config.peers.Nodup) (h : n₀.replicationTargets = []) :
    g₀.needed ≤ g₀.accepted := by
  have hself : n₀.config.peers ⊆ [n₀.config.nodeId] := by
    intro p hp
    have hnot := List.filter_eq_nil_iff.mp h p (List.mem_append_left _ hp)
    simpa using hnot
  have hlen := (List.subperm_of_subset hnodup hself).length_le
  rw [hg.needed, hg.accepted]
  unfold quorum
  simp only [List.length_cons, List.length_nil] at hlen
  omega

/-- The acknowledgements the fast path counted: different voters, none of them the
leader, each at least at the end of the batch. -/
structure Acknowledgers (n : RaftNode) (g : Gather) (acks : List PeerId) : Prop where
  nodup : acks.Nodup
  others : n.config.nodeId ∉ acks
  voters : ∀ p ∈ acks, p ∈ n.config.peers
  reached : ∀ p ∈ acks, ∃ progress, n.peerProgress.get p = some progress ∧
    g.lastIndex ≤ progress.matchIndex

/-- How the call stands when it takes the fast path. -/
structure FastPath.Outcome (payloads : List EntryPayload) (n n' : RaftNode) (g : Gather)
    (acks : List PeerId) : Prop extends Acknowledgers n' g acks where
  roll : n'.config = n.config
  carries : n'.storage.Carries (n.proposedBatch payloads)
  last : (n.proposedBatch payloads).getLast?.map LogEntry.index = some g.lastIndex
  tip : n'.cachedLastLog = (g.lastIndex, g.proposeTerm)
  batch_term : g.proposeTerm = n.hardState.currentTerm
  needed : g.needed = quorum n.config.peers.length
  accepted : g.accepted = acks.length + 1

theorem FastPath.outcome (hnodup : n.config.peers.Nodup)
    (h : FastPath payloads gathered n n' g units) :
    ∃ acks, units = n.config.nodeId :: acks ∧ FastPath.Outcome payloads n n' g acks := by
  obtain ⟨⟨g₀, n₀, hstart, hgather, rfl⟩, hsingle, hl, hterm, -, -⟩ := h
  obtain ⟨hopen, hopened⟩ := (startPropose_opened hstart).2 _ rfl
  obtain ⟨hg, hreigns, htally⟩ := gatherQuorumAcks_tallied gathered hgather
  have hsame : n'.hardState.currentTerm = n₀.hardState.currentTerm := by
    rw [hterm, hg, ← hopen.term]
  have hseat := hreigns.kept hl hsame
  refine ⟨_, rfl, ?_, ?_, ?_, ?_, ?_, ?_, ?_, ?_⟩
  · rcases hopen.pending with hnone | ⟨hpend, htargets, -⟩
    · -- without replication targets the gather ends before the first frame
      have hdone : n₀.gatherDone g₀ = true := by
        unfold RaftNode.gatherDone RaftNode.proposeCommitReached
        rw [← hseat.joint, hsingle]
        simp [needed_of_no_targets hopen (hopened.roll.1 ▸ hnodup) hnone]
      have hempty : gatherUnits gathered g₀ n₀ = [] := by
        cases gathered with
        | nil => rfl
        | cons f fs => rw [gatherUnits, if_pos hdone]
      rw [hempty]
      exact ⟨List.nodup_nil, List.not_mem_nil, nofun, nofun⟩
    · have hself : n₀.config.nodeId ∉ n₀.scratchPending.keys := by
        intro hmem
        have := (List.mem_filter.mp (htargets hmem)).2
        simp at this
      have hfirst : Tallied n₀ g₀ [] :=
        ⟨hpend, hself, List.nodup_nil, List.not_mem_nil, nofun, nofun, nofun⟩
      have hlast := htally hl hsame [] hfirst
      exact ⟨hlast.nodup, hlast.others, hlast.voters, hlast.reached⟩
  · rw [hseat.config, hopened.roll.1]
  · obtain ⟨b, -, hc⟩ := exists_contiguous_proposedBatch n payloads
    exact (Storage.sparable_carries _).of_entries _ _ (hseat.entries.trans hopened.entries)
      (n.storage.carries_append hc)
  · rw [hg]
    exact hopened.last
  · rw [hseat.cached, hopen.tip, hg]
  · rw [hg, ← hopened.hard]
    exact hopen.term
  · rw [hg, ← hopened.roll.1]
    exact hopen.needed
  · rw [hg, hopen.accepted]
    exact Nat.add_comm _ _

/-- The entry at the end of the batch has the current term. -/
theorem FastPath.Outcome.current {acks : List PeerId} (h : FastPath.Outcome payloads n n' g acks)
    (hterm : n'.hardState.currentTerm = g.proposeTerm) :
    ∃ e, n'.storage.entryAt g.lastIndex = some e ∧ e.term = n'.hardState.currentTerm := by
  obtain ⟨e, he, hidx⟩ := Option.map_eq_some_iff.mp h.last
  refine ⟨e, hidx ▸ h.carries e (List.mem_of_getLast? he), ?_⟩
  rw [hterm, h.batch_term]
  exact buildBatch_getLast? _ he

/-- Whoever is counted has acknowledged the batch, the leader with its own log. -/
theorem FastPath.Outcome.reached_units {acks : List PeerId}
    (h : FastPath.Outcome payloads n n' g acks) :
    ∀ p ∈ n.config.nodeId :: acks, g.lastIndex ≤ n'.ackIndex p := by
  rw [List.forall_mem_cons, ← h.roll]
  refine ⟨?_, fun p hp => ?_⟩
  · rw [RaftNode.ackIndex, if_pos rfl, h.tip]
  · obtain ⟨progress, hget, hle⟩ := h.reached p hp
    have hne : p ≠ n'.config.nodeId := fun heq => h.others (heq ▸ hp)
    rw [RaftNode.ackIndex, if_neg hne, hget]
    exact hle

/-- **The fast path and the commit rule.**  Whenever the fast path commits the
batch, the commit rule holds of it if and only if the leader is one of its own
voters. -/
theorem fastPath_meets_rule_iff (hnodup : n.config.peers.Nodup)
    (h : FastPath payloads gathered n n' g units) :
    commitProposed g n' = .ok () (n'.setCommitIndex g.lastIndex) ∧
      units.length = g.accepted ∧
      (RuleMet n' g units ↔ n.config.nodeId ∈ n.config.peers) := by
  obtain ⟨acks, rfl, hout⟩ := h.outcome hnodup
  refine ⟨?_, ?_, fun hrule => ?_, fun hself => ?_⟩
  · unfold commitProposed
    rw [get_bind, if_pos ⟨h.single, h.leader, h.term, h.enough⟩, if_pos h.behind]
    rfl
  · rw [hout.accepted, List.length_cons]
  · rw [← hout.roll]
    exact hrule.voters _ (hout.roll ▸ List.mem_cons_self)
  · have hvoters : ∀ p ∈ n.config.nodeId :: acks, p ∈ n'.config.peers := by
      rw [List.forall_mem_cons, hout.roll]
      exact ⟨hself, hout.roll ▸ hout.voters⟩
    have hdistinct : (n.config.nodeId :: acks).Nodup :=
      List.nodup_cons.mpr ⟨hout.roll ▸ hout.others, hout.nodup⟩
    refine ⟨?_, hout.current h.term, hdistinct, hvoters⟩
    have hsides : n'.voterSides = [n'.config.peers] := by
      unfold RaftNode.voterSides
      rw [h.single]
    rw [RaftNode.indexMeetsCommitQuorum_iff]
    · unfold RaftNode.Acknowledged
      rw [hsides, List.forall_mem_singleton, hout.roll]
      have hsub : n.config.nodeId :: acks ⊆
          n.config.peers.filter (fun p => decide (g.lastIndex ≤ n'.ackIndex p)) := by
        intro p hp
        refine List.mem_filter.mpr ⟨hout.roll ▸ hvoters p hp, ?_⟩
        exact decide_eq_true (hout.reached_units p hp)
      have hlen := (List.subperm_of_subset hdistinct hsub).length_le
      have henough := h.enough
      rw [hout.needed, hout.accepted] at henough
      exact henough.trans hlen
    · rw [hsides, List.forall_mem_singleton, hout.roll]
      exact List.ne_nil_of_mem hself

end Agreement

/-! ## With and without the leader among the voters -/

/-- A leader of three voters once the change that removes it is applied: it leaves
the voters, and stays leader because the step-down could not be saved. -/
def removedLeader : RaftNode :=
  (Action.configChange ⟨.final, [1, 2, 3], [2, 3]⟩).run { trioLeader with env := fullDisk }

/-- Voter 2 acknowledges the first entry. -/
def firstAck : InboundRaftMessage := ⟨2, .appendEntriesResp ⟨1, 1, true, 0⟩⟩

/-- One payload is proposed and one voter answers. -/
def opened (n : RaftNode) : RaftNode := (startPropose [[7]]).after n

def answeredOnce (n : RaftNode) : RaftNode :=
  (gatherQuorumAcks [firstAck] ⟨1, 1, 2, 1⟩).after (opened n)

/-- Either leader then commits its entry on the fast path. -/
theorem fastPath_answeredOnce {n : RaftNode}
    (hstart : (startPropose [[7]]).result? n = some (some ⟨1, 1, 2, 1⟩))
    (hgather : (gatherQuorumAcks [firstAck] ⟨1, 1, 2, 1⟩).result? (opened n) =
      some ⟨1, 1, 2, 2⟩)
    (hunits : n.config.nodeId :: gatherUnits [firstAck] ⟨1, 1, 2, 1⟩ (opened n) = [1, 2])
    (hstate : (answeredOnce n).jointPeers = none ∧ (answeredOnce n).isLeader = true ∧
      (answeredOnce n).hardState.currentTerm = 1 ∧
      (answeredOnce n).softState.commitIndex = 0) :
    FastPath [[7]] [firstAck] n (answeredOnce n) ⟨1, 1, 2, 2⟩ [1, 2] := by
  obtain ⟨hsingle, hl, hterm, hcommit⟩ := hstate
  refine ⟨⟨⟨1, 1, 2, 1⟩, opened n, RaftM.ok_of_result? hstart, RaftM.ok_of_result? hgather,
    hunits.symm⟩, hsingle, hl, hterm, le_rfl, ?_⟩
  rw [hcommit]
  exact Nat.zero_lt_one

theorem trioLeader_fastPath :
    FastPath [[7]] [firstAck] trioLeader (answeredOnce trioLeader) ⟨1, 1, 2, 2⟩ [1, 2] :=
  fastPath_answeredOnce (by decide +kernel) (by decide +kernel) (by decide +kernel)
    (by decide +kernel)

theorem fastPath_meets_rule_trio :
    trioLeader.config.peers.Nodup ∧ RuleMet (answeredOnce trioLeader) ⟨1, 1, 2, 2⟩ [1, 2] :=
  ⟨by decide, (fastPath_meets_rule_iff (by decide) trioLeader_fastPath).2.2.mpr (by decide)⟩

/-- A leader that is no voter any more commits an entry that one of the two voters
holds. -/
theorem fastPath_counts_outsider :
    removedLeader.isLeader = true ∧ removedLeader.config.peers.Nodup ∧
      FastPath [[7]] [firstAck] removedLeader (answeredOnce removedLeader) ⟨1, 1, 2, 2⟩
        [1, 2] ∧
      (answeredOnce removedLeader).config.peers = [2, 3] ∧
      (answeredOnce removedLeader).indexMeetsCommitQuorum 1 = false :=
  ⟨by decide +kernel, by decide +kernel,
    fastPath_answeredOnce (by decide +kernel) (by decide +kernel) (by decide +kernel)
      (by decide +kernel),
    by decide +kernel, by decide +kernel⟩

end ArbitroRaft
