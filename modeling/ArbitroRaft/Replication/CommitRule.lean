import ArbitroRaft.Effect.Propose
import ArbitroRaft.Membership.Quorums

/-!
# The commit rule is exact

Raft commits an entry of the current term once a majority of the voters holds
it, of both voter lists while they overlap.  `try_advance_commit_index` never
looks for such an entry: it sorts what each list acknowledged, takes the smaller
of the two quorum-th largest indices and tests the term of that one entry.  The
two agree because terms do not decrease along a log: if any entry above the
commit index qualifies, the one at the quorum index does.

## Main results

* `tryAdvanceCommitIndex_exact`: the code commits what the rule commits.
-/

namespace ArbitroRaft

open Library

namespace RaftNode

/-- The voter lists a decision needs a majority of. -/
def voterSides (n : RaftNode) : List (List PeerId) :=
  match n.jointPeers with
  | some (old, new) => [old, new]
  | none => [n.config.peers]

/-- A quorum of every voter list has acknowledged `i`. -/
def Acknowledged (n : RaftNode) (i : Nat) : Prop :=
  ∀ side ∈ n.voterSides,
    quorum side.length ≤ (side.filter (fun p => decide (i ≤ n.ackIndex p))).length

/-- The entry at `i` may be committed. -/
structure Committable (n : RaftNode) (i : Nat) : Prop where
  le_last : i ≤ n.cachedLastLog.1
  current : n.storage.termAt i = some n.hardState.currentTerm
  majority : ∀ side ∈ n.voterSides,
    Majority side (side.filter (fun p => decide (i ≤ n.ackIndex p)))

/-- The index `try_advance_commit_index` commits, if it commits one. -/
def advanceTo? (n : RaftNode) : Option Nat :=
  if 1 < n.config.peers.length ∧ n.peerProgress.isEmpty then none
  else if n.cachedLastLog.1 ≤ n.softState.commitIndex then none
  else
    n.quorumIndex.filter (fun q => decide (n.softState.commitIndex < q ∧
      n.quorumTermOf q = n.hardState.currentTerm))

variable {n : RaftNode}

/-! ## What the quorum index is -/

variable {side : List PeerId} {i : Nat}

theorem quorumIndexOf_isSome (hne : side ≠ []) : ∃ q, n.quorumIndexOf side = some q := by
  unfold quorumIndexOf subsetQuorumIndex
  rw [if_neg hne]
  have hlen : 0 < side.length := List.length_pos_iff.mpr hne
  refine ⟨_, List.getElem?_eq_getElem ?_⟩
  rw [List.length_insertionSort, List.length_map]
  unfold quorum
  omega

/-- The quorum index is the greatest acknowledged one. -/
theorem quorumIndex_spec (hne : ∀ side ∈ n.voterSides, side ≠ []) :
    ∃ q, n.quorumIndex = some q ∧ ∀ i, i ≤ q ↔ n.Acknowledged i := by
  unfold quorumIndex Acknowledged
  unfold voterSides at hne ⊢
  cases hj : n.jointPeers with
  | none =>
    rw [hj] at hne
    obtain ⟨q, hq⟩ := quorumIndexOf_isSome (n := n) (hne _ List.mem_cons_self)
    refine ⟨q, hq, fun i => ?_⟩
    rw [le_quorumIndexOf_iff hq i, List.forall_mem_singleton]
  | some sides =>
    obtain ⟨old, new⟩ := sides
    rw [hj] at hne
    obtain ⟨q, hq⟩ := quorumIndexOf_isSome (n := n) (hne old List.mem_cons_self)
    obtain ⟨q', hq'⟩ := quorumIndexOf_isSome (n := n)
      (hne new (List.mem_cons_of_mem _ List.mem_cons_self))
    refine ⟨min q q', by simp only [hq, hq'], fun i => ?_⟩
    rw [le_min_iff, le_quorumIndexOf_iff hq i, le_quorumIndexOf_iff hq' i,
      List.forall_mem_cons, List.forall_mem_singleton]

/-- The predicate of the propose path reads the same rule. -/
theorem indexMeetsCommitQuorum_iff (hne : ∀ side ∈ n.voterSides, side ≠ []) (i : Nat) :
    n.indexMeetsCommitQuorum i = true ↔ n.Acknowledged i := by
  have hone {side : List PeerId} (h : side ≠ []) :
      (n.quorumIndexOf side).any (fun q => decide (i ≤ q)) = true ↔
        quorum side.length ≤ (side.filter (fun p => decide (i ≤ n.ackIndex p))).length := by
    obtain ⟨q, hq⟩ := quorumIndexOf_isSome (n := n) h
    rw [← le_quorumIndexOf_iff hq i, hq, Option.any_some, decide_eq_true_eq]
  unfold indexMeetsCommitQuorum Acknowledged
  unfold voterSides at hne ⊢
  cases hj : n.jointPeers with
  | none =>
    rw [hj] at hne
    rw [List.forall_mem_singleton]
    exact hone (hne _ List.mem_cons_self)
  | some sides =>
    obtain ⟨old, new⟩ := sides
    rw [hj] at hne
    rw [List.forall_mem_cons, List.forall_mem_singleton]
    dsimp only
    rw [Bool.and_eq_true, hone (hne old List.mem_cons_self),
      hone (hne new (List.mem_cons_of_mem _ List.mem_cons_self))]

/-- An acknowledged index was reached by someone, in every voter list. -/
theorem Acknowledged.reached (h : n.Acknowledged i) (hside : side ∈ n.voterSides) :
    ∃ p ∈ side, i ≤ n.ackIndex p := by
  have hlen : 0 < (side.filter (fun p => decide (i ≤ n.ackIndex p))).length := by
    have := h side hside
    unfold quorum at this
    omega
  obtain ⟨p, hp⟩ := List.exists_mem_of_length_pos hlen
  obtain ⟨hp, hi⟩ := List.mem_filter.mp hp
  exact ⟨p, hp, of_decide_eq_true hi⟩

/-- Without any progress nobody else acknowledged anything, so a list with a
second voter acknowledges only 0. -/
theorem Acknowledged.eq_zero (h : n.Acknowledged i) (hempty : n.peerProgress.isEmpty)
    (hside : side ∈ n.voterSides) (hnodup : side.Nodup) {p : PeerId} (hp : p ∈ side)
    (hother : p ≠ n.config.nodeId) : i = 0 := by
  by_contra hpos
  have hack {v : PeerId} (hv : i ≤ n.ackIndex v) : v = n.config.nodeId := by
    by_contra hne
    have hnone : n.peerProgress.get v = none := by
      unfold PeerMap.isEmpty at hempty
      simp_all [PeerMap.get]
    rw [ackIndex, if_neg hne, hnone] at hv
    exact hpos (Nat.le_zero.mp hv)
  have hsub : side.filter (fun v => decide (i ≤ n.ackIndex v)) ⊆ [n.config.nodeId] := by
    intro v hv
    exact List.mem_singleton.mpr (hack (of_decide_eq_true (List.mem_filter.mp hv).2))
  have hfew := (List.subperm_of_subset (hnodup.filter _) hsub).length_le
  have hquorum := h side hside
  have hself : n.config.nodeId ∈ side := by
    obtain ⟨v, hv, hi⟩ := h.reached hside
    exact hack hi ▸ hv
  have htwo : [p, n.config.nodeId].length ≤ side.length :=
    (List.subperm_of_subset (by simpa using hother) (by simp [hp, hself])).length_le
  simp only [List.length_cons, List.length_nil] at hfew htwo
  unfold quorum at hquorum
  omega

/-- Several voters and no progress: only index 0 is acknowledged. -/
theorem acknowledged_eq_zero (hpeers : n.config.peers.Nodup)
    (hlisted : ∀ p ∈ n.config.peers, ∃ side ∈ n.voterSides, p ∈ side)
    (hsides : ∀ side ∈ n.voterSides, side.Nodup) (hmany : 1 < n.config.peers.length)
    (hempty : n.peerProgress.isEmpty) (hi : n.Acknowledged i) : i = 0 := by
  obtain ⟨p, hp, hother⟩ : ∃ p ∈ n.config.peers, p ≠ n.config.nodeId := by
    by_contra hno
    push Not at hno
    have hsub : n.config.peers ⊆ [n.config.nodeId] := fun p hp =>
      List.mem_singleton.mpr (hno p hp)
    have := (List.subperm_of_subset hpeers hsub).length_le
    simp only [List.length_cons, List.length_nil] at this
    omega
  obtain ⟨side, hside, hmem⟩ := hlisted p hp
  exact hi.eq_zero hempty hside (hsides side hside) hmem hother

end RaftNode

/-! ## What the function does -/

theorem quorumTerm_run (n : RaftNode) (index : Nat) :
    ∃ a, quorumTerm index n = .ok (n.quorumTermOf index) { n with logMetadata := a } := by
  unfold quorumTerm RaftNode.quorumTermOf
  rw [get_bind]
  split
  · exact ⟨n.logMetadata, rfl⟩
  · cases n.logMetadata.getTerm index with
    | some t => exact ⟨n.logMetadata, rfl⟩
    | none =>
      dsimp only
      split
      · exact ⟨_, rfl⟩
      · exact ⟨n.logMetadata, rfl⟩

theorem tryAdvanceCommitIndex_run (n : RaftNode) :
    ∃ a, tryAdvanceCommitIndex n = .ok () (n.advanceTo?.elim { n with logMetadata := a }
      (fun q => ({ n with logMetadata := a } : RaftNode).setCommitIndex q)) := by
  unfold tryAdvanceCommitIndex RaftNode.advanceTo?
  rw [get_bind]
  split
  · exact ⟨n.logMetadata, rfl⟩
  · split
    · exact ⟨n.logMetadata, rfl⟩
    · cases n.quorumIndex with
      | none => exact ⟨n.logMetadata, rfl⟩
      | some q =>
        dsimp only
        split
        · rename_i hle
          rw [Option.filter_some, decide_eq_false (fun h => absurd h.1 (not_lt.mpr hle))]
          exact ⟨n.logMetadata, rfl⟩
        · rename_i hlt
          obtain ⟨a, ha⟩ := quorumTerm_run n q
          refine ⟨a, ?_⟩
          unfold commitIfCurrentTerm
          rw [bind_of_ok ha, get_bind]
          by_cases hterm : n.quorumTermOf q = n.hardState.currentTerm
          · rw [if_pos hterm, Option.filter_some, decide_eq_true ⟨not_le.mp hlt, hterm⟩]
            rfl
          · rw [if_neg hterm, Option.filter_some, decide_eq_false (fun h => hterm h.2)]
            rfl

/-! ## The two agree -/

/-- What a leader's log, term lookups and progress table satisfy when it applies
the commit rule: sound voter lists, terms that do not decrease along the log or
exceed the current one, lookups above the commit index that read the log, and no
acknowledgement past the leader's own tip. -/
structure RaftNode.RuleApplies (n : RaftNode) : Prop where
  peers_nodup : n.config.peers.Nodup
  peers_listed : ∀ p ∈ n.config.peers, ∃ side ∈ n.voterSides, p ∈ side
  sides_ne : ∀ side ∈ n.voterSides, side ≠ []
  sides_nodup : ∀ side ∈ n.voterSides, side.Nodup
  terms_sorted : ∀ i j t u, i ≤ j → n.storage.termAt i = some t →
    n.storage.termAt j = some u → t ≤ u
  terms_le : ∀ i t, n.storage.termAt i = some t → t ≤ n.hardState.currentTerm
  lookups : ∀ i, n.softState.commitIndex < i → i ≤ n.cachedLastLog.1 →
    n.storage.termAt i = some (n.quorumTermOf i)
  acks_le : ∀ side ∈ n.voterSides, ∀ p ∈ side, n.ackIndex p ≤ n.cachedLastLog.1

namespace RaftNode.RuleApplies

variable {n : RaftNode}

theorem le_last_of_acknowledged (h : n.RuleApplies) {q : Nat} (hq : n.Acknowledged q) :
    q ≤ n.cachedLastLog.1 := by
  obtain ⟨side, hside⟩ : ∃ side, side ∈ n.voterSides := by
    unfold RaftNode.voterSides
    split
    · exact ⟨_, List.mem_cons_self⟩
    · exact ⟨_, List.mem_cons_self⟩
  obtain ⟨p, hp, hi⟩ := hq.reached hside
  exact hi.trans (h.acks_le side hside p hp)

theorem committable_iff (h : n.RuleApplies) {i : Nat} : n.Committable i ↔
    n.storage.termAt i = some n.hardState.currentTerm ∧ n.Acknowledged i := by
  constructor
  · exact fun hc => ⟨hc.current, fun side hside => (hc.majority side hside).half⟩
  · rintro ⟨hterm, hack⟩
    refine ⟨?_, hterm, fun side hside =>
      ⟨(h.sides_nodup side hside).filter _, List.filter_subset_self _, hack side hside⟩⟩
    exact h.le_last_of_acknowledged hack

/-- The entry at the quorum index qualifies if any entry above the commit index
does. -/
theorem current_of_committable (h : n.RuleApplies) {i q : Nat} (hc : n.Committable i)
    (hi : n.softState.commitIndex < i) (hiq : i ≤ q) (hq : q ≤ n.cachedLastLog.1) :
    n.quorumTermOf q = n.hardState.currentTerm := by
  have hterm := h.lookups q (hi.trans_le hiq) hq
  exact le_antisymm (h.terms_le q _ hterm) (h.terms_sorted i q _ _ hiq hc.current hterm)

/-- What is committed is the greatest committable index; nothing is committed
when none lies above the commit index. -/
theorem advanceTo?_spec (h : n.RuleApplies) :
    (∀ q, n.advanceTo? = some q → n.softState.commitIndex < q ∧ n.Committable q ∧
      ∀ i, n.Committable i → i ≤ q) ∧
    (n.advanceTo? = none → ∀ i, n.Committable i → i ≤ n.softState.commitIndex) := by
  obtain ⟨q, hq, hgreatest⟩ := RaftNode.quorumIndex_spec h.sides_ne
  have hqlast := h.le_last_of_acknowledged ((hgreatest q).mp le_rfl)
  have hle {i : Nat} (hc : n.Committable i) : i ≤ q :=
    (hgreatest i).mpr (h.committable_iff.mp hc).2
  unfold RaftNode.advanceTo?
  split
  · rename_i hearly
    refine ⟨nofun, fun _ i hc => ?_⟩
    rw [RaftNode.acknowledged_eq_zero h.peers_nodup h.peers_listed h.sides_nodup hearly.1 hearly.2
      (h.committable_iff.mp hc).2]
    exact Nat.zero_le _
  · split
    · rename_i hlast
      exact ⟨nofun, fun _ i hc => hc.le_last.trans hlast⟩
    · rw [hq, Option.filter_some]
      split
      · rename_i hsome
        obtain ⟨hlt, hterm⟩ := of_decide_eq_true hsome
        refine ⟨fun q' hq' => ?_, nofun⟩
        cases hq'
        refine ⟨hlt, h.committable_iff.mpr ⟨?_, (hgreatest q).mp le_rfl⟩, fun i => hle⟩
        rw [h.lookups q hlt hqlast, hterm]
      · rename_i hnone
        refine ⟨nofun, fun _ i hc => ?_⟩
        by_contra hlt
        have hlt := not_le.mp hlt
        apply hnone
        exact decide_eq_true
          ⟨hlt.trans_le (hle hc), h.current_of_committable hc hlt (hle hc) hqlast⟩

end RaftNode.RuleApplies

/-- **The commit rule is exact.**  `try_advance_commit_index` moves the commit
index to the greatest of its old value and the committable indices, and changes
nothing besides it and the term cache. -/
theorem tryAdvanceCommitIndex_exact (n : RaftNode) (h : n.RuleApplies) :
    ∃ (a : LogMetadataArena) (c : Nat),
      IsGreatest {i | i = n.softState.commitIndex ∨ n.Committable i} c ∧
      (tryAdvanceCommitIndex n = .ok () { n with logMetadata := a } ∧
          c = n.softState.commitIndex ∨
        tryAdvanceCommitIndex n =
          .ok () (({ n with logMetadata := a } : RaftNode).setCommitIndex c)) := by
  obtain ⟨a, hrun⟩ := tryAdvanceCommitIndex_run n
  obtain ⟨hsome, hnone⟩ := h.advanceTo?_spec
  cases hto : n.advanceTo? with
  | none =>
      rw [hto] at hrun
      refine ⟨a, n.softState.commitIndex, ⟨.inl rfl, ?_⟩, .inl ⟨hrun, rfl⟩⟩
      rintro i (rfl | hc)
      · exact le_rfl
      · exact hnone hto i hc
  | some q =>
      rw [hto] at hrun
      obtain ⟨hlt, hq, hmax⟩ := hsome q hto
      refine ⟨a, q, ⟨.inr hq, ?_⟩, .inr hrun⟩
      rintro i (rfl | hc)
      · exact hlt.le
      · exact hmax i hc

/-- A joint leader of term 2: the old voters hold entry 3, but only entry 2 has
reached a majority of the new ones. -/
def overlappingLeader : RaftNode :=
  { RaftNode.fromStorage
      { nodeId := 3, peers := [1, 2, 3, 4, 5], learners := [], bootstrapPeers := [],
        timing := TimingConfig.initial, limits := LimitsConfig.initial }
      { hardState := ⟨2, some 3⟩, entries := [⟨1, 1, [7]⟩, ⟨2, 2, [7]⟩, ⟨2, 3, [7]⟩],
        snapshot := none, seeded := false }
      [] (Env.calm 0) with
    jointPeers := some ([1, 2, 3], [3, 4, 5])
    softState :=
      { role := .leader, leaderId := some 3, isLeader := true, commitIndex := 1 }
    peerProgress :=
      (((PeerMap.empty.insert 1 ⟨4, 3⟩).insert 2 ⟨2, 1⟩).insert 4 ⟨3, 2⟩).insert 5 ⟨1, 0⟩ }

theorem overlappingLeader_ruleApplies : overlappingLeader.RuleApplies where
  peers_nodup := by decide
  peers_listed := by decide
  sides_ne := by decide
  sides_nodup := by decide
  terms_sorted := by
    intro i j t u hij ht hu
    obtain ⟨e, he, rfl, rfl⟩ := Storage.mem_of_termAt ht
    obtain ⟨e', he', rfl, rfl⟩ := Storage.mem_of_termAt hu
    have hall : ∀ e ∈ overlappingLeader.storage.entries,
        ∀ e' ∈ overlappingLeader.storage.entries, e.index ≤ e'.index → e.term ≤ e'.term := by
      decide
    exact hall e he e' he' hij
  terms_le := by
    intro i t ht
    obtain ⟨e, he, rfl, rfl⟩ := Storage.mem_of_termAt ht
    have hall : ∀ e ∈ overlappingLeader.storage.entries,
        e.term ≤ overlappingLeader.hardState.currentTerm := by
      decide
    exact hall e he
  lookups := by
    intro i hlow hhigh
    have hlow : 1 < i := hlow
    have hhigh : i ≤ 3 := hhigh
    interval_cases i
    · decide +kernel
    · decide +kernel
  acks_le := by decide

theorem tryAdvanceCommitIndex_exact_overlapping :
    ∃ (a : LogMetadataArena) (c : Nat),
      IsGreatest {i | i = 1 ∨ overlappingLeader.Committable i} c ∧
      (tryAdvanceCommitIndex overlappingLeader =
          .ok () { overlappingLeader with logMetadata := a } ∧ c = 1 ∨
        tryAdvanceCommitIndex overlappingLeader =
          .ok () (({ overlappingLeader with logMetadata := a } : RaftNode).setCommitIndex c)) :=
  tryAdvanceCommitIndex_exact overlappingLeader overlappingLeader_ruleApplies

end ArbitroRaft
