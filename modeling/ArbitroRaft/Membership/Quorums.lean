import ArbitroRaft.Library.Quorum
import ArbitroRaft.Node.Election

/-!
# Quorums of a membership change

Elections count who granted a vote; commits take the quorum-th largest of the
acknowledged indices.  Both come down to a majority of every voter list the
configuration answers to: one list outside a transition, two while it is joint.
Configurations next to one another answer to a common list, so their quorums meet.

## Main results

* `quorums_intersect`: this, for votes and commits at adjacent stages.
-/

namespace ArbitroRaft

open Library

/-- What the commit rule counts for a member: the leader's own tip, or the
acknowledged index (0 without progress). -/
def RaftNode.ackIndex (n : RaftNode) (peer : PeerId) : Nat :=
  if peer = n.config.nodeId then n.cachedLastLog.1
  else ((n.peerProgress.get peer).map PeerProgress.matchIndex).getD 0

/-! ## Both decisions are majorities -/

/-- The members of `subset` that granted form a majority of it. -/
theorem majority_of_subsetVoteMajority {subset granted : List PeerId}
    (hnodup : subset.Nodup) (h : subsetVoteMajority subset granted = true) :
    Majority subset (subset.filter (fun p => decide (p ∈ granted))) := by
  refine ⟨hnodup.filter _, List.filter_subset_self _, ?_⟩
  exact of_decide_eq_true h

/-- The quorum index of a voter list is the greatest index that a quorum of it
has reached. -/
theorem RaftNode.le_quorumIndexOf_iff {n : RaftNode} {subset : List PeerId} {q : Nat}
    (hq : n.quorumIndexOf subset = some q) (i : Nat) :
    i ≤ q ↔ quorum subset.length ≤
      (subset.filter (fun p => decide (i ≤ n.ackIndex p))).length := by
  unfold RaftNode.quorumIndexOf subsetQuorumIndex at hq
  split at hq
  · simp at hq
  · have hiff : i ≤ q ↔ quorum subset.length - 1 <
        (subset.filter (fun p => decide (i ≤ n.ackIndex p))).length :=
      le_iff_lt_length_filter hq i
    rw [hiff]
    unfold quorum
    omega

/-- The members of `subset` that reached an index at or below the quorum index
form a majority of it. -/
theorem majority_of_quorumIndexOf {n : RaftNode} {subset : List PeerId} {q i : Nat}
    (hnodup : subset.Nodup) (hq : n.quorumIndexOf subset = some q) (hi : i ≤ q) :
    Majority subset (subset.filter (fun p => decide (i ≤ n.ackIndex p))) :=
  ⟨hnodup.filter _, List.filter_subset_self _, (RaftNode.le_quorumIndexOf_iff hq i).mp hi⟩

/-! ## The stages of a change -/

theorem RaftNode.mem_mergePeers {old new : List PeerId} {p : PeerId} :
    p ∈ mergePeers old new ↔ p ∈ old ∨ p ∈ new := by
  unfold mergePeers
  induction new generalizing old with
  | nil => simp
  | cons x xs ih =>
    rw [List.foldl_cons, ih, List.mem_cons]
    split
    · rename_i hx
      constructor
      · rintro (h | h)
        · exact .inl h
        · exact .inr (.inr h)
      · rintro (h | rfl | h)
        · exact .inl h
        · exact .inl hx
        · exact .inr h
    · rw [List.mem_append, List.mem_singleton, or_assoc]

/-- The voters before and after a change. -/
structure VoterChange where
  old : List PeerId
  new : List PeerId
  old_nodup : old.Nodup
  new_nodup : new.Nodup

/-- The successive configurations of a change. -/
inductive ChangeStage where
  | old
  | joint
  | new
deriving DecidableEq, Repr

/-- Equal or adjacent stages: all pairs but the two ends. -/
def ChangeStage.Borders : ChangeStage → ChangeStage → Prop
  | .old, .new => False
  | .new, .old => False
  | _, _ => True

namespace VoterChange

def peers (c : VoterChange) : ChangeStage → List PeerId
  | .old => c.old
  | .joint => RaftNode.mergePeers c.old c.new
  | .new => c.new

def jointPeers (c : VoterChange) : ChangeStage → Option (List PeerId × List PeerId)
  | .joint => some (c.old, c.new)
  | _ => none

/-- The voter lists whose majority a decision of the stage needs. -/
def sides (c : VoterChange) : ChangeStage → List (List PeerId)
  | .old => [c.old]
  | .joint => [c.old, c.new]
  | .new => [c.new]

/-- A node whose effective configuration is the one of a stage. -/
structure Serves (c : VoterChange) (s : ChangeStage) (n : RaftNode) : Prop where
  peers_eq : n.config.peers = c.peers s
  joint_eq : n.jointPeers = c.jointPeers s

theorem exists_common_side (c : VoterChange) {s s' : ChangeStage} (h : s.Borders s') :
    ∃ side, side ∈ c.sides s ∧ side ∈ c.sides s' := by
  cases s with
  | old =>
    refine ⟨c.old, List.mem_singleton_self _, ?_⟩
    cases s' with
    | new => exact h.elim
    | old => exact List.mem_singleton_self _
    | joint => exact List.mem_cons_self
  | joint =>
    cases s' with
    | new => exact ⟨c.new, by simp [sides], List.mem_singleton_self _⟩
    | old => exact ⟨c.old, List.mem_cons_self, List.mem_singleton_self _⟩
    | joint => exact ⟨c.old, List.mem_cons_self, List.mem_cons_self⟩
  | new =>
    refine ⟨c.new, List.mem_singleton_self _, ?_⟩
    cases s' with
    | old => exact h.elim
    | new => exact List.mem_singleton_self _
    | joint => simp [sides]

variable {c : VoterChange} {s s' : ChangeStage} {n n' : RaftNode}

/-- A side is the plain voter list, or one of the two of a joint configuration. -/
theorem Serves.side_cases (hn : c.Serves s n) {side : List PeerId} (hside : side ∈ c.sides s) :
    side.Nodup ∧
      (n.jointPeers = none ∧ n.config.peers = side ∨
        n.jointPeers = some (c.old, c.new) ∧ (side = c.old ∨ side = c.new)) := by
  have hpeers := hn.peers_eq
  have hjoint := hn.joint_eq
  cases s with
  | old =>
    obtain rfl : side = c.old := List.mem_singleton.mp hside
    exact ⟨c.old_nodup, .inl ⟨hjoint, hpeers⟩⟩
  | new =>
    obtain rfl : side = c.new := List.mem_singleton.mp hside
    exact ⟨c.new_nodup, .inl ⟨hjoint, hpeers⟩⟩
  | joint =>
    have hcases : side = c.old ∨ side = c.new := by simpa [sides] using hside
    refine ⟨?_, .inr ⟨hjoint, hcases⟩⟩
    obtain rfl | rfl := hcases
    · exact c.old_nodup
    · exact c.new_nodup

/-- A list accepted by `voter_majority` holds a majority of every side. -/
theorem Serves.majority_of_voterMajority (hn : c.Serves s n) {granted : List PeerId}
    (hnodup : granted.Nodup) (hsub : granted ⊆ n.config.peers)
    (hwon : n.voterMajority granted = true) {side : List PeerId} (hside : side ∈ c.sides s) :
    ∃ Q, Majority side Q ∧ Q ⊆ granted := by
  obtain ⟨hside_nodup, ⟨hj, hp⟩ | ⟨hj, hcases⟩⟩ := hn.side_cases hside
  · simp only [RaftNode.voterMajority, hj, decide_eq_true_eq, hp] at hwon
    exact ⟨granted, ⟨hnodup, hp ▸ hsub, hwon⟩, fun v hv => hv⟩
  · -- grants from the other side count for nothing here
    simp only [RaftNode.voterMajority, hj, Bool.and_eq_true] at hwon
    have hone : subsetVoteMajority side granted = true := by
      obtain rfl | rfl := hcases
      · exact hwon.1
      · exact hwon.2
    refine ⟨_, majority_of_subsetVoteMajority hside_nodup hone, ?_⟩
    intro v hv
    exact of_decide_eq_true (List.mem_filter.mp hv).2

/-- An index that meets the commit quorum was reached by a majority of every
side. -/
theorem Serves.majority_of_commitQuorum (hn : c.Serves s n) {i : Nat}
    (hmeets : n.indexMeetsCommitQuorum i = true) {side : List PeerId} (hside : side ∈ c.sides s) :
    Majority side (side.filter (fun p => decide (i ≤ n.ackIndex p))) := by
  obtain ⟨hside_nodup, hcases⟩ := hn.side_cases hside
  have hany : (n.quorumIndexOf side).any (fun q => decide (i ≤ q)) = true := by
    obtain ⟨hj, hp⟩ | ⟨hj, rfl | rfl⟩ := hcases
    · simp only [RaftNode.indexMeetsCommitQuorum, hj, hp] at hmeets
      exact hmeets
    · simp only [RaftNode.indexMeetsCommitQuorum, hj, Bool.and_eq_true] at hmeets
      exact hmeets.1
    · simp only [RaftNode.indexMeetsCommitQuorum, hj, Bool.and_eq_true] at hmeets
      exact hmeets.2
  obtain ⟨q, hq, hi⟩ := (Option.any_eq_true _ _).mp hany
  exact majority_of_quorumIndexOf hside_nodup hq (of_decide_eq_true hi)

theorem Serves.side_subset (hn : c.Serves s n) {side : List PeerId}
    (hside : side ∈ c.sides s) : side ⊆ n.config.peers := by
  intro v hv
  rw [hn.peers_eq]
  cases s with
  | old =>
    obtain rfl : side = c.old := List.mem_singleton.mp hside
    exact hv
  | new =>
    obtain rfl : side = c.new := List.mem_singleton.mp hside
    exact hv
  | joint =>
    have hcases : side = c.old ∨ side = c.new := by simpa [sides] using hside
    apply RaftNode.mem_mergePeers.mpr
    obtain rfl | rfl := hcases
    · exact .inl hv
    · exact .inr hv

/-- **Quorum intersection across a membership change.**  Voters accepted at one
stage meet, at the same or an adjacent stage, every set of members whose
acknowledgements make an index meet the commit quorum (the members outside the
set acknowledged less), and every other accepted list of voters. -/
theorem quorums_intersect (hborders : s.Borders s') (hn : c.Serves s n)
    (hn' : c.Serves s' n') {granted : List PeerId} (hnodup : granted.Nodup)
    (hsub : granted ⊆ n.config.peers) (hwon : n.voterMajority granted = true) :
    (∀ (i : Nat) (S : Set PeerId), 1 ≤ i →
      (∀ v ∈ n'.config.peers, v ∉ S → n'.ackIndex v < i) →
      n'.indexMeetsCommitQuorum i = true → ∃ v ∈ granted, v ∈ n'.config.peers ∧ v ∈ S) ∧
    (∀ granted' : List PeerId, granted'.Nodup → granted' ⊆ n'.config.peers →
      n'.voterMajority granted' = true → ∃ v ∈ granted, v ∈ granted') := by
  obtain ⟨side, hside, hside'⟩ := c.exists_common_side hborders
  obtain ⟨Q, hQ, hQsub⟩ := hn.majority_of_voterMajority hnodup hsub hwon hside
  constructor
  · intro i S _ houtside hmeets
    obtain ⟨v, hvQ, hv⟩ := hQ.intersect (hn'.majority_of_commitQuorum hmeets hside')
    obtain ⟨hvside, hack⟩ := List.mem_filter.mp hv
    have hmember : v ∈ n'.config.peers := hn'.side_subset hside' hvside
    refine ⟨v, hQsub hvQ, hmember, ?_⟩
    by_contra hS
    have hlow := houtside v hmember hS
    have hreached : i ≤ n'.ackIndex v := of_decide_eq_true hack
    omega
  · intro granted' hnodup' hsub' hwon'
    obtain ⟨Q', hQ', hQsub'⟩ := hn'.majority_of_voterMajority hnodup' hsub' hwon' hside'
    obtain ⟨v, hvQ, hvQ'⟩ := hQ.intersect hQ'
    exact ⟨v, hQsub hvQ, hQsub' hvQ'⟩

/-- Voters 1, 2, 3 replaced by 3, 4, 5. -/
def swapPair : VoterChange := ⟨[1, 2, 3], [3, 4, 5], by decide, by decide⟩

/-- A member at a stage of the swap, with one entry of its own. -/
def swapNode (id : PeerId) (s : ChangeStage) : RaftNode :=
  { RaftNode.fromStorage
      { nodeId := id, peers := swapPair.peers s, learners := [], bootstrapPeers := [],
        timing := TimingConfig.initial, limits := LimitsConfig.initial }
      { hardState := ⟨1, none⟩, entries := [⟨1, 1, [7]⟩], snapshot := none, seeded := false }
      [] (Env.calm 0) with
    jointPeers := swapPair.jointPeers s }

/-- A leader at the final stage whose entry 1 the voter 5 acknowledged. -/
def swapLeader : RaftNode :=
  { swapNode 4 .new with peerProgress := PeerMap.empty.insert 5 ⟨2, 1⟩ }

theorem quorums_intersect_joint_then_new :
    (∃ v ∈ [1, 3, 4], v ∈ swapLeader.config.peers ∧ v ∈ ({4, 5} : Set PeerId)) ∧
      ∃ v ∈ [1, 3, 4], v ∈ [3, 5] := by
  have hboth := quorums_intersect (c := swapPair) (s := .joint) (n := swapNode 1 .joint)
    trivial ⟨rfl, rfl⟩ (⟨rfl, rfl⟩ : swapPair.Serves .new swapLeader)
    (by decide : [1, 3, 4].Nodup) (by decide) (by decide)
  refine ⟨hboth.1 1 {4, 5} (by decide) ?_ (by decide), hboth.2 [3, 5] ?_ ?_ ?_⟩
  · intro v hv hS
    simp only [Set.mem_insert_iff, Set.mem_singleton_iff, not_or] at hS
    have hthree : v = 3 := by
      have hmem : v ∈ [3, 4, 5] := hv
      simp only [List.mem_cons, List.not_mem_nil, or_false] at hmem
      tauto
    subst hthree
    decide
  · decide
  · decide
  · decide

end VoterChange

end ArbitroRaft
