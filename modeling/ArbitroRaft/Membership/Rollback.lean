import ArbitroRaft.Machine.Batch
import ArbitroRaft.Membership.Effective
import ArbitroRaft.Membership.Hosted

/-!
# What a failed membership call gives back

A call puts its entry in force before it proposes it, and takes it back when the
proposal fails in front of the log.  The two are not inverse to each other.  A
voter change strips the learners that become voters, and what is taken back is the
voters only; the progress of a removed learner is dropped, and what is put back is
that of a newcomer.  The condition under which a failed call leaves no trace is
exact.  Behind the append a call keeps its entry in the log as long as the frames it
handles spare it.

## Main results

* `failed_call_rolls_back`: both, for every request of a leader.
-/

namespace ArbitroRaft

open Library

/-- The entry that a call appends first. -/
def RaftNode.controlEntry (n : RaftNode) (entry : ConfigChangeEntry) : LogEntry :=
  { term := n.hardState.currentTerm
    index := satAdd n.cachedLastLog.1 1
    payload := entry.encode }

/-- The configuration is the one of `n`, and on a leader so is the progress of every
member. -/
structure RolledBack (n n' : RaftNode) : Prop where
  peers : n'.config.peers = n.config.peers
  learners : n'.config.learners = n.config.learners
  joint : n'.jointPeers = n.jointPeers
  progress : n'.isLeader = true → ∀ p, n.Member p → n'.peerProgress.get p = n.peerProgress.get p

/-- Every other member has a slot in the progress table. -/
def RaftNode.Tracked (n : RaftNode) : Prop :=
  ∀ p, n.Member p → p ≠ n.config.nodeId → (n.peerProgress.get p).isSome

/-- The change can be taken back.  A voter change must not touch a learner, a learner
that is removed must have the progress of a newcomer, and a node that leads without
being a voter must be able to write that it steps down. -/
def RaftNode.Reversible (n : RaftNode) (entry : ConfigChangeEntry) : Prop :=
  match entry.phase with
  | .joint =>
    (∀ l ∈ n.config.learners, l ∉ mergePeers entry.oldPeers entry.newPeers) ∧ n.Tracked
  | .final => True
  | .addLearner | .removeLearner =>
    if n.config.nodeId ∈ n.config.peers then
      n.Tracked ∧ ∀ p ∈ entry.newPeers, entry.phase = .removeLearner → p ∉ n.config.peers →
        n.peerProgress.get p = some n.freshProgress
    else n.env.saveFails n.storage.hardState ⟨n.hardState.currentTerm, none⟩ = none

/-! ## The progress table -/

section Progress

variable {n : RaftNode}

theorem get_foldl_dropPeer (stale : List PeerId) (h : n.peerProgress.keys.Nodup) (p : PeerId) :
    (stale.foldl RaftNode.dropPeer n).peerProgress.get p =
      if p ∈ stale then none else n.peerProgress.get p := by
  induction stale generalizing n with
  | nil => exact (if_neg List.not_mem_nil).symm
  | cons x xs ih =>
    rw [List.foldl_cons, ih (n := n.dropPeer x) (PeerMap.nodup_keys_remove x h)]
    rw [show (n.dropPeer x).peerProgress = n.peerProgress.remove x from rfl,
      PeerMap.get_remove h]
    by_cases hx : p = x
    · rw [if_pos hx, ite_self, if_pos (hx ▸ List.mem_cons_self)]
    · rw [if_neg hx]
      by_cases hxs : p ∈ xs
      · rw [if_pos hxs, if_pos (List.mem_cons_of_mem x hxs)]
      · rw [if_neg hxs, if_neg (List.not_mem_cons_of_ne_of_not_mem hx hxs)]

theorem get_addProgress (n : RaftNode) (x p : PeerId) :
    (n.addProgress x).peerProgress.get p = (n.peerProgress.get p).or
      (if p = x ∧ p ≠ n.config.nodeId then some n.freshProgress else none) := by
  unfold RaftNode.addProgress
  split
  · rename_i hx
    by_cases hp : p = x ∧ p ≠ n.config.nodeId
    · obtain ⟨rfl, hself⟩ := hp
      obtain ⟨v, hv⟩ := Option.isSome_iff_exists.mp (hx.resolve_left hself)
      rw [hv]
      rfl
    · rw [if_neg hp, Option.or_none]
  · rename_i hx
    rw [not_or] at hx
    have hnone : n.peerProgress.get x = none := Option.not_isSome_iff_eq_none.mp hx.2
    rw [show n.freshProgress = ⟨satAdd n.cachedLastLog.1 1, 0⟩ from rfl]
    dsimp only
    rw [PeerMap.get_insert]
    by_cases hp : p = x
    · subst hp
      rw [if_pos rfl, if_pos ⟨rfl, hx.1⟩, hnone]
      rfl
    · rw [if_neg hp, if_neg fun h => hp h.1, Option.or_none]

theorem get_foldl_addProgress (members : List PeerId) (n : RaftNode) (p : PeerId) :
    (members.foldl RaftNode.addProgress n).peerProgress.get p = (n.peerProgress.get p).or
      (if p ∈ members ∧ p ≠ n.config.nodeId then some n.freshProgress else none) := by
  induction members generalizing n with
  | nil => rw [List.foldl_nil, if_neg fun h => List.not_mem_nil h.1, Option.or_none]
  | cons x xs ih =>
    have hconfig := (SameRoll.addProgress n x).config
    have hfresh : (n.addProgress x).freshProgress = n.freshProgress := by
      unfold RaftNode.addProgress
      split <;> rfl
    rw [List.foldl_cons, ih, hconfig, hfresh, get_addProgress, Option.or_assoc]
    congr 1
    by_cases hself : p = n.config.nodeId
    · rw [if_neg fun h => h.2 hself, if_neg fun h => h.2 hself, if_neg fun h => h.2 hself]
      rfl
    by_cases hx : p = x
    · have hmem : p ∈ x :: xs := hx ▸ List.mem_cons_self
      rw [if_pos (show p = x ∧ p ≠ n.config.nodeId from ⟨hx, hself⟩), Option.some_or,
        if_pos ⟨hmem, hself⟩]
    · rw [if_neg fun h => hx h.1, Option.none_or]
      refine if_congr ?_ rfl rfl
      rw [List.mem_cons, or_iff_right hx]

/-- What a leader knows of `p` once its table is settled. -/
theorem get_settleConfig (h : n.peerProgress.keys.Nodup) (hl : n.isLeader = true) (p : PeerId) :
    n.settleConfig.peerProgress.get p =
      if n.Member p then
        (n.peerProgress.get p).or (if p ≠ n.config.nodeId then some n.freshProgress else none)
      else none := by
  unfold RaftNode.settleConfig RaftNode.reconcileLeaderProgressWithConfig
  rw [if_pos hl]
  dsimp only
  generalize hstale : n.peerProgress.keys.filter
    (fun p => decide (p ∉ n.config.peers ∧ p ∉ n.config.learners)) = stale
  have hroll := (SameRoll.foldl (f := RaftNode.dropPeer) (fun _ _ => ⟨rfl, rfl⟩) stale n).config
  have hfresh : (stale.foldl RaftNode.dropPeer n).freshProgress = n.freshProgress := by
    unfold RaftNode.freshProgress
    rw [(SameLog.foldl (f := RaftNode.dropPeer)
      (fun _ _ => ⟨⟨rfl, rfl, rfl, rfl, rfl⟩, rfl, rfl, rfl⟩) stale n).cached]
  have hmem : p ∈ n.config.peers ++ n.config.learners ↔ n.Member p := List.mem_append
  rw [get_foldl_addProgress, hroll, hfresh, get_foldl_dropPeer stale h]
  by_cases hp : n.Member p
  · have hkept : p ∉ stale := by
      rw [← hstale, List.mem_filter, decide_eq_true_eq, ← not_or]
      exact fun hgone => hgone.2 hp
    rw [if_neg hkept, if_pos hp]
    congr 1
    refine if_congr ?_ rfl rfl
    rw [hmem, and_iff_right hp]
  · have hout : ¬ (p ∈ n.config.peers ++ n.config.learners ∧ p ≠ n.config.nodeId) :=
      fun hin => hp (hmem.mp hin.1)
    rw [if_neg hp, if_neg hout, Option.or_none]
    by_cases hkey : p ∈ n.peerProgress.keys
    · have hgone : p ∈ stale := by
        rw [← hstale, List.mem_filter, decide_eq_true_eq, ← not_or]
        exact ⟨hkey, hp⟩
      rw [if_pos hgone]
    · rw [PeerMap.mem_keys_iff, Option.not_isSome_iff_eq_none] at hkey
      rw [hkey, ite_self]

theorem leads_adoptConfig (entry : ConfigChangeEntry) (hl : n.isLeader = true) :
    (n.adoptConfig entry).isLeader = true := by
  unfold RaftNode.isLeader at hl ⊢
  rw [isLeader_adoptConfig]
  exact hl

theorem isLeader_settleConfig (n : RaftNode) : n.settleConfig.isLeader = n.isLeader := by
  unfold RaftNode.settleConfig RaftNode.reconcileLeaderProgressWithConfig
  split
  · refine (foldl_same (g := RaftNode.isLeader) ?_ _ _).trans
      (foldl_same (g := RaftNode.isLeader) ?_ _ n)
    · intro m a
      unfold RaftNode.addProgress
      split <;> rfl
    · exact fun _ _ => rfl
  · rfl

theorem nodup_settleConfig (h : n.peerProgress.keys.Nodup) :
    n.settleConfig.peerProgress.keys.Nodup := by
  unfold RaftNode.settleConfig RaftNode.reconcileLeaderProgressWithConfig
  split
  · exact (foldl_addProgress _ (foldl_dropPeer _ h).1).1
  · exact h

end Progress

/-! ## A proposal that is refused -/

/-- A proposal that did not reach the log leaves these alone. -/
structure Refused (n m : RaftNode) : Prop where
  config : m.config = n.config
  joint : m.jointPeers = n.jointPeers
  role : m.isLeader = n.isLeader
  tip : m.cachedLastLog = n.cachedLastLog
  progress : m.peerProgress = n.peerProgress ∨
    m.peerProgress = n.ensureLeaderProgressInitialized.peerProgress

section Refused

variable {n : RaftNode} {payload : EntryPayload}

theorem refused_expireTransfer (n : RaftNode) : Refused n n.expireTransfer := by
  have hcore := congrArg Prod.fst (core_expireTransfer n)
  refine ⟨congrArg Core.config hcore, congrArg Core.jointPeers hcore, ?_,
    congrArg Core.cachedLastLog hcore, .inl (congrArg Core.peerProgress hcore)⟩
  unfold RaftNode.isLeader
  rw [show n.expireTransfer.softState.role = n.softState.role from congrArg Core.role hcore]

/-- The node that is about to append. -/
def RaftNode.readied (n : RaftNode) : RaftNode :=
  n.expireTransfer.ensureLeaderProgressInitialized

theorem refused_readied (n : RaftNode) : Refused n n.readied := by
  have hexpired := refused_expireTransfer n
  have hcore := congrArg Prod.fst (core_expireTransfer n)
  have hfresh : n.expireTransfer.initializeLeaderProgress.peerProgress =
      n.initializeLeaderProgress.peerProgress := by
    unfold RaftNode.initializeLeaderProgress RaftNode.otherPeers RaftNode.freshProgress
    rw [hexpired.config, hexpired.tip]
  have hprogress : n.readied.peerProgress = n.ensureLeaderProgressInitialized.peerProgress := by
    have hsame : n.expireTransfer.peerProgress = n.peerProgress :=
      congrArg Core.peerProgress hcore
    unfold RaftNode.readied RaftNode.ensureLeaderProgressInitialized
    rw [hsame]
    split
    · exact hfresh
    · exact hsame
  have hsame : n.readied.config = n.expireTransfer.config ∧
      n.readied.jointPeers = n.expireTransfer.jointPeers ∧
      n.readied.isLeader = n.expireTransfer.isLeader ∧
      n.readied.cachedLastLog = n.expireTransfer.cachedLastLog := by
    unfold RaftNode.readied RaftNode.ensureLeaderProgressInitialized
    split <;> exact ⟨rfl, rfl, rfl, rfl⟩
  exact ⟨hsame.1.trans hexpired.config, hsame.2.1.trans hexpired.joint,
    hsame.2.2.1.trans hexpired.role, hsame.2.2.2.trans hexpired.tip, .inr hprogress⟩

/-- The append fails in front of the log. -/
theorem appendProposeEntries_refused {m : RaftNode} (h : m.Refuses (m.proposedBatch [payload])) :
    ∃ e, appendProposeEntries [payload] m = .error e
      { m with scratchIndexes := (m.proposedBatch [payload]).map LogEntry.index } := by
  obtain ⟨-, e, he⟩ | ⟨-, -, hable⟩ := stores_storeEntries (m.proposedBatch [payload])
    { m with scratchIndexes := (m.proposedBatch [payload]).map LogEntry.index }
  · refine ⟨e, get_bind.trans ?_⟩
    exact set_bind.trans (bind_of_error he)
  · exact absurd (.inl h) hable

theorem startProposeOnce_refused (h : ¬ n.CanPropose payload) :
    ∃ e m, startProposeOnce payload n = .error e m ∧ Refused n m := by
  suffices hstart : ∃ e m, startPropose [payload] n = .error e m ∧ Refused n m by
    obtain ⟨e, m, hm, href⟩ := hstart
    exact ⟨e, m, bind_of_error hm, href⟩
  unfold startPropose
  rw [get_bind]
  by_cases hl : n.isLeader = true
  swap
  · rw [if_neg hl]
    exact ⟨_, n, rfl, rfl, rfl, rfl, rfl, .inl rfl⟩
  rw [if_pos hl]
  cases hfrozen : n.expireTransfer.pendingTransfer with
  | some t =>
    have hfreeze : checkTransferFreeze n = .error (.notLeader (some t.target)) n.expireTransfer := by
      unfold checkTransferFreeze
      rw [modify_bind, get_bind, hfrozen]
      rfl
    exact ⟨_, _, bind_of_error hfreeze, refused_expireTransfer n⟩
  | none =>
    have hfreeze : checkTransferFreeze n = .ok () n.expireTransfer := by
      unfold checkTransferFreeze
      rw [modify_bind, get_bind, hfrozen]
      rfl
    have hcore := congrArg Prod.fst (core_expireTransfer n)
    have hbatch : n.readied.proposedBatch [payload] = n.proposedBatch [payload] ∧
        n.readied.storage = n.storage ∧ n.readied.env = n.env := by
      obtain ⟨hstorage, hhard, -, -, htip⟩ := ensureProgress_same n.expireTransfer
      refine ⟨?_, hstorage.trans (congrArg Core.storage hcore), ?_⟩
      · unfold RaftNode.proposedBatch RaftNode.readied
        rw [hhard, htip, show n.expireTransfer.hardState = n.hardState from
          congrArg Core.hardState hcore, (refused_expireTransfer n).tip]
      · refine Eq.trans ?_ (congrArg Core.env hcore)
        unfold RaftNode.readied RaftNode.ensureLeaderProgressInitialized
        split <;> rfl
    have hrefuse : n.readied.Refuses (n.readied.proposedBatch [payload]) := by
      by_contra hable
      refine h ⟨hl, hfrozen, ?_⟩
      unfold RaftNode.Refuses at hable ⊢
      rwa [hbatch.1, hbatch.2.1, hbatch.2.2] at hable
    obtain ⟨e, he⟩ := appendProposeEntries_refused hrefuse
    refine ⟨e, { n.readied with
      scratchIndexes := (n.readied.proposedBatch [payload]).map LogEntry.index },
      (bind_of_ok hfreeze).trans ?_, ?_⟩
    · rw [if_neg (List.cons_ne_nil payload []), modify_bind, get_bind]
      exact bind_of_error he
    · have href := refused_readied n
      exact ⟨href.config, href.joint, href.role, href.tip, href.progress⟩

end Refused

/-! ## Taking a change back -/

/-- What a leader assumes of a member it has not heard of. -/
def RaftNode.newcomer (n : RaftNode) (p : PeerId) : Option PeerProgress :=
  if p ≠ n.config.nodeId then some n.freshProgress else none

section Taken

variable {n m : RaftNode} {entry : ConfigChangeEntry} {p : PeerId}

theorem or_newcomer_eq_self :
    (n.peerProgress.get p).or (n.newcomer p) = n.peerProgress.get p ↔
      (p ≠ n.config.nodeId → (n.peerProgress.get p).isSome) := by
  unfold RaftNode.newcomer
  cases n.peerProgress.get p with
  | some v => simp
  | none =>
    by_cases hp : p = n.config.nodeId
    · simp [hp]
    · simp [hp]

/-- The table of a leader whose configuration was settled, behind a refused proposal. -/
theorem Refused.table (h : Refused n.settleConfig m) (hkeys : n.peerProgress.keys.Nodup)
    (hl : n.isLeader = true) :
    m.peerProgress.keys.Nodup ∧
      ∀ p, m.peerProgress.get p = n.settleConfig.peerProgress.get p := by
  have hsettled := nodup_settleConfig hkeys
  obtain hsame | hsame := h.progress
  · rw [hsame]
    exact ⟨hsettled, fun _ => rfl⟩
  rw [hsame]
  unfold RaftNode.ensureLeaderProgressInitialized
  split
  · rename_i hempty
    -- nobody is tracked, so there is nobody to track
    obtain ⟨hnodup, htracks⟩ := tracksMembers_atStart n.settleConfig
    refine ⟨hnodup, fun p => ?_⟩
    have hnone : n.settleConfig.peerProgress.get p = none := by
      rw [PeerMap.isEmpty_iff.mp hempty]
      rfl
    rw [hnone, ← Option.not_isSome_iff_eq_none, ← PeerMap.mem_keys_iff, htracks p]
    rintro ⟨hmember, hself⟩
    have hroll := SameRoll.settleConfig n
    rw [get_settleConfig hkeys hl, if_pos ((member_congr hroll).mp hmember),
      if_pos (hroll.config ▸ hself), Option.or_eq_none_iff] at hnone
    cases hnone.2
  · exact ⟨hsettled, fun _ => rfl⟩

/-- A leader whose voters are put back, with `learners` beside them. -/
theorem rolledBack_settleConfig {k : RaftNode} (hpeers : k.config.peers = n.config.peers)
    (hid : k.config.nodeId = n.config.nodeId) (hjoint : k.jointPeers = n.jointPeers)
    (htip : k.cachedLastLog = n.cachedLastLog) (hl : k.isLeader = true)
    (hkeys : k.peerProgress.keys.Nodup) :
    RolledBack n k.settleConfig ↔ k.config.learners = n.config.learners ∧
      ∀ p, n.Member p → (k.peerProgress.get p).or (n.newcomer p) = n.peerProgress.get p := by
  have hroll := SameRoll.settleConfig k
  have hlead : k.settleConfig.isLeader = true := (isLeader_settleConfig k).trans hl
  have hget : k.config.learners = n.config.learners → ∀ p, n.Member p →
      k.settleConfig.peerProgress.get p = (k.peerProgress.get p).or (n.newcomer p) := by
    intro hlearners p hp
    have hmember : k.Member p := by
      unfold RaftNode.Member
      rw [hpeers, hlearners]
      exact hp
    rw [get_settleConfig hkeys hl, if_pos hmember]
    unfold RaftNode.newcomer RaftNode.freshProgress
    rw [hid, htip]
  constructor
  · intro h
    have hlearners : k.config.learners = n.config.learners := hroll.config ▸ h.learners
    refine ⟨hlearners, fun p hp => ?_⟩
    rw [← hget hlearners p hp]
    exact h.progress hlead p hp
  · rintro ⟨hlearners, hprogress⟩
    refine ⟨hroll.config ▸ hpeers, hroll.config ▸ hlearners, hroll.joint.trans hjoint, ?_⟩
    intro _ p hp
    rw [hget hlearners p hp]
    exact hprogress p hp

/-- What the leader knows of `p` once its change is in force and was not proposed. -/
theorem Refused.get (h : Refused (n.reconfigured entry) m) (hkeys : n.peerProgress.keys.Nodup)
    (hl : n.isLeader = true) (p : PeerId) :
    m.peerProgress.get p =
      if (n.adoptConfig entry).Member p then (n.peerProgress.get p).or (n.newcomer p)
      else none := by
  have hsame : (n.adoptConfig entry).peerProgress = n.peerProgress ∧
      (n.adoptConfig entry).freshProgress = n.freshProgress := by
    unfold RaftNode.adoptConfig
    cases entry.phase <;> exact ⟨rfl, rfl⟩
  have hlead := leads_adoptConfig entry hl
  rw [(h.table (hsame.1.symm ▸ hkeys) hlead).2 p, get_settleConfig (hsame.1.symm ▸ hkeys) hlead,
    hsame.1, hsame.2, (SameSide.adoptConfig n entry).nodeId]
  rfl

/-- Taking back, on a leader, a change that was not proposed. -/
theorem Refused.rolledBack_iff {k : RaftNode} (h : Refused (n.reconfigured entry) m)
    (hkeys : n.peerProgress.keys.Nodup) (hl : n.isLeader = true)
    (hpeers : k.config.peers = n.config.peers) (hid : k.config.nodeId = m.config.nodeId)
    (hjoint : k.jointPeers = n.jointPeers) (htip : k.cachedLastLog = m.cachedLastLog)
    (hrole : k.isLeader = m.isLeader) (htable : k.peerProgress = m.peerProgress) :
    RolledBack n k.settleConfig ↔ k.config.learners = n.config.learners ∧
      ∀ p, n.Member p →
        if (n.adoptConfig entry).Member p then
          p ≠ n.config.nodeId → (n.peerProgress.get p).isSome
        else n.newcomer p = n.peerProgress.get p := by
  have hsettle := SameSide.settleConfig (n.adoptConfig entry)
  have hlead := leads_adoptConfig entry hl
  have hprog : (n.adoptConfig entry).peerProgress = n.peerProgress := by
    unfold RaftNode.adoptConfig
    cases entry.phase <;> rfl
  have hnode : k.config.nodeId = n.config.nodeId := by
    rw [hid, h.config]
    exact hsettle.nodeId.trans (SameSide.adoptConfig n entry).nodeId
  have hcached : k.cachedLastLog = n.cachedLastLog := by
    rw [htip, h.tip]
    exact (SameLog.settleConfig _).cached.trans (SameLog.adoptConfig n entry).cached
  have hlk : k.isLeader = true := by
    rw [hrole, h.role]
    exact (isLeader_settleConfig _).trans hlead
  have hnodup : k.peerProgress.keys.Nodup := htable ▸ (h.table (hprog.symm ▸ hkeys) hlead).1
  rw [rolledBack_settleConfig hpeers hnode hjoint hcached hlk hnodup, htable]
  refine and_congr_right fun _ => forall_congr' fun p => imp_congr_right fun _ => ?_
  rw [h.get hkeys hl]
  split
  · rw [Option.or_assoc, Option.or_self]
    exact or_newcomer_eq_self
  · rw [Option.none_or]

/-! ## The requests -/

/-- The changes a leader proposes. -/
inductive RaftNode.Asks (n : RaftNode) : ConfigChangeEntry → Prop
  | voters (newPeers : List PeerId) (hself : n.config.nodeId ∈ newPeers)
      (hjoint : n.jointPeers = none) : n.Asks ⟨.joint, n.config.peers, newPeers⟩
  | adds (peer : PeerId) (hpeer : peer ∉ n.config.peers) (hlearner : peer ∉ n.config.learners) :
      n.Asks ⟨.addLearner, [], [peer]⟩
  | removes (peer : PeerId) (hlearner : peer ∈ n.config.learners) :
      n.Asks ⟨.removeLearner, [], [peer]⟩

theorem decision_asks {r : ConfigRequest} (h : n.decision r = .propose entry) : n.Asks entry := by
  unfold RaftNode.decision at h
  cases r with
  | proposeConfigChange newPeers =>
    obtain ⟨-, hself, hjoint, rfl⟩ := decideVoters_propose h
    exact .voters newPeers hself hjoint
  | addLearner peer =>
    obtain ⟨rfl, hadd, -⟩ := decideLearner_propose h
    exact .adds peer (hadd rfl).1 (hadd rfl).2
  | removeLearner peer =>
    obtain ⟨rfl, -, hremove⟩ := decideLearner_propose h
    exact .removes peer (hremove rfl)
  | promoteLearner peer =>
    obtain ⟨-, hself, hjoint, rfl⟩ := decidePromotion_propose h
    exact .voters _ hself hjoint

variable {e : RaftError} {n' : RaftNode}

theorem guard_of_error {α : Type} {c : ConfigCall} {m : RaftM α} (h : m n = .error e n') :
    c.guard m n = .error e (c.undo n') :=
  tryCatch_of_error h

theorem entries_undo (c : ConfigCall) (n : RaftNode) :
    (c.undo n).storage.entries = n.storage.entries := by
  unfold ConfigCall.undo
  split
  · exact c.entries_revert n
  · rfl

/-- A voter of the new configuration whose change did not reach the log. -/
theorem activateAndPropose_failed (hphase : entry.phase ≠ .final)
    (hin : n.config.nodeId ∈ (n.adoptConfig entry).config.peers)
    (h : activateAndPropose entry n = .error e n')
    (hout : n.controlEntry entry ∉ n'.storage.entries) :
    ∃ m, Refused (n.reconfigured entry) m ∧
      n' = (n.callOf entry Gather.unopened).revert m := by
  have hlog : SameLog n (n.reconfigured entry) :=
    (SameLog.adoptConfig n entry).trans (SameLog.settleConfig _)
  unfold activateAndPropose at h
  rw [get_bind, bind_of_ok (applyConfigChange_inside hphase hin)] at h
  by_cases hcan : (n.reconfigured entry).CanPropose entry.encode
  · -- the entry is in the log, and undoing the call leaves it there
    have hlands := startProposeOnce_lands (n.reconfigured entry) entry.encode
    unfold Ends at hlands
    have hterm : (n.reconfigured entry).hardState = n.hardState :=
      (SameSide.settleConfig _).hard.trans (SameSide.adoptConfig n entry).hard
    cases hstart : startProposeOnce entry.encode (n.reconfigured entry) with
    | ok g m =>
      have hguard : (n.callOf entry Gather.unopened).guard (startProposeOnce entry.encode)
          (n.reconfigured entry) = .ok g m := tryCatch_of_ok hstart
      rw [bind_of_ok hguard] at h
      cases h
    | error e' m =>
      rw [hstart] at hlands
      obtain ⟨-, hcannot⟩ | hland := hlands
      · exact absurd hcan hcannot
      rw [bind_of_error (guard_of_error hstart)] at h
      injection h with _ hn'
      subst hn'
      refine absurd ?_ hout
      rw [entries_undo, hland.entries]
      refine List.mem_append_right _ ?_
      unfold RaftNode.proposedBatch RaftNode.controlEntry
      rw [hterm, hlog.cached]
      exact List.mem_cons_self
  · obtain ⟨e', m, hstart, href⟩ := startProposeOnce_refused hcan
    rw [bind_of_error (guard_of_error hstart)] at h
    injection h with _ hn'
    refine ⟨m, href, hn'.symm.trans ?_⟩
    unfold ConfigCall.undo
    exact if_pos (congrArg Prod.fst (href.tip.trans hlog.cached))

/-- Where every member stays one, what is put back is what was known. -/
theorem tracked_iff (h : ∀ p, n.Member p → (n.adoptConfig entry).Member p) :
    (∀ p, n.Member p →
        if (n.adoptConfig entry).Member p then
          p ≠ n.config.nodeId → (n.peerProgress.get p).isSome
        else n.newcomer p = n.peerProgress.get p) ↔ n.Tracked := by
  refine forall_congr' fun p => imp_congr_right fun hp => ?_
  rw [if_pos (h p hp)]

theorem config_refused (h : Refused (n.reconfigured entry) m) :
    m.config = (n.adoptConfig entry).config :=
  h.config.trans (SameRoll.settleConfig _).config

theorem joint_refused (h : Refused (n.reconfigured entry) m) :
    m.jointPeers = (n.adoptConfig entry).jointPeers :=
  h.joint.trans (SameRoll.settleConfig _).joint

theorem reversible_voters {newPeers : List PeerId} (g : Gather) (hjoint : n.jointPeers = none)
    (hkeys : n.peerProgress.keys.Nodup) (hl : n.isLeader = true)
    (h : Refused (n.reconfigured ⟨.joint, n.config.peers, newPeers⟩) m) :
    RolledBack n ((n.callOf ⟨.joint, n.config.peers, newPeers⟩ g).revert m) ↔
      n.Reversible ⟨.joint, n.config.peers, newPeers⟩ := by
  have hstay : ∀ p, n.Member p →
      (n.adoptConfig ⟨.joint, n.config.peers, newPeers⟩).Member p := by
    intro p hp
    by_cases hmerge : p ∈ RaftNode.mergePeers n.config.peers newPeers
    · exact .inl hmerge
    · refine .inr (List.mem_filter.mpr ⟨hp.resolve_left fun hpeer => ?_, decide_eq_true hmerge⟩)
      exact hmerge (RaftNode.mem_mergePeers.mpr (.inl hpeer))
  refine (h.rolledBack_iff hkeys hl (k := { m with
    config := { m.config with peers := n.config.peers }, jointPeers := none })
    rfl rfl hjoint.symm rfl rfl rfl).trans ?_
  rw [tracked_iff hstay]
  refine and_congr_left fun _ => ?_
  change m.config.learners = n.config.learners ↔ _
  rw [config_refused h]
  refine List.filter_eq_self.trans ?_
  exact forall₂_congr fun _ _ => decide_eq_true_iff

/-- A learner change on a voter. -/
theorem reversible_learner {phase : ConfigChangePhase} {peer : PeerId} (g : Gather)
    (hphase : phase = .addLearner ∨ phase = .removeLearner)
    (hvoter : n.config.nodeId ∈ n.config.peers) (hkeys : n.peerProgress.keys.Nodup)
    (hl : n.isLeader = true) (hlearner : phase = .removeLearner → peer ∈ n.config.learners)
    (h : Refused (n.reconfigured ⟨phase, [], [peer]⟩) m) :
    RolledBack n ((n.callOf ⟨phase, [], [peer]⟩ g).revert m) ↔
      n.Reversible ⟨phase, [], [peer]⟩ := by
  have hpeers : m.config.peers = n.config.peers := by
    rw [config_refused h]
    obtain rfl | rfl := hphase <;> rfl
  have hjoint : m.jointPeers = n.jointPeers := by
    rw [joint_refused h]
    obtain rfl | rfl := hphase <;> rfl
  have hback : (n.callOf ⟨phase, [], [peer]⟩ g).revert m =
      (m.setLearners n.config.learners).settleConfig := by
    obtain rfl | rfl := hphase <;> rfl
  rw [hback, h.rolledBack_iff hkeys hl (k := m.setLearners n.config.learners) hpeers rfl hjoint
    rfl rfl rfl, and_iff_right (by rfl)]
  unfold RaftNode.Reversible
  obtain rfl | rfl := hphase
  · dsimp only
    rw [if_pos hvoter]
    have hstay : ∀ p, n.Member p → (n.adoptConfig ⟨.addLearner, [], [peer]⟩).Member p := by
      intro p hp
      refine hp.imp_right fun hp => ?_
      change p ∈ if peer ∉ n.config.peers ∧ peer ∉ n.config.learners then _ else _
      split
      · exact List.mem_append_left _ hp
      · exact hp
    rw [tracked_iff hstay]
    exact (and_iff_left fun _ _ hremove => ConfigChangePhase.noConfusion hremove).symm
  · dsimp only
    rw [if_pos hvoter]
    -- the learner that leaves is the only member that is not one any more
    have hstay : ∀ p, n.Member p → (p = peer → p ∈ n.config.peers) →
        (n.adoptConfig ⟨.removeLearner, [], [peer]⟩).Member p := by
      intro p hp hne
      by_cases hpeer : p ∈ n.config.peers
      · exact .inl hpeer
      · refine .inr (List.mem_filter.mpr ⟨hp.resolve_left hpeer, decide_eq_true fun hmem => ?_⟩)
        exact hpeer (hne (List.mem_singleton.mp hmem))
    have hgone : peer ∉ n.config.peers →
        ¬ (n.adoptConfig ⟨.removeLearner, [], [peer]⟩).Member peer := by
      rintro hpeer (hmem | hmem)
      · exact hpeer hmem
      · exact of_decide_eq_true (List.mem_filter.mp hmem).2 List.mem_cons_self
    constructor
    · intro hall
      have hfresh : peer ∉ n.config.peers → n.peerProgress.get peer = some n.freshProgress := by
        intro hpeer
        have hpeerAt := hall peer (.inr (hlearner rfl))
        rw [if_neg (hgone hpeer)] at hpeerAt
        refine hpeerAt.symm.trans (if_pos ?_)
        rintro rfl
        exact hpeer hvoter
      refine ⟨fun p hp hself => ?_, fun p hp _ hpeer => ?_⟩
      · by_cases hout : p = peer ∧ p ∉ n.config.peers
        · obtain ⟨rfl, hpeer⟩ := hout
          rw [hfresh hpeer]
          rfl
        · have hat := hall p hp
          rw [if_pos (hstay p hp fun heq => not_not.mp fun hp' => hout ⟨heq, hp'⟩)] at hat
          exact hat hself
      · obtain rfl := List.mem_singleton.mp hp
        exact hfresh hpeer
    · rintro ⟨htracked, hfresh⟩ p hp
      by_cases hout : p = peer ∧ p ∉ n.config.peers
      · obtain ⟨rfl, hpeer⟩ := hout
        rw [if_neg (hgone hpeer), hfresh p List.mem_cons_self rfl hpeer]
        refine if_pos ?_
        rintro rfl
        exact hpeer hvoter
      · rw [if_pos (hstay p hp fun heq => not_not.mp fun hp' => hout ⟨heq, hp'⟩)]
        exact htracked p hp

/-- A learner change on a node that leads without being a voter: it steps down first. -/
theorem activateAndPropose_outside {phase : ConfigChangePhase} {peer : PeerId}
    (hphase : phase = .addLearner ∨ phase = .removeLearner)
    (hvoter : n.config.nodeId ∉ n.config.peers) (hl : n.isLeader = true)
    (hadd : phase = .addLearner → peer ∉ n.config.peers ∧ peer ∉ n.config.learners)
    (hremove : phase = .removeLearner → peer ∈ n.config.learners)
    (h : activateAndPropose ⟨phase, [], [peer]⟩ n = .error e n') :
    RolledBack n n' ↔
      n.env.saveFails n.storage.hardState ⟨n.hardState.currentTerm, none⟩ = none := by
  have hwire : SameSide n (n.reconfigured ⟨phase, [], [peer]⟩) :=
    (SameSide.adoptConfig n _).trans (SameSide.settleConfig _)
  have hconfig : (n.reconfigured ⟨phase, [], [peer]⟩).config =
      (n.adoptConfig ⟨phase, [], [peer]⟩).config := (SameRoll.settleConfig _).config
  have hpeers : (n.reconfigured ⟨phase, [], [peer]⟩).config.peers = n.config.peers := by
    rw [hconfig]
    obtain rfl | rfl := hphase <;> rfl
  have hjoint : (n.reconfigured ⟨phase, [], [peer]⟩).jointPeers = n.jointPeers := by
    refine (SameRoll.settleConfig _).joint.trans ?_
    obtain rfl | rfl := hphase <;> rfl
  have hlead : (n.reconfigured ⟨phase, [], [peer]⟩).isLeader = true :=
    (isLeader_settleConfig _).trans (leads_adoptConfig _ hl)
  have houtside : (n.reconfigured ⟨phase, [], [peer]⟩).leadsFromOutside = true := by
    unfold RaftNode.leadsFromOutside
    rw [hlead, hpeers, hwire.nodeId, decide_eq_true hvoter]
    rfl
  have hvalid : (ConfigChangeEntry.mk phase [] [peer]).isRefused = false :=
    decide_eq_false fun hfinal => List.cons_ne_nil _ _ hfinal.2
  have happly : applyConfigChange ⟨phase, [], [peer]⟩ n =
      stepDown n.hardState.currentTerm (n.reconfigured ⟨phase, [], [peer]⟩) := by
    unfold applyConfigChange
    rw [hvalid, if_neg Bool.false_ne_true, modify_bind]
    change leaveIfRemoved (n.reconfigured ⟨phase, [], [peer]⟩) = _
    unfold leaveIfRemoved
    rw [get_bind, houtside, if_pos rfl, hwire.hard]
  have hlearners : (n.reconfigured ⟨phase, [], [peer]⟩).config.learners ≠ n.config.learners := by
    rw [hconfig]
    obtain rfl | rfl := hphase
    · intro heq
      have hnew := (hadd rfl)
      change (if peer ∉ n.config.peers ∧ peer ∉ n.config.learners then
        n.config.learners ++ [peer] else n.config.learners) = n.config.learners at heq
      rw [if_pos hnew] at heq
      exact hnew.2 (heq ▸ List.mem_append_right _ List.mem_cons_self)
    · intro heq
      have hmem : peer ∈ (n.adoptConfig ⟨.removeLearner, [], [peer]⟩).config.learners :=
        heq.symm ▸ hremove rfl
      exact of_decide_eq_true (List.mem_filter.mp hmem).2 List.mem_cons_self
  rw [stepDown_eq, hwire.env, hwire.durable] at happly
  unfold activateAndPropose at h
  rw [get_bind] at h
  cases hsave : n.env.saveFails n.storage.hardState ⟨n.hardState.currentTerm, none⟩ with
  | some kind =>
    rw [hsave] at happly
    rw [bind_of_error happly] at h
    injection h with _ hn'
    subst hn'
    refine iff_of_false (fun hback => hlearners hback.learners) nofun
  | none =>
    rw [hsave] at happly
    rw [bind_of_ok happly] at h
    have hcannot : ¬ ((n.reconfigured ⟨phase, [], [peer]⟩).withHard
        ⟨n.hardState.currentTerm, none⟩).savedHard.demoteToFollowerKeepTerm.CanPropose
        (ConfigChangeEntry.mk phase [] [peer]).encode :=
      fun hcan => Bool.false_ne_true hcan.1
    obtain ⟨e', m, hstart, href⟩ := startProposeOnce_refused hcannot
    rw [bind_of_error (guard_of_error hstart)] at h
    injection h with _ hn'
    have htip : m.cachedLastLog = n.cachedLastLog :=
      href.tip.trans ((SameLog.settleConfig _).cached.trans (SameLog.adoptConfig n _).cached)
    have hidle : (m.setLearners n.config.learners).isLeader = false := href.role
    have hback : n' = m.setLearners n.config.learners := by
      refine hn'.symm.trans ((if_pos (congrArg Prod.fst htip)).trans ?_)
      refine Eq.trans (b := (m.setLearners n.config.learners).settleConfig) ?_ ?_
      · obtain rfl | rfl := hphase <;> rfl
      · unfold RaftNode.settleConfig
        rw [hidle, if_neg Bool.false_ne_true]
    rw [hback]
    refine iff_of_true ⟨?_, rfl, href.joint.trans hjoint, ?_⟩ rfl
    · exact (congrArg NodeConfig.peers href.config).trans hpeers
    · intro hleads
      rw [hidle] at hleads
      cases hleads

/-- A call that fails in front of its log entry leaves no trace exactly when its change
can be taken back. -/
theorem openCall_rolledBack_iff {r : ConfigRequest} (hl : n.isLeader = true)
    (hkeys : n.peerProgress.keys.Nodup) (h : openCall r n = .error e n')
    (hout : ∀ entry, n.decision r = .propose entry → n.controlEntry entry ∉ n'.storage.entries) :
    RolledBack n n' ↔ ∀ entry, n.decision r = .propose entry → n.Reversible entry := by
  unfold openCall at h
  rw [get_bind] at h
  cases hdec : n.decision r with
  | refuse e' =>
    rw [hdec] at h
    injection h with _ hn'
    subst hn'
    exact iff_of_true ⟨rfl, rfl, rfl, fun _ _ _ => rfl⟩ nofun
  | handOff target =>
    rw [hdec] at h
    cases h
  | propose entry =>
    rw [hdec] at h
    have hcall : activateAndPropose entry n = .error e n' := by
      cases hact : activateAndPropose entry n with
      | ok c m =>
        dsimp only at h
        rw [bind_of_ok hact] at h
        cases h
      | error e' m =>
        dsimp only at h
        rw [bind_of_error hact] at h
        injection h with he hn'
        rw [he, hn']
    have hout := hout entry hdec
    refine Iff.trans ?_ (show n.Reversible entry ↔ _ from
      ⟨fun hr _ heq => ChangeDecision.propose.inj heq ▸ hr, fun hr => hr entry rfl⟩)
    cases decision_asks hdec with
    | voters newPeers hself hjoint =>
      obtain ⟨m, href, rfl⟩ := activateAndPropose_failed ConfigChangePhase.noConfusion
        (RaftNode.mem_mergePeers.mpr (.inr hself)) hcall hout
      exact reversible_voters _ hjoint hkeys hl href
    | adds peer hpeer hlearner =>
      by_cases hvoter : n.config.nodeId ∈ n.config.peers
      · obtain ⟨m, href, rfl⟩ := activateAndPropose_failed ConfigChangePhase.noConfusion
          hvoter hcall hout
        exact reversible_learner _ (.inl rfl) hvoter hkeys hl
          ConfigChangePhase.noConfusion href
      · refine (activateAndPropose_outside (.inl rfl) hvoter hl (fun _ => ⟨hpeer, hlearner⟩)
          ConfigChangePhase.noConfusion hcall).trans ?_
        unfold RaftNode.Reversible
        dsimp only
        rw [if_neg hvoter]
    | removes peer hlearner =>
      by_cases hvoter : n.config.nodeId ∈ n.config.peers
      · obtain ⟨m, href, rfl⟩ := activateAndPropose_failed ConfigChangePhase.noConfusion
          hvoter hcall hout
        exact reversible_learner _ (.inr rfl) hvoter hkeys hl (fun _ => hlearner) href
      · refine (activateAndPropose_outside (.inr rfl) hvoter hl ConfigChangePhase.noConfusion
          (fun _ => hlearner) hcall).trans ?_
        unfold RaftNode.Reversible
        dsimp only
        rw [if_neg hvoter]

end Taken

/-! ## A call that waits -/

/-- The log holds `b`. -/
def Storage.Retains (s : Storage) (b : LogEntry) : Prop := b ∈ s.entries

theorem Storage.sparable_retains (b : LogEntry) : Storage.Sparable [b] (·.Retains b) where
  of_entries s s' he h := by
    unfold Storage.Retains
    rw [he]
    exact h
  append s rest _ h := List.mem_append_left rest h
  truncateSuffix s i hi h :=
    List.mem_filter.mpr ⟨h, decide_eq_true (hi b List.mem_cons_self)⟩
  truncateBefore s i hi h :=
    List.mem_filter.mpr ⟨h, decide_eq_true (hi b List.mem_cons_self)⟩

section Waits

variable {n : RaftNode} {b : LogEntry} {c : ConfigCall}

theorem guard_retains {α : Type} {m : RaftM α}
    (h : Ends m n (fun _ n' => n'.storage.Retains b) fun n' => n'.storage.Retains b) :
    Ends (c.guard m) n (fun _ n' => n'.storage.Retains b) fun n' => n'.storage.Retains b := by
  refine .cleanup (h.mono_error fun n' hn' => ?_)
  exact (Storage.sparable_retains b).of_entries _ _ (entries_undo c n') hn'

/-- The final entry of a voter change goes behind the first one. -/
theorem startProposeOnce_retains (payload : EntryPayload) (h : n.storage.Retains b) :
    Ends (startProposeOnce payload) n (fun _ n' => n'.storage.Retains b)
      fun n' => n'.storage.Retains b := by
  have hmoves : ∀ n', Moves (callScope (fun _ => False) (· = [payload])) n n' →
      n'.storage.Retains b := by
    intro n' hmoves
    refine hmoves.preserves (J := fun m => m.storage.Retains b) id h fun m m' hm he => ?_
    rcases he.store with hs | hl
    · exact (Storage.sparable_retains b).of_entries _ _ hs.entries hm
    · exact hl.spares (Storage.sparable_retains b) hm
        (fun _ s rest hmem => List.mem_append_left rest hmem) (fun hr => hr)
        (fun hc => hc) (fun _ _ _ hrecv => (hrecv.rx.elim id id).elim)
        fun _ _ _ hrx => hrx.elim
  exact (Ends.of_emits startProposeOnce_emits).mono (fun _ n' hm => hmoves n' hm.1)
    fun n' hm => hmoves n' hm

/-- The call is open, the node does not restart, and the frame leaves `b` in the log. -/
def Host.Awaits (b : LogEntry) (h : Host) (a : Env × HostAct) : Prop :=
  h.call.isSome ∧ (∀ config, a.2 ≠ .restart config) ∧
    ∀ f, a.2.frame = some f → (h.node.within a.1).Spares [b] f

/-- A call finds its entry in the log as long as no frame cuts it. -/
theorem Host.step_retains {h h' : Host} {a : Env × HostAct} (hin : h.node.storage.Retains b)
    (ha : h.Awaits b a) (hstep : h.stepIn a = some h') : h'.node.storage.Retains b := by
  obtain ⟨hopen, hrestart, hframe⟩ := ha
  have hin : (h.node.within a.1).storage.Retains b := hin
  have hacts : ∀ x : Action, x ≠ .restore → x ≠ .compact →
      (∀ f, x.frame = some f → (h.node.within a.1).Spares [b] f) →
      (x.run (h.node.within a.1)).storage.Retains b := fun x hr hc hf =>
    Action.spares (Storage.sparable_retains b) hin
      (fun _ s rest hmem => List.mem_append_left rest hmem) hr hc hf
  obtain ⟨env, act⟩ := a
  cases Host.step_inv hstep with
  | request r hnone =>
    rw [hnone] at hopen
    cases hopen
  | gather f c =>
    refine Ends.resumed (J := fun _ n' => n'.storage.Retains b) ?_
    refine (guard_retains (Ends.of_after ?_)).seq fun _ _ hn => Ends.ret hn
    rw [← after_ignore]
    exact hacts (.gatherFrame f c.gather) Action.noConfusion Action.noConfusion hframe
  | commit c =>
    refine Ends.resumed (J := fun _ n' => n'.storage.Retains b) ?_
    refine (guard_retains (Ends.of_after ?_)).seq fun _ _ hn => Ends.ret hn
    exact hacts (.finishPropose c.gather) Action.noConfusion Action.noConfusion nofun
  | drain f c =>
    refine Ends.resumed (J := fun _ n' => n'.storage.Retains b) ?_
    refine (guard_retains (Ends.of_after ?_)).seq fun _ _ hn => Ends.ret hn
    rw [after_handleInboundTolerant]
    exact hacts (.inbound f) Action.noConfusion Action.noConfusion hframe
  | close c =>
    refine Ends.resumed (J := fun _ n' => n'.storage.Retains b) ?_
    unfold closeCall
    have hfirst : Ends firstIndex (h.node.within env) (fun _ n' => n'.storage.Retains b)
        fun n' => n'.storage.Retains b := by
      unfold firstIndex
      refine .read ?_
      split
      · exact .fail hin
      · exact .ret hin
    refine (guard_retains hfirst).seq fun _ n' hn => ?_
    split
    · refine .read ((startProposeOnce_retains _ hn).seq fun _ _ hn => ?_)
      exact .ret hn
    · exact .ret hn
  | act x =>
    obtain ⟨c, hcall⟩ := Option.isSome_iff_exists.mp hopen
    unfold Host.stepIn Host.step at hstep
    dsimp only at hstep
    rw [hcall] at hstep
    cases hstep
  | restart config => exact absurd rfl (hrestart config)

/-- A change that was proposed is in the log. -/
theorem activateAndPropose_landed {entry : ConfigChangeEntry} {n₁ : RaftNode}
    (h : activateAndPropose entry n = .ok c n₁) :
    c.entry = entry ∧ n₁.storage.Retains (n.controlEntry entry) := by
  unfold activateAndPropose at h
  rw [get_bind] at h
  obtain ⟨_, m, happly, hrest⟩ := ok_of_bind h
  obtain ⟨g, m', hguard, hret⟩ := ok_of_bind hrest
  injection hret with hc hn
  subst hc hn
  have hstart : startProposeOnce entry.encode m = .ok g m' := by
    cases hgo : startProposeOnce entry.encode m with
    | ok g' k =>
      have hsame := (tryCatch_of_ok hgo).symm.trans hguard
      exact hsame
    | error e k =>
      rw [guard_of_error hgo] at hguard
      cases hguard
  have happlied : Emits (Moves activationScope) (applyConfigChange entry) n
      (fun _ n' => SameLog n n') :=
    applyConfigChange_emits trivial trivial fun _ => trivial
  have hlog := (happlied.of_ok happly).2
  have hterm := ((Sparing.silent (P := fun _ => True) (applyConfigChange_emits trivial trivial
    fun _ => trivial)).of_ok happly).1.term trivial
  have hlands := startProposeOnce_lands m entry.encode
  unfold Ends at hlands
  rw [hstart] at hlands
  refine ⟨rfl, ?_⟩
  unfold Storage.Retains
  rw [hlands.entries]
  refine List.mem_append_right _ ?_
  unfold RaftNode.proposedBatch RaftNode.controlEntry
  rw [hterm, hlog.cached]
  exact List.mem_cons_self

/-- A membership call on a leader.  Where it fails in front of the log, what it leaves is
what it found exactly when its change can be taken back.  A hand-off puts nothing in
force.  A call that waits has its entry in the log, and keeps it there as long as no
frame cuts it. -/
theorem failed_call_rolls_back {n : RaftNode} (r : ConfigRequest) (hl : n.isLeader = true)
    (hkeys : n.peerProgress.keys.Nodup) :
    (∀ e n', openCall r n = .error e n' →
      (∀ entry, n.decision r = .propose entry → n.controlEntry entry ∉ n'.storage.entries) →
      (RolledBack n n' ↔ ∀ entry, n.decision r = .propose entry → n.Reversible entry)) ∧
    (∀ n₁, openCall r n = .ok none n₁ → n₁ = n) ∧
    ∀ c n₁ h, openCall r n = .ok (some c) n₁ →
      Reaches Host.stepIn (Host.Awaits (n.controlEntry c.entry)) ⟨n₁, some c⟩ h →
      n.controlEntry c.entry ∈ h.node.storage.entries := by
  have hopen : ∀ call n₁, openCall r n = .ok call n₁ →
      (call = none ∧ n₁ = n) ∨
        ∃ c entry, call = some c ∧ activateAndPropose entry n = .ok c n₁ := by
    intro call n₁ h
    unfold openCall at h
    rw [get_bind] at h
    cases hdec : n.decision r with
    | refuse e =>
        rw [hdec] at h
        cases h
    | handOff target =>
        rw [hdec] at h
        injection h with hcall hn
        exact .inl ⟨hcall.symm, hn.symm⟩
    | propose entry =>
        rw [hdec] at h
        obtain ⟨c, m, hact, hret⟩ := ok_of_bind (m := activateAndPropose entry) h
        injection hret with hcall hn
        subst hn
        exact .inr ⟨c, entry, hcall.symm, hact⟩
  refine ⟨fun e n' h hout => openCall_rolledBack_iff hl hkeys h hout, ?_, ?_⟩
  · intro n₁ h
    obtain ⟨-, hn⟩ | ⟨c, entry, hcall, -⟩ := hopen none n₁ h
    · exact hn
    · cases hcall
  · intro c n₁ h hok hrun
    obtain ⟨hcall, -⟩ | ⟨c', entry, hcall, hact⟩ := hopen (some c) n₁ hok
    · cases hcall
    cases hcall
    obtain ⟨rfl, hin⟩ := activateAndPropose_landed hact
    refine Reaches.invariant (I := fun h => h.node.storage.Retains (n.controlEntry c.entry))
      hrun hin ?_
    intro u v a hu ha hstep
    exact Host.step_retains hu ha hstep

end Waits

/-! ## Runs -/

/-- The node an opening call that fails leaves behind. -/
def failedNode? (r : ConfigRequest) (n : RaftNode) : Option RaftNode :=
  match openCall r n with
  | .error _ n' => some n'
  | .ok _ _ => none

theorem openCall_of_failedNode? {r : ConfigRequest} {n n' : RaftNode}
    (h : failedNode? r n = some n') : ∃ e, openCall r n = .error e n' := by
  unfold failedNode? at h
  split at h
  · rename_i e m hcall
    exact ⟨e, hcall.trans (congrArg _ (Option.some.inj h))⟩
  · cases h

/-- Node 1 before its first election. -/
def bootedTrio : Host := ⟨trioNode 1 (.empty false), none⟩

/-- Node 1 becomes the leader of term 1. -/
def crowning : List HostAct :=
  [.act .startElection, .act (.countVotes 1 [⟨2, .requestVoteResp ⟨1, true⟩⟩] [1]),
    .act (.assumeLeadership 1)]

def calmSteps (acts : List HostAct) : List (Env × HostAct) := acts.map fun a => (Env.calm 0, a)

/-- Node 1 leads, 4 is a learner that keeps up, and node 2 was told to take over. -/
def frozenHost? : Option Host :=
  runSteps Host.stepIn bootedTrio (calmSteps (crowning ++
    [.request (.addLearner 4), .gather (ackFrom 2 1), .commit, .close,
      .act (.inbound (ackFrom 4 1)), .act (.sendTimeoutNow 2 1)]))

def frozenLeader : RaftNode := (frozenHost?.map Host.node).getD bootedTrio.node

/-- Node 1 leads and adds a learner; a leader of term 2 puts its own entry there. -/
def displacedHost? : Option Host :=
  runSteps Host.stepIn bootedTrio (calmSteps (crowning ++
    [.request (.addLearner 4), .gather ⟨2, .appendEntries ⟨2, 2, 0, 0, 0, 0⟩ [⟨2, 1, [7]⟩]⟩,
      .commit]))

theorem run_frozenLeader : ∃ h, bootedTrio.Run h ∧ h.node = frozenLeader := by
  have hsome : frozenHost?.isSome = true := by decide +kernel
  obtain ⟨h, hh⟩ := Option.isSome_iff_exists.mp hsome
  refine ⟨h, Reaches.refl.steps hh fun _ _ _ => trivial, ?_⟩
  unfold frozenLeader
  rw [hh]
  rfl

theorem nodup_frozenLeader : frozenLeader.peerProgress.keys.Nodup := by decide +kernel

/-- While a handover is pending, `add_learner` fails and leaves no trace. -/
theorem failed_call_rolls_back_frozen :
    ∃ e n', openCall (.addLearner 5) frozenLeader = .error e n' ∧ RolledBack frozenLeader n' := by
  have hdec : frozenLeader.decision (.addLearner 5) = .propose ⟨.addLearner, [], [5]⟩ := by
    decide +kernel
  have hfails : (failedNode? (.addLearner 5) frozenLeader).map (fun n' => decide
      (frozenLeader.controlEntry ⟨.addLearner, [], [5]⟩ ∉ n'.storage.entries)) = some true := by
    decide +kernel
  have htracked : ∀ p ∈ frozenLeader.config.peers ++ frozenLeader.config.learners,
      p ≠ frozenLeader.config.nodeId → (frozenLeader.peerProgress.get p).isSome := by
    decide +kernel
  obtain ⟨n', hn', hout⟩ := Option.map_eq_some_iff.mp hfails
  obtain ⟨e, hcall⟩ := openCall_of_failedNode? hn'
  have hroll := (failed_call_rolls_back (.addLearner 5) (by decide +kernel)
    nodup_frozenLeader).1 e n' hcall ?_
  · refine ⟨e, n', hcall, hroll.mpr fun entry hentry => ?_⟩
    obtain rfl := ChangeDecision.propose.inj (hdec.symm.trans hentry)
    unfold RaftNode.Reversible
    dsimp only
    rw [if_pos (by decide +kernel)]
    exact ⟨fun p hp => htracked p (List.mem_append.mpr hp), fun _ _ => nofun⟩
  · intro entry hentry
    obtain rfl := ChangeDecision.propose.inj (hdec.symm.trans hentry)
    exact of_decide_eq_true hout

/-- While a handover is pending, `promote_learner` fails and drops the learner, and
`remove_learner` fails and forgets how far the learner had come.  A call whose entry is
displaced while it waits fails and leaves its change in force. -/
theorem failed_call_leaves_traces :
    (∃ h, bootedTrio.Run h ∧ h.node = frozenLeader) ∧ frozenLeader.isLeader = true ∧
    (∃ e n', openCall (.promoteLearner 4) frozenLeader = .error e n' ∧
      frozenLeader.controlEntry ⟨.joint, [1, 2, 3], [1, 2, 3, 4]⟩ ∉ n'.storage.entries ∧
      frozenLeader.config.learners = [4] ∧ n'.config.learners = [] ∧
      ¬ RolledBack frozenLeader n') ∧
    (∃ e n', openCall (.removeLearner 4) frozenLeader = .error e n' ∧
      frozenLeader.controlEntry ⟨.removeLearner, [], [4]⟩ ∉ n'.storage.entries ∧
      frozenLeader.peerProgress.get 4 = some ⟨2, 1⟩ ∧ n'.peerProgress.get 4 = some ⟨2, 0⟩ ∧
      ¬ RolledBack frozenLeader n') ∧
    ∃ h, bootedTrio.Run h ∧ h.call = none ∧ h.node.storage.entries = [⟨2, 1, [7]⟩] ∧
      bootedTrio.node.config.learners = [] ∧ h.node.config.learners = [4] := by
  refine ⟨run_frozenLeader, by decide +kernel, ?_, ?_, ?_⟩
  · have hfails : (failedNode? (.promoteLearner 4) frozenLeader).map (fun n' => (decide
        (frozenLeader.controlEntry ⟨.joint, [1, 2, 3], [1, 2, 3, 4]⟩ ∉ n'.storage.entries),
        n'.config.learners)) = some (true, []) := by decide +kernel
    have hbefore : frozenLeader.config.learners = [4] := by decide +kernel
    obtain ⟨n', hn', hfacts⟩ := Option.map_eq_some_iff.mp hfails
    obtain ⟨hout, hlearners⟩ := Prod.mk.inj hfacts
    obtain ⟨e, hcall⟩ := openCall_of_failedNode? hn'
    refine ⟨e, n', hcall, of_decide_eq_true hout, hbefore, hlearners, fun hback => ?_⟩
    have hsame := hback.learners
    rw [hlearners, hbefore] at hsame
    cases hsame
  · have hfails : (failedNode? (.removeLearner 4) frozenLeader).map (fun n' => (decide
        (frozenLeader.controlEntry ⟨.removeLearner, [], [4]⟩ ∉ n'.storage.entries),
        n'.isLeader, n'.peerProgress.get 4)) = some (true, true, some ⟨2, 0⟩) := by decide +kernel
    have hbefore : frozenLeader.peerProgress.get 4 = some ⟨2, 1⟩ := by decide +kernel
    obtain ⟨n', hn', hfacts⟩ := Option.map_eq_some_iff.mp hfails
    obtain ⟨hout, hfacts⟩ := Prod.mk.inj hfacts
    obtain ⟨hlead, hget⟩ := Prod.mk.inj hfacts
    obtain ⟨e, hcall⟩ := openCall_of_failedNode? hn'
    refine ⟨e, n', hcall, of_decide_eq_true hout, hbefore, hget, fun hback => ?_⟩
    have hsame := hback.progress hlead 4 (by decide +kernel)
    rw [hget, hbefore] at hsame
    cases hsame
  · have hrun : displacedHost?.map (fun h => (h.call, h.node.storage.entries,
        h.node.config.learners)) = some (none, [⟨2, 1, [7]⟩], [4]) := by decide +kernel
    obtain ⟨h, hh, hfacts⟩ := Option.map_eq_some_iff.mp hrun
    obtain ⟨hcall, hfacts⟩ := Prod.mk.inj hfacts
    obtain ⟨hentries, hlearners⟩ := Prod.mk.inj hfacts
    exact ⟨h, Reaches.refl.steps hh fun _ _ _ => trivial, hcall, hentries, rfl, hlearners⟩

end ArbitroRaft
