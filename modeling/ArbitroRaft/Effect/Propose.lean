import ArbitroRaft.Effect.Handlers

/-!
# Proposals and commits as effects
-/

namespace ArbitroRaft

open Library

variable {sc : Scope} {n : RaftNode}

/-! ## The commit rule -/

theorem quorumTerm_emits {index : Nat} :
    Emits (Moves sc) (quorumTerm index) n
      (fun t n' => Touched n n' ∧ t = n.quorumTermOf index ∧ t = n'.quorumTermOf index) := by
  unfold quorumTerm
  refine .read ?_
  by_cases hc : index = n.cachedLastLog.1
  · rw [if_pos hc]
    have hterm : n.cachedLastLog.2 = n.quorumTermOf index := by
      rw [RaftNode.quorumTermOf, if_pos hc]
    exact .ret ⟨.refl n, hterm, hterm⟩
  · rw [if_neg hc]
    cases ha : n.logMetadata.getTerm index with
    | some t =>
      have hterm : t = n.quorumTermOf index := by
        rw [RaftNode.quorumTermOf, if_neg hc, ha]
      exact .ret ⟨.refl n, hterm, hterm⟩
    | none =>
      have hold : n.quorumTermOf index = (n.storage.termAt index).getD 0 := by
        rw [RaftNode.quorumTermOf, if_neg hc, ha]
      dsimp only
      split
      · rename_i hpos
        cases ht : n.storage.termAt index with
        | none =>
          rw [ht] at hpos
          exact absurd hpos (lt_irrefl 0)
        | some t =>
          refine .putSeq (.log (.learned index t ht)) (.ret ⟨⟨_, _, rfl⟩, ?_, ?_⟩)
          · rw [hold, ht]
          -- the arena now answers the same, or still nothing
          simp only [RaftNode.quorumTermOf, if_neg hc, Option.getD_some]
          cases hg : (n.logMetadata.append index t).getTerm index with
          | none => rw [ht, Option.getD_some]
          | some u =>
            rcases LogMetadataArena.getTerm_append hg with ⟨-, rfl⟩ | ⟨hne, -⟩
            · rfl
            · exact absurd rfl hne
      · exact .ret ⟨.refl n, hold.symm, hold.symm⟩

theorem tryAdvanceCommitIndex_emits
    (hd : ∀ n' q, Touched n n' → n.MeetsQuorum q → sc.decides n'.core q) :
    Emits (Moves sc) tryAdvanceCommitIndex n (fun _ _ => True) := by
  unfold tryAdvanceCommitIndex
  refine .read ?_
  split
  · exact .ret trivial
  · rename_i hlead
    split
    · exact .ret trivial
    · split
      · exact .ret trivial
      · rename_i q hq
        split
        · exact .ret trivial
        · rename_i hlt
          unfold commitIfCurrentTerm
          refine quorumTerm_emits.seq ?_
          rintro t n' - ⟨⟨a, l, rfl⟩, hold, ht⟩
          refine .read ?_
          split
          · rename_i hterm
            refine .put (.of_effect fun _ => .committed q ?_ ?_ ?_) trivial
            · exact not_le.mp hlt
            · exact .quorum hlead hq (ht.symm.trans hterm)
            · exact hd _ q ⟨a, l, rfl⟩ ⟨hq, hold.symm.trans hterm⟩
          · exact .ret trivial

/-! ## Appending -/

theorem core_expireTransfer (n : RaftNode) :
    (n.expireTransfer.core, n.expireTransfer.aside) = (n.core, n.aside) := by
  unfold RaftNode.expireTransfer
  split
  · split <;> rfl
  · rfl

theorem checkTransferFreeze_emits :
    Emits (Moves sc) checkTransferFreeze n (fun _ n' => n'.core = n.core) := by
  unfold checkTransferFreeze
  refine .updateSeq (.quiet (core_expireTransfer n)) (.read ?_)
  split
  · exact .fail
  · exact .ret (congrArg Prod.fst (core_expireTransfer n))

/-- What `append_propose_entries` leaves behind. -/
structure Proposed (n n' : RaftNode) (payloads : List EntryPayload) (last : Nat) : Prop where
  node : n' = ({ n with scratchIndexes := (n.proposedBatch payloads).map LogEntry.index
    }).stored (n.proposedBatch payloads)
  last : (n.proposedBatch payloads).getLast?.map LogEntry.index = some last

theorem appendProposeEntries_emits (payloads : List EntryPayload) (ha : sc.appends)
    (hpay : sc.batch payloads) (hlog : Arrived sc n) (hl : n.isLeader = true) :
    Emits (Moves sc) (appendProposeEntries payloads) n
      (fun last n' => Proposed n n' payloads last) := by
  unfold appendProposeEntries
  refine .read (.putSeq (.of_effect fun _ => .indexed _ ha) ?_)
  split
  · exact .fail
  · rename_i last hlast
    rcases stores_storeEntries (n.proposedBatch payloads)
        { n with scratchIndexes := (n.proposedBatch payloads).map LogEntry.index } with
      ⟨-, e, he⟩ | ⟨hok, hb, -⟩
    · unfold Emits
      rw [bind_of_error he]
      exact refl_of (Moves sc) _
    · have hlog' : Arrived sc
          { n with scratchIndexes := (n.proposedBatch payloads).map LogEntry.index } :=
        hlog.sameLog ⟨⟨rfl, rfl, rfl, rfl, rfl⟩, rfl, rfl, rfl⟩
      refine .of_run ((bind_of_ok hok).trans modify_bind)
        (.log (.led payloads ha hlog' hl hb hpay)) ?_
      exact .ret ⟨rfl, by rw [hlast]; rfl⟩

theorem buildBatch_getLast? (term : Nat) {index : Nat} {payloads : List EntryPayload}
    {e : LogEntry} (h : (buildBatch term index payloads).getLast? = some e) : e.term = term := by
  have hmem := List.mem_of_getLast? h
  clear h
  induction payloads generalizing index with
  | nil => cases hmem
  | cons p ps ih =>
    rcases List.mem_cons.mp hmem with rfl | hmem
    · rfl
    · exact ih hmem

/-- The tip cache after a proposal is its last entry. -/
theorem Proposed.cached {n' : RaftNode} {payloads : List EntryPayload} {last : Nat}
    (h : Proposed n n' payloads last) : n'.cachedLastLog = (last, n.hardState.currentTerm) := by
  obtain ⟨e, he, rfl⟩ := Option.map_eq_some_iff.mp h.last
  rw [h.node]
  refine (RaftNode.tip_stored_of_last he).trans ?_
  exact Prod.ext rfl (buildBatch_getLast? _ he)

theorem nodup_foldl_insert {V : Type} (v : V) (l : List PeerId) {m : PeerMap V} (h : m.keys.Nodup) :
    (l.foldl (fun m p => m.insert p v) m).keys.Nodup := by
  induction l generalizing m with
  | nil => exact h
  | cons p l ih => exact ih (PeerMap.nodup_keys_insert _ _ h)

theorem mem_keys_foldl_insert {V : Type} (v : V) (l : List PeerId) {m : PeerMap V}
    {p : PeerId} : p ∈ (l.foldl (fun m q => m.insert q v) m).keys ↔ p ∈ m.keys ∨ p ∈ l := by
  induction l generalizing m with
  | nil => simp
  | cons x xs ih =>
    rw [List.foldl_cons, ih, List.mem_cons]
    by_cases hx : x ∈ m.keys
    · rw [PeerMap.keys_insert_of_mem v hx]
      constructor
      · rintro (h | h)
        · exact .inl h
        · exact .inr (.inr h)
      · rintro (h | rfl | h)
        · exact .inl h
        · exact .inl hx
        · exact .inr h
    · rw [PeerMap.keys_insert_of_not_mem v hx, List.mem_append, List.mem_singleton, or_assoc]

/-- Every slot is an old one or has the inserted value. -/
theorem mem_foldl_insert {V : Type} {v : V} {l : List PeerId} {m : PeerMap V} {slot : PeerId × V}
    (h : slot ∈ l.foldl (fun m q => m.insert q v) m) : slot ∈ m ∨ slot.2 = v := by
  induction l generalizing m with
  | nil => exact .inl h
  | cons p l ih =>
    rcases ih h with h | h
    · exact (PeerMap.mem_insert h).imp_right (congrArg Prod.snd)
    · exact .inr h

/-- The last entries of the own log, announced behind the last index. -/
theorem Coherent.slice_tail (hn : Coherent n) {l entries : List LogEntry} {t : Nat}
    (hl : n.storage.entries = l ++ entries)
    (ht : TermKnown n (n.storage.lastLogPosition.1 - entries.length) t) :
    Slice (absLog n.storage.entries) (n.storage.lastLogPosition.1 - entries.length) t
      entries := by
  have hprev : n.storage.lastLogPosition.1 - entries.length = l.length := by
    rw [Storage.lastLogPosition_of_contiguous hn.contiguous, hl, List.length_append]
    exact Nat.add_sub_cancel ..
  have hs := hn.slice (k := entries.length) ht
  rw [hprev] at hs ⊢
  have hdrop : (n.storage.entries.drop l.length).take entries.length = entries := by
    rw [hl, List.drop_left, List.take_length]
  rwa [hdrop] at hs

/-- What `send_initial_appends` leaves behind: the peers it awaits are replication
targets, each once. -/
structure FannedOut (n n' : RaftNode) : Prop where
  storage : n'.storage = n.storage
  hard : n'.hardState = n.hardState
  soft : n'.softState = n.softState
  roll : n'.config = n.config ∧ n'.jointPeers = n.jointPeers
  indexes : n'.scratchIndexes = n.scratchIndexes
  cached : n'.cachedLastLog = n.cachedLastLog
  pending : n.replicationTargets = [] ∨ n'.scratchPending.keys.Nodup ∧
    n'.scratchPending.keys ⊆ n.replicationTargets ∧
    ∀ slot ∈ n'.scratchPending, slot.2.sentLastIndex = n.storage.lastLogPosition.1

theorem sendInitialAppends_emits {entries : List LogEntry} (hp : ∀ m m', sc.pends m m')
    (hl : sc.strict → n.isLeader = true ∧ ∃ l, n.storage.entries = l ++ entries) :
    Emits (Moves sc) (sendInitialAppends entries) n
      (fun _ n' => FannedOut n n') := by
  unfold sendInitialAppends
  refine .updateSeq (.quiet rfl) (.read ?_)
  split
  · rename_i hnone
    exact .ret ⟨rfl, rfl, rfl, ⟨rfl, rfl⟩, rfl, rfl, .inl hnone⟩
  · dsimp only
    split
    · exact .fail
    · refine (termAt_emits _).seq ?_
      rintro t n' - ⟨⟨a, l, rfl⟩, ht⟩
      refine .read (.putSeq ?_ ((encodeShared_emits _).seq ?_))
      · exact .of_effect fun _ => .pended _ (hp _ _) fun _ => List.nodup_nil
      · rintro _ _ - rfl
        refine (sendAll_emits ?_ ?_).seq ?_
        · intro hn
          refine ⟨rfl, rfl, rfl, rfl, ?_⟩
          intro hs
          obtain ⟨hlead, l₀, hl₀⟩ := hl hs
          exact ⟨hlead, (hn hs).slice_tail hl₀ ht⟩
        · intro p hmem
          exact addressed_replicationTargets (n := n) hmem
        · rintro oks n' - ⟨⟨l', rfl⟩, hsub⟩
          have hnodup := nodup_foldl_insert (m := PeerMap.empty)
            ({ attempts := 1, sentLastIndex := n.storage.lastLogPosition.1 } :
              AppendAttemptState) oks List.nodup_nil
          refine .update (.of_effect fun _ => .pended _ (hp _ _) fun _ => hnodup)
            ⟨rfl, rfl, rfl, ⟨rfl, rfl⟩, rfl, rfl, .inr ⟨hnodup, fun p hp => ?_, fun slot hs => ?_⟩⟩
          · have hmem := (mem_keys_foldl_insert (m := PeerMap.empty) _ _).mp hp
            exact hsub.subset (hmem.resolve_left List.not_mem_nil)
          · rcases mem_foldl_insert hs with h | h
            · cases h
            · rw [h]
              rfl

theorem Moves.ensureProgress (hl : n.isLeader = true) :
    Moves sc n n.ensureLeaderProgressInitialized := by
  unfold RaftNode.ensureLeaderProgressInitialized
  split
  · rename_i hempty
    exact .of_effect fun _ => .initialized hl hempty
  · exact .quiet rfl

theorem ensureProgress_same (n : RaftNode) :
    n.ensureLeaderProgressInitialized.storage = n.storage ∧
      n.ensureLeaderProgressInitialized.hardState = n.hardState ∧
      n.ensureLeaderProgressInitialized.softState = n.softState ∧
      n.ensureLeaderProgressInitialized.config = n.config ∧
      n.ensureLeaderProgressInitialized.cachedLastLog = n.cachedLastLog := by
  unfold RaftNode.ensureLeaderProgressInitialized
  split <;> exact ⟨rfl, rfl, rfl, rfl, rfl⟩

theorem jointPeers_ensureProgress (n : RaftNode) :
    n.ensureLeaderProgressInitialized.jointPeers = n.jointPeers := by
  unfold RaftNode.ensureLeaderProgressInitialized
  split <;> rfl

theorem SameLog.ensureProgress (n : RaftNode) : SameLog n n.ensureLeaderProgressInitialized := by
  unfold RaftNode.ensureLeaderProgressInitialized
  split <;> exact ⟨⟨rfl, rfl, rfl, rfl, rfl⟩, rfl, rfl, rfl⟩

/-- What an opened gather knows about the node it was opened on. -/
structure Gathering (n : RaftNode) (g : Gather) : Prop where
  leader : n.isLeader = true
  term : g.proposeTerm = n.hardState.currentTerm
  needed : g.needed = quorum n.config.peers.length
  accepted : g.accepted = 1
  tip : n.cachedLastLog = (g.lastIndex, g.proposeTerm)
  pending : n.replicationTargets = [] ∨ n.scratchPending.keys.Nodup ∧
    n.scratchPending.keys ⊆ n.replicationTargets ∧
    ∀ slot ∈ n.scratchPending, g.lastIndex ≤ slot.2.sentLastIndex

theorem isLeader_of_core {n' : RaftNode} (h : n'.core = n.core) : n'.isLeader = n.isLeader := by
  have hrole : n'.softState.role = n.softState.role := congrArg Core.role h
  simp only [RaftNode.isLeader, hrole]

/-- The batch is in the log and its indices are noted. -/
structure Opened (n n' : RaftNode) (payloads : List EntryPayload) (g : Gather) : Prop where
  roll : n'.config = n.config ∧ n'.jointPeers = n.jointPeers
  hard : n'.hardState = n.hardState
  entries : n'.storage.entries = n.storage.entries ++ n.proposedBatch payloads
  indexes : n'.scratchIndexes = (n.proposedBatch payloads).map LogEntry.index
  last : (n.proposedBatch payloads).getLast?.map LogEntry.index = some g.lastIndex

theorem startPropose_emits (payloads : List EntryPayload) (ha : sc.appends)
    (hpay : sc.batch payloads) (hf : sc.fresh n.core) (hp : ∀ m m', sc.pends m m') :
    Emits (Moves sc) (startPropose payloads) n
      (fun r n' => (r = none → payloads = []) ∧
        ∀ g, r = some g → Gathering n' g ∧ Opened n n' payloads g) := by
  unfold startPropose
  refine .read ?_
  split
  · rename_i hl
    refine checkTransferFreeze_emits.seq ?_
    intro _ n₁ _ hcore
    split
    · rename_i hnil
      exact .ret ⟨fun _ => hnil, by simp⟩
    · have hl₁ : n₁.isLeader = true := (isLeader_of_core hcore).trans hl
      refine .updateSeq (.ensureProgress hl₁) (.read ?_)
      obtain ⟨hstore, hhard₁, hsoft, hconf₁, hcached₁⟩ := ensureProgress_same n₁
      have hjoint₁ := jointPeers_ensureProgress n₁
      have hbatch : n₁.ensureLeaderProgressInitialized.proposedBatch payloads =
          n.proposedBatch payloads := by
        unfold RaftNode.proposedBatch
        rw [hhard₁, hcached₁, (SameLog.of_core hcore).cached,
          show n₁.hardState = n.hardState from congrArg Core.hardState hcore]
      have hl₂ : n₁.ensureLeaderProgressInitialized.isLeader = true := by
        simp only [RaftNode.isLeader, hsoft]
        exact hl₁
      have hlog : Arrived sc n₁.ensureLeaderProgressInitialized :=
        ⟨n, hf, (SameLog.of_core hcore).trans (SameLog.ensureProgress n₁)⟩
      refine (appendProposeEntries_emits payloads ha hpay hlog hl₂).seq ?_
      intro last n₂ _ hprop
      have hl₃ : n₂.isLeader = true := by
        rw [hprop.node]
        exact hl₂
      refine (sendInitialAppends_emits hp fun _ => ⟨hl₃, ?_⟩).seq ?_
      · rw [hprop.node]
        exact ⟨_, rfl⟩
      · intro _ n₃ _ hfan
        refine .read (.ret ⟨by simp, ?_⟩)
        rintro g h
        cases h
        refine ⟨⟨?_, rfl, rfl, rfl, ?_, ?_⟩, ?_, ?_, ?_, ?_, ?_⟩
        · simp only [RaftNode.isLeader, hfan.soft]
          exact hl₃
        · rw [hfan.cached, hprop.cached, hfan.hard, hprop.node]
          rfl
        · have htargets : n₃.replicationTargets = n₂.replicationTargets := by
            unfold RaftNode.replicationTargets
            rw [hfan.roll.1]
          have htip : last ≤ n₂.storage.lastLogPosition.1 := by
            obtain ⟨e, he, rfl⟩ := Option.map_eq_some_iff.mp hprop.last
            rw [hprop.node]
            exact Storage.le_highest (List.mem_append_right _ (List.mem_of_getLast? he))
          rw [htargets]
          refine hfan.pending.imp_right ?_
          rintro ⟨hnodup, hsub, hsent⟩
          exact ⟨hnodup, hsub, fun slot hslot => htip.trans (hsent slot hslot).ge⟩
        · rw [hfan.roll.1, hfan.roll.2, hprop.node]
          exact ⟨hconf₁.trans (congrArg Core.config hcore),
            hjoint₁.trans (congrArg Core.jointPeers hcore)⟩
        · rw [hfan.hard, hprop.node]
          exact hhard₁.trans (congrArg Core.hardState hcore)
        · rw [hfan.storage, hprop.node, ← hbatch]
          change n₁.ensureLeaderProgressInitialized.storage.entries ++ _ = _
          rw [hstore, (SameLog.of_core hcore).entries]
        · rw [hfan.indexes, hprop.node, ← hbatch]
          rfl
        · rw [← hbatch]
          exact hprop.last
  · exact .fail

/-- A batch appended behind the tip, announced behind the old tip. -/
theorem Coherent.slice_batch (hn : Coherent n) (payloads : List EntryPayload) :
    Slice (absLog (n.storage.entries ++ n.proposedBatch payloads)) n.cachedLastLog.1
      n.cachedLastLog.2 (n.proposedBatch payloads) := by
  rw [hn.cached]
  refine ⟨hn.contiguous_proposedBatch payloads, ?_, ?_, ?_⟩
  · rw [absLog_length, List.length_append]
    exact Nat.le_add_right _ _
  · rw [absLog_append, List.take_left' (absLog_length _)]
  · rw [absLog_append, List.drop_left' (absLog_length _)]

/-- Fire-and-forget replication. -/
theorem replicateBatchInner_emits (payloads : List EntryPayload) (ha : sc.appends)
    (hpay : sc.batch payloads) (hlog : Arrived sc n) (hl : n.isLeader = true) :
    Emits (Moves sc) (replicateBatchInner payloads) n (fun _ _ => True) := by
  refine Moves.assuming fun hn => ?_
  unfold replicateBatchInner
  refine .read ?_
  rcases stores_storeEntries (n.proposedBatch payloads) n with ⟨-, e, he⟩ | ⟨hok, hb, -⟩
  · unfold Emits
    rw [bind_of_error he]
    exact refl_of (Moves sc) _
  · have hled : Moves sc n (n.stored (n.proposedBatch payloads)) :=
      .log (.led payloads ha hlog hl hb hpay)
    have hscratch : Moves sc (n.stored (n.proposedBatch payloads))
        ((n.stored (n.proposedBatch payloads)).setScratchPeers n.replicationTargets) :=
      .quiet rfl
    refine .of_run ((bind_of_ok hok).trans modify_bind)
      (trans_of (Moves sc) hled hscratch) ?_
    refine (encodeShared_emits _).seq ?_
    rintro _ _ - rfl
    refine (sendAll_emits ?_ ?_).seq ?_
    · intro _
      exact ⟨rfl, rfl, rfl, rfl, fun hs => ⟨hl, (hn hs).slice_batch payloads⟩⟩
    · intro p hmem
      exact addressed_replicationTargets (n := n) hmem
    · intro _ _ _ _
      exact .ret trivial

theorem replicateBatchAsync_emits (payloads : List EntryPayload) (ha : sc.appends)
    (hpay : sc.batch payloads) (hf : sc.fresh n.core) :
    Emits (Moves sc) (replicateBatchAsync payloads) n (fun _ _ => True) := by
  unfold replicateBatchAsync
  refine .read ?_
  split
  · rename_i hl
    refine checkTransferFreeze_emits.seq ?_
    intro _ n₁ _ hcore
    split
    · exact .ret trivial
    · have hl₁ : n₁.isLeader = true := (isLeader_of_core hcore).trans hl
      have hlog : Arrived sc n₁.ensureLeaderProgressInitialized :=
        ⟨n, hf, (SameLog.of_core hcore).trans (SameLog.ensureProgress n₁)⟩
      refine .updateSeq (.ensureProgress hl₁)
        (replicateBatchInner_emits payloads ha hpay hlog ?_)
      obtain ⟨-, -, hsoft, -, -⟩ := ensureProgress_same n₁
      simp only [RaftNode.isLeader, hsoft]
      exact hl₁
  · exact .fail

/-! ## Acknowledgements -/

theorem retryAppend_emits {peer : PeerId} {state : AppendAttemptState}
    (hl : sc.strict → n.isLeader = true)
    (ha : ∀ msg, (∀ m, msg ≠ .requestVote m) → Addressed sc n peer msg) :
    Emits (Moves sc) (retryAppend peer state) n
      (fun r n' => Touched n n' ∧ r ≠ .completed) := by
  unfold retryAppend
  refine (sendAppendAttempt_emits hl ha).seq ?_
  intro r n' _ hw
  cases r with
  | none => exact .ret ⟨hw, by simp⟩
  | some last => exact .ret ⟨hw, by simp⟩

/-- In the gather a response finds either a leader, or no progress at all. -/
theorem advanceAppendReplication_emits {peer : PeerId} {target : Nat}
    {state : AppendAttemptState} {resp : AppendEntriesResp}
    (hpend : n.scratchPending.get peer = some state)
    (hrx : sc.rx ⟨peer, .appendEntriesResp resp⟩) (hf : sc.fresh n.core)
    (hl : sc.strict → n.isLeader = true ∨ n.peerProgress = PeerMap.empty)
    (hp : ∀ m k, sc.pends m (m.remove k))
    (hr : n.Finds sc resp.term) :
    Emits (Moves sc) (advanceAppendReplication peer target state resp) n
      (fun r n' => n'.scratchPending = n.scratchPending ∧ n'.config = n.config ∧
        n'.hardState = n.hardState ∧ n'.softState = n.softState ∧
        (r = .completed → resp.success = true ∧ target ≤ resp.matchIndex ∧
          resp.term ≤ n.hardState.currentTerm ∧
          n'.peerProgress.get peer = some (.acknowledged resp.matchIndex n.nextIndexCap))) := by
  unfold advanceAppendReplication
  refine .read ?_
  split
  · rename_i h
    refine (stepDown_emits h hr).seq ?_
    intro _ _ _ _
    exact .fail
  · rename_i hle
    split
    · exact .fail
    · rename_i progress hget
      have hlead : sc.strict → n.isLeader = true := by
        intro hs
        rcases hl hs with h | h
        · exact h
        · rw [h] at hget
          cases hget
      split
      · rename_i hsucc
        split
        · exact .ret ⟨rfl, rfl, rfl, rfl, by simp⟩
        · rename_i hsent
          refine .putSeq (.of_effect fun _ => ?_) ?_
          · exact .progressed peer progress _ resp hrx hf (by omega) hget
              (.acked state hp hpend hsucc (by omega))
          · split
            · rename_i htarget
              refine .ret ⟨rfl, rfl, rfl, rfl, fun _ => ⟨hsucc, htarget, by omega, ?_⟩⟩
              exact (PeerMap.get_insert _ _ _ _).trans (if_pos rfl)
            · refine (retryAppend_emits (n := n.setProgress peer _) hlead
                fun _ _ => addressed_of_rx hrx).mono ?_
              rintro r n' - ⟨⟨a, l, rfl⟩, hr⟩
              exact ⟨rfl, rfl, rfl, rfl, fun h => absurd h hr⟩
      · rename_i hfail
        split
        · exact .ret ⟨rfl, rfl, rfl, rfl, by simp⟩
        · rename_i hback
          refine .putSeq (.of_effect fun _ => ?_) ?_
          · exact .progressed peer progress _ resp hrx hf (by omega) hget
              (.backed state hp hpend (Bool.eq_false_of_not_eq_true hfail) (by omega))
          · refine (retryAppend_emits (n := n.setProgress peer _) hlead
              fun _ _ => addressed_of_rx hrx).mono ?_
            rintro r n' - ⟨⟨a, l, rfl⟩, hr⟩
            exact ⟨rfl, rfl, rfl, rfl, fun h => absurd h hr⟩

/-- How the count of a gather moves with one frame: not at all, or by one voter
that acknowledged the batch and is not awaited any more. -/
inductive CountStep (n n' : RaftNode) (f : InboundRaftMessage) (g : Gather) :
    Gather → Prop
  | same : CountStep n n' f g g
  | voter (resp : AppendEntriesResp) : f.message = .appendEntriesResp resp →
      resp.success = true → g.lastIndex ≤ resp.matchIndex →
      resp.term ≤ n.hardState.currentTerm → f.sender ∈ n.config.peers →
      f.sender ∈ n.scratchPending.keys →
      n'.scratchPending = n.scratchPending.remove f.sender →
      n'.hardState = n.hardState → n'.softState = n.softState →
      n'.peerProgress.get f.sender = some (.acknowledged resp.matchIndex n.nextIndexCap) →
      CountStep n n' f g { g with accepted := g.accepted + 1 }

theorem processAppendResp_emits {f : InboundRaftMessage} {resp : AppendEntriesResp}
    (hm : f.message = .appendEntriesResp resp) (g : Gather) (hrx : sc.rx f) (hf : sc.fresh n.core)
    (hl : sc.strict → n.isLeader = true ∨ n.peerProgress = PeerMap.empty)
    (hp : ∀ m k, sc.pends m (m.remove k)) (hk : n.Known sc f.message) :
    Emits (Moves sc) (processAppendResp f.sender resp g) n
      (fun g' n' => CountStep n n' f g g') := by
  have hrx' : sc.rx ⟨f.sender, .appendEntriesResp resp⟩ := by
    rw [← hm]
    exact hrx
  have hr := hk.finds resp.term (by rw [hm]; rfl)
  unfold processAppendResp
  refine .read ?_
  split
  · refine (handleAppendEntriesResponse_emits hrx' hf hr).seq ?_
    intro _ _ _ _
    exact .ret .same
  · rename_i state hget
    refine (advanceAppendReplication_emits hget hrx' hf hl hp hr).seq ?_
    rintro r n' - ⟨hpend, hconf, hhard, hsoft, hdone⟩
    cases r with
    | completed =>
      obtain ⟨hs, htarget, hterm, hprog⟩ := hdone rfl
      refine .read (.putSeq ?_ ?_)
      · exact .of_effect fun _ => .pended _ (hp _ _) (PeerMap.nodup_keys_remove _)
      · split
        · rename_i hmem
          refine .ret (.voter resp hm hs htarget hterm (hconf ▸ hmem) ?_ ?_ hhard hsoft
            hprog)
          · rw [PeerMap.mem_keys_iff, hget]
            rfl
          · change n'.scratchPending.remove f.sender = _
            rw [hpend]
        · exact .ret .same
    | _ => exact .ret .same

theorem gatherFrame_emits {f : InboundRaftMessage} (g : Gather) (hrx : sc.rx f)
    (hsh : sc.strict → Shaped f.message) (hf : sc.fresh n.core)
    (hl : sc.strict → n.isLeader = true ∨ n.peerProgress = PeerMap.empty)
    (hp : ∀ m k, sc.pends m (m.remove k)) (hk : n.Known sc f.message) :
    Emits (Moves sc) (gatherFrame f g) n (fun g' n' => CountStep n n' f g g') := by
  unfold gatherFrame
  refine .recover ?_ ?_
  · unfold gatherDispatchFrame
    split
    · rename_i resp hm
      exact processAppendResp_emits hm g hrx hf hl hp hk
    · refine (handleInbound_emits hrx hsh hf hk).seq ?_
      intro _ _ _ _
      exact .ret .same
  · intro e n' _
    split
    · exact .fail
    · exact .ret .same

theorem commitProposed_emits {g : Gather} (hg : sc.gather g)
    (hd : ∀ n' q, Touched n n' → n.CommitsGather g q → sc.decides n'.core q) :
    Emits (Moves sc) (commitProposed g) n (fun _ _ => True) := by
  unfold commitProposed
  refine .read ?_
  split
  · rename_i h
    obtain ⟨hj, hl, ht, hacc⟩ := h
    refine .put ?_ trivial
    split
    · rename_i hlt
      exact .of_effect fun _ => .committed _ hlt (.gather g hg rfl hj hl ht hacc)
        (hd n _ (.refl n) (by rw [RaftNode.CommitsGather, if_pos ⟨hj, hl, ht, hacc⟩]))
    · exact .quiet rfl
  · rename_i h
    refine tryAdvanceCommitIndex_emits fun n' q hn' hq => hd n' q hn' ?_
    rw [RaftNode.CommitsGather, if_neg h]
    exact hq

theorem finishPropose_emits {g : Gather} (hg : sc.gather g)
    (hd : ∀ n' q, Touched n n' → n.CommitsGather g q → sc.decides n'.core q) :
    Emits (Moves sc) (finishPropose g) n (fun _ _ => True) := by
  unfold finishPropose
  refine (commitProposed_emits hg hd).seq ?_
  intro _ n' _ _
  refine .read ?_
  split
  · exact .fail
  · exact .ret trivial

end ArbitroRaft
