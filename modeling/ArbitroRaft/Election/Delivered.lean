import ArbitroRaft.Election.Crown

/-!
# Votes that are delivered and votes that count

A campaign looks at the first response of each sender only, and it stops once as
many senders have answered as it could ask.  Both looks are taken before the term
of a response is, so a late answer of an earlier election stands in for the vote
of the same voter that arrives behind it.  `collectVotes_elects_iff` says exactly
which deliveries elect the candidate, for frames that leave its candidacy alone.
-/

namespace ArbitroRaft

open Library

namespace RaftNode

/-- The frame carries no later term and makes the node follow no leader.  A
pre-vote asks about a term nobody is in; a snapshot chunk with a wrong length or
from an outsider is not looked at. -/
def LeavesBe (n : RaftNode) (f : InboundRaftMessage) : Prop :=
  match f.message with
  | .appendEntries msg _ | .appendEntriesSeeded msg _ => msg.term < n.hardState.currentTerm
  | .installSnapshot msg chunk => msg.term < n.hardState.currentTerm ∨
      chunk.length % 2 ^ 32 ≠ msg.chunkLen ∨ f.sender ∉ n.config.peers
  | .appendEntriesResp resp => resp.term ≤ n.hardState.currentTerm
  | .installSnapshotResp resp => resp.term ≤ n.hardState.currentTerm
  | .requestVoteResp resp | .preVoteResp resp => resp.term ≤ n.hardState.currentTerm
  | .requestVote msg => msg.term ≤ n.hardState.currentTerm
  | .timeoutNow msg => msg.term ≤ n.hardState.currentTerm
  | .preVote _ | .custom _ | .customResponse _ => True

instance (n : RaftNode) (f : InboundRaftMessage) : Decidable (n.LeavesBe f) := by
  unfold LeavesBe
  split <;> infer_instance

/-- Handling the frame ends with a fatal error: the registry fails on a custom
frame, or the vote it asks the node to repeat for itself cannot be saved. -/
def endsFatally (n : RaftNode) (f : InboundRaftMessage) : Bool :=
  match f.message with
  | .custom payload =>
    match n.env.customReply payload with
    | .error e => e.isFatal
    | .ok _ => false
  | .requestVote msg => n.canVote msg &&
      (n.env.saveFails n.storage.hardState n.hardState).any
        (fun kind => (RaftError.io kind).isFatal)
  | _ => false

end RaftNode

/-! ## A frame that leaves the candidacy alone -/

/-- Only frames were sent, besides what consensus is not about. -/
structure SentOnly (n n' : RaftNode) : Prop where
  core : n'.core = { n.core with sent := n'.sent }

namespace SentOnly

variable {n n' n'' : RaftNode}

theorem trans (h : SentOnly n n') (h' : SentOnly n' n'') : SentOnly n n'' :=
  ⟨by rw [h'.core, h.core]⟩

theorem hard (h : SentOnly n n') : n'.hardState = n.hardState :=
  congrArg Core.hardState h.core

theorem storage (h : SentOnly n n') : n'.storage = n.storage := congrArg Core.storage h.core

theorem config (h : SentOnly n n') : n'.config = n.config := congrArg Core.config h.core

theorem role (h : SentOnly n n') : n'.softState.role = n.softState.role :=
  congrArg Core.role h.core

theorem undisturbed (h : SentOnly n n') : Undisturbed n n' :=
  ⟨⟨h.config, congrArg Core.jointPeers h.core⟩, h.hard, congrArg Storage.hardState h.storage,
    congrArg Core.leaderId h.core⟩

theorem leavesBe (h : SentOnly n n') {f : InboundRaftMessage} (hf : n.LeavesBe f) :
    n'.LeavesBe f := by
  unfold RaftNode.LeavesBe at hf ⊢
  rw [h.hard, h.config]
  exact hf

theorem endsFatally (h : SentOnly n n') (f : InboundRaftMessage) :
    n'.endsFatally f = n.endsFatally f := by
  have henv : n'.env = n.env := congrArg Core.env h.core
  simp only [RaftNode.endsFatally, RaftNode.canVote, RaftNode.candidateUpToDate, henv, h.hard,
    h.storage]

end SentOnly

/-- A frame was passed over: the responders counted so far stay as well. -/
structure PassedOver (n n' : RaftNode) : Prop extends SentOnly n n' where
  responders : n'.scratchResponders = n.scratchResponders

theorem PassedOver.refl (n : RaftNode) : PassedOver n n := ⟨⟨rfl⟩, rfl⟩

theorem PassedOver.trans {n n' n'' : RaftNode} (h : PassedOver n n') (h' : PassedOver n' n'') :
    PassedOver n n'' :=
  ⟨h.toSentOnly.trans h'.toSentOnly, h'.responders.trans h.responders⟩

theorem PassedOver.replied (n : RaftNode) (reply : Bool) (peer : PeerId) (msg : RaftMessage) :
    PassedOver n (n.replied reply peer msg) := by
  cases reply <;> exact ⟨⟨rfl⟩, rfl⟩

/-- How a candidate comes out of a frame that leaves it alone. -/
inductive Passes (n : RaftNode) (f : InboundRaftMessage) :
    EStateM.Result RaftError RaftNode Unit → Prop
  | returned (n' : RaftNode) : PassedOver n n' → n.endsFatally f = false →
      Passes n f (.ok () n')
  | failed (e : RaftError) (n' : RaftNode) : PassedOver n n' → n.endsFatally f = e.isFatal →
      Passes n f (.error e n')

section Frame

variable {n : RaftNode} {term : Nat}

variable {f : InboundRaftMessage} {sender : PeerId}

/-- Handling that ends with an answer. -/
theorem Passes.send {m : RaftM Unit} {peer : PeerId} {msg : RaftMessage}
    (hrun : m n = (sendMessage peer msg >>= fun _ => pure ()) n) (hf : n.endsFatally f = false) :
    Passes n f (m n) := by
  rw [hrun, bind_of_ok (sendMessage_eq n peer msg)]
  exact .returned _ (.replied n _ peer msg) hf

theorem handleRequestVote_passes {msg : RequestVote} (h : n.HasVoted)
    (hle : msg.term ≤ n.hardState.currentTerm) :
    Passes n ⟨sender, .requestVote msg⟩ (handleRequestVote sender msg n) := by
  unfold handleRequestVote
  rw [bind_of_ok (observeTerm_of_le hle), get_bind]
  cases hcan : n.canVote msg with
  | false =>
    rw [if_neg (by simp)]
    exact .send rfl (by simp [RaftNode.endsFatally, hcan])
  | true =>
    rw [if_pos rfl]
    -- the vote is the one the node has cast and saved
    have hcast : n.castVote msg.candidateId = n := by
      obtain ⟨v, hv⟩ := Option.ne_none_iff_exists'.mp h.voted
      rw [RaftNode.castVote, RaftNode.canVote_votedFor hcan hv, ← hv]
    unfold grantVote
    rw [modify_bind, hcast]
    cases hsave : n.env.saveFails n.storage.hardState n.hardState with
    | some kind =>
      have hrun : saveHardState n = .error (.io kind) n := by
        unfold saveHardState
        rw [get_bind, hsave]
        rfl
      rw [bind_of_error hrun]
      exact .failed _ n (.refl n) (by simp [RaftNode.endsFatally, hcan, hsave])
    | none =>
      have hsaved : n.storage.saveHardState n.hardState = n.storage := by
        rw [← h.durable]
        rfl
      have hrun : saveHardState n = .ok () n := by
        unfold saveHardState
        rw [get_bind, hsave]
        change EStateM.Result.ok () _ = _
        rw [hsaved]
      rw [bind_of_ok hrun, get_bind]
      exact .send rfl (by simp [RaftNode.endsFatally, hsave])

theorem handleInstallSnapshot_passes {msg : InstallSnapshot} {chunk : List UInt8}
    (hf : n.LeavesBe ⟨sender, .installSnapshot msg chunk⟩) :
    Passes n ⟨sender, .installSnapshot msg chunk⟩ (handleInstallSnapshot sender msg chunk n) := by
  unfold handleInstallSnapshot
  rw [get_bind]
  split
  · exact .failed _ n (.refl n) rfl
  · rename_i hlen
    split
    · exact .returned n (.refl n) rfl
    · rename_i hpeer
      have hstale : msg.term < n.hardState.currentTerm := by
        rcases hf with h | h | h
        · exact h
        · exact absurd h hlen
        · exact absurd h hpeer
      rw [modify_bind, if_pos hstale]
      unfold respondSnapshot
      rw [get_bind, bind_of_ok (sendMessage_eq _ _ _)]
      refine .returned _ (PassedOver.trans ?_ (.replied _ _ _ _)) rfl
      exact ⟨⟨rfl⟩, rfl⟩

theorem handleTimeoutNow_passes {msg : TimeoutNow} (hle : msg.term ≤ n.hardState.currentTerm) :
    Passes n ⟨sender, .timeoutNow msg⟩ (handleTimeoutNow sender msg n) := by
  unfold handleTimeoutNow
  rw [get_bind]
  split
  · exact .returned n (.refl n) rfl
  · rw [bind_of_ok (observeTerm_of_le hle)]
    refine .returned _ ?_ rfl
    dsimp only
    split
    · exact ⟨⟨rfl⟩, rfl⟩
    · exact .refl n

theorem handleAppendEntriesWith_passes {msg : AppendEntries} {entries : List LogEntry}
    {apply : AppendEntries → List LogEntry → RaftM Unit} (hlt : msg.term < n.hardState.currentTerm)
    (hf : n.endsFatally f = false) :
    Passes n f (handleAppendEntriesWith apply sender msg entries n) := by
  unfold handleAppendEntriesWith
  rw [get_bind, if_pos hlt]
  exact .send rfl hf

theorem dispatchMessage_passes {message : RaftMessage} (h : n.HasVoted)
    (hrole : n.softState.role = .candidate) (hf : n.LeavesBe ⟨sender, message⟩) :
    Passes n ⟨sender, message⟩ (dispatchMessage sender message n) := by
  cases message with
  | appendEntries msg entries => exact handleAppendEntriesWith_passes hf rfl
  | appendEntriesSeeded msg entries => exact handleAppendEntriesWith_passes hf rfl
  | appendEntriesResp resp =>
    have hle : resp.term ≤ n.hardState.currentTerm := hf
    change Passes n _ (handleAppendEntriesResponse sender resp n)
    unfold handleAppendEntriesResponse
    rw [get_bind, if_neg (not_lt.mpr hle), if_neg (by simp [RaftNode.isLeader, hrole])]
    exact .returned n (.refl n) rfl
  | custom payload =>
    change Passes n _ (handleCustomMessage sender payload n)
    unfold handleCustomMessage
    rw [get_bind]
    cases hreply : n.env.customReply payload with
    | error e => exact .failed e n (.refl n) (by simp [RaftNode.endsFatally, hreply])
    | ok reply => exact .send rfl (by simp [RaftNode.endsFatally, hreply])
  | customResponse payload => exact .returned n (.refl n) rfl
  | requestVote msg => exact handleRequestVote_passes h hf
  | requestVoteResp resp | preVoteResp resp | installSnapshotResp resp =>
    have hrun := observeTerm_of_le (n := n) hf
    change Passes n _ (observeTerm resp.term n)
    rw [hrun]
    exact .returned n (.refl n) rfl
  | preVote msg => exact .send rfl rfl
  | installSnapshot msg chunk => exact handleInstallSnapshot_passes hf
  | timeoutNow msg => exact handleTimeoutNow_passes hf

/-- A frame that leaves a candidate alone is passed over, unless it fails
fatally. -/
theorem handleInboundTolerant_passes (h : n.HasVoted) (hrole : n.softState.role = .candidate)
    (hf : n.LeavesBe f) :
    (n.endsFatally f = false ∧ ∃ n', handleInboundTolerant f n = .ok () n' ∧ PassedOver n n') ∨
      (n.endsFatally f = true ∧ ∃ e n', handleInboundTolerant f n = .error e n') := by
  have hstamp : n.stampContact f = n := by
    unfold RaftNode.stampContact
    rw [if_neg]
    rintro ⟨hl, -⟩
    simp [RaftNode.isLeader, hrole] at hl
  have hinbound : handleInbound f n = dispatchMessage f.sender f.message n := by
    unfold handleInbound
    rw [modify_bind, hstamp]
  have hpasses : Passes n f (handleInbound f n) := hinbound ▸ dispatchMessage_passes h hrole hf
  unfold handleInboundTolerant tolerate
  cases hrun : handleInbound f n with
  | ok a n' =>
    rw [hrun] at hpasses
    cases hpasses with
    | returned _ hs hfatal => exact .inl ⟨hfatal, n', tryCatch_of_ok hrun, hs⟩
  | error e n' =>
    rw [hrun] at hpasses
    cases hpasses with
    | failed _ _ hs hfatal =>
      rw [tryCatch_of_error hrun, hfatal]
      cases e.isFatal with
      | true => exact .inr ⟨rfl, e, n', rfl⟩
      | false => exact .inl ⟨rfl, n', rfl, hs⟩

theorem drainFrames_passes {fs : List InboundRaftMessage} (h : n.HasVoted)
    (hrole : n.softState.role = .candidate) (hfs : ∀ f ∈ fs, n.LeavesBe f) :
    ((∀ f ∈ fs, n.endsFatally f = false) ∧ ∃ n', drainFrames fs n = .ok () n' ∧ PassedOver n n') ∨
      ((∃ f ∈ fs, n.endsFatally f = true) ∧ ∃ e n', drainFrames fs n = .error e n') := by
  induction fs generalizing n with
  | nil => exact .inl ⟨by simp, n, rfl, .refl n⟩
  | cons f fs ih =>
    unfold drainFrames
    obtain ⟨hfatal, n₁, hrun, hs⟩ | ⟨hfatal, e, n₁, hrun⟩ :=
      handleInboundTolerant_passes h hrole (hfs f List.mem_cons_self)
    · rw [bind_of_ok hrun]
      have hrest := ih (h.of_undisturbed hs.undisturbed) (hs.role.trans hrole)
        fun g hg => hs.leavesBe (hfs g (List.mem_cons_of_mem f hg))
      simp only [hs.endsFatally] at hrest
      obtain ⟨hnone, n₂, hrun₂, hs₂⟩ | ⟨⟨g, hg, hgf⟩, herr⟩ := hrest
      · exact .inl ⟨List.forall_mem_cons.mpr ⟨hfatal, hnone⟩, n₂, hrun₂, hs.trans hs₂⟩
      · exact .inr ⟨⟨g, List.mem_cons_of_mem f hg, hgf⟩, herr⟩
    · rw [bind_of_error hrun]
      exact .inr ⟨⟨f, List.mem_cons_self, hfatal⟩, e, n₁, rfl⟩

end Frame

/-! ## The loop -/

/-- The candidate `n₀` has heard `heard` and is otherwise as it was. -/
structure StillStands (n₀ n : RaftNode) (heard : List InboundRaftMessage) : Prop
    extends SentOnly n₀ n where
  responders : n.scratchResponders = answered heard

/-- How a round over frames that leave the candidacy alone ends. -/
inductive RoundEnds (n₀ : RaftNode) (term : Nat) (heard batch : List InboundRaftMessage) :
    EStateM.Result RaftError RaftNode CampaignRound → Prop
  | won (n' : RaftNode) :
      n₀.voterMajority (n₀.countedVotes term (heard ++ batch)) = true →
      RoundEnds n₀ term heard batch (.ok .won n')
  | goOn (n' : RaftNode) :
      n₀.voterMajority (n₀.countedVotes term (heard ++ batch)) = false →
      (∀ f ∈ batch, n₀.endsFatally f = false) → StillStands n₀ n' (heard ++ batch) →
      RoundEnds n₀ term heard batch (.ok (.goOn (n₀.countedVotes term (heard ++ batch))) n')
  | failed (e : RaftError) (n' : RaftNode) :
      n₀.voterMajority (n₀.countedVotes term (heard ++ batch)) = false →
      (∃ f ∈ batch, n₀.endsFatally f = true) → RoundEnds n₀ term heard batch (.error e n')

section Loop

variable {n₀ n : RaftNode} {term : Nat} {heard : List InboundRaftMessage}

theorem Standing.hasVoted (h : Standing n₀ term) : n₀.HasVoted :=
  ⟨by rw [h.hard]; exact nofun, h.saved⟩

variable {batch : List InboundRaftMessage} {batches : List (List InboundRaftMessage)}

/-- The second pass over a batch. -/
theorem handleCampaignRequests_passes (h : StillStands n₀ n heard) (hstood : Standing n₀ term)
    (hb : ∀ f ∈ batch, n₀.LeavesBe f) :
    ((∀ f ∈ batch, n₀.endsFatally f = false) ∧
      ∃ n', handleCampaignRequests batch n = .ok () n' ∧ StillStands n₀ n' heard) ∨
    ((∃ f ∈ batch, n₀.endsFatally f = true) ∧
      ∃ e n', handleCampaignRequests batch n = .error e n') := by
  unfold handleCampaignRequests campaignRequests
  generalize hfs : List.filter _ batch = fs
  have hsub {f : InboundRaftMessage} (hf : f ∈ fs) : f ∈ batch :=
    List.mem_of_mem_filter (hfs ▸ hf)
  have hdrain := drainFrames_passes
    (hstood.hasVoted.of_undisturbed h.toSentOnly.undisturbed)
    (h.toSentOnly.role.trans hstood.role)
    (fun f hf => h.toSentOnly.leavesBe (hb f (hsub hf)))
  simp only [h.toSentOnly.endsFatally] at hdrain
  obtain ⟨hnone, n', hrun, hs⟩ | ⟨⟨f, hf, hfatal⟩, herr⟩ := hdrain
  · refine .inl ⟨fun f hf => ?_, n', hrun,
      ⟨h.toSentOnly.trans hs.toSentOnly, hs.responders.trans h.responders⟩⟩
    -- a vote response is not handled here, and would not fail
    cases hm : f.message with
    | requestVoteResp resp =>
      unfold RaftNode.endsFatally
      rw [hm]
    | _ => exact hnone f (hfs ▸ List.mem_filter.mpr ⟨hf, by rw [hm]⟩)
  · exact .inr ⟨⟨f, hsub hf, hfatal⟩, herr⟩

theorem campaignRound_ends (h : StillStands n₀ n heard) (hstood : Standing n₀ term)
    (hb : ∀ f ∈ batch, n₀.LeavesBe f) :
    RoundEnds n₀ term heard batch
      (campaignRound term batch (n₀.countedVotes term heard) n) := by
  have hu := h.toSentOnly.undisturbed
  have hresp : ∀ f ∈ batch, ∀ resp, f.message = .requestVoteResp resp →
      resp.term ≤ n.hardState.currentTerm := by
    intro f hf resp hm
    have hle := h.toSentOnly.leavesBe (hb f hf)
    unfold RaftNode.LeavesBe at hle
    rw [hm] at hle
    exact hle
  have hcount : countVoteResponses term batch (n.countedVotes term heard) n = _ :=
    countVoteResponses_run h.responders hresp
  rw [hu.countedVotes, hu.countedVotes] at hcount
  have hw : StillStands n₀ { n with scratchResponders := answered (heard ++ batch) }
      (heard ++ batch) := ⟨⟨h.core⟩, rfl⟩
  unfold campaignRound
  rw [bind_of_ok hcount]
  dsimp only
  rw [get_bind, hw.toSentOnly.undisturbed.voterMajority]
  cases hmajority : n₀.voterMajority (n₀.countedVotes term (heard ++ batch)) with
  | true =>
    rw [if_pos rfl]
    exact .won _ hmajority
  | false =>
    rw [if_neg (by simp)]
    obtain ⟨hnone, n', hrun, hw'⟩ | ⟨hfatal, e, n', hrun⟩ :=
      handleCampaignRequests_passes hw hstood hb
    · have hcand : n'.isCandidateOf term = true := by
        unfold RaftNode.isCandidateOf
        rw [hw'.toSentOnly.role, hw'.toSentOnly.hard, hstood.role, hstood.hard]
        simp
      rw [bind_of_ok hrun, get_bind, if_pos hcand]
      exact .goOn n' hmajority hnone hw'
    · rw [bind_of_error hrun]
      exact .failed e n' hmajority hfatal

/-- The batches up to the `k`-th elect the candidate: their first answers carry a
majority, fewer senders than could be asked had answered before each of them, and
none of those before the last failed fatally. -/
structure ElectedBy (n₀ : RaftNode) (term possible : Nat) (heard : List InboundRaftMessage)
    (batches : List (List InboundRaftMessage)) (k : Nat) : Prop where
  le : k ≤ batches.length
  majority : n₀.voterMajority (n₀.countedVotes term (heard ++ (batches.take k).flatten)) = true
  unfinished : ∀ j < k, (answered (heard ++ (batches.take j).flatten)).length < possible
  sound : ∀ f ∈ (batches.take (k - 1)).flatten, n₀.endsFatally f = false

theorem ElectedBy.zero {possible : Nat} (h : n₀.voterMajority (n₀.countedVotes term heard) = true) :
    ElectedBy n₀ term possible heard batches 0 := by
  refine ⟨Nat.zero_le _, ?_, nofun, ?_⟩
  · simpa using h
  · simp

theorem electedBy_cons_succ {possible k : Nat} :
    ElectedBy n₀ term possible heard (batch :: batches) (k + 1) ↔
      (answered heard).length < possible ∧ (k ≠ 0 → ∀ f ∈ batch, n₀.endsFatally f = false) ∧
        ElectedBy n₀ term possible (heard ++ batch) batches k := by
  have hheard (j : Nat) : heard ++ ((batch :: batches).take (j + 1)).flatten =
      (heard ++ batch) ++ (batches.take j).flatten := by
    rw [List.take_succ_cons, List.flatten_cons, List.append_assoc]
  constructor
  · intro h
    refine ⟨by simpa using h.unfinished 0 (Nat.succ_pos k), fun hk f hf => ?_,
      Nat.le_of_succ_le_succ h.le, hheard k ▸ h.majority, fun j hj => ?_, fun f hf => ?_⟩
    · obtain ⟨i, rfl⟩ := Nat.exists_eq_succ_of_ne_zero hk
      refine h.sound f ?_
      rw [Nat.add_sub_cancel, Nat.succ_eq_add_one, List.take_succ_cons, List.flatten_cons]
      exact List.mem_append_left _ hf
    · exact hheard j ▸ h.unfinished (j + 1) (Nat.succ_lt_succ hj)
    · cases k with
      | zero => simp at hf
      | succ i =>
        refine h.sound f ?_
        rw [Nat.add_sub_cancel, List.take_succ_cons, List.flatten_cons]
        exact List.mem_append_right _ hf
  · rintro ⟨hfew, hbatch, h⟩
    refine ⟨Nat.succ_le_succ h.le, hheard k ▸ h.majority, fun j hj => ?_, fun f hf => ?_⟩
    · cases j with
      | zero => simpa using hfew
      | succ j => exact hheard j ▸ h.unfinished j (Nat.lt_of_succ_lt_succ hj)
    · cases k with
      | zero => simp at hf
      | succ i =>
        rw [Nat.add_sub_cancel, List.take_succ_cons, List.flatten_cons] at hf
        rcases List.mem_append.mp hf with hf | hf
        · exact hbatch (Nat.succ_ne_zero i) f hf
        · exact h.sound f hf

/-- Before a batch is awaited the loop is left, with the votes at hand. -/
theorem StillStands.left_iff (h : StillStands n₀ n heard) {possible : Nat}
    (hleft : n₀.voterMajority (n₀.countedVotes term heard) = true ∨
      ¬ (answered heard).length < possible) :
    (∃ n', collectVotes term possible batches (n₀.countedVotes term heard) n = .ok true n') ↔
      ∃ k, ElectedBy n₀ term possible heard batches k := by
  have hrun : collectVotes term possible batches (n₀.countedVotes term heard) n =
      .ok (n₀.voterMajority (n₀.countedVotes term heard)) n := by
    unfold collectVotes
    rw [get_bind, h.toSentOnly.undisturbed.voterMajority, h.responders, if_pos hleft]
    rfl
  rw [hrun]
  constructor
  · rintro ⟨n', hn'⟩
    refine ⟨0, .zero ?_⟩
    injection hn'
  · rintro ⟨k, hk⟩
    suffices hmajority : n₀.voterMajority (n₀.countedVotes term heard) = true from
      ⟨n, by rw [hmajority]⟩
    rcases hleft with hmajority | hmany
    · exact hmajority
    · cases k with
      | zero => simpa using hk.majority
      | succ k => exact absurd (by simpa using hk.unfinished 0 (Nat.succ_pos k)) hmany

/-- Which deliveries elect a candidate that has heard `heard`. -/
theorem StillStands.elected_iff (h : StillStands n₀ n heard) (hstood : Standing n₀ term)
    (possible : Nat) (hb : ∀ batch ∈ batches, ∀ f ∈ batch, n₀.LeavesBe f) :
    (∃ n', collectVotes term possible batches (n₀.countedVotes term heard) n = .ok true n') ↔
      ∃ k, ElectedBy n₀ term possible heard batches k := by
  induction batches generalizing n heard with
  | nil =>
    by_cases hleft : n₀.voterMajority (n₀.countedVotes term heard) = true ∨
        ¬ (answered heard).length < possible
    · exact h.left_iff hleft
    · have hrun : collectVotes term possible [] (n₀.countedVotes term heard) n =
          .error .noQuorum n := by
        unfold collectVotes
        rw [get_bind, h.toSentOnly.undisturbed.voterMajority, h.responders, if_neg hleft]
        rfl
      rw [hrun]
      constructor
      · rintro ⟨n', hn'⟩
        cases hn'
      · rintro ⟨k, hk⟩
        obtain rfl : k = 0 := Nat.le_zero.mp hk.le
        exact absurd (.inl (by simpa using hk.majority)) hleft
  | cons batch rest ih =>
    by_cases hleft : n₀.voterMajority (n₀.countedVotes term heard) = true ∨
        ¬ (answered heard).length < possible
    · exact h.left_iff hleft
    · have hsucc : (∃ k, ElectedBy n₀ term possible heard (batch :: rest) k) ↔
          ∃ k, ElectedBy n₀ term possible heard (batch :: rest) (k + 1) := by
        constructor
        · rintro ⟨k, hk⟩
          cases k with
          | zero => exact absurd (.inl (by simpa using hk.majority)) hleft
          | succ k => exact ⟨k, hk⟩
        · rintro ⟨k, hk⟩
          exact ⟨k + 1, hk⟩
      push Not at hleft
      have hround := campaignRound_ends h hstood (hb batch List.mem_cons_self)
      rw [hsucc]
      unfold collectVotes
      rw [get_bind, h.toSentOnly.undisturbed.voterMajority, h.responders,
        if_neg (by push Not; exact hleft)]
      dsimp only
      cases hrun : campaignRound term batch (n₀.countedVotes term heard) n with
      | error e n₁ =>
        rw [hrun] at hround
        cases hround with
        | failed _ _ hmajority hfatal =>
          rw [bind_of_error hrun]
          constructor
          · rintro ⟨n', hn'⟩
            cases hn'
          · rintro ⟨k, hk⟩
            obtain ⟨-, hsound, hrest⟩ := electedBy_cons_succ.mp hk
            obtain ⟨f, hf, hff⟩ := hfatal
            cases k with
            | zero =>
              have := hrest.majority
              simp [hmajority] at this
            | succ k => simp [hsound (Nat.succ_ne_zero k) f hf] at hff
      | ok r n₁ =>
        rw [hrun] at hround
        rw [bind_of_ok hrun]
        cases hround with
        | won _ hmajority =>
          refine iff_of_true ⟨n₁, rfl⟩ ⟨0, electedBy_cons_succ.mpr ⟨hleft.2, ?_, ?_⟩⟩
          · exact fun hne => absurd rfl hne
          · exact .zero hmajority
        | goOn _ hmajority hnone hw =>
          dsimp only
          rw [ih hw fun b hb' => hb b (List.mem_cons_of_mem batch hb')]
          refine exists_congr fun k => ?_
          rw [electedBy_cons_succ]
          exact ⟨fun hk => ⟨hleft.2, fun _ => hnone, hk⟩, fun hk => hk.2.2⟩

end Loop

/-- **Which votes count.**  For frames that leave the candidacy alone,
`collect_votes` returns `true` exactly if at some batch the first answers so far
carry a majority, fewer senders than were asked had answered before each batch up
to it, and no earlier frame failed fatally. -/
theorem collectVotes_elects_iff (n : RaftNode) (term possible : Nat)
    (batches : List (List InboundRaftMessage)) (hstood : Standing n term)
    (hbe : ∀ batch ∈ batches, ∀ f ∈ batch, n.LeavesBe f) :
    (∃ n', collectVotes term possible batches [n.config.nodeId] n = .ok true n') ↔
      ∃ k ≤ batches.length,
        n.voterMajority (n.countedVotes term (batches.take k).flatten) = true ∧
        (∀ j < k, (answered (batches.take j).flatten).length < possible) ∧
        ∀ f ∈ (batches.take (k - 1)).flatten, n.endsFatally f = false := by
  have hw : StillStands n n [] := ⟨⟨rfl⟩, hstood.responders⟩
  have hiff := hw.elected_iff hstood possible hbe
  rw [show n.countedVotes term [] = [n.config.nodeId] from rfl] at hiff
  rw [hiff]
  refine exists_congr fun k => ?_
  constructor
  · exact fun h => ⟨h.le, h.majority, h.unfinished, h.sound⟩
  · exact fun ⟨hle, hmajority, hopen, hsound⟩ => ⟨hle, hmajority, hopen, hsound⟩

/-- Voter 1 of 1, 2 and 3 has opened a campaign in term 2. -/
def openedCampaign : RaftNode := startElection.after (VoterChange.swapNode 1 .old)

theorem standing_openedCampaign : Standing openedCampaign 2 where
  member := by decide +kernel
  hard := by decide +kernel
  saved := by decide +kernel
  role := by decide +kernel
  responders := by decide +kernel

/-- The vote of 2 arrives behind a request and an answer of 3 to an earlier one. -/
def votedInTime : List (List InboundRaftMessage) :=
  [[⟨3, .requestVoteResp ⟨1, false⟩⟩, ⟨3, .requestVote ⟨1, 3, 1, 1⟩⟩],
    [⟨2, .requestVoteResp ⟨2, true⟩⟩]]

theorem collectVotes_elects_iff_in_time :
    ∃ n', collectVotes 2 3 votedInTime [1] openedCampaign = .ok true n' := by
  refine (collectVotes_elects_iff openedCampaign 2 3 votedInTime standing_openedCampaign ?_).mpr
    ⟨2, le_rfl, ?_, ?_, ?_⟩
  · decide +kernel
  · decide +kernel
  · decide +kernel
  · decide +kernel

/-- An answer of 2 from term 1 arrives before its vote. -/
def lateAnswer : List (List InboundRaftMessage) :=
  [[⟨2, .requestVoteResp ⟨1, false⟩⟩], [⟨2, .requestVoteResp ⟨2, true⟩⟩]]

/-- As many outsiders answer as voters were asked. -/
def crowdedOut : List (List InboundRaftMessage) :=
  [[⟨7, .requestVoteResp ⟨2, true⟩⟩, ⟨8, .requestVoteResp ⟨2, true⟩⟩,
      ⟨9, .requestVoteResp ⟨2, true⟩⟩], [⟨2, .requestVoteResp ⟨2, true⟩⟩]]

/-- Voters 1 and 2 are a majority and the vote of 2 is delivered, yet the campaign
fails behind the late answer and is lost behind the outsiders. -/
theorem delivered_vote_lost :
    Standing openedCampaign 2 ∧ Carries openedCampaign.config.peers [1, 2] ∧
    (∀ batch ∈ lateAnswer ++ crowdedOut, ∀ f ∈ batch, openedCampaign.LeavesBe f) ∧
    ⟨2, .requestVoteResp ⟨2, true⟩⟩ ∈ lateAnswer.flatten ∧
    (collectVotes 2 3 lateAnswer [1]).result? openedCampaign = none ∧
    ⟨2, .requestVoteResp ⟨2, true⟩⟩ ∈ crowdedOut.flatten ∧
    (collectVotes 2 3 crowdedOut [1]).result? openedCampaign = some false := by
  refine ⟨standing_openedCampaign, ?_, ?_, ?_, ?_, ?_, ?_⟩
  · unfold Carries
    decide +kernel
  · decide +kernel
  · decide
  · decide +kernel
  · decide
  · decide +kernel

end ArbitroRaft
