import ArbitroRaft.Machine.Calls
import ArbitroRaft.Machine.Talk
import ArbitroRaft.Membership.WellFormed
import ArbitroRaft.Node.ReadIndex
import ArbitroRaft.Replication.CommitRule

/-!
# Learners never count

Learners share the progress table, the fan-out and the table of awaited
acknowledgements with the voters, and each place that counts leaves them out on
its own: the vote and pre-vote loops and the confirmation of a read when they note
an answer, the quorum lease when it lists recent contacts, the gather of a
proposal when it moves its counter, the commit rule when it collects what was
acknowledged.

The loops are described by their turns (`Turn`): the state in which answers were
looked at, and the identities before and after.  `voter_majority` is asked about
the identities of a turn and about nothing else.

## Main results

* `learners_never_count`: whoever is counted is a voter or the node itself.
-/

namespace ArbitroRaft

open Library

/-! ## The turns of a loop -/

/-- A turn of a loop that counts: the state in which the answers were looked at,
the identities counted before it and after it. -/
structure Turn where
  node : RaftNode
  before : List PeerId
  after : List PeerId

/-- The turns of a loop that counts the answers of a batch, then handles its other
frames, and goes on while `goOn` holds. -/
def pollTurns (count : List InboundRaftMessage → List PeerId → RaftM (Option (List PeerId)))
    (handle : List InboundRaftMessage → RaftM Unit) (goOn : RaftNode → Bool) :
    List (List InboundRaftMessage) → List PeerId → RaftNode → List Turn
  | [], _, _ => []
  | batch :: rest, ids, n =>
    match count batch ids n with
    | .ok (some ids') n₁ =>
      ⟨n, ids, ids'⟩ ::
        match handle batch n₁ with
        | .ok _ n₂ => if goOn n₂ then pollTurns count handle goOn rest ids' n₂ else []
        | .error _ _ => []
    | _ => []

/-- The turns of `collect_votes`. -/
def voteTurns (term : Nat) : List (List InboundRaftMessage) → List PeerId → RaftNode → List Turn :=
  pollTurns (countVoteResponses term) handleCampaignRequests (fun n => n.isCandidateOf term)

/-- The turns of `campaign_pre_vote`. -/
def preVoteTurns (preVoteTerm : Nat) :
    List (List InboundRaftMessage) → List PeerId → RaftNode → List Turn :=
  pollTurns countPreVoteResponses handlePreVoteRequests
    (fun n => !decide (preVoteTerm ≤ n.hardState.currentTerm))

/-- The frames of one round of `confirm_leadership_quorum`, each counted before it
is handled, and what comes behind them. -/
def confirmFrameTurns (next : Confirmation → RaftNode → List Turn) :
    List InboundRaftMessage → Confirmation → RaftNode → List Turn
  | [], c, n => next c n
  | f :: fs, c, n =>
    ⟨n, c.acks, (c.count n f).acks⟩ ::
      match handleInboundTolerant f n with
      | .ok _ n' => confirmFrameTurns next fs (c.count n f) n'
      | .error _ _ => []

/-- The turns of `confirm_leadership_quorum`. -/
def confirmTurns : List ConfirmTurn → Confirmation → RaftNode → List Turn
  | [], _, _ => []
  | turn :: rest, c, n =>
    match probeVoters turn.tick n with
    | .ok _ n₁ => confirmFrameTurns (confirmTurns rest) turn.batch c n₁
    | .error _ _ => []

/-- The identities of every turn are distinct, and those that were not there from
the start were voters of the configuration in force in the turn that added
them. -/
structure FairPoll (start : List PeerId) (ts : List Turn) : Prop where
  distinct : ∀ t ∈ ts, t.after.Nodup
  voters : ∀ t ∈ ts, ∀ v ∈ t.after, v ∉ start →
    ∃ t' ∈ ts, v ∉ t'.before ∧ v ∈ t'.after ∧ v ∈ t'.node.config.peers

/-- A majority was found among the identities of a turn, or at the start. -/
def Decided (n : RaftNode) (start : List PeerId) (ts : List Turn) : Prop :=
  n.voterMajority start = true ∨ ∃ t ∈ ts, n.voterMajority t.after = true

theorem Decided.cons {n : RaftNode} {t : Turn} {ts : List Turn} (h : Decided n t.after ts)
    (start : List PeerId) : Decided n start (t :: ts) := by
  rcases h with h | ⟨t', ht', h⟩
  · exact .inr ⟨t, List.mem_cons_self, h⟩
  · exact .inr ⟨t', List.mem_cons_of_mem t ht', h⟩

/-- What a turn adds are voters. -/
def Turn.AddsVoters (t : Turn) : Prop :=
  ∀ v ∈ t.after, v ∉ t.before → v ∈ t.node.config.peers

namespace FairPoll

variable {start : List PeerId} {t : Turn} {ts ts' : List Turn}

theorem nil : FairPoll start [] :=
  ⟨fun _ h => absurd h List.not_mem_nil, fun _ h => absurd h List.not_mem_nil⟩

/-- A turn in front of the others. -/
theorem cons (hnodup : t.after.Nodup) (hadds : t.AddsVoters) (h : FairPoll t.after ts) :
    FairPoll t.before (t :: ts) := by
  refine ⟨List.forall_mem_cons.mpr ⟨hnodup, h.distinct⟩, fun s hs v hv hstart => ?_⟩
  by_cases hvt : v ∈ t.after
  · exact ⟨t, List.mem_cons_self, hstart, hvt, hadds v hvt hstart⟩
  · rcases List.mem_cons.mp hs with heq | hs
    · rw [heq] at hv
      exact absurd hv hvt
    · obtain ⟨t', ht', hadded⟩ := h.voters s hs v hv hvt
      exact ⟨t', List.mem_cons_of_mem t ht', hadded⟩

end FairPoll

/-! ## Votes and pre-votes -/

/-- How counting answers moves the identities and the responders. -/
structure Grown (n n' : RaftNode) (senders ids ids' : List PeerId) : Prop where
  responders : n.scratchResponders ⊆ n'.scratchResponders
  config : n'.config = n.config
  added : ∃ new, ids' = ids ++ new ∧ new.Nodup ∧ ∀ v ∈ new, v ∈ n.config.peers ∧
    v ∈ senders ∧ v ∉ n.scratchResponders ∧ v ∈ n'.scratchResponders

namespace Grown

variable {n n' n'' : RaftNode} {senders senders' ids ids' ids'' : List PeerId}

theorem refl (n : RaftNode) (senders ids : List PeerId) : Grown n n senders ids ids :=
  ⟨List.Subset.refl _, rfl, [], (List.append_nil _).symm, List.nodup_nil, nofun⟩

theorem mono (h : Grown n n' senders ids ids') (hsub : senders ⊆ senders') :
    Grown n n' senders' ids ids' := by
  obtain ⟨new, hids, hnodup, hnew⟩ := h.added
  refine ⟨h.responders, h.config, new, hids, hnodup, fun v hv => ?_⟩
  obtain ⟨hmem, hs, hr⟩ := hnew v hv
  exact ⟨hmem, hsub hs, hr⟩

theorem trans (h : Grown n n' senders ids ids') (h' : Grown n' n'' senders ids' ids'') :
    Grown n n'' senders ids ids'' := by
  obtain ⟨new, rfl, hnodup, hnew⟩ := h.added
  obtain ⟨new', rfl, hnodup', hnew'⟩ := h'.added
  refine ⟨fun v hv => h'.responders (h.responders hv), h'.config.trans h.config, new ++ new',
    List.append_assoc _ _ _, ?_, ?_⟩
  · refine List.nodup_append.mpr ⟨hnodup, hnodup', ?_⟩
    rintro a ha b hb rfl
    exact (hnew' a hb).2.2.1 (hnew a ha).2.2.2
  · intro v hv
    rcases List.mem_append.mp hv with hv | hv
    · obtain ⟨hmem, hs, hr, hr'⟩ := hnew v hv
      exact ⟨hmem, hs, hr, h'.responders hr'⟩
    · obtain ⟨hmem, hs, hr, hr'⟩ := hnew' v hv
      exact ⟨h.config ▸ hmem, hs, fun hv' => hr (h.responders hv'), hr'⟩

/-- Every identity is `self` or has answered. -/
theorem tally (h : Grown n n' senders ids ids') {self : PeerId} (hnodup : ids.Nodup)
    (hids : ∀ v ∈ ids, v = self ∨ v ∈ n.scratchResponders) (hself : self ∉ senders) :
    ids'.Nodup ∧ ∀ v ∈ ids', v = self ∨ v ∈ n'.scratchResponders := by
  obtain ⟨new, rfl, hnew_nodup, hnew⟩ := h.added
  constructor
  · refine List.nodup_append.mpr ⟨hnodup, hnew_nodup, ?_⟩
    rintro a ha b hb rfl
    obtain ⟨-, hs, hr, -⟩ := hnew a hb
    rcases hids a ha with rfl | hr'
    · exact hself hs
    · exact hr hr'
  · intro v hv
    rcases List.mem_append.mp hv with hv | hv
    · exact (hids v hv).imp id fun hr => h.responders hr
    · exact .inr (hnew v hv).2.2.2

theorem addsVoters (h : Grown n n' senders ids ids') : (⟨n, ids, ids'⟩ : Turn).AddsVoters := by
  obtain ⟨new, rfl, -, hnew⟩ := h.added
  intro v hv hbefore
  rcases List.mem_append.mp hv with hv | hv
  · exact absurd hv hbefore
  · exact (hnew v hv).1

end Grown

section Polls

variable {n : RaftNode}

theorem countVoteResponse_grown (term : Nat) (sender : PeerId) (resp : RequestVoteResp)
    (ids : List PeerId) :
    Ends (countVoteResponse term sender resp ids) n
      (fun r n' => ∀ ids', r = some ids' → Grown n n' [sender] ids ids') (fun _ => True) := by
  unfold countVoteResponse
  refine .read ?_
  split
  · refine .ret ?_
    rintro ids' h
    cases h
    exact .refl n _ _
  · rename_i hnew
    have hsub : n.scratchResponders ⊆ (n.addResponder sender).scratchResponders :=
      List.subset_append_left _ _
    refine .seq (P := fun _ n' => n' = n.addResponder sender) rfl ?_
    rintro _ _ rfl
    split
    · exact .seq Ends.any fun _ _ _ => .ret nofun
    · split
      · rename_i hg
        refine .ret ?_
        rintro ids' h
        cases h
        refine ⟨hsub, rfl, [sender], rfl, List.nodup_singleton _, fun v hv => ?_⟩
        obtain rfl := List.mem_singleton.mp hv
        exact ⟨hg.2.2, hv, hnew, List.mem_append_right _ hv⟩
      · refine .ret ?_
        rintro ids' h
        cases h
        exact ⟨hsub, rfl, [], (List.append_nil _).symm, List.nodup_nil, nofun⟩

/-- The senders of a batch. -/
def senders (batch : List InboundRaftMessage) : List PeerId := batch.map InboundRaftMessage.sender

theorem countVoteResponses_grown (term : Nat) (batch : List InboundRaftMessage)
    (ids : List PeerId) (n : RaftNode) :
    Ends (countVoteResponses term batch ids) n
      (fun r n' => ∀ ids', r = some ids' → Grown n n' (senders batch) ids ids')
      (fun _ => True) := by
  induction batch generalizing n ids with
  | nil =>
    refine .ret ?_
    rintro ids' h
    cases h
    exact .refl n _ _
  | cons f fs ih =>
    have hfs : senders fs ⊆ senders (f :: fs) := List.subset_cons_self _ _
    have hf : [f.sender] ⊆ senders (f :: fs) := List.cons_subset_cons _ (List.nil_subset _)
    unfold countVoteResponses
    split
    · rename_i resp hm
      refine (countVoteResponse_grown term f.sender resp ids).seq ?_
      intro r n₁ hr
      cases r with
      | none => exact .ret nofun
      | some ids₁ =>
        refine (ih ids₁ n₁).mono (fun r n₂ h ids' hr' => ?_) fun _ h => h
        exact ((hr ids₁ rfl).mono hf).trans ((h ids' hr').mono hfs)
    · exact (ih ids n).mono (fun r n₁ h ids' hr => (h ids' hr).mono hfs) fun _ h => h

theorem countPreVoteResponses_grown (batch : List InboundRaftMessage) (ids : List PeerId)
    (n : RaftNode) :
    Ends (countPreVoteResponses batch ids) n
      (fun r n' => ∀ ids', r = some ids' → Grown n n' (senders batch) ids ids')
      (fun _ => True) := by
  induction batch generalizing n ids with
  | nil =>
    refine .ret ?_
    rintro ids' h
    cases h
    exact .refl n _ _
  | cons f fs ih =>
    have hfs : senders fs ⊆ senders (f :: fs) := List.subset_cons_self _ _
    have hf : [f.sender] ⊆ senders (f :: fs) := List.cons_subset_cons _ (List.nil_subset _)
    unfold countPreVoteResponses
    split
    · rename_i resp hm
      refine .seq (.read (countVoteResponse_grown _ f.sender resp ids)) ?_
      intro r n₁ hr
      cases r with
      | none => exact .ret nofun
      | some ids₁ =>
        refine (ih ids₁ n₁).mono (fun r n₂ h ids' hr' => ?_) fun _ h => h
        exact ((hr ids₁ rfl).mono hf).trans ((h ids' hr').mono hfs)
    · exact (ih ids n).mono (fun r n₁ h ids' hr => (h ids' hr).mono hfs) fun _ h => h

variable {ids : List PeerId} {n' : RaftNode}

/-- Any loop whose counting grows the identities by voters that had not answered,
and whose handling leaves the responders alone, is fair. -/
theorem FairPoll.pollTurns
    {count : List InboundRaftMessage → List PeerId → RaftM (Option (List PeerId))}
    {handle : List InboundRaftMessage → RaftM Unit} {goOn : RaftNode → Bool} {self : PeerId}
    (hcount : ∀ batch ids n, Ends (count batch ids) n
      (fun r n' => ∀ ids', r = some ids' → Grown n n' (senders batch) ids ids') (fun _ => True))
    (hhandle : ∀ batch n, Ends (handle batch) n
      (fun _ n' => n'.scratchResponders = n.scratchResponders) (fun _ => True))
    (batches : List (List InboundRaftMessage)) (hself : ∀ batch ∈ batches, self ∉ senders batch)
    (hnodup : ids.Nodup) (hids : ∀ v ∈ ids, v = self ∨ v ∈ n.scratchResponders) :
    FairPoll ids (pollTurns count handle goOn batches ids n) := by
  induction batches generalizing ids n with
  | nil => exact .nil
  | cons batch rest ih =>
    have hgrown := hcount batch ids n
    unfold ArbitroRaft.pollTurns
    unfold Ends at hgrown
    cases hrun : count batch ids n with
    | error e n₁ => exact .nil
    | ok r n₁ =>
      rw [hrun] at hgrown
      cases r with
      | none => exact .nil
      | some ids' =>
        have hg := hgrown ids' rfl
        obtain ⟨hnodup', hids'⟩ := hg.tally hnodup hids (hself batch List.mem_cons_self)
        refine FairPoll.cons (t := ⟨n, ids, ids'⟩) hnodup' hg.addsVoters ?_
        have hkept := hhandle batch n₁
        unfold Ends at hkept
        cases hrun₁ : handle batch n₁ with
        | error e n₂ => exact .nil
        | ok u n₂ =>
          rw [hrun₁] at hkept
          dsimp only at hkept ⊢
          split
          · refine ih (fun b hb => hself b (List.mem_cons_of_mem batch hb)) hnodup' ?_
            rw [hkept]
            exact hids'
          · exact .nil

/-- Handling a list of frames that stops at any error. -/
theorem handleFrames_keeps {R : RaftNode → RaftNode → Prop} [Std.Refl R] [IsTrans RaftNode R]
    {fs : List InboundRaftMessage} (h : ∀ f ∈ fs, ∀ n, R n ((Action.inbound f).run n)) :
    Emits R (handleFrames fs) n (fun _ _ => True) := by
  induction fs generalizing n with
  | nil => exact .ret trivial
  | cons f fs ih =>
    have hone : Emits R (handleInbound f) n (fun _ _ => True) :=
      emits_after (h f List.mem_cons_self n)
    unfold handleFrames
    refine hone.seq ?_
    intro _ n' _ _
    exact ih fun g hg => h g (List.mem_cons_of_mem f hg)

/-- The responders of a campaign stayed. -/
def SameResponders (n n' : RaftNode) : Prop := n'.scratchResponders = n.scratchResponders

instance : Std.Refl SameResponders := ⟨fun _ => rfl⟩

instance : IsTrans RaftNode SameResponders := ⟨fun _ _ _ h h' => h'.trans h⟩

variable {batches : List (List InboundRaftMessage)}

theorem voteTurns_fair (term : Nat) (hself : ∀ batch ∈ batches, n.config.nodeId ∉ senders batch) :
    FairPoll [n.config.nodeId] (voteTurns term batches [n.config.nodeId] n) := by
  refine FairPoll.pollTurns (countVoteResponses_grown term) (fun batch n => ?_) batches hself
    (List.nodup_singleton _) fun v hv => .inl (List.mem_singleton.mp hv)
  have hdrain : Emits SameResponders (handleCampaignRequests batch) n (fun _ _ => True) :=
    drainFrames_keeps fun f _ n => responders_inbound f n
  exact (Ends.of_emits hdrain).mono (fun _ _ h => h.1) fun _ _ => trivial

theorem preVoteTurns_fair (preVoteTerm : Nat)
    (hself : ∀ batch ∈ batches, n.config.nodeId ∉ senders batch) :
    FairPoll [n.config.nodeId] (preVoteTurns preVoteTerm batches [n.config.nodeId] n) := by
  refine FairPoll.pollTurns countPreVoteResponses_grown (fun batch n => ?_) batches hself
    (List.nodup_singleton _) fun v hv => .inl (List.mem_singleton.mp hv)
  have hhandle : Emits SameResponders (handlePreVoteRequests batch) n (fun _ _ => True) :=
    handleFrames_keeps fun f _ n => responders_inbound f n
  exact (Ends.of_emits hhandle).mono (fun _ _ h => h.1) fun _ _ => trivial

/-- One round of a loop, as its turns see it. -/
def pollRound (count : List InboundRaftMessage → List PeerId → RaftM (Option (List PeerId)))
    (handle : List InboundRaftMessage → RaftM Unit) (goOn : RaftNode → Bool)
    (batch : List InboundRaftMessage) (ids : List PeerId) : RaftM CampaignRound := do
  match ← count batch ids with
  | none => return .lost
  | some ids' => do
    if (← get).voterMajority ids' then return .won
    else do
      handle batch
      if goOn (← get) then return .goOn ids' else return .lost

theorem campaignRound_eq (term : Nat) :
    campaignRound term = pollRound (countVoteResponses term) handleCampaignRequests
      (fun n => n.isCandidateOf term) := rfl

theorem preVoteRound_eq (preVoteTerm : Nat) :
    preVoteRound preVoteTerm = pollRound countPreVoteResponses handlePreVoteRequests
      (fun n => !decide (preVoteTerm ≤ n.hardState.currentTerm)) := by
  funext batch ids
  unfold preVoteRound pollRound
  refine bind_congr fun counted => ?_
  cases counted with
  | none => rfl
  | some ids' =>
    refine bind_congr fun n => if_congr Iff.rfl rfl ?_
    refine bind_congr fun _ => bind_congr fun n => ?_
    by_cases h : preVoteTerm ≤ n.hardState.currentTerm
    · rw [if_pos h, if_neg (by simp [h])]
    · rw [if_neg h, if_pos (by simp [h])]

/-- A round is won on the identities of its turn; where the loop goes on, so do its
turns. -/
theorem pollRound_turns
    {count : List InboundRaftMessage → List PeerId → RaftM (Option (List PeerId))}
    {handle : List InboundRaftMessage → RaftM Unit} {goOn : RaftNode → Bool}
    (batch : List InboundRaftMessage) (rest : List (List InboundRaftMessage)) (ids : List PeerId)
    {r : CampaignRound} (h : pollRound count handle goOn batch ids n = .ok r n') :
    (r = .won → Decided n' ids (pollTurns count handle goOn (batch :: rest) ids n)) ∧
      ∀ ids', r = .goOn ids' → pollTurns count handle goOn (batch :: rest) ids n =
        ⟨n, ids, ids'⟩ :: pollTurns count handle goOn rest ids' n' := by
  unfold pollRound at h
  obtain ⟨counted, n₁, hcount, h⟩ := ok_of_bind h
  rw [pollTurns, hcount]
  cases counted with
  | none =>
    cases h
    exact ⟨nofun, nofun⟩
  | some ids₁ =>
    dsimp only at h
    rw [get_bind] at h
    split at h
    · rename_i hwon
      cases h
      exact ⟨fun _ => .inr ⟨_, List.mem_cons_self, hwon⟩, nofun⟩
    · obtain ⟨u, n₂, hhandle, h⟩ := ok_of_bind h
      rw [get_bind] at h
      split at h
      · rename_i hgo
        cases h
        refine ⟨nofun, fun ids' heq => ?_⟩
        cases heq
        dsimp only
        rw [hhandle]
        dsimp only
        rw [if_pos hgo]
      · cases h
        exact ⟨nofun, nofun⟩

theorem collectVotes_asks {term possible : Nat} (batches : List (List InboundRaftMessage))
    (h : collectVotes term possible batches ids n = .ok true n') :
    Decided n' ids (voteTurns term batches ids n) := by
  induction batches generalizing ids n with
  | nil =>
    unfold collectVotes at h
    rw [get_bind] at h
    split at h
    · injection h with hwon hn
      exact .inl (hn ▸ hwon)
    · cases h
  | cons batch rest ih =>
    unfold collectVotes at h
    rw [get_bind] at h
    split at h
    · injection h with hwon hn
      exact .inl (hn ▸ hwon)
    · dsimp only at h
      obtain ⟨r, n₁, hround, h⟩ := ok_of_bind h
      rw [campaignRound_eq] at hround
      obtain ⟨hwon, hgo⟩ := pollRound_turns batch rest ids hround
      cases r with
      | won =>
        cases h
        exact hwon rfl
      | lost => cases h
      | goOn ids' =>
        unfold voteTurns
        rw [hgo ids' rfl]
        exact Decided.cons (t := ⟨n, ids, ids'⟩) (ih h) ids

theorem collectPreVotes_asks {preVoteTerm possible : Nat} (batches : List (List InboundRaftMessage))
    (h : collectPreVotes preVoteTerm possible batches ids n = .ok true n') :
    Decided n' ids (preVoteTurns preVoteTerm batches ids n) := by
  induction batches generalizing ids n with
  | nil =>
    unfold collectPreVotes at h
    rw [get_bind] at h
    split at h
    · injection h with hwon hn
      exact .inl (hn ▸ hwon)
    · cases h
  | cons batch rest ih =>
    unfold collectPreVotes at h
    rw [get_bind] at h
    split at h
    · injection h with hwon hn
      exact .inl (hn ▸ hwon)
    · dsimp only at h
      obtain ⟨r, n₁, hround, h⟩ := ok_of_bind h
      rw [preVoteRound_eq] at hround
      obtain ⟨hwon, hgo⟩ := pollRound_turns batch rest ids hround
      cases r with
      | won =>
        cases h
        exact hwon rfl
      | lost => cases h
      | goOn ids' =>
        unfold preVoteTurns
        rw [hgo ids' rfl]
        exact Decided.cons (t := ⟨n, ids, ids'⟩) (ih h) ids

end Polls

/-! ## The confirmation of a read -/

section Confirm

theorem Confirmation.count_adds (c : Confirmation) (n : RaftNode) (f : InboundRaftMessage) :
    (c.acks.Nodup → (c.count n f).acks.Nodup) ∧
      (⟨n, c.acks, (c.count n f).acks⟩ : Turn).AddsVoters := by
  unfold Confirmation.count
  split
  · rename_i hcounts
    obtain ⟨hmem, hnew⟩ : f.sender ∈ n.config.peers ∧ f.sender ∉ c.acks := by
      unfold Confirmation.counts at hcounts
      split at hcounts
      · simp only [Bool.and_eq_true, decide_eq_true_eq] at hcounts
        exact ⟨hcounts.1.2, hcounts.2⟩
      · cases hcounts
    constructor
    · intro hnodup
      refine List.nodup_append.mpr ⟨hnodup, List.nodup_singleton _, ?_⟩
      rintro a ha b hb rfl
      exact hnew (List.mem_singleton.mp hb ▸ ha)
    · intro v hv hbefore
      rcases List.mem_append.mp hv with hv | hv
      · exact absurd hv hbefore
      · exact List.mem_singleton.mp hv ▸ hmem
  · exact ⟨id, fun v hv hbefore => absurd hv hbefore⟩

theorem confirmFrameTurns_fair {next : Confirmation → RaftNode → List Turn}
    (hnext : ∀ c n, c.acks.Nodup → FairPoll c.acks (next c n)) (fs : List InboundRaftMessage)
    {c : Confirmation} {n : RaftNode} (hnodup : c.acks.Nodup) :
    FairPoll c.acks (confirmFrameTurns next fs c n) := by
  induction fs generalizing c n with
  | nil => exact hnext c n hnodup
  | cons f fs ih =>
    obtain ⟨hkeeps, hadds⟩ := c.count_adds n f
    refine FairPoll.cons (t := ⟨n, c.acks, (c.count n f).acks⟩) (hkeeps hnodup) hadds ?_
    cases handleInboundTolerant f n with
    | error e n' => exact .nil
    | ok u n' => exact ih (hkeeps hnodup)

theorem confirmTurns_fair (turns : List ConfirmTurn) {c : Confirmation} {n : RaftNode}
    (hnodup : c.acks.Nodup) : FairPoll c.acks (confirmTurns turns c n) := by
  induction turns generalizing c n with
  | nil => exact .nil
  | cons turn rest ih =>
    unfold confirmTurns
    cases probeVoters turn.tick n with
    | error e n₁ => exact .nil
    | ok u n₁ => exact confirmFrameTurns_fair (fun c n => ih) turn.batch hnodup

/-- Behind the frames of a round the turns go on with what it counted. -/
theorem confirmFrames_decided {next : Confirmation → RaftNode → List Turn} {m : RaftNode}
    (fs : List InboundRaftMessage) {c c' : Confirmation} {n n' : RaftNode}
    (h : confirmFrames fs c n = .ok c' n') (hnext : Decided m c'.acks (next c' n')) :
    Decided m c.acks (confirmFrameTurns next fs c n) := by
  induction fs generalizing c n with
  | nil =>
    cases h
    exact hnext
  | cons f fs ih =>
    unfold confirmFrames confirmFrame at h
    obtain ⟨c₁, n₁, hframe, h⟩ := ok_of_bind h
    rw [get_bind] at hframe
    obtain ⟨u, n₂, hhandle, hret⟩ := ok_of_bind hframe
    cases hret
    unfold confirmFrameTurns
    rw [hhandle]
    exact Decided.cons (t := ⟨n, c.acks, (c.count n f).acks⟩) (ih h) c.acks

theorem confirmLoop_asks (turns : List ConfirmTurn) {c c' : Confirmation} {n n' : RaftNode}
    (h : confirmLoop turns c n = .ok c' n') : Decided n' c.acks (confirmTurns turns c n) := by
  induction turns generalizing c n with
  | nil =>
    unfold confirmLoop at h
    rw [get_bind] at h
    split at h
    · split at h
      · rename_i hwon
        cases h
        exact .inl hwon
      · cases h
    · cases h
  | cons turn rest ih =>
    unfold confirmLoop at h
    rw [get_bind] at h
    split at h
    · split at h
      · rename_i hwon
        cases h
        exact .inl hwon
      · dsimp only at h
        obtain ⟨u, n₁, hprobe, h⟩ := ok_of_bind h
        obtain ⟨c₁, n₂, hframes, h⟩ := ok_of_bind h
        unfold confirmTurns
        rw [hprobe]
        exact confirmFrames_decided turn.batch hframes (ih h)
    · cases h

end Confirm

/-! ## The quorum lease -/

theorem nodup_recentVoters {n : RaftNode} (h : n.config.peers.Nodup) : n.recentVoters.Nodup := by
  unfold RaftNode.recentVoters RaftNode.otherPeers
  refine List.nodup_cons.mpr ⟨fun hmem => ?_, (h.filter _).filter _⟩
  exact of_decide_eq_true (List.mem_filter.mp (List.mem_of_mem_filter hmem)).2 rfl

theorem mem_peers_of_recentVoters {n : RaftNode} {v : PeerId} (h : v ∈ n.recentVoters)
    (hne : v ≠ n.config.nodeId) : v ∈ n.config.peers := by
  rcases List.mem_cons.mp h with rfl | h
  · exact absurd rfl hne
  · exact List.mem_of_mem_filter (List.mem_of_mem_filter h)

/-! ## The gather of a proposal -/

/-- The counter of a gather moves by one, for a voter that acknowledged the
batch. -/
theorem gatherFrame_counts_voters {f : InboundRaftMessage} {g g' : Gather} {n n' : RaftNode}
    (h : gatherFrame f g n = .ok g' n') :
    g' = g ∨ g' = { g with accepted := g.accepted + 1 } ∧ f.sender ∈ n.config.peers ∧
      ∃ resp, f.message = .appendEntriesResp resp ∧ resp.success = true ∧
        g.lastIndex ≤ resp.matchIndex := by
  have hemits : Emits (Moves ((Action.gatherFrame f g).scope n False)) (gatherFrame f g) n
      (fun g' n' => CountStep n n' f g g') :=
    gatherFrame_emits g rfl False.elim rfl False.elim (fun _ _ => rfl)
      (Action.known_scope List.mem_cons_self)
  obtain ⟨-, hstep⟩ := hemits.of_ok h
  cases hstep with
  | same => exact .inl rfl
  | voter resp hm hsuccess hlast _ hmem => exact .inr ⟨rfl, hmem, resp, hm, hsuccess, hlast⟩

/-! ## The commit rule -/

section Commit

variable {n : RaftNode}

theorem side_subset_peers (h : n.DistinctConfig) {side : List PeerId} (hside : side ∈ n.voterSides) :
    side ⊆ n.config.peers := by
  unfold RaftNode.voterSides at hside
  cases hj : n.jointPeers with
  | none =>
    rw [hj] at hside
    rw [List.mem_singleton.mp hside]
    exact List.Subset.refl _
  | some sides =>
    obtain ⟨old, new⟩ := sides
    rw [hj] at hside
    obtain ⟨-, -, hunion⟩ := h.joint old new hj
    intro v hv
    rw [hunion]
    rcases List.mem_cons.mp hside with rfl | hside
    · exact .inl hv
    · exact .inr (List.mem_singleton.mp hside ▸ hv)

theorem nodup_of_mem_voterSides (h : n.DistinctConfig) : ∀ side ∈ n.voterSides, side.Nodup := by
  unfold RaftNode.voterSides
  cases hj : n.jointPeers with
  | none => exact List.forall_mem_singleton.mpr h.peers_nodup
  | some sides =>
    obtain ⟨old, new⟩ := sides
    obtain ⟨hold, hnew, -⟩ := h.joint old new hj
    exact List.forall_mem_cons.mpr ⟨hold, List.forall_mem_singleton.mpr hnew⟩

theorem exists_side_of_mem_peers (h : n.DistinctConfig) :
    ∀ p ∈ n.config.peers, ∃ side ∈ n.voterSides, p ∈ side := by
  intro p hp
  unfold RaftNode.voterSides
  cases hj : n.jointPeers with
  | none => exact ⟨_, List.mem_singleton_self _, hp⟩
  | some sides =>
    obtain ⟨old, new⟩ := sides
    obtain ⟨-, -, hunion⟩ := h.joint old new hj
    rcases (hunion p).mp hp with hp | hp
    · exact ⟨old, List.mem_cons_self, hp⟩
    · exact ⟨new, List.mem_cons_of_mem _ (List.mem_singleton_self _), hp⟩

/-- A quorum index exists only where no voter list is empty. -/
theorem sides_ne_of_quorumIndex {q : Nat} (h : n.quorumIndex = some q) :
    ∀ side ∈ n.voterSides, side ≠ [] := by
  have hempty : n.quorumIndexOf [] = none := rfl
  unfold RaftNode.quorumIndex at h
  unfold RaftNode.voterSides
  cases hj : n.jointPeers with
  | none =>
    rw [hj] at h
    refine List.forall_mem_singleton.mpr fun hnil => ?_
    dsimp only at h
    rw [hnil, hempty] at h
    cases h
  | some sides =>
    obtain ⟨old, new⟩ := sides
    rw [hj] at h
    refine List.forall_mem_cons.mpr ⟨fun hnil => ?_, List.forall_mem_singleton.mpr fun hnil => ?_⟩
    · simp [hnil, hempty] at h
    · simp [hnil, hempty] at h

/-- With several voters and no progress there is nothing to commit. -/
theorem quorumIndex_eq_zero (h : n.DistinctConfig) (hmany : 1 < n.config.peers.length)
    (hempty : n.peerProgress.isEmpty) {q : Nat} (hq : n.quorumIndex = some q) : q = 0 := by
  obtain ⟨q', hq', hgreatest⟩ := RaftNode.quorumIndex_spec (sides_ne_of_quorumIndex hq)
  obtain rfl : q = q' := Option.some.inj (hq.symm.trans hq')
  exact RaftNode.acknowledged_eq_zero h.peers_nodup (exists_side_of_mem_peers h)
    (nodup_of_mem_voterSides h) hmany hempty ((hgreatest q).mp le_rfl)

variable {progress : PeerMap PeerProgress}

/-- The same node with another progress table. -/
def RaftNode.withProgress (n : RaftNode) (progress : PeerMap PeerProgress) : RaftNode :=
  { n with peerProgress := progress }

theorem quorumIndexOf_withProgress {side : List PeerId}
    (hsame : ∀ p ∈ side, progress.get p = n.peerProgress.get p) :
    (n.withProgress progress).quorumIndexOf side = n.quorumIndexOf side := by
  have hacks : side.map (fun p => if p = n.config.nodeId then n.cachedLastLog.1
        else ((progress.get p).map PeerProgress.matchIndex).getD 0) =
      side.map (fun p => if p = n.config.nodeId then n.cachedLastLog.1
        else ((n.peerProgress.get p).map PeerProgress.matchIndex).getD 0) := by
    refine List.map_congr_left fun p hp => ?_
    rw [hsame p hp]
  unfold RaftNode.quorumIndexOf subsetQuorumIndex
  split
  · rfl
  · change (List.insertionSort _ (side.map fun p => if p = n.config.nodeId then n.cachedLastLog.1
      else ((progress.get p).map PeerProgress.matchIndex).getD 0))[_]? = _
    rw [hacks]

theorem quorumIndexOf_side (h : n.DistinctConfig)
    (hsame : ∀ p ∈ n.config.peers, progress.get p = n.peerProgress.get p) :
    ∀ side ∈ n.voterSides,
      (n.withProgress progress).quorumIndexOf side = n.quorumIndexOf side :=
  fun _ hside => quorumIndexOf_withProgress fun p hp => hsame p (side_subset_peers h hside hp)

theorem quorumIndex_withProgress (h : n.DistinctConfig)
    (hsame : ∀ p ∈ n.config.peers, progress.get p = n.peerProgress.get p) :
    (n.withProgress progress).quorumIndex = n.quorumIndex := by
  have hside := quorumIndexOf_side h hsame
  unfold RaftNode.voterSides at hside
  unfold RaftNode.quorumIndex
  rw [show (n.withProgress progress).jointPeers = n.jointPeers from rfl]
  cases hj : n.jointPeers with
  | none =>
    rw [hj] at hside
    exact hside _ (List.mem_singleton_self _)
  | some sides =>
    obtain ⟨old, new⟩ := sides
    rw [hj] at hside
    dsimp only
    rw [hside old List.mem_cons_self,
      hside new (List.mem_cons_of_mem _ (List.mem_singleton_self _))]

theorem indexMeetsCommitQuorum_withProgress (h : n.DistinctConfig)
    (hsame : ∀ p ∈ n.config.peers, progress.get p = n.peerProgress.get p) (i : Nat) :
    (n.withProgress progress).indexMeetsCommitQuorum i = n.indexMeetsCommitQuorum i := by
  have hside := quorumIndexOf_side h hsame
  unfold RaftNode.voterSides at hside
  unfold RaftNode.indexMeetsCommitQuorum
  dsimp only
  rw [show (n.withProgress progress).jointPeers = n.jointPeers from rfl]
  cases hj : n.jointPeers with
  | none =>
    rw [hj] at hside
    dsimp only
    rw [← hside _ (List.mem_singleton_self _)]
    rfl
  | some sides =>
    obtain ⟨old, new⟩ := sides
    rw [hj] at hside
    dsimp only
    rw [hside old List.mem_cons_self,
      hside new (List.mem_cons_of_mem _ (List.mem_singleton_self _))]

/-- An empty table only keeps the rule from looking at acknowledgements of 0. -/
theorem advanceTo?_eq (h : n.DistinctConfig) :
    n.advanceTo? = if n.cachedLastLog.1 ≤ n.softState.commitIndex then none
      else n.quorumIndex.filter (fun q => decide (n.softState.commitIndex < q ∧
        n.quorumTermOf q = n.hardState.currentTerm)) := by
  unfold RaftNode.advanceTo?
  split
  · rename_i hearly
    split
    · rfl
    · cases hq : n.quorumIndex with
      | none => rfl
      | some q =>
        rw [quorumIndex_eq_zero h hearly.1 hearly.2 hq, Option.filter_some]
        simp
  · rfl

/-- Progress of non-voters does not change what is committed. -/
theorem advanceTo?_withProgress (h : n.DistinctConfig)
    (hsame : ∀ p ∈ n.config.peers, progress.get p = n.peerProgress.get p) :
    (n.withProgress progress).advanceTo? = n.advanceTo? := by
  have h' : (n.withProgress progress).DistinctConfig :=
    ⟨h.peers_nodup, h.learners_nodup, h.learners_apart, h.joint⟩
  rw [advanceTo?_eq h, advanceTo?_eq h', quorumIndex_withProgress h hsame]
  rfl

theorem commitIndex_tryAdvanceCommitIndex (n : RaftNode) :
    (tryAdvanceCommitIndex.after n).softState.commitIndex =
      n.advanceTo?.getD n.softState.commitIndex := by
  obtain ⟨a, hrun⟩ := tryAdvanceCommitIndex_run n
  unfold RaftM.after EStateM.run
  rw [hrun]
  cases n.advanceTo? <;> rfl

end Commit

/-! ## All of them -/

/-- **Learners never count.**  The identities the vote, pre-vote and confirmation
loops ask `voter_majority` about are distinct and, but for the node itself, were
voters when they were counted; so are those of the quorum lease.  A gather counts
voters only, and the commit rule and its predicate read nothing but the progress
of voters. -/
theorem learners_never_count (n : RaftNode) (h : n.DistinctConfig)
    (batches : List (List InboundRaftMessage)) (turns : List ConfirmTurn)
    (hself : ∀ batch ∈ batches, n.config.nodeId ∉ senders batch) :
    (∀ term, FairPoll [n.config.nodeId] (voteTurns term batches [n.config.nodeId] n) ∧
      ∀ possible n', collectVotes term possible batches [n.config.nodeId] n = .ok true n' →
        Decided n' [n.config.nodeId] (voteTurns term batches [n.config.nodeId] n)) ∧
    (∀ term, FairPoll [n.config.nodeId] (preVoteTurns term batches [n.config.nodeId] n) ∧
      ∀ possible n', collectPreVotes term possible batches [n.config.nodeId] n = .ok true n' →
        Decided n' [n.config.nodeId] (preVoteTurns term batches [n.config.nodeId] n)) ∧
    (∀ term probe, FairPoll [n.config.nodeId]
        (confirmTurns turns ⟨term, probe, [n.config.nodeId]⟩ n) ∧
      ∀ c' n', confirmLoop turns ⟨term, probe, [n.config.nodeId]⟩ n = .ok c' n' →
        Decided n' [n.config.nodeId] (confirmTurns turns ⟨term, probe, [n.config.nodeId]⟩ n)) ∧
    (n.recentVoters.Nodup ∧
      ∀ v ∈ n.recentVoters, v ≠ n.config.nodeId → v ∈ n.config.peers) ∧
    (∀ f g g' n', gatherFrame f g n = .ok g' n' → g' = g ∨
      g' = { g with accepted := g.accepted + 1 } ∧ f.sender ∈ n.config.peers ∧
        ∃ resp, f.message = .appendEntriesResp resp ∧ resp.success = true ∧
          g.lastIndex ≤ resp.matchIndex) ∧
    (∀ progress : PeerMap PeerProgress,
      (∀ p ∈ n.config.peers, progress.get p = n.peerProgress.get p) →
      (tryAdvanceCommitIndex.after (n.withProgress progress)).softState.commitIndex =
          (tryAdvanceCommitIndex.after n).softState.commitIndex ∧
        ∀ i, (n.withProgress progress).indexMeetsCommitQuorum i =
          n.indexMeetsCommitQuorum i) := by
  refine ⟨fun term => ⟨voteTurns_fair term hself, fun possible n' => collectVotes_asks batches⟩,
    fun term => ⟨preVoteTurns_fair term hself, fun possible n' => collectPreVotes_asks batches⟩,
    fun term probe => ⟨confirmTurns_fair (c := ⟨term, probe, [n.config.nodeId]⟩) turns
      (List.nodup_singleton _), fun c' n' => confirmLoop_asks turns⟩,
    ⟨nodup_recentVoters h.peers_nodup, fun v => mem_peers_of_recentVoters⟩,
    fun f g g' n' => gatherFrame_counts_voters, fun progress hsame => ⟨?_, ?_⟩⟩
  · rw [commitIndex_tryAdvanceCommitIndex, commitIndex_tryAdvanceCommitIndex,
      advanceTo?_withProgress h hsame]
    rfl
  · exact fun i => indexMeetsCommitQuorum_withProgress h hsame i

/-- Voter 1 of 1, 2 and 3, with the learner 9. -/
def taughtNode : RaftNode :=
  RaftNode.fromStorage
    { nodeId := 1, peers := [1, 2, 3], learners := [9], bootstrapPeers := [],
      timing := TimingConfig.initial, limits := LimitsConfig.initial }
    { hardState := ⟨1, none⟩, entries := [⟨1, 1, [7]⟩], snapshot := none, seeded := false }
    [] (Env.calm 0)

theorem distinctConfig_taughtNode : taughtNode.DistinctConfig where
  peers_nodup := by decide
  learners_nodup := by decide
  learners_apart := by decide
  joint := nofun

theorem learners_never_count_taught :
    FairPoll [1] (voteTurns 1 [[⟨9, .requestVoteResp ⟨1, true⟩⟩,
      ⟨2, .requestVoteResp ⟨1, true⟩⟩]] [1] taughtNode) ∧
    ∀ i, (taughtNode.withProgress (PeerMap.empty.insert 9 ⟨2, 1⟩)).indexMeetsCommitQuorum i =
      taughtNode.indexMeetsCommitQuorum i := by
  obtain ⟨hvotes, -, -, -, -, hcommit⟩ := learners_never_count taughtNode distinctConfig_taughtNode
    [[⟨9, .requestVoteResp ⟨1, true⟩⟩, ⟨2, .requestVoteResp ⟨1, true⟩⟩]] [] (by decide)
  exact ⟨(hvotes 1).1, (hcommit (PeerMap.empty.insert 9 ⟨2, 1⟩) (by decide)).2⟩

end ArbitroRaft
