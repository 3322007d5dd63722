import ArbitroRaft.Effect.Roll
import ArbitroRaft.Election.Count
import ArbitroRaft.Machine.Talk
import ArbitroRaft.Replication.CommitRule

/-!
# A crown is won by votes

Between the start of a campaign and its end the node handles whatever arrives:
it may hear of a later term, follow another leader, or take over a configuration.
None of that goes back to being a candidate, and nothing a candidate does in its
own term touches the term, the vote or the membership (`Races`).  So a node that
is still the candidate of the term it campaigned in stands where it stood when it
asked for votes, and the votes it counted were given to that candidacy.

## Main results

* `campaignOnce_crown_sound`: who is crowned has a majority of granted votes.
-/

namespace ArbitroRaft

open Library

/-! ## What a candidate keeps -/

/-- The term, the vote, the membership and the leader a node knows of are the
ones it had. -/
structure Undisturbed (n n' : RaftNode) : Prop extends SameRoll n n' where
  hard : n'.hardState = n.hardState
  durable : n'.storage.hardState = n.storage.hardState
  leader : n'.softState.leaderId = n.softState.leaderId

theorem Undisturbed.refl (n : RaftNode) : Undisturbed n n := ⟨⟨rfl, rfl⟩, rfl, rfl, rfl⟩

theorem Undisturbed.trans {n n' n'' : RaftNode} (h : Undisturbed n n')
    (h' : Undisturbed n' n'') : Undisturbed n n'' :=
  ⟨h.toSameRoll.trans h'.toSameRoll, h'.hard.trans h.hard, h'.durable.trans h.durable,
    h'.leader.trans h.leader⟩

variable {n n' : RaftNode}

theorem Undisturbed.of_core (h : n'.core = n.core) : Undisturbed n n' :=
  ⟨(SameOffice.of_core h).toSameRoll, congrArg Core.hardState h,
    congrArg (fun c => c.storage.hardState) h, congrArg Core.leaderId h⟩

/-- A durable vote in the current term. -/
structure RaftNode.HasVoted (n : RaftNode) : Prop where
  voted : n.hardState.votedFor ≠ none
  durable : n.storage.hardState = n.hardState

theorem RaftNode.HasVoted.of_undisturbed (h : n.HasVoted) (hu : Undisturbed n n') : n'.HasVoted :=
  ⟨hu.hard ▸ h.voted, hu.durable.trans (h.durable.trans hu.hard.symm)⟩

/-- A node that is a candidate of the same term afterwards was one before, and
nothing it had voted for changed. -/
structure Races (n n' : RaftNode) : Prop where
  term_le : n.hardState.currentTerm ≤ n'.hardState.currentTerm
  role : n'.softState.role = .candidate →
    n'.hardState.currentTerm = n.hardState.currentTerm → n.softState.role = .candidate
  kept : n'.softState.role = .candidate →
    n'.hardState.currentTerm = n.hardState.currentTerm → n.HasVoted → Undisturbed n n'

namespace Races

variable {sc : Scope} {n n' n'' : RaftNode}

/-- Nothing changed. -/
theorem same (hu : Undisturbed n n') (hrole : n'.softState.role = n.softState.role) : Races n n' :=
  ⟨(congrArg HardState.currentTerm hu.hard).ge, fun h _ => hrole ▸ h, fun _ _ _ => hu⟩

/-- The node is no candidate any more. -/
theorem left (hterm : n.hardState.currentTerm ≤ n'.hardState.currentTerm)
    (hrole : n'.softState.role ≠ .candidate) : Races n n' :=
  ⟨hterm, fun h => absurd h hrole, fun h => absurd h hrole⟩

instance : Std.Refl Races := ⟨fun n => same (.refl n) rfl⟩

instance : IsTrans RaftNode Races where
  trans n n' n'' h h' := by
    have hmid : n''.hardState.currentTerm = n.hardState.currentTerm →
        n'.hardState.currentTerm = n.hardState.currentTerm ∧
          n''.hardState.currentTerm = n'.hardState.currentTerm := by
      intro ht
      have h₁ := h.term_le
      have h₂ := h'.term_le
      omega
    refine ⟨h.term_le.trans h'.term_le, fun hc ht => ?_, fun hc ht hv => ?_⟩
    · obtain ⟨h₁, h₂⟩ := hmid ht
      exact h.role (h'.role hc h₂) h₁
    · obtain ⟨h₁, h₂⟩ := hmid ht
      have hu := h.kept (h'.role hc h₂) h₁ hv
      exact hu.trans (h'.kept hc h₂ (hv.of_undisturbed hu))

end Races

section Effects

variable {sc : Scope} {n n' : RaftNode}

theorem RaftNode.canVote_votedFor {msg : RequestVote} (h : n.canVote msg = true) {v : PeerId}
    (hv : n.hardState.votedFor = some v) : msg.candidateId = v := by
  unfold RaftNode.canVote at h
  rw [hv] at h
  simp only [Bool.and_eq_true, beq_iff_eq] at h
  exact h.2.symm

theorem HardEffect.races (h : HardEffect sc n n') (hs : ∀ c, ¬ sc.stands c) : Races n n' := by
  -- a second vote in the term goes to the same candidate
  have hcast {msg : RequestVote} (hcan : n.canVote msg = true) (hv : n.HasVoted) :
      (n.castVote msg.candidateId).hardState = n.hardState := by
    obtain ⟨v, hv⟩ := Option.ne_none_iff_exists'.mp hv.voted
    rw [RaftNode.castVote, RaftNode.canVote_votedFor hcan hv, ← hv]
  cases h with
  | steppedDown t hlt =>
    refine .left hlt.le ?_
    simp [RaftNode.demoteToFollowerKeepTerm]
  | stepDownFailed t hlt _ =>
    exact ⟨hlt.le, fun _ ht => absurd ht hlt.ne', fun _ ht => absurd ht hlt.ne'⟩
  | abdicated _ _ =>
    refine .left le_rfl ?_
    simp [RaftNode.demoteToFollowerKeepTerm]
  | abdicationFailed _ hl _ =>
    refine .left le_rfl ?_
    have hrole : n.softState.role = .leader := by simpa [RaftNode.isLeader] using hl
    change n.softState.role ≠ .candidate
    rw [hrole]
    decide
  | stood h => exact absurd h (hs _)
  | standFailed h => exact absurd h (hs _)
  | granted sender msg reply _ hcan =>
    have hkept (hv : n.HasVoted) : Undisturbed n (n.castVote msg.candidateId).savedHard :=
      ⟨⟨rfl, rfl⟩, hcast hcan hv, (hcast hcan hv).trans hv.durable.symm, rfl⟩
    cases reply with
    | false => exact ⟨le_rfl, fun hc _ => hc, fun _ _ hv => hkept hv⟩
    | true =>
      refine ⟨le_rfl, fun hc _ => hc, fun _ _ hv => ?_⟩
      exact (hkept hv).trans ⟨⟨rfl, rfl⟩, rfl, rfl, rfl⟩
  | grantFailed sender msg _ hcan _ =>
    exact ⟨le_rfl, fun hc _ => hc, fun _ _ hv => ⟨⟨rfl, rfl⟩, hcast hcan hv, rfl, rfl⟩⟩

theorem leaderId_commitSnapshot (n : RaftNode) (m : SnapshotMeta) :
    (n.commitSnapshot m).softState.leaderId = n.softState.leaderId := by
  unfold RaftNode.commitSnapshot
  split <;> rfl

/-- A message is only taken over by a follower. -/
theorem Receives.races {sender : PeerId} {msg : AppendEntries} {entries : List LogEntry}
    (h : Receives sc n sender msg entries) (hw : SameSide n n')
    (hrole : n'.softState.role = n.softState.role) : Races n n' := by
  refine .left (congrArg HardState.currentTerm hw.hard).ge ?_
  rw [hrole, h.role]
  exact nofun

theorem LogEffect.races (h : LogEffect sc n n') : Races n n' := by
  cases h with
  | cut sender msg entries rest hr _ _ =>
    refine hr.races ?_ (SameOffice.cutAt n rest).role
    cases rest <;> exact .same rfl
  | spliced sender msg entries hr _ _ _ _ =>
    exact hr.races (SameSide.spliced n msg entries) (SameOffice.spliced n msg entries).role
  | accepted sender msg entries reply hr _ _ =>
    have hw := SameSide.accepted n msg entries
    have ho := (SameOffice.adopted (n.tookOver msg entries) msg.leaderCommit).trans
      (SameOffice.replied _ reply sender
        (((n.tookOver msg entries).adopted msg.leaderCommit).ackOf msg))
    refine .left ?_ ?_
    · cases reply with
      | false => exact (congrArg HardState.currentTerm hw.hard).ge
      | true => exact (congrArg HardState.currentTerm hw.hard).ge
    · rw [ho.role, role_tookOver, hr.role]
      exact nofun
  | led payloads _ _ _ _ _ => exact .same ⟨⟨rfl, rfl⟩, rfl, rfl, rfl⟩ rfl
  | learned index t _ => exact .same ⟨⟨rfl, rfl⟩, rfl, rfl, rfl⟩ rfl
  | installed sender msg chunk bytes _ _ _ _ =>
    have hw := SameSide.completeSnapshot n
      ⟨msg.lastIncludedIndex, msg.lastIncludedTerm⟩ bytes
    have ho := SameOffice.completeSnapshot n
      ⟨msg.lastIncludedIndex, msg.lastIncludedTerm⟩ bytes
    exact .same ⟨ho.toSameRoll, hw.hard, hw.durable, leaderId_commitSnapshot _ _⟩ ho.role
  | restored m _ _ _ _ =>
    have hw := SameSide.restoredFrom n m
    have ho := SameOffice.restoredFrom n m
    exact .same ⟨ho.toSameRoll, hw.hard, hw.durable, leaderId_commitSnapshot _ _⟩ ho.role
  | compacted term bytes _ _ _ _ =>
    exact .same ⟨⟨rfl, rfl⟩, rfl, (SameSide.compacted n term bytes _).durable, rfl⟩ rfl

theorem Effect.races (h : Effect sc n n') (hs : ∀ c, ¬ sc.stands c) (hc : ¬ sc.control) :
    Races n n' := by
  cases h with
  | quiet _ hq => exact .same (.of_core hq) (congrArg Core.role hq)
  | hard _ hh => exact hh.races hs
  | log _ hl => exact hl.races
  | demoted => exact .left le_rfl nofun
  | followed leaderId _ => exact .left le_rfl nofun
  | crowned _ _ => exact .left le_rfl nofun
  | reconfigured entry hctl _ _ => exact absurd hctl hc
  | _ => exact .same ⟨⟨rfl, rfl⟩, rfl, rfl, rfl⟩ rfl

theorem Races.of_chain (h : Relation.ReflTransGen (Effect sc) n n') (hs : ∀ c, ¬ sc.stands c)
    (hc : ¬ sc.control) : Races n n' := by
  induction h with
  | refl => exact refl_of Races n
  | tail _ he ih => exact trans_of Races ih (he.races hs hc)

end Effects

/-- What a frame does to a campaign: the candidacy goes on as it was or is over,
and the responders counted so far stay. -/
structure RacesOn (n n' : RaftNode) : Prop extends Races n n' where
  responders : n'.scratchResponders = n.scratchResponders

instance : Std.Refl RacesOn := ⟨fun n => ⟨refl_of Races n, rfl⟩⟩

instance : IsTrans RaftNode RacesOn where
  trans _ _ _ h h' := ⟨trans_of Races h.toRaces h'.toRaces, h'.responders.trans h.responders⟩

theorem racesOn_inbound (f : InboundRaftMessage) (n : RaftNode) :
    RacesOn n ((Action.inbound f).run n) := by
  refine ⟨Races.of_chain ((Action.inbound f).chain n) ?_ ?_, responders_inbound f n⟩
  · rintro c ⟨h, -⟩
    cases h
  · rintro (h | ⟨entry, h⟩)
    · cases h
    · cases h

theorem handleCampaignRequests_racesOn (batch : List InboundRaftMessage) (n : RaftNode) :
    Emits RacesOn (handleCampaignRequests batch) n (fun _ _ => True) :=
  drainFrames_keeps fun f _ n => racesOn_inbound f n

/-! ## The loop -/

/-- `n` still stands for the candidacy it opened as `n₀`, having heard `heard`. -/
structure Campaigning (n₀ n : RaftNode) (heard : List InboundRaftMessage) : Prop where
  base : Undisturbed n₀ n
  role : n.softState.role = .candidate
  responders : n.scratchResponders = answered heard

/-- How a round over the frames up to `heard` leaves the campaign. -/
def Campaigning.After (n₀ n : RaftNode) (term : Nat) (heard : List InboundRaftMessage) :
    CampaignRound → Prop
  | .won => Campaigning n₀ n heard ∧ n₀.voterMajority (n₀.countedVotes term heard) = true
  | .lost => True
  | .goOn granted => Campaigning n₀ n heard ∧ granted = n₀.countedVotes term heard

section Loop

variable {n₀ n n' : RaftNode} {term : Nat} {heard : List InboundRaftMessage}

theorem Undisturbed.countedVotes (h : Undisturbed n₀ n) (term : Nat)
    (heard : List InboundRaftMessage) : n.countedVotes term heard = n₀.countedVotes term heard := by
  have hcounts : n.countsVote term = n₀.countsVote term := by
    funext a
    simp only [RaftNode.countsVote, h.config]
  rw [RaftNode.countedVotes, RaftNode.countedVotes, hcounts, h.config]

theorem Undisturbed.voterMajority (h : Undisturbed n₀ n) (granted : List PeerId) :
    n.voterMajority granted = n₀.voterMajority granted := by
  unfold RaftNode.voterMajority
  rw [h.joint, h.config]

/-- A candidacy that survives the requests of a batch is the same one. -/
theorem Campaigning.handled (h : Campaigning n₀ n heard) (hstood : Standing n₀ term)
    (hr : RacesOn n n') (hcand : n'.isCandidateOf term = true) : Campaigning n₀ n' heard := by
  simp only [RaftNode.isCandidateOf, Bool.and_eq_true, beq_iff_eq] at hcand
  obtain ⟨hrole, hterm⟩ := hcand
  have hn : n.hardState = ⟨term, some n₀.config.nodeId⟩ := h.base.hard.trans hstood.hard
  have hvoted : n.HasVoted := by
    refine ⟨?_, ?_⟩
    · rw [hn]
      exact Option.some_ne_none _
    · rw [h.base.durable, h.base.hard, hstood.saved]
  have hu : Undisturbed n n' := hr.kept hrole (by rw [hterm, hn]) hvoted
  exact ⟨h.base.trans hu, hrole, hr.responders.trans h.responders⟩

theorem campaignRound_campaigning (h : Campaigning n₀ n heard) (hstood : Standing n₀ term)
    (batch : List InboundRaftMessage) :
    Ends (campaignRound term batch (n₀.countedVotes term heard)) n
      (fun r n' => Campaigning.After n₀ n' term (heard ++ batch) r) (fun _ => True) := by
  unfold campaignRound
  rw [← h.base.countedVotes term heard]
  refine (countVoteResponses_counts batch h.responders).seq ?_
  rintro r n₁ (rfl | ⟨rfl, rfl⟩)
  · exact .ret trivial
  · have hcounted : Campaigning n₀
        { n with scratchResponders := answered (heard ++ batch) } (heard ++ batch) :=
      ⟨h.base.trans ⟨⟨rfl, rfl⟩, rfl, rfl, rfl⟩, h.role, rfl⟩
    refine .read ?_
    rw [hcounted.base.voterMajority, h.base.countedVotes]
    split
    · rename_i hwon
      exact .ret ⟨hcounted, hwon⟩
    · have hhandled := (Ends.of_emits (handleCampaignRequests_racesOn batch
        { n with scratchResponders := answered (heard ++ batch) })).mono_error
        fun _ _ => trivial
      refine hhandled.seq ?_
      rintro _ n₂ ⟨hr, -⟩
      refine .read ?_
      split
      · rename_i hcand
        exact .ret ⟨hcounted.handled hstood hr hcand, rfl⟩
      · exact .ret trivial

/-- A campaign that is won was won by the votes counted up to some batch. -/
theorem collectVotes_campaigning (h : Campaigning n₀ n heard) (hstood : Standing n₀ term)
    (possible : Nat) (batches : List (List InboundRaftMessage)) :
    Ends (collectVotes term possible batches (n₀.countedVotes term heard)) n
      (fun won n' => won = true → ∃ heard', heard' ⊆ heard ++ batches.flatten ∧
        Campaigning n₀ n' heard' ∧ n₀.voterMajority (n₀.countedVotes term heard') = true)
      (fun _ => True) := by
  induction batches generalizing n heard with
  | nil =>
    unfold collectVotes
    refine .read ?_
    split
    · refine .ret fun hwon => ⟨heard, List.subset_append_left _ _, h, ?_⟩
      rwa [h.base.voterMajority] at hwon
    · exact .fail trivial
  | cons batch rest ih =>
    unfold collectVotes
    refine .read ?_
    split
    · refine .ret fun hwon => ⟨heard, List.subset_append_left _ _, h, ?_⟩
      rwa [h.base.voterMajority] at hwon
    · refine (campaignRound_campaigning h hstood batch).seq ?_
      intro r n' h'
      have hflat : heard ++ (batch :: rest).flatten = (heard ++ batch) ++ rest.flatten := by
        rw [List.flatten_cons, List.append_assoc]
      cases r with
      | won =>
        refine .ret fun _ => ⟨heard ++ batch, ?_, h'.1, h'.2⟩
        rw [hflat]
        exact List.subset_append_left _ _
      | lost => exact .ret fun h => absurd h Bool.false_ne_true
      | goOn granted =>
        obtain ⟨hgo, rfl⟩ := h'
        rw [hflat]
        exact ih hgo

end Loop

/-! ## The crown -/

/-- A voter list accepts `voters`: they hold more than half of its places. -/
def Carries (side voters : List PeerId) : Prop :=
  quorum side.length ≤ (side.filter (fun p => decide (p ∈ voters))).length

/-- In a list without repetitions these are as many distinct voters. -/
theorem Carries.distinct {side voters : List PeerId} (h : Carries side voters)
    (hside : side.Nodup) :
    quorum side.length ≤ (voters.filter fun v => decide (v ∈ side)).length := by
  refine h.trans (List.subperm_of_subset (hside.filter _) fun v hv => ?_).length_le
  obtain ⟨hin, hvoted⟩ := List.mem_filter.mp hv
  exact List.mem_filter.mpr ⟨of_decide_eq_true hvoted, decide_eq_true hin⟩

theorem carries_of_voterMajority {voters : List PeerId} (hnodup : voters.Nodup)
    (hsub : voters ⊆ n.config.peers) (h : n.voterMajority voters = true) :
    ∀ side ∈ n.voterSides, Carries side voters := by
  unfold RaftNode.voterMajority at h
  unfold RaftNode.voterSides Carries
  cases hj : n.jointPeers with
  | none =>
    rw [hj] at h
    rw [List.forall_mem_singleton]
    have hlen : quorum n.config.peers.length ≤ voters.length := of_decide_eq_true h
    refine hlen.trans (List.subperm_of_subset hnodup ?_).length_le
    exact fun v hv => List.mem_filter.mpr ⟨hsub hv, decide_eq_true hv⟩
  | some sides =>
    obtain ⟨old, new⟩ := sides
    rw [hj] at h
    obtain ⟨hold, hnew⟩ := Bool.and_eq_true_iff.mp h
    rw [List.forall_mem_cons, List.forall_mem_singleton]
    exact ⟨of_decide_eq_true hold, of_decide_eq_true hnew⟩

/-- The votes counted are of distinct voters. -/
theorem nodup_countedVotes (term : Nat) {heard : List InboundRaftMessage}
    (hself : ∀ f ∈ heard, f.sender ≠ n.config.nodeId) : (n.countedVotes term heard).Nodup := by
  unfold RaftNode.countedVotes
  rw [List.nodup_cons]
  constructor
  · intro hmem
    obtain ⟨a, ha, heq⟩ := List.mem_map.mp hmem
    exact hself _ (mem_of_mem_firstAnswers (List.mem_of_mem_filter ha)) heq
  · exact (nodup_answered heard).sublist (List.filter_sublist.map _)

theorem mem_countedVotes {term : Nat} {heard : List InboundRaftMessage} {v : PeerId}
    (h : v ∈ n.countedVotes term heard) :
    v = n.config.nodeId ∨
      v ∈ n.config.peers ∧ ⟨v, .requestVoteResp ⟨term, true⟩⟩ ∈ heard := by
  rcases List.mem_cons.mp h with rfl | h
  · exact .inl rfl
  · obtain ⟨⟨w, resp⟩, ha, rfl⟩ := List.mem_map.mp h
    obtain ⟨hfirst, hcounts⟩ := List.mem_filter.mp ha
    obtain ⟨hterm, hgranted, hmem⟩ := of_decide_eq_true hcounts
    refine .inr ⟨hmem, ?_⟩
    have hresp : resp = ⟨term, true⟩ := by
      cases resp
      simp_all
    rw [← hresp]
    exact mem_of_mem_firstAnswers hfirst

/-- A campaign that was opened asks for votes in the next term, and nothing else
has moved. -/
theorem startElection_opened (n : RaftNode) :
    Ends startElection n
      (fun r n' => ∀ term possible, r = some (term, possible) →
        term = satAdd n.hardState.currentTerm 1 ∧ Standing n' term ∧ SameRoll n n' ∧
          n'.softState.leaderId = none)
      (fun _ => True) := by
  unfold startElection
  refine .read ?_
  split
  · exact .ret nofun
  · rename_i hmem
    have hsave : Ends saveHardState n.becomeCandidate
        (fun _ n₁ => n₁ = n.becomeCandidate.savedHard) (fun _ => True) := by
      unfold saveHardState
      refine .read ?_
      split
      · exact .fail trivial
      · exact rfl
    refine .updateSeq (hsave.seq ?_)
    rintro _ _ rfl
    have hok : ((Action.startElection.scope n False).strict →
          Coherent n.becomeCandidate.savedHard) →
        SendOk (Action.startElection.scope n False) n.becomeCandidate.savedHard
          (.requestVote (n.becomeCandidate.savedHard.voteRequest
            n.becomeCandidate.savedHard.hardState.currentTerm)) :=
      fun _ => ⟨rfl, rfl, rfl, rfl⟩
    refine Ends.read (((Ends.of_emits (broadcastVotes_emits hok)).mono_error
      fun _ _ => trivial).seq ?_)
    rintro possible n₁ ⟨-, l, rfl⟩
    split
    · exact .fail trivial
    · refine .updateSeq (.ret ?_)
      rintro term possible' h
      cases h
      exact ⟨rfl, ⟨not_not.mp hmem, rfl, rfl, rfl, rfl⟩, ⟨rfl, rfl⟩, rfl⟩

/-- A campaign returns `true` where it takes the crown. -/
theorem campaignOnce_crowned {batches : List (List InboundRaftMessage)}
    (h : campaignOnce batches n = .ok true n') :
    ∃ term possible n₀ m, startElection n = .ok (some (term, possible)) n₀ ∧
      collectVotes term possible batches [n₀.config.nodeId] n₀ = .ok true m ∧
      n' = m.becomeLeader := by
  unfold campaignOnce at h
  obtain ⟨r, n₀, hstart, h⟩ := ok_of_bind h
  cases r with
  | none => cases h
  | some tp =>
    obtain ⟨term, possible⟩ := tp
    dsimp only at h
    rw [get_bind] at h
    obtain ⟨won, m, hcollect, h⟩ := ok_of_bind h
    cases won with
    | false => cases h
    | true =>
      rw [if_pos rfl, assumeLeadership, get_bind] at h
      refine ⟨term, possible, n₀, m, hstart, hcollect, ?_⟩
      split at h
      · cases h
        rfl
      · cases h

/-- **Crown soundness.**  A campaign that returns `true` was voted for by distinct
voters, itself among them, that make up a majority of every voter list; each of
the others sent a granted vote of the campaign's term.  Term and vote are durable,
and up to the crown the node knew of no leader and kept its membership. -/
theorem campaignOnce_crown_sound (batches : List (List InboundRaftMessage)) (n n' : RaftNode)
    (hself : ∀ f ∈ batches.flatten, f.sender ≠ n.config.nodeId)
    (hrun : campaignOnce batches n = .ok true n') :
    (∃ voters : List PeerId, voters.Nodup ∧ voters ⊆ n.config.peers ∧
      n.config.nodeId ∈ voters ∧ (∀ side ∈ n.voterSides, Carries side voters ∧
        (side.Nodup → quorum side.length ≤ (voters.filter fun v => decide (v ∈ side)).length)) ∧
      ∀ v ∈ voters, v ≠ n.config.nodeId →
        ⟨v, .requestVoteResp ⟨n'.hardState.currentTerm, true⟩⟩ ∈ batches.flatten) ∧
    n'.hardState = ⟨satAdd n.hardState.currentTerm 1, some n.config.nodeId⟩ ∧
    n'.storage.hardState = n'.hardState ∧
    n'.config = n.config ∧ n'.jointPeers = n.jointPeers ∧
    ∃ m : RaftNode, n' = m.becomeLeader ∧ m.softState.role = .candidate ∧
      m.softState.leaderId = none := by
  obtain ⟨term, possible, n₀, m, hstart, hcollect, rfl⟩ := campaignOnce_crowned hrun
  have hopened := startElection_opened n
  unfold Ends at hopened
  rw [hstart] at hopened
  obtain ⟨hterm, hstood, hroll, hleader⟩ := hopened term possible rfl
  have hid : n₀.config.nodeId = n.config.nodeId := by rw [hroll.config]
  have hbegin : Campaigning n₀ n₀ [] := ⟨.refl n₀, hstood.role, hstood.responders⟩
  have hloop := collectVotes_campaigning hbegin hstood possible batches
  unfold Ends at hloop
  rw [show n₀.countedVotes term [] = [n₀.config.nodeId] from rfl, hcollect] at hloop
  obtain ⟨heard, hsub, hm, hmajority⟩ := hloop rfl
  rw [List.nil_append] at hsub
  have hhard : m.hardState = ⟨term, some n.config.nodeId⟩ := by
    rw [hm.base.hard, hstood.hard, hid]
  have hnodup : (n₀.countedVotes term heard).Nodup :=
    nodup_countedVotes term fun f hf => hid ▸ hself f (hsub hf)
  have hvoters : n₀.countedVotes term heard ⊆ n₀.config.peers := by
    intro v hv
    obtain rfl | ⟨hmem, -⟩ := mem_countedVotes hv
    · exact hstood.member
    · exact hmem
  have hsides : n₀.voterSides = n.voterSides := by
    unfold RaftNode.voterSides
    rw [hroll.joint, hroll.config]
  refine ⟨⟨n₀.countedVotes term heard, hnodup, hroll.config ▸ hvoters,
      hid ▸ List.mem_cons_self, ?_, ?_⟩, hterm ▸ hhard, ?_,
    hm.base.config.trans hroll.config, hm.base.joint.trans hroll.joint,
    m, rfl, hm.role, hm.base.leader.trans hleader⟩
  · intro side hside
    have hcarries := carries_of_voterMajority hnodup hvoters hmajority side (hsides ▸ hside)
    exact ⟨hcarries, hcarries.distinct⟩
  · intro v hv hne
    obtain heq | ⟨-, hframe⟩ := mem_countedVotes hv
    · exact absurd (heq.trans hid) hne
    · have hcurrent : m.becomeLeader.hardState.currentTerm = term :=
        congrArg HardState.currentTerm hhard
      rw [hcurrent]
      exact hsub hframe
  · exact hm.base.durable.trans (hstood.saved.trans hm.base.hard.symm)

/-- Node 3 of both lists hears a stale vote, an outsider, a duplicate and a request
before the votes of 4 and 2 decide. -/
def crowdedCampaign : List (List InboundRaftMessage) :=
  [[⟨1, .requestVoteResp ⟨1, true⟩⟩, ⟨9, .requestVoteResp ⟨2, true⟩⟩,
      ⟨4, .requestVoteResp ⟨2, true⟩⟩, ⟨5, .requestVote ⟨1, 5, 1, 1⟩⟩],
    [⟨4, .requestVoteResp ⟨2, true⟩⟩, ⟨2, .requestVoteResp ⟨2, true⟩⟩]]

theorem campaignOnce_crown_sound_crowded :
    ∃ voters : List PeerId, voters.Nodup ∧ 3 ∈ voters ∧
      Carries [1, 2, 3] voters ∧ Carries [3, 4, 5] voters := by
  obtain ⟨⟨voters, hnodup, -, hown, hsides, -⟩, -⟩ :=
    campaignOnce_crown_sound crowdedCampaign (VoterChange.swapNode 3 .joint) _ (by decide)
      (RaftM.ok_of_result? (by decide +kernel))
  exact ⟨voters, hnodup, hown, (hsides _ List.mem_cons_self).1,
    (hsides _ (List.mem_cons_of_mem _ List.mem_cons_self)).1⟩

end ArbitroRaft
