import ArbitroRaft.Library.Quorum
import ArbitroRaft.Cluster.Basic
import ArbitroRaft.Machine.HardState
import ArbitroRaft.Machine.Talk

/-!
# One leader per term

A vote is on the wire, and what was durable when it left is on record with it.
So the argument needs no history of its own: the vote requests and the granted
votes a node sent say whom it voted for in which term (`VoteFrame`), `VoteRecord`
says that these never disagree, and a crown rests on the granted votes that were
counted (`Supported`).

## Main results

* `one_leader_per_term`: with fixed voters and kept votes a term has one leader.
-/

namespace ArbitroRaft

open Library

/-! ## What a frame says about votes -/

/-- A vote request of `i` left when `i` had durably voted for itself, and a granted
vote when `i` had durably voted for its receiver. -/
def VoteFrame (i : PeerId) (x : SentFrame) : Prop :=
  match x.message with
  | .requestVote m => m.candidateId = i ∧ x.stored.hardState = ⟨m.term, some i⟩
  | .requestVoteResp m =>
    m.voteGranted = true → x.stored.hardState = ⟨m.term, some x.receiver⟩
  | _ => True

/-- Node `i` with the frames it sent. -/
structure Voter (i : PeerId) (n : RaftNode) : Prop where
  id : n.config.nodeId = i
  frames : ∀ x ∈ n.sent, VoteFrame i x

section Voter

variable {sc : Scope} {i : PeerId} {n n' : RaftNode}

theorem Voter.same (h : Voter i n) (hw : SameWire n n') : Voter i n' :=
  ⟨hw.nodeId.trans h.id, hw.sent ▸ h.frames⟩

theorem Voter.putOnWire (h : Voter i n) {peer : PeerId} {msg : RaftMessage}
    (hx : VoteFrame i ⟨peer, msg, n.storage⟩) : Voter i (n.putOnWire peer msg) := by
  refine ⟨h.id, fun x hmem => ?_⟩
  obtain hmem | hmem := List.mem_append.mp hmem
  · exact h.frames x hmem
  · rw [List.mem_singleton.mp hmem]
    exact hx

/-- A frame that `SendOk` describes. -/
theorem SendOk.voteFrame {msg : RaftMessage} (h : SendOk sc n msg) (hid : n.config.nodeId = i)
    (peer : PeerId) : VoteFrame i ⟨peer, msg, n.storage⟩ := by
  cases msg with
  | requestVote m =>
    obtain ⟨rfl, -, hvote, hdurable⟩ := h
    refine ⟨hid, ?_⟩
    change n.storage.hardState = ⟨n.hardState.currentTerm, some i⟩
    rw [hdurable, ← hid, ← hvote]
  | requestVoteResp m =>
    intro hgranted
    rw [h.2] at hgranted
    cases hgranted
  | _ => exact trivial

/-- Vote requests name their sender. -/
def Scope.NamesCandidate (sc : Scope) : Prop :=
  ∀ sender msg, sc.rx ⟨sender, .requestVote msg⟩ → msg.candidateId = sender

theorem Effect.voter (he : Effect sc n n') (hrx : sc.NamesCandidate) (h : Voter i n) :
    Voter i n' ∧ n.sent ⊆ n'.sent := by
  cases he.wire with
  | same _ hw => exact ⟨h.same hw, hw.sent ▸ List.Subset.refl _⟩
  | hard _ hh =>
    cases hh with
    | granted sender msg reply hmsg hv =>
      have hsaved : Voter i (n.castVote msg.candidateId).savedHard := ⟨h.id, h.frames⟩
      cases reply with
      | false => exact ⟨hsaved, List.Subset.refl _⟩
      | true =>
        refine ⟨hsaved.putOnWire ?_, List.subset_append_left _ _⟩
        intro _
        rw [← hrx sender msg hmsg]
        rfl
    | _ => exact ⟨⟨h.id, h.frames⟩, List.Subset.refl _⟩
  | sent peer msg hok =>
    exact ⟨h.putOnWire (hok.voteFrame h.id peer), List.subset_append_left _ _⟩
  | acked sender msg entries =>
    have hw := SameSide.accepted n msg entries
    refine ⟨(h.same hw.toSameWire).putOnWire trivial, ?_⟩
    exact fun x hx => List.mem_append_left _ (hw.sent ▸ hx)

theorem Action.voter {a : Action} (h : Voter i n)
    (hframe : ∀ sender msg, a.frame = some ⟨sender, .requestVote msg⟩ →
      msg.candidateId = sender) : Voter i (a.run n) ∧ n.sent ⊆ (a.run n).sent := by
  refine Action.preserves (P := fun m => Voter i m ∧ n.sent ⊆ m.sent)
    ⟨h, List.Subset.refl _⟩ ?_
  rintro m m' ⟨hm, hsub⟩ he
  obtain ⟨hm', hsub'⟩ := he.voter hframe hm
  exact ⟨hm', fun x hx => hsub' (hsub hx)⟩

end Voter

/-! ## The opening of a campaign -/

/-- A shared message reaches the wire once for every peer. -/
theorem sendAll_run {msg : RaftMessage} {n : RaftNode} (h : n.env.encodes msg = true)
    (peers : List PeerId) : ∃ oks, sendAll msg peers n =
      .ok oks { n with sent := n.sent ++ peers.map fun p => ⟨p, msg, n.storage⟩ } := by
  induction peers generalizing n with
  | nil => exact ⟨[], by rw [List.map_nil, List.append_nil]; rfl⟩
  | cons peer rest ih =>
    obtain ⟨oks, hrest⟩ := ih (n := n.putOnWire peer msg) h
    have hsend : sendMessage peer msg n = .ok (n.env.reachable peer) (n.putOnWire peer msg) := by
      unfold sendMessage
      rw [get_bind, if_pos h]
      rfl
    refine ⟨if n.env.reachable peer then peer :: oks else oks, ?_⟩
    unfold sendAll
    rw [bind_of_ok hsend, bind_of_ok hrest]
    simp only [RaftNode.putOnWire, List.map_cons, List.append_assoc, List.singleton_append]
    rfl

/-- What a campaign that goes on to collect votes has done: every other voter is asked,
with the candidate's own vote durable. -/
structure Asked (n n' : RaftNode) (term : Nat) : Prop where
  config : n'.config = n.config
  member : n.config.nodeId ∈ n.config.peers
  responders : n'.scratchResponders = []
  asked : ∀ p ∈ n.otherPeers, ∃ x ∈ n'.sent,
    x.stored.hardState = ⟨term, some n.config.nodeId⟩

theorem startElection_asks (n : RaftNode) :
    Ends startElection n
      (fun r n' => ∀ term possible, r = some (term, possible) → Asked n n' term)
      (fun _ => True) := by
  unfold startElection
  refine .read ?_
  split
  · exact .ret (by simp)
  · rename_i hmem
    refine .updateSeq (.seq (P := fun _ n₁ => n₁ = n.becomeCandidate.savedHard) ?_ ?_)
    · unfold saveHardState
      refine .read ?_
      split
      · exact .fail trivial
      · exact rfl
    · rintro _ _ rfl
      refine .read (.seq (P := fun _ n₁ => n₁.config = n.config ∧
        ∀ p ∈ n.otherPeers, ∃ x ∈ n₁.sent,
          x.stored.hardState = n.becomeCandidate.hardState) ?_ ?_)
      · unfold broadcastVotes
        refine .updateSeq (.seq (P := fun _ n₁ => n₁ =
          n.becomeCandidate.savedHard.setScratchPeers n.otherPeers ∧
            n₁.env.encodes (.requestVote (n.becomeCandidate.savedHard.voteRequest
              n.becomeCandidate.savedHard.hardState.currentTerm)) = true) ?_ ?_)
        · unfold encodeShared
          refine .read ?_
          split
          · rename_i henc
            exact .ret ⟨rfl, henc⟩
          · exact .fail trivial
        · rintro _ n₁ ⟨hn₁, henc⟩
          obtain ⟨oks, hrun⟩ := sendAll_run henc n₁.scratchPeers
          refine .read ?_
          unfold Ends
          rw [bind_of_ok hrun]
          subst hn₁
          refine ⟨rfl, fun p hp => ?_⟩
          exact ⟨_, List.mem_append_right _ (List.mem_map_of_mem hp), rfl⟩
      · rintro possible n₁ ⟨hconfig, hsent⟩
        split
        · exact .fail trivial
        · refine .updateSeq (.ret ?_)
          rintro term possible' h
          obtain ⟨rfl, -⟩ := Prod.mk.inj (Option.some.inj h)
          exact ⟨hconfig, not_not.mp hmem, rfl, hsent⟩

/-! ## Restarts -/

/-- A handler that adopted its term and did nothing else. -/
inductive Halfway (n : RaftNode) : RaftNode → Prop
  | untouched : Halfway n n
  | unsaved (t : Nat) : n.hardState.currentTerm < t → Halfway n (n.withHard ⟨t, none⟩)
  | saved (t : Nat) : n.hardState.currentTerm < t →
      Halfway n (n.withHard ⟨t, none⟩).savedHard.demoteToFollowerKeepTerm

theorem RaftNode.halfway_cases (n : RaftNode) (m : RaftMessage) : Halfway n (n.halfway m) := by
  unfold RaftNode.halfway
  cases m.adoptedTerm? with
  | none => exact .untouched
  | some t =>
    refine Ends.after (observeTerm_ends ?_ ?_ .untouched)
    · exact fun hlt => .saved t hlt
    · exact fun hlt => .unsaved t hlt

theorem Halfway.voteStep {n n' : RaftNode} (h : Halfway n n') (hn : VoteRecord n) :
    VoteStep n n' := by
  cases h with
  | untouched => exact ⟨HardState.Keeps.refl _, hn⟩
  | unsaved t hlt =>
    refine hn.step rfl (HardState.Keeps.refl _) ?_
    exact HardState.Keeps.of_lt (lt_of_le_of_lt hn.memory.term_le hlt)
  | saved t hlt =>
    refine hn.step rfl ?_ (HardState.Keeps.refl _)
    exact HardState.Keeps.of_lt (lt_of_le_of_lt hn.memory.term_le hlt)

theorem Halfway.surroundings {n n' : RaftNode} (h : Halfway n n') :
    n'.sent = n.sent ∧ n'.config = n.config := by
  cases h <;> exact ⟨rfl, rfl⟩

theorem Server.reborn_eq {n : RaftNode} {env : Env} {config : NodeConfig} {p : Server}
    (h : Server.reborn n env config = some p) : config.nodeId = n.config.nodeId ∧
      p = ⟨RaftNode.fromStorage config n.storage n.sent env, .idle⟩ := by
  obtain ⟨n', hn', rfl⟩ := Option.map_eq_some_iff.mp h
  obtain ⟨hid, rfl⟩ := Event.next_restart hn'
  exact ⟨hid, rfl⟩

theorem Server.crowns_eq_some {p : Server} {act : ServerAct} {t : Nat} (h : p.crowns act = some t) :
    ∃ granted, p.call = .campaign t granted ∧ p.node.voterMajority granted = true := by
  unfold Server.crowns at h
  split at h
  · split at h
    · rename_i term granted hcall
      obtain ⟨hwon, ht⟩ := Option.ite_none_right_eq_some.mp h
      cases ht
      exact ⟨granted, hcall, (Bool.and_eq_true_iff.mp hwon).1⟩
    · cases h
  · cases h

/-- What a step does to the votes on record. -/
structure Polled (i : PeerId) (n n' : RaftNode) : Prop where
  voter : Voter i n'
  record : VoteRecord n'
  sent : n.sent ⊆ n'.sent

theorem Polled.reborn {i : PeerId} {n m : RaftNode} {env : Env} {config : NodeConfig} {p : Server}
    (hv : Voter i n) (hm : VoteRecord m) (hsent : m.sent = n.sent) (hconfig : m.config = n.config)
    (h : Server.reborn m env config = some p) : Polled i n p.node := by
  obtain ⟨hid, rfl⟩ := Server.reborn_eq h
  refine ⟨⟨?_, ?_⟩, ?_, ?_⟩
  · exact hid.trans ((congrArg NodeConfig.nodeId hconfig).trans hv.id)
  · exact hsent ▸ hv.frames
  · have hstep : VoteStep m (RaftNode.fromStorage config m.storage m.sent env) :=
      hm.step rfl (HardState.Keeps.refl _) (HardState.Keeps.refl _)
    exact hstep.2
  · exact hsent ▸ List.Subset.refl _

namespace Cluster

/-- The node that moves has the voters `V`. -/
def FixedVoters (V : List PeerId) (s : Cluster) (a : ClusterStep) : Prop :=
  (s.node a.site).config.peers = V ∧ (s.node a.site).jointPeers = none

instance (V : List PeerId) (s : Cluster) (a : ClusterStep) : Decidable (s.FixedVoters V a) :=
  inferInstanceAs (Decidable (_ ∧ _))

/-- The node that moves does not step down in a term with a recorded vote, and does
not campaign at the largest term over a vote for another node. -/
def KeepsVote (s : Cluster) (a : ClusterStep) : Prop :=
  ∀ b, a.act.action (s.server a.site).call = some b →
    (Event.act a.env b).KeepsVote (s.node a.site)

/-! ## What every step keeps -/

/-- `granted` are voters that voted for `i` in `t`, `i` itself among them or not. -/
structure Supported (V : List PeerId) (s : Cluster) (i : PeerId) (t : Nat)
    (granted : List PeerId) : Prop where
  member : i ∈ V
  nodup : granted.Nodup
  subset : granted ⊆ V
  votes : ∀ v ∈ granted, v = i ∨ ∃ x ∈ (s.node v).sent, x.receiver = i ∧
    x.message = .requestVoteResp ⟨t, true⟩
  asked : ∀ j ∈ V, j ≠ i → ∃ x ∈ (s.node i).sent, x.stored.hardState = ⟨t, some i⟩

/-- The state of the votes in a cluster. -/
structure Polls (V : List PeerId) (s : Cluster) : Prop where
  voter : ∀ i, Voter i (s.node i)
  record : ∀ i, VoteRecord (s.node i)
  campaign : ∀ i t granted, (s.server i).call = .campaign t granted →
    s.Supported V i t granted ∧ Tally (s.node i) granted
  crowned : ∀ i t, (i, t) ∈ s.crowned →
    ∃ granted, s.Supported V i t granted ∧ Majority V granted

variable {V : List PeerId} {s : Cluster}

theorem Supported.mono {s' : Cluster} {i : PeerId} {t : Nat} {granted : List PeerId}
    (h : s.Supported V i t granted) (hs : ∀ j, (s.node j).sent ⊆ (s'.node j).sent) :
    s'.Supported V i t granted := by
  refine ⟨h.member, h.nodup, h.subset, ?_, ?_⟩
  · intro v hv
    refine (h.votes v hv).imp id ?_
    rintro ⟨x, hx, hrest⟩
    exact ⟨x, hs v hx, hrest⟩
  · intro j hj hne
    obtain ⟨x, hx, hstored⟩ := h.asked j hj hne
    exact ⟨x, hs i hx, hstored⟩

/-- A vote for `j` in the term `i` asked for votes. -/
theorem Polls.asked_eq (hp : s.Polls V) {i j : PeerId} {t : Nat} {x y : SentFrame}
    (hx : x ∈ (s.node i).sent) (hxs : x.stored.hardState = ⟨t, some i⟩) (hy : y ∈ (s.node i).sent)
    (hym : y.message = .requestVoteResp ⟨t, true⟩) (hyr : y.receiver = j) : i = j := by
  have hframe := (hp.voter i).frames y hy
  unfold VoteFrame at hframe
  rw [hym] at hframe
  have hys : y.stored.hardState = ⟨t, some j⟩ := hyr ▸ hframe rfl
  exact (hp.record i).granted_eq hx hy hxs hys

/-- Two crowns of one term rest on majorities that share a voter. -/
theorem Polls.leader_eq (hp : s.Polls V) {i j : PeerId} {t : Nat}
    (hi : (i, t) ∈ s.crowned) (hj : (j, t) ∈ s.crowned) : i = j := by
  obtain ⟨granted, hsup, hmaj⟩ := hp.crowned i t hi
  obtain ⟨granted', hsup', hmaj'⟩ := hp.crowned j t hj
  obtain ⟨v, hv, hv'⟩ := hmaj.intersect hmaj'
  by_contra hne
  obtain rfl | ⟨x, hx, hxr, hxm⟩ := hsup.votes v hv
  · obtain heq | ⟨y, hy, hyr, hym⟩ := hsup'.votes v hv'
    · exact hne heq
    · obtain ⟨x, hx, hxs⟩ := hsup.asked j hsup'.member (Ne.symm hne)
      exact hne (hp.asked_eq hx hxs hy hym hyr)
  · obtain rfl | ⟨y, hy, hyr, hym⟩ := hsup'.votes v hv'
    · obtain ⟨y, hy, hys⟩ := hsup'.asked i hsup.member hne
      exact hne (hp.asked_eq hy hys hx hxm hxr).symm
    · -- one voter granted both
      have hframe := (hp.voter v).frames x hx
      have hframe' := (hp.voter v).frames y hy
      unfold VoteFrame at hframe hframe'
      rw [hxm] at hframe
      rw [hym] at hframe'
      have hxs : x.stored.hardState = ⟨t, some i⟩ := hxr ▸ hframe rfl
      have hys : y.stored.hardState = ⟨t, some j⟩ := hyr ▸ hframe' rfl
      exact hne ((hp.record v).granted_eq hx hy hxs hys)

/-! ### The steps -/

section Steps

variable {a : ClusterStep} {p : Server}

/-- A vote request on the wire names its sender. -/
theorem Polls.candidate_eq (hp : s.Polls V) {i sender : PeerId} {msg : RequestVote}
    (h : s.onWire i ⟨sender, .requestVote msg⟩ = true) : msg.candidateId = sender := by
  obtain ⟨-, x, hx, -, hm⟩ := onWire_iff.mp h
  have hframe := (hp.voter sender).frames x hx
  unfold VoteFrame at hframe
  rw [hm] at hframe
  exact hframe.1

/-- What the node behind an act reads the act reads. -/
theorem hears_of_action {c : Call} {act : ServerAct} {b : Action} (h : act.action c = some b) :
    b.hears = act.hears := by
  cases act with
  | act a | campaign | propose payloads =>
    cases h
    rfl
  | votes batch | crown =>
    cases c with
    | campaign term granted =>
      cases h
      rfl
    | _ => cases h
  | gather f | finish =>
    cases c with
    | propose g =>
      cases h
      rfl
    | _ => cases h
  | _ => cases h

theorem mem_hears_of_frame {b : Action} {f : InboundRaftMessage} (h : b.frame = some f) :
    f ∈ b.hears := by
  cases b with
  | inbound f | gatherFrame f g =>
    cases h
    exact List.mem_singleton_self _
  | _ => cases h

/-- The node that moves keeps its record. -/
theorem Polls.polled (hp : s.Polls V) (hkeep : s.KeepsVote a)
    (hheard : ∀ f ∈ a.act.hears, s.onWire a.site f = true)
    (hmoved : (s.server a.site).Moved a.env a.act p) : Polled a.site (s.node a.site) p.node := by
  obtain ⟨i, env, act⟩ := a
  have hv := hp.voter i
  have hr := hp.record i
  have hwithin : VoteRecord ((s.node i).within env) :=
    ⟨hr.memory, hr.sent, hr.ordered, hr.granted⟩
  obtain ⟨b, hb, hnode⟩ | hnode | ⟨n, config, hn, hreborn⟩ := hmoved.node
  · have hframe : ∀ sender msg, b.frame = some ⟨sender, .requestVote msg⟩ →
        msg.candidateId = sender := by
      intro sender msg hf
      refine hp.candidate_eq (hheard _ ?_)
      rw [← hears_of_action hb]
      exact mem_hears_of_frame hf
    have hvoter : Voter i ((s.node i).within env) := ⟨hv.id, hv.frames⟩
    obtain ⟨hvoter, hsent⟩ := Action.voter hvoter hframe
    rw [hnode]
    exact ⟨hvoter, (Event.voteStep hr (hkeep b hb) rfl).2, hsent⟩
  · rw [hnode]
    exact ⟨hv, hr, List.Subset.refl _⟩
  · obtain rfl | ⟨m, rfl⟩ := hn
    · exact Polled.reborn hv hr rfl rfl hreborn
    · have hhalf := RaftNode.halfway_cases ((s.node i).within env) m
      exact Polled.reborn hv (hhalf.voteStep hwithin).2 hhalf.surroundings.1
        hhalf.surroundings.2 hreborn

/-- A campaign that is opened or goes on has the support it counted. -/
theorem Polls.supported (hp : s.Polls V) (hfix : s.FixedVoters V a)
    (hheard : ∀ f ∈ a.act.hears, s.onWire a.site f = true)
    (hmoved : (s.server a.site).Moved a.env a.act p) {s' : Cluster}
    (hpolled : Polled a.site (s.node a.site) p.node)
    (hs : ∀ j, (s.node j).sent ⊆ (s'.node j).sent) (hs' : s'.node a.site = p.node)
    {t : Nat} {granted : List PeerId} (hcall : p.call = .campaign t granted) :
    s'.Supported V a.site t granted ∧ Tally p.node granted := by
  obtain ⟨i, env, act⟩ := a
  obtain ⟨hpeers, -⟩ := hfix
  dsimp only at hheard hpeers hs' hpolled hmoved ⊢
  have hid := (hp.voter i).id
  have hid' := hpolled.voter.id
  cases hmoved with
  | act b hallows =>
    have hold : (s.server i).call = .campaign t granted := hcall
    obtain ⟨hsup, htally⟩ := hp.campaign i t granted hold
    rw [hold] at hallows
    refine ⟨hsup.mono hs, htally.nodup, ?_⟩
    cases b with
    | inbound f =>
      intro v hv
      have hanswered := htally.answered v hv
      rw [hid] at hanswered
      rw [responders_inbound, hid']
      exact hanswered
    | _ => cases hallows
  | campaign hidle =>
    obtain ⟨r, n', hrun, hproceed⟩ | hidle' :=
      Server.proceed_cases startElection Call.afterStart ((s.server i).node.within env)
    · rw [hproceed] at hcall hs' ⊢
      cases r with
      | none => cases hcall
      | some tp =>
        cases hcall
        have hasked := startElection_asks ((s.server i).node.within env)
        unfold Ends at hasked
        rw [hrun] at hasked
        have hasked : Asked ((s.node i).within env) n' tp.1 := hasked tp.1 tp.2 rfl
        have hnodeId : n'.config.nodeId = i := by
          rw [hasked.config]
          exact hid
        have hmember : i ∈ V := by
          rw [← hid, ← hpeers]
          exact hasked.member
        refine ⟨⟨hmember, List.nodup_singleton _, ?_, ?_, ?_⟩, List.nodup_singleton _, ?_⟩
        · intro v hv
          rw [List.mem_singleton.mp hv, hnodeId]
          exact hmember
        · intro v hv
          exact .inl ((List.mem_singleton.mp hv).trans hnodeId)
        · intro j hj hne
          obtain ⟨x, hx, hstored⟩ := hasked.asked j (List.mem_filter.mpr
            ⟨hpeers ▸ hj, decide_eq_true fun h => hne (h.trans hid)⟩)
          rw [hs']
          exact ⟨x, hx, by rw [hstored]; exact congrArg _ (congrArg _ hid)⟩
        · exact fun v hv => .inl (List.mem_singleton.mp hv)
    · rw [hidle'] at hcall
      cases hcall
  | votes batch term granted' hold =>
    obtain ⟨r, n', hrun, hproceed⟩ | hidle' :=
      Server.proceed_cases (countVoteResponses term batch granted') (Call.afterCount term)
        ((s.server i).node.within env)
    · rw [hproceed] at hcall hs' ⊢
      cases r with
      | none => cases hcall
      | some granted'' =>
        obtain ⟨rfl, rfl⟩ := Call.campaign.inj hcall
        obtain ⟨hsup, htally⟩ := hp.campaign i _ _ hold
        have hemits : Emits
            (Moves ((Action.countVotes term batch granted').scope ((s.node i).within env) False)) _ _ _ :=
          countVoteResponses_emits term batch granted' (fun _ hf _ => Action.finds_scope hf) rfl
        have hcounted : Counted ((s.node i).within env) n' term batch granted' granted'' :=
          (hemits.of_ok hrun).2 _ rfl
        have hself : ∀ f ∈ batch, f.sender ≠ ((s.node i).within env).config.nodeId := by
          intro f hf
          exact hid.symm ▸ (onWire_iff.mp (hheard f hf)).1
        have htally' : Tally n' granted'' := hcounted.tally ⟨htally.nodup, htally.answered⟩ hself
        refine ⟨⟨hsup.member, htally'.nodup, ?_, ?_, (hsup.mono hs).asked⟩, htally'⟩
        · intro v hv
          obtain hv | ⟨hv, -⟩ := hcounted.counted v hv
          · exact hsup.subset hv
          · exact hpeers ▸ hv
        · intro v hv
          obtain hv | ⟨-, hv⟩ := hcounted.counted v hv
          · exact (hsup.mono hs).votes v hv
          · obtain ⟨-, x, hx, hreceiver, hmessage⟩ := onWire_iff.mp (hheard _ hv)
            exact .inr ⟨x, hs v hx, hreceiver, hmessage⟩
    · rw [hidle'] at hcall
      cases hcall
  | crown | gather | finish =>
    obtain h | ⟨_, _, h⟩ := Server.proceed_call hcall <;> cases h
  | propose payloads hidle =>
    obtain h | ⟨r, _, h⟩ := Server.proceed_call hcall
    · cases h
    · cases r <;> cases h
  | beginTick hidle hleader => cases hcall
  | leave => cases hcall
  | restart config p' hreborn =>
    obtain ⟨-, rfl⟩ := Server.reborn_eq hreborn
    cases hcall
  | crash f config p' hreborn =>
    obtain ⟨-, rfl⟩ := Server.reborn_eq hreborn
    cases hcall

/-- A step keeps the votes on record and what rests on them. -/
theorem Polls.step {t : Cluster} (hp : s.Polls V) (hfix : s.FixedVoters V a)
    (hkeep : s.KeepsVote a) (h : s.step a = some t) : t.Polls V := by
  obtain ⟨hheard, p, hnext, rfl⟩ := step_eq_some h
  have hmoved := Server.next_moved hnext
  have hpolled := hp.polled hkeep hheard hmoved
  obtain ⟨i, env, act⟩ := a
  dsimp only at hheard hmoved hpolled ⊢
  generalize hwon : (s.server i).crowns act = won
  have hsent : ∀ j, (s.node j).sent ⊆ ((s.moved i p won).node j).sent := by
    intro j
    by_cases hj : j = i
    · subst hj
      rw [node_moved_self]
      exact hpolled.sent
    · rw [node_moved_of_ne hj]
      exact List.Subset.refl _
  refine ⟨?_, ?_, ?_, ?_⟩
  · intro j
    by_cases hj : j = i
    · subst hj
      rw [node_moved_self]
      exact hpolled.voter
    · rw [node_moved_of_ne hj]
      exact hp.voter j
  · intro j
    by_cases hj : j = i
    · subst hj
      rw [node_moved_self]
      exact hpolled.record
    · rw [node_moved_of_ne hj]
      exact hp.record j
  · intro j t granted hcall
    by_cases hj : j = i
    · subst hj
      simp only [Cluster.moved, Function.update_self] at hcall
      rw [node_moved_self]
      exact hp.supported hfix hheard hmoved hpolled hsent (node_moved_self ..) hcall
    · simp only [Cluster.moved, Function.update_of_ne hj] at hcall
      rw [node_moved_of_ne hj]
      obtain ⟨hsup, htally⟩ := hp.campaign j t granted hcall
      exact ⟨hsup.mono hsent, htally⟩
  · intro j t hmem
    obtain hmem | hmem := List.mem_append.mp hmem
    · obtain ⟨granted, hsup, hmajority⟩ := hp.crowned j t hmem
      exact ⟨granted, hsup.mono hsent, hmajority⟩
    · -- the crown that was just taken
      obtain ⟨t', ht', heq⟩ := List.mem_map.mp hmem
      obtain ⟨rfl, rfl⟩ := Prod.mk.inj heq
      obtain rfl := Option.mem_toList.mp ht'
      obtain ⟨granted, hcall, hmajority⟩ := Server.crowns_eq_some hwon
      obtain ⟨hsup, -⟩ := hp.campaign i t' granted hcall
      refine ⟨granted, hsup.mono hsent, hsup.nodup, hsup.subset, ?_⟩
      unfold RaftNode.voterMajority at hmajority
      have hjoint : (s.server i).node.jointPeers = none := hfix.2
      have hpeers : (s.server i).node.config.peers = V := hfix.1
      rw [hjoint, hpeers] at hmajority
      exact of_decide_eq_true hmajority

end Steps

theorem Booted.polls (h : s.Booted) : s.Polls V := by
  obtain ⟨hcrowned, hservers⟩ := h
  refine ⟨?_, ?_, ?_, ?_⟩
  · intro i
    obtain ⟨n, hn, hid, hi⟩ := hservers i
    obtain ⟨config, storage, env, rfl⟩ := hn.eq
    unfold Cluster.node
    rw [hi]
    exact ⟨hid, fun x hx => absurd hx List.not_mem_nil⟩
  · intro i
    obtain ⟨n, hn, -, hi⟩ := hservers i
    unfold Cluster.node
    rw [hi]
    exact hn.voteRecord
  · intro i t granted hcall
    obtain ⟨n, -, -, hi⟩ := hservers i
    rw [hi] at hcall
    cases hcall
  · intro i t hmem
    rw [hcrowned] at hmem
    exact absurd hmem List.not_mem_nil

/-- **Election safety.**  As long as no node steps down in a term it voted in, and
none campaigns at the largest term over a vote for another, at most one node ever
becomes leader of a term. -/
theorem one_leader_per_term {s₀ : Cluster} (h₀ : s₀.Booted)
    (h : Reaches step (fun s a => s.FixedVoters V a ∧ s.KeepsVote a) s₀ s) :
    ∀ i j t, (i, t) ∈ s.crowned → (j, t) ∈ s.crowned → i = j := by
  have hpolls : s.Polls V := h.invariant h₀.polls fun u v a hu ha hstep =>
    hu.step ha.1 ha.2 hstep
  exact fun i j t hi hj => hpolls.leader_eq hi hj

/-! ## Runs -/

/-- The voters 1, 2 and 3; anyone else is a learner. -/
def memberConfig (i : PeerId) : NodeConfig :=
  if i ∈ [1, 2, 3] then trioConfig i
  else { trioConfig i with learners := [i], bootstrapPeers := [i] }

theorem validateNodeConfig_memberConfig (i : PeerId) :
    validateNodeConfig (memberConfig i) = .ok () := by
  unfold memberConfig
  split
  · rename_i hi
    simp only [List.mem_cons, List.not_mem_nil, or_false] at hi
    obtain rfl | rfl | rfl := hi <;> rfl
  · rename_i hi
    have hlearners : validateLearners [1, 2, 3] [] [i] = .ok () := by
      simp only [validateLearners, List.not_mem_nil, if_false, if_neg hi]
    simp only [validateNodeConfig, trioConfig, List.mem_singleton, not_true_eq_false, and_false,
      if_false, hlearners]
    rfl

/-- The cluster, each node on the storage `st`. -/
def trio (st : Storage) : Cluster :=
  { server := fun i => ⟨RaftNode.fromStorage (memberConfig i) st [] (Env.calm 0), .idle⟩
    crowned := [] }

theorem booted_trio (st : Storage) : (trio st).Booted := by
  refine ⟨rfl, fun i => ⟨_, ⟨memberConfig i, st, Env.calm 0, ?_⟩, ?_, rfl⟩⟩
  · rw [RaftNode.new, validateNodeConfig_memberConfig]
    rfl
  · change (memberConfig i).nodeId = i
    unfold memberConfig
    split <;> rfl

/-- A step in calm surroundings. -/
def calmly (i : PeerId) (act : ServerAct) : ClusterStep := ⟨i, Env.calm 0, act⟩

/-- Node `i` campaigns in `term` and wins with the vote of node `j`. -/
def wins (i j : PeerId) (term : Nat) : List ClusterStep :=
  [calmly i .campaign,
    calmly j (.act (.inbound ⟨i, .requestVote ⟨term, i, 0, 0⟩⟩)),
    calmly i (.votes [⟨j, .requestVoteResp ⟨term, true⟩⟩]),
    calmly i .crown]

/-- The node that moves has the voters 1, 2 and 3. -/
def votersAre (s : Cluster) (a : ClusterStep) : Bool :=
  decide (s.FixedVoters [1, 2, 3] a)

/-- It does not step down in its own term, and is below the largest one. -/
def ordinary (s : Cluster) (a : ClusterStep) : Bool :=
  (a.act.action (s.server a.site).call).all fun b =>
    !b.resigns ((s.node a.site).within a.env) &&
      decide ((s.node a.site).hardState.currentTerm < u64Max)

theorem keepsVote_of_ordinary {s : Cluster} {a : ClusterStep} (h : ordinary s a = true) :
    s.KeepsVote a := by
  intro b hb
  unfold ordinary at h
  rw [hb, Option.all_some, Bool.and_eq_true, Bool.not_eq_true', decide_eq_true_eq] at h
  refine ⟨fun hr => ?_, fun _ _ hmax => absurd h.2 (Nat.not_lt_of_le hmax)⟩
  rw [h.1] at hr
  cases hr

/-- Node 1 wins term 1, and node 2, which had voted for it, term 2. -/
theorem one_leader_per_term_two_elections :
    ∃ s, Reaches step (fun s a => s.FixedVoters [1, 2, 3] a ∧ s.KeepsVote a)
        (trio (.empty false)) s ∧ s.crowned = [(1, 1), (2, 2)] ∧
      ∀ i j t, (i, t) ∈ s.crowned → (j, t) ∈ s.crowned → i = j := by
  have hrun : (runChecked step (fun s a => votersAre s a && ordinary s a)
      (trio (.empty false)) (wins 1 2 1 ++ wins 2 3 2)).map Cluster.crowned =
      some [(1, 1), (2, 2)] := by decide +kernel
  obtain ⟨s, hs, hcrowned⟩ := Option.map_eq_some_iff.mp hrun
  have hreach : Reaches step (fun s a => s.FixedVoters [1, 2, 3] a ∧ s.KeepsVote a)
      (trio (.empty false)) s := by
    refine Reaches.refl.checked ?_ hs
    intro v a h
    obtain ⟨hvoters, hordinary⟩ := Bool.and_eq_true_iff.mp h
    exact ⟨of_decide_eq_true hvoters, keepsVote_of_ordinary hordinary⟩
  exact ⟨s, hreach, hcrowned, one_leader_per_term (booted_trio _) hreach⟩

/-- Out of contact node 1 abdicates, and a vote request of node 3 for term 1 arrives
late. -/
def secondWinner : List ClusterStep :=
  [⟨1, Env.calm 1000, .act .abdicate⟩,
    ⟨1, Env.calm 1000, .act (.inbound ⟨3, .requestVote ⟨1, 3, 0, 0⟩⟩)⟩,
    calmly 3 (.votes [⟨1, .requestVoteResp ⟨1, true⟩⟩]), calmly 3 .crown]

/-- All nodes have seen the largest term but one. -/
def lateStorage : Storage := { Storage.empty false with hardState := ⟨u64Max - 1, none⟩ }

/-- Two nodes become leader of term 1: the first abdicates, which clears its vote, and
votes again for the second.  Two nodes become leader of the largest term: the second
one had voted for the first, and its campaign reuses the term. -/
theorem two_leaders_of_one_term :
    (∃ s, Reaches step (FixedVoters [1, 2, 3]) (trio (.empty false)) s ∧
      (trio (.empty false)).Booted ∧ s.crowned = [(1, 1), (3, 1)]) ∧
    ∃ s, Reaches step (FixedVoters [1, 2, 3]) (trio lateStorage) s ∧
      (trio lateStorage).Booted ∧ s.crowned = [(1, u64Max), (2, u64Max)] := by
  have habdicates : (runChecked step votersAre (trio (.empty false))
      (calmly 3 .campaign :: wins 1 2 1 ++ secondWinner)).map Cluster.crowned =
      some [(1, 1), (3, 1)] := by decide +kernel
  have hsaturates : (runChecked step votersAre (trio lateStorage)
      (wins 1 2 u64Max ++ wins 2 3 u64Max)).map Cluster.crowned =
      some [(1, u64Max), (2, u64Max)] := by decide +kernel
  obtain ⟨s, hs, hcrowned⟩ := Option.map_eq_some_iff.mp habdicates
  obtain ⟨s', hs', hcrowned'⟩ := Option.map_eq_some_iff.mp hsaturates
  have hok : ∀ v a, votersAre v a = true → FixedVoters [1, 2, 3] v a :=
    fun v a h => of_decide_eq_true h
  exact ⟨⟨s, Reaches.refl.checked hok hs, booted_trio _, hcrowned⟩,
    s', Reaches.refl.checked hok hs', booted_trio _, hcrowned'⟩

end Cluster

end ArbitroRaft
