import ArbitroRaft.Effect.Frame
import ArbitroRaft.Machine.Run

/-!
# Hard-state discipline

The durable pair of term and vote only moves forward: the term does not
decrease, and within a term a recorded vote stays.  Two things the code does
break this, and `Event.KeepsVote` says when they do: a step down in the current
term writes an empty vote over the recorded one, and a campaign at the largest
term reuses that term.

## Main results

* `durable_hardState_keeps`: both, over every run of steps that keep the vote.
-/

namespace ArbitroRaft

open Library

/-- `h'` is at least as far as `h` and forgets no vote. -/
structure HardState.Keeps (h h' : HardState) : Prop where
  term_le : h.currentTerm ≤ h'.currentTerm
  vote : h.currentTerm = h'.currentTerm → ∀ c, h.votedFor = some c → h'.votedFor = some c

namespace HardState

variable {h h' h'' : HardState}

theorem Keeps.refl (h : HardState) : h.Keeps h := ⟨le_rfl, fun _ _ hv => hv⟩

theorem Keeps.trans (k : h.Keeps h') (k' : h'.Keeps h'') : h.Keeps h'' := by
  refine ⟨k.term_le.trans k'.term_le, fun ht c hv => ?_⟩
  have hle := k.term_le
  have hle' := k'.term_le
  exact k'.vote (by omega) c (k.vote (by omega) c hv)

theorem Keeps.of_lt (hlt : h.currentTerm < h'.currentTerm) : h.Keeps h' :=
  ⟨hlt.le, fun ht => absurd ht (by omega)⟩

/-- Two votes of one term, one kept by the other. -/
theorem Keeps.vote_eq {t : Nat} {c c' : PeerId} (hk : Keeps ⟨t, some c⟩ ⟨t, some c'⟩) : c = c' := by
  have hv := hk.vote rfl c rfl
  exact (Option.some.inj hv).symm

end HardState

/-! ## The condition -/

/-- Storage records a vote for `c` in the current term. -/
def RaftNode.VotedFor (n : RaftNode) (c : PeerId) : Prop :=
  n.storage.hardState = ⟨n.hardState.currentTerm, some c⟩

/-- The event does not step down in a term with a recorded vote, and does not
campaign at the largest term over a vote for another node. -/
def Event.KeepsVote (n : RaftNode) : Event → Prop
  | .act env a =>
    (a.resigns (n.within env) = true → ∀ c, ¬ n.VotedFor c) ∧
      (a = .startElection → n.config.nodeId ∈ n.config.peers →
        u64Max ≤ n.hardState.currentTerm → ∀ c, n.VotedFor c → c = n.config.nodeId)
  | .restart _ _ => True

/-! ## One effect -/

/-- The wire and storage, as far as votes are concerned. -/
structure VoteRecord (n : RaftNode) : Prop where
  /-- Memory is never behind storage. -/
  memory : n.storage.hardState.Keeps n.hardState
  /-- What was durable when a frame left is kept. -/
  sent : ∀ f ∈ n.sent, f.stored.hardState.Keeps n.storage.hardState
  ordered : n.sent.Pairwise fun f f' => f.stored.hardState.Keeps f'.stored.hardState
  /-- A granted vote was durable. -/
  granted : ∀ f ∈ n.sent, ∀ t, f.message = .requestVoteResp ⟨t, true⟩ →
    ∃ c, f.stored.hardState = ⟨t, some c⟩

/-- What a step may do to the record: storage moves forward. -/
def VoteStep (n n' : RaftNode) : Prop :=
  n.storage.hardState.Keeps n'.storage.hardState ∧ VoteRecord n'

namespace VoteRecord

variable {n n' : RaftNode}

/-- New hard states, nothing sent. -/
theorem step (h : VoteRecord n) (hs : n'.sent = n.sent)
    (hd : n.storage.hardState.Keeps n'.storage.hardState)
    (hm : n'.storage.hardState.Keeps n'.hardState) : VoteStep n n' := by
  refine ⟨hd, hm, ?_, ?_, ?_⟩
  · rw [hs]
    exact fun f hf => (h.sent f hf).trans hd
  · rw [hs]
    exact h.ordered
  · rw [hs]
    exact h.granted

theorem same (h : VoteRecord n) (hs : n'.sent = n.sent)
    (hd : n'.storage.hardState = n.storage.hardState) (hm : n'.hardState = n.hardState) :
    VoteStep n n' := by
  refine h.step hs ?_ ?_
  · rw [hd]
    exact HardState.Keeps.refl _
  · rw [hd, hm]
    exact h.memory

theorem putOnWire (h : VoteRecord n) (peer : PeerId) (msg : RaftMessage)
    (hg : ∀ t, msg = .requestVoteResp ⟨t, true⟩ → ∃ c, n.storage.hardState = ⟨t, some c⟩) :
    VoteStep n (n.putOnWire peer msg) := by
  refine ⟨HardState.Keeps.refl _, h.memory, ?_, ?_, ?_⟩
  · intro f hf
    rcases List.mem_append.mp hf with hf | hf
    · exact h.sent f hf
    · obtain rfl := List.mem_singleton.mp hf
      exact HardState.Keeps.refl _
  · refine List.pairwise_append.mpr ⟨h.ordered, List.pairwise_singleton _ _, ?_⟩
    intro f hf f' hf'
    obtain rfl := List.mem_singleton.mp hf'
    exact h.sent f hf
  · intro f hf t hm
    rcases List.mem_append.mp hf with hf | hf
    · exact h.granted f hf t hm
    · obtain rfl := List.mem_singleton.mp hf
      exact hg t hm

end VoteRecord

section Effects

variable {sc : Scope} {n n' : RaftNode}

/-- A vote is granted where none was cast, or again to the same candidate. -/
theorem keeps_castVote {msg : RequestVote} (h : n.canVote msg = true) :
    n.hardState.Keeps (n.castVote msg.candidateId).hardState := by
  refine ⟨le_rfl, fun _ c hc => ?_⟩
  unfold RaftNode.canVote at h
  rw [hc] at h
  simp only [Bool.and_eq_true, beq_iff_eq] at h
  rw [h.2]
  rfl

/-- The next term, or the same one at the numeric limit. -/
theorem keeps_becomeCandidate (h : VoteRecord n)
    (hs : u64Max ≤ n.hardState.currentTerm → ∀ c, n.VotedFor c → c = n.config.nodeId) :
    n.storage.hardState.Keeps n.becomeCandidate.hardState := by
  rcases Nat.lt_or_ge n.hardState.currentTerm u64Max with hlt | hge
  · exact HardState.Keeps.of_lt (lt_of_le_of_lt h.memory.term_le (lt_satAdd_one hlt))
  · have hterm : n.becomeCandidate.hardState.currentTerm = n.hardState.currentTerm :=
      satAdd_one_of_ge hge
    refine ⟨hterm ▸ h.memory.term_le, fun ht c hc => ?_⟩
    have hvoted : n.VotedFor c := by
      unfold RaftNode.VotedFor
      rw [← hc, ← hterm, ← ht]
    rw [hs hge c hvoted]
    rfl

/-- A step down in the current term, where no vote is on record. -/
theorem keeps_resigned (h : VoteRecord n) (hd : ∀ c, ¬ n.VotedFor c) :
    n.storage.hardState.Keeps ⟨n.hardState.currentTerm, none⟩ := by
  refine ⟨h.memory.term_le, fun ht c hc => absurd ?_ (hd c)⟩
  unfold RaftNode.VotedFor
  rw [← hc, ← show n.storage.hardState.currentTerm = n.hardState.currentTerm from ht]

theorem HardEffect.voteStep (he : HardEffect sc n n') (h : VoteRecord n)
    (hd : sc.demotes n.core → ∀ c, ¬ n.VotedFor c)
    (hs : sc.stands n.core → n.config.nodeId ∈ n.config.peers →
      u64Max ≤ n.hardState.currentTerm → ∀ c, n.VotedFor c → c = n.config.nodeId) :
    VoteStep n n' := by
  have hforward : ∀ t, n.hardState.currentTerm < t → n.storage.hardState.Keeps ⟨t, none⟩ :=
    fun t hlt => HardState.Keeps.of_lt (lt_of_le_of_lt h.memory.term_le hlt)
  have hresigned : sc.demotes n.core →
      n.storage.hardState.Keeps ⟨n.hardState.currentTerm, none⟩ :=
    fun hdem => keeps_resigned h (hd hdem)
  cases he with
  | steppedDown t hlt => exact h.step rfl (hforward t hlt) (HardState.Keeps.refl _)
  | stepDownFailed t hlt =>
    exact h.step rfl (HardState.Keeps.refl _) (hforward t hlt)
  | abdicated hdem =>
    exact h.step rfl (hresigned hdem) (HardState.Keeps.refl _)
  | abdicationFailed hdem =>
    exact h.step rfl (HardState.Keeps.refl _) (hresigned hdem)
  | stood hst hmem =>
    exact h.step rfl (keeps_becomeCandidate h (hs hst hmem)) (HardState.Keeps.refl _)
  | standFailed hst hmem =>
    exact h.step rfl (HardState.Keeps.refl _) (keeps_becomeCandidate h (hs hst hmem))
  | grantFailed sender msg hrx hv =>
    exact h.step rfl (HardState.Keeps.refl _) (h.memory.trans (keeps_castVote hv))
  | granted sender msg reply hrx hv =>
    have hsaved : VoteStep n (n.castVote msg.candidateId).savedHard :=
      h.step rfl (h.memory.trans (keeps_castVote hv)) (HardState.Keeps.refl _)
    cases reply with
    | false => exact hsaved
    | true =>
      refine ⟨hsaved.1, (hsaved.2.putOnWire sender _ ?_).2⟩
      intro t ht
      simp only [RaftMessage.requestVoteResp.injEq, RequestVoteResp.mk.injEq] at ht
      exact ⟨msg.candidateId, by rw [← ht.1]; rfl⟩

theorem Effect.voteStep (he : Effect sc n n') (h : VoteRecord n)
    (hd : sc.demotes n.core → ∀ c, ¬ n.VotedFor c)
    (hs : sc.stands n.core → n.config.nodeId ∈ n.config.peers →
      u64Max ≤ n.hardState.currentTerm → ∀ c, n.VotedFor c → c = n.config.nodeId) :
    VoteStep n n' := by
  cases he.wire with
  | same _ hw => exact h.same hw.sent hw.durable hw.hard
  | hard _ hh => exact hh.voteStep h hd hs
  | sent peer msg hok =>
    refine h.putOnWire peer msg ?_
    rintro t rfl
    exact absurd hok.2 (by simp)
  | acked sender msg entries =>
    have hw := SameSide.accepted n msg entries
    have hsame := h.same hw.sent hw.durable hw.hard
    refine ⟨hsame.1.trans ?_, (hsame.2.putOnWire sender _ ?_).2⟩
    · exact HardState.Keeps.refl _
    · intro t ht
      cases ht

end Effects

/-! ## Runs -/

variable {n : RaftNode}

/-- A change of the configuration leaves the vote record alone. -/
theorem votedFor_reconfigured {entry : ConfigChangeEntry} {c : PeerId}
    (h : (n.reconfigured entry).VotedFor c) : n.VotedFor c := by
  have hw := (SameSide.adoptConfig n entry).trans (SameSide.settleConfig _)
  unfold RaftNode.VotedFor RaftNode.reconfigured at h
  rw [hw.durable, hw.hard] at h
  exact h

theorem RaftNode.votedFor_of_core {n m : RaftNode} {c : PeerId} (h : m.core = n.core)
    (hv : m.VotedFor c) : n.VotedFor c := by
  have hw := SameWire.of_core h
  unfold RaftNode.VotedFor at hv
  rw [hw.durable, hw.hard] at hv
  exact hv

/-- An action that meets the condition moves the record forward. -/
theorem Action.voteStep {a : Action} (h : VoteRecord n)
    (hd : a.resigns n = true → ∀ c, ¬ n.VotedFor c)
    (hs : a = .startElection → n.config.nodeId ∈ n.config.peers →
      u64Max ≤ n.hardState.currentTerm → ∀ c, n.VotedFor c → c = n.config.nodeId) :
    VoteStep n (a.run n) := by
  refine Action.preserves (P := VoteStep n) ⟨HardState.Keeps.refl _, h⟩ ?_
  intro m m' hm he
  have hstep : VoteStep m m' := by
    refine he.voteStep hm.2 ?_ ?_
    · rintro ⟨hr, hcore⟩ c hv
      rcases hcore with hcore | ⟨entry, hcore⟩
      · exact hd hr c (RaftNode.votedFor_of_core hcore hv)
      · exact hd hr c (votedFor_reconfigured (RaftNode.votedFor_of_core hcore hv))
    · rintro ⟨rfl, hcore⟩ hmem hmax c hv
      have hcfg : m.config = n.config := congrArg Core.config hcore
      rw [hcfg] at hmem ⊢
      rw [(SameWire.of_core hcore).hard] at hmax
      exact hs rfl hmem hmax c (RaftNode.votedFor_of_core hcore hv)
  exact ⟨hm.1.trans hstep.1, hstep.2⟩

theorem Event.voteStep {e : Event} {n n' : RaftNode} (h : VoteRecord n)
    (hok : e.KeepsVote n) (hnext : e.next n = some n') : VoteStep n n' := by
  cases e with
  | act env a =>
    cases hnext
    have hr : VoteRecord (n.within env) := ⟨h.memory, h.sent, h.ordered, h.granted⟩
    exact Action.voteStep hr hok.1 hok.2
  | restart env config =>
    obtain ⟨-, rfl⟩ := Event.next_restart hnext
    exact h.step rfl (HardState.Keeps.refl _) (HardState.Keeps.refl _)

theorem Booted.voteRecord (h : Booted n) : VoteRecord n := by
  obtain ⟨config, storage, env, rfl⟩ := h.eq
  exact ⟨HardState.Keeps.refl _, by simp [RaftNode.fromStorage],
    List.Pairwise.nil, by simp [RaftNode.fromStorage]⟩

theorem NodeRun.voteStep {n n' : RaftNode} (h : NodeRun Event.KeepsVote n n')
    (hn : VoteRecord n) : VoteStep n n' := by
  refine NodeRun.invariant (P := VoteStep n) h ⟨HardState.Keeps.refl _, hn⟩ ?_
  intro m e m' hm hok hnext
  have hstep := Event.voteStep hm.2 hok hnext
  exact ⟨hm.1.trans hstep.1, hstep.2⟩

/-- What was durable when one frame left is kept by the other. -/
def SentFrame.Comparable (f f' : SentFrame) : Prop :=
  f.stored.hardState.Keeps f'.stored.hardState ∨ f'.stored.hardState.Keeps f.stored.hardState

instance : Std.Symm SentFrame.Comparable where
  symm _ _ h := h.symm

/-- Two granted votes of one term were cast for one candidate. -/
theorem VoteRecord.granted_eq (h : VoteRecord n) {f f' : SentFrame} (hf : f ∈ n.sent)
    (hf' : f' ∈ n.sent) {t : Nat} {c c' : PeerId} (hc : f.stored.hardState = ⟨t, some c⟩)
    (hc' : f'.stored.hardState = ⟨t, some c'⟩) : c = c' := by
  have hp : n.sent.Pairwise SentFrame.Comparable := h.ordered.imp .inl
  have hcmp := hp.forall_of_forall (fun _ _ => .inl (HardState.Keeps.refl _)) hf hf'
  unfold SentFrame.Comparable at hcmp
  rw [hc, hc'] at hcmp
  exact hcmp.elim HardState.Keeps.vote_eq fun hk => hk.vote_eq.symm

/-- In a run whose events meet the condition the durable term never decreases,
a durable vote stays for as long as its term does, and all votes granted in one
term went to one candidate. -/
theorem durable_hardState_keeps {n₀ n n' : RaftNode} (h₀ : Booted n₀)
    (h : NodeRun Event.KeepsVote n₀ n) (h' : NodeRun Event.KeepsVote n n') :
    n.storage.hardState.Keeps n'.storage.hardState ∧
      ∀ f ∈ n'.sent, ∀ f' ∈ n'.sent, ∀ t,
        f.message = .requestVoteResp ⟨t, true⟩ → f'.message = .requestVoteResp ⟨t, true⟩ →
        ∃ c, f.stored.hardState = ⟨t, some c⟩ ∧ f'.stored.hardState = ⟨t, some c⟩ := by
  have hn := (h.voteStep h₀.voteRecord).2
  obtain ⟨hkeep, hn'⟩ := h'.voteStep hn
  refine ⟨hkeep, fun f hf f' hf' t hm hm' => ?_⟩
  obtain ⟨c, hc⟩ := hn'.granted f hf t hm
  obtain ⟨c', hc'⟩ := hn'.granted f' hf' t hm'
  obtain rfl := hn'.granted_eq hf hf' hc hc'
  exact ⟨c, hc, hc'⟩

/-- Node 1 votes for node 3 and campaigns itself in the next term. -/
theorem durable_hardState_keeps_vote_then_campaign :
    let n := (Action.inbound ⟨3, .requestVote ⟨1, 3, 0, 0⟩⟩).run (trioNode 1 (.empty false))
    let n' := Action.startElection.run n
    n.storage.hardState = ⟨1, some 3⟩ ∧ n'.storage.hardState = ⟨2, some 1⟩ ∧
      n.storage.hardState.Keeps n'.storage.hardState := by
  refine ⟨rfl, rfl, ?_⟩
  have hv : NodeRun Event.KeepsVote (trioNode 1 (.empty false)) _ :=
    NodeRun.act (Env.calm 0) (.inbound ⟨3, .requestVote ⟨1, 3, 0, 0⟩⟩)
      ⟨fun h => absurd h (by decide), fun h => absurd h (by simp)⟩
  have hc : NodeRun Event.KeepsVote
      ((Action.inbound ⟨3, .requestVote ⟨1, 3, 0, 0⟩⟩).run (trioNode 1 (.empty false))) _ :=
    NodeRun.act (Env.calm 0) .startElection
      ⟨fun h => absurd h (by decide), fun _ _ h => absurd h (by decide)⟩
  exact (durable_hardState_keeps (booted_trioNode_one _) hv hc).1

/-- Node 1 campaigns in term 1 and wins with the vote of node 2. -/
def winTermOne : List Event :=
  [.act (Env.calm 0) .startElection,
    .act (Env.calm 0) (.countVotes 1 [⟨2, .requestVoteResp ⟨1, true⟩⟩] [1]),
    .act (Env.calm 0) (.assumeLeadership 1)]

/-- Out of contact it abdicates, and a vote request of node 3 for term 1 arrives
late. -/
def abdicateThenVote : List Event :=
  [.act (Env.calm 1000) .abdicate,
    .act (Env.calm 1000) (.inbound ⟨3, .requestVote ⟨1, 3, 0, 0⟩⟩)]

/-- Abdication forgets the vote node 1 cast for itself in term 1, and it votes
for node 3 in the same term.  At the largest term a campaign replaces the vote
for node 2. -/
theorem vote_replaced_in_its_term :
    Booted (trioNode 1 (.empty false)) ∧
      (Event.nextAll winTermOne (trioNode 1 (.empty false))).map
        (fun n => n.storage.hardState) = some ⟨1, some 1⟩ ∧
      (Event.nextAll (winTermOne ++ abdicateThenVote) (trioNode 1 (.empty false))).map
        (fun n => n.storage.hardState) = some ⟨1, some 3⟩ ∧
      (Event.nextAll [.act (Env.calm 0) .startElection]
        (trioNode 1 { Storage.empty false with hardState := ⟨u64Max, some 2⟩ })).map
        (fun n => n.storage.hardState) = some ⟨u64Max, some 1⟩ :=
  ⟨booted_trioNode_one _, rfl, rfl, rfl⟩

end ArbitroRaft
