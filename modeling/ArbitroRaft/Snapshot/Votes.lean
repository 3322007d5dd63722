import ArbitroRaft.Machine.Ships
import Mathlib.Data.Prod.Lex

/-!
# Votes after a snapshot

Both vote handlers and both campaigns take the last log position from storage.
Storage reports stored entries only, so once a snapshot has emptied the log they
compare with `(0, 0)` whatever the snapshot covers.  They respect the boundary of
the saved snapshot exactly when the stored log reaches it.

Positions are compared in the lexicographic order of term and index.

## Main results

* `votes_respect_snapshot_iff`: this, for all four.
-/

namespace ArbitroRaft

open Library

def RequestVote.position (msg : RequestVote) : Nat ×ₗ Nat :=
  toLex (msg.lastLogTerm, msg.lastLogIndex)

def SnapshotMeta.position (m : SnapshotMeta) : Nat ×ₗ Nat :=
  toLex (m.lastIncludedTerm, m.lastIncludedIndex)

/-- The position storage reports. -/
def RaftNode.storedPosition (n : RaftNode) : Nat ×ₗ Nat :=
  toLex (n.storage.lastLogPosition.2, n.storage.lastLogPosition.1)

/-- The message grants a vote or a pre-vote. -/
def RaftMessage.grants : RaftMessage → Bool
  | .requestVoteResp resp | .preVoteResp resp => resp.voteGranted
  | _ => false

/-- The last log position a vote or pre-vote request advertises. -/
def RaftMessage.advertised : RaftMessage → Option (Nat ×ₗ Nat)
  | .requestVote msg | .preVote msg => some msg.position
  | _ => none

/-- No vote goes to a candidate below `boundary` and no campaign advertises a
position below it.  A campaign advertises in its opening; what follows only
counts votes and answers requests. -/
structure RaftNode.VotesRespect (n : RaftNode) (boundary : Nat ×ₗ Nat) : Prop where
  vote : ∀ (env : Env) (sender : PeerId) (msg : RequestVote), msg.position < boundary →
    ∀ f ∈ RaftNode.emitted { n with env := env } (handleRequestVote sender msg),
      f.message.grants = false
  preVote : ∀ (env : Env) (sender : PeerId) (msg : RequestVote), msg.position < boundary →
    ∀ f ∈ RaftNode.emitted { n with env := env } (handlePreVote sender msg),
      f.message.grants = false
  campaign : ∀ env : Env, ∀ f ∈ RaftNode.emitted { n with env := env } startElection,
    ∀ p ∈ f.message.advertised, boundary ≤ p
  preCampaign : ∀ env : Env, ∀ f ∈ RaftNode.emitted { n with env := env } startPreVote,
    ∀ p ∈ f.message.advertised, boundary ≤ p

section Comparison

variable {n n' : RaftNode} {msg : RequestVote} {boundary : Nat ×ₗ Nat}

theorem candidateUpToDate_iff : n.candidateUpToDate msg = true ↔ n.storedPosition ≤ msg.position := by
  unfold RaftNode.candidateUpToDate RaftNode.storedPosition RequestVote.position
  rw [Prod.Lex.toLex_le_toLex]
  simp only [Bool.or_eq_true, Bool.and_eq_true, decide_eq_true_eq, beq_iff_eq]
  constructor
  · rintro (h | ⟨h, h'⟩)
    · exact .inl h
    · exact .inr ⟨h.symm, h'⟩
  · rintro (h | ⟨h, h'⟩)
    · exact .inl h
    · exact .inr ⟨h.symm, h'⟩

/-- A candidate below what is stored is not up to date. -/
theorem candidateUpToDate_of_below (hb : boundary ≤ n.storedPosition)
    (hmsg : msg.position < boundary) : n.candidateUpToDate msg = false := by
  apply Bool.eq_false_iff.mpr
  intro h
  exact absurd (candidateUpToDate_iff.mp h) (not_le.mpr (hmsg.trans_le hb))

theorem storedPosition_congr (h : n'.storage.entries = n.storage.entries) :
    n'.storedPosition = n.storedPosition := by
  unfold RaftNode.storedPosition Storage.lastLogPosition
  rw [h]

end Comparison

/-! ## What the handlers and the campaigns send -/

section Sends

variable {P : RaftMessage → Prop} {n : RaftNode}

theorem saveHardState_ships : Emits (Ships P) saveHardState n (fun _ n' => n' = n.savedHard) := by
  unfold Emits
  rw [saveHardState_eq]
  cases n.env.saveFails n.storage.hardState n.hardState with
  | some kind => exact refl_of (Ships P) n
  | none => exact ⟨.of_eq rfl rfl, rfl⟩

theorem observeTerm_ships (t : Nat) :
    Emits (Ships P) (observeTerm t) n (fun _ n' => n'.storage.entries = n.storage.entries) := by
  unfold observeTerm
  refine .read ?_
  split
  · unfold Emits
    rw [stepDown_eq]
    cases n.env.saveFails n.storage.hardState ⟨t, none⟩ with
    | some kind => exact .of_eq rfl rfl
    | none => exact ⟨.of_eq rfl rfl, rfl⟩
  · exact .ret rfl

theorem broadcastVotes_ships {msg : RaftMessage} (hP : P msg) :
    Emits (Ships P) (broadcastVotes msg) n (fun _ _ => True) := by
  unfold broadcastVotes
  refine .updateSeq (.of_eq rfl rfl) ?_
  exact (encodeShared_ships msg).next fun _ _ _ => .read (sendAll_ships hP).returns

theorem handleRequestVote_ships {boundary : Nat ×ₗ Nat} (hb : boundary ≤ n.storedPosition)
    (sender : PeerId) {msg : RequestVote} (hmsg : msg.position < boundary) :
    Emits (Ships fun m => m.grants = false) (handleRequestVote sender msg) n
      (fun _ _ => True) := by
  unfold handleRequestVote
  refine (observeTerm_ships msg.term).seq ?_
  intro _ n' _ hentries
  have hdenied : n'.canVote msg = false := by
    unfold RaftNode.canVote
    rw [candidateUpToDate_of_below (storedPosition_congr hentries ▸ hb) hmsg]
    simp
  refine .read ?_
  rw [if_neg (by simp [hdenied])]
  unfold refuseVote
  exact .read (.returns (sendMessage_ships rfl))

theorem handlePreVote_ships {boundary : Nat ×ₗ Nat} (hb : boundary ≤ n.storedPosition)
    (sender : PeerId) {msg : RequestVote} (hmsg : msg.position < boundary) :
    Emits (Ships fun m => m.grants = false) (handlePreVote sender msg) n
      (fun _ _ => True) := by
  have hdenied : n.canGrantPreVote msg = false := by
    unfold RaftNode.canGrantPreVote
    rw [candidateUpToDate_of_below hb hmsg, Bool.and_false]
  unfold handlePreVote
  exact .read (sendMessage_ships hdenied).returns

/-- Both campaigns advertise the stored position. -/
theorem startElection_ships (hP : ∀ msg : RequestVote,
    msg.position = n.storedPosition → P (.requestVote msg)) :
    Emits (Ships P) startElection n (fun _ _ => True) := by
  unfold startElection
  refine .read ?_
  split
  · exact .ret trivial
  · refine .updateSeq (.of_eq rfl rfl) ?_
    refine saveHardState_ships.seq ?_
    rintro _ n' - rfl
    refine .read ((broadcastVotes_ships (hP _ rfl)).next fun possible n'' _ => ?_)
    split
    · exact .fail
    · exact .updateSeq (.of_eq rfl rfl) (.ret trivial)

theorem startPreVote_ships (hP : ∀ msg : RequestVote,
    msg.position = n.storedPosition → P (.preVote msg)) :
    Emits (Ships P) startPreVote n (fun _ _ => True) := by
  unfold startPreVote
  refine .read ?_
  split
  · exact .ret trivial
  · refine (broadcastVotes_ships (hP _ rfl)).next fun possible n' _ => ?_
    split
    · exact .ret trivial
    · exact .updateSeq (.of_eq rfl rfl) (.ret trivial)

end Sends

/-- A request at the stored position in the current term, from the candidate
that has the vote if there is one. -/
def RaftNode.matchingRequest (n : RaftNode) : RequestVote :=
  { term := n.hardState.currentTerm
    candidateId := n.hardState.votedFor.getD 0
    lastLogIndex := n.storage.lastLogPosition.1
    lastLogTerm := n.storage.lastLogPosition.2 }

theorem canVote_matchingRequest (n : RaftNode) : n.canVote n.matchingRequest = true := by
  have hup : n.candidateUpToDate n.matchingRequest = true := candidateUpToDate_iff.mpr le_rfl
  unfold RaftNode.canVote
  rw [hup]
  cases hv : n.hardState.votedFor <;> simp [RaftNode.matchingRequest, hv]

/-- Where nothing fails the vote at the stored position is granted. -/
theorem grants_matchingRequest (n : RaftNode) (sender : PeerId) (henv : n.env = Env.calm 0) :
    ∃ f ∈ n.emitted (handleRequestVote sender n.matchingRequest), f.message.grants = true := by
  have hobserve : observeTerm n.matchingRequest.term n = .ok () n := observeTerm_of_le le_rfl
  have hvote : handleRequestVote sender n.matchingRequest n =
      grantVote sender n.matchingRequest n := by
    unfold handleRequestVote
    rw [bind_of_ok hobserve, get_bind, if_pos (canVote_matchingRequest n)]
  have hsave : saveHardState (n.castVote n.matchingRequest.candidateId) =
      .ok () (n.castVote n.matchingRequest.candidateId).savedHard := by
    rw [saveHardState_eq, show (n.castVote n.matchingRequest.candidateId).env = n.env from rfl,
      henv]
    rfl
  have hgrant : grantVote sender n.matchingRequest n =
      .ok () ((n.castVote n.matchingRequest.candidateId).savedHard.putOnWire sender
        (.requestVoteResp ⟨n.hardState.currentTerm, true⟩)) := by
    unfold grantVote
    rw [modify_bind, bind_of_ok hsave, get_bind, bind_of_ok (sendMessage_eq _ _ _),
      show (n.castVote n.matchingRequest.candidateId).savedHard.env = n.env from rfl, henv]
    rfl
  refine ⟨⟨sender, .requestVoteResp ⟨n.hardState.currentTerm, true⟩,
    (n.castVote n.matchingRequest.candidateId).savedHard.storage⟩, ?_, rfl⟩
  unfold RaftNode.emitted RaftM.after EStateM.run
  rw [hvote, hgrant]
  simp [RaftNode.putOnWire, RaftNode.savedHard, RaftNode.castVote]

theorem votesRespect_iff (n : RaftNode) (boundary : Nat ×ₗ Nat) :
    n.VotesRespect boundary ↔ boundary ≤ n.storedPosition := by
  constructor
  · intro h
    by_contra hbelow
    let calm : RaftNode := { n with env := Env.calm 0 }
    obtain ⟨f, hf, hgrants⟩ := grants_matchingRequest calm 0 rfl
    have hdenied := h.vote (Env.calm 0) 0 calm.matchingRequest (not_le.mp hbelow) f hf
    rw [hgrants] at hdenied
    exact absurd hdenied Bool.noConfusion
  · intro hb
    have hb' : ∀ env : Env, boundary ≤ RaftNode.storedPosition { n with env := env } :=
      fun _ => hb
    constructor
    · intro env sender msg hmsg f hf
      exact Ships.of_emitted (handleRequestVote_ships (hb' env) sender hmsg) hf
    · intro env sender msg hmsg f hf
      exact Ships.of_emitted (handlePreVote_ships (hb' env) sender hmsg) hf
    · intro env f hf
      refine Ships.of_emitted (P := fun m => ∀ p ∈ m.advertised, boundary ≤ p)
        (startElection_ships ?_) hf
      rintro msg hmsg p ⟨⟩
      exact (hb' env).trans_eq hmsg.symm
    · intro env f hf
      refine Ships.of_emitted (P := fun m => ∀ p ∈ m.advertised, boundary ≤ p)
        (startPreVote_ships ?_) hf
      rintro msg hmsg p ⟨⟩
      exact (hb' env).trans_eq hmsg.symm

/-- The boundary of the saved snapshot is respected, if there is one. -/
def RaftNode.VotesRespectSnapshot (n : RaftNode) : Prop :=
  ∀ m ∈ n.storage.loadSnapshotMeta, n.VotesRespect m.position

/-- The stored log reaches the saved snapshot. -/
def RaftNode.LogReachesSnapshot (n : RaftNode) : Prop :=
  ∀ m ∈ n.storage.loadSnapshotMeta, m.position ≤ n.storedPosition

/-- The four functions respect the snapshot exactly where the stored log reaches
it. -/
theorem votes_respect_snapshot_iff (n : RaftNode) :
    n.VotesRespectSnapshot ↔ n.LogReachesSnapshot := by
  constructor
  · intro h m hm
    exact (votesRespect_iff n m.position).mp (h m hm)
  · intro h m hm
    exact (votesRespect_iff n m.position).mpr (h m hm)

/-- Node 1 receives a snapshot that ends at index 5 in term 1; its log is empty
afterwards. -/
def installFive : Event :=
  .act (Env.calm 0) (.inbound ⟨2, .installSnapshot ⟨1, 2, 5, 1, 0, 0, true⟩ []⟩)

/-- The vote goes to a candidate with an empty log, and a campaign advertises an
empty log, below the boundary of the snapshot. -/
theorem empty_log_preferred_to_snapshot :
    Booted (trioNode 1 (.empty false)) ∧
      (Event.nextAll [installFive] (trioNode 1 (.empty false))).map
        (fun n => n.storage.loadSnapshotMeta) = some (some ⟨5, 1⟩) ∧
      (Event.nextAll [installFive,
          .act (Env.calm 0) (.inbound ⟨3, .requestVote ⟨2, 3, 0, 0⟩⟩)]
        (trioNode 1 (.empty false))).map (fun n => n.sent.map SentFrame.message) =
        some [.installSnapshotResp ⟨1, 0, true⟩, .requestVoteResp ⟨2, true⟩] ∧
      (Event.nextAll [installFive, .act (Env.calm 0) .startElection]
        (trioNode 1 (.empty false))).map (fun n => n.sent.map SentFrame.message) =
        some [.installSnapshotResp ⟨1, 0, true⟩, .requestVote ⟨2, 1, 0, 0⟩,
          .requestVote ⟨2, 1, 0, 0⟩] :=
  ⟨booted_trioNode_one _, rfl, rfl, rfl⟩

end ArbitroRaft
