import ArbitroRaft.Effect.Handlers

/-!
# Campaigns as effects
-/

namespace ArbitroRaft

open Library

variable {sc : Scope} {n : RaftNode}

theorem broadcastVotes_emits {msg : RaftMessage}
    (hok : (sc.strict → Coherent n) → SendOk sc n msg) :
    Emits (Moves sc) (broadcastVotes msg) n
      (fun _ n' => WithSent (n.setScratchPeers n.otherPeers) n') := by
  unfold broadcastVotes
  refine .updateSeq (.quiet rfl) ((encodeShared_emits msg).seq ?_)
  rintro _ _ - rfl
  refine .read ?_
  have hok' : (sc.strict → Coherent (n.setScratchPeers n.otherPeers)) →
      SendOk sc (n.setScratchPeers n.otherPeers) msg := by
    intro hn
    have h := hok fun hs => (hn hs).of_sameStore ⟨rfl, rfl, rfl, rfl, rfl⟩
    cases msg <;> exact h
  refine (sendAll_emits hok' ?_).seq ?_
  · intro p hp
    obtain ⟨-, hne⟩ := List.mem_filter.mp hp
    exact addressed_of_ne (of_decide_eq_true hne)
  · rintro oks n' - ⟨hw, -⟩
    exact .ret hw

/-- What an opened campaign leaves behind. -/
structure Standing (n : RaftNode) (term : Nat) : Prop where
  member : n.config.nodeId ∈ n.config.peers
  hard : n.hardState = ⟨term, some n.config.nodeId⟩
  saved : n.storage.hardState = n.hardState
  role : n.softState.role = .candidate
  responders : n.scratchResponders = []

theorem Moves.polled (hp : sc.polls) (responders : List PeerId) :
    Moves sc n { n with scratchResponders := responders } :=
  .noted rfl ⟨.inl fun _ hs => hs, .inl rfl, .inl rfl, .inr hp⟩

theorem startElection_emits (hs : sc.stands n.core) (hp : sc.polls) :
    Emits (Moves sc) startElection n
      (fun r n' => ∀ term possible, r = some (term, possible) → Standing n' term) := by
  unfold startElection
  refine .read ?_
  split
  · exact .ret (by simp)
  · rename_i hmem
    have hsave := saveHardState_eq n.becomeCandidate
    cases hf : n.becomeCandidate.env.saveFails n.becomeCandidate.storage.hardState
        n.becomeCandidate.hardState with
    | some kind =>
      rw [hf] at hsave
      unfold Emits
      rw [modify_bind, bind_of_error hsave]
      have hu : n.Unsaved n.becomeCandidate.hardState := by
        unfold RaftNode.Unsaved
        exact hf ▸ Option.some_ne_none kind
      exact .hard (.standFailed hs (not_not.mp hmem) hu)
    | none =>
      rw [hf] at hsave
      refine .of_run ((modify_bind).trans (bind_of_ok hsave))
        (.hard (.stood hs (not_not.mp hmem))) ?_
      -- from here on the node is the saved candidate
      have hok : (sc.strict → Coherent n.becomeCandidate.savedHard) →
          SendOk sc n.becomeCandidate.savedHard (.requestVote
            (n.becomeCandidate.savedHard.voteRequest
              n.becomeCandidate.savedHard.hardState.currentTerm)) :=
        fun _ => ⟨rfl, rfl, rfl, rfl⟩
      refine .read ((broadcastVotes_emits hok).seq ?_)
      rintro possible n' - ⟨l, rfl⟩
      split
      · exact .fail
      · refine .updateSeq (.polled hp _) (.ret ?_)
        rintro term possible' h
        cases h
        exact ⟨not_not.mp hmem, rfl, rfl, rfl, rfl⟩

theorem startPreVote_emits (hp : sc.polls) : Emits (Moves sc) startPreVote n (fun _ _ => True) := by
  unfold startPreVote
  refine .read ?_
  split
  · exact .ret trivial
  · have hok : (sc.strict → Coherent n) →
        SendOk sc n (.preVote (n.voteRequest (satAdd n.hardState.currentTerm 1))) :=
      fun _ => rfl
    refine (broadcastVotes_emits hok).seq ?_
    intro possible n' _ _
    split
    · exact .ret trivial
    · exact .updateSeq (.polled hp _) (.ret trivial)

/-! ## Counting votes -/

/-- The votes counted so far are of distinct nodes that answered. -/
structure Tally (n : RaftNode) (granted : List PeerId) : Prop where
  nodup : granted.Nodup
  answered : ∀ v ∈ granted, v = n.config.nodeId ∨ v ∈ n.scratchResponders

/-- `v` is counted because of a frame of the batch. -/
def CountedFrom (n : RaftNode) (term : Nat) (batch : List InboundRaftMessage) (v : PeerId) : Prop :=
  v ∈ n.config.peers ∧ ⟨v, .requestVoteResp ⟨term, true⟩⟩ ∈ batch

/-- How counting the responses of a batch moves the tally. -/
structure Counted (n n' : RaftNode) (term : Nat) (batch : List InboundRaftMessage)
    (granted granted' : List PeerId) : Prop where
  core : n'.core = n.core
  counted : ∀ v ∈ granted', v ∈ granted ∨ CountedFrom n term batch v
  tally : Tally n granted → (∀ f ∈ batch, f.sender ≠ n.config.nodeId) → Tally n' granted'

variable {term : Nat}

theorem countVoteResponse_emits {f : InboundRaftMessage} {resp : RequestVoteResp}
    (hm : f.message = .requestVoteResp resp) (granted : List PeerId) (hr : n.Finds sc resp.term)
    (hp : sc.polls) :
    Emits (Moves sc) (countVoteResponse term f.sender resp granted) n
      (fun r n' => ∀ granted', r = some granted' →
        Counted n n' term [f] granted granted') := by
  unfold countVoteResponse
  refine .read ?_
  split
  · refine .ret ?_
    rintro granted' h
    cases h
    exact ⟨rfl, fun v hv => .inl hv, fun ht _ => ht⟩
  · rename_i hnew
    refine .putSeq (.polled hp _) ?_
    split
    · rename_i hlt
      refine (stepDown_emits (n := n.addResponder f.sender) hlt hr).seq ?_
      intro _ _ _ _
      exact .ret (by simp)
    · split
      · rename_i hg
        refine .ret ?_
        rintro granted' h
        cases h
        obtain ⟨rfl, hgr, hmem⟩ := hg
        have hf : f = ⟨f.sender, .requestVoteResp ⟨resp.term, true⟩⟩ := by
          cases f
          cases resp
          simp_all
        refine ⟨rfl, ?_, ?_⟩
        · intro v hv
          rcases List.mem_append.mp hv with hv | hv
          · exact .inl hv
          · rw [List.mem_singleton.mp hv]
            exact .inr ⟨hmem, by rw [← hf]; exact List.mem_singleton_self f⟩
        · intro ht hself
          refine ⟨?_, ?_⟩
          · refine List.nodup_append.mpr ⟨ht.nodup, List.nodup_singleton _, ?_⟩
            intro a ha b hb hab
            rw [List.mem_singleton.mp hb] at hab
            subst hab
            rcases ht.answered _ ha with h | h
            · exact hself f (List.mem_singleton_self f) h
            · exact hnew h
          · intro v hv
            rcases List.mem_append.mp hv with hv | hv
            · rcases ht.answered v hv with h | h
              · exact .inl h
              · exact .inr (List.mem_append_left _ h)
            · exact .inr (List.mem_append_right _ hv)
      · refine .ret ?_
        rintro granted' h
        cases h
        refine ⟨rfl, fun v hv => .inl hv, fun ht _ => ⟨ht.nodup, ?_⟩⟩
        intro v hv
        rcases ht.answered v hv with h | h
        · exact .inl h
        · exact .inr (List.mem_append_left _ h)

theorem Counted.refl (n : RaftNode) (term : Nat) (batch : List InboundRaftMessage)
    (granted : List PeerId) : Counted n n term batch granted granted :=
  ⟨rfl, fun _ hv => .inl hv, fun ht _ => ht⟩

theorem Counted.mono {n n' : RaftNode} {batch batch' : List InboundRaftMessage}
    {granted granted' : List PeerId} (h : Counted n n' term batch granted granted')
    (hb : batch ⊆ batch') : Counted n n' term batch' granted granted' where
  core := h.core
  counted v hv := (h.counted v hv).imp id fun hc => ⟨hc.1, hb hc.2⟩
  tally ht hself := h.tally ht fun f hf => hself f (hb hf)

theorem Counted.trans {n n' n'' : RaftNode} {batch : List InboundRaftMessage}
    {granted granted' granted'' : List PeerId} (h : Counted n n' term batch granted granted')
    (h' : Counted n' n'' term batch granted' granted'') :
    Counted n n'' term batch granted granted'' := by
  have hconfig : n'.config = n.config := congrArg Core.config h.core
  refine ⟨h'.core.trans h.core, ?_, ?_⟩
  · intro v hv
    rcases h'.counted v hv with hv | hv
    · exact h.counted v hv
    · exact .inr ⟨hconfig ▸ hv.1, hv.2⟩
  · intro ht hself
    exact h'.tally (h.tally ht hself) fun f hf => hconfig ▸ hself f hf

theorem countVoteResponses_emits (term : Nat) (batch : List InboundRaftMessage)
    (granted : List PeerId)
    (hk : ∀ f ∈ batch, ∀ t, f.message.observedTerm = some t → n.Finds sc t) (hp : sc.polls) :
    Emits (Moves sc) (countVoteResponses term batch granted) n
      (fun r n' => ∀ granted', r = some granted' →
        Counted n n' term batch granted granted') := by
  induction batch generalizing n granted with
  | nil =>
    refine .ret ?_
    rintro granted' h
    cases h
    exact Counted.refl n term [] _
  | cons f fs ih =>
    have hskip : ∀ {n' : RaftNode} {g : List PeerId}, n'.core = n.core →
        Emits (Moves sc) (countVoteResponses term fs g) n'
          (fun r n'' => ∀ granted', r = some granted' →
            Counted n' n'' term (f :: fs) g granted') := fun {n' g} hcore =>
      (ih (n := n') g fun x hx t ht =>
        (hk x (List.mem_cons_of_mem f hx) t ht).of_core hcore).mono fun _ _ _ h granted' hr =>
        (h granted' hr).mono (List.subset_cons_self f fs)
    unfold countVoteResponses
    split
    · rename_i resp hm
      refine (countVoteResponse_emits hm granted
        (hk f List.mem_cons_self resp.term (by rw [hm]; rfl)) hp).seq ?_
      intro r n' _ hr
      split
      · exact .ret (by simp)
      · rename_i granted₁
        have h₁ := (hr granted₁ rfl).mono
          (show [f] ⊆ f :: fs from List.cons_subset_cons f (List.nil_subset fs))
        refine (hskip h₁.core).mono ?_
        intro _ _ _ h granted' hr'
        exact h₁.trans (h granted' hr')
    · exact hskip rfl

/-! ## Becoming leader -/

theorem assumeLeadership_emits (hc : sc.crowns term) :
    Emits (Moves sc) (assumeLeadership term) n (fun _ _ => True) := by
  unfold assumeLeadership
  refine .read ?_
  split
  · rename_i h
    simp only [RaftNode.isCandidateOf, Bool.and_eq_true, beq_iff_eq] at h
    obtain ⟨hrole, rfl⟩ := h
    exact .putSeq (.of_effect fun _ => .crowned hrole hc) (.ret trivial)
  · exact .ret trivial

end ArbitroRaft
