import ArbitroRaft.Machine.StepDown

/-!
# What a campaign counts

`collect_votes` keeps two lists across its turns: who answered, and who granted.
Both are functions of the frames heard so far.  Of every sender only the first
`RequestVoteResp` is looked at, so the lists are read off the first answers.
-/

namespace ArbitroRaft

open Library

/-- The first vote response of each sender, in the order of arrival. -/
def firstAnswers : List InboundRaftMessage → List (PeerId × RequestVoteResp)
  | [] => []
  | ⟨sender, .requestVoteResp resp⟩ :: fs =>
    (sender, resp) :: (firstAnswers fs).filter (fun a => decide (a.1 ≠ sender))
  | _ :: fs => firstAnswers fs

/-- Who answered. -/
def answered (heard : List InboundRaftMessage) : List PeerId :=
  (firstAnswers heard).map Prod.fst

/-- The answer counts as a vote in `term`. -/
def RaftNode.countsVote (n : RaftNode) (term : Nat) (a : PeerId × RequestVoteResp) : Bool :=
  decide (a.2.term = term ∧ a.2.voteGranted = true ∧ a.1 ∈ n.config.peers)

/-- The votes a campaign of `n` in `term` holds: its own and those of the first
answers that grant one. -/
def RaftNode.countedVotes (n : RaftNode) (term : Nat) (heard : List InboundRaftMessage) :
    List PeerId :=
  n.config.nodeId :: ((firstAnswers heard).filter (n.countsVote term)).map Prod.fst

/-! ## First answers -/

theorem mem_of_mem_firstAnswers {heard : List InboundRaftMessage} {a : PeerId × RequestVoteResp}
    (h : a ∈ firstAnswers heard) : ⟨a.1, .requestVoteResp a.2⟩ ∈ heard := by
  induction heard with
  | nil => cases h
  | cons f fs ih =>
    obtain ⟨sender, message⟩ := f
    cases message with
    | requestVoteResp resp =>
      rcases List.mem_cons.mp h with rfl | h
      · exact List.mem_cons_self
      · exact List.mem_cons_of_mem _ (ih (List.mem_of_mem_filter h))
    | _ => exact List.mem_cons_of_mem _ (ih h)

theorem nodup_answered (heard : List InboundRaftMessage) : (answered heard).Nodup := by
  unfold answered
  induction heard with
  | nil => exact List.nodup_nil
  | cons f fs ih =>
    obtain ⟨sender, message⟩ := f
    cases message with
    | requestVoteResp resp =>
      rw [firstAnswers, List.map_cons, List.nodup_cons]
      constructor
      · intro hmem
        obtain ⟨a, ha, heq⟩ := List.mem_map.mp hmem
        exact of_decide_eq_true (List.mem_filter.mp ha).2 heq
      · exact ih.sublist (List.filter_sublist.map _)
    | _ => exact ih

theorem mem_answered_cons {sender v : PeerId} {resp : RequestVoteResp}
    {fs : List InboundRaftMessage} :
    v ∈ answered (⟨sender, .requestVoteResp resp⟩ :: fs) ↔ v = sender ∨ v ∈ answered fs := by
  unfold answered
  rw [firstAnswers, List.map_cons, List.mem_cons]
  by_cases hs : v = sender
  · simp [hs]
  · simp [hs]

/-- Later frames add the answers of senders that had not answered. -/
theorem firstAnswers_append (xs ys : List InboundRaftMessage) :
    firstAnswers (xs ++ ys) =
      firstAnswers xs ++ (firstAnswers ys).filter (fun a => decide (a.1 ∉ answered xs)) := by
  induction xs with
  | nil => simp [firstAnswers, answered]
  | cons f fs ih =>
    obtain ⟨sender, message⟩ := f
    cases message with
    | requestVoteResp resp =>
      rw [List.cons_append, firstAnswers, firstAnswers, ih, List.filter_append,
        List.cons_append, List.filter_filter]
      congr 2
      apply List.filter_congr
      intro a _
      rw [← Bool.decide_and, decide_eq_decide, mem_answered_cons, not_or, and_comm]
    | _ =>
      rw [List.cons_append]
      exact ih

theorem firstAnswers_append_frame (heard : List InboundRaftMessage) {f : InboundRaftMessage}
    {resp : RequestVoteResp} (hm : f.message = .requestVoteResp resp) :
    firstAnswers (heard ++ [f]) =
      if f.sender ∈ answered heard then firstAnswers heard
      else firstAnswers heard ++ [(f.sender, resp)] := by
  obtain ⟨sender, message⟩ := f
  obtain rfl : message = .requestVoteResp resp := hm
  rw [firstAnswers_append]
  by_cases hs : sender ∈ answered heard <;> simp [firstAnswers, hs]

theorem firstAnswers_append_other (heard : List InboundRaftMessage) {f : InboundRaftMessage}
    (hm : ∀ resp, f.message ≠ .requestVoteResp resp) :
    firstAnswers (heard ++ [f]) = firstAnswers heard := by
  obtain ⟨sender, message⟩ := f
  rw [firstAnswers_append]
  cases message with
  | requestVoteResp resp => exact absurd rfl (hm resp)
  | _ => simp [firstAnswers]

/-! ## Counting a batch -/

section Count

variable {n n₀ : RaftNode} {term : Nat}

variable {heard : List InboundRaftMessage} {f : InboundRaftMessage}

/-- A response is skipped, counted, or carries a later term. -/
theorem countVoteResponse_run {resp : RequestVoteResp} (hm : f.message = .requestVoteResp resp)
    (hr : n.scratchResponders = answered heard)
    (hle : f.sender ∉ answered heard → resp.term ≤ n.hardState.currentTerm) :
    countVoteResponse term f.sender resp (n.countedVotes term heard) n =
      .ok (some (n.countedVotes term (heard ++ [f])))
        { n with scratchResponders := answered (heard ++ [f]) } := by
  unfold countVoteResponse RaftNode.countedVotes
  rw [get_bind, hr]
  by_cases hs : f.sender ∈ answered heard
  · rw [if_pos hs, answered, firstAnswers_append_frame heard hm, if_pos hs, ← answered, ← hr]
    rfl
  · have hanswered : answered (heard ++ [f]) = answered heard ++ [f.sender] := by
      rw [answered, firstAnswers_append_frame heard hm, if_neg hs, List.map_append]
      rfl
    rw [if_neg hs, set_bind, if_neg (not_lt.mpr (hle hs)), hanswered,
      firstAnswers_append_frame heard hm, if_neg hs, List.filter_append, List.map_append,
      RaftNode.addResponder, hr]
    by_cases hv : resp.term = term ∧ resp.voteGranted = true ∧ f.sender ∈ n.config.peers
    · rw [if_pos hv, List.filter_cons_of_pos (by simpa [RaftNode.countsVote] using hv)]
      rfl
    · rw [if_neg hv, List.filter_cons_of_neg (by simpa [RaftNode.countsVote] using hv)]
      simp only [List.filter_nil, List.map_nil, List.append_nil]
      rfl

theorem countVoteResponses_cons_response {resp : RequestVoteResp}
    (hm : f.message = .requestVoteResp resp) (fs : List InboundRaftMessage)
    (granted : List PeerId) :
    countVoteResponses term (f :: fs) granted = (do
      match ← countVoteResponse term f.sender resp granted with
      | none => return none
      | some granted => countVoteResponses term fs granted) := by
  obtain ⟨sender, message⟩ := f
  subst hm
  rfl

theorem countVoteResponses_cons_other (hm : ∀ resp, f.message ≠ .requestVoteResp resp)
    (fs : List InboundRaftMessage) (granted : List PeerId) :
    countVoteResponses term (f :: fs) granted = countVoteResponses term fs granted := by
  rw [countVoteResponses]
  split
  · rename_i resp h
    exact absurd h (hm resp)
  · rfl

/-- A frame that is no response is passed over. -/
theorem countVoteResponses_pass (hm : ∀ resp, f.message ≠ .requestVoteResp resp)
    (hr : n.scratchResponders = answered heard) (fs : List InboundRaftMessage) :
    countVoteResponses term (f :: fs) (n.countedVotes term heard) =
        countVoteResponses term fs (n.countedVotes term (heard ++ [f])) ∧
      n.scratchResponders = answered (heard ++ [f]) := by
  have hsame := firstAnswers_append_other heard hm
  constructor
  · rw [countVoteResponses_cons_other hm, RaftNode.countedVotes, RaftNode.countedVotes, hsame]
  · rw [hr, answered, answered, hsame]

/-- Responses of no later term are all counted. -/
theorem countVoteResponses_run {heard batch : List InboundRaftMessage}
    (hr : n.scratchResponders = answered heard)
    (hle : ∀ f ∈ batch, ∀ resp, f.message = .requestVoteResp resp →
      resp.term ≤ n.hardState.currentTerm) :
    countVoteResponses term batch (n.countedVotes term heard) n =
      .ok (some (n.countedVotes term (heard ++ batch)))
        { n with scratchResponders := answered (heard ++ batch) } := by
  induction batch generalizing n heard with
  | nil =>
    rw [List.append_nil, ← hr]
    rfl
  | cons f fs ih =>
    have hfs : ∀ g ∈ fs, ∀ resp, g.message = .requestVoteResp resp →
        resp.term ≤ n.hardState.currentTerm := fun g hg => hle g (List.mem_cons_of_mem f hg)
    rw [List.append_cons]
    cases hm : f.message with
    | requestVoteResp resp =>
      rw [countVoteResponses_cons_response hm,
        bind_of_ok (countVoteResponse_run hm hr fun _ => hle f List.mem_cons_self resp hm)]
      exact ih (n := { n with scratchResponders := answered (heard ++ [f]) }) rfl hfs
    | _ =>
      obtain ⟨hpass, hheard⟩ := @countVoteResponses_pass n term heard f (by simp [hm]) hr fs
      rw [hpass]
      exact ih hheard hfs

/-- However a batch reads: if counting it returns a tally, that is the tally of all
frames heard. -/
theorem countVoteResponses_counts (batch : List InboundRaftMessage)
    (hr : n.scratchResponders = answered heard) :
    Ends (countVoteResponses term batch (n.countedVotes term heard)) n
      (fun r n' => r = none ∨ r = some (n.countedVotes term (heard ++ batch)) ∧
        n' = { n with scratchResponders := answered (heard ++ batch) })
      (fun _ => True) := by
  induction batch generalizing n heard with
  | nil =>
    refine .ret (.inr ⟨by rw [List.append_nil], ?_⟩)
    rw [List.append_nil, ← hr]
  | cons f fs ih =>
    rw [List.append_cons]
    cases hm : f.message with
    | requestVoteResp resp =>
      rw [countVoteResponses_cons_response hm]
      by_cases hle : f.sender ∉ answered heard → resp.term ≤ n.hardState.currentTerm
      · unfold Ends
        rw [bind_of_ok (countVoteResponse_run hm hr hle)]
        exact ih (n := { n with scratchResponders := answered (heard ++ [f]) }) rfl
      · -- a later term ends the campaign
        push Not at hle
        obtain ⟨hnew, hlt⟩ := hle
        refine .seq (P := fun r _ => r = none) ?_ ?_
        · unfold countVoteResponse
          refine .read ?_
          rw [hr, if_neg hnew, if_pos hlt]
          exact .seq Ends.any fun _ _ _ => .seq Ends.any fun _ _ _ => .ret rfl
        · rintro r n' rfl
          exact .ret (.inl rfl)
    | _ =>
      obtain ⟨hpass, hheard⟩ := @countVoteResponses_pass n term heard f (by simp [hm]) hr fs
      rw [hpass]
      exact ih hheard

end Count

end ArbitroRaft
