import ArbitroRaft.Machine.Batch

/-!
# A step down that storage refuses

`step_down` writes the new term in memory, saves it and demotes the node, in
this order.  When the save fails the error leaves the handler between the second
and the third: the node has the new term and its old role.  Every loop that
takes frames tolerates the error unless it is fatal, and goes on in that state.

## Main results

* `unsaved_term_not_led_iff`: when no leader or candidate of the new term is left.
-/

namespace ArbitroRaft

open Library

/-- The places where a node takes a frame off the wire. -/
inductive Inlet where
  /-- `dispatch_inbound`, `handle_inbound_tolerant`. -/
  | dispatch
  /-- A proposal that waits for acknowledgements. -/
  | gather (g : Gather)
  /-- A campaign that counts vote responses. -/
  | votes (term : Nat) (granted : List PeerId)

def Inlet.handle (f : InboundRaftMessage) : Inlet → RaftM Unit
  | dispatch => handleInboundTolerant f
  | gather g => RaftM.ignore (gatherFrame f g)
  | votes term granted => RaftM.ignore (countVoteResponses term [f] granted)

/-- The frame is of a kind whose term is adopted.  A pre-vote request only asks,
and a snapshot chunk that is cut short or no voter's is not read. -/
def RaftNode.ReadsTerm (n : RaftNode) (f : InboundRaftMessage) : Prop :=
  match f.message with
  | .preVote _ | .custom _ | .customResponse _ => False
  | .installSnapshot msg chunk =>
    chunk.length % 2 ^ 32 = msg.chunkLen ∧ f.sender ∈ n.config.peers
  | _ => True

/-- A campaign reads the first vote response of each peer. -/
def Inlet.ReadsTerm (f : InboundRaftMessage) (n : RaftNode) : Inlet → Prop
  | dispatch | gather _ => n.ReadsTerm f
  | votes _ _ => (∃ resp, f.message = .requestVoteResp resp) ∧ f.sender ∉ n.scratchResponders

section Handlers

variable {n : RaftNode} {f : InboundRaftMessage} {t : Nat}

/-- The handler stopped in the middle of a step down to `t`. -/
def StuckIn {α : Type} (n : RaftNode) (t : Nat) (r : EStateM.Result RaftError RaftNode α) : Prop :=
  ∃ e n', r = .error e n' ∧ n'.softState = n.softState ∧ n'.hardState.currentTerm = t ∧
    n'.sent = n.sent

theorem StuckIn.after {α : Type} {m : RaftM α} (h : StuckIn n t (m n)) :
    (m.after n).softState = n.softState ∧ (m.after n).hardState.currentTerm = t ∧
      (m.after n).sent = n.sent := by
  obtain ⟨e, n', hm, hrest⟩ := h
  unfold RaftM.after EStateM.run
  rw [hm]
  exact hrest

theorem StuckIn.bind {α β : Type} {m : RaftM α} {k : α → RaftM β} (h : StuckIn n t (m n)) :
    StuckIn n t ((m >>= k) n) := by
  obtain ⟨e, n', hm, hrest⟩ := h
  exact ⟨e, n', bind_of_error hm, hrest⟩

theorem stepDown_stuck (hun : n.Unsaved ⟨t, none⟩) : StuckIn n t (stepDown t n) := by
  obtain ⟨kind, hfails⟩ := Option.ne_none_iff_exists'.mp hun
  rw [stepDown_eq, hfails]
  exact ⟨_, _, rfl, rfl, rfl, rfl⟩

theorem observeTerm_stuck (habove : n.hardState.currentTerm < t) (hun : n.Unsaved ⟨t, none⟩) :
    StuckIn n t (observeTerm t n) := by
  unfold observeTerm
  rw [get_bind, if_pos habove]
  exact stepDown_stuck hun

theorem handleAppendEntriesWith_stuck (apply : AppendEntries → List LogEntry → RaftM Unit)
    (sender : PeerId) (msg : AppendEntries) (entries : List LogEntry)
    (habove : n.hardState.currentTerm < msg.term) (hun : n.Unsaved ⟨msg.term, none⟩) :
    StuckIn n msg.term (handleAppendEntriesWith apply sender msg entries n) := by
  unfold handleAppendEntriesWith
  rw [get_bind, if_neg (by omega)]
  exact (observeTerm_stuck habove hun).bind

theorem handleAppendEntriesResponse_stuck (sender : PeerId) (resp : AppendEntriesResp)
    (habove : n.hardState.currentTerm < resp.term) (hun : n.Unsaved ⟨resp.term, none⟩) :
    StuckIn n resp.term (handleAppendEntriesResponse sender resp n) := by
  unfold handleAppendEntriesResponse
  rw [get_bind, if_pos habove]
  exact stepDown_stuck hun

theorem handleInstallSnapshot_stuck (sender : PeerId) (msg : InstallSnapshot) (chunk : List UInt8)
    (hlen : chunk.length % 2 ^ 32 = msg.chunkLen) (hpeer : sender ∈ n.config.peers)
    (habove : n.hardState.currentTerm < msg.term) (hun : n.Unsaved ⟨msg.term, none⟩) :
    StuckIn n msg.term (handleInstallSnapshot sender msg chunk n) := by
  unfold handleInstallSnapshot
  rw [get_bind, if_neg (not_not.mpr hlen), if_neg (not_not.mpr hpeer), modify_bind,
    if_neg (by omega)]
  have hevicted : StuckIn n.evictStalledSnapshots msg.term
      (observeTerm msg.term n.evictStalledSnapshots) := observeTerm_stuck habove hun
  exact hevicted.bind

theorem dispatchMessage_stuck (hterm : messageTerm f.message = some t)
    (habove : n.hardState.currentTerm < t) (hun : n.Unsaved ⟨t, none⟩) (hreads : n.ReadsTerm f) :
    StuckIn n t (dispatchMessage f.sender f.message n) := by
  obtain ⟨sender, message⟩ := f
  unfold RaftNode.ReadsTerm at hreads
  cases message with
  | preVote _ => exact hreads.elim
  | custom _ => exact hreads.elim
  | customResponse _ => exact hreads.elim
  | appendEntries msg entries =>
    cases hterm
    exact handleAppendEntriesWith_stuck _ sender msg entries habove hun
  | appendEntriesSeeded msg entries =>
    cases hterm
    exact handleAppendEntriesWith_stuck _ sender msg entries habove hun
  | appendEntriesResp msg =>
    cases hterm
    exact handleAppendEntriesResponse_stuck sender msg habove hun
  | requestVote msg =>
    cases hterm
    exact (observeTerm_stuck habove hun).bind
  | requestVoteResp msg =>
    cases hterm
    exact observeTerm_stuck habove hun
  | preVoteResp msg =>
    cases hterm
    exact observeTerm_stuck habove hun
  | installSnapshot msg chunk =>
    cases hterm
    exact handleInstallSnapshot_stuck sender msg chunk hreads.1 hreads.2 habove hun
  | installSnapshotResp msg =>
    cases hterm
    exact observeTerm_stuck habove hun
  | timeoutNow msg =>
    cases hterm
    change StuckIn n msg.term (handleTimeoutNow sender msg n)
    unfold handleTimeoutNow
    rw [get_bind, if_neg (by omega)]
    exact (observeTerm_stuck habove hun).bind

/-- A frame of a later term is no contact of the current one. -/
theorem stampContact_of_above (hterm : messageTerm f.message = some t)
    (habove : n.hardState.currentTerm < t) : n.stampContact f = n := by
  unfold RaftNode.stampContact
  rw [if_neg]
  rintro ⟨-, -, hsame⟩
  have := Option.some.inj (hterm.symm.trans hsame)
  omega

theorem handleInbound_of_above (hterm : messageTerm f.message = some t)
    (habove : n.hardState.currentTerm < t) :
    handleInbound f n = dispatchMessage f.sender f.message n := by
  unfold handleInbound
  rw [modify_bind, stampContact_of_above hterm habove]

theorem gatherDispatchFrame_stuck (g : Gather) (hterm : messageTerm f.message = some t)
    (habove : n.hardState.currentTerm < t) (hun : n.Unsaved ⟨t, none⟩) (hreads : n.ReadsTerm f) :
    StuckIn n t (gatherDispatchFrame f g n) := by
  have hdispatch : StuckIn n t (handleInbound f n) := by
    rw [handleInbound_of_above hterm habove]
    exact dispatchMessage_stuck hterm habove hun hreads
  obtain ⟨sender, message⟩ := f
  cases message with
  | appendEntriesResp resp =>
    cases hterm
    change StuckIn n resp.term (processAppendResp sender resp g n)
    unfold processAppendResp
    rw [get_bind]
    cases n.scratchPending.get sender with
    | none => exact (handleAppendEntriesResponse_stuck sender resp habove hun).bind
    | some state =>
      refine StuckIn.bind ?_
      unfold advanceAppendReplication
      rw [get_bind, if_pos habove]
      exact (stepDown_stuck hun).bind
  | _ => exact hdispatch.bind

theorem countVoteResponses_stuck (term : Nat) (granted : List PeerId) {resp : RequestVoteResp}
    (hmsg : f.message = .requestVoteResp resp) (hnew : f.sender ∉ n.scratchResponders)
    (habove : n.hardState.currentTerm < resp.term) (hun : n.Unsaved ⟨resp.term, none⟩) :
    StuckIn n resp.term (countVoteResponses term [f] granted n) := by
  unfold countVoteResponses
  rw [hmsg]
  dsimp only
  refine StuckIn.bind ?_
  unfold countVoteResponse
  rw [get_bind, if_neg hnew, set_bind, if_pos habove]
  have hstuck : StuckIn (n.addResponder f.sender) resp.term
      (stepDown resp.term (n.addResponder f.sender)) := stepDown_stuck hun
  exact hstuck.bind

/-! ## Frames whose term is not read -/

/-- The term of the frame is not adopted, and a pre-vote request alone is answered. -/
def Unread (n : RaftNode) (f : InboundRaftMessage) (n' : RaftNode) : Prop :=
  n'.hardState = n.hardState ∧ (f.message.observedTerm.isSome → n'.sent = n.sent)

theorem dispatchMessage_unread (hterm : messageTerm f.message = some t) (hreads : ¬ n.ReadsTerm f) :
    Unread n f ((dispatchMessage f.sender f.message).after n) := by
  obtain ⟨sender, message⟩ := f
  unfold RaftNode.ReadsTerm at hreads
  cases message with
  | preVote msg =>
    refine ⟨?_, nofun⟩
    change ((handlePreVote sender msg).after n).hardState = n.hardState
    unfold handlePreVote RaftM.after EStateM.run
    rw [get_bind, bind_of_ok (sendMessage_eq n sender _)]
    exact hardState_replied n _ sender _
  | custom _ => cases hterm
  | customResponse _ => cases hterm
  | installSnapshot msg chunk =>
    change Unread n _ ((handleInstallSnapshot sender msg chunk).after n)
    unfold handleInstallSnapshot RaftM.after EStateM.run
    rw [get_bind]
    by_cases hlen : chunk.length % 2 ^ 32 = msg.chunkLen
    · rw [if_neg (not_not.mpr hlen), if_pos fun hpeer => hreads ⟨hlen, hpeer⟩]
      exact ⟨rfl, fun _ => rfl⟩
    · rw [if_pos hlen]
      exact ⟨rfl, fun _ => rfl⟩
  | _ => exact absurd trivial hreads

theorem handleInbound_unread (hterm : messageTerm f.message = some t)
    (habove : n.hardState.currentTerm < t) (hreads : ¬ n.ReadsTerm f) :
    Unread n f ((handleInbound f).after n) := by
  have hunread := dispatchMessage_unread hterm hreads
  unfold RaftM.after EStateM.run at hunread ⊢
  rw [handleInbound_of_above hterm habove]
  exact hunread

theorem gatherDispatchFrame_unread (g : Gather) (hterm : messageTerm f.message = some t)
    (habove : n.hardState.currentTerm < t) (hreads : ¬ n.ReadsTerm f) :
    Unread n f ((gatherDispatchFrame f g).after n) := by
  have hdispatch := handleInbound_unread hterm habove hreads
  rw [← after_return (handleInbound f) g n] at hdispatch
  obtain ⟨sender, message⟩ := f
  cases message with
  | appendEntriesResp resp => exact absurd trivial hreads
  | _ => exact hdispatch

theorem countVoteResponses_unread (term : Nat) (granted : List PeerId)
    (h : ¬ ((∃ resp, f.message = .requestVoteResp resp) ∧ f.sender ∉ n.scratchResponders)) :
    Unread n f ((countVoteResponses term [f] granted).after n) := by
  obtain ⟨sender, message⟩ := f
  cases message with
  | requestVoteResp resp =>
    have hknown : sender ∈ n.scratchResponders := by
      by_contra hnew
      exact h ⟨⟨resp, rfl⟩, hnew⟩
    have hcount : countVoteResponse term sender resp granted n = .ok (some granted) n := by
      unfold countVoteResponse
      rw [get_bind, if_pos hknown]
      rfl
    unfold countVoteResponses RaftM.after EStateM.run
    dsimp only
    rw [bind_of_ok hcount]
    exact ⟨rfl, fun _ => rfl⟩
  | _ => exact ⟨rfl, fun _ => rfl⟩

end Handlers

/-- The node acts as leader or candidate of term `t`. -/
def RaftNode.InOffice (n : RaftNode) (t : Nat) : Prop :=
  (n.softState.role = .leader ∨ n.softState.role = .candidate) ∧ n.hardState.currentTerm = t

namespace Inlet

variable {n : RaftNode} {f : InboundRaftMessage} {t : Nat}

theorem after_dispatch : (dispatch.handle f).after n = (handleInbound f).after n :=
  after_caught (handleInbound f) RaftError.isFatal () n

theorem after_gather (g : Gather) :
    ((gather g).handle f).after n = (gatherDispatchFrame f g).after n :=
  (after_ignore (gatherFrame f g) n).trans
    (after_caught (gatherDispatchFrame f g) RaftError.isFatal g n)

theorem after_stuck (inlet : Inlet) (hterm : messageTerm f.message = some t)
    (habove : n.hardState.currentTerm < t) (hun : n.Unsaved ⟨t, none⟩)
    (hreads : inlet.ReadsTerm f n) :
    ((inlet.handle f).after n).softState = n.softState ∧
      ((inlet.handle f).after n).hardState.currentTerm = t ∧
      ((inlet.handle f).after n).sent = n.sent := by
  cases inlet with
  | dispatch =>
    rw [after_dispatch]
    refine StuckIn.after ?_
    rw [handleInbound_of_above hterm habove]
    exact dispatchMessage_stuck hterm habove hun hreads
  | gather g =>
    rw [after_gather]
    exact (gatherDispatchFrame_stuck g hterm habove hun hreads).after
  | votes term granted =>
    obtain ⟨⟨resp, hmsg⟩, hnew⟩ := hreads
    rw [hmsg] at hterm
    cases hterm
    rw [handle, after_ignore]
    exact (countVoteResponses_stuck term granted hmsg hnew habove hun).after

theorem after_unread (inlet : Inlet) (hterm : messageTerm f.message = some t)
    (habove : n.hardState.currentTerm < t) (hreads : ¬ inlet.ReadsTerm f n) :
    Unread n f ((inlet.handle f).after n) := by
  cases inlet with
  | dispatch =>
    rw [after_dispatch]
    exact handleInbound_unread hterm habove hreads
  | gather g =>
    rw [after_gather]
    exact gatherDispatchFrame_unread g hterm habove hreads
  | votes term granted =>
    rw [handle, after_ignore]
    exact countVoteResponses_unread term granted hreads

end Inlet

/-- **An unsaved term.**  A frame of a later term whose step down cannot be
saved makes the node a leader or a candidate of that term unless it was a
follower or the frame's term is not read. -/
theorem unsaved_term_not_led_iff (inlet : Inlet) {n : RaftNode} {f : InboundRaftMessage} {t : Nat}
    (hterm : messageTerm f.message = some t) (habove : n.hardState.currentTerm < t)
    (hun : n.Unsaved ⟨t, none⟩) :
    ¬ ((inlet.handle f).after n).InOffice t ↔
      n.softState.role = .follower ∨ ¬ inlet.ReadsTerm f n := by
  unfold RaftNode.InOffice
  by_cases hreads : inlet.ReadsTerm f n
  · obtain ⟨hsoft, hnew, -⟩ := inlet.after_stuck hterm habove hun hreads
    rw [hsoft, hnew]
    cases n.softState.role <;> simp [hreads]
  · rw [(inlet.after_unread hterm habove hreads).1]
    simp only [hreads, not_false_eq_true, or_true, iff_true]
    omega

/-- No save succeeds. -/
def fullDisk : Env := { Env.calm 0 with saveFails := fun _ _ => some .storageFull }

/-- A follower that cannot save term 2 stays one. -/
theorem unsaved_term_not_led_iff_follower :
    ¬ ((Inlet.dispatch.handle ⟨3, .requestVote ⟨2, 3, 0, 0⟩⟩).after
      { trioNode 1 (.empty false) with env := fullDisk }).InOffice 2 := by
  have hun : RaftNode.Unsaved { trioNode 1 (.empty false) with env := fullDisk } ⟨2, none⟩ :=
    Option.some_ne_none _
  exact (unsaved_term_not_led_iff .dispatch rfl (by decide) hun).mpr (.inl rfl)

/-- The leader of term 1 hears of term 2 while its disk is full.  The frame is
tolerated, and its next heartbeat is one of term 2. -/
theorem unsaved_term_led :
    let n : RaftNode := { trioLeader with env := fullDisk }
    let f : InboundRaftMessage := ⟨3, .requestVote ⟨2, 3, 0, 0⟩⟩
    let n' := (handleInboundTolerant f).after n
    (n.hardState.currentTerm, n'.hardState.currentTerm, n'.softState.role) = (1, 2, .leader) ∧
      (((Action.bareHeartbeat 2).run n').sent.drop n'.sent.length).map
        (fun frame => messageTerm frame.message) = [some 2] := by
  decide +kernel

end ArbitroRaft
