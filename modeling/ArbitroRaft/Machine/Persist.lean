import ArbitroRaft.Machine.StepDown
import ArbitroRaft.Machine.Unbroken

/-!
# Persist before send

What a frame says is durable when it leaves: the term it carries, the vote it
grants and the entries it acknowledges.  The main result is
`sent_after_persisted`; saves and appends may fail in every event of the run.

A granted vote is saved first, whatever happened before.  A pre-vote request is
ahead of the durable term by design: it asks about the next one and carries it.
A term gets ahead by accident too.  The handlers change the hard state in memory
before they save it, so after a save that failed the node goes on in a term that
is not durable, until the next save succeeds; `Owing` says when.  And an
acknowledged index may have holes below it: only the first entry of a batch that
is new is checked against its position, and a transfer that completes may be
older than the snapshot it replaces.  `Event.Fair` leaves these two out.
-/

namespace ArbitroRaft

open Library

/-! ## What a frame says -/

/-- The term in memory is the durable one. -/
def RaftNode.TermSaved (n : RaftNode) : Prop :=
  n.hardState.currentTerm = n.storage.hardState.currentTerm

namespace SentFrame

/-- No frame is ahead of the durable term but a pre-vote request, and that one by
a single term. -/
structure TermSaved (f : SentFrame) : Prop where
  term : (∀ m, f.message ≠ .preVote m) → ∀ t, messageTerm f.message = some t →
    t ≤ f.stored.hardState.currentTerm
  preVote : ∀ m, f.message = .preVote m → m.term ≤ satAdd f.stored.hardState.currentTerm 1

/-- A granted vote is durable, for the candidate of the request it answers. -/
def VoteSaved (cause : Option InboundRaftMessage) (f : SentFrame) : Prop :=
  ∀ t, f.message = .requestVoteResp ⟨t, true⟩ →
    ∃ m, cause = some ⟨f.receiver, .requestVote m⟩ ∧
      f.stored.hardState = ⟨t, some m.candidateId⟩

/-- Storage holds what is acknowledged. -/
def AckSaved (f : SentFrame) : Prop :=
  ∀ m, f.message = .appendEntriesResp m → m.success = true →
    ∀ i ≤ m.matchIndex, f.stored.Holds i

end SentFrame

/-! ## The conditions -/

/-- A batch that is accepted is contiguous, and a transfer that completes is not
older than the saved snapshot. -/
def RaftNode.Fair (n : RaftNode) (f : InboundRaftMessage) : Prop :=
  match f.message with
  | .appendEntries msg entries | .appendEntriesSeeded msg entries =>
    n.hardState.currentTerm ≤ msg.term → n.prevOk msg = true →
      Contiguous LogEntry.index msg.prevLogIndex entries
  | .installSnapshot msg chunk =>
    n.Completes f.sender msg chunk → n.storage.snapshotIndex ≤ msg.lastIncludedIndex
  | _ => True

/-- Storage refuses the newer term that the action finds or stands for. -/
def Action.RaiseRefused (a : Action) (n : RaftNode) : Prop :=
  a = .startElection ∧ n.Unsaved n.becomeCandidate.hardState ∨
    ∃ f ∈ a.hears, ∃ t, f.message.observedTerm = some t ∧
      n.hardState.currentTerm < t ∧ n.Unsaved ⟨t, none⟩

namespace Event

def Fair (n : RaftNode) : Event → Prop
  | .act env a => ∀ f, a.frame = some f → (n.within env).Fair f
  | .restart _ _ => True

def RaiseRefused (n : RaftNode) : Event → Prop
  | .act env a => a.RaiseRefused (n.within env)
  | .restart _ _ => False

/-- The frame an event handles. -/
def frame : Event → Option InboundRaftMessage
  | .act _ a => a.frame
  | .restart _ _ => none

end Event

/-- An event since `n₀` failed to save a newer term, and nothing was saved since:
what is durable in `n` is what that event left. -/
def Owing (n₀ n : RaftNode) : Prop :=
  ∃ (e : Event) (m m' : RaftNode), NodeRun (fun _ _ => True) n₀ m ∧ e.next m = some m' ∧
    e.RaiseRefused m ∧ ¬ m'.TermSaved ∧ NodeRun (fun _ _ => True) m' n ∧
    n.storage.hardState = m'.storage.hardState

/-! ## Frames sent since -/

/-- The frames sent since `n` all satisfy `P`. -/
def SentSince (P : SentFrame → Prop) (n n' : RaftNode) : Prop :=
  ∃ new, n'.sent = n.sent ++ new ∧ ∀ f ∈ new, P f

namespace SentSince

variable {P : SentFrame → Prop} {n n' n'' : RaftNode}

theorem of_eq (h : n'.sent = n.sent) : SentSince P n n' :=
  ⟨[], by rw [h, List.append_nil], by simp⟩

theorem trans (h : SentSince P n n') (h' : SentSince P n' n'') : SentSince P n n'' := by
  obtain ⟨new, hs, hp⟩ := h
  obtain ⟨new', hs', hp'⟩ := h'
  refine ⟨new ++ new', by rw [hs', hs, List.append_assoc], fun f hf => ?_⟩
  rcases List.mem_append.mp hf with hf | hf
  · exact hp f hf
  · exact hp' f hf

theorem putOnWire {peer : PeerId} {msg : RaftMessage} (h : P ⟨peer, msg, n.storage⟩) :
    SentSince P n (n.putOnWire peer msg) :=
  ⟨_, rfl, fun f hf => by
    obtain rfl := List.mem_singleton.mp hf
    exact h⟩

theorem holds {new : List SentFrame} (h : SentSince P n n') (hnew : n'.sent = n.sent ++ new) :
    ∀ f ∈ new, P f := by
  obtain ⟨new', hs, hp⟩ := h
  rw [List.append_cancel_left (hnew.symm.trans hs)]
  exact hp

end SentSince

/-! ## A refused term -/

section Refused

variable {n : RaftNode} {α : Type}

/-- Nothing is sent. -/
def Mute (m : RaftM α) (n : RaftNode) : Prop :=
  Ends m n (fun _ n' => n'.sent = n.sent) (fun n' => n'.sent = n.sent)

variable {f : InboundRaftMessage} {t : Nat} (ht : f.message.observedTerm = some t)
  (hlt : n.hardState.currentTerm < t) (hu : n.Unsaved ⟨t, none⟩)

include ht hlt hu

/-- Every handler observes the term before it sends. -/
theorem Inlet.sent_of_refused (inlet : Inlet) : ((inlet.handle f).after n).sent = n.sent := by
  have hterm := messageTerm_of_observedTerm ht
  by_cases hreads : inlet.ReadsTerm f n
  · exact (inlet.after_stuck hterm hlt hu hreads).2.2
  · exact (inlet.after_unread hterm hlt hreads).2 (Option.isSome_of_eq_some ht)

end Refused

/-- Vote responses are not answered. -/
theorem countVoteResponses_mute (term : Nat) (batch : List InboundRaftMessage)
    (granted : List PeerId) (n : RaftNode) : Mute (countVoteResponses term batch granted) n := by
  induction batch generalizing n granted with
  | nil => exact .ret rfl
  | cons f fs ih =>
    unfold countVoteResponses
    split
    · refine .seq (P := fun _ n' => n'.sent = n.sent) ?_ ?_
      · unfold countVoteResponse
        refine .read ?_
        split
        · exact .ret rfl
        · refine .putSeq ?_
          split
          · refine .seq (P := fun _ n' => n'.sent = n.sent) (stepDown_ends rfl rfl) ?_
            exact fun _ _ h => h
          · split <;> exact .ret rfl
      · intro r n' h
        split
        · exact .ret h
        · exact (ih _ n').mono (fun _ _ h' => h'.trans h) fun _ h' => h'.trans h
    · exact ih granted n

variable {n : RaftNode} {a : Action}

theorem startElection_refused (hu : n.Unsaved n.becomeCandidate.hardState) :
    Mute startElection n := by
  unfold startElection
  refine .read ?_
  split
  · exact .ret rfl
  · refine .updateSeq (.seq (P := fun _ _ => False) ?_ fun _ _ h => h.elim)
    unfold Ends
    rw [saveHardState_eq]
    cases hf : n.becomeCandidate.env.saveFails n.becomeCandidate.storage.hardState
        n.becomeCandidate.hardState with
    | none => exact absurd hf hu
    | some kind => rfl

/-- An action whose newer term is refused sends nothing. -/
theorem Action.sent_of_raiseRefused (h : a.RaiseRefused n) : (a.run n).sent = n.sent := by
  have hdrop : ∀ {β : Type} {m : RaftM β}, Mute m n → ((RaftM.ignore m).after n).sent = n.sent :=
    fun hm => Ends.after (Q := fun n' => n'.sent = n.sent) (hm.seq fun _ _ h => .ret h)
  rcases h with ⟨rfl, hu⟩ | ⟨f, hf, t, ht, hlt, hu⟩
  · exact hdrop (startElection_refused hu)
  · cases a with
    | inbound f' =>
      obtain rfl := List.mem_singleton.mp hf
      have hdispatch := Inlet.sent_of_refused ht hlt hu .dispatch
      rw [Inlet.after_dispatch] at hdispatch
      exact hdispatch
    | gatherFrame f' g =>
      obtain rfl := List.mem_singleton.mp hf
      exact Inlet.sent_of_refused ht hlt hu (.gather g)
    | countVotes term batch granted => exact hdrop (countVoteResponses_mute term batch granted n)
    | advanceInstall i resp =>
      obtain rfl := List.mem_singleton.mp hf
      cases ht
      refine hdrop (.read ?_)
      rw [if_pos hlt]
      obtain ⟨e, n', hstuck, -, -, hsent⟩ := (stepDown_stuck hu).bind (k := fun _ => throw _)
      unfold Ends
      rw [hstuck]
      exact hsent
    | _ => cases hf

/-! ## One effect -/

section Effects

variable {sc : Scope} {n n' : RaftNode} {cause : Option InboundRaftMessage}

/-- A frame that an effect sends is a vote that was just saved, a message that acknowledges
nothing, or the answer to an accepted batch. -/
theorem Effect.sentSince {P : SentFrame → Prop} (he : Effect sc n n')
    (hvote : ∀ sender msg, sc.rx ⟨sender, .requestVote msg⟩ →
      P ⟨sender, .requestVoteResp ⟨n.hardState.currentTerm, true⟩,
        (n.castVote msg.candidateId).savedHard.storage⟩)
    (hsend : ∀ peer msg, SendOk sc n msg → P ⟨peer, msg, n.storage⟩)
    (hack : ∀ sender msg k, SameWire n k → n' = k.putOnWire sender (k.ackOf msg) →
      P ⟨sender, k.ackOf msg, k.storage⟩) : SentSince P n n' := by
  cases he.wire with
  | same _ hw => exact .of_eq hw.sent
  | hard _ hh =>
    cases hh with
    | granted sender msg reply hr hv =>
      cases reply with
      | false => exact .of_eq rfl
      | true => exact .putOnWire (n := (n.castVote msg.candidateId).savedHard) (hvote sender msg hr)
    | _ => exact .of_eq rfl
  | sent peer msg hok => exact .putOnWire (hsend peer msg hok)
  | acked sender msg entries =>
    have hw := SameSide.accepted n msg entries
    exact (SentSince.of_eq hw.sent).trans (.putOnWire (hack sender msg _ hw.toSameWire rfl))

theorem Effect.voteSaved (he : Effect sc n n') (hrx : ∀ f, sc.rx f → cause = some f) :
    SentSince (SentFrame.VoteSaved cause) n n' := by
  refine he.sentSince ?_ ?_ ?_
  · intro sender msg hr t ht
    simp only [RaftMessage.requestVoteResp.injEq, RequestVoteResp.mk.injEq] at ht
    exact ⟨msg, hrx _ hr, by rw [← ht.1]; rfl⟩
  · rintro peer msg hok t rfl
    exact absurd hok.2 (by simp)
  · intro sender msg k _ _ t ht
    cases ht

/-- A message that answers nothing carries the term of the sender. -/
theorem SendOk.termSaved {msg : RaftMessage} (hok : SendOk sc n msg) (h : n.TermSaved)
    (peer : PeerId) : SentFrame.TermSaved ⟨peer, msg, n.storage⟩ := by
  unfold RaftNode.TermSaved at h
  refine ⟨?_, ?_⟩
  · intro hpre t ht
    dsimp only at hpre ht ⊢
    rw [← h]
    cases msg with
    | preVote m => exact absurd rfl (hpre m)
    | custom | customResponse => cases ht
    | requestVote m =>
      cases ht
      rw [hok.1]
      exact le_rfl
    | preVoteResp m | installSnapshotResp m | timeoutNow m =>
      cases ht
      exact hok.le
    | _ =>
      cases ht
      exact hok.1.le
  · rintro m rfl
    dsimp only
    rw [← h]
    exact hok.le

theorem Effect.termSaved (he : Effect sc n n') (h : n.TermSaved) :
    SentSince SentFrame.TermSaved n n' := by
  refine he.sentSince ?_ (fun peer msg hok => hok.termSaved h peer) ?_
  · intro sender msg _
    refine ⟨?_, by simp⟩
    rintro - t ht
    cases ht
    exact le_rfl
  · intro sender msg k hw _
    refine ⟨?_, by simp [RaftNode.ackOf, RaftNode.appendResp]⟩
    rintro - t ht
    cases ht
    rw [hw.hard, hw.durable]
    exact h.le

/-- Saving brings memory and storage together, and only a refused term takes them
apart. -/
theorem Effect.saves (he : Effect sc n n')
    (hdown : ∀ t, n.hardState.currentTerm < t → ¬ sc.refuses t)
    (hstand : sc.stands n.core → ¬ n.Unsaved n.becomeCandidate.hardState) :
    n'.TermSaved ∨ n'.storage.hardState = n.storage.hardState ∧
      n'.hardState.currentTerm = n.hardState.currentTerm := by
  cases he.wire with
  | same _ hw => exact .inr ⟨hw.durable, congrArg HardState.currentTerm hw.hard⟩
  | hard _ hh =>
    cases hh with
    | stepDownFailed t hlt _ _ href => exact absurd href (hdown t hlt)
    | standFailed hs _ hu => exact absurd hu (hstand hs)
    | abdicationFailed => exact .inr ⟨rfl, rfl⟩
    | grantFailed => exact .inr ⟨rfl, rfl⟩
    | granted sender msg reply => cases reply <;> exact .inl rfl
    | _ => exact .inl rfl
  | sent peer msg => exact .inr ⟨rfl, rfl⟩
  | acked sender msg entries =>
    have hw := SameSide.accepted n msg entries
    exact .inr ⟨hw.durable, congrArg HardState.currentTerm hw.hard⟩

/-- Storage has no holes below what it says. -/
structure UnbrokenInv (n : RaftNode) : Prop where
  anchored : Anchored n
  unbroken : n.storage.Unbroken

theorem Effect.ackSaved (he : Effect sc n n') (h : UnbrokenInv n)
    (hc : ∀ sender msg entries, Receives sc n sender msg entries →
      Contiguous LogEntry.index msg.prevLogIndex entries)
    (hi : ∀ sender msg chunk, sc.rx ⟨sender, .installSnapshot msg chunk⟩ →
      sc.completes sender msg chunk → Arrived sc n →
      n.storage.snapshotIndex ≤ msg.lastIncludedIndex) :
    UnbrokenInv n' ∧ SentSince SentFrame.AckSaved n n' := by
  have hanch := logInvariant_anchored.effect he h.anchored
  have hunbr : n'.storage.Unbroken := by
    rcases he.store with hs | hl
    · exact h.unbroken.of_sameStore hs
    · exact hl.unbroken h.unbroken h.anchored hc hi
  refine ⟨⟨hanch, hunbr⟩, he.sentSince ?_ ?_ ?_⟩
  · intro sender msg _ m hm
    cases hm
  · rintro peer msg hok m rfl hs
    rw [hok.2.1] at hs
    cases hs
  · -- the acknowledged tip is held, and so is everything below it
    rintro sender msg k - rfl m hm - i hle
    simp only [RaftNode.ackOf, RaftNode.appendResp, RaftMessage.appendEntriesResp.injEq] at hm
    subst hm
    exact hunbr _ i hanch.tip hle

end Effects

/-! ## Actions and events -/

theorem Action.voteSaved (a : Action) (n : RaftNode) :
    SentSince (SentFrame.VoteSaved a.frame) n (a.run n) :=
  Action.preserves (P := SentSince (SentFrame.VoteSaved a.frame) n) (.of_eq rfl)
    fun _ _ hm he => hm.trans (he.voteSaved fun _ hf => hf)

/-- Without a refused term: memory and storage agree afterwards, or they did not
before and nothing was saved; and a node that starts with its term saved is not
ahead of it. -/
theorem Action.saves (h : ¬ a.RaiseRefused n) :
    ((a.run n).TermSaved ∨ ¬ n.TermSaved ∧
      (a.run n).storage.hardState = n.storage.hardState) ∧
      (n.TermSaved → SentSince SentFrame.TermSaved n (a.run n)) := by
  have hall := Action.preserves (a := a) (n := n)
    (P := fun m => n.hardState.currentTerm ≤ m.hardState.currentTerm ∧
      (m.TermSaved ∨ ¬ n.TermSaved ∧ m.storage.hardState = n.storage.hardState) ∧
      (n.TermSaved → SentSince SentFrame.TermSaved n m))
    ⟨le_rfl, (em n.TermSaved).imp_right fun hn => ⟨hn, rfl⟩, fun _ => .of_eq rfl⟩ ?_
  · exact hall.2
  rintro m m' ⟨hle, hsync, hsent⟩ he
  refine ⟨hle.trans he.term_le, ?_, fun hn => ?_⟩
  · have hstep := he.saves
      (fun t hlt ⟨⟨f, hf, ht⟩, hu⟩ => h (.inr ⟨f, hf, t, ht, hle.trans_lt hlt, hu⟩))
      (fun ⟨ha, hcore⟩ hu => h (.inl ⟨ha, ?_⟩))
    · rcases hstep with hs | ⟨hdur, hterm⟩
      · exact .inl hs
      · refine hsync.imp (fun hs => ?_) fun hs => ⟨hs.1, hdur.trans hs.2⟩
        unfold RaftNode.TermSaved
        rw [hterm, hdur]
        exact hs
    · have hhard : m.becomeCandidate.hardState = n.becomeCandidate.hardState := by
        unfold RaftNode.becomeCandidate
        dsimp only
        rw [show m.hardState = n.hardState from congrArg Core.hardState hcore,
          show m.config = n.config from congrArg Core.config hcore]
      exact hhard ▸ RaftNode.Unsaved.of_core hcore.symm hu
  · exact (hsent hn).trans (he.termSaved (hsync.resolve_right fun hs => hs.1 hn))

theorem Action.ackSaved (h : UnbrokenInv n) (hfair : ∀ f, a.frame = some f → n.Fair f) :
    UnbrokenInv (a.run n) ∧ SentSince SentFrame.AckSaved n (a.run n) := by
  refine Action.preserves (P := fun m => UnbrokenInv m ∧ SentSince SentFrame.AckSaved n m)
    ⟨h, .of_eq rfl⟩ ?_
  rintro m m' ⟨hm, hms⟩ he
  obtain ⟨hm', hms'⟩ := he.ackSaved hm (by
    intro sender msg entries hr
    obtain ⟨hlog, hterm⟩ := hr.arrived
    have hprev : n.prevOk msg = true := hlog.prevOk msg ▸ hr.prevOk
    rcases hr.rx with hrx | hrx
    · exact hfair _ hrx hterm hprev
    · exact hfair _ hrx hterm hprev) (by
    intro sender msg chunk hrx hcomp harr
    have hle := hfair _ hrx hcomp
    simp only [Storage.snapshotIndex, Storage.loadSnapshotMeta, harr.of_scope.snapshot]
    exact hle)
  exact ⟨hm', hms.trans hms'⟩

namespace Event

variable {e : Event} {n n' : RaftNode}

theorem sent_append (hnext : e.next n = some n') :
    SentSince (SentFrame.VoteSaved e.frame) n n' := by
  cases e with
  | act env a =>
    cases hnext
    exact a.voteSaved (n.within env)
  | restart env config =>
    obtain ⟨-, rfl⟩ := Event.next_restart hnext
    exact .of_eq rfl

theorem saves (hnext : e.next n = some n') :
    (n'.TermSaved ∨ e.RaiseRefused n ∨ ¬ n.TermSaved ∧
      n'.storage.hardState = n.storage.hardState) ∧
      (n.TermSaved → SentSince SentFrame.TermSaved n n') := by
  cases e with
  | act env a =>
    cases hnext
    by_cases h : a.RaiseRefused (n.within env)
    · exact ⟨.inr (.inl h), fun _ => .of_eq (Action.sent_of_raiseRefused h)⟩
    · obtain ⟨hsync, hsent⟩ := Action.saves h
      exact ⟨hsync.imp_right .inr, hsent⟩
  | restart env config =>
    obtain ⟨-, rfl⟩ := Event.next_restart hnext
    exact ⟨.inl rfl, fun _ => .of_eq rfl⟩

theorem ackSaved (h : UnbrokenInv n) (hok : e.Fair n) (hnext : e.next n = some n') :
    UnbrokenInv n' ∧ SentSince SentFrame.AckSaved n n' := by
  cases e with
  | act env a =>
    cases hnext
    have hw : UnbrokenInv (n.within env) := ⟨⟨h.anchored.tip, h.anchored.arena⟩, h.unbroken⟩
    exact Action.ackSaved hw hok
  | restart env config =>
    obtain ⟨-, rfl⟩ := Event.next_restart hnext
    exact ⟨⟨RaftNode.anchored_fromStorage _ _ _ _, h.unbroken⟩, .of_eq rfl⟩

end Event

/-! ## Runs -/

/-- The term in memory is saved unless a failed save is outstanding. -/
theorem NodeRun.termSaved_or_owing {n₀ n : RaftNode} (h₀ : Booted n₀)
    (h : NodeRun (fun _ _ => True) n₀ n) : n.TermSaved ∨ Owing n₀ n := by
  induction h with
  | refl =>
    obtain ⟨config, storage, env, rfl⟩ := h₀.eq
    exact .inl rfl
  | tail hrun hs ih =>
    obtain ⟨e, -, hnext⟩ := hs
    rename_i m m'
    by_cases hm' : m'.TermSaved
    · exact .inl hm'
    · right
      rcases ((Event.saves hnext).1.resolve_left hm') with href | ⟨hm, hdur⟩
      · exact ⟨e, m, m', hrun, hnext, href, hm', .refl, rfl⟩
      · obtain ⟨e₁, k, k', hk, hnext₁, href, hk', hrun', hdur'⟩ := ih.resolve_left hm
        exact ⟨e₁, k, k', hk, hnext₁, href, hk', hrun'.tail ⟨e, trivial, hnext⟩,
          hdur.trans hdur'⟩

/-- The terms of the frames a node sent, with the durable term at that moment. -/
def sentTerms (n : RaftNode) : List (Option Nat × Nat) :=
  n.sent.map fun f => (messageTerm f.message, f.stored.hardState.currentTerm)

/-- The frames a node sent, with the snapshot and the entries that storage had. -/
def sentLogs (n : RaftNode) : List (RaftMessage × Nat × List Nat) :=
  n.sent.map fun f =>
    (f.message, f.stored.snapshotIndex, f.stored.entries.map LogEntry.index)

end ArbitroRaft
