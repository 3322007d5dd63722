import ArbitroRaft.Machine.Spares

/-!
# Tokens and answers

What an action puts on the wire, as far as the probe tokens of linearizable reads go.  An
`AppendEntries` carries the token of its sender, and no operation but `bumpReadProbe` changes
the token: `Talks`, which every effect keeps that is not about an answer (`Effect.talks`).

An answer to an `AppendEntries` leaves a node in one place only, at the end of the handler.
The effects do not say what comes last, so the handler is walked through here; `Spoke`
describes the answer, and `Action.spoke` has it for every action.
-/

namespace ArbitroRaft

open Library

/-- The answer to an `AppendEntries` message. -/
def RaftMessage.answer? : RaftMessage → Option AppendEntriesResp
  | .appendEntriesResp resp => some resp
  | _ => none

/-- The message carries `token` if it is an `AppendEntries`; it is no answer to
one. -/
structure RaftMessage.Carries (token : Nat) (m : RaftMessage) : Prop where
  probe : ∀ msg, m.appendHeader? = some msg → msg.probe = token
  mute : m.answer? = none

/-- In between the token stayed, on a `calm` stretch the responders of a campaign
too, and every frame sent says what it should. -/
structure Talks (calm : Prop) (n n' : RaftNode) : Prop where
  token : n'.readProbeSeq = n.readProbeSeq
  responders : calm → n'.scratchResponders = n.scratchResponders
  frames : ∃ l, n'.sent = n.sent ++ l ∧ ∀ x ∈ l, x.message.Carries n.readProbeSeq

/-- The scope starts no read, answers no `AppendEntries` and, if `calm`, counts no
votes. -/
structure Scope.Talks (sc : Scope) (calm : Prop) : Prop where
  mute : ∀ f, sc.rx f → f.message.appendHeader? = none
  probes : ¬ sc.probes
  polls : calm → ¬ sc.polls

section Talks

variable {sc : Scope} {calm : Prop} {n n' : RaftNode}

/-- Nothing was said. -/
theorem Talks.silent (ht : n'.readProbeSeq = n.readProbeSeq) (hs : n'.sent = n.sent)
    (hr : calm → n'.scratchResponders = n.scratchResponders) : Talks calm n n' :=
  ⟨ht, hr, [], by rw [hs, List.append_nil], fun _ hx => absurd hx List.not_mem_nil⟩

theorem Talks.of_side (h : SameSide n n') : Talks calm n n' :=
  .silent h.token h.sent fun _ => h.responders

theorem Talks.putOnWire {msg : RaftMessage} (peer : PeerId) (h : msg.Carries n.readProbeSeq) :
    Talks calm n (n.putOnWire peer msg) := by
  refine ⟨rfl, fun _ => rfl, [⟨peer, msg, n.storage⟩], rfl, fun x hx => ?_⟩
  rw [List.mem_singleton.mp hx]
  exact h

instance : Std.Refl (Talks calm) := ⟨fun n => .of_side (.refl n)⟩

instance : IsTrans RaftNode (Talks calm) where
  trans := by
    rintro n n' n'' ⟨ht, hr, l, hl, hP⟩ ⟨ht', hr', l', hl', hP'⟩
    refine ⟨ht'.trans ht, fun hc => (hr' hc).trans (hr hc), l ++ l',
      by rw [hl', hl, List.append_assoc], ?_⟩
    intro x hx
    obtain hx | hx := List.mem_append.mp hx
    · exact hP x hx
    · exact ht ▸ hP' x hx

/-- A message that is neither an `AppendEntries` nor an answer to one. -/
theorem carries_other {token : Nat} {msg : RaftMessage} (h : msg.appendHeader? = none)
    (h' : msg.answer? = none) : msg.Carries token := by
  refine ⟨fun m hm => ?_, h'⟩
  rw [h] at hm
  cases hm

theorem SendOk.carries {msg : RaftMessage} (h : SendOk sc n msg)
    (hmute : ∀ f, sc.rx f → f.message.appendHeader? = none) : msg.Carries n.readProbeSeq := by
  cases msg with
  | appendEntries m entries | appendEntriesSeeded m entries =>
    obtain ⟨-, -, -, hprobe, -⟩ := h
    refine ⟨?_, rfl⟩
    rintro _ ⟨⟩
    exact hprobe
  | appendEntriesResp m =>
    obtain ⟨-, -, f, hrx, hheard⟩ := h
    rw [hmute f hrx] at hheard
    cases hheard
  | _ => exact carries_other rfl rfl

theorem Effect.talks (h : Effect sc n n') (hsc : sc.Talks calm) : Talks calm n n' := by
  cases h.wire with
  | same _ hw hn =>
    exact .silent (hn.token.resolve_right hsc.probes) hw.sent fun hc =>
      hn.responders.resolve_right (hsc.polls hc)
  | hard _ hh =>
    cases hh with
    | granted sender msg reply =>
      cases reply with
      | false => exact .silent rfl rfl fun _ => rfl
      | true =>
        have hm : RaftMessage.Carries n.readProbeSeq
            (.requestVoteResp ⟨n.hardState.currentTerm, true⟩) := carries_other rfl rfl
        have hcast : Talks calm n (n.castVote msg.candidateId).savedHard :=
          .silent rfl rfl fun _ => rfl
        exact trans_of (Talks calm) hcast (.putOnWire sender hm)
    | _ => exact .silent rfl rfl fun _ => rfl
  | sent peer msg hok => exact .putOnWire peer (hok.carries hsc.mute)
  | acked sender msg entries hr =>
    rcases hr.rx with h | h <;> exact absurd (hsc.mute _ h) nofun

theorem Moves.talks (h : Moves sc n n') (hns : ¬ sc.strict) (hsc : sc.Talks calm) :
    Talks calm n n' :=
  h.preserves hns (refl_of (Talks calm) n) fun _ _ hm he => trans_of (Talks calm) hm (he.talks hsc)

end Talks

/-! ## The answer to an `AppendEntries` -/

/-- The frame `f` was answered at the very end: in the term the node has then, with
the token `f` carried. -/
def AnsweredTo (f : InboundRaftMessage) (m n' : RaftNode) : Prop :=
  ∃ msg resp, f.message.appendHeader? = some msg ∧ resp.probe = msg.probe ∧
    resp.term = m.hardState.currentTerm ∧
    n' = m.putOnWire f.sender (.appendEntriesResp resp)

/-- The node talked, and then answered the frame it heard or not. -/
def Spoke (calm : Prop) (heard : Option InboundRaftMessage) (n n' : RaftNode) : Prop :=
  Talks calm n n' ∨ ∃ m f, heard = some f ∧ Talks calm n m ∧ AnsweredTo f m n'

section Spoke

variable {calm : Prop} {heard : Option InboundRaftMessage} {n n' m : RaftNode} {f : InboundRaftMessage}

theorem Spoke.prepend (h : Talks calm n m) (h' : Spoke calm heard m n') : Spoke calm heard n n' := by
  obtain h' | ⟨k, f, hf, hk, ha⟩ := h'
  · exact .inl (trans_of (Talks calm) h h')
  · exact .inr ⟨k, f, hf, trans_of (Talks calm) h hk, ha⟩

/-- The frames sent, one by one. -/
theorem Spoke.frames (h : Spoke calm heard n n') :
    n'.readProbeSeq = n.readProbeSeq ∧ ∃ l, n'.sent = n.sent ++ l ∧
      (∀ x ∈ l, ∀ msg, x.message.appendHeader? = some msg → msg.probe = n.readProbeSeq) ∧
      ∀ x ∈ l, ∀ resp, x.message.answer? = some resp →
        ∃ f msg, heard = some f ∧ x.receiver = f.sender ∧ f.message.appendHeader? = some msg ∧
          msg.probe = resp.probe ∧ resp.term = n'.hardState.currentTerm := by
  obtain ⟨ht, -, l, hl, hcarry⟩ | ⟨m, f, hf, ⟨ht, -, l, hl, hcarry⟩, ha⟩ := h
  · refine ⟨ht, l, hl, fun x hx => (hcarry x hx).probe, ?_⟩
    intro x hx resp hresp
    rw [(hcarry x hx).mute] at hresp
    cases hresp
  · obtain ⟨msg, resp, hmsg, hprobe, hterm, rfl⟩ := ha
    refine ⟨ht, l ++ [⟨f.sender, .appendEntriesResp resp, m.storage⟩], ?_, ?_, ?_⟩
    · change m.sent ++ _ = _
      rw [hl, List.append_assoc]
    · intro x hx msg' hmsg'
      obtain hx | hx := List.mem_append.mp hx
      · exact (hcarry x hx).probe msg' hmsg'
      · rw [List.mem_singleton.mp hx] at hmsg'
        cases hmsg'
    · intro x hx resp' hresp'
      obtain hx | hx := List.mem_append.mp hx
      · rw [(hcarry x hx).mute] at hresp'
        cases hresp'
      · rw [List.mem_singleton.mp hx] at hresp' ⊢
        cases hresp'
        exact ⟨f, msg, hf, rfl, hmsg, hprobe.symm, hterm⟩

/-- A call after which `Spoke` holds whichever way it ends. -/
abbrev Speaks {α : Type} (calm : Prop) (heard : Option InboundRaftMessage) (m : RaftM α) (n : RaftNode) :
    Prop :=
  Ends m n (fun _ n' => Spoke calm heard n n') (fun n' => Spoke calm heard n n')

theorem Speaks.of_talks {α : Type} {c : RaftM α} {Q : α → RaftNode → Prop}
    (h : Emits (Talks calm) c n Q) : Speaks calm heard c n := by
  unfold Speaks Ends
  unfold Emits at h
  split
  · rename_i hc
    rw [hc] at h
    exact .inl h.1
  · rename_i hc
    rw [hc] at h
    exact .inl h

theorem Speaks.of_moves {α : Type} {sc : Scope} {c : RaftM α} {Q : α → RaftNode → Prop}
    (h : Emits (Moves sc) c n Q) (hns : ¬ sc.strict) (hsc : sc.Talks calm) :
    Speaks calm heard c n :=
  .of_talks (h.weaken fun _ hm => hm.talks hns hsc)

/-- What follows talk speaks. -/
theorem Speaks.after_talk {α β : Type} {c : RaftM α} {k : α → RaftM β}
    {Q : α → RaftNode → Prop} (h : Emits (Talks calm) c n Q)
    (hk : ∀ a n', Q a n' → Speaks calm heard (k a) n') : Speaks calm heard (c >>= k) n := by
  refine .seq (P := fun a n' => Talks calm n n' ∧ Q a n') ?_ ?_
  · unfold Ends
    unfold Emits at h
    split
    · rename_i hc
      rw [hc] at h
      exact h
    · rename_i hc
      rw [hc] at h
      exact .inl h
  · rintro a n' ⟨ht, hQ⟩
    exact (hk a n' hQ).mono (fun _ _ hs => .prepend ht hs) fun _ hs => .prepend ht hs

theorem respondAppend_speaks {msg : AppendEntries} (success : Bool)
    (matchIndex : RaftNode → Nat) (hm : f.message.appendHeader? = some msg) :
    Speaks calm (some f) (respondAppend f.sender msg success matchIndex) n := by
  unfold Speaks Ends
  rw [respondAppend_eq]
  dsimp only
  cases n.env.encodes (n.appendResp msg success (matchIndex n)) with
  | true => exact .inr ⟨n, f, rfl, refl_of (Talks calm) n, msg, _, hm, rfl, rfl, rfl⟩
  | false => exact .inl (refl_of (Talks calm) n)

variable {unable : Storage → Prop} {store : List LogEntry → RaftM Unit}

theorem applyAppendEntriesWith_talks (hst : Stores unable store) (notContiguous : String)
    (msg : AppendEntries) (entries : List LogEntry) (hrole : n.softState.role = .follower) :
    Emits (Talks calm) (applyAppendEntriesWith notContiguous store msg entries) n
      (fun _ _ => True) := by
  have hout := applyAppendEntriesWith_eq hst notContiguous msg entries hrole
  unfold Emits
  generalize applyAppendEntriesWith notContiguous store msg entries n = r at hout
  cases hout with
  | done => exact ⟨.of_side (.tookOver n msg entries), trivial⟩
  | refused => exact refl_of (Talks calm) n
  | cut _ rest => exact .of_side (by cases rest <;> exact .same rfl)
  | spliced => exact .of_side (.spliced n msg entries)

theorem handleAppendEntriesWith_speaks (hst : Stores unable store) (notContiguous : String)
    {msg : AppendEntries} (entries : List LogEntry) (hm : f.message.appendHeader? = some msg) :
    Speaks calm (some f) (handleAppendEntriesWith (applyAppendEntriesWith notContiguous store)
      f.sender msg entries) n := by
  unfold handleAppendEntriesWith
  refine .read ?_
  split
  · exact respondAppend_speaks _ _ hm
  · have hobs : Emits (Moves (.calling (fun _ => False) fun _ => True)) (observeTerm msg.term) n _ :=
      observeTerm_emits msg.term ⟨trivial, fun _ => trivial⟩
    refine Speaks.after_talk (hobs.weaken fun _ h => h.talks id ⟨fun _ h => h.elim, id, fun _ => id⟩) ?_
    intro _ n' _
    have hfollow : Emits (Talks calm) (modify fun n => n.followLeader msg.leaderId : RaftM PUnit) n'
        (fun _ m => m.softState.role = .follower) := .update (.silent rfl rfl fun _ => rfl) rfl
    refine .after_talk hfollow ?_
    intro _ n' hrole
    refine .read ?_
    split
    · refine Speaks.after_talk (applyAppendEntriesWith_talks hst _ _ _ hrole) ?_
      intro _ n' _
      have hadopt : Emits (Talks calm) (adoptLeaderCommit msg.leaderCommit) n' (fun _ _ => True) :=
        .update (.of_side (.adopted n' msg.leaderCommit)) trivial
      refine .after_talk hadopt ?_
      intro _ n' _
      exact respondAppend_speaks _ _ hm
    · exact respondAppend_speaks _ _ hm

theorem handleInbound_speaks (f : InboundRaftMessage) (n : RaftNode) :
    Speaks calm (some f) (handleInbound f) n := by
  cases hm : f.message.appendHeader? with
  | none =>
    have h : Emits (Moves (.calling (· = f) fun _ => True)) (handleInbound f) n _ :=
      handleInbound_emits rfl False.elim trivial
        ⟨fun _ _ _ _ => trivial, fun _ _ => ⟨trivial, fun _ => trivial⟩⟩
    exact .of_moves h id ⟨fun _ hf => hf ▸ hm, id, fun _ => id⟩
  | some msg =>
    unfold handleInbound
    have hstamp : Emits (Talks calm) (modify fun n => n.stampContact f : RaftM PUnit) n
        (fun _ _ => True) := by
      refine .update (.of_side ?_) trivial
      unfold RaftNode.stampContact
      split <;> exact .same rfl
    refine .after_talk hstamp ?_
    intro _ n' _
    obtain ⟨sender, message⟩ := f
    cases message with
    | appendEntries m entries =>
      exact handleAppendEntriesWith_speaks stores_storeEntries _ entries rfl
    | appendEntriesSeeded m entries =>
      exact handleAppendEntriesWith_speaks stores_storeEntriesSeeded _ entries rfl
    | _ => cases hm

theorem handleInboundTolerant_speaks (f : InboundRaftMessage) (n : RaftNode) :
    Speaks calm (some f) (handleInboundTolerant f) n := by
  refine .recover (handleInbound_speaks f n) ?_
  intro e n' h
  split
  · exact .fail h
  · exact .ret h

theorem gatherFrame_speaks (hm : f.message.appendHeader? ≠ none) (g : Gather) :
    Speaks calm (some f) (gatherFrame f g) n := by
  have hframe : Speaks calm (some f) (gatherDispatchFrame f g) n := by
    unfold gatherDispatchFrame
    split
    · rename_i resp hresp
      exact absurd (congrArg RaftMessage.appendHeader? hresp) hm
    · exact (handleInbound_speaks f n).seq fun _ _ h => .ret h
  refine .recover hframe fun e n' h => ?_
  split
  · exact .fail h
  · exact .ret h

theorem Action.perform_speaks {a : Action} (h : a ≠ .bumpReadProbe) (n : RaftNode) :
    Speaks (a.polls = false) a.frame a.perform n := by
  by_cases hmute : ∀ f, a.frame = some f → f.message.appendHeader? = none
  · refine .of_moves (a.perform_emits n False False.elim) id ⟨hmute, h, fun hcalm hpolls => ?_⟩
    exact absurd (hcalm.symm.trans hpolls) nofun
  · cases a with
    | inbound f => exact handleInbound_speaks f n
    | gatherFrame f g =>
      refine (gatherFrame_speaks (fun hm => hmute ?_) g).seq fun _ _ h => .ret h
      rintro _ ⟨⟩
      exact hm
    | _ => exact absurd nofun hmute

/-- What an action puts on the wire. -/
theorem Action.spoke {a : Action} (h : a ≠ .bumpReadProbe) (n : RaftNode) :
    Spoke (a.polls = false) a.frame n (a.run n) :=
  Ends.after (a.perform_speaks h n)

/-- Frames of a campaign leave the responders it counts alone. -/
theorem responders_inbound (f : InboundRaftMessage) (n : RaftNode) :
    ((Action.inbound f).run n).scratchResponders = n.scratchResponders := by
  have hne : Action.inbound f ≠ .bumpReadProbe := by simp
  obtain htalks | ⟨m, g, -, htalks, msg, resp, -, -, -, hlast⟩ := Action.spoke hne n
  · exact htalks.responders rfl
  · rw [hlast]
    exact htalks.responders rfl

end Spoke

end ArbitroRaft
