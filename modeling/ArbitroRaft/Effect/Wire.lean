import ArbitroRaft.Effect.Basic

/-!
# Demotion, sends and term lookups as effects

The building blocks the handlers share.
-/

namespace ArbitroRaft

open Library

variable {sc : Scope} {n : RaftNode}

/-! ## Hard state -/

theorem saveHardState_eq (n : RaftNode) :
    saveHardState n =
      match n.env.saveFails n.storage.hardState n.hardState with
      | some kind => .error (.io kind) n
      | none => .ok () n.savedHard := by
  unfold saveHardState
  rw [get_bind]
  cases n.env.saveFails n.storage.hardState n.hardState <;> rfl

theorem stepDown_eq (t : Nat) (n : RaftNode) :
    stepDown t n =
      match n.env.saveFails n.storage.hardState ⟨t, none⟩ with
      | some kind => .error (.io kind) (n.withHard ⟨t, none⟩)
      | none => .ok () (n.withHard ⟨t, none⟩).savedHard.demoteToFollowerKeepTerm := by
  have hsave := saveHardState_eq (n.withHard ⟨t, none⟩)
  have henv : (n.withHard ⟨t, none⟩).env.saveFails (n.withHard ⟨t, none⟩).storage.hardState
      (n.withHard ⟨t, none⟩).hardState =
      n.env.saveFails n.storage.hardState ⟨t, none⟩ := rfl
  change EStateM.bind saveHardState (fun _ => modify RaftNode.demoteToFollowerKeepTerm)
    (n.withHard ⟨t, none⟩) = _
  rw [EStateM.bind, hsave, henv]
  cases n.env.saveFails n.storage.hardState ⟨t, none⟩ <;> rfl

variable {t : Nat} {n' : RaftNode} {peer : PeerId} {msg : RaftMessage}

theorem stepDown_ends {Q : Unit → RaftNode → Prop} {E : RaftNode → Prop}
    (hsaved : Q () (n.withHard ⟨t, none⟩).savedHard.demoteToFollowerKeepTerm)
    (hunsaved : E (n.withHard ⟨t, none⟩)) : Ends (stepDown t) n Q E := by
  unfold Ends
  rw [stepDown_eq]
  cases n.env.saveFails n.storage.hardState ⟨t, none⟩ with
  | some kind => exact hunsaved
  | none => exact hsaved

theorem observeTerm_of_le (h : t ≤ n.hardState.currentTerm) : observeTerm t n = .ok () n := by
  unfold observeTerm
  rw [get_bind, if_neg (not_lt.mpr h)]
  rfl

theorem observeTerm_ends {Q : Unit → RaftNode → Prop} {E : RaftNode → Prop}
    (hsaved : n.hardState.currentTerm < t →
      Q () (n.withHard ⟨t, none⟩).savedHard.demoteToFollowerKeepTerm)
    (hunsaved : n.hardState.currentTerm < t → E (n.withHard ⟨t, none⟩)) (hsame : Q () n) :
    Ends (observeTerm t) n Q E := by
  unfold observeTerm
  refine .read ?_
  split
  · rename_i hlt
    exact stepDown_ends (hsaved hlt) (hunsaved hlt)
  · exact .ret hsame

theorem stepDown_emits (h : n.hardState.currentTerm < t) (hr : n.Finds sc t) :
    Emits (Moves sc) (stepDown t) n
      (fun _ n' => SameLog n n' ∧ n'.hardState.currentTerm = t ∧
        n'.softState.role = .follower) := by
  unfold Emits
  rw [stepDown_eq]
  cases hf : n.env.saveFails n.storage.hardState ⟨t, none⟩ with
  | some kind =>
    have hu : n.Unsaved ⟨t, none⟩ := by simp [RaftNode.Unsaved, hf]
    exact .hard (.stepDownFailed t h hr.1 hu (hr.2 hu))
  | none =>
    have he : HardEffect sc n _ := .steppedDown t h hr.1
    exact ⟨.hard he, he.sameLog, rfl, rfl⟩

/-- A step down in the own term forgets the vote. -/
theorem stepDown_self_emits (hd : sc.demotes n.core) (hl : n.isLeader = true) :
    Emits (Moves sc) (stepDown n.hardState.currentTerm) n (fun _ n' => SameLog n n') := by
  unfold Emits
  rw [stepDown_eq]
  cases hf : n.env.saveFails n.storage.hardState ⟨n.hardState.currentTerm, none⟩ with
  | some kind =>
    exact .hard (.abdicationFailed hd hl (by simp [RaftNode.Unsaved, hf]))
  | none =>
    have he : HardEffect sc n _ := .abdicated hd hl
    exact ⟨.hard he, he.sameLog⟩

/-- A newer term is saved before the node follows it. -/
inductive Observed (n : RaftNode) (t : Nat) : RaftNode → Prop
  | kept : t ≤ n.hardState.currentTerm → Observed n t n
  | steppedDown : n.hardState.currentTerm < t → ¬ n.Unsaved ⟨t, none⟩ →
      Observed n t (n.withHard ⟨t, none⟩).savedHard.demoteToFollowerKeepTerm

theorem Observed.sameLog (h : Observed n t n') : SameLog n n' := by
  cases h <;> exact ⟨⟨rfl, rfl, rfl, rfl, rfl⟩, rfl, rfl, rfl⟩

theorem observeTerm_observed (t : Nat) (hr : n.Finds sc t) :
    Emits (Moves sc) (observeTerm t) n (fun _ n' => Observed n t n') := by
  unfold observeTerm
  refine .read ?_
  split
  · rename_i h
    have hmoves := stepDown_emits h hr
    unfold Emits at hmoves ⊢
    rw [stepDown_eq] at hmoves ⊢
    cases hf : n.env.saveFails n.storage.hardState ⟨t, none⟩ with
    | some kind =>
      rw [hf] at hmoves
      exact hmoves
    | none =>
      rw [hf] at hmoves
      exact ⟨hmoves.1, .steppedDown h (not_not.mpr hf)⟩
  · rename_i h
    exact .ret (.kept (Nat.le_of_not_lt h))

theorem observeTerm_emits (t : Nat) (hr : n.Finds sc t) :
    Emits (Moves sc) (observeTerm t) n
      (fun _ n' => SameLog n n' ∧ n'.hardState.currentTerm = max n.hardState.currentTerm t) := by
  refine (observeTerm_observed t hr).mono ?_
  intro _ _ _ hobs
  refine ⟨hobs.sameLog, ?_⟩
  cases hobs with
  | kept h => exact (max_eq_left h).symm
  | steppedDown h => exact (max_eq_right h.le).symm

/-! ## Sends -/

/-- Only the wire changed. -/
def WithSent (n n' : RaftNode) : Prop := ∃ l, n' = { n with sent := l }

theorem WithSent.refl (n : RaftNode) : WithSent n n := ⟨n.sent, rfl⟩

theorem WithSent.trans {n n' n'' : RaftNode} (h : WithSent n n') (h' : WithSent n' n'') :
    WithSent n n'' := by
  obtain ⟨l, rfl⟩ := h
  obtain ⟨l', rfl⟩ := h'
  exact ⟨l', rfl⟩

theorem WithSent.coherent (h : WithSent n n') (hn : Coherent n') : Coherent n := by
  obtain ⟨l, rfl⟩ := h
  exact hn.of_sameStore ⟨rfl, rfl, rfl, rfl, rfl⟩

theorem sendMessage_eq (n : RaftNode) (peer : PeerId) (msg : RaftMessage) :
    sendMessage peer msg n =
      .ok (n.env.encodes msg && n.env.reachable peer)
        (n.replied (n.env.encodes msg) peer msg) := by
  unfold sendMessage RaftNode.replied
  rw [get_bind]
  cases n.env.encodes msg <;> rfl

theorem sendMessage_emits (hok : (sc.strict → Coherent n) → SendOk sc n msg)
    (ha : Addressed sc n peer msg) :
    Emits (Moves sc) (sendMessage peer msg) n (fun _ n' => WithSent n n') := by
  unfold sendMessage
  refine .read ?_
  split
  · exact .putSeq (.of_effect fun hn => .sent peer msg (hok hn) ha)
      (.ret ⟨_, rfl⟩)
  · exact .ret (WithSent.refl n)

/-- A send whose outcome nobody looks at. -/
theorem sendOnly_emits (hok : (sc.strict → Coherent n) → SendOk sc n msg)
    (ha : Addressed sc n peer msg) :
    Emits (Moves sc)
      (do
        let _ ← sendMessage peer msg
        return ())
      n (fun _ n' => WithSent n n') := by
  refine (sendMessage_emits hok ha).seq ?_
  intro _ _ _ hw
  exact .ret hw

/-- What a frame says about its sender does not depend on earlier frames. -/
theorem SendOk.withSent (h : SendOk sc n msg) (hw : WithSent n n') : SendOk sc n' msg := by
  obtain ⟨l, rfl⟩ := hw
  cases msg <;> exact h

theorem sendAll_emits {peers : List PeerId} (hok : (sc.strict → Coherent n) → SendOk sc n msg)
    (ha : ∀ p ∈ peers, Addressed sc n p msg) :
    Emits (Moves sc) (sendAll msg peers) n
      (fun oks n' => WithSent n n' ∧ oks.Sublist peers) := by
  induction peers generalizing n with
  | nil => exact .ret ⟨WithSent.refl n, List.Sublist.refl _⟩
  | cons peer rest ih =>
    unfold sendAll
    refine (sendMessage_emits hok (ha peer List.mem_cons_self)).seq ?_
    rintro ok n' - hw
    have hrest : ∀ p ∈ rest, Addressed sc n' p msg := by
      obtain ⟨l, rfl⟩ := hw
      exact fun p hp => ha p (List.mem_cons_of_mem peer hp)
    have hok' : (sc.strict → Coherent n') → SendOk sc n' msg := fun hn =>
      (hok fun hs => hw.coherent (hn hs)).withSent hw
    refine (ih hok' hrest).seq ?_
    rintro oks n'' - ⟨hw', hsub⟩
    refine .ret ⟨hw.trans hw', ?_⟩
    cases ok
    · exact hsub.cons peer
    · exact hsub.cons_cons peer

theorem encodeShared_emits (msg : RaftMessage) :
    Emits (Moves sc) (encodeShared msg) n (fun _ n' => n' = n) := by
  unfold encodeShared
  refine .read ?_
  split
  · exact .ret rfl
  · exact .fail

theorem addressed_of_ne (h : peer ≠ n.config.nodeId) : Addressed sc n peer msg :=
  fun _ => .inl h

theorem addressed_of_rx {msg reply : RaftMessage} (h : sc.rx ⟨peer, msg⟩) :
    Addressed sc n peer reply :=
  fun _ => .inr ⟨_, h, rfl⟩

/-- Outside of a strict scope only vote requests have to be addressed. -/
theorem addressed_of_strict (h : sc.strict → peer ≠ n.config.nodeId)
    (hm : ∀ m, msg ≠ .requestVote m) : Addressed sc n peer msg := by
  rintro (hs | ⟨m, rfl⟩)
  · exact .inl (h hs)
  · exact absurd rfl (hm m)

theorem addressed_replicationTargets (h : peer ∈ n.replicationTargets) :
    Addressed sc n peer msg := by
  obtain ⟨-, hne⟩ := List.mem_filter.mp h
  exact addressed_of_ne (of_decide_eq_true hne)

/-! ## Term lookups -/

/-- Only the wire and the arena changed. -/
def Touched (n n' : RaftNode) : Prop := ∃ a l, n' = { n with logMetadata := a, sent := l }

theorem Touched.refl (n : RaftNode) : Touched n n := ⟨n.logMetadata, n.sent, rfl⟩

theorem Touched.cached (h : Touched n n') : n'.core.cachedLastLog = n.cachedLastLog := by
  obtain ⟨a, l, rfl⟩ := h
  rfl

theorem Touched.trans {n n' n'' : RaftNode} (h : Touched n n') (h' : Touched n' n'') :
    Touched n n'' := by
  obtain ⟨a, l, rfl⟩ := h
  obtain ⟨a', l', rfl⟩ := h'
  exact ⟨a', l', rfl⟩

theorem WithSent.touched (h : WithSent n n') : Touched n n' := by
  obtain ⟨l, rfl⟩ := h
  exact ⟨_, l, rfl⟩

instance : Std.Refl Touched where
  refl := .refl

instance : IsTrans RaftNode Touched where
  trans _ _ _ := .trans

theorem sendMessage_touched (peer : PeerId) (msg : RaftMessage) :
    Emits Touched (sendMessage peer msg) n (fun _ _ => True) := by
  unfold Emits
  rw [sendMessage_eq]
  refine ⟨?_, trivial⟩
  unfold RaftNode.replied
  split
  · exact ⟨_, _, rfl⟩
  · exact .refl n

theorem termAt_touched (index : Nat) : Emits Touched (termAt index) n (fun _ _ => True) := by
  unfold termAt
  refine .read ?_
  split
  · exact .ret trivial
  · split
    · exact .ret trivial
    · split
      · exact .ret trivial
      · split
        · exact .ret trivial
        · split
          · exact .putSeq ⟨_, _, rfl⟩ (.ret trivial)
          · exact .fail

theorem appendPrevForPeer_touched (peer : PeerId) :
    Emits Touched (appendPrevForPeer peer) n (fun _ _ => True) := by
  unfold appendPrevForPeer
  refine .read ?_
  split
  · exact .fail
  · refine (termAt_touched _).seq ?_
    intro _ _ _ _
    exact .ret trivial

/-- An append leaves everything but the arena and the wire alone. -/
theorem sendAppendAttempt_touched (peer : PeerId) :
    Emits Touched (sendAppendAttempt peer) n (fun _ _ => True) := by
  unfold sendAppendAttempt
  refine (appendPrevForPeer_touched peer).seq ?_
  rintro ⟨prevIndex, prevTerm, nextIndex⟩ n' - -
  refine .read ((sendMessage_touched peer _).seq ?_)
  intro _ _ _ _
  exact .ret trivial

/-- On an uncompacted node a known term is that of the entry. -/
theorem TermKnown.eq_lastTerm (hn : Coherent n) {index t : Nat} (h : TermKnown n index t) :
    index ≤ n.storage.entries.length ∧
      t = lastTerm ((absLog n.storage.entries).take index) := by
  have hstored : ∀ u, n.storage.termAt index = some u →
      index ≤ n.storage.entries.length ∧
        u = lastTerm ((absLog n.storage.entries).take index) := by
    intro u hu
    cases index with
    | zero =>
      rw [Storage.termAt_zero hn.contiguous] at hu
      cases hu
    | succ i =>
      rw [Storage.termAt_succ hn.contiguous] at hu
      obtain ⟨e, he, rfl⟩ := Option.map_eq_some_iff.mp hu
      have hlt := (List.getElem?_eq_some_iff.mp he).1
      rw [absLog_length] at hlt
      exact ⟨hlt, (lastTerm_take he).symm⟩
  rcases h with ⟨rfl, rfl⟩ | h | h | h | h
  · exact ⟨Nat.zero_le _, rfl⟩
  · rw [hn.cached, Prod.mk.injEq] at h
    obtain ⟨rfl, rfl⟩ := h
    exact ⟨le_rfl, by rw [List.take_of_length_le (by simp)]⟩
  · exact hstored t (hn.arena index t h)
  · rw [hn.boundary, Prod.mk.injEq] at h
    obtain ⟨rfl, rfl⟩ := h
    exact ⟨Nat.zero_le _, rfl⟩
  · exact hstored t h

theorem termAt_emits (index : Nat) :
    Emits (Moves sc) (termAt index) n
      (fun t n' => Touched n n' ∧ TermKnown n' index t) := by
  unfold termAt
  refine .read ?_
  split
  · exact .ret ⟨.refl n, .inl ⟨by assumption, rfl⟩⟩
  · split
    · rename_i h
      exact .ret ⟨.refl n, .inr (.inl (by rw [h]))⟩
    · split
      · rename_i t ht
        exact .ret ⟨.refl n, .inr (.inr (.inl ht))⟩
      · split
        · rename_i h
          exact .ret ⟨.refl n, .inr (.inr (.inr (.inl (by rw [h]))))⟩
        · split
          · rename_i t ht
            exact .putSeq (.log (.learned index t ht))
              (.ret ⟨⟨_, _, rfl⟩, .inr (.inr (.inr (.inr ht)))⟩)
          · exact .fail

/-! ## AppendEntries frames -/

theorem appendPrevForPeer_emits (peer : PeerId) :
    Emits (Moves sc) (appendPrevForPeer peer) n
      (fun r n' => Touched n n' ∧ r.1 = r.2.2 - 1 ∧ TermKnown n' r.1 r.2.1) := by
  unfold appendPrevForPeer
  refine .read ?_
  split
  · exact .fail
  · refine (termAt_emits _).seq ?_
    rintro t n' - ⟨hw, ht⟩
    exact .ret ⟨hw, rfl, ht⟩

/-- The backlog of an uncompacted node is read off its positions. -/
theorem Coherent.backlog_eq (hn : Coherent n) (next : Nat) :
    n.backlog next = (n.storage.entries.drop (next - 1)).take
      (max n.config.limits.appendBatchEntries 1) := by
  unfold RaftNode.backlog Storage.readEntries
  rw [← Nat.zero_add 1, ← hn.contiguous.filter_ge next]
  congr 1
  refine List.filter_congr ?_
  intro e he
  have hb := hn.bounded
  have hidx := (hn.contiguous.bounds he).2
  simp only [maxEntries] at hb
  have hlt : e.index < u64Max := by
    simp only [u64Max]
    omega
  simp only [hlt, and_true]

/-- A stretch of the own log is a slice of it. -/
theorem Coherent.slice (hn : Coherent n) {prev t k : Nat} (h : TermKnown n prev t) :
    Slice (absLog n.storage.entries) prev t ((n.storage.entries.drop prev).take k) := by
  obtain ⟨hle, ht⟩ := h.eq_lastTerm hn
  refine ⟨?_, by rwa [absLog_length], ht, ?_⟩
  · have := hn.contiguous.drop hle
    rw [Nat.zero_add] at this
    exact this.take k
  · rw [absLog_take, absLog_drop]
    exact List.take_prefix _ _

theorem sendAppendAttempt_emits (hl : sc.strict → n.isLeader = true)
    (ha : ∀ msg, (∀ m, msg ≠ .requestVote m) → Addressed sc n peer msg) :
    Emits (Moves sc) (sendAppendAttempt peer) n (fun _ n' => Touched n n') := by
  unfold sendAppendAttempt
  refine (appendPrevForPeer_emits peer).seq ?_
  rintro ⟨prevIndex, prevTerm, nextIndex⟩ n' - ⟨hw, hprev, ht⟩
  obtain rfl : prevIndex = nextIndex - 1 := hprev
  refine .read ?_
  have hslice : (sc.strict → Coherent n') → sc.strict → n'.isLeader = true ∧
      Slice (absLog n'.storage.entries) (nextIndex - 1) prevTerm (n'.backlog nextIndex) := by
    intro hn hs
    rw [(hn hs).backlog_eq]
    refine ⟨?_, (hn hs).slice ht⟩
    obtain ⟨a, l, rfl⟩ := hw
    exact hl hs
  have hsend : Emits (Moves sc) (sendMessage peer
      (if n'.storage.seeded ∧ n'.backlog nextIndex ≠ [] then
        .appendEntriesSeeded (n'.appendHeader (nextIndex - 1) prevTerm) (n'.backlog nextIndex)
      else .appendEntries (n'.appendHeader (nextIndex - 1) prevTerm) (n'.backlog nextIndex)))
      n' (fun _ n'' => WithSent n' n'') := by
    refine sendMessage_emits ?_ ?_
    · intro hn
      split <;> exact ⟨rfl, rfl, rfl, rfl, hslice hn⟩
    · obtain ⟨a, l, rfl⟩ := hw
      refine ha _ fun m => ?_
      split <;> simp
  refine hsend.seq ?_
  rintro ok n'' - hw'
  exact .ret (hw.trans hw'.touched)

end ArbitroRaft
