import ArbitroRaft.Membership.WellFormed

/-!
# The parts of a membership call

Each part of a call keeps the node well-formed, whether it returns or fails.
While a call waits its entry is in force (`ConfigCall.InForce`), provided that
no frame brings a change of another leader; what a failing call takes back is
then exactly what it put there.
-/

namespace ArbitroRaft

open Library

/-! ## Requests -/

/-- The ids a request names. -/
def ConfigRequest.ids : ConfigRequest → List PeerId
  | .proposeConfigChange newPeers => newPeers
  | .addLearner peer | .removeLearner peer | .promoteLearner peer => [peer]

/-- The voter list a request leads to has no repetitions, and it and the current
one are short enough for their length fields. -/
def ConfigRequest.Distinct (r : ConfigRequest) (n : RaftNode) : Prop :=
  match r with
  | .proposeConfigChange newPeers =>
    newPeers.Nodup ∧ newPeers.length < 2 ^ 32 ∧ n.config.peers.length < 2 ^ 32
  | .promoteLearner _ => n.config.peers.length + 1 < 2 ^ 32
  | .addLearner _ | .removeLearner _ => True

/-! ## Scopes -/

/-- What the own code of a call may do: propose one of `batch`, and handle the
frames `rx`. -/
def callScope (rx : InboundRaftMessage → Prop) (batch : List EntryPayload → Prop) : Scope where
  rx := rx
  stands _ := False
  crowns _ := False
  demotes _ := True
  appends := True
  batch := batch
  restores := False
  compacts := False
  control := False
  change _ := False
  gather _ := True
  pends _ _ := True
  strict := False
  fresh _ := True

section Scopes

variable {P : ConfigChangeEntry → Prop} {n n' : RaftNode}
  {rx : InboundRaftMessage → Prop} {batch : List EntryPayload → Prop}

theorem callScope_vetted (hrx : ∀ f, rx f → f.Vetted P)
    (hb : ∀ payloads, batch payloads → ∀ p ∈ payloads, Vetted P p) :
    (callScope rx batch).Vetted P :=
  ⟨hrx, hb, fun _ h => h.elim⟩

/-- Frames without changes leave the membership alone. -/
theorem Effect.sameRoll {sc : Scope} (h : Effect sc n n')
    (hrx : ∀ f, sc.rx f → f.Vetted fun _ => False) (hch : ∀ c, ¬ sc.change c) : SameRoll n n' := by
  cases h.roll with
  | same _ hs => exact hs.toSameRoll
  | left _ hs => exact hs
  | adopted _ sender msg entries entry hr hlatest =>
    refine (latestConfig_vetted (P := fun _ => False) hlatest fun e he => ?_).elim
    have hmem := RaftNode.mem_of_mem_fresh he
    rcases hr.rx with h | h
    · exact hrx _ h msg entries rfl e hmem
    · exact hrx _ h msg entries rfl e hmem
  | reconfigured entry hc => exact (hch entry hc).elim
  | _ => exact ⟨rfl, rfl⟩

theorem Moves.sameRoll (h : Moves (callScope rx batch) n n')
    (hrx : ∀ f, rx f → f.Vetted fun _ => False) : SameRoll n n' :=
  h.preserves id ⟨rfl, rfl⟩ fun _ _ hm he => hm.trans (he.sameRoll hrx fun _ hc => hc)

end Scopes

/-! ## The parts of a call as effects -/

section Parts

variable {n : RaftNode} (f : InboundRaftMessage) (g : Gather)

theorem gatherFrame_called : Emits (Moves (callScope (· = f) fun _ => False)) (gatherFrame f g) n
    (fun g' n' => CountStep n n' f g g') :=
  gatherFrame_emits g rfl False.elim trivial False.elim (fun _ _ => trivial)
    ⟨fun _ _ _ _ => trivial, fun _ _ => ⟨trivial, fun _ => trivial⟩⟩

theorem finishPropose_called :
    Emits (Moves (callScope (fun _ => False) fun _ => False)) (finishPropose g) n
      (fun _ _ => True) :=
  finishPropose_emits trivial fun _ _ _ _ => trivial

theorem handleInboundTolerant_called :
    Emits (Moves (callScope (· = f) fun _ => False)) (handleInboundTolerant f) n
      (fun _ _ => True) :=
  tolerate_emits (handleInbound_emits rfl False.elim trivial
    ⟨fun _ _ _ _ => trivial, fun _ _ => ⟨trivial, fun _ => trivial⟩⟩)

theorem firstIndex_called :
    Emits (Moves (callScope (fun _ => False) fun _ => False)) firstIndex n (fun _ _ => True) := by
  unfold firstIndex
  refine .read ?_
  split
  · exact .fail
  · exact .ret trivial

end Parts

/-! ## Undoing a change -/

namespace ConfigCall

/-- The entry of the call is in force, and what the call remembers is what it
replaced. -/
structure InForce (c : ConfigCall) (n : RaftNode) : Prop where
  joint : c.entry.phase = .joint → c.oldPeers = c.entry.oldPeers ∧
    n.jointPeers = some (c.entry.oldPeers, c.entry.newPeers)
  learner : c.entry.phase = .addLearner ∨ c.entry.phase = .removeLearner →
    n.config.peers = c.oldPeers ∧ c.prevLearners.Nodup ∧
      ∀ p ∈ c.prevLearners, p ∉ c.oldPeers ∧ p ≤ u64Max

variable {P : ConfigChangeEntry → Prop} {c : ConfigCall} {n n' : RaftNode}

theorem InForce.congr (h : c.InForce n) (hs : SameRoll n n') : c.InForce n' where
  joint hp := ⟨(h.joint hp).1, hs.joint.trans (h.joint hp).2⟩
  learner hp := ⟨(congrArg NodeConfig.peers hs.config).trans (h.learner hp).1, (h.learner hp).2⟩

theorem InForce.revertJoint (h : c.InForce n) (hphase : c.entry.phase = .joint)
    (hc : c.entry.Sound) (hn : n.Roster) : (n.revertJointActivation c.oldPeers).Roster := by
  obtain ⟨hold, hjoint⟩ := h.joint hphase
  obtain ⟨-, -, hunion⟩ := hn.joint _ _ hjoint
  unfold RaftNode.revertJointActivation
  refine hn.settled ?_ rfl rfl rfl ?_
  · refine ⟨⟨?_, hn.learners_nodup, ?_, fun _ _ heq => nomatch heq⟩, ?_⟩
    · exact hold ▸ hc.old_nodup
    · intro p hp hmem
      exact hn.learners_apart p hp ((hunion p).mpr (.inl (hold ▸ hmem)))
    · exact hold ▸ hc.old_ne hphase
  · rintro p (hp | hp)
    · exact hc.old_ids p (hold ▸ hp)
    · exact hn.ids p (.inr hp)

theorem InForce.revertLearner (h : c.InForce n)
    (hphase : c.entry.phase = .addLearner ∨ c.entry.phase = .removeLearner) (hn : n.Roster) :
    (n.revertLearnerActivation c.prevLearners).Roster := by
  obtain ⟨hpeers, hnodup, hprev⟩ := h.learner hphase
  unfold RaftNode.revertLearnerActivation
  refine hn.settled ?_ rfl rfl rfl ?_
  · refine ⟨⟨hn.peers_nodup, hnodup, ?_, hn.joint⟩, hn.peers_ne⟩
    intro p hp
    change p ∉ n.config.peers
    rw [hpeers]
    exact (hprev p hp).1
  · rintro p (hp | hp)
    · exact hn.ids p (.inl hp)
    · exact (hprev p hp).2

theorem entries_revert (c : ConfigCall) (n : RaftNode) :
    (c.revert n).storage.entries = n.storage.entries := by
  unfold revert
  cases c.entry.phase with
  | joint => exact (SameLog.settleConfig _).entries
  | final => rfl
  | addLearner => exact (SameLog.settleConfig _).entries
  | removeLearner => exact (SameLog.settleConfig _).entries

/-- Taking back what is in force is safe. -/
theorem InForce.undo (h : c.InForce n) (hc : c.entry.Sound) (hn : n.Vetted P) :
    (c.undo n).Vetted P := by
  unfold ConfigCall.undo
  split
  · refine ⟨?_, fun e he => hn.log e (entries_revert c n ▸ he)⟩
    unfold revert
    cases hphase : c.entry.phase with
    | joint => exact h.revertJoint hphase hc hn.toRoster
    | final => exact hn.toRoster
    | addLearner => exact h.revertLearner (.inl hphase) hn.toRoster
    | removeLearner => exact h.revertLearner (.inr hphase) hn.toRoster
  · exact hn

end ConfigCall

/-! ## The parts of a call -/

section Calls

variable {P : ConfigChangeEntry → Prop} {c : ConfigCall} {n : RaftNode} {α : Type}
  {rx : InboundRaftMessage → Prop} {batch : List EntryPayload → Prop}
  (hP : ∀ c, P c → c.Sound)

include hP

/-- A part of a call that handles no change: the entry stays in force, and a
failure is undone. -/
theorem guard_ends {m : RaftM α} {Q : α → RaftNode → Prop}
    (hm : Emits (Moves (callScope rx batch)) m n Q) (hrx : ∀ f, rx f → f.Vetted fun _ => False)
    (hb : ∀ payloads, batch payloads → ∀ p ∈ payloads, Vetted P p)
    (hn : n.Vetted P) (hc : P c.entry) (hforce : c.InForce n) :
    Ends (c.guard m) n (fun _ n' => n'.Vetted P ∧ SameRoll n n') (fun n' => n'.Vetted P) := by
  have hsc : (callScope rx batch).Vetted P :=
    callScope_vetted (fun f hf msg entries h e he c hdec => (hrx f hf msg entries h e he c hdec).elim)
      hb
  refine Ends.cleanup ((Ends.of_emits hm).mono ?_ ?_)
  · intro a n' h
    exact ⟨h.1.vetted hP hsc (fun hs => hs) hn, h.1.sameRoll hrx⟩
  · intro n' h
    exact (hforce.congr (h.sameRoll hrx)).undo (hP _ hc) (h.vetted hP hsc (fun hs => hs) hn)

omit hP in
theorem startProposeOnce_emits {payload : EntryPayload} :
    Emits (Moves (callScope (fun _ => False) (· = [payload]))) (startProposeOnce payload) n
      (fun _ _ => True) := by
  unfold startProposeOnce
  refine (startPropose_emits [payload] trivial rfl trivial fun _ _ => trivial).seq ?_
  intro r n' _ _
  cases r with
  | none => exact .fail
  | some g => exact .ret trivial

variable {entry : ConfigChangeEntry} {peer : PeerId}

/-- A change is put in force on the spot. -/
theorem applyConfigChange_ends (hn : n.Vetted P) (hc : P entry) :
    Ends (applyConfigChange entry) n
      (fun _ n' => n'.Vetted P ∧ SameRoll (n.adoptConfig entry) n') (fun n' => n'.Vetted P) := by
  unfold applyConfigChange
  split
  · exact .fail hn
  · refine .updateSeq ?_
    have hforce : ((n.adoptConfig entry).settleConfig).Vetted P := by
      refine ⟨hn.toRoster.reconfigured (hP entry hc), fun e he => hn.log e ?_⟩
      rwa [((SameLog.adoptConfig n entry).trans (SameLog.settleConfig _)).entries] at he
    have hsc : (callScope (fun _ => False) fun _ => False).Vetted P :=
      callScope_vetted (fun _ h => h.elim) (fun _ h => h.elim)
    have hleave : Emits (Moves (callScope (fun _ => False) fun _ => False)) leaveIfRemoved
        (n.adoptConfig entry).settleConfig (fun _ n' => SameLog _ n') :=
      leaveIfRemoved_emits fun _ => trivial
    refine (Ends.of_emits hleave).mono ?_ ?_
    · intro _ n' h
      exact ⟨h.1.vetted hP hsc (fun hs => hs) hforce,
        (SameRoll.settleConfig _).trans (h.1.sameRoll fun _ h => h.elim)⟩
    · exact fun n' h => h.vetted hP hsc (fun hs => hs) hforce

omit hP in
/-- What a call remembers, once its entry was adopted. -/
theorem inForce_callOf {n' : RaftNode} (g : Gather) (hn : n.Roster)
    (hold : entry.phase = .joint → entry.oldPeers = n.config.peers)
    (hs : SameRoll (n.adoptConfig entry) n') : (n.callOf entry g).InForce n' := by
  refine ConfigCall.InForce.congr (n := n.adoptConfig entry) ⟨?_, ?_⟩ hs
  · intro hphase
    refine ⟨(hold hphase).symm, ?_⟩
    change entry.phase = .joint at hphase
    unfold RaftNode.adoptConfig
    rw [hphase]
    rfl
  · intro hphase
    refine ⟨?_, hn.learners_nodup, fun p hp => ⟨hn.learners_apart p hp, hn.ids p (.inr hp)⟩⟩
    change entry.phase = .addLearner ∨ entry.phase = .removeLearner at hphase
    unfold RaftNode.adoptConfig
    rcases hphase with hphase | hphase
    · rw [hphase]
      rfl
    · rw [hphase]
      rfl

theorem vetted_encode (hc : P entry) : Vetted P entry.encode := by
  intro c hdec
  rw [ConfigChangeEntry.decode_encode (hP entry hc).toFits] at hdec
  cases hdec
  exact hc

/-- A node and its call, if one waits. -/
structure Holds (P : ConfigChangeEntry → Prop) (call : Option ConfigCall) (n : RaftNode) :
    Prop where
  node : n.Vetted P
  call : ∀ c, call = some c → P c.entry ∧ c.InForce n

theorem activateAndPropose_ends (hn : n.Vetted P) (hc : P entry)
    (hold : entry.phase = .joint → entry.oldPeers = n.config.peers) :
    Ends (activateAndPropose entry) n (fun c n' => Holds P (some c) n')
      (fun n' => n'.Vetted P) := by
  unfold activateAndPropose
  refine .read ((applyConfigChange_ends hP hn hc).seq ?_)
  rintro _ n₁ ⟨hn₁, hs⟩
  have hforce := inForce_callOf Gather.unopened hn.toRoster hold hs
  have hbatch : ∀ payloads, payloads = [entry.encode] → ∀ p ∈ payloads, Vetted P p := by
    rintro payloads rfl p hp
    rw [List.mem_singleton] at hp
    exact hp ▸ vetted_encode hP hc
  refine (guard_ends hP startProposeOnce_emits (fun _ h => h.elim) hbatch hn₁ hc hforce).seq ?_
  rintro g n₂ ⟨hn₂, hs₂⟩
  refine .ret ⟨hn₂, ?_⟩
  rintro c heq
  cases heq
  exact ⟨hc, inForce_callOf g hn.toRoster hold (hs.trans hs₂)⟩

/-! ### Requests -/

omit hP in
theorem decideVoters_propose {newPeers : List PeerId}
    (h : n.decideVoters newPeers = .propose entry) :
    newPeers ≠ [] ∧ n.config.nodeId ∈ newPeers ∧ n.jointPeers = none ∧
      entry = ⟨.joint, n.config.peers, newPeers⟩ := by
  unfold RaftNode.decideVoters at h
  split at h
  · cases h
  · split at h
    · cases h
    · rename_i hjoint
      split at h
      · cases h
      · rename_i hne
        split at h
        · cases h
        · rename_i hself
          split at h
          · cases h
          · exact ⟨hne, not_not.mp hself, Option.not_isSome_iff_eq_none.mp hjoint,
              (ChangeDecision.propose.inj h).symm⟩

omit hP in
theorem decideLearner_propose {add : Bool} (h : n.decideLearner peer add = .propose entry) :
    entry = ⟨if add then .addLearner else .removeLearner, [], [peer]⟩ ∧
      (add = true → peer ∉ n.config.peers ∧ peer ∉ n.config.learners) ∧
      (add = false → peer ∈ n.config.learners) := by
  unfold RaftNode.decideLearner at h
  split at h
  · cases h
  · split at h
    · cases h
    · split at h
      · cases h
      · rename_i hpeer
        split at h
        · cases h
        · rename_i hlearner
          split at h
          · cases h
          · rename_i hremove
            exact ⟨(ChangeDecision.propose.inj h).symm,
              fun hadd => ⟨fun hp => hpeer ⟨hadd, hp⟩, fun hp => hlearner ⟨hadd, hp⟩⟩,
              fun hadd => not_not.mp fun hp => hremove ⟨hadd, hp⟩⟩

omit hP in
theorem decidePromotion_propose (h : n.decidePromotion peer = .propose entry) :
    peer ∈ n.config.learners ∧ n.config.nodeId ∈ n.config.peers ++ [peer] ∧
      n.jointPeers = none ∧ entry = ⟨.joint, n.config.peers, n.config.peers ++ [peer]⟩ := by
  unfold RaftNode.decidePromotion at h
  split at h
  · cases h
  · split at h
    · cases h
    · rename_i hmem
      split at h
      · cases h
      · exact ⟨not_not.mp hmem, (decideVoters_propose h).2⟩

omit hP in
theorem sound_voterEntry (hn : n.Roster) {newPeers : List PeerId} (hne : newPeers ≠ [])
    (hnodup : newPeers.Nodup) (hlen : newPeers.length < 2 ^ 32)
    (hpeers : n.config.peers.length < 2 ^ 32) (hids : ∀ p ∈ newPeers, p ≤ u64Max) :
    (⟨.joint, n.config.peers, newPeers⟩ : ConfigChangeEntry).Sound where
  old_length := hpeers
  new_length := hlen
  old_ids p hp := hn.ids p (.inl hp)
  new_ids := hids
  old_ne _ := hn.peers_ne
  old_nodup := hn.peers_nodup
  new_ne := hne
  new_nodup := hnodup

omit hP in
theorem sound_learnerEntry {phase : ConfigChangePhase} (hphase : phase ≠ .joint)
    (hid : peer ≤ u64Max) : (⟨phase, [], [peer]⟩ : ConfigChangeEntry).Sound where
  old_length := by simp
  new_length := by simp
  old_ids := by simp
  new_ids p hp := by
    rw [List.mem_singleton] at hp
    exact hp ▸ hid
  old_ne h := absurd h hphase
  old_nodup := List.nodup_nil
  new_ne := by simp
  new_nodup := List.nodup_singleton peer

omit hP in
/-- An admitted request without repetitions leads to a sound entry. -/
theorem decision_sound {r : ConfigRequest} (hn : n.Roster) (hdec : n.decision r = .propose entry)
    (hids : ∀ p ∈ r.ids, p ≤ u64Max) (hr : r.Distinct n) :
    entry.Sound ∧ (entry.phase = .joint → entry.oldPeers = n.config.peers) := by
  cases r with
  | proposeConfigChange newPeers =>
    obtain ⟨hne, -, -, rfl⟩ := decideVoters_propose hdec
    exact ⟨sound_voterEntry hn hne hr.1 hr.2.1 hr.2.2 hids, fun _ => rfl⟩
  | addLearner peer =>
    obtain ⟨rfl, -⟩ := decideLearner_propose hdec
    exact ⟨sound_learnerEntry (by decide) (hids peer List.mem_cons_self), fun h => nomatch h⟩
  | removeLearner peer =>
    obtain ⟨rfl, -⟩ := decideLearner_propose hdec
    exact ⟨sound_learnerEntry (by decide) (hids peer List.mem_cons_self), fun h => nomatch h⟩
  | promoteLearner peer =>
    obtain ⟨hmem, -, -, rfl⟩ := decidePromotion_propose hdec
    have hlen : n.config.peers.length + 1 < 2 ^ 32 := hr
    refine ⟨sound_voterEntry hn ?_ ?_ ?_ ?_ ?_, fun _ => rfl⟩
    · simp
    · exact List.nodup_append.mpr ⟨hn.peers_nodup, List.nodup_singleton peer, by
        intro a ha b hb hab
        rw [List.mem_singleton] at hb
        exact hn.learners_apart peer hmem (hb ▸ hab ▸ ha)⟩
    · rwa [List.length_append, List.length_singleton]
    · omega
    · intro p hp
      rcases List.mem_append.mp hp with hp | hp
      · exact hn.ids p (.inl hp)
      · rw [List.mem_singleton] at hp
        exact hp ▸ hn.ids peer (.inr hmem)

/-! ### Steps -/

theorem openCall_ends {r : ConfigRequest} (hn : n.Vetted P)
    (hprop : ∀ entry, n.decision r = .propose entry →
      P entry ∧ (entry.phase = .joint → entry.oldPeers = n.config.peers)) :
    Ends (openCall r) n (Holds P) (fun n' => n'.Vetted P) := by
  unfold openCall
  refine .read ?_
  split
  · exact .fail hn
  · exact .ret ⟨hn, fun _ h => nomatch h⟩
  · rename_i entry hdec
    obtain ⟨hc, hold⟩ := hprop entry hdec
    refine (activateAndPropose_ends hP hn hc hold).seq ?_
    intro c n' h
    exact .ret h

/-- The parts of a call behind its opening only move the node. -/
theorem guarded_ends {m : RaftM α} {Q : α → RaftNode → Prop} {k : α → ConfigCall}
    (hm : Emits (Moves (callScope rx fun _ => False)) m n Q)
    (hrx : ∀ f, rx f → f.Vetted fun _ => False) (h : Holds P (some c) n)
    (hk : ∀ a n', c.InForce n' → (k a).entry = c.entry ∧ (k a).InForce n') :
    Ends (do let a ← c.guard m; return some (k a)) n (Holds P) (fun n' => n'.Vetted P) := by
  obtain ⟨hc, hforce⟩ := h.call c rfl
  refine (guard_ends hP hm hrx (fun _ h => h.elim) h.node hc hforce).seq ?_
  rintro a n' ⟨hn', hs⟩
  refine .ret ⟨hn', ?_⟩
  rintro c' heq
  cases heq
  obtain ⟨hentry, hforce'⟩ := hk a n' (hforce.congr hs)
  exact ⟨hentry ▸ hc, hforce'⟩

theorem gatherCall_ends {f : InboundRaftMessage} (h : Holds P (some c) n)
    (hf : f.Vetted fun _ => False) : Ends (gatherCall f c) n (Holds P) (fun n' => n'.Vetted P) := by
  refine guarded_ends (k := fun g => { c with gather := g }) hP
    (gatherFrame_called f c.gather) ?_ h ?_
  · rintro _ rfl
    exact hf
  · intro g n' hforce
    exact ⟨rfl, hforce.joint, hforce.learner⟩

theorem commitCall_ends (h : Holds P (some c) n) :
    Ends (commitCall c) n (Holds P) (fun n' => n'.Vetted P) := by
  refine guarded_ends (k := fun _ => { c with committed := true }) hP
    (finishPropose_called c.gather) (fun _ h => h.elim) h ?_
  intro _ n' hforce
  exact ⟨rfl, hforce.joint, hforce.learner⟩

theorem drainCall_ends {f : InboundRaftMessage} (h : Holds P (some c) n)
    (hf : f.Vetted fun _ => False) : Ends (drainCall f c) n (Holds P) (fun n' => n'.Vetted P) := by
  refine guarded_ends (k := fun _ => c) hP (handleInboundTolerant_called f) ?_ h
    fun _ _ hforce => ⟨rfl, hforce⟩
  rintro _ rfl
  exact hf

theorem closeCall_ends (h : Holds P (some c) n)
    (hfinal : c.entry.phase = .joint → P c.entry.toFinal) :
    Ends (closeCall c) n (Holds P) (fun n' => n'.Vetted P) := by
  obtain ⟨hc, hforce⟩ := h.call c rfl
  unfold closeCall
  refine (guard_ends hP firstIndex_called (fun _ h => h.elim) (fun _ h => h.elim) h.node hc
    hforce).seq ?_
  rintro _ n' ⟨hn', -⟩
  split
  · rename_i hphase
    have hbatch : ∀ payloads, payloads = [c.entry.toFinal.encode] →
        ∀ p ∈ payloads, Vetted P p := by
      rintro payloads rfl p hp
      rw [List.mem_singleton] at hp
      exact hp ▸ vetted_encode hP (hfinal hphase)
    have hsc : (callScope (fun _ => False) (· = [c.entry.toFinal.encode])).Vetted P :=
      callScope_vetted (fun _ h => h.elim) hbatch
    refine Ends.read ((Ends.of_emits startProposeOnce_emits).seq ?_) |>.mono (fun _ _ h => h) ?_
    · rintro g n'' ⟨hm, -⟩
      refine .ret ⟨hm.vetted hP hsc (fun hs => hs) hn', ?_⟩
      rintro c' heq
      cases heq
      exact ⟨hfinal hphase, ⟨fun h => ConfigChangePhase.noConfusion h,
        fun h => h.elim (fun h => ConfigChangePhase.noConfusion h)
          fun h => ConfigChangePhase.noConfusion h⟩⟩
    · exact fun n'' hm => hm.vetted hP hsc (fun hs => hs) hn'
  · exact .ret ⟨hn', fun _ h => nomatch h⟩

end Calls

end ArbitroRaft
