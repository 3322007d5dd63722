import ArbitroRaft.Membership.InStep

/-!
# The effective configuration

A node and its ledger, step by step: requests, the parts of a membership call,
frames, applying, compacting, restoring and restarting.  The ledger is read off
the node: a final entry waits from its proposal until it is applied, and what a
compaction drops is covered from then on.

As long as the steps stay in step with the history (`Chronicle.InStep`), the
node has the roll its history leads to.  The steps that fall out of step are
the ones where the code changes its configuration at another point than its
log: a change that is truncated stays in force, of a batch only the newest
change is put in force, applying an older change overrides a newer one, an
undone promotion loses its learner, and neither a snapshot nor a restart
carries a configuration.

## Main results

* `configuration_follows_history`: this, over every run in step.
-/

namespace ArbitroRaft

open Library

/-! ## Undoing an activation -/

/-- What a request needs to stay in step: its entry fits its encoding, the node
is one of its voters, and a voter change that promotes a learner is taken by
the log. -/
structure RaftNode.Requests (n : RaftNode) (entry : ConfigChangeEntry) : Prop where
  fits : entry.Fits
  room : n.cachedLastLog.1 < u64Max
  voter : n.config.nodeId ∈ n.config.peers
  promotes : entry.phase = .joint →
    (∀ p ∈ n.config.learners, p ∉ entry.oldPeers ∧ p ∉ entry.newPeers) ∨
      (n.reconfigured entry).CanPropose entry.encode

section Undo

variable {n m : RaftNode} {entry : ConfigChangeEntry}

theorem still_revertLearner {learners : List PeerId}
    (hroll : m.roll = { n.roll with learners := learners })
    (hentries : m.storage.entries = n.storage.entries) (htip : m.cachedLastLog = n.cachedLastLog)
    (happlied : m.lastApplied = n.lastApplied) :
    Still n (m.revertLearnerActivation n.config.learners) := by
  have hpeers : m.config.peers = n.config.peers := congrArg Roll.peers hroll
  have hjoint : m.jointPeers = n.jointPeers := congrArg Roll.joint hroll
  have hback : Still n (m.setLearners n.config.learners) := by
    refine ⟨?_, hentries, htip, happlied⟩
    change Roll.mk m.config.peers n.config.learners m.jointPeers = n.roll
    rw [hpeers, hjoint]
    rfl
  exact hback.trans (still_settleConfig _)

theorem still_revertJoint (hlearners : m.config.learners = n.config.learners)
    (hnone : n.jointPeers = none) (hentries : m.storage.entries = n.storage.entries)
    (htip : m.cachedLastLog = n.cachedLastLog) (happlied : m.lastApplied = n.lastApplied) :
    Still n (m.revertJointActivation n.config.peers) := by
  have hback : Still n
      { m with config := { m.config with peers := n.config.peers }, jointPeers := none } := by
    refine ⟨?_, hentries, htip, happlied⟩
    change Roll.mk n.config.peers m.config.learners none = n.roll
    rw [hlearners, ← hnone]
    rfl
  exact hback.trans (still_settleConfig _)

/-- What a call takes back is what it put in force. -/
theorem still_revert (g : Gather) (hm : Still (n.adoptConfig entry) m)
    (hphase : entry.phase ≠ .final)
    (hjoint : entry.phase = .joint → n.jointPeers = none ∧
      ∀ p ∈ n.config.learners, p ∉ RaftNode.mergePeers entry.oldPeers entry.newPeers) :
    Still n ((n.callOf entry g).revert m) := by
  have hroll := hm.roll.trans (roll_adoptConfig n entry)
  have hlog := SameLog.adoptConfig n entry
  have hentries := hm.entries.trans hlog.entries
  have htip := hm.tip.trans hlog.cached
  have happlied := hm.applied.trans hlog.applied
  unfold ConfigCall.revert RaftNode.callOf
  dsimp only
  unfold Roll.adopt at hroll
  cases hp : entry.phase with
  | final => exact (hphase hp).elim
  | joint =>
    rw [hp] at hroll
    obtain ⟨hnone, happart⟩ := hjoint hp
    refine still_revertJoint ?_ hnone hentries htip happlied
    refine (congrArg Roll.learners hroll).trans (List.filter_eq_self.mpr fun p hmem => ?_)
    exact decide_eq_true (happart p hmem)
  | addLearner =>
    rw [hp] at hroll
    exact still_revertLearner hroll hentries htip happlied
  | removeLearner =>
    rw [hp] at hroll
    exact still_revertLearner hroll hentries htip happlied

end Undo

/-! ## Logged changes -/

/-- The log grew by the change `c`. -/
structure Logged (n : RaftNode) (c : ConfigChangeEntry) (n' : RaftNode) : Prop where
  changes : changesOf n'.storage.entries =
    changesOf n.storage.entries ++ [(n.cachedLastLog.1 + 1, c)]
  longer : n.storage.entries.length < n'.storage.entries.length
  tip : n'.cachedLastLog.1 = n.cachedLastLog.1 + 1
  applied : n'.lastApplied = n.lastApplied

theorem Landed.logged {n n' : RaftNode} {c : ConfigChangeEntry} (h : Landed n c.encode n')
    (hfits : c.Fits) (hroom : n.cachedLastLog.1 < u64Max) : Logged n c n' := by
  have hsat : satAdd n.cachedLastLog.1 1 = n.cachedLastLog.1 + 1 := satAdd_of_le (by omega)
  refine ⟨?_, ?_, h.tip.trans hsat, h.applied⟩
  · have hnew : changesOf (n.proposedBatch [c.encode]) = [(n.cachedLastLog.1 + 1, c)] := by
      unfold changesOf RaftNode.proposedBatch buildBatch buildBatch
      rw [List.filterMap_cons, ConfigChangeEntry.decode_encode hfits, hsat]
      rfl
    rw [h.entries, changesOf_append, hnew]
  · rw [h.entries, List.length_append]
    exact Nat.lt_add_of_pos_right Nat.one_pos

namespace Ledger

variable {g : Ledger} {n n' : RaftNode} {c : ConfigChangeEntry}

theorem effective_snoc {es es' : List LogEntry} {i : Nat}
    (h : changesOf es' = changesOf es ++ [(i, c)]) (hi : i ∉ g.waiting) :
    g.effective es' = (g.effective es).adopt c := by
  unfold effective counted
  rw [h, List.filter_append, List.filter_cons_of_pos (by simpa using hi), List.map_append,
    ← List.append_assoc, Roll.adoptAll_append]
  rfl

theorem Tracks.fresh_index (h : g.Tracks n) (hord : n.Ordered) :
    n.cachedLastLog.1 + 1 ∉ g.waiting := by
  refine h.not_waiting fun x hx heq => ?_
  obtain ⟨e, he, hi, -⟩ := mem_changesOf.mp hx
  have := hord.tip e he
  omega

/-- A change that is in force and in the log. -/
theorem Tracks.activated (h : g.Tracks n) (hord : n.Ordered) (hl : Logged n c n')
    (hroll : n'.roll = n.roll.adopt c) : g.Tracks n' := by
  refine ⟨?_, fun i hi => ?_⟩
  · rw [hroll, h.roll, effective_snoc hl.changes (h.fresh_index hord)]
  · obtain ⟨hlt, d, hmem, hphase⟩ := h.waiting i hi
    rw [hl.applied, hl.changes]
    exact ⟨hlt, d, List.mem_append_left _ hmem, hphase⟩

/-- The entry at `i` does not count yet. -/
def await (g : Ledger) (i : Nat) : Ledger := { g with waiting := g.waiting ++ [i] }

/-- A final entry that is in the log and not in force. -/
theorem Tracks.await (h : g.Tracks n) (hord : n.Ordered) (hl : Logged n c n')
    (hphase : c.phase = .final) (hroll : n'.roll = n.roll) :
    (g.await (n.cachedLastLog.1 + 1)).Tracks n' := by
  refine ⟨?_, fun i hi => ?_⟩
  · rw [hroll, h.roll]
    unfold effective
    refine congrArg (fun cs => g.boot.adoptAll (g.covered ++ cs)) ?_
    unfold counted
    rw [hl.changes, List.filter_append, List.filter_cons_of_neg (by simp [Ledger.await]),
      List.filter_nil, List.append_nil]
    refine congrArg (List.map Prod.snd) (List.filter_congr fun x hx => ?_)
    obtain ⟨e, he, hi, -⟩ := mem_changesOf.mp hx
    have := hord.tip e he
    rw [decide_eq_decide]
    refine not_congr ⟨fun hm => List.mem_append_left _ hm, fun hm => ?_⟩
    rcases List.mem_append.mp hm with hm | hm
    · exact hm
    · rw [List.mem_singleton] at hm
      omega
  · rw [hl.applied, hl.changes]
    rcases List.mem_append.mp hi with hi | hi
    · obtain ⟨hlt, d, hmem, hd⟩ := h.waiting i hi
      exact ⟨hlt, d, List.mem_append_left _ hmem, hd⟩
    · rw [List.mem_singleton] at hi
      subst hi
      refine ⟨Nat.lt_succ_of_le hord.applied, c, ?_, hphase⟩
      exact List.mem_append_right _ List.mem_cons_self

end Ledger

/-! ## Calls -/

/-- A node in step, and the entry of its call, if one waits, in its log. -/
structure Ledger.Keeps (g : Ledger) (call : Option ConfigCall) (n : RaftNode) : Prop where
  tracks : g.Tracks n
  call : ∀ c, call = some c → c.entry.Fits ∧
    ∃ x, (c.tipBefore + 1, x) ∈ changesOf n.storage.entries

section Calls

variable {g : Ledger} {n : RaftNode} {c : ConfigCall} {α : Type}

variable {entry : ConfigChangeEntry}

theorem decision_propose {r : ConfigRequest} (h : n.decision r = .propose entry) :
    entry.phase ≠ .final ∧
      (entry.phase = .joint → n.jointPeers = none ∧ entry.oldPeers = n.config.peers) := by
  cases r with
  | proposeConfigChange newPeers =>
    obtain ⟨-, -, hnone, rfl⟩ := decideVoters_propose h
    exact ⟨ConfigChangePhase.noConfusion, fun _ => ⟨hnone, rfl⟩⟩
  | promoteLearner peer =>
    obtain ⟨-, -, hnone, rfl⟩ := decidePromotion_propose h
    exact ⟨ConfigChangePhase.noConfusion, fun _ => ⟨hnone, rfl⟩⟩
  | addLearner peer =>
    obtain ⟨rfl, -⟩ := decideLearner_propose h
    exact ⟨ConfigChangePhase.noConfusion, ConfigChangePhase.noConfusion⟩
  | removeLearner peer =>
    obtain ⟨rfl, -⟩ := decideLearner_propose h
    exact ⟨ConfigChangePhase.noConfusion, ConfigChangePhase.noConfusion⟩

/-- A node that is a voter of the new configuration does not step down. -/
theorem applyConfigChange_inside (hphase : entry.phase ≠ .final)
    (hin : n.config.nodeId ∈ (n.adoptConfig entry).config.peers) :
    applyConfigChange entry n = .ok () (n.reconfigured entry) := by
  have hvalid : entry.isRefused = false := decide_eq_false fun h => hphase h.1
  have hconfig := (SameRoll.settleConfig (n.adoptConfig entry)).config
  have hinside : (n.reconfigured entry).leadsFromOutside = false := by
    unfold RaftNode.leadsFromOutside RaftNode.reconfigured
    rw [hconfig, (SameSide.adoptConfig n entry).nodeId, decide_eq_false (not_not.mpr hin),
      Bool.and_false]
  unfold applyConfigChange
  rw [hvalid, if_neg Bool.false_ne_true, modify_bind]
  change leaveIfRemoved (n.reconfigured entry) = _
  unfold leaveIfRemoved
  rw [get_bind, hinside]
  rfl

/-- A voter that activates a change stays one, so it does not step down. -/
theorem applyConfigChange_voter (hphase : entry.phase ≠ .final)
    (hvoter : n.config.nodeId ∈ n.config.peers)
    (hold : entry.phase = .joint → entry.oldPeers = n.config.peers) :
    applyConfigChange entry n = .ok () (n.reconfigured entry) := by
  refine applyConfigChange_inside hphase ?_
  unfold RaftNode.adoptConfig
  cases hp : entry.phase with
  | final => exact (hphase hp).elim
  | joint => exact RaftNode.mem_mergePeers.mpr (.inl ((hold hp).symm ▸ hvoter))
  | addLearner => exact hvoter
  | removeLearner => exact hvoter

/-- A request is in the log and in force, or nothing happened. -/
theorem activateAndPropose_keeps (h : g.Tracks n) (hord : n.Ordered) (hreq : n.Requests entry)
    (hphase : entry.phase ≠ .final)
    (hjoint : entry.phase = .joint → n.jointPeers = none ∧ entry.oldPeers = n.config.peers) :
    Ends (activateAndPropose entry) n (fun c n' => g.Keeps (some c) n') g.Tracks := by
  have hroll : (n.reconfigured entry).roll = n.roll.adopt entry :=
    (still_settleConfig _).roll.trans (roll_adoptConfig n entry)
  have hlog : SameLog n (n.reconfigured entry) :=
    (SameLog.adoptConfig n entry).trans (SameLog.settleConfig _)
  have hin : ∀ n', Landed (n.reconfigured entry) entry.encode n' →
      Logged n entry n' ∧ g.Tracks n' := by
    intro n' hland
    have hl := hland.logged hreq.fits (hlog.cached ▸ hreq.room)
    have hl : Logged n entry n' := by
      refine ⟨?_, ?_, ?_, hl.applied.trans hlog.applied⟩
      · rw [hl.changes, hlog.entries, hlog.cached]
      · rw [← hlog.entries]
        exact hl.longer
      · rw [hl.tip, hlog.cached]
    exact ⟨hl, h.activated hord hl (hland.roll.trans hroll)⟩
  unfold activateAndPropose
  refine .read ?_
  unfold Ends
  rw [bind_of_ok (applyConfigChange_voter hphase hreq.voter fun hp => (hjoint hp).2)]
  refine Ends.seq (P := fun _ n' => Landed (n.reconfigured entry) entry.encode n')
    (Ends.cleanup ((startProposeOnce_lands _ _).mono (fun _ _ hland => hland) ?_)) ?_
  · rintro n' (⟨hs, hcannot⟩ | hland)
    · -- refused: what is taken back is what was put in force
      have hstill : Still n ((n.callOf entry Gather.unopened).revert n') := by
        refine still_revert _ ((still_settleConfig _).trans hs) hphase fun hp => ?_
        refine ⟨(hjoint hp).1, fun p hmem hmerge => ?_⟩
        have happart := (hreq.promotes hp).resolve_right hcannot p hmem
        exact (RaftNode.mem_mergePeers.mp hmerge).elim happart.1 happart.2
      have htip : n'.cachedLastLog.1 = (n.callOf entry Gather.unopened).tipBefore :=
        congrArg Prod.fst (hs.tip.trans hlog.cached)
      unfold ConfigCall.undo
      rw [if_pos htip]
      exact h.still hstill
    · obtain ⟨hl, htracks⟩ := hin n' hland
      unfold ConfigCall.undo
      rw [if_neg]
      · exact htracks
      · change ¬ n'.cachedLastLog.1 = n.cachedLastLog.1
        rw [hl.tip]
        omega
  · intro g' n' hland
    obtain ⟨hl, htracks⟩ := hin n' hland
    refine .ret ⟨htracks, ?_⟩
    rintro c heq
    cases heq
    refine ⟨hreq.fits, entry, ?_⟩
    rw [hl.changes]
    exact List.mem_append_right _ List.mem_cons_self

theorem openCall_keeps {r : ConfigRequest} (h : g.Tracks n) (hord : n.Ordered)
    (hreq : ∀ entry, n.decision r = .propose entry → n.Requests entry) :
    Ends (openCall r) n g.Keeps (g.Keeps none) := by
  have hnone : ∀ n', g.Tracks n' → g.Keeps none n' := fun n' h => ⟨h, fun _ h => nomatch h⟩
  unfold openCall
  refine .read ?_
  split
  · exact .fail (hnone n h)
  · exact .ret (hnone n h)
  · rename_i entry hdec
    obtain ⟨hphase, hjoint⟩ := decision_propose hdec
    refine ((activateAndPropose_keeps h hord (hreq entry hdec) hphase hjoint).mono
      (fun _ _ h => h) hnone).seq ?_
    exact fun c n' hc => .ret hc

/-- The parts of a call behind its opening: an error is not undone, since the
entry is in the log. -/
theorem guarded_keeps {a : Action} {m : RaftM α} {Q : α → RaftNode → Prop} {k : α → ConfigCall}
    (hm : Emits (Moves (a.scope n False)) m n Q) (ha : a.Ordinary) (happ : a.appends = false)
    (hin : a.InStep g n) (hord : n.Ordered) (h : g.Keeps (some c) n)
    (hk : ∀ x, (k x).entry = c.entry ∧ (k x).tipBefore = c.tipBefore) :
    Ends (do let x ← c.guard m; return some (k x)) n g.Keeps (g.Keeps none) := by
  obtain ⟨hfits, x, hx⟩ := h.call c rfl
  have htip : ∀ x ∈ changesOf n.storage.entries, x.1 ≤ n.cachedLastLog.1 := by
    intro x hx
    obtain ⟨e, he, hi, -⟩ := mem_changesOf.mp hx
    exact hi ▸ hord.tip e he
  have hmoved : ∀ n', Moves (a.scope n False) n n' → g.Keeps (some c) n' ∧ c.undo n' = n' := by
    intro n' hmoves
    have hf := hmoves.follows ha hin h.tracks htip
    refine ⟨⟨hf.tracks, ?_⟩, ?_⟩
    · rintro c' heq
      cases heq
      exact ⟨hfits, x, hf.kept _ hx⟩
    · have hlt : c.tipBefore + 1 ≤ n'.cachedLastLog.1 := hf.tip happ _ (hf.kept _ hx)
      unfold ConfigCall.undo
      exact if_neg (by omega)
  refine .seq (P := fun _ n' => g.Keeps (some c) n')
    (Ends.cleanup ((Ends.of_emits hm).mono ?_ ?_)) ?_
  · exact fun _ n' hn' => (hmoved n' hn'.1).1
  · intro n' hn'
    obtain ⟨hkeeps, hundo⟩ := hmoved n' hn'
    rw [hundo]
    exact ⟨hkeeps.tracks, fun _ h => nomatch h⟩
  · intro y n' hkeeps
    refine .ret ⟨hkeeps.tracks, ?_⟩
    rintro c' heq
    cases heq
    rw [(hk y).1, (hk y).2]
    exact hkeeps.call c rfl

theorem gatherCall_keeps {f : InboundRaftMessage} (h : g.Keeps (some c) n) (hord : n.Ordered)
    (hf : g.Brings n f) : Ends (gatherCall f c) n g.Keeps (g.Keeps none) := by
  have hm : Emits (Moves ((Action.gatherFrame f c.gather).scope n False))
      (gatherFrame f c.gather) n _ :=
    gatherFrame_emits c.gather rfl False.elim rfl False.elim (fun _ _ => rfl)
      (Action.known_scope List.mem_cons_self)
  refine guarded_keeps (k := fun g' => { c with gather := g' }) hm ?_ rfl ⟨trivial, ?_⟩ hord h
    fun _ => ⟨rfl, rfl⟩
  · exact ⟨nofun, nofun, nofun⟩
  · rintro f' heq
    exact Option.some.inj heq ▸ hf

theorem commitCall_keeps (h : g.Keeps (some c) n) (hord : n.Ordered) :
    Ends (commitCall c) n g.Keeps (g.Keeps none) := by
  have hm : Emits (Moves ((Action.finishPropose c.gather).scope n False))
      (finishPropose c.gather) n (fun _ _ => True) := finishPropose_emits rfl
    fun _ _ ht hq => ⟨ht.cached, hq⟩
  exact guarded_keeps (k := fun _ => { c with committed := true }) hm ⟨nofun, nofun, nofun⟩ rfl
    ⟨trivial, nofun⟩ hord h fun _ => ⟨rfl, rfl⟩

theorem drainCall_keeps {f : InboundRaftMessage} (h : g.Keeps (some c) n) (hord : n.Ordered)
    (hf : g.Brings n f) : Ends (drainCall f c) n g.Keeps (g.Keeps none) := by
  have hm : Emits (Moves ((Action.inbound f).scope n False)) (handleInboundTolerant f) n
      (fun _ _ => True) := tolerate_emits
    (handleInbound_emits rfl False.elim rfl (Action.known_scope List.mem_cons_self))
  refine guarded_keeps (k := fun _ => c) hm ⟨nofun, nofun, nofun⟩ rfl ⟨trivial, ?_⟩ hord h
    fun _ => ⟨rfl, rfl⟩
  rintro f' heq
  exact Option.some.inj heq ▸ hf

/-- The ledger behind the end of a proposal: a final entry that was appended
waits. -/
def Ledger.afterClose (g : Ledger) (n n' : RaftNode) : Ledger :=
  if n.storage.entries.length < n'.storage.entries.length then g.await (n.cachedLastLog.1 + 1)
  else g

theorem Ledger.Tracks.closed {n' : RaftNode} (h : g.Tracks n) (hord : n.Ordered)
    {final : ConfigChangeEntry} (hphase : final.phase = .final) (hfits : final.Fits)
    (hroom : n.cachedLastLog.1 < u64Max) (hn' : Failed n final.encode n') :
    (g.afterClose n n').Tracks n' := by
  unfold Ledger.afterClose
  rcases hn' with ⟨hs, -⟩ | hland
  · rw [if_neg (by rw [hs.entries]; exact Nat.lt_irrefl _)]
    exact h.still hs
  · have hl := hland.logged hfits hroom
    rw [if_pos hl.longer]
    exact h.await hord hl hphase hland.roll

theorem closeCall_keeps (h : g.Keeps (some c) n) (hord : n.Ordered)
    (hroom : n.cachedLastLog.1 < u64Max) :
    Ends (closeCall c) n (fun call n' => (g.afterClose n n').Keeps call n')
      (fun n' => (g.afterClose n n').Keeps none n') := by
  obtain ⟨hfits, x, hx⟩ := h.call c rfl
  have hsame : (g.afterClose n n).Tracks n := by
    unfold Ledger.afterClose
    rw [if_neg (Nat.lt_irrefl _)]
    exact h.tracks
  have hundo : c.undo n = n := by
    obtain ⟨e, he, hi, -⟩ := mem_changesOf.mp hx
    have := hord.tip e he
    unfold ConfigCall.undo
    exact if_neg (by omega)
  have hfirst : Ends firstIndex n (fun _ n' => n' = n) (fun n' => n' = n) := by
    unfold firstIndex
    refine .read ?_
    split
    · exact .fail rfl
    · exact .ret rfl
  unfold closeCall
  refine .seq (P := fun _ n' => n' = n)
    (.cleanup (hfirst.mono (fun _ _ h => h) ?_)) ?_
  · rintro _ rfl
    rw [hundo]
    exact ⟨hsame, fun _ h => nomatch h⟩
  · intro _ m hm
    rw [hm]
    split
    · have hfinal : c.entry.toFinal.Fits :=
        ⟨hfits.old_length, hfits.new_length, hfits.old_ids, hfits.new_ids⟩
      have hclosed : ∀ m, Failed n c.entry.toFinal.encode m → (g.afterClose n m).Tracks m :=
        fun m hm => h.tracks.closed hord rfl hfinal hroom hm
      refine .read (.seq (P := fun _ m => Landed n c.entry.toFinal.encode m)
        ((startProposeOnce_lands n _).mono (fun _ _ h => h) ?_) ?_)
      · exact fun m hm => ⟨hclosed m hm, fun _ h => nomatch h⟩
      · intro g' m hland
        refine .ret ⟨hclosed m (.inr hland), ?_⟩
        rintro c' heq
        cases heq
        refine ⟨hfinal, c.entry.toFinal, ?_⟩
        rw [(hland.logged hfinal hroom).changes]
        exact List.mem_append_right _ List.mem_cons_self
    · exact .ret ⟨hsame, fun _ h => nomatch h⟩

end Calls

/-! ## Chronicles -/

structure Chronicle where
  host : Host
  ledger : Ledger

structure ChronicleStep where
  env : Env
  act : HostAct

/-- The ledger behind a step from `n` to `n'`. -/
def Ledger.next (g : Ledger) (n n' : RaftNode) : HostAct → Ledger
  | .close => g.afterClose n n'
  | .act .applyNext => g.afterApply n
  | .act .compact | .act .restore => g.cover (n.droppedBy n')
  | _ => g

namespace Chronicle

def step (s : Chronicle) (a : ChronicleStep) : Option Chronicle :=
  (s.host.step a.env a.act).map fun h =>
    { host := h, ledger := s.ledger.next (s.host.node.within a.env) h.node a.act }

/-- A node that was just started, without a change in its log. -/
def Booted (s : Chronicle) : Prop :=
  s.host.call = none ∧ changesOf s.host.node.storage.entries = [] ∧
    s.ledger = ⟨s.host.node.roll, [], []⟩ ∧
    ∃ config storage sent env, RaftNode.new config storage sent env = .ok s.host.node

/-- The step stays in step with the history. -/
def InStep (s : Chronicle) (a : ChronicleStep) : Prop :=
  (s.host.node.within a.env).Ordered ∧
    match a.act with
    | .request r => ∀ entry, (s.host.node.within a.env).decision r = .propose entry →
        (s.host.node.within a.env).Requests entry
    | .gather f | .drain f => s.ledger.Brings (s.host.node.within a.env) f
    | .commit => True
    | .close => s.host.node.cachedLastLog.1 < u64Max
    | .act b => b.InStep s.ledger (s.host.node.within a.env) ∧
        (b = .applyNext → s.ledger.Applies (s.host.node.within a.env)) ∧
        (b = .restore → s.ledger.Restores (s.host.node.within a.env))
    | .restart config => s.ledger.covered = [] ∧
        changesOf s.host.node.storage.entries = [] ∧
        s.ledger.boot = ⟨config.peers, config.learners, none⟩

end Chronicle

variable {n : RaftNode} {g : Ledger}

theorem Ledger.Keeps.within {call : Option ConfigCall} (h : g.Keeps call n) (env : Env) :
    g.Keeps call (n.within env) :=
  ⟨h.tracks.still ⟨rfl, rfl, rfl, rfl⟩, h.call⟩

/-- Without a change the bootstrap roll is in force. -/
theorem Ledger.tracks_boot (hcovered : g.covered = []) (hwaiting : g.waiting = [])
    (hlog : changesOf n.storage.entries = []) (hroll : n.roll = g.boot) : g.Tracks n := by
  refine ⟨?_, fun i hi => ?_⟩
  · unfold effective counted
    rw [hlog, hcovered, hroll]
    rfl
  · rw [hwaiting] at hi
    cases hi

/-- An action of a node that runs no call. -/
theorem Ledger.Tracks.act {a : Action} (h : g.Tracks n) (hord : n.Ordered) (hin : a.InStep g n)
    (happly : a = .applyNext → g.Applies n) (hrestore : a = .restore → g.Restores n) :
    (g.next n (a.run n) (.act a)).Tracks (a.run n) := by
  by_cases hord' : a.Ordinary
  · have htip : ∀ x ∈ changesOf n.storage.entries, x.1 ≤ n.cachedLastLog.1 := by
      intro x hx
      obtain ⟨e, he, hi, -⟩ := mem_changesOf.mp hx
      exact hi ▸ hord.tip e he
    have hnext : g.next n (a.run n) (.act a) = g := by
      obtain ⟨h₁, h₂, h₃⟩ := hord'
      cases a <;> first | rfl | contradiction
    rw [hnext]
    exact ((a.moves n False False.elim).follows hord' hin h htip).tracks
  · by_cases hap : a = .applyNext
    · subst hap
      exact h.applyNext hord (happly rfl)
    by_cases hco : a = .compact
    · subst hco
      obtain ⟨hroll, happlied, k, hk, hentries⟩ := Action.compact_compacts n
      refine h.cover hord hentries hroll fun i hi => ?_
      have hlt := (h.waiting i hi).1
      rw [happlied]
      exact ⟨by omega, hlt⟩
    by_cases hre : a = .restore
    · subst hre
      exact h.restore hord (hrestore rfl)
    exact (hord' ⟨hap, hco, hre⟩).elim

theorem Chronicle.step_keeps {s t : Chronicle} {a : ChronicleStep}
    (hs : s.ledger.Keeps s.host.call s.host.node) (hin : s.InStep a)
    (hstep : s.step a = some t) : t.ledger.Keeps t.host.call t.host.node := by
  obtain ⟨h', hh', rfl⟩ := Option.map_eq_some_iff.mp hstep
  obtain ⟨env, act⟩ := a
  obtain ⟨hord, hin⟩ := hin
  have hs := hs.within env
  cases Host.step_inv hh' with
  | request r hc => exact Ends.resumed (openCall_keeps hs.tracks hord hin)
  | gather f c hc =>
    rw [hc] at hs
    exact Ends.resumed (gatherCall_keeps hs hord hin)
  | commit c hc =>
    rw [hc] at hs
    exact Ends.resumed (commitCall_keeps hs hord)
  | drain f c hc =>
    rw [hc] at hs
    exact Ends.resumed (drainCall_keeps hs hord hin)
  | close c hc =>
    rw [hc] at hs
    exact Ends.resumed
      (J := fun call n' => (s.ledger.afterClose (s.host.node.within env) n').Keeps call n')
      (closeCall_keeps hs hord hin)
  | act b =>
    obtain ⟨hb, happly, hrestore⟩ := hin
    exact ⟨hs.tracks.act hord hb happly hrestore, fun _ h => nomatch h⟩
  | restart config m hnew =>
    obtain ⟨hcovered, hlog, hboot⟩ := hin
    have hwaiting : s.ledger.waiting = [] := by
      rw [List.eq_nil_iff_forall_not_mem]
      refine fun i => hs.tracks.not_waiting fun x hx => ?_
      change x ∈ changesOf s.host.node.storage.entries at hx
      rw [hlog] at hx
      cases hx
    obtain rfl := RaftNode.new_eq hnew
    exact ⟨Ledger.tracks_boot hcovered hwaiting hlog hboot.symm, fun _ h => nomatch h⟩

theorem Chronicle.Booted.keeps {s : Chronicle} (h : s.Booted) :
    s.ledger.Keeps s.host.call s.host.node := by
  obtain ⟨hcall, hlog, hledger, -⟩ := h
  refine ⟨?_, fun c hc => ?_⟩
  · rw [hledger]
    exact Ledger.tracks_boot rfl rfl hlog rfl
  · rw [hcall] at hc
    cases hc

/-- In every state reached in step, the configuration in force is the bootstrap
configuration with every change of the history adopted in index order, except
the final entries the node proposed itself and has not applied; without such an
entry it is the one the whole history leads to. -/
theorem configuration_follows_history {s t : Chronicle} (hs : s.Booted)
    (h : Reaches Chronicle.step Chronicle.InStep s t) :
    t.host.node.roll = t.ledger.effective t.host.node.storage.entries ∧
      (∀ i ∈ t.ledger.waiting, t.host.node.lastApplied < i ∧
        ∃ c, (i, c) ∈ changesOf t.host.node.storage.entries ∧ c.phase = .final) ∧
      (t.ledger.waiting = [] →
        t.host.node.roll = t.ledger.history t.host.node.storage.entries) := by
  have hkeeps : t.ledger.Keeps t.host.call t.host.node :=
    h.invariant hs.keeps fun _ _ _ hu hin hstep => Chronicle.step_keeps hu hin hstep
  refine ⟨hkeeps.tracks.roll, hkeeps.tracks.waiting, fun hnone => ?_⟩
  rw [hkeeps.tracks.roll, Ledger.effective, Ledger.history, Ledger.counted_eq_all]
  rw [hnone]
  exact fun _ _ => List.not_mem_nil

/-! ## Runs -/

/-- Node `i` of three voters with the learner 4, just started. -/
def startedChronicle (i : PeerId) : Chronicle :=
  { host := stagedCluster.hosts i
    ledger := ⟨(stagedCluster.hosts i).node.roll, [], []⟩ }

theorem booted_startedChronicle (i : PeerId) : (startedChronicle i).Booted := by
  obtain ⟨hcall, -, config, storage, sent, env, hnew, -⟩ := booted_stagedCluster.2 i
  exact ⟨hcall, rfl, rfl, config, storage, sent, env, hnew⟩

/-- A step in which nothing fails. -/
def calmly (a : HostAct) : ChronicleStep := ⟨Env.calm 0, a⟩

/-- The change that adds the learner 5. -/
def enrolment : ConfigChangeEntry := ⟨.addLearner, [], [5]⟩

/-- The leader of term 1 ships it as its first entry. -/
def enrolmentFrame : InboundRaftMessage :=
  ⟨1, .appendEntries ⟨1, 1, 0, 0, 0, 0⟩ [⟨1, 1, enrolment.encode⟩]⟩

/-- The leader of term 2 ships another first entry. -/
def displacingFrame : InboundRaftMessage :=
  ⟨3, .appendEntries ⟨2, 3, 0, 0, 0, 0⟩ [⟨2, 1, [7]⟩]⟩

/-- A follower stores the new learner's entry. -/
theorem configuration_follows_history_enrolment :
    ∃ t, Reaches Chronicle.step Chronicle.InStep (startedChronicle 2) t ∧
      t.host.node.config.learners = [4, 5] ∧
      t.host.node.roll = t.ledger.effective t.host.node.storage.entries := by
  have hrun : ((startedChronicle 2).step (calmly (.act (.inbound enrolmentFrame)))).map
      (fun t => t.host.node.config.learners) = some [4, 5] := by decide +kernel
  obtain ⟨t, ht, hlearners⟩ := Option.map_eq_some_iff.mp hrun
  have hin : (startedChronicle 2).InStep (calmly (.act (.inbound enrolmentFrame))) := by
    refine ⟨⟨List.Pairwise.nil, nofun, Nat.le_refl 0⟩, ⟨trivial, ?_⟩, nofun, nofun⟩
    rintro f heq
    cases heq
    intro _ _
    refine ⟨?_, ?_, ?_, ?_, ?_⟩
    · decide +kernel
    · decide +kernel
    · rintro ⟨c, hc, hrefused⟩
      have hlatest : latestConfig (((startedChronicle 2).host.node.within (Env.calm 0)).fresh
          ⟨1, 1, 0, 0, 0, 0⟩ [⟨1, 1, enrolment.encode⟩]) = some enrolment := by decide +kernel
      obtain rfl := Option.some.inj (hlatest.symm.trans hc)
      exact absurd hrefused (by decide)
    · exact fun x _ h => nomatch h
    · decide +kernel
  have hreach := Reaches.next _ Reaches.refl hin ht
  exact ⟨t, hreach, hlearners,
    (configuration_follows_history (booted_startedChronicle 2) hreach).1⟩

/-- The steps by which node 1 becomes the leader of term 1. -/
def leads : List ChronicleStep :=
  [calmly (.act .startElection),
    calmly (.act (.countVotes 1 [⟨2, .requestVoteResp ⟨1, true⟩⟩] [1])),
    calmly (.act (.assumeLeadership 1))]

/-- A leader whose final entry is in the log still works in the joint
configuration.  A follower whose uncommitted change was displaced by another
entry still has it in force. -/
theorem configuration_departs_from_history :
    (∃ t, (startedChronicle 1).Booted ∧
      Reaches Chronicle.step (fun _ _ => True) (startedChronicle 1) t ∧
      t.host.node.roll = ⟨[1, 2, 3, 4], [], some ([1, 2, 3], [1, 2, 4])⟩ ∧
      t.ledger.history t.host.node.storage.entries = ⟨[1, 2, 4], [], none⟩) ∧
    ∃ t, (startedChronicle 2).Booted ∧
      Reaches Chronicle.step (fun _ _ => True) (startedChronicle 2) t ∧
      t.host.node.roll = ⟨[1, 2, 3], [4, 5], none⟩ ∧
      t.ledger.history t.host.node.storage.entries = ⟨[1, 2, 3], [4], none⟩ := by
  constructor
  · have hrun : (runSteps Chronicle.step (startedChronicle 1) (leads ++
        [calmly (.request (.proposeConfigChange [1, 2, 4])), calmly (.gather (ackFrom 2 1)),
          calmly .commit, calmly .close])).map
        (fun t => (t.host.node.roll, t.ledger.history t.host.node.storage.entries)) =
        some (⟨[1, 2, 3, 4], [], some ([1, 2, 3], [1, 2, 4])⟩, ⟨[1, 2, 4], [], none⟩) := by
      decide +kernel
    obtain ⟨t, ht, hfacts⟩ := Option.map_eq_some_iff.mp hrun
    obtain ⟨hroll, hhistory⟩ := Prod.mk.inj hfacts
    exact ⟨t, booted_startedChronicle 1, Reaches.refl.steps ht fun _ _ _ => trivial, hroll,
      hhistory⟩
  · have hrun : (runSteps Chronicle.step (startedChronicle 2)
        [calmly (.act (.inbound enrolmentFrame)), calmly (.act (.inbound displacingFrame))]).map
        (fun t => (t.host.node.roll, t.ledger.history t.host.node.storage.entries)) =
        some (⟨[1, 2, 3], [4, 5], none⟩, ⟨[1, 2, 3], [4], none⟩) := by decide +kernel
    obtain ⟨t, ht, hfacts⟩ := Option.map_eq_some_iff.mp hrun
    obtain ⟨hroll, hhistory⟩ := Prod.mk.inj hfacts
    exact ⟨t, booted_startedChronicle 2, Reaches.refl.steps ht fun _ _ _ => trivial, hroll,
      hhistory⟩

end ArbitroRaft
