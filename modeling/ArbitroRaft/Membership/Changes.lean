import ArbitroRaft.Library.Reach
import ArbitroRaft.Membership.Calls

/-!
# Membership changes across a cluster

Any number of nodes run membership calls, handle frames, hold elections, apply
and restart, in any interleaving.  The changes the calls propose are collected;
a frame may bring a node any of those, in any order and as often as it likes.

The membership of a node stays well-formed as long as nobody asks for a voter
list with a repeated id, and no frame brings a change to a node whose own call
waits: `propose_config_change` does not look for repetitions, and a call that
fails takes the configuration back by comparing nothing but the log's length.

## Main results

* `memberships_wellFormed`: this, in every such run.
-/

namespace ArbitroRaft

open Library

/-- A node and the call that waits on it. -/
structure Host where
  node : RaftNode
  call : Option ConfigCall

inductive HostAct where
  | request (r : ConfigRequest)
  | gather (f : InboundRaftMessage)
  | commit
  | drain (f : InboundRaftMessage)
  | close
  | act (a : Action)
  | restart (config : NodeConfig)

namespace Host

/-- Continue a call; an error ends it. -/
def resume (m : RaftM (Option ConfigCall)) (n : RaftNode) : Host :=
  match m n with
  | .ok call n' => ⟨n', call⟩
  | .error _ n' => ⟨n', none⟩

/-- What a node does next.  While a call waits it has the node to itself. -/
def step (h : Host) (env : Env) (a : HostAct) : Option Host :=
  let n := h.node.within env
  match a, h.call with
  | .request r, none => some (resume (openCall r) n)
  | .gather f, some c => if c.committed then none else some (resume (gatherCall f c) n)
  | .commit, some c => if c.committed then none else some (resume (commitCall c) n)
  | .drain f, some c => if c.committed then some (resume (drainCall f c) n) else none
  | .close, some c => if c.committed then some (resume (closeCall c) n) else none
  | .act a, none => some ⟨a.run n, none⟩
  | .restart config, _ =>
    if config.nodeId = n.config.nodeId then
      (RaftNode.new config n.storage n.sent env).toOption.map fun m => ⟨m, none⟩
    else none
  | _, _ => none

/-- The change a step is about to propose. -/
def proposes (h : Host) : HostAct → List ConfigChangeEntry
  | .request r =>
    match h.node.decision r with
    | .propose entry => [entry]
    | _ => []
  | .close =>
    match h.call with
    | some c => if c.entry.phase = .joint then [c.entry.toFinal] else []
    | none => []
  | _ => []

end Host

/-- The nodes and every change proposed so far. -/
structure Changes where
  hosts : PeerId → Host
  proposed : List ConfigChangeEntry

structure ChangeStep where
  site : PeerId
  env : Env
  act : HostAct

namespace Changes

def step (s : Changes) (a : ChangeStep) : Option Changes :=
  ((s.hosts a.site).step a.env a.act).map fun h =>
    { hosts := Function.update s.hosts a.site h
      proposed := s.proposed ++ (s.hosts a.site).proposes a.act }

end Changes

/-! ## Which steps are considered -/

/-- The action proposes application payloads only.  The public entry points
refuse a payload that starts with the reserved byte. -/
def Action.AppOnly : Action → Prop
  | .startPropose payloads | .replicate payloads =>
    ∀ p ∈ payloads, ConfigChangeEntry.decode p = none
  | .configChange _ => False
  | _ => True

/-- Frames carry changes that were proposed; ids are `u64`. -/
def Changes.Genuine (s : Changes) (a : ChangeStep) : Prop :=
  match a.act with
  | .request r => ∀ p ∈ r.ids, p ≤ u64Max
  | .gather f | .drain f => f.Vetted (· ∈ s.proposed)
  | .act a => a.AppOnly ∧ ∀ f, a.frame = some f → f.Vetted (· ∈ s.proposed)
  | .restart config => ∀ p, p ∈ config.peers ∨ p ∈ config.learners → p ≤ u64Max
  | .commit | .close => True

/-- Requests are free of repetitions, and a waiting call sees no change of
another leader. -/
def Changes.Orderly (s : Changes) (a : ChangeStep) : Prop :=
  match a.act with
  | .request r => r.Distinct (s.hosts a.site).node
  | .gather f | .drain f => f.Vetted fun _ => False
  | .commit | .close | .act _ | .restart _ => True

/-- Every node was just started on a configuration that passed the checks, and
no log holds a change. -/
def Changes.Booted (s : Changes) : Prop :=
  s.proposed = [] ∧ ∀ i, (s.hosts i).call = none ∧
    (∀ p, (s.hosts i).node.Member p → p ≤ u64Max) ∧
    ∃ config storage sent env, RaftNode.new config storage sent env = .ok (s.hosts i).node ∧
      ∀ e ∈ storage.entries, ConfigChangeEntry.decode e.payload = none

/-! ## What every step keeps -/

variable {P Q : ConfigChangeEntry → Prop} {n : RaftNode} {env : Env}

theorem RaftNode.Vetted.mono (h : n.Vetted P) (hPQ : ∀ c, P c → Q c) : n.Vetted Q :=
  ⟨h.toRoster, fun e he c hdec => hPQ c (h.log e he c hdec)⟩

theorem RaftNode.Vetted.within (h : n.Vetted P) (env : Env) : (n.within env).Vetted P :=
  ⟨h.toRoster.of_keys ⟨rfl, rfl⟩ rfl rfl, h.log⟩

theorem Holds.mono {call : Option ConfigCall} (h : Holds P call n) (hPQ : ∀ c, P c → Q c) :
    Holds Q call n :=
  ⟨h.node.mono hPQ, fun c hc => ⟨hPQ _ (h.call c hc).1, (h.call c hc).2⟩⟩

theorem Holds.within {call : Option ConfigCall} (h : Holds P call n) (env : Env) :
    Holds P call (n.within env) :=
  ⟨h.node.within env, fun c hc => ⟨(h.call c hc).1, (h.call c hc).2.congr ⟨rfl, rfl⟩⟩⟩

theorem InboundRaftMessage.Vetted.mono {f : InboundRaftMessage} (h : f.Vetted P)
    (hPQ : ∀ c, P c → Q c) : f.Vetted Q :=
  fun msg entries hf e he c hdec => hPQ c (h msg entries hf e he c hdec)

/-- A configuration that passed the checks is sound. -/
theorem validateLearners_ok {peers seen learners : List PeerId}
    (h : validateLearners peers seen learners = .ok ()) :
    learners.Nodup ∧ (∀ p ∈ learners, p ∉ peers) ∧ ∀ p ∈ learners, p ∉ seen := by
  induction learners generalizing seen with
  | nil => simp
  | cons x xs ih =>
    unfold validateLearners at h
    split at h
    · cases h
    · rename_i hseen
      split at h
      · cases h
      · rename_i hpeer
        obtain ⟨hnodup, hapart, hfresh⟩ := ih h
        refine ⟨List.nodup_cons.mpr ⟨?_, hnodup⟩, ?_, ?_⟩
        · exact fun hx => hfresh x hx List.mem_cons_self
        · exact List.forall_mem_cons.mpr ⟨hpeer, hapart⟩
        · refine List.forall_mem_cons.mpr ⟨hseen, fun p hp hmem => ?_⟩
          exact hfresh p hp (List.mem_cons_of_mem x hmem)

theorem validateNodeConfig_ok {cfg : NodeConfig} (h : validateNodeConfig cfg = .ok ()) :
    cfg.peers ≠ [] ∧ cfg.peers.Nodup ∧ validateLearners cfg.peers [] cfg.learners = .ok () := by
  unfold validateNodeConfig at h
  by_cases hne : cfg.peers = []
  · rw [if_pos hne] at h
    cases h
  by_cases hself : cfg.nodeId ∉ cfg.peers ∧ cfg.nodeId ∉ cfg.learners
  · rw [if_neg hne, if_pos hself] at h
    cases h
  by_cases hboot : cfg.bootstrapPeers = []
  · rw [if_neg hne, if_neg hself, if_pos hboot] at h
    cases h
  by_cases hseed : cfg.nodeId ∉ cfg.bootstrapPeers
  · rw [if_neg hne, if_neg hself, if_neg hboot, if_pos hseed] at h
    cases h
  by_cases hdup : ¬ cfg.peers.Nodup
  · rw [if_neg hne, if_neg hself, if_neg hboot, if_neg hseed, if_pos hdup] at h
    cases h
  rw [if_neg hne, if_neg hself, if_neg hboot, if_neg hseed, if_neg hdup] at h
  refine ⟨hne, not_not.mp hdup, ?_⟩
  cases hl : validateLearners cfg.peers [] cfg.learners with
  | ok u => rfl
  | error e =>
    rw [hl] at h
    cases h

theorem roster_of_new {config : NodeConfig} {storage : Storage} {sent : List SentFrame}
    (h : RaftNode.new config storage sent env = .ok n) (hids : ∀ p, n.Member p → p ≤ u64Max) :
    n.Roster := by
  have hvalid : validateNodeConfig config = .ok () := by
    unfold RaftNode.new at h
    cases hv : validateNodeConfig config with
    | ok u => rfl
    | error e =>
      rw [hv] at h
      cases h
  obtain ⟨hne, hnodup, hlearners⟩ := validateNodeConfig_ok hvalid
  obtain ⟨hlnodup, hapart, -⟩ := validateLearners_ok hlearners
  obtain rfl := RaftNode.new_eq h
  refine ⟨⟨⟨⟨hnodup, hlnodup, hapart, fun _ _ h => nomatch h⟩, hne⟩, fun h => ?_⟩, ?_, hids⟩
  · cases h
  · exact List.nodup_nil

/-- An action of a node that runs no call. -/
theorem Action.vetted (hP : ∀ c, P c → c.Sound) {a : Action} (hn : n.Vetted P) (happ : a.AppOnly)
    (hf : ∀ f, a.frame = some f → f.Vetted P) : (a.run n).Vetted P := by
  have hsc : (a.scope n False).Vetted P := by
    refine ⟨hf, ?_, ?_⟩
    · rintro payloads (rfl | rfl) p hp c hdec
      · rw [happ p hp] at hdec
        cases hdec
      · rw [happ p hp] at hdec
        cases hdec
    · intro c hch
      have hch : a.reconfigures n = some c := hch
      cases a with
      | configChange entry => exact happ.elim
      | applyNext =>
        simp only [Action.reconfigures] at hch
        split at hch
        · obtain ⟨e, he, hdec⟩ := Option.bind_eq_some_iff.mp hch
          refine hn.log e ?_ c hdec
          exact List.mem_reverse.mp (List.mem_of_find?_eq_some he)
        · cases hch
      | _ => cases hch
  exact Action.preserves hn fun m m' hm he => he.vetted hP hsc hm

/-- The steps of a node, read off. -/
inductive HostStep (h : Host) (n : RaftNode) : HostAct → Host → Prop
  | request (r : ConfigRequest) : h.call = none →
      HostStep h n (.request r) (Host.resume (openCall r) n)
  | gather (f : InboundRaftMessage) (c : ConfigCall) : h.call = some c →
      HostStep h n (.gather f) (Host.resume (gatherCall f c) n)
  | commit (c : ConfigCall) : h.call = some c →
      HostStep h n .commit (Host.resume (commitCall c) n)
  | drain (f : InboundRaftMessage) (c : ConfigCall) : h.call = some c →
      HostStep h n (.drain f) (Host.resume (drainCall f c) n)
  | close (c : ConfigCall) : h.call = some c →
      HostStep h n .close (Host.resume (closeCall c) n)
  | act (a : Action) : HostStep h n (.act a) ⟨a.run n, none⟩
  | restart (config : NodeConfig) (m : RaftNode) :
      RaftNode.new config n.storage n.sent n.env = .ok m →
      HostStep h n (.restart config) ⟨m, none⟩

theorem Host.step_inv {h h' : Host} {a : HostAct} (hstep : h.step env a = some h') :
    HostStep h (h.node.within env) a h' := by
  unfold Host.step at hstep
  dsimp only at hstep
  split at hstep
  · rename_i r hc
    cases hstep
    exact .request r hc
  · rename_i f c hc
    split at hstep
    · cases hstep
    · cases hstep
      exact .gather f c hc
  · rename_i c hc
    split at hstep
    · cases hstep
    · cases hstep
      exact .commit c hc
  · rename_i f c hc
    split at hstep
    · cases hstep
      exact .drain f c hc
    · cases hstep
  · rename_i c hc
    split at hstep
    · cases hstep
      exact .close c hc
    · cases hstep
  · cases hstep
    exact .act _
  · rename_i config
    split at hstep
    · obtain ⟨m, hm, rfl⟩ := Option.map_eq_some_iff.mp hstep
      refine .restart config m ?_
      cases hn : RaftNode.new config (h.node.within env).storage (h.node.within env).sent env with
      | error e =>
        rw [hn] at hm
        cases hm
      | ok m' =>
        rw [hn] at hm
        cases hm
        exact hn
    · cases hstep
  · cases hstep

/-- What a continued call leaves behind. -/
theorem Ends.resumed {J : Option ConfigCall → RaftNode → Prop} {m : RaftM (Option ConfigCall)}
    (h : Ends m n J (J none)) : J (Host.resume m n).call (Host.resume m n).node := by
  unfold Ends at h
  unfold Host.resume
  cases hrun : m n with
  | ok call n' =>
    rw [hrun] at h
    exact h
  | error e n' =>
    rw [hrun] at h
    exact h

theorem Ends.resumedHolds {m : RaftM (Option ConfigCall)}
    (h : Ends m n (Holds P) (fun n' => n'.Vetted P)) :
    Holds P (Host.resume m n).call (Host.resume m n).node := by
  refine Ends.resumed (h.mono (fun _ _ h => h) fun n' hn' => ?_)
  exact ⟨hn', fun _ h => nomatch h⟩

/-- What keeps a node sound: its frames carry known changes, none of them while
a call waits, and what it is about to propose is known and sound. -/
structure Host.Admits (h : Host) (P : ConfigChangeEntry → Prop) (a : HostAct) : Prop where
  proposes : ∀ c ∈ h.proposes a, P c
  joint : ∀ r entry, a = .request r → h.node.decision r = .propose entry →
    entry.phase = .joint → entry.oldPeers = h.node.config.peers
  frames : ∀ f, a = .gather f ∨ a = .drain f → f.Vetted fun _ => False
  act : ∀ b, a = .act b → b.AppOnly ∧ ∀ f, b.frame = some f → f.Vetted P
  ids : ∀ config, a = .restart config →
    ∀ p, p ∈ config.peers ∨ p ∈ config.learners → p ≤ u64Max

theorem Host.step_holds (hP : ∀ c, P c → c.Sound) {h h' : Host} {a : HostAct}
    (hh : Holds P h.call h.node) (hstep : h.step env a = some h') (ha : h.Admits P a) :
    Holds P h'.call h'.node := by
  have hwithin := hh.within env
  cases Host.step_inv hstep with
  | request r hc =>
    refine Ends.resumedHolds (openCall_ends hP hwithin.node fun entry hdec => ⟨?_, ?_⟩)
    · have hdec : h.node.decision r = .propose entry := hdec
      refine ha.proposes entry ?_
      simp only [Host.proposes, hdec, List.mem_singleton]
    · exact ha.joint r entry rfl hdec
  | gather f c hc =>
    rw [hc] at hwithin
    exact Ends.resumedHolds (gatherCall_ends hP hwithin (ha.frames f (.inl rfl)))
  | commit c hc =>
    rw [hc] at hwithin
    exact Ends.resumedHolds (commitCall_ends hP hwithin)
  | drain f c hc =>
    rw [hc] at hwithin
    exact Ends.resumedHolds (drainCall_ends hP hwithin (ha.frames f (.inr rfl)))
  | close c hc =>
    rw [hc] at hwithin
    refine Ends.resumedHolds (closeCall_ends hP hwithin fun hphase => ha.proposes _ ?_)
    simp only [Host.proposes, hc, if_pos hphase, List.mem_singleton]
  | act b =>
    obtain ⟨happ, hf⟩ := ha.act b rfl
    exact ⟨Action.vetted hP hwithin.node happ hf, fun _ h => nomatch h⟩
  | restart config m hnew =>
    have heq := RaftNode.new_eq hnew
    refine ⟨⟨roster_of_new hnew ?_, ?_⟩, fun _ h => nomatch h⟩
    · subst heq
      exact ha.ids config rfl
    · subst heq
      exact hh.node.log

/-- What every reached cluster satisfies. -/
structure Changes.Sound (s : Changes) : Prop where
  proposed : ∀ c ∈ s.proposed, c.Sound
  hosts : ∀ i, Holds (· ∈ s.proposed) (s.hosts i).call (s.hosts i).node

theorem Changes.Booted.sound {s : Changes} (h : s.Booted) : s.Sound where
  proposed c hc := by
    rw [h.1] at hc
    cases hc
  hosts i := by
    obtain ⟨hcall, hids, config, storage, sent, env, hnew, hlog⟩ := h.2 i
    have heq := RaftNode.new_eq hnew
    refine ⟨⟨roster_of_new hnew hids, ?_⟩, fun c hc => ?_⟩
    · intro e he c hdec
      rw [heq] at he
      rw [hlog e he] at hdec
      cases hdec
    · rw [hcall] at hc
      cases hc

theorem ConfigChangeEntry.Sound.toFinal {c : ConfigChangeEntry} (h : c.Sound) :
    c.toFinal.Sound where
  old_length := h.old_length
  new_length := h.new_length
  old_ids := h.old_ids
  new_ids := h.new_ids
  old_ne hphase := ConfigChangePhase.noConfusion hphase
  old_nodup := h.old_nodup
  new_ne := h.new_ne
  new_nodup := h.new_nodup

/-- The change an orderly step proposes is sound. -/
theorem Changes.Sound.proposes {s : Changes} (hs : s.Sound) {a : ChangeStep}
    (hg : s.Genuine a) (ho : s.Orderly a) : ∀ c ∈ (s.hosts a.site).proposes a.act, c.Sound := by
  intro c hc
  unfold Changes.Genuine at hg
  unfold Changes.Orderly at ho
  unfold Host.proposes at hc
  cases hact : a.act with
  | request r =>
    rw [hact] at hg ho hc
    cases hdec : (s.hosts a.site).node.decision r with
    | propose entry =>
      simp only [hdec, List.mem_singleton] at hc
      exact hc ▸ (decision_sound (hs.hosts a.site).node.toRoster hdec hg ho).1
    | refuse e => simp [hdec] at hc
    | handOff target => simp [hdec] at hc
  | close =>
    rw [hact] at hc
    cases hcall : (s.hosts a.site).call with
    | none => simp [hcall] at hc
    | some call =>
      simp only [hcall] at hc
      split at hc
      · rw [List.mem_singleton] at hc
        have hsound := hs.proposed _ ((hs.hosts a.site).call call hcall).1
        exact hc ▸ hsound.toFinal
      · cases hc
  | _ =>
    rw [hact] at hc
    cases hc

theorem Changes.Sound.step {s t : Changes} {a : ChangeStep} (hs : s.Sound)
    (hg : s.Genuine a) (ho : s.Orderly a) (hstep : s.step a = some t) : t.Sound := by
  obtain ⟨h', hh', rfl⟩ := Option.map_eq_some_iff.mp hstep
  have hnew := hs.proposes hg ho
  have hproposed : ∀ c ∈ s.proposed ++ (s.hosts a.site).proposes a.act, c.Sound := by
    intro c hc
    rcases List.mem_append.mp hc with hc | hc
    · exact hs.proposed c hc
    · exact hnew c hc
  have hmono : ∀ c, c ∈ s.proposed → c ∈ s.proposed ++ (s.hosts a.site).proposes a.act :=
    fun c hc => List.mem_append_left _ hc
  have hadmits : (s.hosts a.site).Admits
      (· ∈ s.proposed ++ (s.hosts a.site).proposes a.act) a.act := by
    unfold Changes.Genuine at hg
    unfold Changes.Orderly at ho
    refine ⟨fun c hc => List.mem_append_right _ hc, ?_, ?_, ?_, ?_⟩
    · intro r entry hact hdec
      rw [hact] at hg ho
      exact (decision_sound (hs.hosts a.site).node.toRoster hdec hg ho).2
    · rintro f (hact | hact)
      · rw [hact] at ho
        exact ho
      · rw [hact] at ho
        exact ho
    · intro b hact
      rw [hact] at hg
      exact ⟨hg.1, fun f hf => (hg.2 f hf).mono hmono⟩
    · intro config hact
      rw [hact] at hg
      exact hg
  refine ⟨hproposed, fun i => ?_⟩
  by_cases hi : i = a.site
  · subst hi
    simp only [Function.update_self]
    exact Host.step_holds hproposed ((hs.hosts a.site).mono hmono) hh' hadmits
  · simp only [Function.update_of_ne hi]
    exact (hs.hosts i).mono hmono

/-- Along any run of orderly steps every membership is well-formed. -/
theorem memberships_wellFormed {s t : Changes} (hs : s.Booted)
    (h : Reaches Changes.step (fun s a => s.Genuine a ∧ s.Orderly a) s t) (i : PeerId) :
    (t.hosts i).node.WellFormed := by
  have hsound : t.Sound := h.invariant hs.sound fun u v a hu ha hstep =>
    hu.step ha.1 ha.2 hstep
  exact (hsound.hosts i).node.toWellFormed

/-! ## Runs -/

/-- Three voters and the learner 4. -/
def stagedConfig (i : PeerId) : NodeConfig :=
  { trioConfig (if i = 2 ∨ i = 3 then i else 1) with learners := [4] }

def stagedCluster : Changes where
  hosts i :=
    { node := RaftNode.fromStorage (stagedConfig i) (Storage.empty false) [] (Env.calm 0)
      call := none }
  proposed := []

theorem booted_stagedCluster : stagedCluster.Booted := by
  refine ⟨rfl, fun i => ⟨rfl, ?_, stagedConfig i, Storage.empty false, [], Env.calm 0, ?_, ?_⟩⟩
  · intro p hp
    have hp : p ∈ [1, 2, 3] ∨ p ∈ [4] := hp
    simp only [List.mem_cons, List.not_mem_nil, or_false] at hp
    rcases hp with (rfl | rfl | rfl) | rfl <;> decide
  · unfold stagedCluster stagedConfig
    dsimp only
    by_cases h₂ : i = 2
    · subst h₂
      rfl
    · by_cases h₃ : i = 3
      · subst h₃
        rfl
      · rw [if_neg (not_or.mpr ⟨h₂, h₃⟩)]
        rfl
  · intro e he
    cases he

/-- A step of node `i` in which nothing fails. -/
def calmStep (i : PeerId) (a : HostAct) : ChangeStep := ⟨i, Env.calm 0, a⟩

/-- Node `i` wins `term` with the vote of `voter`. -/
def winsTerm (i term : Nat) (voter : PeerId) : List ChangeStep :=
  [calmStep i (.act .startElection),
    calmStep i (.act (.countVotes term [⟨voter, .requestVoteResp ⟨term, true⟩⟩] [i])),
    calmStep i (.act (.assumeLeadership term))]

theorem admitted_winsTerm {i term : Nat} {voter : PeerId} :
    ∀ a ∈ winsTerm i term voter, ∀ s : Changes, s.Genuine a ∧ s.Orderly a := by
  intro a ha s
  simp only [winsTerm, List.mem_cons, List.not_mem_nil, or_false] at ha
  rcases ha with rfl | rfl | rfl <;>
    exact ⟨⟨trivial, fun _ h => nomatch h⟩, trivial⟩

/-- A voter is replaced: the request is in force, as a joint configuration. -/
theorem memberships_wellFormed_joint :
    ∃ t, Reaches Changes.step (fun s a => s.Genuine a ∧ s.Orderly a) stagedCluster t ∧
      (t.hosts 1).node.jointPeers = some ([1, 2, 3], [1, 2, 4]) ∧
      (t.hosts 1).node.WellFormed := by
  have hrun : ((runSteps Changes.step stagedCluster (winsTerm 1 1 2)).bind fun u =>
      (u.step (calmStep 1 (.request (.proposeConfigChange [1, 2, 4])))).map fun t =>
        ((u.hosts 1).node.config.peers, (t.hosts 1).node.jointPeers)) =
      some ([1, 2, 3], some ([1, 2, 3], [1, 2, 4])) := by decide +kernel
  obtain ⟨u, hu, hrun⟩ := Option.bind_eq_some_iff.mp hrun
  obtain ⟨t, ht, hfacts⟩ := Option.map_eq_some_iff.mp hrun
  obtain ⟨hpeers, hjoint⟩ := Prod.mk.inj hfacts
  have hwon : Reaches Changes.step (fun s a => s.Genuine a ∧ s.Orderly a) stagedCluster u :=
    Reaches.refl.steps hu admitted_winsTerm
  have hreach := hwon.next _ ⟨?_, ?_⟩ ht
  · exact ⟨t, hreach, hjoint, memberships_wellFormed booted_stagedCluster hreach 1⟩
  · change ∀ p ∈ [1, 2, 4], p ≤ u64Max
    decide
  · change [1, 2, 4].Nodup ∧ 3 < 2 ^ 32 ∧ (u.hosts 1).node.config.peers.length < 2 ^ 32
    rw [hpeers]
    decide

def ackFrom (peer : PeerId) (index : Nat) : InboundRaftMessage :=
  ⟨peer, .appendEntriesResp { term := 1, matchIndex := index, success := true, probe := 0 }⟩

theorem ackFrom_vetted (P : ConfigChangeEntry → Prop) (peer : PeerId) (index : Nat) :
    (ackFrom peer index).Vetted P :=
  fun _ _ h => nomatch h

/-- A leader asks for a voter list that names node 2 twice, commits the change
and applies it: node 2 now counts twice in every quorum. -/
theorem membership_repeats_voter :
    ∃ t, stagedCluster.Booted ∧ Reaches Changes.step Changes.Genuine stagedCluster t ∧
      (t.hosts 1).node.config.peers = [1, 2, 2] ∧ ¬ (t.hosts 1).node.WellFormed := by
  have hrun : (runSteps Changes.step stagedCluster (winsTerm 1 1 2 ++
      [calmStep 1 (.request (.proposeConfigChange [1, 2, 2])),
        calmStep 1 (.gather (ackFrom 2 1)), calmStep 1 .commit, calmStep 1 .close,
        calmStep 1 (.gather (ackFrom 2 2)), calmStep 1 .commit, calmStep 1 .close,
        calmStep 1 (.act .applyNext), calmStep 1 (.act .applyNext)])).map
      (fun t => (t.hosts 1).node.config.peers) = some [1, 2, 2] := by decide +kernel
  obtain ⟨t, ht, hpeers⟩ := Option.map_eq_some_iff.mp hrun
  refine ⟨t, booted_stagedCluster, Reaches.refl.steps ht ?_, hpeers, fun hwf => ?_⟩
  · intro a ha s
    rcases List.mem_append.mp ha with ha | ha
    · exact (admitted_winsTerm a ha s).1
    · simp only [List.mem_cons, List.not_mem_nil, or_false] at ha
      rcases ha with rfl | rfl | rfl | rfl | rfl | rfl | rfl | rfl | rfl
      · change ∀ p ∈ [1, 2, 2], p ≤ u64Max
        decide
      · exact ackFrom_vetted _ 2 1
      · exact trivial
      · exact trivial
      · exact ackFrom_vetted _ 2 2
      · exact trivial
      · exact trivial
      · exact ⟨trivial, fun _ h => nomatch h⟩
      · exact ⟨trivial, fun _ h => nomatch h⟩
  · have hnodup := hwf.peers_nodup
    rw [hpeers] at hnodup
    exact absurd hnodup (by decide)

end ArbitroRaft
