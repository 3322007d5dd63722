import ArbitroRaft.Effect.Campaign
import ArbitroRaft.Effect.Driver

/-!
# A node as a state machine

The methods of a node are asynchronous: between two points where a method waits
for a frame nothing else runs on the node, and what runs in between is an
`Action`.  A campaign is `startElection`, then for each batch of frames a
`countVotes` and the `inbound` frames, and `assumeLeadership` in the end; a
proposal is `startPropose`, a `gatherFrame` for each frame and `finishPropose`.
`Machine/Calls.lean` and `Cluster/Basic.lean` show that the methods do nothing
beyond such actions.

The actions may come in any order and with any arguments here, which allows
more than the methods do.  `Action.moves` gives every action its chain of
effects, in the `Scope` that says what the action may do.
-/

namespace ArbitroRaft

open Library

inductive Action where
  | startElection
  | countVotes (term : Nat) (batch : List InboundRaftMessage) (granted : List PeerId)
  | assumeLeadership (term : Nat)
  | startPreVote
  | inbound (f : InboundRaftMessage)
  | startPropose (payloads : List EntryPayload)
  | gatherFrame (f : InboundRaftMessage) (g : Gather)
  | finishPropose (g : Gather)
  | replicate (payloads : List EntryPayload)
  | tryAdvance
  | openTick
  | bareHeartbeat (peer : PeerId)
  | appendAttempt (peer : PeerId)
  | bareHeartbeatsExcept (skip : PeerId)
  | batchedHeartbeats
  | admitInstall (peer : PeerId)
  | sendChunk (i : Install)
  | advanceInstall (i : Install) (resp : InstallSnapshotResp)
  | installSucceeded (peer : PeerId) (boundary : Nat)
  | sendTimeoutNow (target : PeerId) (term : Nat)
  | bumpReadProbe
  | restore
  | applyNext
  | compact
  | configChange (entry : ConfigChangeEntry)
  | abdicate
  | degrade

/-- Run a computation for its effect. -/
def RaftM.ignore {α : Type} (m : RaftM α) : RaftM Unit := do
  let _ ← m
  return ()

/-- The opening of a tick: progress and the list of peers to serve. -/
def RaftNode.openTick (n : RaftNode) : RaftNode :=
  if n.isLeader then
    n.ensureLeaderProgressInitialized.setScratchPeers
      n.ensureLeaderProgressInitialized.replicationTargets
  else n

/-- One turn of the apply loop, behind its guard. -/
def applyIfCommitted : RaftM Unit := do
  let n ← get
  if n.lastApplied + 1 ≤ n.softState.commitIndex then RaftM.ignore applyNext
  else return ()

namespace Action

def perform : Action → RaftM Unit
  | startElection => RaftM.ignore ArbitroRaft.startElection
  | countVotes term batch granted =>
    RaftM.ignore (countVoteResponses term batch granted)
  | assumeLeadership term => RaftM.ignore (ArbitroRaft.assumeLeadership term)
  | startPreVote => RaftM.ignore ArbitroRaft.startPreVote
  | inbound f => handleInbound f
  | startPropose payloads => RaftM.ignore (ArbitroRaft.startPropose payloads)
  | gatherFrame f g => RaftM.ignore (ArbitroRaft.gatherFrame f g)
  | finishPropose g => ArbitroRaft.finishPropose g
  | replicate payloads => RaftM.ignore (replicateBatchAsync payloads)
  | tryAdvance => tryAdvanceCommitIndex
  | openTick => modify RaftNode.openTick
  | bareHeartbeat peer => sendBareHeartbeat peer
  | appendAttempt peer => RaftM.ignore (sendAppendAttempt peer)
  | bareHeartbeatsExcept skip => sendBareHeartbeatsExcept skip
  | batchedHeartbeats => sendBatchedHeartbeats
  | admitInstall peer => RaftM.ignore (ArbitroRaft.admitInstall peer)
  | sendChunk i => ArbitroRaft.sendChunk i
  | advanceInstall i resp => RaftM.ignore (ArbitroRaft.advanceInstall i resp)
  | installSucceeded peer boundary => modify fun n => n.installSucceeded peer boundary
  | sendTimeoutNow target term => ArbitroRaft.sendTimeoutNow target term
  | bumpReadProbe => ArbitroRaft.bumpReadProbe
  | restore => RaftM.ignore restoreStateMachineFromSnapshot
  | applyNext => applyIfCommitted
  | compact => maybeCompact
  | configChange entry => applyConfigChange entry
  | abdicate => abdicateIfIsolated
  | degrade => degradeOnResourceExhaustion

/-- The node after an action. -/
def run (a : Action) (n : RaftNode) : RaftNode := a.perform.after n

/-- The frame an action handles. -/
def frame : Action → Option InboundRaftMessage
  | inbound f | gatherFrame f _ => some f
  | _ => none

/-- The frames an action reads. -/
def hears : Action → List InboundRaftMessage
  | inbound f | gatherFrame f _ => [f]
  | countVotes _ batch _ => batch
  | advanceInstall i resp => [⟨i.peer, .installSnapshotResp resp⟩]
  | _ => []

/-- The action appends entries of the node's own. -/
def appends : Action → Bool
  | startPropose _ | replicate _ => true
  | _ => false

/-- The action belongs to the gather of a proposal. -/
def gathers : Action → Bool
  | startPropose _ | gatherFrame _ _ => true
  | _ => false

/-- The action writes the responders of a campaign. -/
def polls : Action → Bool
  | startElection | startPreVote | countVotes _ _ _ => true
  | _ => false

/-- The configuration change an action puts in force. -/
def reconfigures (a : Action) (n : RaftNode) : Option ConfigChangeEntry :=
  match a with
  | configChange entry => some entry
  | applyNext =>
    if n.lastApplied + 1 ≤ n.softState.commitIndex then
      (n.storage.entryAt (n.lastApplied + 1)).bind
        fun e => ConfigChangeEntry.decode e.payload
    else none
  | _ => none

/-- The action steps down in the current term: check-quorum abdication, or a
leader that removes itself from the voters. -/
def resigns (a : Action) (n : RaftNode) : Bool :=
  match a with
  | abdicate => n.isLeader && !n.checkQuorumActive
  | _ => (a.reconfigures n).any n.removedBy

/-- The action may decide to commit `q`. -/
def Decides (a : Action) (n : RaftNode) (q : Nat) : Prop :=
  match a with
  | tryAdvance => n.MeetsQuorum q
  | finishPropose g => n.CommitsGather g q
  | _ => False

/-- What an action may do when it starts in `n`. -/
def scope (a : Action) (n : RaftNode) (strict : Prop) : Scope where
  rx f := a.frame = some f
  stands c := a = startElection ∧ c = n.core
  crowns t := a = assumeLeadership t
  demotes c :=
    a.resigns n = true ∧ (c = n.core ∨ ∃ entry, c = (n.reconfigured entry).core)
  appends := a.appends = true
  batch payloads := a = startPropose payloads ∨ a = replicate payloads
  restores := a = restore
  compacts := a = compact
  control := a = applyNext ∨ ∃ entry, a = configChange entry
  change entry := a.reconfigures n = some entry
  gather g := a = finishPropose g
  pends _ _ := a.gathers = true
  strict := strict
  fresh c := c = n.core
  raises t := ∃ f ∈ a.hears, f.message.observedTerm = some t
  refuses t := (∃ f ∈ a.hears, f.message.observedTerm = some t) ∧ n.Unsaved ⟨t, none⟩
  decides c q := c.cachedLastLog = n.cachedLastLog ∧ a.Decides n q
  completes := n.Completes
  probes := a = bumpReadProbe
  polls := a.polls = true

theorem finds_scope {a : Action} {n : RaftNode} {strict : Prop} {f : InboundRaftMessage} {t : Nat}
    (hf : f ∈ a.hears) (ht : f.message.observedTerm = some t) : n.Finds (a.scope n strict) t :=
  ⟨⟨f, hf, ht⟩, fun hu => ⟨⟨f, hf, ht⟩, hu⟩⟩

theorem known_scope {a : Action} {n : RaftNode} {strict : Prop} {f : InboundRaftMessage}
    (hf : f ∈ a.hears) : n.Known (a.scope n strict) f.message :=
  ⟨fun _ _ _ h => h, fun _ => finds_scope hf⟩

/-- What a strict scope asks of an action. -/
def Plain (a : Action) (n : RaftNode) : Prop :=
  match a with
  | inbound f => Shaped f.message
  | gatherFrame f _ =>
    Shaped f.message ∧ (n.isLeader = true ∨ n.peerProgress = PeerMap.empty)
  | bareHeartbeat peer => peer ≠ n.config.nodeId
  | appendAttempt peer => n.isLeader = true ∧ peer ≠ n.config.nodeId
  | sendTimeoutNow target _ => target ≠ n.config.nodeId
  | sendChunk _ | installSucceeded _ _ | compact => False
  | _ => True

end Action

/-! ## Every action is a chain of effects -/

section

variable {sc : Scope} {n : RaftNode} {α : Type}

variable {m : RaftM α} {n' : RaftNode}

theorem ignore_emits {Q : α → RaftNode → Prop} (h : Emits (Moves sc) m n Q) :
    Emits (Moves sc) (RaftM.ignore m) n (fun _ _ => True) := by
  refine h.seq ?_
  intro _ _ _ _
  exact .ret trivial

theorem Emits.after {R : RaftNode → RaftNode → Prop} {Q : α → RaftNode → Prop} (h : Emits R m n Q) :
    R n (m.after n) := by
  unfold RaftM.after EStateM.run
  unfold Emits at h
  split
  · rename_i hm
    rw [hm] at h
    exact h.1
  · rename_i hm
    rw [hm] at h
    exact h

theorem after_of_ok {a : α} (h : m n = .ok a n') : m.after n = n' := by
  unfold RaftM.after EStateM.run
  rw [h]

theorem after_of_error {e : RaftError} (h : m n = .error e n') : m.after n = n' := by
  unfold RaftM.after EStateM.run
  rw [h]

theorem after_of_eq {m m' : RaftM α} (h : m n = m' n') : m.after n = m'.after n' := by
  unfold RaftM.after EStateM.run
  rw [h]

/-- A postcondition of both outcomes. -/
theorem Ends.after {Q : RaftNode → Prop} (h : Ends m n (fun _ n' => Q n') Q) : Q (m.after n) := by
  unfold RaftM.after EStateM.run
  unfold Ends at h
  cases hm : m n with
  | ok a n' =>
    rw [hm] at h
    exact h
  | error e n' =>
    rw [hm] at h
    exact h

theorem Ends.of_after {Q : RaftNode → Prop} (h : Q (m.after n)) :
    Ends m n (fun _ n' => Q n') Q := by
  unfold RaftM.after EStateM.run at h
  unfold Ends
  cases hm : m n with
  | ok a n' =>
    rw [hm] at h
    exact h
  | error e n' =>
    rw [hm] at h
    exact h

/-- What a computation returns, if it returns. -/
def RaftM.result? (m : RaftM α) (n : RaftNode) : Option α :=
  match m.run n with
  | .ok a _ => some a
  | .error _ _ => none

theorem RaftM.ok_of_result? {a : α} (h : m.result? n = some a) : m n = .ok a (m.after n) := by
  unfold RaftM.result? EStateM.run at h
  unfold RaftM.after EStateM.run
  cases hm : m n with
  | ok b n' =>
    rw [hm] at h
    cases h
    rfl
  | error e n' =>
    rw [hm] at h
    cases h

theorem Moves.openTick (n : RaftNode) : Moves sc n n.openTick := by
  unfold RaftNode.openTick
  split
  · rename_i hl
    have hq : Moves sc n.ensureLeaderProgressInitialized
        (n.ensureLeaderProgressInitialized.setScratchPeers
          n.ensureLeaderProgressInitialized.replicationTargets) := .quiet rfl
    exact trans_of (Moves sc) (.ensureProgress hl) hq
  · exact refl_of (Moves sc) n

end

variable {n m : RaftNode} {a : Action} {strict : Prop}

theorem applyNext_scope_emits (hle : n.lastApplied + 1 ≤ n.softState.commitIndex) (strict : Prop) :
    Emits (Moves (Action.applyNext.scope n strict)) applyNext n
      (fun _ n' => n'.softState.commitIndex = n.softState.commitIndex) := by
  refine applyNext_emits (.inl rfl) ?_ ?_ hle
  · intro e entry he hdec
    change Action.applyNext.reconfigures n = some entry
    simp only [Action.reconfigures, if_pos hle, he, Option.bind_some, hdec]
  · intro e entry he hdec hout
    refine ⟨?_, .inr ⟨entry, rfl⟩⟩
    simp only [Action.resigns, Action.reconfigures, if_pos hle, he, Option.bind_some, hdec,
      Option.any_some, hout]

/-- What an action does is a chain of effects of its scope. -/
theorem Action.perform_emits (a : Action) (n : RaftNode) (strict : Prop) (hp : strict → a.Plain n) :
    Emits (Moves (a.scope n strict)) a.perform n (fun _ _ => True) := by
  cases a with
  | startElection => exact ignore_emits (startElection_emits ⟨rfl, rfl⟩ rfl)
  | countVotes term batch granted =>
    exact ignore_emits (countVoteResponses_emits _ _ _ (fun _ hf _ => finds_scope hf) rfl)
  | assumeLeadership term => exact ignore_emits (assumeLeadership_emits rfl)
  | startPreVote => exact ignore_emits (startPreVote_emits rfl)
  | inbound f => exact handleInbound_emits rfl hp rfl (known_scope List.mem_cons_self)
  | startPropose payloads =>
    exact ignore_emits (startPropose_emits payloads rfl (.inl rfl) rfl
      fun _ _ => rfl)
  | gatherFrame f g =>
    exact ignore_emits (gatherFrame_emits g rfl (fun hs => (hp hs).1) rfl
      (fun hs => (hp hs).2) (fun _ _ => rfl) (known_scope List.mem_cons_self))
  | finishPropose g => exact finishPropose_emits rfl fun _ _ ht hq => ⟨ht.cached, hq⟩
  | replicate payloads =>
    exact ignore_emits (replicateBatchAsync_emits payloads rfl (.inr rfl) rfl)
  | tryAdvance => exact tryAdvanceCommitIndex_emits fun _ _ ht hq => ⟨ht.cached, hq⟩
  | openTick => exact .update (.openTick n) trivial
  | bareHeartbeat peer => exact (sendBareHeartbeat_steady hp).weaken fun _ h => h.1
  | appendAttempt peer =>
    exact ignore_emits (sendAppendAttempt_emits (fun hs => (hp hs).1) fun _ =>
      addressed_of_strict fun hs => (hp hs).2)
  | bareHeartbeatsExcept skip => exact sendBareHeartbeatsExcept_emits skip
  | batchedHeartbeats => exact sendBatchedHeartbeats_emits
  | admitInstall peer => exact ignore_emits (admitInstall_emits peer)
  | sendChunk i => exact sendChunk_emits hp i
  | advanceInstall i resp =>
    exact ignore_emits (advanceInstall_emits i resp (finds_scope List.mem_cons_self rfl))
  | installSucceeded peer boundary =>
    exact .update (.installSucceeded hp peer boundary) trivial
  | sendTimeoutNow target term => exact sendTimeoutNow_emits hp
  | bumpReadProbe => exact bumpReadProbe_emits rfl
  | restore => exact ignore_emits (restoreStateMachineFromSnapshot_emits rfl rfl)
  | applyNext =>
    refine .read ?_
    split
    · rename_i hle
      exact ignore_emits (applyNext_scope_emits hle strict)
    · exact .ret trivial
  | compact => exact maybeCompact_emits ⟨hp, rfl⟩
  | configChange entry =>
    refine (applyConfigChange_emits ?_ rfl ?_).trivial
    · exact .inr ⟨entry, rfl⟩
    · exact fun hout => ⟨hout, .inr ⟨entry, rfl⟩⟩
  | abdicate =>
    refine abdicateIfIsolated_emits fun hl hq => ⟨?_, .inl rfl⟩
    simp only [Action.resigns, hl, hq, Bool.not_false, Bool.and_true]
  | degrade => exact degradeOnResourceExhaustion_emits

theorem Action.moves (a : Action) (n : RaftNode) (strict : Prop)
    (hp : strict → a.Plain n) : Moves (a.scope n strict) n (a.run n) :=
  Emits.after (a.perform_emits n strict hp)

/-- Outside of the strict scopes nothing is asked. -/
theorem Action.chain (a : Action) (n : RaftNode) :
    Relation.ReflTransGen (Effect (a.scope n False)) n (a.run n) :=
  (a.moves n False False.elim False.elim).1

/-! ## Received messages -/

/-- The `AppendEntries` message of a frame, plain or seeded. -/
def InboundRaftMessage.append? (f : InboundRaftMessage) : Option (AppendEntries × List LogEntry) :=
  match f.message with
  | .appendEntries msg entries | .appendEntriesSeeded msg entries => some (msg, entries)
  | _ => none

/-- A fact for each kind of message; an action handles one frame. -/
theorem Receives.by_kind {sender : PeerId} {msg : AppendEntries} {entries : List LogEntry}
    {P : Bool → Prop} (h : Receives (a.scope n strict) m sender msg entries)
    (hplain : a.frame = some ⟨sender, .appendEntries msg entries⟩ → P false)
    (hseeded : a.frame = some ⟨sender, .appendEntriesSeeded msg entries⟩ → P true) :
    ∃ seeded, P seeded ∧
      ((a.scope n strict).rx ⟨sender, .appendEntriesSeeded msg entries⟩ → seeded = true) := by
  rcases h.rx with hrx | hrx
  · refine ⟨false, hplain hrx, fun hrx' => ?_⟩
    have heq := hrx.symm.trans hrx'
    simp at heq
  · exact ⟨true, hseeded hrx, fun _ => rfl⟩

/-- A message is checked against the log it arrived at. -/
theorem Receives.arrived {sender : PeerId} {msg : AppendEntries} {entries : List LogEntry}
    (h : Receives (a.scope n strict) m sender msg entries) :
    SameLog n m ∧ n.hardState.currentTerm ≤ msg.term := by
  obtain ⟨m₀, hcore, hsame, hterm⟩ := h.fresh
  have hhard : m₀.hardState = n.hardState := congrArg Core.hardState hcore
  exact ⟨(SameLog.of_core hcore).trans hsame, hhard ▸ hterm⟩

/-- The log an action works on is the one it found. -/
theorem Arrived.of_scope (h : Arrived (a.scope n strict) m) : SameLog n m := by
  obtain ⟨m₀, hcore, hsame⟩ := h
  exact (SameLog.of_core hcore).trans hsame

end ArbitroRaft
