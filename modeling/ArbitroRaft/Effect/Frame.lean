import ArbitroRaft.Effect.Basic

/-!
# What an effect leaves alone

Most effects touch neither the hard state nor the wire.  `Effect.wire` sorts an
effect into one of four kinds from that point of view.
-/

namespace ArbitroRaft

open Library

/-- The same hard state, in memory and in storage, the same frames on the wire,
the same identity, limits and surroundings. -/
structure SameWire (n n' : RaftNode) : Prop where
  hard : n'.hardState = n.hardState
  durable : n'.storage.hardState = n.storage.hardState
  sent : n'.sent = n.sent
  nodeId : n'.config.nodeId = n.config.nodeId
  limits : n'.config.limits = n.config.limits
  env : n'.env = n.env
  seeded : n'.storage.seeded = n.storage.seeded

/-- What stands aside too, but for transfers that were dropped. -/
structure SameSide (n n' : RaftNode) : Prop extends SameWire n n' where
  transfers : ∀ slot ∈ n'.pendingSnapshots, slot ∈ n.pendingSnapshots
  sanction : n'.forcedCampaignTerm = n.forcedCampaignTerm
  token : n'.readProbeSeq = n.readProbeSeq
  responders : n'.scratchResponders = n.scratchResponders

variable {n n' n'' : RaftNode}

theorem SameWire.of_core (h : n'.core = n.core) : SameWire n n' where
  hard := congrArg Core.hardState h
  durable := congrArg (fun c => c.storage.hardState) h
  sent := congrArg Core.sent h
  nodeId := congrArg (fun c => c.config.nodeId) h
  limits := congrArg (fun c => c.config.limits) h
  env := congrArg Core.env h
  seeded := congrArg (fun c => c.storage.seeded) h

namespace SameSide

def watched (n : RaftNode) :=
  ((n.hardState, n.storage.hardState, n.sent, n.config.nodeId, n.config.limits, n.env,
    n.storage.seeded), n.aside)

theorem same (h : watched n' = watched n) : SameSide n n' := by
  simp only [watched, RaftNode.aside, Prod.mk.injEq] at h
  obtain ⟨⟨hhard, hdurable, hsent, hid, hlimits, henv, hseeded⟩, hp, hs, ht, hr⟩ := h
  exact ⟨⟨hhard, hdurable, hsent, hid, hlimits, henv, hseeded⟩, fun _ h => hp ▸ h, hs, ht, hr⟩

theorem refl (n : RaftNode) : SameSide n n := .same rfl

theorem trans (h : SameSide n n') (h' : SameSide n' n'') : SameSide n n'' :=
  ⟨⟨h'.hard.trans h.hard, h'.durable.trans h.durable, h'.sent.trans h.sent,
      h'.nodeId.trans h.nodeId, h'.limits.trans h.limits, h'.env.trans h.env,
      h'.seeded.trans h.seeded⟩,
    fun slot hs => h.transfers slot (h'.transfers slot hs), h'.sanction.trans h.sanction,
    h'.token.trans h.token, h'.responders.trans h.responders⟩

theorem notes (h : SameSide n n') : Notes sc n n' :=
  ⟨.inl h.transfers, .inl h.sanction, .inl h.token, .inl h.responders⟩

theorem adoptConfig (n : RaftNode) (entry : ConfigChangeEntry) :
    SameSide n (n.adoptConfig entry) := by
  unfold RaftNode.adoptConfig
  cases entry.phase <;> exact .same rfl

theorem foldl {α : Type*} {f : RaftNode → α → RaftNode} (h : ∀ n a, SameSide n (f n a))
    (l : List α) (n : RaftNode) : SameSide n (l.foldl f n) := by
  induction l generalizing n with
  | nil => exact refl n
  | cons a l ih => exact (h n a).trans (ih (f n a))

theorem settleConfig (n : RaftNode) : SameSide n n.settleConfig := by
  unfold RaftNode.settleConfig RaftNode.reconcileLeaderProgressWithConfig
  split
  · refine trans (foldl ?_ _ n) (foldl ?_ _ _)
    · exact fun n a => { refl n with transfers := fun _ h => PeerMap.mem_of_mem_remove h }
    · intro n a
      unfold RaftNode.addProgress
      split <;> exact .same rfl
  · exact refl n

theorem demoted (n : RaftNode) : SameSide n n.demoteToFollowerKeepTerm :=
  { refl n with transfers := fun _ h => absurd h List.not_mem_nil }

theorem spliced (n : RaftNode) (msg : AppendEntries) (entries : List LogEntry) :
    SameSide n (n.spliced msg entries) := by
  unfold RaftNode.spliced
  cases n.scan msg entries with
  | malformed => exact refl n
  | matched => exact refl n
  | conflict rest => cases rest <;> exact .same rfl
  | missing rest => exact .same rfl

theorem activated (n : RaftNode) (rest : List LogEntry) : SameSide n (n.activated rest) := by
  unfold RaftNode.activated
  split
  · exact adoptConfig n _
  · exact refl n

theorem tookOver (n : RaftNode) (msg : AppendEntries) (entries : List LogEntry) :
    SameSide n (n.tookOver msg entries) := by
  have hs := spliced n msg entries
  unfold RaftNode.tookOver
  cases n.scan msg entries with
  | malformed => exact refl n
  | matched => exact refl n
  | conflict rest => exact hs.trans (activated _ rest)
  | missing rest => exact hs.trans (activated _ rest)

theorem adopted (n : RaftNode) (leaderCommit : Nat) : SameSide n (n.adopted leaderCommit) := by
  unfold RaftNode.adopted
  split <;> exact .same rfl

/-- A batch that was accepted, up to its answer. -/
theorem accepted (n : RaftNode) (msg : AppendEntries) (entries : List LogEntry) :
    SameSide n ((n.tookOver msg entries).adopted msg.leaderCommit) :=
  (tookOver n msg entries).trans (adopted _ _)

theorem commitSnapshot (n : RaftNode) (m : SnapshotMeta) : SameSide n (n.commitSnapshot m) := by
  unfold RaftNode.commitSnapshot
  split <;> exact .same rfl

theorem anchorOnSnapshot (n : RaftNode) (m : SnapshotMeta) : SameSide n (n.anchorOnSnapshot m) := by
  unfold RaftNode.anchorOnSnapshot
  split <;> exact .same rfl

theorem completeSnapshot (n : RaftNode) (m : SnapshotMeta) (bytes : List UInt8) :
    SameSide n (n.completeSnapshot m bytes) := by
  have hsave : SameSide n { n with storage := n.storage.saveSnapshot m bytes } :=
    .same rfl
  exact (hsave.trans (commitSnapshot _ m)).trans (anchorOnSnapshot _ m)

theorem restoredFrom (n : RaftNode) (m : SnapshotMeta) : SameSide n (n.restoredFrom m) := by
  have happly : SameSide (n.commitSnapshot m)
      { n.commitSnapshot m with lastApplied := m.lastIncludedIndex } :=
    .same rfl
  exact ((commitSnapshot n m).trans happly).trans (anchorOnSnapshot _ m)

theorem compacted (n : RaftNode) (term : Nat) (bytes : List UInt8) (upTo : Nat) :
    SameSide n (n.compacted term bytes upTo) := by
  unfold RaftNode.compacted
  split <;> exact .same rfl

end SameSide

theorem storage_commitSnapshot (n : RaftNode) (m : SnapshotMeta) :
    (n.commitSnapshot m).storage = n.storage := by
  unfold RaftNode.commitSnapshot
  split <;> rfl

/-- An effect, as seen from the hard state and the wire. -/
inductive WireEffect (sc : Scope) (n : RaftNode) : RaftNode → Prop
  | same (n' : RaftNode) : SameWire n n' → Notes sc n n' → WireEffect sc n n'
  | hard (n' : RaftNode) : HardEffect sc n n' → WireEffect sc n n'
  | sent (peer : PeerId) (msg : RaftMessage) : SendOk sc n msg → Addressed sc n peer msg →
      WireEffect sc n (n.putOnWire peer msg)
  /-- The answer to an accepted message. -/
  | acked (sender : PeerId) (msg : AppendEntries) (entries : List LogEntry) :
      Receives sc n sender msg entries →
      WireEffect sc n
        (((n.tookOver msg entries).adopted msg.leaderCommit).putOnWire sender
          (((n.tookOver msg entries).adopted msg.leaderCommit).ackOf msg))

theorem WireEffect.of_side (h : SameSide n n') : WireEffect sc n n' :=
  .same _ h.toSameWire h.notes

theorem Effect.wire (h : Effect sc n n') : WireEffect sc n n' := by
  cases h with
  | quiet _ hq hn => exact .same _ (.of_core hq) hn
  | sent peer msg hok ha => exact .sent peer msg hok ha
  | hard _ hh => exact .hard _ hh
  | log _ hl =>
    cases hl with
    | cut sender msg entries rest hr hscan =>
      cases rest <;> exact .of_side (.same rfl)
    | spliced sender msg entries => exact .of_side (.spliced _ _ _)
    | accepted sender msg entries reply hr =>
      cases reply with
      | false => exact .of_side (.accepted _ _ _)
      | true => exact .acked sender msg entries hr
    | led payloads => exact .of_side (.same rfl)
    | learned index t => exact .of_side (.same rfl)
    | installed sender msg chunk bytes => exact .of_side (.completeSnapshot _ _ _)
    | restored m => exact .of_side (.restoredFrom _ _)
    | compacted term bytes => exact .of_side (.compacted _ _ _ _)
  | demoted => exact .of_side (.demoted n)
  | reconfigured entry _ =>
    exact .of_side ((SameSide.adoptConfig n entry).trans (.settleConfig _))
  | _ => exact .of_side (.same rfl)

/-- No effect changes the surroundings. -/
theorem WireEffect.surroundings (h : WireEffect sc n n') :
    n'.env = n.env ∧ n'.storage.seeded = n.storage.seeded := by
  cases h with
  | same _ hw => exact ⟨hw.env, hw.seeded⟩
  | hard _ hh =>
    cases hh with
    | granted sender msg reply => cases reply <;> exact ⟨rfl, rfl⟩
    | _ => exact ⟨rfl, rfl⟩
  | sent peer msg => exact ⟨rfl, rfl⟩
  | acked sender msg entries =>
    have hw := SameSide.accepted n msg entries
    exact ⟨hw.env, hw.seeded⟩

theorem HardEffect.term_le (h : HardEffect sc n n') :
    n.hardState.currentTerm ≤ n'.hardState.currentTerm := by
  cases h with
  | steppedDown t hlt => exact hlt.le
  | stepDownFailed t hlt => exact hlt.le
  | stood => exact le_satAdd _ _
  | standFailed => exact le_satAdd _ _
  | granted sender msg reply => cases reply <;> exact le_rfl
  | _ => exact le_rfl

/-- No effect lowers the term. -/
theorem Effect.term_le (h : Effect sc n n') :
    n.hardState.currentTerm ≤ n'.hardState.currentTerm := by
  cases h.wire with
  | same _ hw => exact (congrArg HardState.currentTerm hw.hard).ge
  | hard _ hh => exact hh.term_le
  | sent peer msg => exact le_rfl
  | acked sender msg entries =>
    have hw := SameSide.accepted n msg entries
    exact (congrArg HardState.currentTerm hw.hard).ge

/-- Whether a batch is refused behind the cut depends on the log and the
surroundings. -/
theorem SameStore.refuses_cutAt {n m : RaftNode} (h : SameStore n m) (henv : m.env = n.env)
    {rest : List LogEntry} (hr : (m.cutAt rest).Refuses rest) : (n.cutAt rest).Refuses rest := by
  have henv' : (m.cutAt rest).env = (n.cutAt rest).env := by cases rest <;> exact henv
  unfold RaftNode.Refuses at hr ⊢
  rw [(h.cutAt rest).entries, henv'] at hr
  exact hr

/-- An effect leaves the log and its caches alone unless it is about them. -/
theorem Effect.store (h : Effect sc n n') : SameStore n n' ∨ LogEffect sc n n' := by
  cases h with
  | quiet _ hq => exact .inl (SameLog.of_core hq).toSameStore
  | hard _ hh => exact .inl hh.sameLog.toSameStore
  | log _ hl => exact .inr hl
  | reconfigured entry _ =>
    exact .inl ((SameLog.adoptConfig n entry).trans (SameLog.settleConfig _)).toSameStore
  | _ => exact .inl ⟨rfl, rfl, rfl, rfl, rfl⟩

end ArbitroRaft
