import ArbitroRaft.Effect.Frame
import ArbitroRaft.Machine.Calls

/-!
# Transfers, the sanction and the term over the steps

Three parts of the state are written in few places.  The snapshot transfers that are being
received grow in the `InstallSnapshot` handler only, the campaign a `TimeoutNow` sanctioned is
written in the `TimeoutNow` handler only, and the term moves with a frame of a higher one or
with a campaign.  `Spares` says that some of the parts were left alone.

That an effect does so is a matter of its scope (`Effect.spares`), and so is it for calls and
actions, which are chains of effects.  `Action.run_spares` gives the condition on an action
and the state it starts from.
-/

namespace ArbitroRaft

open Library

inductive Part where
  | transfers
  | sanction
  | term
deriving DecidableEq, Repr

/-- In between the parts `P` were left alone; a transfer may have been dropped, and a
term that is not among them may have risen. -/
structure Spares (P : Part → Prop) (n n' : RaftNode) : Prop where
  transfers : P .transfers → ∀ slot ∈ n'.pendingSnapshots, slot ∈ n.pendingSnapshots
  sanction : P .sanction → n'.forcedCampaignTerm = n.forcedCampaignTerm
  term : P .term → n'.hardState.currentTerm = n.hardState.currentTerm
  rises : n.hardState.currentTerm ≤ n'.hardState.currentTerm
  limits : n'.config.limits = n.config.limits

/-- A call that spares `P`, whichever way it ends. -/
abbrev Sparing {α : Type} (P : Part → Prop) (m : RaftM α) (n : RaftNode) : Prop :=
  Emits (Spares P) m n (fun _ _ => True)

/-- The scope leaves out what could touch `P` in the term `t` or above. -/
structure Scope.Spares (sc : Scope) (P : Part → Prop) (t : Nat) : Prop where
  transfers : P .transfers → ∀ f, sc.rx f → ∀ msg chunk, f.message ≠ .installSnapshot msg chunk
  sanction : P .sanction → ∀ f, sc.rx f → ∀ msg, f.message ≠ .timeoutNow msg
  raises : P .term → ∀ t', sc.raises t' → t' ≤ t
  stands : P .term → ∀ c, ¬ sc.stands c

section Spares

variable {P : Part → Prop} {sc : Scope} {n n' : RaftNode}

theorem Spares.same (hp : n'.pendingSnapshots = n.pendingSnapshots)
    (hs : n'.forcedCampaignTerm = n.forcedCampaignTerm)
    (ht : n'.hardState.currentTerm = n.hardState.currentTerm)
    (hl : n'.config.limits = n.config.limits) : Spares P n n' :=
  ⟨fun _ _ h => hp ▸ h, fun _ => hs, fun _ => ht, ht.ge, hl⟩

theorem Spares.of_side (h : SameSide n n') : Spares P n n' :=
  ⟨fun _ => h.transfers, fun _ => h.sanction, fun _ => congrArg HardState.currentTerm h.hard,
    (congrArg HardState.currentTerm h.hard).ge, h.limits⟩

instance : Std.Refl (Spares P) := ⟨fun _ => .same rfl rfl rfl rfl⟩

instance : IsTrans RaftNode (Spares P) where
  trans _ _ _ h h' :=
    ⟨fun hp slot hs => h.transfers hp slot (h'.transfers hp slot hs),
      fun hp => (h'.sanction hp).trans (h.sanction hp),
      fun hp => (h'.term hp).trans (h.term hp), h.rises.trans h'.rises,
      h'.limits.trans h.limits⟩

theorem Spares.only (h : Spares (fun _ => True) n n') : Spares P n n' :=
  ⟨fun _ => h.transfers trivial, fun _ => h.sanction trivial, fun _ => h.term trivial, h.rises,
    h.limits⟩

theorem spares_evict (n : RaftNode) : Spares P n n.evictStalledSnapshots :=
  ⟨fun _ _ h => (List.mem_filter.mp h).1, fun _ => rfl, fun _ => rfl, le_rfl, rfl⟩

/-! ## Effects -/

theorem HardEffect.spares (h : HardEffect sc n n') (hsc : sc.Spares P n.hardState.currentTerm) :
    Spares P n n' := by
  have hrises := h.term_le
  cases h with
  | steppedDown t hlt hr =>
    exact ⟨fun _ _ hs => absurd hs List.not_mem_nil, fun _ => rfl,
      fun hp => absurd (hsc.raises hp t hr) (Nat.not_le.mpr hlt), hrises, rfl⟩
  | stepDownFailed t hlt hr =>
    exact ⟨fun _ _ hs => hs, fun _ => rfl,
      fun hp => absurd (hsc.raises hp t hr) (Nat.not_le.mpr hlt), hrises, rfl⟩
  | abdicated =>
    exact ⟨fun _ _ hs => absurd hs List.not_mem_nil, fun _ => rfl, fun _ => rfl, hrises, rfl⟩
  | stood hs =>
    exact ⟨fun _ _ h => h, fun _ => rfl, fun hp => absurd hs (hsc.stands hp _), hrises, rfl⟩
  | standFailed hs =>
    exact ⟨fun _ _ h => h, fun _ => rfl, fun hp => absurd hs (hsc.stands hp _), hrises, rfl⟩
  | granted sender msg reply => cases reply <;> exact .same rfl rfl rfl rfl
  | _ => exact .same rfl rfl rfl rfl

theorem Effect.spares (h : Effect sc n n') (hsc : sc.Spares P n.hardState.currentTerm) :
    Spares P n n' := by
  cases h.wire with
  | same _ hw hn =>
    refine ⟨fun hp => hn.transfers.resolve_right ?_, fun hp => hn.sanction.resolve_right ?_,
      fun _ => congrArg HardState.currentTerm hw.hard, h.term_le, hw.limits⟩
    · rintro ⟨sender, msg, chunk, hrx⟩
      exact hsc.transfers hp _ hrx msg chunk rfl
    · rintro ⟨sender, msg, hrx⟩
      exact hsc.sanction hp _ hrx msg rfl
  | hard _ hh => exact hh.spares hsc
  | sent peer msg => exact .same rfl rfl rfl rfl
  | acked sender msg entries =>
    have hs : Spares P n ((n.tookOver msg entries).adopted msg.leaderCommit) :=
      .of_side (.accepted n msg entries)
    exact ⟨hs.transfers, hs.sanction, hs.term, hs.rises, hs.limits⟩

/-- What was out of reach stays so while the term rises. -/
theorem Moves.spares (h : Moves sc n n') (hns : ¬ sc.strict)
    (hsc : sc.Spares P n.hardState.currentTerm) : Spares P n n' := by
  refine h.preserves hns (refl_of (Spares P) n) fun m m' hm he => ?_
  refine trans_of (Spares P) hm (he.spares ⟨hsc.transfers, hsc.sanction, ?_, hsc.stands⟩)
  exact fun hp t ht => (hsc.raises hp t ht).trans hm.rises

/-! ## Calls -/

/-- The scope of a call that handles frames of `rx` with terms in `raises`. -/
def Scope.calling (rx : InboundRaftMessage → Prop) (raises : Nat → Prop) : Scope where
  rx := rx
  stands _ := False
  crowns _ := True
  demotes _ := True
  appends := True
  batch _ := True
  restores := True
  compacts := True
  control := True
  change _ := True
  gather _ := True
  pends _ _ := True
  strict := False
  fresh _ := True
  raises := raises
  probes := False
  polls := False

/-- A call that hears nothing. -/
abbrev Scope.silent : Scope := .calling (fun _ => False) fun _ => False

variable {α : Type} {m : RaftM α} {Q : α → RaftNode → Prop}

theorem Sparing.silent (h : Emits (Moves .silent) m n Q) : Sparing P m n := by
  refine (h.weaken fun _ hm => hm.spares id ?_).trivial
  exact ⟨fun _ _ h => h.elim, fun _ _ h => h.elim, fun _ _ h => h.elim, fun _ _ h => h⟩

theorem observeTerm_spares (t : Nat) (hp : ¬ P .term) : Sparing P (observeTerm t) n := by
  have h : Emits (Moves (.calling (fun _ => False) (· = t))) (observeTerm t) n _ :=
    observeTerm_emits t ⟨rfl, fun _ => trivial⟩
  refine (h.weaken fun _ hm => hm.spares id ?_).trivial
  exact ⟨fun _ _ h => h.elim, fun _ _ h => h.elim, fun h => absurd h hp, fun h => absurd h hp⟩

theorem processAppendResp_spares {f : InboundRaftMessage} {resp : AppendEntriesResp}
    (hmsg : f.message = .appendEntriesResp resp) (g : Gather) (hp : ¬ P .term) :
    Sparing P (processAppendResp f.sender resp g) n := by
  have h : Emits (Moves (.calling (· = f) fun _ => True)) (processAppendResp f.sender resp g) n _ :=
    processAppendResp_emits hmsg g rfl trivial False.elim (fun _ _ => trivial)
      ⟨fun _ _ _ _ => trivial, fun _ _ => ⟨trivial, fun _ => trivial⟩⟩
  refine (h.weaken fun _ hm => hm.spares id ?_).trivial
  refine ⟨?_, ?_, fun h => absurd h hp, fun h => absurd h hp⟩
  · rintro - _ rfl msg chunk
    rw [hmsg]
    nofun
  · rintro - _ rfl msg
    rw [hmsg]
    nofun

theorem applyThrough_emits {commit : Nat} (fuel : Nat) (h : commit ≤ n.softState.commitIndex) :
    Emits (Moves .silent) (applyThrough commit fuel) n (fun _ _ => True) := by
  induction fuel generalizing n with
  | zero => exact .ret trivial
  | succ fuel ih =>
    unfold applyThrough
    refine .read ?_
    split
    · rename_i hle
      refine (applyNext_emits trivial (fun _ _ _ _ => trivial) (fun _ _ _ _ _ => trivial)
        (hle.trans h)).seq ?_
      intro more n' _ hcommit
      cases more with
      | true => exact ih (hcommit.symm ▸ h)
      | false => exact .ret trivial
    · exact .ret trivial

theorem applyCommittedEntries_spares : Sparing P applyCommittedEntries n := by
  refine .silent (Q := fun _ _ => True) ?_
  unfold applyCommittedEntries
  refine (restoreStateMachineFromSnapshot_emits trivial trivial).seq ?_
  intro _ _ _ _
  refine .read ((applyThrough_emits _ le_rfl).seq ?_)
  intro _ _ _ _
  exact maybeCompact_emits ⟨id, trivial⟩

/-! ## Actions -/

/-- The frame is of a kind whose handler leaves `P` alone, and its term is not above
the node's. -/
structure InboundRaftMessage.Spares (P : Part → Prop) (f : InboundRaftMessage) (n : RaftNode) :
    Prop where
  transfers : P .transfers → ∀ msg chunk, f.message ≠ .installSnapshot msg chunk
  sanction : P .sanction → ∀ msg, f.message ≠ .timeoutNow msg
  term : P .term → ∀ t, messageTerm f.message = some t → t ≤ n.hardState.currentTerm

/-- The action leaves `P` alone. -/
structure Action.Leaves (P : Part → Prop) (a : Action) (n : RaftNode) : Prop where
  frame : ∀ f, a.frame = some f → f.Spares P n
  heard : P .term → ∀ f ∈ a.hears, ∀ t, messageTerm f.message = some t →
    t ≤ n.hardState.currentTerm
  campaign : P .term → a ≠ .startElection

theorem Action.Leaves.scope {a : Action} (h : a.Leaves P n) :
    (a.scope n False).Spares P n.hardState.currentTerm := by
  refine ⟨fun hp f hf => (h.frame f hf).transfers hp, fun hp f hf => (h.frame f hf).sanction hp,
    ?_, fun hp _ hs => h.campaign hp hs.1⟩
  rintro hp t ⟨f, hf, ht⟩
  exact h.heard hp f hf t (messageTerm_of_observedTerm ht)

theorem Action.perform_spares {a : Action} (h : a.Leaves P n) : Sparing P a.perform n :=
  (a.perform_emits n False False.elim).weaken fun _ hm => hm.spares id h.scope

theorem Action.run_spares {a : Action} (h : a.Leaves P n) : Spares P n (a.run n) :=
  Emits.after (a.perform_spares h)

theorem startElection_spares (hp : ¬ P .term) : Spares P n (startElection.after n) := by
  rw [← after_ignore]
  exact Action.run_spares (a := .startElection)
    ⟨nofun, fun h => absurd h hp, fun h => absurd h hp⟩

theorem startPreVote_spares : Spares P n (startPreVote.after n) := by
  rw [← after_ignore]
  exact Action.run_spares (a := .startPreVote) ⟨nofun, nofun, fun _ => nofun⟩

theorem handleInbound_spares {f : InboundRaftMessage} (h : f.Spares P n) :
    Sparing P (handleInbound f) n := by
  refine Action.perform_spares (a := .inbound f) ⟨?_, ?_, nofun⟩
  · rintro _ ⟨⟩
    exact h
  · intro hp g hg
    rw [List.mem_singleton.mp hg]
    exact h.term hp

theorem tolerate_spares {m : RaftM Unit} (h : Sparing P m n) : Sparing P (tolerate m) n := by
  unfold tolerate
  refine .recover h fun e n' _ => ?_
  split
  · exact .fail
  · exact .ret trivial

end Spares

end ArbitroRaft
