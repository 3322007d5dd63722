import ArbitroRaft.RunLoop.Basic

/-!
# The writers of the run loop

The slots of the clients move from vector to vector.  Between two calls nothing is staged:
each slot the mailbox took is queued, waits for a commit or was notified, and was not
notified twice.

## Main results

* `every_write_answered_once`: this, over every run.
-/

namespace ArbitroRaft.RunLoop

open Library

/-- How often the loop holds a slot or has answered it. -/
def account (l : RunLoop) (s : SlotId) : Nat :=
  (l.notified.map Prod.fst).count s + (l.commitWaiters.map CommitWaiter.slotId).count s +
    (l.clientRx.map ClientProposal.slotId).count s

/-- The loop between two calls. -/
structure Tidy (l : RunLoop) : Prop where
  batch : l.pendingBatch = []
  slots : l.pendingSlots = []
  room : l.clientRx.length ≤ l.mailboxCap
  held : ∀ s, l.account s = l.accepted.count s
  stopped : l.stopped = true → l.closed = true ∧ l.commitWaiters = [] ∧ l.clientRx = []

variable {l : RunLoop}

theorem account_notify (l : RunLoop) (answers : List (SlotId × Outcome)) (s : SlotId) :
    (l.notify answers).account s = l.account s + (answers.map Prod.fst).count s := by
  simp only [account, notify, List.map_append, List.count_append]
  omega

theorem account_notifyErrors (l : RunLoop) (slots : List SlotId) (s : SlotId) :
    (l.notifyErrors slots).account s = l.account s + slots.count s := by
  rw [notifyErrors, account_notify]
  simp [Function.comp_def]

theorem account_failCommitWaiters (l : RunLoop) (s : SlotId) :
    l.failCommitWaiters.account s = l.account s := by
  rw [failCommitWaiters, account_notifyErrors]
  simp only [account, List.map_nil, List.count_nil]
  omega

theorem Tidy.onNode (h : l.Tidy) (n : RaftNode) : Tidy { l with node := n } :=
  ⟨h.batch, h.slots, h.room, h.held, h.stopped⟩

theorem Tidy.drained (h : l.Tidy) : l.drainWaiters.Tidy := by
  refine ⟨h.batch, h.slots, h.room, fun s => Eq.trans ?_ (h.held s), fun hs => ?_⟩
  · have hp := ((drainCommitWaiters_perm l.node.softState.commitIndex l.commitWaiters).map
      CommitWaiter.slotId).count_eq s
    rw [drainWaiters, account_notify, List.map_map,
      show Prod.fst ∘ _ = CommitWaiter.slotId from rfl]
    simp only [account, List.map_append, List.count_append] at hp ⊢
    omega
  · obtain ⟨hc, hw, hr⟩ := h.stopped hs
    exact ⟨hc, by simp [drainWaiters, notify, hw, drainCommitWaiters], hr⟩

theorem Tidy.failed (h : l.Tidy) : l.failCommitWaiters.Tidy :=
  ⟨h.batch, h.slots, h.room, fun s => (account_failCommitWaiters l s).trans (h.held s),
    fun hs => ⟨(h.stopped hs).1, rfl, (h.stopped hs).2.2⟩⟩

theorem Tidy.stop (h : l.Tidy) : l.stop.Tidy := by
  unfold RunLoop.stop
  split
  · exact h
  · refine ⟨h.batch, h.slots, Nat.zero_le _, fun s => Eq.trans ?_ (h.held s),
      fun _ => ⟨rfl, rfl, rfl⟩⟩
    rw [account_failCommitWaiters, account_notifyErrors]
    simp only [account, List.map_nil, List.count_nil]
    omega

/-! ## Staged slots -/

/-- The loop with the proposals `xs` staged. -/
def staged (l : RunLoop) (xs rest : List ClientProposal) : RunLoop :=
  { l with
    clientRx := rest
    pendingBatch := xs.map ClientProposal.payload
    pendingSlots := xs.map ClientProposal.slotId }

theorem onNode_ends {A : Type} (m : RaftM A) (l : RunLoop) :
    Ends (onNode m) l (fun _ l' => ∃ n, l' = { l with node := n })
      fun l' => ∃ n, l' = { l with node := n } := by
  unfold Ends onNode
  cases m l.node <;> exact ⟨_, rfl⟩

/-- Whether they are replicated or refused, nothing stays staged. -/
theorem Tidy.flushed (h : l.Tidy) {xs rest : List ClientProposal} (hx : l.clientRx = xs ++ rest) :
    Ends flushPending (l.staged xs rest) (fun _ => Tidy) Tidy := by
  refine .read ?_
  split
  · rename_i hb
    obtain rfl : xs = [] := List.map_eq_nil_iff.mp hb
    obtain rfl : rest = l.clientRx := hx.symm
    exact ⟨rfl, rfl, h.room, h.held, h.stopped⟩
  · rename_i hb
    have hroom : rest.length ≤ l.mailboxCap := by
      have := h.room
      rw [hx, List.length_append] at this
      omega
    have hrunning : l.stopped ≠ true := by
      intro hstop
      obtain ⟨rfl, -⟩ := List.append_eq_nil_iff.mp (hx.symm.trans (h.stopped hstop).2.2)
      exact hb rfl
    refine .read (.seq (.cleanup ((onNode_ends _ _).mono (fun _ _ h => h) ?_)) ?_)
    · rintro _ ⟨n, rfl⟩
      refine ⟨rfl, rfl, hroom, fun s => Eq.trans ?_ (h.held s), fun hs => absurd hs hrunning⟩
      rw [failPending, account_notifyErrors]
      simp only [account, staged, hx, List.map_append, List.count_append]
      omega
    · rintro range _ ⟨n, rfl⟩
      refine ⟨rfl, rfl, hroom, fun s => Eq.trans ?_ (h.held s), fun hs => absurd hs hrunning⟩
      simp [account, awaitCommit, staged, hx, Function.comp_def, List.count_append]
      omega

/-! ## Calls -/

theorem onNode_tidy {A : Type} (m : RaftM A) : Preserves Tidy (onNode m) := by
  refine fun l hl => (onNode_ends m l).mono ?_ ?_
  · rintro _ _ ⟨n, rfl⟩
    exact hl.onNode n
  · rintro _ ⟨n, rfl⟩
    exact hl.onNode n

theorem unlessFatal_tidy {A : Type} {m : LoopM A} (h : Preserves Tidy m) (a : A) :
    Preserves Tidy (unlessFatal m a) :=
  .recover h fun _ => .ite (.fail _) (.ret _)

theorem whenLeader_tidy {m : LoopM Unit} (h : Preserves Tidy m) : Preserves Tidy (whenLeader m) :=
  .read fun _ => .ite h (.ret _)

theorem stop_tidy : Preserves Tidy (modify stop : LoopM Unit) :=
  .step fun _ => .stop

theorem flushPending_tidy : Preserves Tidy flushPending := by
  refine fun l hl => .read ?_
  rw [if_pos hl.batch]
  exact .ret hl

theorem writeBytes_tidy (p : ClientProposal) : Preserves Tidy (writeBytes p) := by
  refine fun l hl => .read ?_
  cases rejectReservedPrefix p.payload with
  | error e => exact hl
  | ok _ =>
    dsimp only
    split
    · exact hl
    · rename_i hc
      split
      · exact hl
      · rename_i hr
        refine ⟨hl.batch, hl.slots, ?_, fun s => ?_, fun hs => absurd (hl.stopped hs).1 hc⟩
        · simp only [List.length_append, List.length_singleton]
          omega
        · have hheld := hl.held s
          simp only [account, List.map_append, List.count_append, List.map_cons,
            List.map_nil] at hheld ⊢
          omega

theorem arrivals_tidy (ps : List ClientProposal) : Preserves Tidy (arrivals ps) := by
  induction ps with
  | nil => exact .ret _
  | cons p ps ih => exact .bind (.recover (writeBytes_tidy p) fun _ => .ret _) fun _ => ih

theorem intake_tidy (transferring : Bool) (least : Nat) :
    Preserves Tidy (intake transferring least) := by
  refine .ite (.ret _) fun l hl => .updateSeq ?_
  have hstage : ∀ k, l.stage k = l.staged (l.clientRx.take k) (l.clientRx.drop k) := by
    simp [stage, staged, hl.batch, hl.slots]
  rw [hstage]
  exact hl.flushed (List.take_append_drop _ _).symm

theorem advanceCommit_tidy : Preserves Tidy advanceCommit :=
  .bind (onNode_tidy _) fun _ => .step fun _ => .drained

theorem settleInbound_tidy : Preserves Tidy settleInbound :=
  .bind advanceCommit_tidy fun _ => .bind (onNode_tidy _) fun _ =>
    .read fun _ => .ite (.ret _) (.step fun _ => .failed)

theorem attend_tidy (r : Recv) {settle : LoopM Unit} (h : Preserves Tidy settle) :
    Preserves Tidy (attend r settle) :=
  .bind (onNode_tidy _) fun _ => .ite h (.ret _)

theorem runLeaderOnce_tidy (t : Tick) : Preserves Tidy (runLeaderOnce t) := by
  refine .bind (onNode_tidy _) fun _ => .bind (onNode_tidy _) fun _ => ?_
  refine .bind (intake_tidy _ _) fun _ => .bind (onNode_tidy _) fun _ => ?_
  refine .ite settleInbound_tidy (.ite ?_ (.bind (arrivals_tidy _) fun _ => ?_))
  · exact .read fun _ => .bind (onNode_tidy _) fun _ =>
      .ite (onNode_tidy _) (.step fun _ => .failed)
  · split
    · exact intake_tidy _ _
    · exact attend_tidy _ settleInbound_tidy

theorem runOnce_tidy (t : Tick) : Preserves Tidy (runOnce t) := by
  have hdegrade : Preserves Tidy degrade :=
    .read fun _ => .bind (onNode_tidy _) fun _ => .ite (.step fun _ => .failed) (.ret _)
  have htick : ∀ l : RunLoop, Preserves Tidy
      (if l.node.isLeader then runLeaderOnce t else onNode (runFollowerOnce t)) :=
    fun _ => .ite (runLeaderOnce_tidy t) (onNode_tidy _)
  exact .read fun l => .ite (.ret _) (.bind (.recover (htick l) fun _ =>
    .ite hdegrade (.fail _)) fun _ => .read fun _ => .ret _)

theorem transferLeadership_tidy (m : RaftM Unit) : Preserves Tidy (transferLeadership m) :=
  .bind (whenLeader_tidy flushPending_tidy) fun _ => onNode_tidy m

theorem serveHandoff_tidy (window : List Recv) : Preserves Tidy (serveHandoff window) := by
  induction window with
  | nil => exact .ret _
  | cons r rest ih => exact whenLeader_tidy (.bind (attend_tidy r advanceCommit_tidy) fun _ => ih)

theorem drain_tidy (m : PeerId → RaftM Unit) (window : List Recv) :
    Preserves Tidy (drain m window) := by
  have hhandoff : Preserves Tidy (drainLeaderHandoff m window) := by
    refine .bind (unlessFatal_tidy flushPending_tidy ()) fun _ => .read fun _ => ?_
    dsimp only
    split
    · exact .ret _
    · refine .bind (unlessFatal_tidy ?_ false) fun _ => .ite (serveHandoff_tidy window) (.ret _)
      exact .bind (transferLeadership_tidy _) fun _ => .ret _
  have hclose : ∀ l : RunLoop, l.Tidy → Tidy { l with closed := true } := fun l hl =>
    ⟨hl.batch, hl.slots, hl.room, hl.held, fun hs => ⟨rfl, (hl.stopped hs).2⟩⟩
  refine .read fun _ => .ite (.ret _) (.bind (.step hclose) fun _ => .bind (.recover ?_ ?_) ?_)
  · exact .bind (whenLeader_tidy hhandoff) fun _ => .bind (onNode_tidy _) fun _ =>
      .step fun _ => .drained
  · exact fun _ => .bind stop_tidy fun _ => .fail _
  · exact fun _ => stop_tidy

theorem LoopCall.perform_tidy (c : LoopCall) : Preserves Tidy c.perform := by
  cases c with
  | writeBytes p => exact writeBytes_tidy p
  | runOnce t => exact .bind (runOnce_tidy t) fun _ => .ret _
  | transferLeadership m => exact transferLeadership_tidy m
  | readIndex m =>
    refine .bind (.bind (onNode_tidy m) fun _ => .bind (onNode_tidy _) fun _ => ?_) fun _ => .ret _
    exact .bind (.step fun _ => .drained) fun _ => .read fun _ => .ite (.fail _) (.ret _)
  | drain m window => exact drain_tidy m window
  | stop => exact stop_tidy
  | method m => exact onNode_tidy m

theorem Tidy.calls (hl : l.Tidy) (cs : List (Env × LoopCall)) : (l.calls cs).Tidy := by
  induction cs generalizing l with
  | nil => exact hl
  | cons c cs ih =>
    have hcall := c.2.perform_tidy _ (hl.onNode (l.node.within c.1))
    unfold Ends at hcall
    unfold RunLoop.calls
    split
    all_goals
      rename_i hr
      rw [hr] at hcall
      exact ih hcall

/-- Whatever is called in whichever order, a slot is queued, waiting or answered as often as
the mailbox took it, and once the loop is stopped it is answered as often; the mailbox never
holds more than its capacity. -/
theorem every_write_answered_once (n : RaftNode) (cap : Nat) (cs : List (Env × LoopCall))
    (s : SlotId) :
    let l := (new n cap).calls cs
    l.account s = l.accepted.count s ∧
      (l.stopped = true → (l.notified.map Prod.fst).count s = l.accepted.count s) ∧
      l.clientRx.length ≤ l.mailboxCap := by
  have ht : ((new n cap).calls cs).Tidy :=
    .calls ⟨rfl, rfl, Nat.zero_le _, fun _ => rfl, fun h => absurd h (by simp [new])⟩ cs
  refine ⟨ht.held s, fun hs => ?_, ht.room⟩
  rw [← ht.held s, account, (ht.stopped hs).2.1, (ht.stopped hs).2.2]
  rfl

end ArbitroRaft.RunLoop
