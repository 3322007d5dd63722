import ArbitroRaft.Machine.Batch

/-!
# Answers to an earlier leadership

A leader compares the term of an AppendEntries answer with its own only to step
down.  An answer to a frame of an earlier leadership is therefore taken like any
other, by the run loop (`handle_append_entries_response`) as well as by a
proposal that gathers acknowledgements (`process_append_resp`).  The conditions
below say which answers happen to change nothing.

## Main results

* `stale_answer_ignored_iff`: the conditions are exact.
-/

namespace ArbitroRaft

open Library

/-- The progress of every peer is what it was. -/
def ProgressKept (n n' : RaftNode) : Prop :=
  ∀ peer, n'.peerProgress.get peer = n.peerProgress.get peer

/-- A rejection leaves `next_index` where it is: the hint names the entry
before it, or it is held at the end of the leader's log. -/
def HeldBack (next hint cap : Nat) : Prop :=
  satAdd hint 1 = next ∧ next ≤ cap ∨ next = cap ∧ cap ≤ satAdd hint 1
deriving Decidable

/-- An answer that tells the run loop nothing. -/
def PeerProgress.Unmoved (progress : PeerProgress) (resp : AppendEntriesResp) (cap : Nat) : Prop :=
  if resp.success then
    resp.matchIndex ≤ progress.matchIndex ∧ min (satAdd resp.matchIndex 1) cap ≤ progress.nextIndex
  else
    resp.matchIndex < progress.matchIndex ∨ HeldBack progress.nextIndex resp.matchIndex cap
deriving Decidable

/-- An answer that tells a gather nothing about the peer. -/
def PeerProgress.UnmovedPending (progress : PeerProgress) (sentLastIndex : Nat)
    (resp : AppendEntriesResp) (cap : Nat) : Prop :=
  if resp.success then
    resp.matchIndex < sentLastIndex ∨
      resp.matchIndex = progress.matchIndex ∧ min (satAdd resp.matchIndex 1) cap = progress.nextIndex
  else
    resp.matchIndex < progress.matchIndex ∨ HeldBack progress.nextIndex resp.matchIndex cap

namespace RaftNode

/-- The sender is no peer, or the answer tells the run loop nothing. -/
def Unaffected (n : RaftNode) (sender : PeerId) (resp : AppendEntriesResp) : Prop :=
  ∀ progress, n.peerProgress.get sender = some progress → progress.Unmoved resp n.nextIndexCap

/-- The same for a gather, in which moreover no voter's wait must end. -/
def UnaffectedGather (n : RaftNode) (g : Gather) (sender : PeerId) (resp : AppendEntriesResp) :
    Prop :=
  match n.scratchPending.get sender with
  | none => n.Unaffected sender resp
  | some state =>
    ∀ progress, n.peerProgress.get sender = some progress →
      progress.UnmovedPending state.sentLastIndex resp n.nextIndexCap ∧
        ¬ (resp.success = true ∧ state.sentLastIndex ≤ resp.matchIndex ∧
          g.lastIndex ≤ resp.matchIndex ∧ sender ∈ n.config.peers)

end RaftNode

/-- A gather that goes on as if the answer had not come. -/
def GatherKept (n : RaftNode) (g : Gather) : EStateM.Result RaftError RaftNode Gather → Prop
  | .ok g' n' => ProgressKept n n' ∧ g'.accepted = g.accepted
  | .error _ n' => ProgressKept n n'

section Progress

variable {n n' : RaftNode} {sender : PeerId} {resp : AppendEntriesResp} {progress : PeerProgress}

theorem ProgressKept.refl (n : RaftNode) : ProgressKept n n := fun _ => rfl

theorem progressKept_congr {m : RaftNode} (h : m.peerProgress = n'.peerProgress) :
    ProgressKept n m ↔ ProgressKept n n' := by
  unfold ProgressKept
  rw [h]

/-- Storing a peer's progress keeps all of them just if it is the one stored. -/
theorem progressKept_setProgress {p : PeerProgress}
    (hget : n.peerProgress.get sender = some progress) :
    ProgressKept n (n.setProgress sender p) ↔ p = progress := by
  unfold ProgressKept RaftNode.setProgress
  constructor
  · intro h
    have hself := h sender
    rw [PeerMap.get_insert, if_pos rfl, hget] at hself
    exact Option.some.inj hself
  · rintro rfl peer
    rw [PeerMap.get_insert]
    split
    · rename_i hpeer
      rw [hpeer, hget]
    · rfl

theorem satAdd_one_pos (a : Nat) : 0 < satAdd a 1 := by
  have hmax : 0 < u64Max := by decide
  unfold satAdd
  split <;> omega

theorem PeerProgress.eq_iff {p q : PeerProgress} :
    p = q ↔ p.matchIndex = q.matchIndex ∧ p.nextIndex = q.nextIndex := by
  cases p
  cases q
  simp only [PeerProgress.mk.injEq, and_comm]

theorem rejectedNext_eq_iff {hint cap : Nat} (hcap : 0 < cap) :
    rejectedNext progress hint cap = progress.nextIndex ↔
      HeldBack progress.nextIndex hint cap := by
  have hpos := satAdd_one_pos hint
  unfold rejectedNext HeldBack
  omega

theorem respond_eq_iff {cap : Nat} (hcap : 0 < cap) :
    progress.respond resp cap = progress ↔ progress.Unmoved resp cap := by
  unfold PeerProgress.respond PeerProgress.Unmoved
  cases resp.success with
  | true =>
    simp only [if_true, PeerProgress.eq_iff]
    omega
  | false =>
    simp only [Bool.false_eq_true, if_false]
    split
    · rename_i hle
      rw [PeerProgress.eq_iff, ← rejectedNext_eq_iff hcap]
      constructor
      · exact fun h => .inr h.2
      · rintro (hlt | heq)
        · omega
        · exact ⟨rfl, heq⟩
    · simp only [true_iff]
      exact .inl (by omega)

end Progress

/-! ## The two paths -/

section Paths

variable {n : RaftNode} {sender : PeerId} {resp : AppendEntriesResp}

theorem respond_kept_iff (hleader : n.isLeader = true)
    (hstale : resp.term < n.hardState.currentTerm) :
    ∃ n', handleAppendEntriesResponse sender resp n = .ok () n' ∧
      (ProgressKept n n' ↔ n.Unaffected sender resp) := by
  unfold handleAppendEntriesResponse RaftNode.Unaffected
  rw [get_bind, if_neg (by omega), if_pos hleader]
  cases hget : n.peerProgress.get sender with
  | none =>
    refine ⟨n, rfl, ?_⟩
    simp only [reduceCtorEq, false_implies, implies_true, iff_true]
    exact ProgressKept.refl n
  | some progress =>
    refine ⟨_, rfl, ?_⟩
    have hcap : 0 < n.nextIndexCap := satAdd_one_pos _
    rw [progressKept_setProgress hget, respond_eq_iff hcap]
    simp only [Option.some.injEq, forall_eq']

theorem retryAppend_touched (state : AppendAttemptState) :
    Emits Touched (retryAppend sender state) n (fun a _ => a ≠ .completed) := by
  unfold retryAppend
  refine (sendAppendAttempt_touched sender).seq ?_
  intro last n' _ _
  cases last with
  | none => exact .ret (by simp)
  | some last => exact .ret (by simp)

variable {g : Gather} {state : AppendAttemptState}

/-- A retry changes no progress and ends nobody's wait. -/
theorem retry_kept {m : RaftNode} {k : AppendAdvance → RaftM Gather}
    (hk : ∀ a, a ≠ .completed → k a = pure g) :
    GatherKept n g ((retryAppend sender state >>= k) m) ↔ ProgressKept n m := by
  have htouched : Emits Touched (retryAppend sender state) m (fun a _ => a ≠ .completed) :=
    retryAppend_touched state
  unfold Emits at htouched
  cases hrun : retryAppend sender state m with
  | ok a m' =>
    rw [hrun] at htouched
    obtain ⟨⟨_, _, rfl⟩, ha⟩ := htouched
    rw [bind_of_ok hrun, hk a ha]
    change ProgressKept n _ ∧ g.accepted = g.accepted ↔ _
    rw [and_iff_left rfl]
    exact progressKept_congr rfl
  | error e m' =>
    rw [hrun] at htouched
    obtain ⟨_, _, rfl⟩ := htouched
    rw [bind_of_error hrun]
    exact progressKept_congr rfl

/-- The gather behind the answer of a peer it waits for. -/
def advanced (sender : PeerId) (g : Gather) : AppendAdvance → RaftM Gather
  | .completed => do
    let n ← get
    set { n with scratchPending := n.scratchPending.remove sender }
    if sender ∈ n.config.peers then return { g with accepted := g.accepted + 1 }
    else return g
  | _ => return g

theorem processAppendResp_pending (h : n.scratchPending.get sender = some state) :
    processAppendResp sender resp g n =
      (advanceAppendReplication sender g.lastIndex state resp >>= advanced sender g) n := by
  unfold processAppendResp
  rw [get_bind, h]
  dsimp only
  refine congrArg (fun k => (advanceAppendReplication sender g.lastIndex state resp >>= k) n) ?_
  funext a
  cases a <;> rfl

theorem advanced_completed {m : RaftNode} :
    GatherKept n g (advanced sender g .completed m) ↔
      ProgressKept n m ∧ sender ∉ m.config.peers := by
  by_cases hvoter : sender ∈ m.config.peers
  · have hrun : advanced sender g .completed m =
        .ok { g with accepted := g.accepted + 1 }
          { m with scratchPending := m.scratchPending.remove sender } := by
      unfold advanced
      dsimp only
      rw [get_bind, set_bind, if_pos hvoter]
      rfl
    rw [hrun]
    change ProgressKept n _ ∧ g.accepted + 1 = g.accepted ↔ _
    simp only [Nat.add_eq_left, one_ne_zero, and_false, hvoter, not_true_eq_false]
  · have hrun : advanced sender g .completed m =
        .ok g { m with scratchPending := m.scratchPending.remove sender } := by
      unfold advanced
      dsimp only
      rw [get_bind, set_bind, if_neg hvoter]
      rfl
    rw [hrun]
    change ProgressKept n _ ∧ g.accepted = g.accepted ↔ _
    simp only [hvoter, not_false_eq_true, and_true]
    exact progressKept_congr rfl

/-- The five ways of `advance_append_replication` with a known peer. -/
theorem advance_eq {target : Nat} {progress : PeerProgress}
    (hstale : resp.term < n.hardState.currentTerm)
    (hget : n.peerProgress.get sender = some progress) :
    advanceAppendReplication sender target state resp n =
      if resp.success then
        if resp.matchIndex < state.sentLastIndex then .ok .ignored n
        else if target ≤ resp.matchIndex then
          .ok .completed (n.setProgress sender
            { matchIndex := resp.matchIndex
              nextIndex := min (satAdd resp.matchIndex 1) n.nextIndexCap })
        else
          retryAppend sender state (n.setProgress sender
            { matchIndex := resp.matchIndex
              nextIndex := min (satAdd resp.matchIndex 1) n.nextIndexCap })
      else if resp.matchIndex < progress.matchIndex then .ok .ignored n
      else
        retryAppend sender state (n.setProgress sender
          { progress with nextIndex := rejectedNext progress resp.matchIndex n.nextIndexCap }) := by
  unfold advanceAppendReplication
  rw [get_bind, if_neg (by omega), hget]
  dsimp only
  split
  · split
    · rfl
    · rw [set_bind]
      split <;> rfl
  · split <;> rfl

/-- The gather's path for a peer it waits for. -/
theorem pending_kept_iff {progress : PeerProgress} (hstale : resp.term < n.hardState.currentTerm)
    (hget : n.peerProgress.get sender = some progress) :
    GatherKept n g
        ((advanceAppendReplication sender g.lastIndex state resp >>= advanced sender g) n) ↔
      progress.UnmovedPending state.sentLastIndex resp n.nextIndexCap ∧
        ¬ (resp.success = true ∧ state.sentLastIndex ≤ resp.matchIndex ∧
          g.lastIndex ≤ resp.matchIndex ∧ sender ∈ n.config.peers) := by
  have hretry : ∀ a, a ≠ .completed → advanced sender g a = pure g := by
    intro a ha
    cases a with
    | completed => exact absurd rfl ha
    | _ => rfl
  have hquiet : GatherKept n g (advanced sender g .ignored n) := ⟨ProgressKept.refl n, rfl⟩
  have hcap : 0 < n.nextIndexCap := satAdd_one_pos _
  have hadvance := @advance_eq n sender resp state g.lastIndex progress hstale hget
  unfold PeerProgress.UnmovedPending
  cases hs : resp.success with
  | true =>
    rw [hs, if_pos rfl] at hadvance
    rw [if_pos rfl]
    by_cases hold : resp.matchIndex < state.sentLastIndex
    · rw [if_pos hold] at hadvance
      rw [bind_of_ok hadvance]
      simp only [hquiet, hold, true_or, true_and, true_iff]
      omega
    · rw [if_neg hold] at hadvance
      by_cases hdone : g.lastIndex ≤ resp.matchIndex
      · rw [if_pos hdone] at hadvance
        rw [bind_of_ok hadvance, advanced_completed, progressKept_setProgress hget,
          PeerProgress.eq_iff]
        simp only [hold, hdone, Nat.not_lt.mp hold, true_and, false_or]
        rfl
      · rw [if_neg hdone] at hadvance
        rw [bind_of_eq hadvance, retry_kept hretry, progressKept_setProgress hget,
          PeerProgress.eq_iff]
        simp only [hold, hdone, false_or, false_and, and_false, not_false_eq_true, and_true]
  | false =>
    rw [hs, if_neg Bool.false_ne_true] at hadvance
    rw [if_neg Bool.false_ne_true]
    by_cases hold : resp.matchIndex < progress.matchIndex
    · rw [if_pos hold] at hadvance
      rw [bind_of_ok hadvance]
      simp only [hquiet, hold, true_or, true_and, true_iff]
      simp
    · rw [if_neg hold] at hadvance
      rw [bind_of_eq hadvance, retry_kept hretry, progressKept_setProgress hget,
        PeerProgress.eq_iff, ← rejectedNext_eq_iff hcap]
      simp only [hold, false_or, Bool.false_eq_true, false_and, not_false_eq_true, true_and, and_true]

/-- **Late answers.**  An answer of an earlier term leaves the progress of all
peers and the counter of a gather alone just if it tells nothing new; its term
is not looked at. -/
theorem stale_answer_ignored_iff (g : Gather) (hleader : n.isLeader = true)
    (hstale : resp.term < n.hardState.currentTerm) :
    (ProgressKept n ((handleAppendEntriesResponse sender resp).after n) ↔
      n.Unaffected sender resp) ∧
    (GatherKept n g (processAppendResp sender resp g n) ↔ n.UnaffectedGather g sender resp) := by
  obtain ⟨n', hrun, hkept⟩ : ∃ n', handleAppendEntriesResponse sender resp n = .ok () n' ∧
      (ProgressKept n n' ↔ n.Unaffected sender resp) := respond_kept_iff hleader hstale
  constructor
  · unfold RaftM.after EStateM.run
    rw [hrun]
    exact hkept
  unfold RaftNode.UnaffectedGather
  cases hpending : n.scratchPending.get sender with
  | none =>
      unfold processAppendResp
      rw [get_bind, hpending]
      dsimp only
      rw [bind_of_ok hrun]
      change ProgressKept n n' ∧ g.accepted = g.accepted ↔ _
      rw [and_iff_left rfl]
      exact hkept
  | some state =>
      rw [processAppendResp_pending hpending]
      dsimp only
      cases hget : n.peerProgress.get sender with
      | none =>
          have hunknown : advanceAppendReplication sender g.lastIndex state resp n =
              .error (.peerUnknown sender) n := by
            unfold advanceAppendReplication
            rw [get_bind, if_neg (by omega), hget]
            rfl
          rw [bind_of_error hunknown]
          simp only [reduceCtorEq, false_implies, implies_true, iff_true]
          exact ProgressKept.refl n
      | some progress =>
          simp only [Option.some.injEq, forall_eq']
          exact pending_kept_iff hstale hget

end Paths

/-- Node 1 of three with one entry of its first leadership, elected again in
term 2. -/
def reelected : RaftNode :=
  (Action.assumeLeadership 2).run
    ((Action.countVotes 2 [⟨3, .requestVoteResp ⟨2, true⟩⟩] [1]).run
      (Action.startElection.run (trioNode 1
        { hardState := ⟨1, some 1⟩
          entries := [⟨1, 1, [7]⟩]
          snapshot := none
          seeded := false })))

/-- A rejection that arrives twice is not news. -/
theorem stale_answer_ignored_iff_rejection :
    ProgressKept reelected
      ((handleAppendEntriesResponse 2 ⟨1, 1, false, 0⟩).after reelected) := by
  refine (stale_answer_ignored_iff ⟨1, 2, 2, 1⟩ (by decide +kernel) (by decide +kernel)).1.mpr ?_
  intro progress hget
  have hfresh : reelected.peerProgress.get 2 = some ⟨2, 0⟩ := by decide +kernel
  have hcap : reelected.nextIndexCap = 2 := by decide +kernel
  obtain rfl : (⟨2, 0⟩ : PeerProgress) = progress := Option.some.inj (hfresh.symm.trans hget)
  rw [hcap]
  decide

/-- The match index of a peer and the voters a proposal has counted once a late
acknowledgement of term 1 was handled, on either path. -/
def lateOutcome (resp : AppendEntriesResp) : Option Nat × Option (Nat × Option Nat) :=
  (((handleAppendEntriesResponse 2 resp).after reelected).peerProgress.get 2 |>.map
      PeerProgress.matchIndex,
    match startPropose [[8]] reelected with
    | .ok (some g) n =>
      match processAppendResp 2 resp g n with
      | .ok g' n' => some (g'.accepted, (n'.peerProgress.get 2).map PeerProgress.matchIndex)
      | .error _ _ => none
    | _ => none)

/-- An acknowledgement of term 1 moves the progress of node 2 in term 2, and
counts as its vote for the entry proposed in term 2. -/
theorem stale_answer_counted :
    reelected.hardState.currentTerm = 2 ∧ reelected.isLeader = true ∧
      (reelected.peerProgress.get 2).map PeerProgress.matchIndex = some 0 ∧
      lateOutcome ⟨1, 2, true, 0⟩ = (some 2, some (2, some 2)) := by
  decide +kernel

end ArbitroRaft
