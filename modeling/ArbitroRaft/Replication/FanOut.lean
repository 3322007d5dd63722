import ArbitroRaft.Machine.Run

/-!
# The heartbeat fan-out

`send_heartbeat_once` fixes the number of turns when it starts and takes the peer
of each turn from `scratch_peers`.  A turn that installs a snapshot may call
`send_bare_heartbeats_except`, which refills that vector without the peer it
serves.  The vector is shorter then, and the last turn indexes behind its end.

A tick installs at most one snapshot, so the fan-out is total, however long an
install lasts, exactly where no peer but the last one gets it.

## Main results

* `heartbeat_total_iff`: when no tick indexes behind the end.
-/

namespace ArbitroRaft

open Library

namespace RaftNode

/-! ## The turn of a peer -/

/-- `term_at` finds a term. -/
def knowsTerm (n : RaftNode) (index : Nat) : Bool :=
  index == 0 || index == n.cachedLastLog.1 || (n.logMetadata.getTerm index).isSome ||
    index == n.snapshotBoundary.1 || (n.storage.termAt index).isSome

/-- Appends cannot repair the peer: the entry it needs is gone, or the term of
the entry before. -/
def backlogLost (n : RaftNode) (peer : PeerId) (lastLog : Nat) : Bool :=
  match (n.peerProgress.get peer).map PeerProgress.nextIndex with
  | some next =>
    decide (next ≤ lastLog) &&
      ((n.storage.entryAt next).isNone || !n.knowsTerm (next - 1))
  | none => false

/-- The saved snapshot reaches what the peer needs next. -/
def snapshotServes (n : RaftNode) (peer : PeerId) : Bool :=
  match n.peerProgress.get peer, n.storage.snapshot with
  | some progress, some (m, _) => decide (progress.nextIndex ≤ m.lastIncludedIndex)
  | _, _ => false

/-- The attempt cap admits an install. -/
def installAdmitted (n : RaftNode) (peer : PeerId) : Bool :=
  (n.attemptsOf peer).cooldownUntil.isNone &&
    decide ((n.attemptsOf peer).attempts < max n.config.limits.snapshotMaxAttemptsPerPeer 1)

/-- The turn of the peer installs the snapshot. -/
def installsTo (n : RaftNode) (peer : PeerId) (lastLog : Nat) : Bool :=
  n.backlogLost peer lastLog && n.snapshotServes peer && n.installAdmitted peer

/-- A lookup of a term: the arena remembers what storage answered. -/
def afterLookup (n : RaftNode) (index : Nat) : RaftNode :=
  if index = 0 ∨ index = n.cachedLastLog.1 ∨ (n.logMetadata.getTerm index).isSome ∨
      index = n.snapshotBoundary.1 then n
  else
    match n.storage.termAt index with
    | some t => { n with logMetadata := n.logMetadata.append index t }
    | none => n

/-- An install that is refused; the attempt that reaches the cap starts the
cooldown. -/
def afterRefusal (n : RaftNode) (peer : PeerId) : RaftNode :=
  if n.snapshotServes peer ∧ (n.attemptsOf peer).cooldownUntil = none then
    n.setAttempts peer
      { n.attemptsOf peer with
        cooldownUntil := some (n.env.now + n.config.limits.snapshotAttemptCooldownMs) }
  else n

/-- A bare heartbeat. -/
def afterBare (n : RaftNode) (peer : PeerId) : RaftNode :=
  match n.ensureLeaderProgressInitialized.peerProgress.get peer with
  | some progress => n.ensureLeaderProgressInitialized.afterLookup (progress.nextIndex - 1)
  | none => n.ensureLeaderProgressInitialized

/-- A turn without install, the frames it sends apart. -/
def afterTurn (n : RaftNode) (peer : PeerId) (lastLog : Nat) : RaftNode :=
  match (n.peerProgress.get peer).map PeerProgress.nextIndex with
  | some next =>
    if next ≤ lastLog then
      if n.backlogLost peer lastLog then n.afterRefusal peer else n.afterLookup (next - 1)
    else n.afterBare peer
  | none => n.afterBare peer

/-- No turn but the last one installs a snapshot. -/
def InstallsLast (lastLog : Nat) : List PeerId → RaftNode → Prop
  | [], _ => True
  | [_], _ => True
  | peer :: next :: rest, n =>
    n.installsTo peer lastLog = false ∧
      InstallsLast lastLog (next :: rest) (n.afterTurn peer lastLog)

end RaftNode

/-! ## What the fan-out does -/

/-- The peers the loop takes up, one in each turn. -/
def heartbeatVisits (lastLog : Nat) (frames : List InboundRaftMessage) :
    (count i : Nat) → (escalated : Bool) → RaftNode → List PeerId
  | 0, _, _, _ => []
  | count + 1, i, escalated, n =>
    match n.scratchPeers[i]? with
    | none => []
    | some peer =>
      peer ::
        match heartbeatPeer peer lastLog escalated frames n with
        | .ok escalated n' => heartbeatVisits lastLog frames count (i + 1) escalated n'
        | .error _ _ => []

/-- The fan-out returns, and takes up the voters and the learners other than the
node itself, each of them once. -/
structure RaftNode.FansOut (n : RaftNode) (frames : List InboundRaftMessage) : Prop where
  returns : ∃ n', sendHeartbeatOnce frames n = .ok () n'
  visits : heartbeatVisits n.openTick.cachedLastLog.1 frames n.replicationTargets.length 0 false
    n.openTick = n.replicationTargets

/-- The same node where heartbeats come due otherwise during an install. -/
def RaftNode.withDue (n : RaftNode) (due : Nat → Bool) : RaftNode :=
  { n with env := { n.env with heartbeatDue := due } }

/-- The same node, up to the frames it sent and to when heartbeats come due. -/
def Alike (n n' : RaftNode) : Prop :=
  ∃ l due, n' = { n with sent := l, env := { n.env with heartbeatDue := due } }

section Turn

variable {n n' : RaftNode} {peer : PeerId} {lastLog : Nat}

theorem termAt_eq (n : RaftNode) (index : Nat) :
    (n.knowsTerm index = true ∧ ∃ t, termAt index n = .ok t (n.afterLookup index)) ∨
      (n.knowsTerm index = false ∧ n.afterLookup index = n ∧
        ∃ e, termAt index n = .error e n) := by
  unfold termAt RaftNode.knowsTerm RaftNode.afterLookup
  rw [get_bind]
  by_cases h0 : index = 0
  · exact .inl ⟨by simp [h0], by simp only [h0, true_or, if_true]; exact ⟨_, rfl⟩⟩
  rw [if_neg h0]
  by_cases hc : index = n.cachedLastLog.1
  · exact .inl ⟨by simp [hc], by simp only [hc, true_or, or_true, if_true]; exact ⟨_, rfl⟩⟩
  rw [if_neg hc]
  cases ha : n.logMetadata.getTerm index with
  | some t =>
    exact .inl ⟨by simp, by simp only [Option.isSome_some, true_or, or_true, if_true]; exact ⟨_, rfl⟩⟩
  | none =>
    by_cases hb : index = n.snapshotBoundary.1
    · exact .inl ⟨by simp [hb], by simp only [hb, or_true, if_true]; exact ⟨_, rfl⟩⟩
    have hmiss : ¬ (index = 0 ∨ index = n.cachedLastLog.1 ∨ (none : Option Nat).isSome = true ∨
        index = n.snapshotBoundary.1) := by
      simp [h0, hc, hb]
    rw [if_neg hmiss]
    simp only [if_neg hb]
    cases hs : n.storage.termAt index with
    | some t => exact .inl ⟨by simp, t, rfl⟩
    | none => exact .inr ⟨by simp [h0, hc, hb], rfl, _, rfl⟩

theorem withSent_replied (n : RaftNode) (reply : Bool) (peer : PeerId) (msg : RaftMessage) :
    WithSent n (n.replied reply peer msg) := by
  cases reply <;> exact ⟨_, rfl⟩

/-- Where an append to the peer would start, and how the lookup of the term before
ends. -/
theorem appendPrevForPeer_eq {progress : PeerProgress}
    (hp : n.peerProgress.get peer = some progress) :
    (n.knowsTerm (progress.nextIndex - 1) = true ∧ ∃ r, appendPrevForPeer peer n =
        .ok r (n.afterLookup (progress.nextIndex - 1))) ∨
      (n.knowsTerm (progress.nextIndex - 1) = false ∧
        n.afterLookup (progress.nextIndex - 1) = n ∧
        ∃ e, appendPrevForPeer peer n = .error e n) := by
  unfold appendPrevForPeer
  rw [get_bind, hp]
  dsimp only
  obtain ⟨hk, t, ht⟩ | ⟨hk, hsame, e, he⟩ := termAt_eq n (progress.nextIndex - 1)
  · rw [bind_of_ok ht]
    exact .inl ⟨hk, _, rfl⟩
  · rw [bind_of_error he]
    exact .inr ⟨hk, hsame, e, rfl⟩

/-- An append goes out, or fails for want of a term with nothing changed. -/
theorem sendAppendAttempt_eq {progress : PeerProgress}
    (hp : n.peerProgress.get peer = some progress) :
    (n.knowsTerm (progress.nextIndex - 1) = true ∧ ∃ r n', sendAppendAttempt peer n = .ok r n' ∧
        WithSent (n.afterLookup (progress.nextIndex - 1)) n') ∨
      (n.knowsTerm (progress.nextIndex - 1) = false ∧
        ∃ e, sendAppendAttempt peer n = .error e n) := by
  unfold sendAppendAttempt
  obtain ⟨hk, ⟨prev, t, next⟩, hr⟩ | ⟨hk, -, e, he⟩ := appendPrevForPeer_eq hp
  · rw [bind_of_ok hr]
    dsimp only
    rw [get_bind, bind_of_ok (sendMessage_eq _ _ _)]
    exact .inl ⟨hk, _, _, rfl, withSent_replied _ _ _ _⟩
  · rw [bind_of_error he]
    exact .inr ⟨hk, e, rfl⟩

theorem buildHeartbeatWire_eq (hl : n.isLeader = true) (peer : PeerId) :
    (∃ header, buildHeartbeatWire peer n = .ok (some header) (n.afterBare peer)) ∨
      ∃ e, buildHeartbeatWire peer n = .error e (n.afterBare peer) := by
  unfold buildHeartbeatWire RaftNode.afterBare
  rw [get_bind, if_pos hl, modify_bind]
  cases hp : n.ensureLeaderProgressInitialized.peerProgress.get peer with
  | none =>
    refine .inr ⟨.peerUnknown peer, bind_of_error ?_⟩
    unfold appendPrevForPeer
    rw [get_bind, hp]
    rfl
  | some progress =>
    dsimp only
    obtain ⟨-, ⟨prev, t, next⟩, hr⟩ | ⟨-, hsame, e, he⟩ := appendPrevForPeer_eq hp
    · rw [bind_of_ok hr]
      exact .inl ⟨_, rfl⟩
    · rw [bind_of_error he, hsame]
      exact .inr ⟨e, rfl⟩

/-- A bare heartbeat goes out or is skipped; either way the call returns. -/
theorem sendBareHeartbeat_eq (hl : n.isLeader = true) (peer : PeerId) :
    ∃ n', sendBareHeartbeat peer n = .ok () n' ∧ WithSent (n.afterBare peer) n' := by
  unfold sendBareHeartbeat
  obtain ⟨header, hr⟩ | ⟨e, hr⟩ := buildHeartbeatWire_eq hl peer
  · have hsend := sendMessage_eq (n.afterBare peer) peer (.appendEntries header [])
    exact ⟨_, tryCatch_of_ok ((bind_of_ok hr).trans (bind_of_ok hsend)),
      withSent_replied _ _ _ _⟩
  · exact ⟨_, tryCatch_of_error (bind_of_error hr), WithSent.refl _⟩

theorem admitInstall_eq (n : RaftNode) (peer : PeerId) :
    admitInstall peer n =
      if n.installAdmitted peer then
        .ok true (n.setAttempts peer
          { n.attemptsOf peer with attempts := (n.attemptsOf peer).attempts + 1 })
      else if (n.attemptsOf peer).cooldownUntil = none then
        .ok false (n.setAttempts peer
          { n.attemptsOf peer with
            cooldownUntil := some (n.env.now + n.config.limits.snapshotAttemptCooldownMs) })
      else .ok false n := by
  unfold admitInstall RaftNode.installAdmitted
  rw [get_bind]
  dsimp only
  cases hc : (n.attemptsOf peer).cooldownUntil with
  | some t => rfl
  | none =>
    by_cases hcap : max n.config.limits.snapshotMaxAttemptsPerPeer 1 ≤ (n.attemptsOf peer).attempts
    · simp [hcap, not_lt.mpr hcap]
      rfl
    · simp [hcap, not_le.mp hcap]
      rfl

/-- An install that is not admitted is refused, whatever arrives. -/
theorem maybeInstall_refused (frames : List InboundRaftMessage)
    (h : (n.snapshotServes peer && n.installAdmitted peer) = false) :
    maybeInstallSnapshotToLaggingPeer peer frames n = .ok false (n.afterRefusal peer) := by
  unfold maybeInstallSnapshotToLaggingPeer RaftNode.afterRefusal
  rw [get_bind]
  unfold RaftNode.snapshotServes at h ⊢
  cases hp : n.peerProgress.get peer with
  | none => rfl
  | some progress =>
    cases hs : n.storage.snapshot with
    | none => rfl
    | some saved =>
      obtain ⟨m, bytes⟩ := saved
      rw [hp, hs] at h
      dsimp only at h ⊢
      by_cases hreach : progress.nextIndex ≤ m.lastIncludedIndex
      · have hnot : n.installAdmitted peer = false := by simpa [hreach] using h
        have hgate := admitInstall_eq n peer
        rw [if_neg (by simp [hnot])] at hgate
        rw [if_neg (by omega)]
        by_cases hc : (n.attemptsOf peer).cooldownUntil = none
        · rw [if_pos hc] at hgate
          rw [bind_of_ok hgate, if_neg Bool.false_ne_true,
            if_pos (And.intro (decide_eq_true hreach) hc)]
          rfl
        · rw [if_neg hc] at hgate
          rw [bind_of_ok hgate, if_neg Bool.false_ne_true, if_neg (fun h => hc (And.right h))]
          rfl
      · rw [if_pos (by omega), if_neg (by simp [hreach])]
        rfl

theorem escalateOnce_refused (frames : List InboundRaftMessage)
    (h : (n.snapshotServes peer && n.installAdmitted peer) = false) :
    escalateOnce peer false frames n = .ok false (n.afterRefusal peer) := by
  have hesc : escalateSnapshotCatchup peer frames n = .ok .refused (n.afterRefusal peer) :=
    tryCatch_of_ok (bind_of_ok (maybeInstall_refused frames h))
  unfold escalateOnce
  rw [if_neg Bool.false_ne_true, bind_of_ok hesc]
  rfl

/-- A turn that installs nothing returns, whatever arrives. -/
theorem heartbeatPeer_eq (frames : List InboundRaftMessage) (hl : n.isLeader = true)
    (h : n.installsTo peer lastLog = false) :
    ∃ n', heartbeatPeer peer lastLog false frames n = .ok false n' ∧
      WithSent (n.afterTurn peer lastLog) n' := by
  have hrefused : n.backlogLost peer lastLog = true →
      escalateOnce peer false frames n = .ok false (n.afterRefusal peer) := by
    intro hlost
    have hnot : (n.snapshotServes peer && n.installAdmitted peer) = false := by
      unfold RaftNode.installsTo at h
      rwa [hlost, Bool.true_and] at h
    exact escalateOnce_refused frames hnot
  have hbare : ∃ n', (do sendBareHeartbeat peer; return false : RaftM Bool) n = .ok false n' ∧
      WithSent (n.afterBare peer) n' := by
    obtain ⟨n', hn', hsent⟩ := sendBareHeartbeat_eq hl peer
    exact ⟨n', bind_of_ok hn', hsent⟩
  unfold heartbeatPeer RaftNode.afterTurn
  rw [get_bind]
  cases hp : n.peerProgress.get peer with
  | none => exact hbare
  | some progress =>
    dsimp only [Option.map_some]
    by_cases hle : progress.nextIndex ≤ lastLog
    · rw [if_pos hle, if_pos hle]
      have hlost : n.backlogLost peer lastLog = ((n.storage.entryAt progress.nextIndex).isNone ||
          !n.knowsTerm (progress.nextIndex - 1)) := by
        simp [RaftNode.backlogLost, hp, hle]
      by_cases hgone : (n.storage.entryAt progress.nextIndex).isNone = true
      · have hl' : n.backlogLost peer lastLog = true := by rw [hlost, hgone, Bool.true_or]
        rw [if_pos hgone, if_pos hl']
        exact ⟨_, hrefused hl', WithSent.refl _⟩
      · rw [if_neg hgone]
        obtain ⟨hk, r, n', hr, hsent⟩ | ⟨hk, e, he⟩ := sendAppendAttempt_eq hp
        · have hkept : ¬ n.backlogLost peer lastLog = true := by
            rw [hlost, hk]
            simpa using hgone
          rw [if_neg hkept]
          exact ⟨n', tryCatch_of_ok (bind_of_ok hr), hsent⟩
        · have hl' : n.backlogLost peer lastLog = true := by
            rw [hlost, hk, Bool.not_false, Bool.or_true]
          rw [if_pos hl']
          exact ⟨_, (tryCatch_of_error (bind_of_error he)).trans (hrefused hl'), WithSent.refl _⟩
    · rw [if_neg hle, if_neg hle]
      exact hbare

/-! ## States between two turns -/

theorem sameLead_ensureProgress (n : RaftNode) :
    SameLead n n.ensureLeaderProgressInitialized ∧
      n.ensureLeaderProgressInitialized.env = n.env := by
  unfold RaftNode.ensureLeaderProgressInitialized
  split <;> exact ⟨⟨rfl, rfl, rfl⟩, rfl⟩

theorem sameLead_afterLookup (n : RaftNode) (index : Nat) :
    SameLead n (n.afterLookup index) ∧ (n.afterLookup index).env = n.env := by
  unfold RaftNode.afterLookup
  split
  · exact ⟨⟨rfl, rfl, rfl⟩, rfl⟩
  · split <;> exact ⟨⟨rfl, rfl, rfl⟩, rfl⟩

theorem sameLead_afterTurn (n : RaftNode) (peer : PeerId) (lastLog : Nat) :
    SameLead n (n.afterTurn peer lastLog) ∧ (n.afterTurn peer lastLog).env = n.env := by
  have hbare : SameLead n (n.afterBare peer) ∧ (n.afterBare peer).env = n.env := by
    obtain ⟨hsame, henv⟩ := sameLead_ensureProgress n
    unfold RaftNode.afterBare
    split
    · rename_i progress _
      obtain ⟨hsame', henv'⟩ :=
        sameLead_afterLookup n.ensureLeaderProgressInitialized (progress.nextIndex - 1)
      exact ⟨trans_of SameLead hsame hsame', henv'.trans henv⟩
    · exact ⟨hsame, henv⟩
  unfold RaftNode.afterTurn
  split
  · split
    · split
      · unfold RaftNode.afterRefusal
        split <;> exact ⟨⟨rfl, rfl, rfl⟩, rfl⟩
      · exact sameLead_afterLookup n _
    · exact hbare
  · exact hbare

theorem Alike.of_withSent (h : WithSent n n') : Alike n n' := by
  obtain ⟨l, rfl⟩ := h
  exact ⟨l, n.env.heartbeatDue, rfl⟩

theorem Alike.installsTo (h : Alike n n') : n'.installsTo peer lastLog = n.installsTo peer lastLog := by
  obtain ⟨l, due, rfl⟩ := h
  rfl

theorem Alike.afterLookup (h : Alike n n') (index : Nat) :
    Alike (n.afterLookup index) (n'.afterLookup index) := by
  obtain ⟨l, due, rfl⟩ := h
  unfold RaftNode.afterLookup
  dsimp only
  split
  · exact ⟨l, due, rfl⟩
  · split <;> exact ⟨l, due, rfl⟩

theorem Alike.ensureProgress (h : Alike n n') :
    Alike n.ensureLeaderProgressInitialized n'.ensureLeaderProgressInitialized := by
  obtain ⟨l, due, rfl⟩ := h
  unfold RaftNode.ensureLeaderProgressInitialized
  dsimp only
  split <;> exact ⟨l, due, rfl⟩

theorem Alike.afterTurn (h : Alike n n') :
    Alike (n.afterTurn peer lastLog) (n'.afterTurn peer lastLog) := by
  have hbare : Alike (n.afterBare peer) (n'.afterBare peer) := by
    have hens := h.ensureProgress
    have hprogress : n'.ensureLeaderProgressInitialized.peerProgress =
        n.ensureLeaderProgressInitialized.peerProgress := by
      obtain ⟨l, due, he⟩ := hens
      rw [he]
    unfold RaftNode.afterBare
    rw [hprogress]
    split
    · exact hens.afterLookup _
    · exact hens
  have hrefusal : Alike (n.afterRefusal peer) (n'.afterRefusal peer) := by
    have hserves : n'.snapshotServes peer = n.snapshotServes peer := by
      obtain ⟨l, due, rfl⟩ := h
      rfl
    have hattempts : n'.attemptsOf peer = n.attemptsOf peer := by
      obtain ⟨l, due, rfl⟩ := h
      rfl
    unfold RaftNode.afterRefusal
    rw [hserves, hattempts]
    split
    · obtain ⟨l, due, rfl⟩ := h
      exact ⟨l, due, rfl⟩
    · exact h
  have hlook := h.afterLookup
  have hlost : n'.backlogLost peer lastLog = n.backlogLost peer lastLog := by
    obtain ⟨l, due, rfl⟩ := h
    rfl
  have hprogress : n'.peerProgress = n.peerProgress := by
    obtain ⟨l, due, rfl⟩ := h
    rfl
  unfold RaftNode.afterTurn
  rw [hlost, hprogress]
  split
  · split
    · split
      · exact hrefusal
      · exact hlook _
    · exact hbare
  · exact hbare

/-- The condition does not depend on what was sent or on when heartbeats are due. -/
theorem Alike.installsLast {peers : List PeerId} (h : Alike n n') :
    RaftNode.InstallsLast lastLog peers n' ↔ RaftNode.InstallsLast lastLog peers n := by
  induction peers generalizing n n' with
  | nil => exact Iff.rfl
  | cons peer rest ih =>
    cases rest with
    | nil => exact Iff.rfl
    | cons next rest =>
      unfold RaftNode.InstallsLast
      rw [h.installsTo]
      exact and_congr_right fun _ => ih h.afterTurn

end Turn

/-! ## The loop -/

section Loop

variable {n : RaftNode} {peer : PeerId} {lastLog : Nat} {frames : List InboundRaftMessage}

/-- A bare heartbeat fails for nobody else. -/
theorem sendBareHeartbeat_ends (peer : PeerId) :
    Ends (sendBareHeartbeat peer) n (fun _ n' => SameLead n n') fun _ => False := by
  unfold sendBareHeartbeat
  refine .recover (F := SameLead n) ?_ ?_
  · refine (Ends.of_emits (Q := fun _ _ => True) ?_).mono (fun _ n' h => h.1) (fun n' h => h)
    refine (buildHeartbeatWire_sameLead peer).seq ?_
    intro r n' _ _
    cases r with
    | none => exact .ret trivial
    | some header =>
      refine (sendMessage_sameLead peer _).seq ?_
      intro _ _ _ _
      exact .ret trivial
  · exact fun _ n' h => .ret h

theorem sendBareHeartbeats_ends (peers : List PeerId) :
    Ends (sendBareHeartbeats peers) n (fun _ n' => SameLead n n') fun _ => False := by
  induction peers generalizing n with
  | nil => exact .ret (refl_of SameLead n)
  | cons peer rest ih =>
    unfold sendBareHeartbeats
    refine (sendBareHeartbeat_ends peer).seq ?_
    intro _ n' h
    exact ih.mono (fun _ n'' h' => trans_of SameLead h h') (fun _ h' => h')

/-- A turn returns if the escalation does. -/
theorem heartbeatPeer_ends {escalated : Bool} {Q : Bool → RaftNode → Prop}
    (hesc : ∀ n', SameLead n n' →
      Ends (escalateOnce peer escalated frames) n' Q fun _ => False)
    (hkeep : ∀ n', SameLead n n' → Q escalated n') :
    Ends (heartbeatPeer peer lastLog escalated frames) n Q fun _ => False := by
  have hbare : Ends (do sendBareHeartbeat peer; return escalated : RaftM Bool) n Q
      fun _ => False := by
    refine (sendBareHeartbeat_ends peer).seq ?_
    intro _ n' h
    exact .ret (hkeep n' h)
  unfold heartbeatPeer
  refine .read ?_
  split
  · split
    · split
      · exact hesc n (refl_of SameLead n)
      · refine .recover (F := SameLead n) ?_ ?_
        · refine .seq (P := fun _ n' => SameLead n n') ?_ ?_
          · exact (Ends.of_emits (sendAppendAttempt_sameLead peer)).mono
              (fun _ n' h => h.1) (fun n' h => h)
          · exact fun _ n' h => .ret (hkeep n' h)
        · exact fun _ n' h => hesc n' h
    · exact hbare
  · exact hbare

theorem escalateOnce_ends (escalated : Bool) :
    Ends (escalateOnce peer escalated frames) n (fun _ _ => True) fun _ => False := by
  have hcatch : Ends (escalateSnapshotCatchup peer frames) n (fun _ _ => True) fun _ => False := by
    unfold escalateSnapshotCatchup
    refine .recover (F := fun _ => True) ?_ fun _ _ _ => .ret trivial
    unfold Ends
    split <;> exact trivial
  unfold escalateOnce
  split
  · exact .ret trivial
  · refine hcatch.seq ?_
    intro r n' _
    cases r <;> exact .ret trivial

theorem escalateOnce_done (n : RaftNode) : escalateOnce peer true frames n = .ok true n := rfl

/-- What goes wrong for one peer stays with that peer. -/
theorem heartbeatPeer_returns (n : RaftNode) (peer : PeerId) (lastLog : Nat) (escalated : Bool)
    (frames : List InboundRaftMessage) :
    ∃ b n', heartbeatPeer peer lastLog escalated frames n = .ok b n' := by
  have hends : Ends (heartbeatPeer peer lastLog escalated frames) n (fun _ _ => True)
      fun _ => False :=
    heartbeatPeer_ends (fun _ _ => escalateOnce_ends escalated) fun _ _ => trivial
  obtain ⟨b, n', hn', -⟩ := hends.returns
  exact ⟨b, n', hn'⟩

/-- Once a snapshot went out no turn touches the vector. -/
theorem heartbeatPeer_escalated (n : RaftNode) (peer : PeerId) (lastLog : Nat)
    (frames : List InboundRaftMessage) :
    ∃ n', heartbeatPeer peer lastLog true frames n = .ok true n' ∧
      n'.scratchPeers = n.scratchPeers := by
  have hends : Ends (heartbeatPeer peer lastLog true frames) n
      (fun b n' => b = true ∧ n'.scratchPeers = n.scratchPeers) fun _ => False := by
    refine heartbeatPeer_ends ?_ ?_
    · intro n' h
      unfold Ends
      rw [escalateOnce_done]
      exact ⟨rfl, h.2.2⟩
    · exact fun n' h => ⟨rfl, h.2.2⟩
  obtain ⟨b, n', hn', rfl, hs⟩ := hends.returns
  exact ⟨n', hn', hs⟩

theorem sendMessage_ends {E : RaftNode → Prop} (peer : PeerId) (msg : RaftMessage) :
    Ends (sendMessage peer msg) n (fun _ n' => WithSent n n') E := by
  unfold Ends
  rw [sendMessage_eq]
  exact withSent_replied n _ peer msg

/-- A chunk before which a heartbeat is due: the vector is refilled. -/
theorem sendChunk_refills {i : Install} {E : RaftNode → Prop} (hl : n.isLeader = true)
    (hdue : n.env.heartbeatDue = fun _ => true) :
    Ends (sendChunk i) n (fun _ n' =>
      n'.scratchPeers = n.replicationTargets.filter (fun p => decide (p ≠ i.peer))) E := by
  have hbeats : Ends (sendBareHeartbeatsExcept i.peer) n (fun _ n' =>
      n'.scratchPeers = n.replicationTargets.filter (fun p => decide (p ≠ i.peer))) E := by
    unfold sendBareHeartbeatsExcept
    refine .read ?_
    rw [if_pos hl]
    refine .updateSeq ((sendBareHeartbeats_ends _).mono ?_ fun _ h => h.elim)
    exact fun _ n' h => h.2.2
  unfold sendChunk
  refine .read ?_
  rw [if_pos (by rw [hdue])]
  refine hbeats.seq ?_
  intro _ n' h
  refine .read ((sendMessage_ends i.peer _).seq ?_)
  rintro _ n'' ⟨l, rfl⟩
  exact .ret h

/-- An install that nothing answers times out. -/
theorem installSnapshotOnce_refills (m : SnapshotMeta) (bytes : List UInt8)
    (hl : n.isLeader = true) (hdue : n.env.heartbeatDue = fun _ => true) :
    Ends (installSnapshotOnce peer m bytes []) n (fun _ _ => False) fun n' =>
      n'.scratchPeers = n.replicationTargets.filter (fun p => decide (p ≠ peer)) := by
  unfold installSnapshotOnce
  refine .read ?_
  rw [if_pos hl]
  refine (sendChunk_refills hl hdue).seq ?_
  intro _ n' h
  exact .fail h

theorem maybeInstall_refills (hl : n.isLeader = true) (hdue : n.env.heartbeatDue = fun _ => true)
    (h : (n.snapshotServes peer && n.installAdmitted peer) = true) :
    Ends (maybeInstallSnapshotToLaggingPeer peer []) n (fun _ _ => False) fun n' =>
      n'.scratchPeers = n.replicationTargets.filter (fun p => decide (p ≠ peer)) := by
  obtain ⟨hserves, hadmitted⟩ := Bool.and_eq_true_iff.mp h
  unfold RaftNode.snapshotServes at hserves
  unfold maybeInstallSnapshotToLaggingPeer
  refine .read ?_
  cases hp : n.peerProgress.get peer with
  | none => simp [hp] at hserves
  | some progress =>
    cases hs : n.storage.snapshot with
    | none => simp [hp, hs] at hserves
    | some saved =>
      obtain ⟨m, bytes⟩ := saved
      rw [hp, hs] at hserves
      have hreach := of_decide_eq_true hserves
      dsimp only
      rw [if_neg (by omega)]
      have hgate := admitInstall_eq n peer
      rw [if_pos hadmitted] at hgate
      refine .seq (P := fun b n' => b = true ∧ ∃ a, n' = n.setAttempts peer a) ?_ ?_
      · unfold Ends
        rw [hgate]
        exact ⟨rfl, _, rfl⟩
      · rintro _ _ ⟨rfl, a, rfl⟩
        rw [if_pos rfl]
        refine .seq (P := fun _ _ => False) ?_ fun _ _ h => h.elim
        exact installSnapshotOnce_refills (n := n.setAttempts peer a) m bytes hl hdue

/-- A turn that installs the snapshot, with a heartbeat due on the way, leaves the
vector without the peer. -/
theorem heartbeatPeer_installs (hl : n.isLeader = true)
    (hdue : n.env.heartbeatDue = fun _ => true) (h : n.installsTo peer lastLog = true) :
    ∃ n', heartbeatPeer peer lastLog false [] n = .ok true n' ∧
      n'.scratchPeers = n.replicationTargets.filter (fun p => decide (p ≠ peer)) := by
  unfold RaftNode.installsTo at h
  rw [Bool.and_assoc] at h
  obtain ⟨hlost, hinstall⟩ := Bool.and_eq_true_iff.mp h
  obtain ⟨n', hescalate, hs⟩ : ∃ n', escalateOnce peer false [] n = .ok true n' ∧
      n'.scratchPeers = n.replicationTargets.filter (fun p => decide (p ≠ peer)) := by
    have hends := maybeInstall_refills hl hdue hinstall
    unfold Ends at hends
    cases hm : maybeInstallSnapshotToLaggingPeer peer [] n with
    | ok b n' =>
      rw [hm] at hends
      exact hends.elim
    | error e n' =>
      rw [hm] at hends
      have hesc : escalateSnapshotCatchup peer [] n = .ok .failed n' :=
        tryCatch_of_error (bind_of_error hm)
      refine ⟨n', ?_, hends⟩
      unfold escalateOnce
      rw [if_neg Bool.false_ne_true, bind_of_ok hesc]
      rfl
  refine ⟨n', ?_, hs⟩
  unfold RaftNode.backlogLost at hlost
  unfold heartbeatPeer
  rw [get_bind]
  cases hp : n.peerProgress.get peer with
  | none => simp [hp] at hlost
  | some progress =>
    rw [hp] at hlost
    simp only [Option.map_some, Bool.and_eq_true, decide_eq_true_eq] at hlost ⊢
    rw [if_pos hlost.1]
    by_cases hgone : (n.storage.entryAt progress.nextIndex).isNone = true
    · rw [if_pos hgone]
      exact hescalate
    · rw [if_neg hgone]
      obtain ⟨hk, -⟩ | ⟨-, e, he⟩ := sendAppendAttempt_eq hp
      · simp [hk, hgone] at hlost
      · exact (tryCatch_of_error (bind_of_error he)).trans hescalate

/-- With fewer peers left than turns the loop indexes behind the end. -/
theorem heartbeatPeers_panics {count i : Nat} (hlen : n.scratchPeers.length < i + (count + 1)) :
    ∃ n', heartbeatPeers lastLog frames (count + 1) i true n = .error .panicked n' := by
  induction count generalizing n i with
  | zero =>
    unfold heartbeatPeers
    rw [get_bind, List.getElem?_eq_none (by omega)]
    exact ⟨n, rfl⟩
  | succ count ih =>
    unfold heartbeatPeers
    rw [get_bind]
    cases hpeer : n.scratchPeers[i]? with
    | none => exact ⟨n, rfl⟩
    | some peer =>
      obtain ⟨n', hn', hs⟩ := heartbeatPeer_escalated n peer lastLog frames
      dsimp only
      rw [bind_of_ok hn']
      exact ih (by rw [hs]; omega)

theorem SameLead.isLeader {n' : RaftNode} (h : SameLead n n') : n'.isLeader = n.isLeader := by
  unfold RaftNode.isLeader
  rw [h.2.1]

theorem SameLead.replicationTargets {n' : RaftNode} (h : SameLead n n') :
    n'.replicationTargets = n.replicationTargets := by
  unfold RaftNode.replicationTargets
  rw [h.1]

/-- What a turn without install leaves to the next one. -/
theorem heartbeatPeer_passes (frames : List InboundRaftMessage) (hl : n.isLeader = true)
    (h : n.installsTo peer lastLog = false) :
    ∃ n', heartbeatPeer peer lastLog false frames n = .ok false n' ∧ SameLead n n' ∧
      n'.env = n.env ∧ Alike (n.afterTurn peer lastLog) n' := by
  obtain ⟨n', hn', hsent⟩ := heartbeatPeer_eq frames hl h
  obtain ⟨hsame, henv⟩ := sameLead_afterTurn n peer lastLog
  have halike := Alike.of_withSent hsent
  obtain ⟨l, rfl⟩ := hsent
  exact ⟨_, hn', hsame, henv, halike⟩

theorem getElem?_of_drop {α : Type} {l rest : List α} {i : Nat} {a : α}
    (h : l.drop i = a :: rest) : l[i]? = some a ∧ l.drop (i + 1) = rest := by
  rw [← List.head?_drop, ← List.tail_drop, h]
  exact ⟨rfl, rfl⟩

/-- The loop over the rest of the vector where no turn but the last installs. -/
theorem heartbeatPeers_total {peers : List PeerId} {i : Nat} (hl : n.isLeader = true)
    (hdrop : n.scratchPeers.drop i = peers) (h : RaftNode.InstallsLast lastLog peers n) :
    (∃ n', heartbeatPeers lastLog frames peers.length i false n = .ok () n') ∧
      heartbeatVisits lastLog frames peers.length i false n = peers := by
  induction peers generalizing n i with
  | nil => exact ⟨⟨n, rfl⟩, rfl⟩
  | cons peer rest ih =>
    obtain ⟨hpeer, hrest⟩ := getElem?_of_drop hdrop
    rw [List.length_cons]
    unfold heartbeatPeers heartbeatVisits
    rw [get_bind, hpeer]
    dsimp only
    cases rest with
    | nil =>
      obtain ⟨b, n', hn'⟩ := heartbeatPeer_returns n peer lastLog false frames
      rw [bind_of_ok hn', hn']
      exact ⟨⟨n', rfl⟩, rfl⟩
    | cons next rest =>
      obtain ⟨n', hn', hsame, -, halike⟩ := heartbeatPeer_passes frames hl h.1
      rw [bind_of_ok hn', hn']
      obtain ⟨hreturns, hvisits⟩ := ih (hsame.isLeader.trans hl)
        (hsame.2.2.symm ▸ hrest) (halike.installsLast.mpr h.2)
      exact ⟨hreturns, congrArg (peer :: ·) hvisits⟩

/-- The loop over the rest of the vector where a turn before the last installs,
with heartbeats due on the way. -/
theorem heartbeatPeers_fails {peers : List PeerId} {i : Nat} (hl : n.isLeader = true)
    (hdue : n.env.heartbeatDue = fun _ => true) (hscratch : n.scratchPeers = n.replicationTargets)
    (hdrop : n.scratchPeers.drop i = peers) (h : ¬ RaftNode.InstallsLast lastLog peers n) :
    ∃ n', heartbeatPeers lastLog [] peers.length i false n = .error .panicked n' := by
  induction peers generalizing n i with
  | nil => exact absurd trivial h
  | cons peer rest ih =>
    obtain ⟨hpeer, hrest⟩ := getElem?_of_drop hdrop
    rw [List.length_cons]
    unfold heartbeatPeers
    rw [get_bind, hpeer]
    dsimp only
    cases rest with
    | nil => exact absurd trivial h
    | cons next rest =>
      cases hinst : n.installsTo peer lastLog with
      | true =>
        obtain ⟨n', hn', hs⟩ := heartbeatPeer_installs hl hdue hinst
        rw [bind_of_ok hn']
        refine heartbeatPeers_panics ?_
        have hlen := congrArg List.length hrest
        have hmem : peer ∈ n.replicationTargets := hscratch ▸ List.mem_of_getElem? hpeer
        have hless : (n.replicationTargets.filter (fun p => decide (p ≠ peer))).length <
            n.replicationTargets.length :=
          List.length_filter_lt_length_iff_exists.mpr ⟨peer, hmem, by simp⟩
        rw [List.length_drop, List.length_cons, hscratch] at hlen
        rw [hs]
        omega
      | false =>
        obtain ⟨n', hn', hsame, henv, halike⟩ := heartbeatPeer_passes [] hl hinst
        rw [bind_of_ok hn']
        apply ih (hsame.isLeader.trans hl) (henv.symm ▸ hdue)
        · rw [hsame.2.2, hsame.replicationTargets]
          exact hscratch
        · rw [hsame.2.2]
          exact hrest
        · rw [halike.installsLast]
          exact fun h' => h ⟨hinst, h'⟩

end Loop

section Tick

variable {n : RaftNode}

theorem openTick_of_isLeader (hl : n.isLeader = true) :
    n.openTick = n.ensureLeaderProgressInitialized.setScratchPeers n.replicationTargets := by
  unfold RaftNode.openTick
  rw [if_pos hl, (sameLead_ensureProgress n).1.replicationTargets]

theorem sendHeartbeatOnce_eq (frames : List InboundRaftMessage) (hl : n.isLeader = true) :
    sendHeartbeatOnce frames n =
      heartbeatPeers n.openTick.cachedLastLog.1 frames n.replicationTargets.length 0 false
        n.openTick := by
  rw [openTick_of_isLeader hl]
  unfold sendHeartbeatOnce
  rw [get_bind, if_pos hl, modify_bind, modify_bind, get_bind,
    (sameLead_ensureProgress n).1.replicationTargets]
  rfl

/-- The first turn finds the whole list in the vector. -/
theorem sameLead_openTick (hl : n.isLeader = true) :
    n.openTick.isLeader = true ∧ n.openTick.env = n.env ∧
      n.openTick.scratchPeers = n.replicationTargets ∧
      n.openTick.replicationTargets = n.replicationTargets := by
  obtain ⟨hsame, henv⟩ := sameLead_ensureProgress n
  rw [openTick_of_isLeader hl]
  exact ⟨hsame.isLeader.trans hl, henv, rfl, hsame.replicationTargets⟩

theorem alike_withDue (hl : n.isLeader = true) (due : Nat → Bool) :
    Alike n.openTick (n.withDue due).openTick := by
  have hens : Alike n.ensureLeaderProgressInitialized
      (n.withDue due).ensureLeaderProgressInitialized :=
    Alike.ensureProgress ⟨n.sent, due, rfl⟩
  have hl' : (n.withDue due).isLeader = true := hl
  rw [openTick_of_isLeader hl, openTick_of_isLeader hl']
  obtain ⟨l, due', he⟩ := hens
  rw [he]
  exact ⟨l, due', rfl⟩

theorem Alike.cachedLastLog {n' : RaftNode} (h : Alike n n') :
    n'.cachedLastLog = n.cachedLastLog := by
  obtain ⟨l, due, rfl⟩ := h
  rfl

end Tick

/-- However long the installs of a tick last, the fan-out of a leader is total
exactly where no turn but the last one installs a snapshot. -/
theorem heartbeat_total_iff (n : RaftNode) (hl : n.isLeader = true) :
    (∀ (due : Nat → Bool) (frames : List InboundRaftMessage), (n.withDue due).FansOut frames) ↔
      RaftNode.InstallsLast n.openTick.cachedLastLog.1 n.replicationTargets n.openTick := by
  have hopen : ∀ due, (n.withDue due).isLeader = true := fun _ => hl
  constructor
  · intro h
    by_contra hnot
    -- An install before which heartbeats are due at once, and that nobody answers.
    have halike := alike_withDue hl (fun _ => true)
    obtain ⟨hl', henv, hscratch, htargets⟩ := sameLead_openTick (hopen fun _ => true)
    have hlong : ¬ RaftNode.InstallsLast n.openTick.cachedLastLog.1 n.replicationTargets
        (n.withDue fun _ => true).openTick := by
      rw [halike.installsLast]
      exact hnot
    have hfails : ∃ n', heartbeatPeers n.openTick.cachedLastLog.1 [] n.replicationTargets.length 0
        false (n.withDue fun _ => true).openTick = .error .panicked n' :=
      heartbeatPeers_fails hl' (by rw [henv]; rfl) (hscratch.trans htargets.symm) hscratch hlong
    obtain ⟨n', hpanic⟩ := hfails
    obtain ⟨n'', hok⟩ := (h (fun _ => true) []).returns
    rw [sendHeartbeatOnce_eq [] (hopen _), halike.cachedLastLog] at hok
    exact absurd (hpanic.symm.trans hok) (by simp)
  · intro h due frames
    have halike := alike_withDue hl due
    obtain ⟨hl', -, hscratch, -⟩ := sameLead_openTick (hopen due)
    obtain ⟨hreturns, hvisits⟩ :=
      @heartbeatPeers_total _ _ frames _ 0 hl' hscratch (halike.installsLast.mpr h)
    constructor
    · rw [sendHeartbeatOnce_eq frames (hopen due), halike.cachedLastLog]
      exact hreturns
    · rw [halike.cachedLastLog]
      exact hvisits

/-- A leader whose followers are caught up. -/
theorem heartbeat_total_iff_caught_up :
    (trioNode 1 retainedTail).becomeLeader.isLeader = true ∧
      ∀ (due : Nat → Bool) (frames : List InboundRaftMessage),
        ((trioNode 1 retainedTail).becomeLeader.withDue due).FansOut frames :=
  ⟨rfl, (heartbeat_total_iff _ rfl).mpr ⟨rfl, trivial⟩⟩

/-! ## A slow follower -/

/-- Node 1 of three streams its snapshot byte by byte. -/
def streamingConfig : NodeConfig :=
  { trioConfig 1 with limits := { LimitsConfig.initial with snapshotChunkBytes := 1 } }

def twoByteSnapshot : Storage :=
  { retainedTail with snapshot := some (⟨20, 1⟩, [7, 8]) }

def streamingNode : RaftNode :=
  RaftNode.fromStorage streamingConfig twoByteSnapshot [] (Env.calm 0)

/-- It wins term 2, and node 2 rejects what it is sent until its next index is
covered by the snapshot. -/
def leadsLaggard : List Event :=
  [.act (Env.calm 0) .startElection,
    .act (Env.calm 0) (.countVotes 2 [⟨3, .requestVoteResp ⟨2, true⟩⟩] [1]),
    .act (Env.calm 0) (.assumeLeadership 2)] ++
    List.replicate 6 (.act (Env.calm 0) (.inbound ⟨2, .appendEntriesResp ⟨2, 3, false, 0⟩⟩))

/-- Node 2 takes longer than a heartbeat interval for the first byte. -/
def slowFollower : Env :=
  { Env.calm 0 with heartbeatDue := fun offset => decide (offset = 1) }

/-- How the tick ends. -/
def tickError (n : RaftNode) : Option RaftError :=
  match sendHeartbeatOnce [⟨2, .installSnapshotResp ⟨2, 1, true⟩⟩] n with
  | .ok _ _ => none
  | .error e _ => some e

/-- The heartbeats between the two chunks leave node 3 alone in the vector, and
the second turn asks for its second element. -/
theorem heartbeat_indexes_past_end :
    Booted streamingNode ∧
      (Event.nextAll leadsLaggard streamingNode).map (fun n => (n.isLeader, n.replicationTargets,
        (n.peerProgress.get 2).map PeerProgress.nextIndex)) = some (true, [2, 3], some 20) ∧
      (Event.nextAll leadsLaggard streamingNode).map (fun n =>
        tickError { n with env := slowFollower }) = some (some .panicked) :=
  ⟨⟨streamingConfig, twoByteSnapshot, Env.calm 0, rfl⟩, by decide +kernel, by decide +kernel⟩

end ArbitroRaft
