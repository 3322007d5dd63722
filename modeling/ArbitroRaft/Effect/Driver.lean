import ArbitroRaft.Effect.Leader

/-!
# The run loop's own steps as effects
-/

namespace ArbitroRaft

open Library

variable {sc : Scope} {n : RaftNode}

/-! ## Configuration changes -/

theorem leadsFromOutside_isLeader (h : n.leadsFromOutside = true) : n.isLeader = true := by
  unfold RaftNode.leadsFromOutside at h
  exact (Bool.and_eq_true_iff.mp h).1

theorem leaveIfRemoved_emits (hd : n.leadsFromOutside = true → sc.demotes n.core) :
    Emits (Moves sc) leaveIfRemoved n (fun _ n' => SameLog n n') := by
  unfold leaveIfRemoved
  refine .read ?_
  split
  · rename_i h
    exact stepDown_self_emits (hd h) (leadsFromOutside_isLeader h)
  · exact .ret (.refl n)

/-- The node once a change is in force, before a removed leader leaves. -/
def RaftNode.reconfigured (n : RaftNode) (entry : ConfigChangeEntry) : RaftNode :=
  (n.adoptConfig entry).settleConfig

/-- Putting `entry` in force makes the node a leader outside of its voters. -/
def RaftNode.removedBy (n : RaftNode) (entry : ConfigChangeEntry) : Bool :=
  !entry.isRefused && (n.reconfigured entry).leadsFromOutside

theorem applyConfigChange_emits {entry : ConfigChangeEntry} (hc : sc.control)
    (hch : sc.change entry)
    (hd : n.removedBy entry = true → sc.demotes (n.reconfigured entry).core) :
    Emits (Moves sc) (applyConfigChange entry) n (fun _ n' => SameLog n n') := by
  unfold applyConfigChange
  split
  · exact .fail
  · rename_i hvalid
    have hs : SameLog n (n.reconfigured entry) :=
      (SameLog.adoptConfig n entry).trans (SameLog.settleConfig _)
    refine .updateSeq (.of_effect fun _ => .reconfigured entry hc hch (Bool.eq_false_iff.mpr hvalid)) ?_
    refine (leaveIfRemoved_emits fun hout => hd ?_).mono fun _ _ _ h => hs.trans h
    simp only [RaftNode.removedBy, hvalid, Bool.not_false, Bool.true_and]
    exact hout

theorem applyIfConfigChange_emits {payload : List UInt8} (hc : sc.control)
    (hch : ∀ entry, ConfigChangeEntry.decode payload = some entry → sc.change entry)
    (hd : ∀ entry, ConfigChangeEntry.decode payload = some entry →
      n.removedBy entry = true → sc.demotes (n.reconfigured entry).core) :
    Emits (Moves sc) (applyIfConfigChange payload) n (fun _ n' => SameLog n n') := by
  unfold applyIfConfigChange
  split
  · exact .ret (.refl n)
  · split
    · rename_i entry hdec
      refine (applyConfigChange_emits hc (hch entry hdec) (hd entry hdec)).seq ?_
      intro _ _ _ h
      exact .ret h
    · exact .ret (.refl n)

/-! ## Applying -/

/-- The entry is marked applied in a state with the log it was read from. -/
theorem Moves.markApplied {n' : RaftNode} {e : LogEntry} (hc : sc.control) (h : SameLog n n')
    (he : n.storage.entryAt (n.lastApplied + 1) = some e)
    (hle : n.lastApplied + 1 ≤ n.softState.commitIndex) :
    Moves sc n' (n'.markApplied (n.lastApplied + 1) e.payload.length) := by
  rw [← h.applied] at hle ⊢
  refine .of_effect fun _ => .applied e ?_ ?_ hc
  · simp only [Storage.entryAt, h.entries, h.applied]
    exact he
  · rw [h.commit]
    exact hle

theorem applyEntry_emits {e : LogEntry} (hc : sc.control)
    (hch : ∀ entry, ConfigChangeEntry.decode e.payload = some entry → sc.change entry)
    (hd : ∀ entry, ConfigChangeEntry.decode e.payload = some entry →
      n.removedBy entry = true → sc.demotes (n.reconfigured entry).core)
    (he : n.storage.entryAt (n.lastApplied + 1) = some e)
    (hle : n.lastApplied + 1 ≤ n.softState.commitIndex) :
    Emits (Moves sc) (applyEntry e) n
      (fun _ n' => n'.softState.commitIndex = n.softState.commitIndex) := by
  unfold applyEntry
  refine .read ((applyIfConfigChange_emits hc hch hd).seq ?_)
  intro consumed n' _ hs
  split
  · exact .update (.markApplied hc hs he hle) hs.commit
  · split
    · exact .fail
    · exact .update (.markApplied hc hs he hle) hs.commit

theorem applyNext_emits (hc : sc.control)
    (hch : ∀ e entry, n.storage.entryAt (n.lastApplied + 1) = some e →
      ConfigChangeEntry.decode e.payload = some entry → sc.change entry)
    (hd : ∀ e entry, n.storage.entryAt (n.lastApplied + 1) = some e →
      ConfigChangeEntry.decode e.payload = some entry →
      n.removedBy entry = true → sc.demotes (n.reconfigured entry).core)
    (hle : n.lastApplied + 1 ≤ n.softState.commitIndex) :
    Emits (Moves sc) applyNext n
      (fun _ n' => n'.softState.commitIndex = n.softState.commitIndex) := by
  unfold applyNext
  refine .read ?_
  split
  · exact .ret rfl
  · rename_i e he
    refine (applyEntry_emits hc (fun entry => hch e entry he) (fun entry => hd e entry he) he hle).seq ?_
    intro _ _ _ h
    exact .ret h

theorem restoreStateMachineFromSnapshot_emits (hr : sc.restores) (hf : sc.fresh n.core) :
    Emits (Moves sc) restoreStateMachineFromSnapshot n (fun _ _ => True) := by
  unfold restoreStateMachineFromSnapshot
  refine .read ?_
  split
  · exact .ret trivial
  · rename_i m hm
    split
    · exact .ret trivial
    · rename_i hlt
      split
      · exact .fail
      · have hm : Moves sc n (n.restoredFrom m) :=
          .log (.restored m hr ⟨n, hf, .refl n⟩ hm (by omega))
        have hq : Moves sc (n.restoredFrom m) (n.restoredFrom m).settleCompactionDebt :=
          .quiet rfl
        exact .putSeq (trans_of (Moves sc) hm hq) (.ret trivial)

theorem maybeCompact_emits (hns : ¬ sc.strict ∧ sc.compacts) :
    Emits (Moves sc) maybeCompact n (fun _ _ => True) := by
  unfold maybeCompact
  refine .read ?_
  split
  · exact .ret trivial
  · split
    · exact .ret trivial
    · split
      · exact .ret trivial
      · rename_i happlied
        split
        · exact .put (.quiet rfl) trivial
        · rename_i hsnap
          unfold compactWithHorizon
          refine .read ((termAt_emits _).seq ?_)
          rintro term n' - ⟨⟨a, l, rfl⟩, hterm⟩
          refine .read ?_
          split
          · exact .fail
          · rename_i bytes _
            refine .put (.log (.compacted term bytes hns happlied ?_ hterm))
              trivial
            intro m hm
            have hm' : n.storage.loadSnapshotMeta = some m := hm
            simpa [hm'] using hsnap

/-! ## Demotion -/

theorem abdicateIfIsolated_emits
    (hd : n.isLeader = true → n.checkQuorumActive = false → sc.demotes n.core) :
    Emits (Moves sc) abdicateIfIsolated n (fun _ _ => True) := by
  unfold abdicateIfIsolated
  refine .read ?_
  split
  · rename_i hl
    refine .putSeq (.quiet rfl) ?_
    split
    · exact .ret trivial
    · rename_i hq
      exact (stepDown_self_emits (n := n.setScratchPeers n.recentVoters)
        (hd hl (Bool.eq_false_iff.mpr hq)) hl).trivial
  · exact .ret trivial

theorem degradeOnResourceExhaustion_emits :
    Emits (Moves sc) degradeOnResourceExhaustion n (fun _ _ => True) := by
  refine .update ?_ trivial
  split
  · exact .of_effect fun _ => .demoted
  · exact refl_of (Moves sc) n

end ArbitroRaft
