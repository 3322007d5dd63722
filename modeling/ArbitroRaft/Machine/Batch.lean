import ArbitroRaft.Effect.Roll
import ArbitroRaft.Machine.Calls
import ArbitroRaft.Machine.Commit
import ArbitroRaft.Machine.Tip

/-!
# Frames that leave a batch alone

While a proposal waits for acknowledgements, and until a configuration change is
applied, the node handles arbitrary frames.  An `AppendEntries` of another
leader may cut the batch off or take its indices, and a completed snapshot may
cover it.  `RaftNode.Spares` is the condition on the state before a frame under
which none of this happens.

## Main results

* `Storage.Sparable`: what a property of the log has to survive to be kept by
  every frame that leaves the batch alone.
* `Action.spares`: an action that neither restores nor compacts, and whose frame
  spares the batch, keeps such a property.
* `startPropose_opened`: what a call that opened a gather knows.
-/

namespace ArbitroRaft

open Library

/-- Storage returns every entry of the batch under its index. -/
def Storage.Carries (s : Storage) (batch : List LogEntry) : Prop :=
  ∀ b ∈ batch, s.entryAt b.index = some b

/-! ## The condition -/

/-- Storing what the message brings neither cuts the batch nor takes one of its
indices. -/
def RaftNode.StoresBeside (n : RaftNode) (batch : List LogEntry) (msg : AppendEntries)
    (entries : List LogEntry) : Prop :=
  match n.scan msg entries with
  | .missing rest => ∀ e ∈ rest, ∀ b ∈ batch, e.index ≠ b.index
  | .conflict rest => ∀ e ∈ rest, ∀ b ∈ batch, b.index < e.index
  | .matched | .malformed => True

/-- An accepted message stores beside the batch; a completed snapshot ends
before the batch and agrees with the log. -/
def RaftNode.Spares (n : RaftNode) (batch : List LogEntry) (f : InboundRaftMessage) : Prop :=
  match f.message with
  | .appendEntries msg entries | .appendEntriesSeeded msg entries =>
    n.hardState.currentTerm ≤ msg.term → n.prevOk msg = true →
      n.StoresBeside batch msg entries
  | .installSnapshot msg chunk =>
    n.Completes f.sender msg chunk → n.boundaryConflict msg.snapshotMeta = false ∧
      ∀ b ∈ batch, satAdd msg.lastIncludedIndex 1 ≤ b.index
  | _ => True

/-! ## Storage -/

/-- `K` depends on the log, and survives what leaves the batch alone. -/
structure Storage.Sparable (batch : List LogEntry) (K : Storage → Prop) : Prop where
  of_entries : ∀ s s', s'.entries = s.entries → K s → K s'
  append : ∀ s rest, (∀ e ∈ rest, ∀ b ∈ batch, e.index ≠ b.index) → K s → K (s.appendEntries rest)
  truncateSuffix : ∀ s i, (∀ b ∈ batch, b.index < i) → K s → K (s.truncateSuffix i)
  truncateBefore : ∀ s i, (∀ b ∈ batch, i ≤ b.index) → K s → K (s.truncateBefore i)

/-- A log goes on carrying what is spared. -/
theorem Storage.sparable_carries (batch : List LogEntry) :
    Storage.Sparable batch fun s => s.Carries batch where
  of_entries s s' he h := by
    intro b hb
    rw [Storage.entryAt, he]
    exact h b hb
  append s rest hr h := by
    intro b hb
    have hnone : rest.reverse.find? (fun e => decide (e.index = b.index)) = none := by
      rw [List.find?_eq_none]
      intro e he
      simpa using hr e (List.mem_reverse.mp he) b hb
    change (s.entries ++ rest).reverse.find? _ = some b
    rw [List.reverse_append, List.find?_append, hnone, Option.none_or]
    exact h b hb
  truncateSuffix s i hi h := by
    intro b hb
    refine (s.entryAt_filter fun e _ hidx => decide_eq_true ?_).trans (h b hb)
    rw [hidx]
    exact hi b hb
  truncateBefore s i hi h := by
    intro b hb
    refine (s.entryAt_filter fun e _ hidx => decide_eq_true ?_).trans (h b hb)
    rw [hidx]
    exact hi b hb

namespace Storage.Sparable

variable {batch : List LogEntry} {K : Storage → Prop} {n : RaftNode}
  (hK : Storage.Sparable batch K)

include hK

theorem cutAt {rest : List LogEntry} (h : K n.storage)
    (hr : ∀ e ∈ rest, ∀ b ∈ batch, b.index < e.index) : K (n.cutAt rest).storage := by
  cases rest with
  | nil => exact h
  | cons e rest => exact hK.truncateSuffix _ _ (hr e List.mem_cons_self) h

/-- A snapshot that ends before the batch. -/
theorem anchorOnSnapshot {m : SnapshotMeta} (h : K n.storage) (hc : n.boundaryConflict m = false)
    (hm : ∀ b ∈ batch, satAdd m.lastIncludedIndex 1 ≤ b.index) :
    K (n.anchorOnSnapshot m).storage := by
  unfold RaftNode.anchorOnSnapshot
  dsimp only
  rw [if_neg (by rw [hc]; exact Bool.false_ne_true)]
  exact hK.truncateBefore _ _ hm h

theorem spliced {msg : AppendEntries} {entries : List LogEntry} (h : K n.storage)
    (hs : n.StoresBeside batch msg entries) : K (n.spliced msg entries).storage := by
  unfold RaftNode.StoresBeside at hs
  unfold RaftNode.spliced
  cases hscan : n.scan msg entries with
  | malformed => exact h
  | matched => exact h
  | missing rest =>
    rw [hscan] at hs
    exact hK.append _ _ hs h
  | conflict rest =>
    rw [hscan] at hs
    exact hK.append _ _ (fun e he b hb => (hs e he b hb).ne') (hK.cutAt h hs)

end Storage.Sparable

/-! ## Effects -/

section Sparable

variable {n n' : RaftNode} {batch : List LogEntry} {K : Storage → Prop}
  (hK : Storage.Sparable batch K)

include hK

theorem LogEffect.spares {sc : Scope} (he : LogEffect sc n n') (h : K n.storage)
    (ha : sc.appends → ∀ s rest, K s → K (s.appendEntries rest)) (hr : ¬ sc.restores)
    (hc : ¬ sc.compacts)
    (hk : ∀ sender msg entries, Receives sc n sender msg entries →
      n.StoresBeside batch msg entries)
    (hi : ∀ sender msg chunk, sc.rx ⟨sender, .installSnapshot msg chunk⟩ →
      sc.completes sender msg chunk → Arrived sc n →
      n.boundaryConflict msg.snapshotMeta = false ∧
        ∀ b ∈ batch, satAdd msg.lastIncludedIndex 1 ≤ b.index) : K n'.storage := by
  cases he with
  | cut sender msg entries rest hrecv hscan =>
    have hs := hk sender msg entries hrecv
    unfold RaftNode.StoresBeside at hs
    rw [hscan] at hs
    exact hK.cutAt h hs
  | spliced sender msg entries hrecv => exact hK.spliced h (hk sender msg entries hrecv)
  | accepted sender msg entries reply hrecv =>
    exact hK.of_entries _ _ (SameStore.accepted n msg entries reply sender _).entries
      (hK.spliced h (hk sender msg entries hrecv))
  | led payloads happ => exact ha happ _ _ h
  | learned index t => exact h
  | installed sender msg chunk bytes _ hrx _ hf _ hcomp =>
    obtain ⟨m, hfresh, hsame, -⟩ := hf
    obtain ⟨hconf, hbatch⟩ := hi sender msg chunk hrx hcomp ⟨m, hfresh, hsame⟩
    refine hK.anchorOnSnapshot (hK.of_entries _ _ ?_ h) ?_ hbatch
    · rw [storage_commitSnapshot]
      rfl
    · rw [boundaryConflict_congr (n := n) (by rw [storage_commitSnapshot]; rfl)]
      exact hconf
  | restored m hres => exact absurd hres hr
  | compacted term bytes hcomp => exact absurd hcomp.2 hc

/-- An action that neither restores nor compacts, and whose frame spares the batch. -/
theorem Action.spares {a : Action} (h : K n.storage)
    (ha : a.appends = true → ∀ s rest, K s → K (s.appendEntries rest)) (hr : a ≠ .restore)
    (hc : a ≠ .compact) (hf : ∀ f, a.frame = some f → n.Spares batch f) : K (a.run n).storage := by
  refine Action.preserves (P := fun m => K m.storage) h ?_
  intro m m' hm he
  rcases he.store with hs | hl
  · exact hK.of_entries _ _ hs.entries hm
  refine hl.spares hK hm ha hr hc ?_ ?_
  · intro sender msg entries hrecv
    obtain ⟨hlog, hterm⟩ := hrecv.arrived
    have hprev : n.prevOk msg = true := hlog.prevOk msg ▸ hrecv.prevOk
    unfold RaftNode.StoresBeside
    rw [hlog.scan]
    rcases hrecv.rx with hrx | hrx
    · exact hf _ hrx hterm hprev
    · exact hf _ hrx hterm hprev
  · intro sender msg chunk hrx hcomp harr
    rw [boundaryConflict_congr harr.of_scope.entries]
    exact hf _ hrx hcomp

end Sparable

/-! ## The call -/

/-- A batch that was just appended is found. -/
theorem Storage.carries_append (s : Storage) {b : Nat} {batch : List LogEntry}
    (hc : Contiguous LogEntry.index b batch) : (s.appendEntries batch).Carries batch := by
  intro e he
  have hfind : batch.reverse.find? (fun x => decide (x.index = e.index)) = some e := by
    rw [hc.find?_reverse, if_pos (hc.bounds he).1]
    obtain ⟨i, hi⟩ := List.getElem?_of_mem he
    have hidx := hc.idx_eq hi
    rw [show e.index - (b + 1) = i by omega]
    exact hi
  change (s.entries ++ batch).reverse.find? _ = some e
  rw [List.reverse_append, List.find?_append, hfind, Option.some_or]

/-- What an opened gather knows, and how its call began. -/
theorem startPropose_opened {payloads : List EntryPayload} {n n' : RaftNode} {r : Option Gather}
    (h : startPropose payloads n = .ok r n') :
    (r = none → payloads = []) ∧
      ∀ g, r = some g → Gathering n' g ∧ Opened n n' payloads g := by
  have hemits : Emits (Moves ((Action.startPropose payloads).scope n False))
      (startPropose payloads) n (fun r n' => (r = none → payloads = []) ∧
        ∀ g, r = some g → Gathering n' g ∧ Opened n n' payloads g) :=
    startPropose_emits payloads rfl (.inl rfl) rfl fun _ _ => rfl
  exact (hemits.of_ok h).2

/-- Node 1 of three, elected in term 1 with the vote of node 2. -/
def trioLeader : RaftNode :=
  (Action.assumeLeadership 1).run
    ((Action.countVotes 1 [⟨2, .requestVoteResp ⟨1, true⟩⟩] [1]).run
      (Action.startElection.run (trioNode 1 (.empty false))))

end ArbitroRaft
