import ArbitroRaft.Effect.Frame
import ArbitroRaft.Machine.Run

/-!
# The commit index within one process lifetime

The commit index, the value published to observers and the applied index only
grow, and nothing is applied before it is committed: `commitIndex_monotone`.

This rests on the tip cache, because a follower clamps the leader's commit index
to it under the sole guard that the leader's is higher.  As long as the cache
covers what is committed (`CommitInv.covered`) the clamp takes nothing back.
`Action.KeepsCommit` names what can leave the cache behind: a snapshot that ends
below the commit index and is restored or installed, a batch that ends there,
and a commit decision of the node's own that is ahead of its cache.
-/

namespace ArbitroRaft

open Library

/-! ## The condition -/

/-- A batch that goes into the log ends at or behind the commit index; one that is
refused after the cut leaves a log that reaches it. -/
def RaftNode.ReachesCommit (n : RaftNode) (seeded : Bool) (msg : AppendEntries)
    (entries : List LogEntry) : Prop :=
  match n.scan msg entries with
  | .missing rest => ∀ e ∈ rest.getLast?, n.softState.commitIndex ≤ e.index
  | .conflict rest => (∀ e ∈ rest.getLast?, n.softState.commitIndex ≤ e.index) ∧
      ((n.cutAt rest).Refuses rest ∨ seeded = true ∧ n.storage.seeded = false →
        n.softState.commitIndex = 0 ∨ ∀ e ∈ rest.head?, ∃ x ∈ n.storage.entries,
          n.softState.commitIndex ≤ x.index ∧ x.index < e.index)
  | .matched | .malformed => True

/-- What the frame stores or installs reaches the commit index. -/
def RaftNode.CommitSafe (n : RaftNode) (f : InboundRaftMessage) : Prop :=
  match f.message with
  | .appendEntries msg entries =>
    n.hardState.currentTerm ≤ msg.term → n.prevOk msg = true →
      n.ReachesCommit false msg entries
  | .appendEntriesSeeded msg entries =>
    n.hardState.currentTerm ≤ msg.term → n.prevOk msg = true →
      n.ReachesCommit true msg entries
  | .installSnapshot msg chunk =>
    n.Completes f.sender msg chunk → n.softState.commitIndex ≤ msg.lastIncludedIndex
  | _ => True

/-- The action handles such a frame, restores a snapshot that reaches the commit
index, and decides to commit within its tip cache only. -/
structure Action.KeepsCommit (a : Action) (n : RaftNode) : Prop where
  frame : ∀ f, a.frame = some f → n.CommitSafe f
  restore : a = .restore → ∀ m, n.storage.loadSnapshotMeta = some m →
    n.lastApplied < m.lastIncludedIndex → n.softState.commitIndex ≤ m.lastIncludedIndex
  decision : ∀ q, a.Decides n q → q ≤ n.cachedLastLog.1

/-- The process runs on with such an action. -/
def Event.KeepsCommit (n : RaftNode) : Event → Prop
  | .act env a => a.KeepsCommit (n.within env)
  | .restart _ _ => False

/-! ## One effect -/

structure CommitInv (n : RaftNode) : Prop where
  published : n.commitIndexPub = n.softState.commitIndex
  applied : n.lastApplied ≤ n.softState.commitIndex
  covered : n.softState.commitIndex ≤ n.cachedLastLog.1

/-- Neither index goes back. -/
structure CommitStep (n n' : RaftNode) : Prop where
  commit : n.softState.commitIndex ≤ n'.softState.commitIndex
  applied : n.lastApplied ≤ n'.lastApplied
  inv : CommitInv n'

variable {n n' : RaftNode}

theorem CommitInv.refl (h : CommitInv n) : CommitStep n n := ⟨le_rfl, le_rfl, h⟩

theorem CommitStep.trans {n n' n'' : RaftNode} (h : CommitStep n n')
    (h' : CommitStep n' n'') : CommitStep n n'' :=
  ⟨h.commit.trans h'.commit, h.applied.trans h'.applied, h'.inv⟩

/-- The three indices are the same. -/
structure SameCommit (n n' : RaftNode) : Prop where
  commit : n'.softState.commitIndex = n.softState.commitIndex
  pub : n'.commitIndexPub = n.commitIndexPub
  applied : n'.lastApplied = n.lastApplied

/-- Behind a snapshot that reaches the commit index both are at its end. -/
theorem CommitStep.anchored {m : SnapshotMeta} (hm : n.softState.commitIndex ≤ m.lastIncludedIndex)
    (hc : n'.softState.commitIndex = m.lastIncludedIndex)
    (hp : n'.commitIndexPub = m.lastIncludedIndex) (ht : n'.cachedLastLog.1 = m.lastIncludedIndex)
    (ha : n.lastApplied ≤ n'.lastApplied) (hle : n'.lastApplied ≤ m.lastIncludedIndex) :
    CommitStep n n' :=
  ⟨hm.trans hc.ge, ha, hp.trans hc.symm, hle.trans hc.ge, (hc.trans ht.symm).le⟩

namespace CommitInv

variable {n n' : RaftNode}

/-- The indices stay and the tip cache still covers them. -/
theorem same (h : CommitInv n) (hs : SameCommit n n')
    (hc : n.softState.commitIndex ≤ n'.cachedLastLog.1) : CommitStep n n' := by
  refine ⟨hs.commit.ge, hs.applied.ge, ?_, ?_, ?_⟩
  · rw [hs.pub, hs.commit]
    exact h.published
  · rw [hs.applied, hs.commit]
    exact h.applied
  · rw [hs.commit]
    exact hc

theorem sameLog (h : CommitInv n) (hs : SameLog n n') : CommitStep n n' :=
  h.same ⟨hs.commit, hs.pub, hs.applied⟩ (hs.cached ▸ h.covered)

/-- Raising the commit index within the tip cache. -/
theorem raise (h : CommitInv n) {q : Nat} (hq : n.softState.commitIndex ≤ q)
    (htip : q ≤ n.cachedLastLog.1) : CommitStep n (n.setCommitIndex q) :=
  ⟨hq, le_rfl, rfl, h.applied.trans hq, htip⟩

variable {m : SnapshotMeta}

theorem commitSnapshot (h : CommitInv n) (hm : n.softState.commitIndex ≤ m.lastIncludedIndex) :
    (n.commitSnapshot m).softState.commitIndex = m.lastIncludedIndex ∧
      (n.commitSnapshot m).commitIndexPub = m.lastIncludedIndex ∧
      (n.commitSnapshot m).lastApplied = n.lastApplied := by
  unfold RaftNode.commitSnapshot
  split
  · exact ⟨rfl, rfl, rfl⟩
  · have heq : n.softState.commitIndex = m.lastIncludedIndex := by omega
    exact ⟨heq, h.published.trans heq, rfl⟩

theorem completeSnapshot (h : CommitInv n) (hm : n.softState.commitIndex ≤ m.lastIncludedIndex)
    (bytes : List UInt8) : CommitStep n (n.completeSnapshot m bytes) := by
  have hsaved : CommitInv { n with storage := n.storage.saveSnapshot m bytes } :=
    ⟨h.published, h.applied, h.covered⟩
  obtain ⟨hc, hp, ha⟩ := hsaved.commitSnapshot hm
  exact .anchored hm hc hp rfl ha.ge (ha.trans_le (h.applied.trans hm))

theorem restoredFrom (h : CommitInv n) (hm : n.softState.commitIndex ≤ m.lastIncludedIndex)
    (hlt : n.lastApplied < m.lastIncludedIndex) : CommitStep n (n.restoredFrom m) := by
  obtain ⟨hc, hp, -⟩ := h.commitSnapshot hm
  exact .anchored hm hc hp rfl hlt.le le_rfl

/-- A batch whose end reaches the commit index. -/
theorem stored (h : CommitInv n) {rest : List LogEntry}
    (hr : ∀ e ∈ rest.getLast?, n.softState.commitIndex ≤ e.index)
    (hc : rest = [] → n.softState.commitIndex ≤ n'.cachedLastLog.1)
    (hs : SameCommit n n') : CommitStep n (n'.stored rest) := by
  refine h.same ⟨hs.commit, hs.pub, hs.applied⟩ ?_
  cases hl : rest.getLast? with
  | none =>
    rw [RaftNode.tip_stored, hl]
    exact hc (List.getLast?_eq_none_iff.mp hl)
  | some e =>
    rw [RaftNode.tip_stored_of_last hl]
    exact hr e hl

theorem cut (h : CommitInv n) {rest : List LogEntry}
    (hr : n.softState.commitIndex = 0 ∨ ∀ e ∈ rest.head?, ∃ x ∈ n.storage.entries,
      n.softState.commitIndex ≤ x.index ∧ x.index < e.index) : CommitStep n (n.cutAt rest) := by
  cases rest with
  | nil => exact h.refl
  | cons e rest =>
    refine h.same ⟨rfl, rfl, rfl⟩ ?_
    rcases hr with hr | hr
    · rw [hr]
      exact Nat.zero_le _
    · obtain ⟨x, hx, hle, hlt⟩ := hr e rfl
      exact hle.trans (Storage.le_highest (List.mem_filter.mpr ⟨hx, decide_eq_true hlt⟩))

theorem spliced (h : CommitInv n) {seeded : Bool} {msg : AppendEntries} {entries : List LogEntry}
    (hr : n.ReachesCommit seeded msg entries) : CommitStep n (n.spliced msg entries) := by
  unfold RaftNode.ReachesCommit at hr
  unfold RaftNode.spliced
  cases hs : n.scan msg entries with
  | malformed => exact h.refl
  | matched => exact h.refl
  | missing rest =>
    rw [hs] at hr
    exact h.stored hr (fun _ => h.covered) ⟨rfl, rfl, rfl⟩
  | conflict rest =>
    rw [hs] at hr
    refine h.stored hr.1 ?_ (by cases rest <;> exact ⟨rfl, rfl, rfl⟩)
    rintro rfl
    exact h.covered

/-- The follower's commit rule stays within the tip cache. -/
theorem adopted (h : CommitInv n) (leaderCommit : Nat) : CommitStep n (n.adopted leaderCommit) := by
  unfold RaftNode.adopted
  split
  · rename_i hlt
    exact h.raise (le_min hlt.le h.covered) (min_le_right _ _)
  · exact h.refl

/-- A leader numbers its entries behind its tip cache. -/
theorem proposed (h : CommitInv n) (payloads : List EntryPayload) :
    CommitStep n (n.stored (n.proposedBatch payloads)) := by
  refine h.stored (fun e he => ?_) (fun _ => h.covered) ⟨rfl, rfl, rfl⟩
  exact (h.covered.trans (le_satAdd _ 1)).trans
    (le_index_of_mem_buildBatch (List.mem_of_getLast? he))

end CommitInv

theorem LogEffect.commitStep {sc : Scope} (he : LogEffect sc n n') (h : CommitInv n)
    (hk : ∀ sender msg entries, Receives sc n sender msg entries →
      ∃ seeded, n.ReachesCommit seeded msg entries ∧
        (sc.rx ⟨sender, .appendEntriesSeeded msg entries⟩ → seeded = true))
    (hi : ∀ sender msg chunk, sc.rx ⟨sender, .installSnapshot msg chunk⟩ →
      sc.completes sender msg chunk → Arrived sc n →
      n.softState.commitIndex ≤ msg.lastIncludedIndex)
    (hr : ∀ m, sc.restores → Arrived sc n → n.storage.loadSnapshotMeta = some m →
      n.lastApplied < m.lastIncludedIndex → n.softState.commitIndex ≤ m.lastIncludedIndex) :
    CommitStep n n' := by
  cases he with
  | cut sender msg entries rest hrecv hscan href =>
    obtain ⟨seeded, hreach, hseed⟩ := hk sender msg entries hrecv
    unfold RaftNode.ReachesCommit at hreach
    rw [hscan] at hreach
    exact h.cut (hreach.2 (href.imp_right fun hs => ⟨hseed hs.2, hs.1⟩))
  | spliced sender msg entries hrecv =>
    obtain ⟨seeded, hreach, -⟩ := hk sender msg entries hrecv
    exact h.spliced hreach
  | accepted sender msg entries reply hrecv hscan =>
    obtain ⟨seeded, hreach, -⟩ := hk sender msg entries hrecv
    have hspliced := h.spliced hreach
    have htook := hspliced.trans (hspliced.inv.sameLog (.tookOver n msg entries))
    have hadopt := htook.trans (htook.inv.adopted msg.leaderCommit)
    exact hadopt.trans (hadopt.inv.sameLog (.replied _ _ _ _))
  | led payloads => exact h.proposed payloads
  | learned index t => exact h.same ⟨rfl, rfl, rfl⟩ h.covered
  | installed sender msg chunk bytes _ hrx _ hf _ hcomp =>
    obtain ⟨m, hfresh, hsame, -⟩ := hf
    exact h.completeSnapshot (hi sender msg chunk hrx hcomp ⟨m, hfresh, hsame⟩) bytes
  | restored m hres harr hm hlt => exact h.restoredFrom (hr m hres harr hm hlt) hlt
  | compacted term bytes => exact h.same ⟨rfl, rfl, rfl⟩ h.covered

/-! ## Runs -/

theorem SameLog.reachesCommit {n m : RaftNode} (h : SameLog n m) (henv : m.env = n.env)
    (hseed : m.storage.seeded = n.storage.seeded) {seeded : Bool} {msg : AppendEntries}
    {entries : List LogEntry} (hr : n.ReachesCommit seeded msg entries) :
    m.ReachesCommit seeded msg entries := by
  unfold RaftNode.ReachesCommit at hr ⊢
  rw [h.scan]
  cases hs : n.scan msg entries with
  | malformed => exact trivial
  | matched => exact trivial
  | missing rest =>
    rw [hs] at hr
    dsimp only at hr ⊢
    rw [h.commit]
    exact hr
  | conflict rest =>
    rw [hs] at hr
    dsimp only at hr ⊢
    rw [h.commit, h.entries, hseed]
    exact ⟨hr.1, fun href => hr.2 (href.imp_left (h.toSameStore.refuses_cutAt henv))⟩

theorem Action.commitStep {a : Action} (h : CommitInv n) (hok : a.KeepsCommit n) :
    CommitStep n (a.run n) := by
  have hall : CommitStep n (a.run n) ∧ (a.run n).env = n.env ∧
      (a.run n).storage.seeded = n.storage.seeded := by
    refine Action.preserves
      (P := fun m => CommitStep n m ∧ m.env = n.env ∧ m.storage.seeded = n.storage.seeded)
      ⟨h.refl, rfl, rfl⟩ ?_
    rintro m m' ⟨hm, henv, hseed⟩ he
    obtain ⟨henv', hseed'⟩ := he.wire.surroundings
    refine ⟨hm.trans ?_, henv'.trans henv, hseed'.trans hseed⟩
    have hinv := hm.inv
    cases he with
    | quiet _ hq => exact hinv.sameLog (.of_core hq)
    | hard _ hh => exact hinv.sameLog hh.sameLog
    | committed q hlt _ hdec =>
      have hcached : m.cachedLastLog = n.cachedLastLog := hdec.1
      exact hinv.raise hlt.le (hcached ▸ hok.decision q hdec.2)
    | applied e he hle => exact ⟨le_rfl, Nat.le_succ _, hinv.published, hle, hinv.covered⟩
    | reconfigured entry =>
      exact hinv.sameLog ((SameLog.adoptConfig m entry).trans (SameLog.settleConfig _))
    | log _ hl =>
      refine hl.commitStep hinv ?_ ?_ ?_
      · intro sender msg entries hr
        obtain ⟨hlog, hterm⟩ := hr.arrived
        have hprev : n.prevOk msg = true := hlog.prevOk msg ▸ hr.prevOk
        exact hr.by_kind (P := fun seeded => m.ReachesCommit seeded msg entries)
          (fun hrx => hlog.reachesCommit henv hseed (hok.frame _ hrx hterm hprev))
          (fun hrx => hlog.reachesCommit henv hseed (hok.frame _ hrx hterm hprev))
      · intro sender msg chunk hrx hcomp harr
        rw [harr.of_scope.commit]
        exact hok.frame _ hrx hcomp
      · intro snap hres harr hsnap hlt
        have hlog := harr.of_scope
        rw [Storage.loadSnapshotMeta, hlog.snapshot] at hsnap
        rw [hlog.applied] at hlt
        rw [hlog.commit]
        exact hok.restore hres snap hsnap hlt
    | _ => exact hinv.same ⟨rfl, rfl, rfl⟩ hinv.covered
  exact hall.1

theorem NodeRun.commitStep (h : NodeRun Event.KeepsCommit n n') (hn : CommitInv n) :
    CommitStep n n' := by
  refine NodeRun.invariant (P := CommitStep n) h hn.refl ?_
  intro m e m' hm hok hnext
  cases e with
  | act env a =>
    cases hnext
    have hin : CommitInv (m.within env) := ⟨hm.inv.published, hm.inv.applied, hm.inv.covered⟩
    have hstep := Action.commitStep hin hok
    exact hm.trans ⟨hstep.commit, hstep.applied, hstep.inv⟩
  | restart env config => exact hok.elim

/-- While a process runs and nothing leaves its tip cache behind what it committed,
the commit index, its published value and the applied index never decrease, and
everything applied is committed. -/
theorem commitIndex_monotone {n₀ n n' : RaftNode} (h₀ : Booted n₀)
    (h : NodeRun Event.KeepsCommit n₀ n) (h' : NodeRun Event.KeepsCommit n n') :
    n.softState.commitIndex ≤ n'.softState.commitIndex ∧
      n.commitIndexPub ≤ n'.commitIndexPub ∧ n.lastApplied ≤ n'.lastApplied ∧
      n'.lastApplied ≤ n'.softState.commitIndex := by
  have hinv : CommitInv n₀ := by
    obtain ⟨config, storage, env, rfl⟩ := h₀.eq
    exact ⟨rfl, le_rfl, Nat.zero_le _⟩
  have hn := (h.commitStep hinv).inv
  have hstep := h'.commitStep hn
  refine ⟨hstep.commit, ?_, hstep.applied, hstep.inv.applied⟩
  rw [hn.published, hstep.inv.published]
  exact hstep.commit

/-- Node 1 stores an entry that is committed already and applies it. -/
theorem commitIndex_monotone_store_then_apply :
    let n := (Action.inbound ⟨2, .appendEntries ⟨1, 2, 0, 0, 1, 0⟩ [⟨1, 1, [7]⟩]⟩).run
      (trioNode 1 (.empty false))
    let n' := Action.applyNext.run n
    n'.softState.commitIndex = 1 ∧ n'.lastApplied = 1 ∧
      n.softState.commitIndex ≤ n'.softState.commitIndex := by
  refine ⟨rfl, rfl, ?_⟩
  have hstore : NodeRun Event.KeepsCommit (trioNode 1 (.empty false)) _ :=
    NodeRun.act (Env.calm 0)
      (.inbound ⟨2, .appendEntries ⟨1, 2, 0, 0, 1, 0⟩ [⟨1, 1, [7]⟩]⟩) (by
        refine ⟨?_, by rintro ⟨⟩, fun _ h => h.elim⟩
        rintro f ⟨⟩ - - e -
        exact Nat.zero_le _)
  have happly : NodeRun Event.KeepsCommit
      ((Action.inbound ⟨2, .appendEntries ⟨1, 2, 0, 0, 1, 0⟩ [⟨1, 1, [7]⟩]⟩).run
        (trioNode 1 (.empty false))) _ :=
    NodeRun.act (Env.calm 0) .applyNext ⟨by rintro f ⟨⟩, by rintro ⟨⟩, fun _ h => h.elim⟩
  exact (commitIndex_monotone (booted_trioNode_one _) hstore happly).1

/-- A heartbeat of the leader of term 1 at index 25 with commit index `c`. -/
def heartbeatAt25 (c : Nat) : Event :=
  .act (Env.calm 0) (.inbound ⟨2, .appendEntries ⟨1, 2, 25, 1, c, 0⟩ []⟩)

/-- A restarted node learns that index 25 is committed, restores its snapshot
and applies the rest. -/
def catchUpTo25 : List Event :=
  heartbeatAt25 25 :: .act (Env.calm 0) .restore ::
    List.replicate 5 (.act (Env.calm 0) .applyNext)

/-- The restore moved the tip cache back to the snapshot, so the next heartbeat
takes the commit index from 25 back to 20, below the applied index. -/
theorem commitIndex_lowered_by_heartbeat :
    Booted (trioNode 1 retainedTail) ∧
      (Event.nextAll catchUpTo25 (trioNode 1 retainedTail)).map
        (fun n => (n.softState.commitIndex, n.lastApplied)) = some (25, 25) ∧
      (Event.nextAll (catchUpTo25 ++ [heartbeatAt25 26]) (trioNode 1 retainedTail)).map
        (fun n => (n.softState.commitIndex, n.lastApplied)) = some (20, 25) :=
  ⟨booted_trioNode_one _, rfl, rfl⟩

end ArbitroRaft
