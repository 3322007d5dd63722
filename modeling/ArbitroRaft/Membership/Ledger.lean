import ArbitroRaft.Machine.Anchored
import ArbitroRaft.Membership.Changes

/-!
# The configuration a history leads to

A `Roll` is what a configuration change acts on: voters, learners and the joint
lists.  The roll of a node ought to be its bootstrap roll with every change of
its history adopted in order, the history being what a snapshot covers followed
by the log.

Two kinds of change do not count when they are appended: the final entry of a
voter change on the leader that proposed it counts when it is applied, so that
the voters on their way out still hear of its commit.  A `Ledger` keeps which
ones still wait, next to the bootstrap roll and the changes under the snapshot.
-/

namespace ArbitroRaft

open Library

structure Roll where
  peers : List PeerId
  learners : List PeerId
  joint : Option (List PeerId × List PeerId)
deriving DecidableEq, Repr

def RaftNode.roll (n : RaftNode) : Roll :=
  { peers := n.config.peers, learners := n.config.learners, joint := n.jointPeers }

namespace Roll

/-- Adopt one change. -/
def adopt (r : Roll) (c : ConfigChangeEntry) : Roll :=
  match c.phase with
  | .joint =>
    let peers := RaftNode.mergePeers c.oldPeers c.newPeers
    { peers := peers
      learners := r.learners.filter (fun p => decide (p ∉ peers))
      joint := some (c.oldPeers, c.newPeers) }
  | .final =>
    { peers := c.newPeers
      learners := r.learners.filter (fun p => decide (p ∉ c.newPeers))
      joint := none }
  | .addLearner =>
    { r with
      learners := c.newPeers.foldl
        (fun ls p => if p ∉ r.peers ∧ p ∉ ls then ls ++ [p] else ls) r.learners }
  | .removeLearner =>
    { r with learners := r.learners.filter (fun p => decide (p ∉ c.newPeers)) }

def adoptAll (r : Roll) (cs : List ConfigChangeEntry) : Roll := cs.foldl adopt r

@[simp] theorem adoptAll_nil (r : Roll) : r.adoptAll [] = r := rfl

theorem adoptAll_append (r : Roll) (cs ds : List ConfigChangeEntry) :
    r.adoptAll (cs ++ ds) = (r.adoptAll cs).adoptAll ds := List.foldl_append

@[simp] theorem adoptAll_singleton (r : Roll) (c : ConfigChangeEntry) :
    r.adoptAll [c] = r.adopt c := rfl

theorem subset_foldl_addLearner {peers : List PeerId} (new ls : List PeerId) :
    ls ⊆ new.foldl (fun ls p => if p ∉ peers ∧ p ∉ ls then ls ++ [p] else ls) ls := by
  induction new generalizing ls with
  | nil => exact List.Subset.refl ls
  | cons x xs ih =>
    rw [List.foldl_cons]
    refine List.Subset.trans ?_ (ih _)
    split
    · exact List.subset_append_left ls [x]
    · exact List.Subset.refl ls

theorem mem_foldl_addLearner {peers : List PeerId} (new ls : List PeerId) {p : PeerId}
    (h : p ∈ new) : p ∈ peers ∨
      p ∈ new.foldl (fun ls p => if p ∉ peers ∧ p ∉ ls then ls ++ [p] else ls) ls := by
  induction new generalizing ls with
  | nil => cases h
  | cons x xs ih =>
    rw [List.foldl_cons]
    rcases List.mem_cons.mp h with rfl | h
    · by_cases hp : p ∈ peers
      · exact .inl hp
      · refine .inr (subset_foldl_addLearner xs _ ?_)
        split
        · exact List.mem_append_right ls List.mem_cons_self
        · rename_i hx
          by_contra hmem
          exact hx ⟨hp, hmem⟩
    · exact ih _ h

theorem foldl_addLearner_eq_self {peers ls : List PeerId} {new : List PeerId}
    (h : ∀ p ∈ new, p ∈ peers ∨ p ∈ ls) :
    new.foldl (fun ls p => if p ∉ peers ∧ p ∉ ls then ls ++ [p] else ls) ls = ls := by
  induction new with
  | nil => rfl
  | cons x xs ih =>
    have hx : ¬ (x ∉ peers ∧ x ∉ ls) := by
      rintro ⟨hp, hl⟩
      exact (h x List.mem_cons_self).elim hp hl
    rw [List.foldl_cons, if_neg hx]
    exact ih fun p hp => h p (List.mem_cons_of_mem x hp)

/-- A change that is adopted again, with nothing adopted in between, changes
nothing. -/
theorem adopt_adopt (r : Roll) (c : ConfigChangeEntry) : (r.adopt c).adopt c = r.adopt c := by
  unfold adopt
  cases c.phase with
  | joint => simp only [List.filter_filter, Bool.and_self]
  | final => simp only [List.filter_filter, Bool.and_self]
  | addLearner =>
    dsimp only
    rw [foldl_addLearner_eq_self]
    exact fun p hp => mem_foldl_addLearner c.newPeers r.learners hp
  | removeLearner => simp only [List.filter_filter, Bool.and_self]

end Roll

theorem roll_adoptConfig (n : RaftNode) (c : ConfigChangeEntry) :
    (n.adoptConfig c).roll = n.roll.adopt c := by
  unfold RaftNode.adoptConfig Roll.adopt
  cases c.phase <;> rfl

variable {n n' : RaftNode} {g : Ledger}

theorem SameRoll.roll (h : SameRoll n n') : n'.roll = n.roll := by
  unfold RaftNode.roll
  rw [h.config, h.joint]

/-! ## The changes of a log -/

/-- The changes in a list of entries, with their indices. -/
def changesOf (entries : List LogEntry) : List (Nat × ConfigChangeEntry) :=
  entries.filterMap fun e => (ConfigChangeEntry.decode e.payload).map fun c => (e.index, c)

theorem changesOf_append (es fs : List LogEntry) :
    changesOf (es ++ fs) = changesOf es ++ changesOf fs := List.filterMap_append

theorem mem_changesOf {entries : List LogEntry} {x : Nat × ConfigChangeEntry} :
    x ∈ changesOf entries ↔
      ∃ e ∈ entries, e.index = x.1 ∧ ConfigChangeEntry.decode e.payload = some x.2 := by
  unfold changesOf
  rw [List.mem_filterMap]
  constructor
  · rintro ⟨e, he, hx⟩
    obtain ⟨c, hc, rfl⟩ := Option.map_eq_some_iff.mp hx
    exact ⟨e, he, rfl, hc⟩
  · rintro ⟨e, he, hi, hc⟩
    refine ⟨e, he, ?_⟩
    rw [hc, hi]
    rfl

theorem changesOf_eq_nil {entries : List LogEntry}
    (h : ∀ e ∈ entries, ConfigChangeEntry.decode e.payload = none) : changesOf entries = [] := by
  rw [List.eq_nil_iff_forall_not_mem]
  rintro x hx
  obtain ⟨e, he, -, hdec⟩ := mem_changesOf.mp hx
  rw [h e he] at hdec
  cases hdec

/-! ## Ledgers -/

structure Ledger where
  /-- The roll the node was started with. -/
  boot : Roll
  /-- The changes under the snapshot. -/
  covered : List ConfigChangeEntry
  /-- The indices of logged changes that do not count yet. -/
  waiting : List Nat
deriving DecidableEq, Repr

namespace Ledger

/-- The logged changes that count. -/
def counted (g : Ledger) (entries : List LogEntry) : List ConfigChangeEntry :=
  ((changesOf entries).filter fun x => decide (x.1 ∉ g.waiting)).map Prod.snd

/-- The roll the history leads to. -/
def effective (g : Ledger) (entries : List LogEntry) : Roll :=
  g.boot.adoptAll (g.covered ++ g.counted entries)

/-- The same with every change counted. -/
def history (g : Ledger) (entries : List LogEntry) : Roll :=
  g.boot.adoptAll (g.covered ++ (changesOf entries).map Prod.snd)

theorem counted_append (g : Ledger) (es fs : List LogEntry) :
    g.counted (es ++ fs) = g.counted es ++ g.counted fs := by
  unfold counted
  rw [changesOf_append, List.filter_append, List.map_append]

theorem counted_congr (g : Ledger) {es fs : List LogEntry} (h : changesOf es = changesOf fs) :
    g.counted es = g.counted fs := by
  unfold counted
  rw [h]

theorem counted_eq_all (g : Ledger) {es : List LogEntry} (h : ∀ x ∈ changesOf es, x.1 ∉ g.waiting) :
    g.counted es = (changesOf es).map Prod.snd := by
  unfold counted
  rw [List.filter_eq_self.mpr fun x hx => decide_eq_true (h x hx)]

theorem counted_eq_nil (g : Ledger) {es : List LogEntry}
    (h : ∀ x ∈ changesOf es, x.1 ∈ g.waiting) : g.counted es = [] := by
  unfold counted
  rw [List.filter_eq_nil_iff.mpr fun x hx => by simpa using h x hx]
  rfl

theorem effective_append (g : Ledger) (es fs : List LogEntry) :
    g.effective (es ++ fs) = (g.effective es).adoptAll (g.counted fs) := by
  unfold effective
  rw [counted_append, ← List.append_assoc, Roll.adoptAll_append]

theorem effective_congr (g : Ledger) {es fs : List LogEntry} (h : changesOf es = changesOf fs) :
    g.effective es = g.effective fs := by
  unfold effective
  rw [g.counted_congr h]

end Ledger

/-! ## Nodes that follow their ledger -/

/-- The log is in index order, within the tip cache, and reaches what is
applied. -/
structure RaftNode.Ordered (n : RaftNode) : Prop where
  ascending : n.storage.entries.Pairwise fun d e => d.index < e.index
  tip : ∀ e ∈ n.storage.entries, e.index ≤ n.cachedLastLog.1
  applied : n.lastApplied ≤ n.cachedLastLog.1

/-- The node has the roll its history leads to, and what waits is a final entry
of the log that is not applied. -/
structure Ledger.Tracks (g : Ledger) (n : RaftNode) : Prop where
  roll : n.roll = g.effective n.storage.entries
  waiting : ∀ i ∈ g.waiting, n.lastApplied < i ∧
    ∃ c, (i, c) ∈ changesOf n.storage.entries ∧ c.phase = .final

/-- The same roll, log, tip and applied index. -/
structure Still (n n' : RaftNode) : Prop where
  roll : n'.roll = n.roll
  entries : n'.storage.entries = n.storage.entries
  tip : n'.cachedLastLog = n.cachedLastLog
  applied : n'.lastApplied = n.lastApplied

namespace Still

variable {n n' n'' : RaftNode}

theorem refl (n : RaftNode) : Still n n := ⟨rfl, rfl, rfl, rfl⟩

theorem trans (h : Still n n') (h' : Still n' n'') : Still n n'' :=
  ⟨h'.roll.trans h.roll, h'.entries.trans h.entries, h'.tip.trans h.tip,
    h'.applied.trans h.applied⟩

theorem of_same (hr : SameRoll n n') (hl : SameLog n n') : Still n n' :=
  ⟨hr.roll, hl.entries, hl.cached, hl.applied⟩

end Still

theorem Ledger.Tracks.still (h : g.Tracks n) (hs : Still n n') :
    g.Tracks n' where
  roll := by rw [hs.roll, hs.entries, h.roll]
  waiting := by
    rw [hs.entries, hs.applied]
    exact h.waiting

/-- Entries that are no changes come and go. -/
theorem Ledger.Tracks.congr (h : g.Tracks n) (hroll : n'.roll = n.roll)
    (happlied : n'.lastApplied = n.lastApplied)
    (hch : changesOf n'.storage.entries = changesOf n.storage.entries) : g.Tracks n' where
  roll := by rw [hroll, h.roll, g.effective_congr hch]
  waiting := by
    rw [hch, happlied]
    exact h.waiting

/-! ## Received batches -/

/-- The log a received batch is stored behind. -/
def RaftNode.kept (n : RaftNode) (msg : AppendEntries) (entries : List LogEntry) : RaftNode :=
  match n.scan msg entries with
  | .conflict rest => n.cutAt rest
  | .missing _ | .matched | .malformed => n

/-- A batch that is taken over in step with the history: nothing that is cut is
a change, the newest change of what is stored alone leads where all of them
lead and is not refused, and the log ends with what is stored. -/
structure Ledger.Takes (g : Ledger) (n : RaftNode) (msg : AppendEntries)
    (entries : List LogEntry) : Prop where
  cut : changesOf (n.kept msg entries).storage.entries = changesOf n.storage.entries
  newest : n.roll.adoptAll ((changesOf (n.fresh msg entries)).map Prod.snd) =
    n.roll.adoptAll (latestConfig (n.fresh msg entries)).toList
  valid : ¬ ActivationFails (n.fresh msg entries)
  apart : ∀ x ∈ changesOf (n.fresh msg entries), x.1 ∉ g.waiting
  tip : ∀ e ∈ (n.spliced msg entries).storage.entries, ∀ x ∈ (n.fresh msg entries).getLast?,
    e.index ≤ x.index

/-- The same for a frame; no snapshot is installed. -/
def Ledger.Brings (g : Ledger) (n : RaftNode) (f : InboundRaftMessage) : Prop :=
  match f.message with
  | .appendEntries msg entries | .appendEntriesSeeded msg entries =>
    n.hardState.currentTerm ≤ msg.term → n.prevOk msg = true → g.Takes n msg entries
  | .installSnapshot msg chunk => ¬ n.Completes f.sender msg chunk
  | _ => True

section Batches

variable {g : Ledger} {n m : RaftNode} {msg : AppendEntries} {entries : List LogEntry}

theorem entries_spliced (n : RaftNode) (msg : AppendEntries) (entries : List LogEntry) :
    (n.spliced msg entries).storage.entries =
      (n.kept msg entries).storage.entries ++ n.fresh msg entries := by
  unfold RaftNode.spliced RaftNode.kept RaftNode.fresh
  cases n.scan msg entries with
  | malformed => exact (List.append_nil _).symm
  | matched => exact (List.append_nil _).symm
  | conflict rest => rfl
  | missing rest => rfl

theorem tip_spliced (n : RaftNode) (msg : AppendEntries) (entries : List LogEntry) :
    (n.spliced msg entries).cachedLastLog =
      match (n.fresh msg entries).getLast? with
      | some e => (e.index, e.term)
      | none => n.cachedLastLog := by
  unfold RaftNode.spliced RaftNode.fresh
  cases n.scan msg entries with
  | malformed => rfl
  | matched => rfl
  | conflict rest =>
    cases rest with
    | nil => rfl
    | cons e es =>
      simp only [RaftNode.stored, RaftNode.extendTip, List.getLast?_cons]
  | missing rest => rfl

theorem SameStore.kept (h : SameStore n m) (msg : AppendEntries) (entries : List LogEntry) :
    (m.kept msg entries).storage.entries = (n.kept msg entries).storage.entries := by
  unfold RaftNode.kept
  rw [h.scan]
  cases n.scan msg entries with
  | conflict rest => exact (h.cutAt rest).entries
  | _ => exact h.entries

theorem SameStore.fresh (h : SameStore n m) (msg : AppendEntries) (entries : List LogEntry) :
    m.fresh msg entries = n.fresh msg entries := by
  unfold RaftNode.fresh
  rw [h.scan]

/-- Whether a batch is in step depends on the log and the roll. -/
theorem Ledger.Takes.of_same (h : g.Takes n msg entries) (hs : SameStore n m)
    (hroll : m.roll = n.roll) : g.Takes m msg entries where
  cut := by rw [hs.kept, hs.entries, h.cut]
  newest := by rw [hs.fresh, hroll, h.newest]
  valid := by
    rw [hs.fresh]
    exact h.valid
  apart := by
    rw [hs.fresh]
    exact h.apart
  tip := by
    rw [hs.fresh, (hs.spliced msg entries).entries]
    exact h.tip

/-- The roll behind a batch. -/
theorem roll_tookOver (n : RaftNode) (msg : AppendEntries) (entries : List LogEntry) :
    (n.tookOver msg entries).roll =
      n.roll.adoptAll (latestConfig (n.fresh msg entries)).toList := by
  have hact : ∀ rest, ((n.spliced msg entries).activated rest).roll =
      n.roll.adoptAll (latestConfig rest).toList := by
    intro rest
    have hspliced := (SameOffice.spliced n msg entries).toSameRoll.roll
    unfold RaftNode.activated
    cases latestConfig rest with
    | none => exact hspliced
    | some c => exact (roll_adoptConfig _ c).trans (congrArg (Roll.adopt · c) hspliced)
  unfold RaftNode.tookOver RaftNode.fresh
  cases n.scan msg entries with
  | malformed => rfl
  | matched => rfl
  | conflict rest => exact hact rest
  | missing rest => exact hact rest

/-- A batch in step with the history is taken over in step. -/
theorem Ledger.Tracks.accepted (h : g.Tracks n) (ht : g.Takes n msg entries) {n' : RaftNode}
    (hroll : n'.roll = (n.tookOver msg entries).roll)
    (hentries : n'.storage.entries = (n.spliced msg entries).storage.entries)
    (happlied : n'.lastApplied = n.lastApplied) : g.Tracks n' where
  roll := by
    calc n'.roll = n.roll.adoptAll ((changesOf (n.fresh msg entries)).map Prod.snd) := by
          rw [hroll, roll_tookOver, ht.newest]
      _ = (g.effective (n.kept msg entries).storage.entries).adoptAll
            (g.counted (n.fresh msg entries)) := by
          rw [g.counted_eq_all ht.apart, g.effective_congr ht.cut, h.roll]
      _ = g.effective n'.storage.entries := by
          rw [hentries, entries_spliced, g.effective_append]
  waiting i hi := by
    obtain ⟨hlt, c, hmem, hphase⟩ := h.waiting i hi
    refine ⟨happlied ▸ hlt, c, ?_, hphase⟩
    rw [hentries, entries_spliced, changesOf_append, ht.cut]
    exact List.mem_append_left _ hmem

end Batches

/-! ## Effects -/

/-- Without frames, proposals and configuration changes only a compaction moves
any of this. -/
theorem Effect.still_or_compacted {sc : Scope} (h : Effect sc n n') (hrx : ∀ f, ¬ sc.rx f)
    (hbatch : ∀ payloads, ¬ sc.batch payloads) (hrestores : ¬ sc.restores)
    (hcontrol : ¬ sc.control) :
    Still n n' ∨ sc.compacts ∧ ∃ term bytes, n' = n.compacted term bytes n.compactionHorizon := by
  have hno : ∀ sender msg entries, ¬ Receives sc n sender msg entries := by
    intro sender msg entries hr
    exact hr.rx.elim (hrx _) (hrx _)
  cases h with
  | quiet _ hq => exact .inl (.of_same (SameOffice.of_core hq).toSameRoll (.of_core hq))
  | hard _ hh => exact .inl (.of_same hh.sameRoll hh.sameLog)
  | log _ hl =>
    cases hl with
    | cut sender msg entries _ hr => exact (hno sender msg entries hr).elim
    | spliced sender msg entries hr => exact (hno sender msg entries hr).elim
    | accepted sender msg entries _ hr => exact (hno sender msg entries hr).elim
    | led payloads _ _ _ _ hb => exact (hbatch payloads hb).elim
    | learned index t => exact .inl ⟨rfl, rfl, rfl, rfl⟩
    | installed sender msg chunk bytes _ hf => exact (hrx _ hf).elim
    | restored m hr => exact (hrestores hr).elim
    | compacted term bytes hc => exact .inr ⟨hc.2, term, bytes, rfl⟩
  | applied e _ _ hc => exact (hcontrol hc).elim
  | reconfigured entry hc => exact (hcontrol hc).elim
  | _ => exact .inl ⟨rfl, rfl, rfl, rfl⟩

/-- Code that may do none of this. -/
theorem Moves.still (h : Moves (callScope (fun _ => False) fun _ => False) n n') : Still n n' := by
  refine h.preserves id (.refl _) fun m m' hm he => ?_
  refine hm.trans ((he.still_or_compacted ?_ ?_ ?_ ?_).resolve_right ?_)
  · exact fun _ h => h
  · exact fun _ h => h
  · exact fun h => h
  · exact fun h => h
  · exact fun h => h.1

theorem still_adopted (n : RaftNode) (leaderCommit : Nat) : Still n (n.adopted leaderCommit) := by
  unfold RaftNode.adopted
  split <;> exact ⟨rfl, rfl, rfl, rfl⟩

theorem still_replied (n : RaftNode) (reply : Bool) (peer : PeerId) (msg : RaftMessage) :
    Still n (n.replied reply peer msg) :=
  .of_same (SameOffice.replied n reply peer msg).toSameRoll (.replied n reply peer msg)

/-- What an action needs to stay in step with the history. -/
structure Action.InStep (a : Action) (g : Ledger) (n : RaftNode) : Prop where
  app : a.AppOnly
  frame : ∀ f, a.frame = some f → g.Brings n f

/-- In the middle of an action that started in `n`. -/
structure Action.Follows (a : Action) (g : Ledger) (n m : RaftNode) : Prop where
  tracks : g.Tracks m
  kept : ∀ x ∈ changesOf n.storage.entries, x ∈ changesOf m.storage.entries
  tip : a.appends = false → ∀ x ∈ changesOf m.storage.entries, x.1 ≤ m.cachedLastLog.1

namespace Action.Follows

variable {a : Action} {g : Ledger} {n m m' : RaftNode}

theorem still (h : a.Follows g n m) (hs : Still m m') : a.Follows g n m' := by
  refine ⟨h.tracks.still hs, ?_, ?_⟩
  · rw [hs.entries]
    exact h.kept
  · rw [hs.entries, hs.tip]
    exact h.tip

variable {msg : AppendEntries} {entries : List LogEntry}

/-- The message of a frame that is in step, where it is checked. -/
theorem takes (h : a.Follows g n m) (hin : a.InStep g n) (hn : g.Tracks n) {sender : PeerId}
    (hr : Receives (a.scope n False) m sender msg entries) : g.Takes m msg entries := by
  obtain ⟨hsame, hterm⟩ := hr.arrived
  have hroll : m.roll = n.roll := by
    rw [h.tracks.roll, hn.roll, hsame.entries]
  have hprev : n.prevOk msg = true := (hsame.toSameStore.prevOk msg).symm.trans hr.prevOk
  refine Ledger.Takes.of_same ?_ hsame.toSameStore hroll
  rcases hr.rx with hrx | hrx
  · exact hin.frame _ hrx hterm hprev
  · exact hin.frame _ hrx hterm hprev

/-- A log that is cut: the tip is read off what is left. -/
theorem cut (h : a.Follows g n m) {rest : List LogEntry}
    (hch : changesOf (m.cutAt rest).storage.entries = changesOf m.storage.entries) :
    a.Follows g n (m.cutAt rest) := by
  have happlied : (m.cutAt rest).lastApplied = m.lastApplied := by cases rest <;> rfl
  refine ⟨h.tracks.congr (SameOffice.cutAt m rest).toSameRoll.roll happlied hch, ?_, ?_⟩
  · rw [hch]
    exact h.kept
  · intro happ x hx
    cases rest with
    | nil => exact h.tip happ x hx
    | cons y ys =>
      obtain ⟨e, he, hi, -⟩ := mem_changesOf.mp hx
      rw [← hi]
      exact Storage.le_highest he

theorem tip_takes (h : a.Follows g n m) (ht : g.Takes m msg entries) (happ : a.appends = false) :
    ∀ x ∈ changesOf (m.spliced msg entries).storage.entries,
      x.1 ≤ (m.spliced msg entries).cachedLastLog.1 := by
  intro x hx
  rw [tip_spliced]
  cases hlast : (m.fresh msg entries).getLast? with
  | none =>
    rw [entries_spliced, List.getLast?_eq_none_iff.mp hlast, List.append_nil, ht.cut] at hx
    exact h.tip happ x hx
  | some last =>
    obtain ⟨e, he, hi, -⟩ := mem_changesOf.mp hx
    rw [← hi]
    exact ht.tip e he last hlast

theorem accepted (h : a.Follows g n m) (ht : g.Takes m msg entries) (reply : Bool) (sender : PeerId)
    (answer : RaftMessage) :
    a.Follows g n
      (((m.tookOver msg entries).adopted msg.leaderCommit).replied reply sender answer) := by
  have htail := (still_adopted (m.tookOver msg entries) msg.leaderCommit).trans
    (still_replied _ reply sender answer)
  have htook := SameLog.tookOver m msg entries
  have hentries := htail.entries.trans htook.entries
  have happlied : (m.spliced msg entries).lastApplied = m.lastApplied := by
    unfold RaftNode.spliced
    cases m.scan msg entries with
    | conflict rest => cases rest <;> rfl
    | _ => rfl
  refine ⟨h.tracks.accepted ht htail.roll hentries ?_, ?_, ?_⟩
  · exact (htail.applied.trans htook.applied).trans happlied
  · intro x hx
    rw [hentries, entries_spliced, changesOf_append, ht.cut]
    exact List.mem_append_left _ (h.kept x hx)
  · rw [hentries, htail.tip, htook.cached]
    exact h.tip_takes ht

/-- A batch of application payloads. -/
theorem led (h : a.Follows g n m) (happends : a.appends = true) {payloads : List EntryPayload}
    (hp : ∀ p ∈ payloads, ConfigChangeEntry.decode p = none) :
    a.Follows g n (m.stored (m.proposedBatch payloads)) := by
  have hnone : changesOf (m.proposedBatch payloads) = [] :=
    changesOf_eq_nil fun e he => hp e.payload (payload_mem_of_mem_buildBatch he)
  have hch : changesOf (m.stored (m.proposedBatch payloads)).storage.entries =
      changesOf m.storage.entries := by
    change changesOf (m.storage.entries ++ m.proposedBatch payloads) = _
    rw [changesOf_append, hnone, List.append_nil]
  refine ⟨h.tracks.congr rfl rfl hch, ?_, fun hno => ?_⟩
  · rw [hch]
    exact h.kept
  · rw [happends] at hno
    cases hno

end Action.Follows

/-- Actions other than applying, compacting and restoring. -/
def Action.Ordinary (a : Action) : Prop := a ≠ .applyNext ∧ a ≠ .compact ∧ a ≠ .restore

theorem Effect.follows {a : Action} {n m m' : RaftNode} (he : Effect (a.scope n False) m m')
    (hord : a.Ordinary) (hin : a.InStep g n) (hn : g.Tracks n) (h : a.Follows g n m) :
    a.Follows g n m' := by
  have hcontrol : ¬ (a.scope n False).control := by
    rintro (rfl | ⟨entry, rfl⟩)
    · exact hord.1 rfl
    · exact hin.app
  cases he with
  | quiet _ hq => exact h.still (.of_same (SameOffice.of_core hq).toSameRoll (.of_core hq))
  | hard _ hh => exact h.still (.of_same hh.sameRoll hh.sameLog)
  | log _ hl =>
    cases hl with
    | cut sender msg entries rest hr hscan =>
      have ht := h.takes hin hn hr
      have hcut := ht.cut
      unfold RaftNode.kept at hcut
      rw [hscan] at hcut
      exact h.cut hcut
    | spliced sender msg entries hr _ _ _ hfails => exact ((h.takes hin hn hr).valid hfails).elim
    | accepted sender msg entries reply hr => exact h.accepted (h.takes hin hn hr) reply sender _
    | led payloads happends _ _ _ hbatch =>
      refine h.led happends ?_
      rcases hbatch with rfl | rfl
      · exact hin.app
      · exact hin.app
    | learned index t => exact h.still ⟨rfl, rfl, rfl, rfl⟩
    | installed sender msg chunk bytes _ hf _ _ _ hcomp => exact (hin.frame _ hf hcomp).elim
    | restored _ hr => exact (hord.2.2 hr).elim
    | compacted term bytes hc => exact (hord.2.1 hc.2).elim
  | applied e _ _ hc => exact (hcontrol hc).elim
  | reconfigured entry hc => exact (hcontrol hc).elim
  | _ => exact h.still ⟨rfl, rfl, rfl, rfl⟩

/-- An ordinary action stays in step and keeps every change. -/
theorem Moves.follows {a : Action} (h : Moves (a.scope n False) n n') (hord : a.Ordinary)
    (hin : a.InStep g n) (hn : g.Tracks n)
    (htip : ∀ x ∈ changesOf n.storage.entries, x.1 ≤ n.cachedLastLog.1) : a.Follows g n n' :=
  h.preserves id ⟨hn, fun _ hx => hx, fun _ => htip⟩ fun _ _ hm he => he.follows hord hin hn hm

end ArbitroRaft
