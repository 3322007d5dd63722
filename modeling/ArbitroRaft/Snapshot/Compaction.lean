import ArbitroRaft.Machine.Batch
import ArbitroRaft.Membership.Hosted

/-!
# Compaction keeps what is still needed

`maybe_compact` saves a snapshot at `last_applied` and cuts the log below a
horizon that no voter has left behind.  The term it writes into the snapshot
comes from the caches, so this rests on an invariant of every run: above the
saved snapshot the tip cache and the arena tell the terms of the log.

## Main results

* `compaction_keeps_what_is_needed`: the snapshot and the cut, over every run.
-/

namespace ArbitroRaft

open Library

variable {n : RaftNode}

/-- From its horizon on compaction leaves the log as it is. -/
theorem entryAt_compacted (term : Nat) (bytes : List UInt8) {upTo i : Nat} (h : upTo ≤ i) :
    (n.compacted term bytes upTo).storage.entryAt i = n.storage.entryAt i := by
  unfold RaftNode.compacted
  dsimp only
  split
  · exact Storage.entryAt_filter _ fun e _ hi => decide_eq_true (hi ▸ h)
  · rfl

/-! ## The caches above the snapshot -/

namespace Storage

variable {s : Storage} {i t : Nat}

/-- The log has `t` at `i`, or the saved snapshot covers `i`. -/
def Vouches (s : Storage) (i t : Nat) : Prop :=
  i ≤ s.snapshotIndex ∨ s.termAt i = some t

theorem termAt_snoc (s : Storage) (e : LogEntry) (i : Nat) :
    (s.appendEntries [e]).termAt i = if e.index = i then some e.term else s.termAt i := by
  unfold termAt entryAt appendEntries
  dsimp only
  rw [List.reverse_append, List.reverse_singleton, List.singleton_append, List.find?_cons]
  by_cases h : e.index = i
  · simp only [h, decide_true, if_true, Option.map_some]
  · simp only [h, decide_false, if_false]

theorem Vouches.snoc (h : s.Vouches i t) {e : LogEntry} (hne : i ≠ e.index) :
    (s.appendEntries [e]).Vouches i t := by
  rcases h with h | h
  · exact .inl h
  · refine .inr ?_
    rw [termAt_snoc, if_neg hne.symm]
    exact h

theorem vouches_snoc_self (s : Storage) (e : LogEntry) :
    (s.appendEntries [e]).Vouches e.index e.term :=
  .inr ((termAt_snoc s e e.index).trans (if_pos rfl))

/-- The highest entry is found under its index. -/
theorem vouches_lastLogPosition (s : Storage) :
    s.Vouches s.lastLogPosition.1 s.lastLogPosition.2 := by
  have hfind : ∀ l : List LogEntry, (highest l).1 = 0 ∨
      (l.reverse.find? fun e => decide (e.index = (highest l).1)).map LogEntry.term =
        some (highest l).2 := by
    intro l
    induction l with
    | nil => exact .inl rfl
    | cons e es ih =>
      unfold highest
      split
      · rename_i hlt
        -- Nothing behind `e` has its index.
        refine .inr ?_
        rw [List.reverse_cons, List.find?_append]
        have hnone : (es.reverse.find? fun x => decide (x.index = e.index)) = none := by
          refine List.find?_eq_none.mpr fun x hx heq => ?_
          have hle := le_highest (List.mem_reverse.mp hx)
          have hix := of_decide_eq_true heq
          omega
        simp only [hnone, Option.none_or, List.find?_singleton, decide_true, if_true,
          Option.map_some]
      · rcases ih with ih | ih
        · exact .inl ih
        · refine .inr ?_
          obtain ⟨x, hx, hterm⟩ := Option.map_eq_some_iff.mp ih
          rw [List.reverse_cons, List.find?_append, hx, Option.some_or, Option.map_some, hterm]
  rcases hfind s.entries with h | h
  · refine .inl ?_
    rw [lastLogPosition, h]
    exact Nat.zero_le _
  · exact .inr h

theorem Vouches.filter (h : s.Vouches i t) {p : LogEntry → Bool}
    (hp : ∀ e ∈ s.entries, e.index = i → p e = true) :
    { s with entries := s.entries.filter p }.Vouches i t := by
  rcases h with h | h
  · exact .inl h
  · refine .inr ?_
    rw [termAt, s.entryAt_filter hp]
    exact h

/-- The arena tells nothing but terms of the log. -/
def Tells (s : Storage) (a : LogMetadataArena) : Prop :=
  ∀ i t, a.getTerm i = some t → s.Vouches i t

theorem Tells.snoc {a : LogMetadataArena} (h : s.Tells a) (e : LogEntry) :
    (s.appendEntries [e]).Tells (a.append e.index e.term) := by
  intro i t hi
  rcases LogMetadataArena.getTerm_append hi with ⟨rfl, rfl⟩ | ⟨hne, hold⟩
  · exact s.vouches_snoc_self e
  · exact (h i t hold).snoc hne

theorem appendEntries_cons (s : Storage) (e : LogEntry) (es : List LogEntry) :
    s.appendEntries (e :: es) = (s.appendEntries [e]).appendEntries es := by
  unfold appendEntries
  rw [List.append_assoc, List.singleton_append]

/-- A batch is stored and noted entry by entry. -/
theorem Tells.append {a : LogMetadataArena} (h : s.Tells a) (rest : List LogEntry) :
    (s.appendEntries rest).Tells (rest.foldl (fun a e => a.append e.index e.term) a) := by
  induction rest generalizing s a with
  | nil =>
    have hsame : s.appendEntries [] = s := by
      unfold appendEntries
      rw [List.append_nil]
    rw [hsame]
    exact h
  | cons e es ih =>
    rw [appendEntries_cons]
    exact ih (h.snoc e)

theorem vouches_last (s : Storage) {rest : List LogEntry} {e : LogEntry}
    (h : rest.getLast? = some e) : (s.appendEntries rest).Vouches e.index e.term := by
  obtain ⟨front, rfl⟩ := List.getLast?_eq_some_iff.mp h
  have hsplit : s.appendEntries (front ++ [e]) = (s.appendEntries front).appendEntries [e] := by
    unfold appendEntries
    rw [List.append_assoc]
  rw [hsplit]
  exact vouches_snoc_self _ e

end Storage

/-- Above the saved snapshot the caches agree with the log, and the remembered
boundary is not above it. -/
structure TellsTerms (n : RaftNode) : Prop where
  tip : n.storage.Vouches n.cachedLastLog.1 n.cachedLastLog.2
  arena : n.storage.Tells n.logMetadata
  boundary : n.snapshotBoundary.1 ≤ n.storage.snapshotIndex

namespace TellsTerms

variable {n n' : RaftNode}

theorem of_sameStore (h : TellsTerms n) (hs : SameStore n n') : TellsTerms n' := by
  have hindex : n'.storage.snapshotIndex = n.storage.snapshotIndex := by
    unfold Storage.snapshotIndex Storage.loadSnapshotMeta
    rw [hs.snapshot]
  have hvouches : ∀ {i t}, n.storage.Vouches i t → n'.storage.Vouches i t := by
    intro i t hi
    unfold Storage.Vouches
    rw [hindex, hs.termAt]
    exact hi
  refine ⟨?_, fun i t hi => ?_, ?_⟩
  · rw [hs.cached]
    exact hvouches h.tip
  · rw [hs.arena] at hi
    exact hvouches (h.arena i t hi)
  · rw [hs.boundary, hindex]
    exact h.boundary

theorem stored (h : TellsTerms n) (rest : List LogEntry) : TellsTerms (n.stored rest) := by
  refine ⟨?_, h.arena.append rest, h.boundary⟩
  change (n.storage.appendEntries rest).Vouches _ _
  rw [n.tip_stored rest]
  cases hl : rest.getLast? with
  | none =>
    rw [List.getLast?_eq_none_iff.mp hl]
    unfold Storage.appendEntries
    rw [List.append_nil]
    exact h.tip
  | some e => exact n.storage.vouches_last hl

theorem cutAt (h : TellsTerms n) (rest : List LogEntry) : TellsTerms (n.cutAt rest) := by
  cases rest with
  | nil => exact h
  | cons e rest =>
    refine ⟨Storage.vouches_lastLogPosition _, fun i t hi => ?_, h.boundary⟩
    obtain ⟨hlt, hold⟩ := LogMetadataArena.getTerm_truncateSuffix hi
    exact (h.arena i t hold).filter fun x _ hx => decide_eq_true (hx ▸ hlt)

/-- Re-anchoring empties the arena and points the tip at the snapshot. -/
theorem anchorOnSnapshot {m : SnapshotMeta} (hm : n.storage.loadSnapshotMeta = some m) :
    TellsTerms (n.anchorOnSnapshot m) := by
  have hindex : (n.anchorOnSnapshot m).storage.snapshotIndex = m.lastIncludedIndex :=
    Storage.snapshotIndex_of_some ((loadSnapshotMeta_anchorOnSnapshot n m).trans hm)
  refine ⟨.inl ?_, fun i t hi => ?_, ?_⟩
  · rw [hindex]
    exact le_rfl
  · simp [RaftNode.anchorOnSnapshot] at hi
  · rw [hindex]
    exact le_rfl

/-- The new snapshot covers whatever the compaction takes away. -/
theorem compacted (h : TellsTerms n) (hsnap : n.storage.snapshotIndex ≤ n.lastApplied) (term : Nat)
    (bytes : List UInt8) : TellsTerms (n.compacted term bytes n.compactionHorizon) := by
  have hindex : (n.compacted term bytes n.compactionHorizon).storage.snapshotIndex =
      n.lastApplied :=
    Storage.snapshotIndex_of_some (loadSnapshotMeta_compacted n term bytes _)
  have hhorizon := compactionHorizon_le n
  have hvouches : ∀ {i t}, n.storage.Vouches i t →
      (n.compacted term bytes n.compactionHorizon).storage.Vouches i t := by
    intro i t hi
    by_cases hcov : i ≤ n.lastApplied
    · exact .inl (hindex ▸ hcov)
    · rcases hi with hi | hi
      · omega
      · refine .inr ?_
        rw [Storage.termAt, entryAt_compacted _ _ (by omega)]
        exact hi
  exact ⟨hvouches h.tip, fun i t hi => hvouches (h.arena i t hi), hindex.ge⟩

end TellsTerms

theorem logInvariant_tellsTerms : LogInvariant TellsTerms where
  same h hs := h.of_sameStore hs
  stored h := h.stored
  cutAt h := h.cutAt
  learned h ht := by
    refine ⟨h.tip, fun i u hi => ?_, h.boundary⟩
    rcases LogMetadataArena.getTerm_append hi with ⟨rfl, rfl⟩ | ⟨-, hold⟩
    · exact .inr ht
    · exact h.arena i u hold
  anchored := TellsTerms.anchorOnSnapshot
  compacted h := h.compacted

theorem tellsTerms_fromStorage (config : NodeConfig) (s : Storage) (sent : List SentFrame)
    (env : Env) : TellsTerms (RaftNode.fromStorage config s sent env) := by
  refine ⟨s.vouches_lastLogPosition, fun i t hi => ?_, ?_⟩
  · simp [RaftNode.fromStorage] at hi
  · unfold RaftNode.fromStorage Storage.snapshotIndex
    cases s.loadSnapshotMeta with
    | none => exact le_rfl
    | some m => exact le_rfl

/-! ## Both voter sets of a change -/

/-- The voters: during a membership change both of its sides. -/
def RaftNode.Voter (n : RaftNode) (p : PeerId) : Prop :=
  match n.jointPeers with
  | some (old, new) => p ∈ old ∨ p ∈ new
  | none => p ∈ n.config.peers

/-- The voter list holds the union while a change is in progress. -/
def RaftNode.HoldsUnion (n : RaftNode) : Prop :=
  ∀ old new, n.jointPeers = some (old, new) → ∀ p, p ∈ old ∨ p ∈ new → p ∈ n.config.peers

theorem RaftNode.HoldsUnion.mem_peers (h : n.HoldsUnion) {p : PeerId} (hp : n.Voter p) :
    p ∈ n.config.peers := by
  unfold RaftNode.Voter at hp
  cases hjoint : n.jointPeers with
  | none =>
    rw [hjoint] at hp
    exact hp
  | some sides =>
    rw [hjoint] at hp
    exact h _ _ hjoint p hp

theorem RaftNode.HoldsUnion.congr {n n' : RaftNode} (h : n.HoldsUnion) (hs : SameRoll n n') :
    n'.HoldsUnion := by
  intro old new hjoint p hp
  rw [hs.config]
  exact h old new (hs.joint ▸ hjoint) p hp

theorem RaftNode.HoldsUnion.adoptConfig (h : n.HoldsUnion) (entry : ConfigChangeEntry) :
    (n.adoptConfig entry).HoldsUnion := by
  unfold RaftNode.adoptConfig
  cases entry.phase with
  | joint =>
    intro old new hjoint p hp
    cases hjoint
    exact RaftNode.mem_mergePeers.mpr hp
  | final => exact fun _ _ hjoint => nomatch hjoint
  | addLearner => exact h
  | removeLearner => exact h

theorem Effect.holdsUnion {sc : Scope} {n n' : RaftNode} (he : Effect sc n n')
    (h : n.HoldsUnion) : n'.HoldsUnion := by
  cases he.roll with
  | same _ hs => exact h.congr hs.toSameRoll
  | left _ hs => exact h.congr hs
  | crowned => exact h
  | initialized => exact h
  | progressed peer old p => exact h
  | adopted _ sender msg entries entry _ _ hs => exact (h.adoptConfig entry).congr hs
  | reconfigured entry => exact (h.adoptConfig entry).congr (.settleConfig _)

/-- Taking a change back sets one list and settles, or does nothing. -/
theorem ConfigCall.revert_cases (c : ConfigCall) (n : RaftNode) :
    c.revert n = n ∨
      c.revert n = n.revertJointActivation c.oldPeers ∨
      c.revert n = n.revertLearnerActivation c.prevLearners := by
  unfold ConfigCall.revert
  cases c.entry.phase with
  | joint => exact .inr (.inl rfl)
  | final => exact .inl rfl
  | addLearner => exact .inr (.inr rfl)
  | removeLearner => exact .inr (.inr rfl)

theorem RaftNode.HoldsUnion.revert (h : n.HoldsUnion) (c : ConfigCall) :
    (c.revert n).HoldsUnion := by
  rcases c.revert_cases n with heq | heq | heq
  · rw [heq]
    exact h
  · rw [heq]
    have hsolo : ({ n with
        config := { n.config with peers := c.oldPeers }
        jointPeers := none } : RaftNode).HoldsUnion := fun _ _ hjoint => nomatch hjoint
    exact hsolo.congr (.settleConfig _)
  · rw [heq]
    have hlearners : (n.setLearners c.prevLearners).HoldsUnion := h
    exact hlearners.congr (.settleConfig _)

theorem ConfigCall.sameStore_revert (c : ConfigCall) (n : RaftNode) : SameStore n (c.revert n) := by
  have hsettle : ∀ m : RaftNode, SameStore n m → SameStore n m.settleConfig :=
    fun m hm => hm.trans (SameLog.settleConfig m).toSameStore
  rcases c.revert_cases n with heq | heq | heq
  · rw [heq]
    exact SameStore.refl n
  · rw [heq]
    exact hsettle _ ⟨rfl, rfl, rfl, rfl, rfl⟩
  · rw [heq]
    exact hsettle _ ⟨rfl, rfl, rfl, rfl, rfl⟩

/-! ## What a compaction does -/

/-- What compaction relies on. -/
structure Compactable (n : RaftNode) : Prop where
  terms : TellsTerms n
  union : n.HoldsUnion

theorem compactable_fromStorage (config : NodeConfig) (s : Storage) (sent : List SentFrame)
    (env : Env) : Compactable (RaftNode.fromStorage config s sent env) :=
  ⟨tellsTerms_fromStorage config s sent env, fun _ _ hjoint => nomatch hjoint⟩

theorem hosted_compactable : Hosted Compactable where
  within _ _ h := ⟨h.terms.of_sameStore ⟨rfl, rfl, rfl, rfl, rfl⟩, h.union⟩
  effect _ _ _ _ h he := ⟨logInvariant_tellsTerms.effect he h.terms, he.holdsUnion h.union⟩
  revert c n h := ⟨h.terms.of_sameStore (c.sameStore_revert n), h.union.revert c⟩
  restart config _ env _ := compactable_fromStorage config _ _ env

/-- The last index a voter is known to hold: the leader's own is that of its log. -/
def RaftNode.matchOf (n : RaftNode) (p : PeerId) : Nat :=
  if p = n.config.nodeId then n.storage.lastLogPosition.1
  else ((n.peerProgress.get p).map PeerProgress.matchIndex).getD 0

theorem foldl_min_le {l : List Nat} {b x : Nat} (h : x ∈ l) : l.foldl min b ≤ x := by
  induction l generalizing b with
  | nil => cases h
  | cons a l ih =>
    rcases List.mem_cons.mp h with rfl | h
    · exact (foldl_min_le_start l _).trans (min_le_right b x)
    · exact ih h

/-- On a leader the horizon stays below every other voter. -/
theorem compactionHorizon_le_match (hl : n.isLeader = true) {p : PeerId} (hp : p ∈ n.config.peers)
    (hself : p ≠ n.config.nodeId) : n.compactionHorizon ≤ n.matchOf p := by
  unfold RaftNode.compactionHorizon RaftNode.matchOf
  dsimp only
  rw [if_pos hl, if_neg hself]
  refine (Nat.sub_le _ _).trans (foldl_min_le ?_)
  refine List.mem_map.mpr ⟨p, ?_, rfl⟩
  exact List.mem_filter.mpr ⟨hp, decide_eq_true hself⟩

/-- A compaction takes only what neither this node nor a voter still needs. -/
structure KeepsNeeded (n n' : RaftNode) : Prop where
  pending : n.pendingSnapshots.isEmpty = false → n' = n
  saved : n'.storage.snapshot = n.storage.snapshot ∨
    ∃ term bytes, n'.storage.snapshot = some (⟨n.lastApplied, term⟩, bytes) ∧
      n.storage.termAt n.lastApplied = some term ∧
      ∀ m, n.storage.loadSnapshotMeta = some m → m.lastIncludedIndex < n.lastApplied
  removed : ∀ e ∈ n.storage.entries, e ∉ n'.storage.entries → e.index < n.lastApplied ∧
    (n.isLeader = true → ∀ p, n.Voter p → e.index < n.matchOf p)
  needed : n.isLeader = true → ∀ p, n.Voter p → ∀ e ∈ n.storage.entries,
    n.matchOf p ≤ e.index → e ∈ n'.storage.entries
  above : n'.storage.entries.filter (fun e => decide (n.lastApplied ≤ e.index)) =
    n.storage.entries.filter (fun e => decide (n.lastApplied ≤ e.index))
  order : n'.storage.entries.Sublist n.storage.entries

namespace KeepsNeeded

variable {n n' : RaftNode}

/-- Nothing is saved and nothing goes. -/
theorem of_storage (hs : n'.storage = n.storage)
    (hp : n.pendingSnapshots.isEmpty = false → n' = n) : KeepsNeeded n n' where
  pending := hp
  saved := .inl (congrArg Storage.snapshot hs)
  removed e he hgone := absurd (hs ▸ he) hgone
  needed _ _ _ e he _ := hs ▸ he
  above := by rw [hs]
  order := by rw [hs]

/-- What was there is there, or below the horizon. -/
theorem compacted {a : LogMetadataArena} (h : Compactable n) (term : Nat) (bytes : List UInt8)
    (hpend : n.pendingSnapshots.isEmpty = true) (hterm : n.storage.termAt n.lastApplied = some term)
    (hsnap : ∀ m, n.storage.loadSnapshotMeta = some m → m.lastIncludedIndex < n.lastApplied) :
    KeepsNeeded n
      (({ n with logMetadata := a } : RaftNode).compacted term bytes n.compactionHorizon) := by
  have hhorizon := compactionHorizon_le n
  have hmem : ∀ e : LogEntry, e ∈ (({ n with logMetadata := a } : RaftNode).compacted term bytes
      n.compactionHorizon).storage.entries ↔
        e ∈ n.storage.entries ∧ n.compactionHorizon ≤ e.index := fun e => mem_compacted
  -- The leader's own log reaches `last_applied`.
  have hown : n.lastApplied ≤ n.storage.lastLogPosition.1 := by
    obtain ⟨x, hx, hxi, -⟩ := Storage.mem_of_termAt hterm
    exact hxi ▸ Storage.le_highest hx
  have hmatch : n.isLeader = true → ∀ p, n.Voter p → n.compactionHorizon ≤ n.matchOf p := by
    intro hl p hp
    by_cases hself : p = n.config.nodeId
    · unfold RaftNode.matchOf
      rw [if_pos hself]
      omega
    · exact compactionHorizon_le_match hl (h.union.mem_peers hp) hself
  refine ⟨?_, .inr ⟨term, bytes, ?_, hterm, hsnap⟩, ?_, ?_, ?_, ?_⟩
  · intro hp
    rw [hpend] at hp
    cases hp
  · unfold RaftNode.compacted
    dsimp only
    split <;> rfl
  · intro e he hgone
    have hlt : e.index < n.compactionHorizon := by
      by_contra hge
      exact hgone ((hmem e).mpr ⟨he, Nat.le_of_not_lt hge⟩)
    exact ⟨by omega, fun hl p hp => hlt.trans_le (hmatch hl p hp)⟩
  · intro hl p hp e he hle
    exact (hmem e).mpr ⟨he, (hmatch hl p hp).trans hle⟩
  · unfold RaftNode.compacted
    dsimp only
    split
    · change (n.storage.entries.filter _).filter _ = _
      rw [List.filter_filter]
      refine List.filter_congr fun e _ => ?_
      rw [← Bool.decide_and, decide_eq_decide]
      omega
    · rfl
  · unfold RaftNode.compacted
    dsimp only
    split
    · exact List.filter_sublist
    · exact List.Sublist.refl _

end KeepsNeeded

/-- `term_at` names its source and changes nothing but the arena. -/
theorem termAt_ends (n : RaftNode) (i : Nat) :
    Ends (termAt i) n
      (fun t n' => TermKnown n i t ∧ ∃ a, n' = { n with logMetadata := a }) (fun n' => n' = n) := by
  unfold termAt
  refine .read ?_
  split
  · rename_i hzero
    exact .ret ⟨.inl ⟨hzero, rfl⟩, _, rfl⟩
  · split
    · rename_i htip
      exact .ret ⟨.inr (.inl (by rw [htip])), _, rfl⟩
    · split
      · rename_i t ht
        exact .ret ⟨.inr (.inr (.inl ht)), _, rfl⟩
      · split
        · rename_i hboundary
          exact .ret ⟨.inr (.inr (.inr (.inl (by rw [hboundary])))), _, rfl⟩
        · split
          · rename_i t ht
            exact .putSeq (.ret ⟨.inr (.inr (.inr (.inr ht))), _, rfl⟩)
          · exact .fail rfl

/-- Above the snapshot the term that is found is the one in the log. -/
theorem TellsTerms.termAt_eq (h : TellsTerms n) {i t : Nat} (hi : n.storage.snapshotIndex < i)
    (ht : TermKnown n i t) : n.storage.termAt i = some t := by
  have hvouched : n.storage.Vouches i t → n.storage.termAt i = some t :=
    fun hv => hv.resolve_left (Nat.not_le.mpr hi)
  rcases ht with ⟨hzero, -⟩ | htip | harena | hboundary | hstorage
  · omega
  · refine hvouched ?_
    have htold := h.tip
    rwa [htip] at htold
  · exact hvouched (h.arena i t harena)
  · have hle := h.boundary
    rw [hboundary] at hle
    exact absurd hle (Nat.not_le.mpr hi)
  · exact hstorage

theorem maybeCompact_keeps (h : Compactable n) : KeepsNeeded n (maybeCompact.after n) := by
  refine Ends.after ?_
  unfold maybeCompact
  refine .read ?_
  split
  · exact .ret (.of_storage rfl fun _ => rfl)
  split
  · exact .ret (.of_storage rfl fun _ => rfl)
  rename_i hpend
  have hempty : n.pendingSnapshots.isEmpty = true := not_not.mp hpend
  have hbusy : ∀ n' : RaftNode, n.pendingSnapshots.isEmpty = false → n' = n := by
    intro n' hp
    rw [hempty] at hp
    cases hp
  split
  · exact .ret (.of_storage rfl fun _ => rfl)
  rename_i hzero
  split
  · exact .put (.of_storage rfl (hbusy _))
  rename_i hold
  have hsnap : ∀ m, n.storage.loadSnapshotMeta = some m → m.lastIncludedIndex < n.lastApplied := by
    intro m hm
    simpa [hm] using hold
  have hindex : n.storage.snapshotIndex < n.lastApplied := by
    unfold Storage.snapshotIndex
    cases hm : n.storage.loadSnapshotMeta with
    | none => exact Nat.pos_of_ne_zero hzero
    | some m => exact hsnap m hm
  unfold compactWithHorizon
  refine .read (((termAt_ends n _).mono (fun _ _ h => h) ?_).seq ?_)
  · rintro n' rfl
    exact .of_storage rfl (hbusy _)
  · rintro term n' ⟨hknown, a, rfl⟩
    refine .read ?_
    split
    · exact .fail (.of_storage rfl (hbusy _))
    · rename_i bytes _
      exact .put (.compacted h term bytes hempty (h.terms.termAt_eq hindex hknown) hsnap)

/-- In every state a host reaches, compaction defers to a pending transfer, saves a
newer snapshot with the term of the entry it ends at, and takes only entries that
are applied and that every voter has. -/
theorem compaction_keeps_what_is_needed {h h' : Host} (hb : h.Started) (hrun : h.Run h')
    (env : Env) :
    KeepsNeeded (h'.node.within env) (maybeCompact.after (h'.node.within env)) :=
  maybeCompact_keeps
    (hosted_compactable.within _ env (Host.Run.invariant hosted_compactable
      compactable_fromStorage hb hrun))

/-- Node 2 of three voters, which compacts after every entry. -/
def eagerConfig : NodeConfig :=
  { trioConfig 2 with
    limits :=
      { LimitsConfig.initial with compactionThresholdEntries := 1, compactionMinRetain := 0 } }

def eagerHost : Host := ⟨RaftNode.fromStorage eagerConfig (.empty false) [] (Env.calm 0), none⟩

/-- Two committed entries arrive and are applied. -/
def eagerSteps : List (Env × HostAct) :=
  [(Env.calm 1, .act (.inbound ⟨1, .appendEntries ⟨1, 1, 0, 0, 2, 0⟩ [⟨1, 1, [7]⟩, ⟨1, 2, [7]⟩]⟩)),
    (Env.calm 2, .act .applyNext), (Env.calm 3, .act .applyNext)]

/-- What the host is after them. -/
def eagerNode : RaftNode :=
  (((runSteps Host.stepIn eagerHost eagerSteps).map Host.node).getD eagerHost.node).within
    (Env.calm 4)

/-- The compaction that follows takes entry 1 and keeps entry 2. -/
theorem compaction_keeps_what_is_needed_eager :
    KeepsNeeded eagerNode (maybeCompact.after eagerNode) ∧
      (maybeCompact.after eagerNode).storage.entries = [⟨1, 2, [7]⟩] ∧
      (maybeCompact.after eagerNode).storage.loadSnapshotMeta = some ⟨2, 1⟩ := by
  have hsome : (runSteps Host.stepIn eagerHost eagerSteps).isSome = true := by decide +kernel
  obtain ⟨h, hh⟩ := Option.isSome_iff_exists.mp hsome
  have hnode : eagerNode = h.node.within (Env.calm 4) := by
    rw [eagerNode, hh]
    rfl
  have hrun : eagerHost.Run h :=
    Reaches.refl.steps hh fun _ _ _ => trivial
  refine ⟨?_, by decide +kernel, by decide +kernel⟩
  rw [hnode]
  exact compaction_keeps_what_is_needed ⟨rfl, _, _, _, _, rfl⟩ hrun (Env.calm 4)

end ArbitroRaft
