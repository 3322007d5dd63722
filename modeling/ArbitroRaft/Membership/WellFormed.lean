import ArbitroRaft.Effect.Roll
import ArbitroRaft.Machine.Run
import ArbitroRaft.Membership.Quorums
import ArbitroRaft.Node.ConfigCalls

/-!
# Well-formed memberships

`SoundConfig` is what the quorum arithmetic relies on: every list it counts is
free of duplicates, learners are not voters, and joint voters are the union of
the two sides.  A `Sound` entry keeps a configuration that way whatever the
configuration was, so it does not matter when or how often an entry is adopted.
A leader's progress table has to list the other members, which is what
`reconcile_leader_progress_with_config` restores behind every change.
-/

namespace ArbitroRaft

open Library

/-! ## Entries on the wire -/

theorem length_flatMap_leBytes (count : Nat) (ps : List Nat) :
    (ps.flatMap (leBytes count)).length = ps.length * count := by
  induction ps with
  | nil => simp
  | cons p ps ih =>
    rw [List.flatMap_cons, List.length_append, length_leBytes, ih, List.length_cons]
    ring

theorem readPeers_flatMap {ps : List PeerId} (h : ∀ p ∈ ps, p ≤ u64Max)
    (rest : List UInt8) : readPeers ps.length (ps.flatMap (leBytes 8) ++ rest) = ps := by
  induction ps with
  | nil => rfl
  | cons p ps ih =>
    have hp : p < 256 ^ 8 :=
      Nat.lt_of_le_of_lt (h p List.mem_cons_self) (by decide)
    have hlen : (leBytes 8 p).length = 8 := length_leBytes 8 p
    rw [List.length_cons, readPeers, List.flatMap_cons, List.append_assoc,
      List.take_left' hlen, List.drop_left' hlen, leValue_leBytes hp,
      ih fun q hq => h q (List.mem_cons_of_mem p hq)]

namespace ConfigChangeEntry

/-- The lengths and ids fit their fields. -/
structure Fits (c : ConfigChangeEntry) : Prop where
  old_length : c.oldPeers.length < 2 ^ 32
  new_length : c.newPeers.length < 2 ^ 32
  old_ids : ∀ p ∈ c.oldPeers, p ≤ u64Max
  new_ids : ∀ p ∈ c.newPeers, p ≤ u64Max

theorem ofByte_toByte (phase : ConfigChangePhase) :
    ConfigChangePhase.ofByte phase.toByte = some phase := by
  cases phase <;> rfl

theorem length_encode (c : ConfigChangeEntry) :
    c.encode.length = headerLen + c.oldPeers.length * 8 + c.newPeers.length * 8 := by
  simp only [encode, List.length_append, List.length_cons, List.length_nil,
    length_flatMap_leBytes, length_leBytes, headerLen]

/-- An encoding from the first count on. -/
theorem drop_four_encode (c : ConfigChangeEntry) :
    c.encode.drop 4 = leBytes 4 c.oldPeers.length ++
      (leBytes 4 c.newPeers.length ++ (c.oldPeers.flatMap (leBytes 8) ++
        c.newPeers.flatMap (leBytes 8))) := by
  simp only [encode, List.append_assoc]
  rfl

/-- An encoding from the second count on. -/
theorem drop_eight_encode (c : ConfigChangeEntry) :
    c.encode.drop 8 = leBytes 4 c.newPeers.length ++
      (c.oldPeers.flatMap (leBytes 8) ++ c.newPeers.flatMap (leBytes 8)) := by
  rw [show 8 = 4 + 4 from rfl, ← List.drop_drop, drop_four_encode,
    List.drop_left' (length_leBytes 4 _)]

/-- What was encoded is decoded. -/
theorem decode_encode {c : ConfigChangeEntry} (h : c.Fits) : decode c.encode = some c := by
  obtain ⟨hol, hnl, hoi, hni⟩ := h
  have hold : leValue (leBytes 4 c.oldPeers.length) = c.oldPeers.length :=
    leValue_leBytes (by omega)
  have hnew : leValue (leBytes 4 c.newPeers.length) = c.newPeers.length :=
    leValue_leBytes (by omega)
  have holds : c.encode.drop headerLen =
      c.oldPeers.flatMap (leBytes 8) ++ c.newPeers.flatMap (leBytes 8) := by
    rw [show headerLen = 8 + 4 from rfl, ← List.drop_drop, drop_eight_encode,
      List.drop_left' (length_leBytes 4 _)]
  have hnews : c.encode.drop (headerLen + c.oldPeers.length * 8) =
      c.newPeers.flatMap (leBytes 8) := by
    rw [← List.drop_drop, holds, List.drop_left' (length_flatMap_leBytes 8 _)]
  have hbytes : decodeBody c.phase c.encode = some c := by
    unfold decodeBody
    rw [drop_four_encode, drop_eight_encode, List.take_left' (length_leBytes 4 _),
      List.take_left' (length_leBytes 4 _), hold, hnew, length_encode, if_neg (Nat.lt_irrefl _),
      holds, hnews, readPeers_flatMap hoi]
    have hlast := readPeers_flatMap hni []
    rw [List.append_nil] at hlast
    rw [hlast]
  have hheader : ¬ c.encode.length < headerLen := by
    rw [length_encode]
    omega
  unfold decode
  rw [if_neg hheader, if_neg (fun hne => hne rfl), if_neg (fun hne => hne rfl)]
  change (ConfigChangePhase.ofByte c.phase.toByte).bind _ = _
  rw [ofByte_toByte, Option.bind_some, hbytes]

end ConfigChangeEntry

/-! ## Sound configurations -/

/-- An entry that leaves a sound configuration sound. -/
structure ConfigChangeEntry.Sound (c : ConfigChangeEntry) : Prop extends Fits c where
  old_ne : c.phase = .joint → c.oldPeers ≠ []
  old_nodup : c.oldPeers.Nodup
  new_ne : c.newPeers ≠ []
  new_nodup : c.newPeers.Nodup

/-- Voters and learners are distinct, and joint voters are those of both lists. -/
structure RaftNode.DistinctConfig (n : RaftNode) : Prop where
  peers_nodup : n.config.peers.Nodup
  learners_nodup : n.config.learners.Nodup
  learners_apart : ∀ p ∈ n.config.learners, p ∉ n.config.peers
  joint : ∀ old new, n.jointPeers = some (old, new) → old.Nodup ∧ new.Nodup ∧
    ∀ p, p ∈ n.config.peers ↔ p ∈ old ∨ p ∈ new

structure RaftNode.SoundConfig (n : RaftNode) : Prop extends DistinctConfig n where
  peers_ne : n.config.peers ≠ []

/-- Voter or learner. -/
def RaftNode.Member (n : RaftNode) (p : PeerId) : Prop :=
  p ∈ n.config.peers ∨ p ∈ n.config.learners

instance (n : RaftNode) (p : PeerId) : Decidable (n.Member p) :=
  inferInstanceAs (Decidable (_ ∨ _))

/-- The progress table lists the other members. -/
def RaftNode.TracksMembers (n : RaftNode) : Prop :=
  ∀ p, p ∈ n.peerProgress.keys ↔ n.Member p ∧ p ≠ n.config.nodeId

structure RaftNode.WellFormed (n : RaftNode) : Prop extends RaftNode.SoundConfig n where
  tracks : n.isLeader = true → n.TracksMembers

theorem nodup_mergePeers {old : List PeerId} (h : old.Nodup) (new : List PeerId) :
    (RaftNode.mergePeers old new).Nodup := by
  unfold RaftNode.mergePeers
  induction new generalizing old with
  | nil => exact h
  | cons p ps ih =>
    rw [List.foldl_cons]
    apply ih
    split
    · exact h
    · rename_i hp
      exact List.nodup_append.mpr ⟨h, List.nodup_singleton p, by
        intro a ha b hb hab
        rw [List.mem_singleton] at hb
        exact hp (hb ▸ hab ▸ ha)⟩

/-- The learners an `AddLearner` entry leaves: known ones and new ones that are
not voters, none twice. -/
theorem foldl_addLearner {peers : List PeerId} (new : List PeerId) {learners : List PeerId}
    (hnodup : learners.Nodup) (hapart : ∀ p ∈ learners, p ∉ peers) :
    (new.foldl (fun ls p => if p ∉ peers ∧ p ∉ ls then ls ++ [p] else ls) learners).Nodup ∧
    ∀ p ∈ new.foldl (fun ls p => if p ∉ peers ∧ p ∉ ls then ls ++ [p] else ls) learners,
      p ∉ peers ∧ (p ∈ learners ∨ p ∈ new) := by
  induction new generalizing learners with
  | nil => exact ⟨hnodup, fun p hp => ⟨hapart p hp, .inl hp⟩⟩
  | cons x xs ih =>
    rw [List.foldl_cons]
    split
    · rename_i hx
      have hnodup' : (learners ++ [x]).Nodup := List.nodup_append.mpr
        ⟨hnodup, List.nodup_singleton x, by
          intro a ha b hb hab
          rw [List.mem_singleton] at hb
          exact hx.2 (hb ▸ hab ▸ ha)⟩
      have hapart' : ∀ p ∈ learners ++ [x], p ∉ peers := by
        intro p hp
        rcases List.mem_append.mp hp with hp | hp
        · exact hapart p hp
        · rw [List.mem_singleton] at hp
          exact hp ▸ hx.1
      obtain ⟨hn, hm⟩ := ih hnodup' hapart'
      refine ⟨hn, fun p hp => ⟨(hm p hp).1, ?_⟩⟩
      rcases (hm p hp).2 with h | h
      · rcases List.mem_append.mp h with h | h
        · exact .inl h
        · rw [List.mem_singleton] at h
          exact .inr (h ▸ List.mem_cons_self)
      · exact .inr (List.mem_cons_of_mem x h)
    · obtain ⟨hn, hm⟩ := ih hnodup hapart
      exact ⟨hn, fun p hp => ⟨(hm p hp).1, (hm p hp).2.imp_right (List.mem_cons_of_mem x)⟩⟩

namespace RaftNode.SoundConfig

variable {n n' : RaftNode} {entry : ConfigChangeEntry}

theorem congr (h : n.SoundConfig) (hs : SameRoll n n') : n'.SoundConfig := by
  obtain ⟨⟨hpeers, hlearners, hapart, hjoint⟩, hne⟩ := h
  rw [← hs.config] at hpeers hlearners hapart hjoint hne
  rw [← hs.joint] at hjoint
  exact ⟨⟨hpeers, hlearners, hapart, hjoint⟩, hne⟩

theorem setPeers (h : n.SoundConfig) {peers : List PeerId}
    {joint : Option (List PeerId × List PeerId)} (hne : peers ≠ []) (hnodup : peers.Nodup)
    (hjoint : ∀ old new, joint = some (old, new) → old.Nodup ∧ new.Nodup ∧
      ∀ p, p ∈ peers ↔ p ∈ old ∨ p ∈ new) : (n.setPeers peers joint).SoundConfig where
  peers_ne := hne
  peers_nodup := hnodup
  learners_nodup := h.learners_nodup.filter _
  learners_apart _ hp := of_decide_eq_true (List.mem_filter.mp hp).2
  joint := hjoint

/-- Whatever is in force, a sound entry leads to a sound configuration. -/
theorem adoptConfig (h : n.SoundConfig) (hc : entry.Sound) : (n.adoptConfig entry).SoundConfig := by
  unfold RaftNode.adoptConfig
  cases hphase : entry.phase with
  | joint =>
    refine h.setPeers ?_ (nodup_mergePeers hc.old_nodup _) ?_
    · obtain ⟨p, hp⟩ := List.exists_mem_of_ne_nil _ (hc.old_ne hphase)
      exact List.ne_nil_of_mem (mem_mergePeers.mpr (.inl hp))
    · intro old new heq
      cases heq
      exact ⟨hc.old_nodup, hc.new_nodup, fun p => mem_mergePeers⟩
  | final => exact h.setPeers hc.new_ne hc.new_nodup fun _ _ heq => nomatch heq
  | addLearner =>
    have hfold := foldl_addLearner entry.newPeers h.learners_nodup h.learners_apart
    exact ⟨⟨h.peers_nodup, hfold.1, fun p hp => (hfold.2 p hp).1, h.joint⟩, h.peers_ne⟩
  | removeLearner =>
    exact ⟨⟨h.peers_nodup, h.learners_nodup.filter _,
      fun p hp => h.learners_apart p (List.mem_of_mem_filter hp), h.joint⟩, h.peers_ne⟩

end RaftNode.SoundConfig

/-- Adopting an entry brings in nobody but the peers it names. -/
theorem member_of_adoptConfig {n : RaftNode} {entry : ConfigChangeEntry} {p : PeerId}
    (h : n.SoundConfig) (hp : (n.adoptConfig entry).Member p) :
    n.Member p ∨ p ∈ entry.oldPeers ∨ p ∈ entry.newPeers := by
  unfold RaftNode.adoptConfig RaftNode.Member at hp
  cases hphase : entry.phase with
  | joint =>
    rw [hphase] at hp
    rcases hp with hp | hp
    · exact .inr (RaftNode.mem_mergePeers.mp hp)
    · exact .inl (.inr (List.mem_of_mem_filter hp))
  | final =>
    rw [hphase] at hp
    rcases hp with hp | hp
    · exact .inr (.inr hp)
    · exact .inl (.inr (List.mem_of_mem_filter hp))
  | addLearner =>
    rw [hphase] at hp
    rcases hp with hp | hp
    · exact .inl (.inl hp)
    · rcases ((foldl_addLearner entry.newPeers h.learners_nodup h.learners_apart).2 p hp).2
        with hp | hp
      · exact .inl (.inr hp)
      · exact .inr (.inr hp)
  | removeLearner =>
    rw [hphase] at hp
    rcases hp with hp | hp
    · exact .inl (.inl hp)
    · exact .inl (.inr (List.mem_of_mem_filter hp))

/-! ## The progress table -/

section Progress

variable {n : RaftNode}

theorem foldl_dropPeer (stale : List PeerId) (h : n.peerProgress.keys.Nodup) :
    (stale.foldl RaftNode.dropPeer n).peerProgress.keys.Nodup ∧
    ∀ p, p ∈ (stale.foldl RaftNode.dropPeer n).peerProgress.keys ↔
      p ∉ stale ∧ p ∈ n.peerProgress.keys := by
  induction stale generalizing n with
  | nil => exact ⟨h, fun p => by simp⟩
  | cons x xs ih =>
    rw [List.foldl_cons]
    have hdrop : (n.dropPeer x).peerProgress.keys.Nodup := PeerMap.nodup_keys_remove x h
    obtain ⟨hn, hm⟩ := ih hdrop
    refine ⟨hn, fun p => ?_⟩
    have hx : p ∈ (n.dropPeer x).peerProgress.keys ↔ p ≠ x ∧ p ∈ n.peerProgress.keys :=
      PeerMap.mem_keys_remove h
    rw [hm p, hx, List.mem_cons, not_or]
    tauto

theorem foldl_addProgress (members : List PeerId) (h : n.peerProgress.keys.Nodup) :
    (members.foldl RaftNode.addProgress n).peerProgress.keys.Nodup ∧
    ∀ p, p ∈ (members.foldl RaftNode.addProgress n).peerProgress.keys ↔
      p ∈ n.peerProgress.keys ∨ p ∈ members ∧ p ≠ n.config.nodeId := by
  induction members generalizing n with
  | nil => exact ⟨h, fun p => by simp⟩
  | cons x xs ih =>
    rw [List.foldl_cons]
    have hstep : (n.addProgress x).peerProgress.keys.Nodup ∧
        ∀ p, p ∈ (n.addProgress x).peerProgress.keys ↔
          p ∈ n.peerProgress.keys ∨ p = x ∧ p ≠ n.config.nodeId := by
      unfold RaftNode.addProgress
      split
      · rename_i hx
        refine ⟨h, fun p => ⟨.inl, ?_⟩⟩
        rintro (hp | ⟨rfl, hp⟩)
        · exact hp
        · exact PeerMap.mem_keys_iff.mpr (hx.resolve_left hp)
      · rename_i hx
        rw [not_or] at hx
        have hnew : x ∉ n.peerProgress.keys := fun hmem =>
          hx.2 (PeerMap.mem_keys_iff.mp hmem)
        refine ⟨PeerMap.nodup_keys_insert x _ h, fun p => ?_⟩
        dsimp only
        rw [PeerMap.keys_insert_of_not_mem _ hnew, List.mem_append, List.mem_singleton]
        constructor
        · rintro (hp | rfl)
          · exact .inl hp
          · exact .inr ⟨rfl, hx.1⟩
        · rintro (hp | ⟨rfl, -⟩)
          · exact .inl hp
          · exact .inr rfl
    obtain ⟨hn, hm⟩ := ih hstep.1
    refine ⟨hn, fun p => ?_⟩
    rw [hm p, hstep.2 p, (SameRoll.addProgress n x).config, List.mem_cons]
    tauto

/-- Behind a change a leader tracks exactly the other members. -/
theorem tracksMembers_settleConfig (hnodup : n.peerProgress.keys.Nodup)
    (hself : n.config.nodeId ∉ n.peerProgress.keys) (hl : n.isLeader = true) :
    n.settleConfig.peerProgress.keys.Nodup ∧ n.settleConfig.TracksMembers := by
  have hroll := SameRoll.settleConfig n
  unfold RaftNode.TracksMembers RaftNode.Member
  rw [hroll.config]
  unfold RaftNode.settleConfig RaftNode.reconcileLeaderProgressWithConfig
  rw [if_pos hl]
  dsimp only
  obtain ⟨hdropped, hkept⟩ := foldl_dropPeer (n.peerProgress.keys.filter
    (fun p => decide (p ∉ n.config.peers ∧ p ∉ n.config.learners))) hnodup
  have hconfig := (SameRoll.foldl (f := RaftNode.dropPeer) (fun _ _ => ⟨rfl, rfl⟩)
    (n.peerProgress.keys.filter
      (fun p => decide (p ∉ n.config.peers ∧ p ∉ n.config.learners))) n).config
  rw [hconfig]
  obtain ⟨hadded, hall⟩ := foldl_addProgress (n.config.peers ++ n.config.learners) hdropped
  refine ⟨hadded, fun p => ?_⟩
  rw [hall p, hkept p, hconfig, List.mem_append, List.mem_filter, decide_eq_true_eq]
  constructor
  · rintro (⟨hstale, hp⟩ | h)
    · refine ⟨?_, fun heq => hself (heq ▸ hp)⟩
      by_contra hout
      exact hstale ⟨hp, not_or.mp hout⟩
    · exact h
  · exact .inr

/-- A new leader tracks exactly the other members. -/
theorem tracksMembers_atStart (n : RaftNode) :
    n.initializeLeaderProgress.peerProgress.keys.Nodup ∧
      n.initializeLeaderProgress.TracksMembers := by
  refine ⟨nodup_foldl_insert _ _ List.nodup_nil, fun p => ?_⟩
  change p ∈ PeerMap.keys (List.foldl (fun m q => m.insert q n.freshProgress) PeerMap.empty
    (n.otherPeers ++ n.config.learners.filter (fun p => decide (p ≠ n.config.nodeId)))) ↔
      (p ∈ n.config.peers ∨ p ∈ n.config.learners) ∧ p ≠ n.config.nodeId
  rw [mem_keys_foldl_insert, List.mem_append, RaftNode.otherPeers, List.mem_filter,
    List.mem_filter, decide_eq_true_eq, PeerMap.keys_empty]
  simp only [List.not_mem_nil, false_or]
  tauto

end Progress

/-! ## What every effect keeps -/

/-- A payload is an application payload or one of the changes `P`. -/
def Vetted (P : ConfigChangeEntry → Prop) (payload : EntryPayload) : Prop :=
  ∀ c, ConfigChangeEntry.decode payload = some c → P c

/-- The changes a frame carries are among `P`. -/
def InboundRaftMessage.Vetted (P : ConfigChangeEntry → Prop) (f : InboundRaftMessage) : Prop :=
  ∀ msg entries, f.append? = some (msg, entries) → ∀ e ∈ entries, ArbitroRaft.Vetted P e.payload

/-- A well-formed node with a proper progress table, whose members have `u64`
ids. -/
structure RaftNode.Roster (n : RaftNode) : Prop extends RaftNode.WellFormed n where
  keys_nodup : n.peerProgress.keys.Nodup
  ids : ∀ p, n.Member p → p ≤ u64Max

/-- The same, and the logged changes are among `P`. -/
structure RaftNode.Vetted (P : ConfigChangeEntry → Prop) (n : RaftNode) : Prop
    extends RaftNode.Roster n where
  log : ∀ e ∈ n.storage.entries, ArbitroRaft.Vetted P e.payload

/-- What a scope may bring in is among `P`. -/
structure Scope.Vetted (P : ConfigChangeEntry → Prop) (sc : Scope) : Prop where
  frames : ∀ f, sc.rx f → f.Vetted P
  batches : ∀ payloads, sc.batch payloads → ∀ p ∈ payloads, ArbitroRaft.Vetted P p
  changes : ∀ c, sc.change c → P c

section Vetted

variable {P : ConfigChangeEntry → Prop} {sc : Scope} {n n' : RaftNode}

theorem latestConfig_vetted {entries : List LogEntry} {c : ConfigChangeEntry}
    (h : latestConfig entries = some c) (hv : ∀ e ∈ entries, Vetted P e.payload) : P c := by
  unfold latestConfig at h
  obtain ⟨e, he, hdec⟩ := List.exists_of_findSome?_eq_some h
  exact hv e (List.mem_reverse.mp he) c hdec

theorem Receives.vetted {sender : PeerId} {msg : AppendEntries} {entries : List LogEntry}
    (hsc : sc.Vetted P) (h : Receives sc n sender msg entries) :
    ∀ e ∈ entries, Vetted P e.payload := by
  rcases h.rx with hrx | hrx
  · exact hsc.frames _ hrx msg entries rfl
  · exact hsc.frames _ hrx msg entries rfl

theorem Effect.log_vetted (hsc : sc.Vetted P) (h : Effect sc n n')
    (hn : ∀ e ∈ n.storage.entries, Vetted P e.payload) :
    ∀ e ∈ n'.storage.entries, Vetted P e.payload := by
  intro e he
  rcases h.logged he with he | ⟨sender, msg, entries, hr, he⟩ | ⟨payloads, hb, hp⟩
  · exact hn e he
  · exact hr.vetted hsc e he
  · exact hsc.batches payloads hb _ hp

theorem member_congr (h : SameRoll n n') {p : PeerId} : n'.Member p ↔ n.Member p := by
  unfold RaftNode.Member
  rw [h.config]

theorem tracksMembers_of_keys (h : n.TracksMembers) (hs : SameRoll n n')
    (hk : n'.peerProgress.keys = n.peerProgress.keys) : n'.TracksMembers := by
  intro p
  rw [hk, member_congr hs, hs.config]
  exact h p

namespace RaftNode.Roster

theorem of_unled (h : n.Roster) (hs : SameRoll n n') (hl : n'.isLeader = false)
    (hk : n'.peerProgress.keys.Nodup) : n'.Roster where
  toSoundConfig := h.toSoundConfig.congr hs
  tracks hlead := by
    rw [hl] at hlead
    cases hlead
  keys_nodup := hk
  ids p hp := h.ids p ((member_congr hs).mp hp)

theorem of_keys (h : n.Roster) (hs : SameRoll n n') (hl : n'.isLeader = n.isLeader)
    (hk : n'.peerProgress.keys = n.peerProgress.keys) : n'.Roster where
  toSoundConfig := h.toSoundConfig.congr hs
  tracks hlead := tracksMembers_of_keys (h.tracks (hl.symm.trans hlead)) hs hk
  keys_nodup := hk ▸ h.keys_nodup
  ids p hp := h.ids p ((member_congr hs).mp hp)

theorem initialized (h : n.Roster) (hs : SameRoll n n') :
    n'.initializeLeaderProgress.Roster where
  toSoundConfig := h.toSoundConfig.congr ⟨hs.config, hs.joint⟩
  tracks _ := (tracksMembers_atStart n').2
  keys_nodup := (tracksMembers_atStart n').1
  ids p hp := h.ids p ((member_congr hs).mp hp)

variable {entry : ConfigChangeEntry}

theorem ids_adoptConfig (h : n.Roster) (hc : entry.Sound) (p : PeerId)
    (hp : (n.adoptConfig entry).Member p) : p ≤ u64Max := by
  rcases member_of_adoptConfig h.toSoundConfig hp with hp | hp | hp
  · exact h.ids p hp
  · exact hc.old_ids p hp
  · exact hc.new_ids p hp

theorem adopted (h : n.Roster) (hc : entry.Sound) (hs : SameRoll (n.adoptConfig entry) n')
    (hl : n'.isLeader = false) (hk : n'.peerProgress = n.peerProgress) : n'.Roster where
  toSoundConfig := (h.toSoundConfig.adoptConfig hc).congr hs
  tracks hlead := by
    rw [hl] at hlead
    cases hlead
  keys_nodup := hk ▸ h.keys_nodup
  ids p hp := h.ids_adoptConfig hc p ((member_congr hs).mp hp)

/-- A change of the configuration alone, brought in line by the leader. -/
theorem settled (h : n.Roster) (hconfig : n'.SoundConfig) (hid : n'.config.nodeId = n.config.nodeId)
    (hrole : n'.isLeader = n.isLeader) (hk : n'.peerProgress = n.peerProgress)
    (hids : ∀ p, n'.Member p → p ≤ u64Max) : n'.settleConfig.Roster := by
  have hroll := SameRoll.settleConfig n'
  have hnodup : n'.peerProgress.keys.Nodup := hk ▸ h.keys_nodup
  have hids' : ∀ p, n'.settleConfig.Member p → p ≤ u64Max :=
    fun p hp => hids p ((member_congr hroll).mp hp)
  cases hl : n'.isLeader with
  | false =>
    have hsame : n'.settleConfig = n' := if_neg (by rw [hl]; exact Bool.false_ne_true)
    rw [hsame] at hids' ⊢
    exact ⟨⟨hconfig, fun hlead => absurd (hl.symm.trans hlead) Bool.false_ne_true⟩,
      hnodup, hids'⟩
  | true =>
    have hself : n'.config.nodeId ∉ n'.peerProgress.keys := by
      rw [hid, hk]
      intro hmem
      exact ((h.tracks (hrole.symm.trans hl) _).mp hmem).2 rfl
    obtain ⟨hkeys, htracks⟩ := tracksMembers_settleConfig hnodup hself hl
    exact ⟨⟨hconfig.congr hroll, fun _ => htracks⟩, hkeys, hids'⟩

theorem reconfigured (h : n.Roster) (hc : entry.Sound) :
    (n.adoptConfig entry).settleConfig.Roster :=
  h.settled (h.toSoundConfig.adoptConfig hc) (SameSide.adoptConfig n entry).nodeId
    (by rw [RaftNode.isLeader, role_adoptConfig, RaftNode.isLeader])
    (peerProgress_adoptConfig n entry) (h.ids_adoptConfig hc)

end RaftNode.Roster

theorem Effect.roster (hP : ∀ c, P c → c.Sound) (hsc : sc.Vetted P) (h : Effect sc n n')
    (hn : n.Roster) : n'.Roster := by
  cases h.roll with
  | same _ hs => exact hn.of_keys hs.toSameRoll hs.isLeader (congrArg _ hs.progress)
  | left _ hs hl hk =>
    refine hn.of_unled hs hl ?_
    rcases hk with hk | hk
    · exact hk ▸ hn.keys_nodup
    · exact hk ▸ List.nodup_nil
  | crowned => exact hn.initialized ⟨rfl, rfl⟩
  | initialized => exact hn.initialized ⟨rfl, rfl⟩
  | progressed peer old p hget => exact hn.of_keys ⟨rfl, rfl⟩ rfl (keys_setProgress hget)
  | adopted _ sender msg entries entry hr hlatest hs hl hk =>
    have hc : P entry := latestConfig_vetted hlatest fun e he =>
      hr.vetted hsc e (RaftNode.mem_of_mem_fresh he)
    exact hn.adopted (hP entry hc) hs hl hk
  | reconfigured entry hch => exact hn.reconfigured (hP entry (hsc.changes entry hch))

/-- Every effect keeps the membership well-formed and the log vetted. -/
theorem Effect.vetted (hP : ∀ c, P c → c.Sound) (hsc : sc.Vetted P) (h : Effect sc n n')
    (hn : n.Vetted P) : n'.Vetted P :=
  ⟨h.roster hP hsc hn.toRoster, h.log_vetted hsc hn.log⟩

/-- So does whatever is a chain of effects. -/
theorem Moves.vetted (hP : ∀ c, P c → c.Sound) (hsc : sc.Vetted P) (hns : ¬ sc.strict)
    (h : Moves sc n n') (hn : n.Vetted P) : n'.Vetted P :=
  h.preserves hns hn fun _ _ hm he => he.vetted hP hsc hm

end Vetted

end ArbitroRaft
