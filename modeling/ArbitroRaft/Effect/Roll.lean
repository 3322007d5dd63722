import ArbitroRaft.Effect.Frame

/-!
# What an effect does to the membership

The membership of a node is its configuration and the joint lists.  `Effect.roll`
sorts an effect by what it does to the membership and to the leader's progress
table: nearly all leave both alone, a follower adopts the newest change of a
batch, and a committed or requested change is put in force.

`Effect.logged` says where the entries of the log come from.
-/

namespace ArbitroRaft

open Library

/-- The same membership. -/
structure SameRoll (n n' : RaftNode) : Prop where
  config : n'.config = n.config
  joint : n'.jointPeers = n.jointPeers

/-- The same membership, role and progress table. -/
structure SameOffice (n n' : RaftNode) : Prop extends SameRoll n n' where
  role : n'.softState.role = n.softState.role
  progress : n'.peerProgress = n.peerProgress

namespace SameOffice

variable {n n' n'' : RaftNode}

theorem refl (n : RaftNode) : SameOffice n n := ⟨⟨rfl, rfl⟩, rfl, rfl⟩

theorem trans (h : SameOffice n n') (h' : SameOffice n' n'') : SameOffice n n'' :=
  ⟨⟨h'.config.trans h.config, h'.joint.trans h.joint⟩, h'.role.trans h.role,
    h'.progress.trans h.progress⟩

theorem of_core (h : n'.core = n.core) : SameOffice n n' where
  config := congrArg Core.config h
  joint := congrArg Core.jointPeers h
  role := congrArg Core.role h
  progress := congrArg Core.peerProgress h

theorem isLeader (h : SameOffice n n') : n'.isLeader = n.isLeader := by
  unfold RaftNode.isLeader
  rw [h.role]

theorem cutAt (n : RaftNode) (rest : List LogEntry) : SameOffice n (n.cutAt rest) := by
  cases rest <;> exact ⟨⟨rfl, rfl⟩, rfl, rfl⟩

theorem spliced (n : RaftNode) (msg : AppendEntries) (entries : List LogEntry) :
    SameOffice n (n.spliced msg entries) := by
  unfold RaftNode.spliced
  cases n.scan msg entries with
  | malformed => exact refl n
  | matched => exact refl n
  | conflict rest => cases rest <;> exact ⟨⟨rfl, rfl⟩, rfl, rfl⟩
  | missing rest => exact ⟨⟨rfl, rfl⟩, rfl, rfl⟩

theorem adopted (n : RaftNode) (leaderCommit : Nat) : SameOffice n (n.adopted leaderCommit) := by
  unfold RaftNode.adopted
  split <;> exact ⟨⟨rfl, rfl⟩, rfl, rfl⟩

theorem replied (n : RaftNode) (reply : Bool) (peer : PeerId) (msg : RaftMessage) :
    SameOffice n (n.replied reply peer msg) := by
  cases reply <;> exact ⟨⟨rfl, rfl⟩, rfl, rfl⟩

theorem commitSnapshot (n : RaftNode) (m : SnapshotMeta) : SameOffice n (n.commitSnapshot m) := by
  unfold RaftNode.commitSnapshot
  split <;> exact ⟨⟨rfl, rfl⟩, rfl, rfl⟩

theorem completeSnapshot (n : RaftNode) (m : SnapshotMeta) (bytes : List UInt8) :
    SameOffice n (n.completeSnapshot m bytes) := by
  have hsave : SameOffice n { n with storage := n.storage.saveSnapshot m bytes } :=
    ⟨⟨rfl, rfl⟩, rfl, rfl⟩
  have hcommit := hsave.trans (commitSnapshot _ m)
  exact hcommit.trans ⟨⟨rfl, rfl⟩, rfl, rfl⟩

theorem restoredFrom (n : RaftNode) (m : SnapshotMeta) : SameOffice n (n.restoredFrom m) :=
  (commitSnapshot n m).trans ⟨⟨rfl, rfl⟩, rfl, rfl⟩

end SameOffice

theorem SameRoll.trans {n n' n'' : RaftNode} (h : SameRoll n n') (h' : SameRoll n' n'') :
    SameRoll n n'' :=
  ⟨h'.config.trans h.config, h'.joint.trans h.joint⟩

/-! ## Adopting a change -/

section Adopt

variable (n n' : RaftNode) (entry : ConfigChangeEntry)

@[simp] theorem role_adoptConfig : (n.adoptConfig entry).softState.role = n.softState.role := by
  unfold RaftNode.adoptConfig
  cases entry.phase <;> rfl

@[simp] theorem peerProgress_adoptConfig : (n.adoptConfig entry).peerProgress = n.peerProgress := by
  unfold RaftNode.adoptConfig
  cases entry.phase <;> rfl

/-- What is adopted depends on the membership only. -/
theorem SameRoll.adoptConfig {n n' : RaftNode} (h : SameRoll n n')
    (entry : ConfigChangeEntry) : SameRoll (n.adoptConfig entry) (n'.adoptConfig entry) := by
  unfold RaftNode.adoptConfig
  cases entry.phase with
  | joint => exact ⟨by simp only [RaftNode.setPeers, h.config], rfl⟩
  | final => exact ⟨by simp only [RaftNode.setPeers, h.config], rfl⟩
  | addLearner => exact ⟨by simp only [RaftNode.setLearners, h.config], h.joint⟩
  | removeLearner => exact ⟨by simp only [RaftNode.setLearners, h.config], h.joint⟩

theorem SameRoll.foldl {α : Type*} {f : RaftNode → α → RaftNode}
    (h : ∀ n a, SameRoll n (f n a)) (l : List α) (n : RaftNode) : SameRoll n (l.foldl f n) := by
  induction l generalizing n with
  | nil => exact ⟨rfl, rfl⟩
  | cons a l ih => exact (h n a).trans (ih (f n a))

theorem SameRoll.addProgress (n : RaftNode) (peer : PeerId) : SameRoll n (n.addProgress peer) := by
  unfold RaftNode.addProgress
  split <;> exact ⟨rfl, rfl⟩

/-- The progress table follows the membership, not the other way round. -/
theorem SameRoll.settleConfig (n : RaftNode) : SameRoll n n.settleConfig := by
  unfold RaftNode.settleConfig RaftNode.reconcileLeaderProgressWithConfig
  split
  · have hdrop : ∀ (m : RaftNode) (p : PeerId), SameRoll m (m.dropPeer p) :=
      fun m p => ⟨rfl, rfl⟩
    exact (SameRoll.foldl hdrop _ n).trans (SameRoll.foldl SameRoll.addProgress _ _)
  · exact ⟨rfl, rfl⟩

end Adopt

theorem role_tookOver (n : RaftNode) (msg : AppendEntries) (entries : List LogEntry) :
    (n.tookOver msg entries).softState.role = n.softState.role := by
  have hspliced := (SameOffice.spliced n msg entries).role
  have hact (rest : List LogEntry) :
      ((n.spliced msg entries).activated rest).softState.role = n.softState.role := by
    unfold RaftNode.activated
    split
    · rw [role_adoptConfig, hspliced]
    · exact hspliced
  unfold RaftNode.tookOver
  cases n.scan msg entries with
  | malformed => rfl
  | matched => rfl
  | conflict rest => exact hact rest
  | missing rest => exact hact rest

variable {n n' : RaftNode} {sc : Scope} {msg : AppendEntries} {entries : List LogEntry}
  {e : LogEntry}

theorem keys_setProgress {peer : PeerId} {old p : PeerProgress}
    (h : n.peerProgress.get peer = some old) :
    (n.setProgress peer p).peerProgress.keys = n.peerProgress.keys := by
  refine PeerMap.keys_insert_of_mem p (PeerMap.mem_keys_iff.mpr ?_)
  rw [h]
  rfl

/-! ## Effects -/

/-- An effect, as seen from the membership. -/
inductive RollEffect (sc : Scope) (n : RaftNode) : RaftNode → Prop
  | same (n' : RaftNode) : SameOffice n n' → RollEffect sc n n'
  | left (n' : RaftNode) : SameRoll n n' → n'.isLeader = false →
      n'.peerProgress = n.peerProgress ∨ n'.peerProgress = PeerMap.empty →
      RollEffect sc n n'
  | crowned : RollEffect sc n n.becomeLeader
  | initialized : RollEffect sc n n.initializeLeaderProgress
  | progressed (peer : PeerId) (old p : PeerProgress) : n.peerProgress.get peer = some old →
      RollEffect sc n (n.setProgress peer p)
  | adopted (n' : RaftNode) (sender : PeerId) (msg : AppendEntries)
      (entries : List LogEntry) (entry : ConfigChangeEntry) :
      Receives sc n sender msg entries → latestConfig (n.fresh msg entries) = some entry →
      SameRoll (n.adoptConfig entry) n' → n'.isLeader = false →
      n'.peerProgress = n.peerProgress → RollEffect sc n n'
  | reconfigured (entry : ConfigChangeEntry) : sc.change entry → entry.isRefused = false →
      RollEffect sc n (n.adoptConfig entry).settleConfig

theorem isLeader_eq_false_of_role (h : n.softState.role = .follower) : n.isLeader = false := by
  simp [RaftNode.isLeader, h]

/-- An accepted batch: the follower keeps its membership or adopts the newest
change of what is stored. -/
theorem Receives.roll {sender : PeerId} (h : Receives sc n sender msg entries) (reply : Bool)
    (answer : RaftMessage) :
    RollEffect sc n
      (((n.tookOver msg entries).adopted msg.leaderCommit).replied reply sender answer) := by
  have htail := (SameOffice.adopted (n.tookOver msg entries) msg.leaderCommit).trans
    (SameOffice.replied _ reply sender answer)
  have hspliced := SameOffice.spliced n msg entries
  have hact : ∀ rest, n.fresh msg entries = rest →
      n.tookOver msg entries = (n.spliced msg entries).activated rest →
      RollEffect sc n
        (((n.tookOver msg entries).adopted msg.leaderCommit).replied reply sender answer) := by
    intro rest hfresh htook
    unfold RaftNode.activated at htook
    cases hlatest : latestConfig rest with
    | none =>
      rw [hlatest] at htook
      rw [htook] at htail ⊢
      exact .same _ (hspliced.trans htail)
    | some entry =>
      rw [hlatest] at htook
      rw [htook] at htail ⊢
      have hroll := (hspliced.toSameRoll.adoptConfig entry).trans htail.toSameRoll
      refine .adopted _ sender msg entries entry h (hfresh ▸ hlatest) hroll ?_ ?_
      · apply isLeader_eq_false_of_role
        rw [htail.role, role_adoptConfig, hspliced.role]
        exact h.role
      · rw [htail.progress, peerProgress_adoptConfig, hspliced.progress]
  unfold RaftNode.tookOver RaftNode.fresh at *
  cases hscan : n.scan msg entries with
  | malformed =>
    rw [hscan] at htail
    exact .same _ htail
  | matched =>
    rw [hscan] at htail
    exact .same _ htail
  | conflict rest =>
    rw [hscan] at hact
    exact hact rest rfl rfl
  | missing rest =>
    rw [hscan] at hact
    exact hact rest rfl rfl

theorem HardEffect.sameRoll (h : HardEffect sc n n') : SameRoll n n' := by
  cases h with
  | granted sender msg reply => cases reply <;> exact ⟨rfl, rfl⟩
  | _ => exact ⟨rfl, rfl⟩

theorem HardEffect.roll (h : HardEffect sc n n') : RollEffect sc n n' := by
  cases h with
  | steppedDown t => exact .left _ ⟨rfl, rfl⟩ rfl (.inr rfl)
  | abdicated => exact .left _ ⟨rfl, rfl⟩ rfl (.inr rfl)
  | stood => exact .left _ ⟨rfl, rfl⟩ rfl (.inl rfl)
  | standFailed => exact .left _ ⟨rfl, rfl⟩ rfl (.inl rfl)
  | granted sender msg reply => cases reply <;> exact .same _ ⟨⟨rfl, rfl⟩, rfl, rfl⟩
  | _ => exact .same _ ⟨⟨rfl, rfl⟩, rfl, rfl⟩

theorem Effect.roll (h : Effect sc n n') : RollEffect sc n n' := by
  cases h with
  | quiet _ hq => exact .same _ (SameOffice.of_core hq)
  | hard _ hh => exact hh.roll
  | log _ hl =>
    cases hl with
    | cut sender msg entries rest => exact .same _ (SameOffice.cutAt n rest)
    | spliced sender msg entries => exact .same _ (SameOffice.spliced n msg entries)
    | accepted sender msg entries reply hr => exact hr.roll reply _
    | installed sender msg chunk bytes => exact .same _ (SameOffice.completeSnapshot _ _ _)
    | restored m => exact .same _ (SameOffice.restoredFrom _ _)
    | _ => exact .same _ ⟨⟨rfl, rfl⟩, rfl, rfl⟩
  | demoted => exact .left _ ⟨rfl, rfl⟩ rfl (.inr rfl)
  | followed leaderId => exact .left _ ⟨rfl, rfl⟩ rfl (.inl rfl)
  | crowned => exact .crowned
  | initialized => exact .initialized
  | progressed peer old p resp _ _ _ hget _ => exact .progressed peer old p hget
  | rebased peer old p _ hget _ => exact .progressed peer old p hget
  | reconfigured entry _ hch hvalid => exact .reconfigured entry hch hvalid
  | _ => exact .same _ ⟨⟨rfl, rfl⟩, rfl, rfl⟩

/-! ## Where entries come from -/

theorem RaftNode.mem_of_mem_fresh (h : e ∈ n.fresh msg entries) : e ∈ entries := by
  unfold RaftNode.fresh at h
  cases hscan : n.scan msg entries with
  | malformed => simp [hscan] at h
  | matched => simp [hscan] at h
  | conflict rest =>
    rw [hscan] at h
    obtain ⟨pre, x, tl, t, rfl, rfl, -⟩ := scanEntries_conflict hscan
    exact List.mem_append_right pre h
  | missing rest =>
    rw [hscan] at h
    obtain ⟨pre, x, tl, rfl, rfl, -⟩ := scanEntries_missing hscan
    exact List.mem_append_right pre h

theorem mem_of_mem_cutAt {rest : List LogEntry} (h : e ∈ (n.cutAt rest).storage.entries) :
    e ∈ n.storage.entries := by
  cases rest with
  | nil => exact h
  | cons x xs => exact List.mem_of_mem_filter h

theorem mem_spliced (h : e ∈ (n.spliced msg entries).storage.entries) :
    e ∈ n.storage.entries ∨ e ∈ n.fresh msg entries := by
  unfold RaftNode.spliced at h
  unfold RaftNode.fresh
  cases hscan : n.scan msg entries with
  | malformed => exact .inl (by simpa only [hscan] using h)
  | matched => exact .inl (by simpa only [hscan] using h)
  | conflict rest =>
    rw [hscan] at h
    rcases List.mem_append.mp h with h | h
    · exact .inl (mem_of_mem_cutAt h)
    · exact .inr h
  | missing rest =>
    rw [hscan] at h
    exact List.mem_append.mp h

theorem mem_of_mem_anchorOnSnapshot {m : SnapshotMeta}
    (h : e ∈ (n.anchorOnSnapshot m).storage.entries) : e ∈ n.storage.entries := by
  unfold RaftNode.anchorOnSnapshot at h
  dsimp only at h
  split at h <;> exact List.mem_of_mem_filter h

theorem payload_mem_of_mem_buildBatch {term index : Nat} {payloads : List EntryPayload}
    (h : e ∈ buildBatch term index payloads) : e.payload ∈ payloads := by
  induction payloads generalizing index with
  | nil => simp [buildBatch] at h
  | cons p ps ih =>
    rw [buildBatch, List.mem_cons] at h
    rcases h with rfl | h
    · exact List.mem_cons_self
    · exact List.mem_cons_of_mem p (ih h)

/-- An entry of the log was there, was received or was proposed. -/
theorem Effect.logged (h : Effect sc n n') (he : e ∈ n'.storage.entries) :
    e ∈ n.storage.entries ∨
      (∃ sender msg entries, Receives sc n sender msg entries ∧ e ∈ entries) ∨
      ∃ payloads, sc.batch payloads ∧ e.payload ∈ payloads := by
  rcases h.store with hs | hl
  · exact .inl (hs.entries ▸ he)
  · cases hl with
    | cut sender msg entries rest => exact .inl (mem_of_mem_cutAt he)
    | spliced sender msg entries hr =>
      rcases mem_spliced he with he | he
      · exact .inl he
      · exact .inr (.inl ⟨sender, msg, entries, hr, RaftNode.mem_of_mem_fresh he⟩)
    | accepted sender msg entries reply hr =>
      rw [(SameStore.accepted n msg entries reply sender _).entries] at he
      rcases mem_spliced he with he | he
      · exact .inl he
      · exact .inr (.inl ⟨sender, msg, entries, hr, RaftNode.mem_of_mem_fresh he⟩)
    | led payloads _ _ _ _ hbatch =>
      rcases List.mem_append.mp he with he | he
      · exact .inl he
      · exact .inr (.inr ⟨payloads, hbatch, payload_mem_of_mem_buildBatch he⟩)
    | learned index t => exact .inl he
    | installed sender msg chunk bytes =>
      have hmem := mem_of_mem_anchorOnSnapshot he
      rw [storage_commitSnapshot] at hmem
      exact .inl hmem
    | restored m =>
      have hmem := mem_of_mem_anchorOnSnapshot he
      dsimp only at hmem
      rw [storage_commitSnapshot] at hmem
      exact .inl hmem
    | compacted term bytes =>
      unfold RaftNode.compacted at he
      dsimp only at he
      split at he
      · exact .inl (List.mem_of_mem_filter he)
      · exact .inl he

end ArbitroRaft
