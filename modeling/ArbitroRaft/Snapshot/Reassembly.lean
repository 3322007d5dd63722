import ArbitroRaft.Membership.Hosted
import ArbitroRaft.Snapshot.Install

/-!
# Reassembling a snapshot

A transfer is a prefix of the snapshot it is about: a chunk extends it at its exact
length only, and the first chunk or another snapshot starts it afresh.  So when
every chunk is a slice of one byte string per sender and snapshot, whatever the
network makes of the chunks, what is saved is that byte string.

## Main results

* `snapshot_reassembled`: this, over every run of a host.
-/

namespace ArbitroRaft

open Library

/-- The chunk is the slice of `bytes` at its offset, the last one if and only if it
says so. -/
structure InstallSnapshot.SliceOf (msg : InstallSnapshot) (chunk bytes : List UInt8) : Prop where
  fits : msg.offset + chunk.length ≤ bytes.length
  chunk_eq : (bytes.drop msg.offset).take chunk.length = chunk
  done_iff : msg.done = true ↔ msg.offset + chunk.length = bytes.length

/-- What each sender streams for each snapshot. -/
abbrev SnapshotSource : Type := PeerId → SnapshotMeta → List UInt8

def InboundRaftMessage.Streams (B : SnapshotSource) (f : InboundRaftMessage) : Prop :=
  ∀ msg chunk, f.message = .installSnapshot msg chunk →
    msg.SliceOf chunk (B f.sender msg.snapshotMeta)

/-- Every transfer is a prefix of its snapshot and within the limit. -/
structure Buffered (B : SnapshotSource) (n : RaftNode) : Prop where
  received : ∀ slot ∈ n.pendingSnapshots, slot.2.bytes <+: B slot.1 slot.2.snapshotMeta
  limit : ∀ slot ∈ n.pendingSnapshots, slot.2.bytes.length ≤ n.config.limits.maxSnapshotBytes

section Buffered

variable {B : SnapshotSource} {n n' : RaftNode}

theorem Buffered.spared (h : Buffered B n) (hs : Spares (· = .transfers) n n') : Buffered B n' where
  received slot hslot := h.received slot (hs.transfers rfl slot hslot)
  limit slot hslot := by
    rw [hs.limits]
    exact h.limit slot (hs.transfers rfl slot hslot)

/-- What the code does besides handling the stream. -/
theorem Buffered.of_sparing {α : Type} {m : RaftM α} (hn : Buffered B n)
    (h : Sparing (· = .transfers) m n) : Ends m n (fun _ => Buffered B) (Buffered B) :=
  (Ends.of_emits h).mono (fun _ _ hs => hn.spared hs.1) fun _ hs => hn.spared hs

theorem Buffered.of_empty (h : n.pendingSnapshots = PeerMap.empty) : Buffered B n where
  received slot hslot := by
    rw [h] at hslot
    cases hslot
  limit slot hslot := by
    rw [h] at hslot
    cases hslot

/-- A transfer that fits joins the others. -/
theorem Buffered.setPending (h : Buffered B n) {sender : PeerId} {p : PendingSnapshot}
    (hp : p.bytes <+: B sender p.snapshotMeta)
    (hl : p.bytes.length ≤ n.config.limits.maxSnapshotBytes) :
    Buffered B (n.setPending sender p) where
  received slot hslot := by
    rcases PeerMap.mem_insert hslot with hslot | rfl
    · exact h.received slot hslot
    · exact hp
  limit slot hslot := by
    rcases PeerMap.mem_insert hslot with hslot | rfl
    · exact h.limit slot hslot
    · exact hl

theorem Buffered.dropPending (h : Buffered B n) (sender : PeerId) :
    Buffered B (n.dropPending sender) where
  received slot hslot := h.received slot (PeerMap.mem_of_mem_remove hslot)
  limit slot hslot := h.limit slot (PeerMap.mem_of_mem_remove hslot)

/-- What the handler finds or starts for a chunk. -/
theorem Buffered.pendingFor (h : Buffered B n) (sender : PeerId) (m : SnapshotMeta) (offset : Nat) :
    (n.pendingFor sender m offset).snapshotMeta = m ∧
      (n.pendingFor sender m offset).bytes <+: B sender m ∧
      (n.pendingFor sender m offset).bytes.length ≤ n.config.limits.maxSnapshotBytes := by
  unfold RaftNode.pendingFor
  dsimp only
  split
  · exact ⟨rfl, List.nil_prefix, Nat.zero_le _⟩
  · rename_i p hget
    split
    · exact ⟨rfl, List.nil_prefix, Nat.zero_le _⟩
    · rename_i hkeep
      have hmeta : p.snapshotMeta = m := by
        by_contra hne
        exact hkeep (.inr hne)
      have hslot := PeerMap.mem_of_get hget
      refine ⟨hmeta, ?_, h.limit _ hslot⟩
      have hprefix := h.received _ hslot
      rw [← hmeta]
      exact hprefix

/-- A slice at the end of a prefix continues it. -/
theorem InstallSnapshot.SliceOf.append {msg : InstallSnapshot} {chunk bytes front : List UInt8}
    (h : msg.SliceOf chunk bytes) (hfront : front <+: bytes) (hoffset : front.length = msg.offset) :
    front ++ chunk <+: bytes := by
  obtain ⟨back, rfl⟩ := hfront
  have hchunk := h.chunk_eq
  rw [← hoffset, List.drop_left' rfl] at hchunk
  rw [← hchunk]
  exact (List.prefix_append_right_inj front).mpr (List.take_prefix _ back)

theorem InstallSnapshot.SliceOf.complete {msg : InstallSnapshot} {chunk bytes front : List UInt8}
    (h : msg.SliceOf chunk bytes) (hfront : front <+: bytes) (hoffset : front.length = msg.offset)
    (hdone : msg.done = true) : front ++ chunk = bytes := by
  refine (h.append hfront hoffset).eq_of_length ?_
  rw [List.length_append, hoffset]
  exact h.done_iff.mp hdone

/-! ## One chunk -/

/-- The transfers are sound, and if a snapshot was saved it is the one streamed. -/
structure Received (B : SnapshotSource) (sender : PeerId) (m : SnapshotMeta) (n n' : RaftNode) :
    Prop where
  buffered : Buffered B n'
  saved : n'.storage.snapshot = n.storage.snapshot ∨
    n'.storage.snapshot = some (m, B sender m)

/-- Besides, whoever is told that a chunk was accepted: behind the last one the snapshot
is saved, behind another one nothing is. -/
structure Answered (B : SnapshotSource) (sender : PeerId) (msg : InstallSnapshot)
    (n n' : RaftNode) : Prop extends Received B sender msg.snapshotMeta n n' where
  answers : ∃ l, n'.sent = n.sent ++ l ∧ ∀ f ∈ l, ∀ resp,
    f.message = .installSnapshotResp resp → resp.accepted = true → n'.storage.snapshot =
      if msg.done then some (msg.snapshotMeta, B sender msg.snapshotMeta)
      else n.storage.snapshot

variable {sender : PeerId} {msg : InstallSnapshot} {chunk : List UInt8}

theorem Received.unanswered (h : Received B sender msg.snapshotMeta n n')
    (hsent : n'.sent = n.sent) : Answered B sender msg n n' :=
  ⟨h, [], by rw [hsent, List.append_nil], nofun⟩

theorem respondSnapshot_answered (accepted : Bool) (nextOffset : Nat)
    (h : Received B sender msg.snapshotMeta n n') (hsent : n'.sent = n.sent)
    (haccepted : accepted = true → n'.storage.snapshot =
      if msg.done then some (msg.snapshotMeta, B sender msg.snapshotMeta)
      else n.storage.snapshot) :
    Ends (respondSnapshot sender accepted nextOffset) n'
      (fun _ => Answered B sender msg n) (Answered B sender msg n) := by
  unfold respondSnapshot
  refine .read (.seq (P := fun _ => Answered B sender msg n) ?_ fun _ _ hr => .ret hr)
  unfold sendMessage
  refine .read ?_
  split
  · refine .putSeq (.ret ⟨⟨h.buffered.spared (.same rfl rfl rfl rfl), h.saved⟩,
      [_], congrArg (· ++ [_]) hsent, ?_⟩)
    intro f hf resp hmsg hacc
    obtain rfl := List.mem_singleton.mp hf
    cases hmsg
    exact haccepted hacc
  · exact .ret (h.unanswered hsent)

theorem storage_completeSnapshot (n : RaftNode) (m : SnapshotMeta) (bytes : List UInt8) :
    (n.completeSnapshot m bytes).storage.snapshot = some (m, bytes) := by
  unfold RaftNode.completeSnapshot RaftNode.anchorOnSnapshot
  dsimp only
  rw [storage_commitSnapshot]
  split <;> rfl

theorem sent_completeSnapshot (n : RaftNode) (m : SnapshotMeta) (bytes : List UInt8) :
    (n.completeSnapshot m bytes).sent = n.sent := by
  unfold RaftNode.completeSnapshot RaftNode.anchorOnSnapshot RaftNode.commitSnapshot
  split <;> rfl

theorem acceptChunk_answered {p : PendingSnapshot} (hn : Buffered B n')
    (hsaved : n'.storage.snapshot = n.storage.snapshot) (hsent : n'.sent = n.sent)
    (hslice : msg.SliceOf chunk (B sender msg.snapshotMeta)) (hmeta : p.snapshotMeta = msg.snapshotMeta)
    (hp : p.bytes <+: B sender msg.snapshotMeta) (hoffset : p.bytes.length = msg.offset) :
    Ends (acceptChunk sender msg chunk p) n'
      (fun _ => Answered B sender msg n) (Answered B sender msg n) := by
  unfold acceptChunk
  refine .read ?_
  dsimp only
  split
  · refine .updateSeq ((respondSnapshot_answered false 0 ?_ ?_ nofun).seq fun _ _ h =>
      .fail h)
    · exact ⟨hn.dropPending sender, .inl hsaved⟩
    · exact hsent
  rename_i hfits
  split
  · rename_i hdone
    have hcomplete : ((n'.dropPending sender).completeSnapshot p.snapshotMeta
        (p.bytes ++ chunk)).storage.snapshot =
        some (msg.snapshotMeta, B sender msg.snapshotMeta) := by
      rw [storage_completeSnapshot, hmeta, hslice.complete hp hoffset hdone]
    refine .updateSeq (respondSnapshot_answered true _ ⟨?_, .inr hcomplete⟩ ?_ fun _ => ?_)
    · exact (hn.dropPending sender).spared (.of_side (.completeSnapshot _ _ _))
    · exact (sent_completeSnapshot _ _ _).trans hsent
    · rw [if_pos hdone]
      exact hcomplete
  · rename_i hmore
    refine .updateSeq (respondSnapshot_answered true _ ⟨hn.setPending ?_ ?_, .inl hsaved⟩
      ?_ fun _ => ?_)
    · change p.bytes ++ chunk <+: B sender p.snapshotMeta
      rw [hmeta]
      exact hslice.append hp hoffset
    · exact Nat.le_of_not_lt hfits
    · exact hsent
    · rw [if_neg hmore]
      exact hsaved

/-- Adopting a term drops transfers; it saves no snapshot and answers nothing. -/
theorem observeTerm_buffered (t : Nat) (hn : Buffered B n) :
    Ends (observeTerm t) n
      (fun _ n' => Buffered B n' ∧ n'.storage.snapshot = n.storage.snapshot ∧ n'.sent = n.sent)
      (fun n' => Buffered B n' ∧ n'.storage.snapshot = n.storage.snapshot ∧
        n'.sent = n.sent) := by
  have hspares : Sparing (· = .transfers) (observeTerm t) n := observeTerm_spares t nofun
  have hkeeps : Ends (observeTerm t) n
      (fun _ n' => n'.storage.snapshot = n.storage.snapshot ∧ n'.sent = n.sent)
      (fun n' => n'.storage.snapshot = n.storage.snapshot ∧ n'.sent = n.sent) :=
    observeTerm_ends (fun _ => ⟨rfl, rfl⟩) (fun _ => ⟨rfl, rfl⟩) ⟨rfl, rfl⟩
  unfold Ends at hkeeps ⊢
  unfold Sparing Emits at hspares
  cases hrun : observeTerm t n with
  | ok a n' =>
    rw [hrun] at hspares hkeeps
    exact ⟨hn.spared hspares.1, hkeeps⟩
  | error e n' =>
    rw [hrun] at hspares hkeeps
    exact ⟨hn.spared hspares, hkeeps⟩

theorem handleInstallSnapshot_answered (hn : Buffered B n)
    (hslice : msg.SliceOf chunk (B sender msg.snapshotMeta)) :
    Ends (handleInstallSnapshot sender msg chunk) n
      (fun _ => Answered B sender msg n) (Answered B sender msg n) := by
  have hidle : Answered B sender msg n n := Received.unanswered ⟨hn, .inl rfl⟩ rfl
  unfold handleInstallSnapshot
  refine .read ?_
  split
  · exact .fail hidle
  split
  · exact .ret hidle
  have hevict : Buffered B n.evictStalledSnapshots := hn.spared (spares_evict n)
  refine .updateSeq ?_
  split
  · exact respondSnapshot_answered false 0 ⟨hevict, .inl rfl⟩ (by rfl) nofun
  refine ((observeTerm_buffered msg.term hevict).mono_error ?_).seq ?_
  · exact fun n' h => Received.unanswered ⟨h.1, .inl h.2.1⟩ h.2.2
  rintro _ n₁ ⟨hn₁, hsaved, hsent⟩
  refine .updateSeq ?_
  unfold receiveChunk
  refine .read ?_
  dsimp only
  have hn₂ : Buffered B (n₁.followSnapshotLeader msg.leaderId) :=
    hn₁.spared (.same rfl rfl rfl rfl)
  obtain ⟨hmeta, hprefix, hlimit⟩ := hn₂.pendingFor sender msg.snapshotMeta msg.offset
  have hn₃ : Buffered B ((n₁.followSnapshotLeader msg.leaderId).setPending sender
      ((n₁.followSnapshotLeader msg.leaderId).pendingFor sender msg.snapshotMeta msg.offset)) :=
    hn₂.setPending (hmeta.symm ▸ hprefix) hlimit
  refine .putSeq ?_
  split
  · exact respondSnapshot_answered false _ ⟨hn₃, .inl hsaved⟩ (by exact hsent) nofun
  · rename_i hoffset
    exact acceptChunk_answered hn₃ hsaved hsent hslice hmeta hprefix (not_not.mp hoffset)

theorem handleInbound_answered (hn : Buffered B n)
    (hslice : msg.SliceOf chunk (B sender msg.snapshotMeta)) :
    Ends (handleInbound ⟨sender, .installSnapshot msg chunk⟩) n
      (fun _ => Answered B sender msg n) (Answered B sender msg n) := by
  -- The contact that is stamped first is no part of what is answered.
  have hstamp : ∀ m : RaftNode, Spares (· = .transfers) n m → m.storage = n.storage →
      m.sent = n.sent → Ends (handleInstallSnapshot sender msg chunk) m
        (fun _ => Answered B sender msg n) (Answered B sender msg n) := by
    intro m hm hstorage hsent
    have hconvert : ∀ n', Answered B sender msg m n' → Answered B sender msg n n' := by
      rintro n' ⟨⟨hb, hsaved⟩, hanswers⟩
      rw [hstorage] at hsaved
      rw [hstorage, hsent] at hanswers
      exact ⟨⟨hb, hsaved⟩, hanswers⟩
    exact (handleInstallSnapshot_answered (hn.spared hm) hslice).mono
      (fun _ n' h => hconvert n' h) hconvert
  unfold handleInbound
  refine .updateSeq ?_
  unfold RaftNode.stampContact
  split <;> exact hstamp _ (.same rfl rfl rfl rfl) rfl rfl

/-- Any frame of the stream, or of another kind. -/
theorem handleInbound_buffered {f : InboundRaftMessage} (hn : Buffered B n) (hf : f.Streams B) :
    Ends (handleInbound f) n (fun _ => Buffered B) (Buffered B) := by
  by_cases hkind : ∃ msg chunk, f.message = .installSnapshot msg chunk
  · obtain ⟨msg, chunk, hmsg⟩ := hkind
    obtain ⟨sender, _⟩ := f
    obtain rfl : _ = RaftMessage.installSnapshot msg chunk := hmsg
    exact (handleInbound_answered hn (hf msg chunk rfl)).mono (fun _ _ h => h.buffered)
      fun _ h => h.buffered
  · have hspares : f.Spares (· = .transfers) n :=
      ⟨fun _ msg chunk hmsg => hkind ⟨msg, chunk, hmsg⟩, nofun, nofun⟩
    exact hn.of_sparing (handleInbound_spares hspares)

theorem gatherFrame_buffered {f : InboundRaftMessage} (g : Gather) (hn : Buffered B n)
    (hf : f.Streams B) : Ends (gatherFrame f g) n (fun _ => Buffered B) (Buffered B) := by
  have hframe : Ends (gatherDispatchFrame f g) n (fun _ => Buffered B) (Buffered B) := by
    unfold gatherDispatchFrame
    split
    · rename_i resp hmsg
      exact hn.of_sparing (processAppendResp_spares hmsg g nofun)
    · exact (handleInbound_buffered hn hf).seq fun _ _ h => .ret h
  refine .recover hframe fun e n' h => ?_
  split
  · exact .fail h
  · exact .ret h

/-! ## Whole runs -/

theorem Action.run_buffered {a : Action} (hn : Buffered B n)
    (ha : ∀ f, a.frame = some f → f.Streams B) : Buffered B (a.run n) := by
  by_cases hframe : ∃ f, a.frame = some f
  · obtain ⟨f, hf⟩ := hframe
    cases a with
    | inbound g =>
      obtain rfl := Option.some.inj hf
      exact Ends.after (handleInbound_buffered hn (ha g rfl))
    | gatherFrame g gather =>
      obtain rfl := Option.some.inj hf
      refine Ends.after (m := (Action.gatherFrame g gather).perform) ?_
      exact (gatherFrame_buffered gather hn (ha g rfl)).seq fun _ _ h => Ends.ret h
    | _ => cases hf
  · refine hn.spared (Action.run_spares ⟨?_, nofun, nofun⟩)
    exact fun f hf => absurd ⟨f, hf⟩ hframe

end Buffered

/-- What a host does, and the sweep of its run loop. -/
inductive TransferAct where
  | host (a : HostAct)
  | sweep

/-- The frame a step handles. -/
def TransferAct.frame : TransferAct → Option InboundRaftMessage
  | .host (.gather f) | .host (.drain f) => some f
  | .host (.act a) => a.frame
  | .host _ | .sweep => none

def Host.transferStep (h : Host) (a : Env × TransferAct) : Option Host :=
  match a.2 with
  | .host act => h.step a.1 act
  | .sweep => some { h with node := (h.node.within a.1).evictStalledSnapshots }

/-- Runs in which every chunk that is handled is one of the stream. -/
abbrev Host.Streamed (B : SnapshotSource) (h h' : Host) : Prop :=
  Reaches Host.transferStep (fun _ a => ∀ f, a.2.frame = some f → f.Streams B) h h'

theorem Host.transferStep_buffered {B : SnapshotSource} {h h' : Host} {a : Env × TransferAct}
    (hn : Buffered B h.node) (ha : ∀ f, a.2.frame = some f → f.Streams B)
    (hstep : h.transferStep a = some h') : Buffered B h'.node := by
  obtain ⟨env, act⟩ := a
  have hw : Buffered B (h.node.within env) := hn.spared (.same rfl rfl rfl rfl)
  cases act with
  | sweep =>
    cases hstep
    exact hw.spared (spares_evict _)
  | host act =>
    have hstep : h.step env act = some h' := hstep
    have hturn := Host.step_turn hstep
    generalize h'.node = n' at hturn
    cases hturn with
    | quiet _ hs => exact hw.spared hs.only
    | acts b hframe hs =>
      refine (Action.run_buffered hw fun f hf => ha f ?_).spared hs.only
      rw [← hf, ← hframe]
      cases act <;> rfl
    | restart config => exact Buffered.of_empty rfl

theorem Host.Streamed.buffered {B : SnapshotSource} {h h' : Host} (hb : h.Started)
    (hrun : h.Streamed B h') : Buffered B h'.node := by
  refine Reaches.invariant (I := fun h => Buffered B h.node) hrun ?_ ?_
  · obtain ⟨-, config, storage, sent, env, hnode⟩ := hb
    rw [hnode]
    exact Buffered.of_empty rfl
  · intro u v a hu ha hstep
    exact Host.transferStep_buffered hu ha hstep

/-- Whatever happened before, a chunk of the stream saves the streamed snapshot or
none, and no transfer outgrows the limit. -/
theorem snapshot_reassembled {B : SnapshotSource} {h h' : Host} (hb : h.Started)
    (hrun : h.Streamed B h') :
    (∀ slot ∈ h'.node.pendingSnapshots,
      slot.2.bytes.length ≤ h'.node.config.limits.maxSnapshotBytes) ∧
    ∀ env sender msg chunk, msg.SliceOf chunk (B sender msg.snapshotMeta) →
      let n := h'.node.within env
      let n' := (handleInstallSnapshot sender msg chunk).after n
      (n'.storage.snapshot = n.storage.snapshot ∨
        n'.storage.snapshot = some (msg.snapshotMeta, B sender msg.snapshotMeta)) ∧
      ∀ slot ∈ n'.pendingSnapshots, slot.2.bytes.length ≤ n'.config.limits.maxSnapshotBytes := by
  have hbuffered := Host.Streamed.buffered hb hrun
  refine ⟨hbuffered.limit, ?_⟩
  intro env sender msg chunk hslice
  have hw : Buffered B (h'.node.within env) := hbuffered.spared (.same rfl rfl rfl rfl)
  have hafter := Ends.after (handleInstallSnapshot_answered hw hslice)
  exact ⟨hafter.saved, hafter.buffered.limit⟩

/-! ## A transfer in two chunks -/

/-- Node 2 of three voters on an empty log. -/
def transferHost : Host := ⟨trioNode 2 (.empty false), none⟩

/-- Node 1 streams the bytes 1, 2, 3 whatever the snapshot. -/
def transferSource : SnapshotSource := fun _ _ => [1, 2, 3]

/-- The first chunk, delivered twice, with a sweep in between. -/
def transferSteps : List (Env × TransferAct) :=
  let first := TransferAct.host (.act (.inbound
    ⟨1, .installSnapshot ⟨1, 1, 9, 1, 0, 2, false⟩ [1, 2]⟩))
  [(Env.calm 1, first), (Env.calm 2, .sweep), (Env.calm 3, first)]

def transferNode : RaftNode :=
  (((runSteps Host.transferStep transferHost transferSteps).map Host.node).getD
    transferHost.node).within (Env.calm 4)

/-- The last chunk then saves all three bytes. -/
theorem snapshot_reassembled_pair :
    let n' := (handleInstallSnapshot 1 ⟨1, 1, 9, 1, 2, 1, true⟩ [3]).after transferNode
    (n'.storage.snapshot = transferNode.storage.snapshot ∨
      n'.storage.snapshot = some (⟨9, 1⟩, [1, 2, 3])) ∧
    transferNode.storage.snapshot = none ∧ n'.storage.snapshot.isSome = true := by
  have hsome : (runSteps Host.transferStep transferHost transferSteps).isSome = true := by
    decide +kernel
  obtain ⟨h, hh⟩ := Option.isSome_iff_exists.mp hsome
  have hnode : transferNode = h.node.within (Env.calm 4) := by
    rw [transferNode, hh]
    rfl
  have hfirst : (InstallSnapshot.mk 1 1 9 1 0 2 false).SliceOf [1, 2] [1, 2, 3] :=
    ⟨by decide, by decide, by decide⟩
  have hstreamed : transferHost.Streamed transferSource h := by
    refine Reaches.refl.steps hh ?_
    intro a ha _ f hf msg chunk hmsg
    rcases List.mem_cons.mp ha with rfl | ha
    · cases hf
      cases hmsg
      exact hfirst
    rcases List.mem_cons.mp ha with rfl | ha
    · cases hf
    obtain rfl := List.mem_singleton.mp ha
    cases hf
    cases hmsg
    exact hfirst
  have hlast : (InstallSnapshot.mk 1 1 9 1 2 1 true).SliceOf [3] [1, 2, 3] :=
    ⟨by decide, by decide, by decide⟩
  refine ⟨?_, by decide +kernel, by decide +kernel⟩
  rw [hnode]
  exact ((snapshot_reassembled ⟨rfl, _, _, _, _, rfl⟩ hstreamed).2 (Env.calm 4) 1
    ⟨1, 1, 9, 1, 2, 1, true⟩ [3] hlast).1

end ArbitroRaft
