import ArbitroRaft.Machine.Batch
import ArbitroRaft.Machine.Ships

/-!
# How many chunks one install sends

`install_snapshot_once` gives up after `snapshot_max_attempts_per_peer` rounds
without progress.  An accepted response that moves forward sets the count back
to zero, and a refusal may move the offset back, so that the two in turn keep
the transfer going.  The number of chunks is bounded exactly when one of the two
cannot happen: the first refusal ends the call, or every chunk is the last one.

## Main results

* `install_bounded_iff`: a bound exists just then.
-/

namespace ArbitroRaft

open Library

/-- A chunk of a snapshot. -/
def RaftMessage.isChunk : RaftMessage → Bool
  | .installSnapshot _ _ => true
  | _ => false

def chunkCount (l : List SentFrame) : Nat := l.countP fun f => f.message.isChunk

/-- Chunks that a computation puts on the wire. -/
def RaftNode.chunksSent {α : Type} (n : RaftNode) (m : RaftM α) : Nat :=
  chunkCount (n.emitted m)

/-- The configuration stays, and at most `k` chunks were sent in between. -/
def Streamed (k : Nat) (n n' : RaftNode) : Prop :=
  n'.config = n.config ∧ ∃ l, n'.sent = n.sent ++ l ∧ chunkCount l ≤ k

section Streamed

variable {j k : Nat} {n n' n'' : RaftNode} {α : Type}

theorem Streamed.none (hc : n'.config = n.config) (hs : n'.sent = n.sent) : Streamed k n n' :=
  ⟨hc, [], by rw [hs, List.append_nil], Nat.zero_le k⟩

theorem Streamed.mono (h : Streamed j n n') (hle : j ≤ k) : Streamed k n n' := by
  obtain ⟨hc, l, hl, hcount⟩ := h
  exact ⟨hc, l, hl, hcount.trans hle⟩

theorem Streamed.trans (h : Streamed j n n') (h' : Streamed k n' n'') : Streamed (j + k) n n'' := by
  obtain ⟨hc, l, hl, hcount⟩ := h
  obtain ⟨hc', l', hl', hcount'⟩ := h'
  refine ⟨hc'.trans hc, l ++ l', by rw [hl', hl, List.append_assoc], ?_⟩
  unfold chunkCount at hcount hcount' ⊢
  rw [List.countP_append]
  omega

theorem Streamed.of_ships (h : Ships (fun m => m.isChunk = false) n n') : Streamed 0 n n' := by
  obtain ⟨hc, l, hl, hP⟩ := h
  refine ⟨hc, l, hl, Nat.le_of_eq (List.countP_eq_zero.mpr ?_)⟩
  intro f hf
  rw [hP f hf]
  exact Bool.false_ne_true

/-- Both ways a computation can end. -/
theorem Streamed.chunksSent_le {m : RaftM α}
    (h : Ends m n (fun _ => Streamed k n) (Streamed k n)) : n.chunksSent m ≤ k := by
  obtain ⟨-, l, hl, hcount⟩ := Ends.after h
  unfold RaftNode.chunksSent RaftNode.emitted
  rw [hl, List.drop_left' rfl]
  exact hcount

end Streamed

/-! ## One round -/

section Round

variable {n : RaftNode} {i : Install}

theorem sendMessage_streamed (peer : PeerId) (msg : RaftMessage) :
    Ends (sendMessage peer msg) n (fun _ => Streamed 1 n) (Streamed 1 n) := by
  unfold sendMessage
  refine .read ?_
  split
  · refine .putSeq (.ret ⟨rfl, [⟨peer, msg, n.storage⟩], rfl, ?_⟩)
    exact List.countP_le_length
  · exact .ret (.none rfl rfl)

theorem sendChunk_streamed (i : Install) :
    Ends (sendChunk i) n (fun _ => Streamed 1 n) (Streamed 1 n) := by
  have hbeats : Emits (Ships fun m => m.isChunk = false) (sendBareHeartbeatsExcept i.peer) n
      (fun _ _ => True) := sendBareHeartbeatsExcept_ships fun _ => rfl
  refine sendChunk_ends (J := Streamed 0 n) ?_ (.none rfl rfl) fun k chunk _ hk => ?_
  · refine (Ends.of_emits hbeats).mono (fun _ _ h => .of_ships h.1) fun _ h => ?_
    exact (Streamed.of_ships h).mono (Nat.zero_le 1)
  · have hone : ∀ k', Streamed 1 k k' → Streamed 1 n k' := fun k' h =>
      (hk.trans h).mono (Nat.le_of_eq (Nat.zero_add 1))
    exact (sendMessage_streamed _ _).mono (fun _ => hone) hone

/-- What a response that does not end the transfer makes of it: it moves forward
from a chunk that was not the last, or uses up a round without progress. -/
def RaftNode.Continues (n : RaftNode) (i i' : Install) : Prop :=
  i'.peer = i.peer ∧ i'.snapshotMeta = i.snapshotMeta ∧ i'.bytes = i.bytes ∧
    i'.offset ≤ i.bytes.length ∧
    (n.chunkDone i = false ∧ i.offset < i'.offset ∨
      i'.noProgress = i.noProgress + 1 ∧
        i'.noProgress < max n.config.limits.snapshotMaxAttemptsPerPeer 1)

theorem advanceInstall_continues (i : Install) (resp : InstallSnapshotResp) :
    Ends (advanceInstall i resp) n
      (fun r n' => n' = n ∧
        (r = none → resp.accepted = true ∧
          (n.chunkDone i = true ∨ resp.nextOffset = i.bytes.length)) ∧
        ∀ i', r = some i' → n.Continues i i')
      (Streamed 0 n) := by
  unfold advanceInstall
  refine .read ?_
  split
  · refine .seq (P := fun _ => Streamed 0 n) ?_ fun _ _ h => .fail h
    exact stepDown_ends (.none rfl rfl) (.none rfl rfl)
  split
  · exact .fail (.none rfl rfl)
  rename_i hlen
  split
  · rename_i hdone
    refine .ret ⟨rfl, fun _ => ⟨hdone.1, hdone.2.imp_right fun hle => ?_⟩, nofun⟩
    exact Nat.le_antisymm (Nat.le_of_not_lt hlen) hle
  rename_i hopen
  split
  · rename_i hforward
    refine .ret ⟨rfl, nofun, ?_⟩
    rintro _ ⟨⟩
    refine ⟨rfl, rfl, rfl, Nat.le_of_not_lt hlen, .inl ⟨?_, hforward.2⟩⟩
    cases hdone : n.chunkDone i with
    | false => rfl
    | true => exact absurd ⟨hforward.1, .inl hdone⟩ hopen
  split
  · exact .fail (.none rfl rfl)
  · rename_i hcap
    refine .ret ⟨rfl, nofun, ?_⟩
    rintro _ ⟨⟩
    exact ⟨rfl, rfl, rfl, Nat.le_of_not_lt hlen, .inr ⟨rfl, Nat.lt_of_not_le hcap⟩⟩

end Round

/-! ## Whole transfers -/

/-- A response of the peer that is being served. -/
def InboundRaftMessage.Answers (f : InboundRaftMessage) (peer : PeerId) (t : Nat) : Prop :=
  f.sender = peer ∧ ∃ resp, f.message = .installSnapshotResp resp ∧ resp.term = t

section Loop

variable {n : RaftNode} {i : Install} {t len : Nat} {frames : List InboundRaftMessage}

theorem InboundRaftMessage.Answers.responseOf {f : InboundRaftMessage}
    (h : f.Answers i.peer t) : ∃ resp, i.responseOf f = some resp ∧ resp.term = t := by
  obtain ⟨hsender, resp, hmsg, hterm⟩ := h
  refine ⟨resp, ?_, hterm⟩
  unfold Install.responseOf
  rw [hmsg]
  exact if_pos hsender

/-- A rank that every response lowers bounds the chunks still to come. -/
theorem installLoop_streamed (rank : Install → Nat)
    (hrank : ∀ (n' : RaftNode) (i i' : Install), n'.config = n.config →
      i.bytes.length = len → n'.Continues i i' → rank i' < rank i)
    (hframes : ∀ f ∈ frames, f.Answers i.peer t) (hlen : i.bytes.length = len) :
    Ends (installLoop frames i) n (fun _ => Streamed (rank i) n) (Streamed (rank i) n) := by
  induction frames generalizing n i with
  | nil => exact .fail (.none rfl rfl)
  | cons f fs ih =>
    obtain ⟨resp, hresp, -⟩ := (hframes f List.mem_cons_self).responseOf
    unfold installLoop
    rw [hresp]
    refine .seq ((advanceInstall_continues i resp).mono_error ?_) ?_
    · intro _ h
      exact h.mono (Nat.zero_le _)
    rintro next _ ⟨rfl, -, hnext⟩
    cases next with
    | none => exact .ret (.none rfl rfl)
    | some i' =>
      have hcont := hnext i' rfl
      have hlt : rank i' < rank i := hrank _ i i' rfl hlen hcont
      obtain ⟨hpeer, -, hbytes, -, -⟩ := hcont
      refine .seq ((sendChunk_streamed i').mono_error ?_) ?_
      · intro _ h
        exact h.mono (Nat.succ_le_of_lt (Nat.zero_lt_of_lt hlt))
      intro _ n' hsent
      have hle : 1 + rank i' ≤ rank i := by omega
      refine (ih (n := n') (i := i') ?_ ?_ ?_).mono ?_ ?_
      · intro n'' j j' hc
        exact hrank n'' j j' (hc.trans hsent.1)
      · intro g hg
        rw [hpeer]
        exact hframes g (List.mem_cons_of_mem f hg)
      · rw [hbytes]
        exact hlen
      · intro _ _ h
        exact (hsent.trans h).mono hle
      · intro _ h
        exact (hsent.trans h).mono hle

/-- With one round allowed every response moves forward. -/
theorem rank_of_single_round (hcap : n.config.limits.snapshotMaxAttemptsPerPeer ≤ 1)
    {i i' : Install} (h : n.Continues i i') :
    i'.bytes.length - i'.offset < i.bytes.length - i.offset := by
  obtain ⟨-, -, hbytes, hle, ⟨-, hlt⟩ | ⟨hnext, hround⟩⟩ := h
  · rw [hbytes]
    omega
  · omega

/-- When a chunk holds the snapshot, no response moves forward. -/
theorem rank_of_single_chunk (hone : i.bytes.length ≤ max n.config.limits.snapshotChunkBytes 1)
    {i' : Install} (h : n.Continues i i') :
    max n.config.limits.snapshotMaxAttemptsPerPeer 1 - i'.noProgress <
      max n.config.limits.snapshotMaxAttemptsPerPeer 1 - i.noProgress := by
  obtain ⟨-, -, -, -, ⟨hopen, -⟩ | ⟨hnext, hround⟩⟩ := h
  · have hend : n.chunkEnd i = i.bytes.length :=
      Nat.min_eq_right (hone.trans (Nat.le_add_left _ _))
    unfold RaftNode.chunkDone at hopen
    rw [hend, beq_self_eq_true] at hopen
    cases hopen
  · omega

end Loop

theorem installSnapshotOnce_streamed {n : RaftNode} {peer : PeerId} {m : SnapshotMeta}
    {bytes : List UInt8} {frames : List InboundRaftMessage} {t : Nat}
    (hframes : ∀ f ∈ frames, f.Answers peer t)
    (hwhen : n.config.limits.snapshotMaxAttemptsPerPeer ≤ 1 ∨
      bytes.length ≤ max n.config.limits.snapshotChunkBytes 1) :
    n.chunksSent (installSnapshotOnce peer m bytes frames) ≤
      1 + max bytes.length (max n.config.limits.snapshotMaxAttemptsPerPeer 1) := by
  -- either measure is a rank for the loop that follows the first chunk
  have hloop : ∀ n' : RaftNode, n'.config = n.config → ∃ k, k ≤ max bytes.length
      (max n.config.limits.snapshotMaxAttemptsPerPeer 1) ∧
      Ends (installLoop frames ⟨peer, m, bytes, n.hardState.currentTerm, 0, 0⟩) n'
        (fun _ => Streamed k n') (Streamed k n') := by
    intro n' hc
    obtain hcap | hone := hwhen
    · refine ⟨_, ?_, installLoop_streamed (t := t) (fun i => i.bytes.length - i.offset) ?_
        hframes rfl⟩
      · exact Nat.le_max_left _ _
      · intro n'' i i' hc' _ hcont
        refine rank_of_single_round ?_ hcont
        rw [hc', hc]
        exact hcap
    · refine ⟨_, ?_, installLoop_streamed (t := t)
        (fun i => max n.config.limits.snapshotMaxAttemptsPerPeer 1 - i.noProgress) ?_ hframes rfl⟩
      · exact Nat.le_max_right _ _
      · intro n'' i i' hc' hlen hcont
        have hrank := rank_of_single_chunk (n := n'') (i := i) ?_ hcont
        · rwa [hc', hc] at hrank
        · rw [hc', hc, hlen]
          exact hone
  refine Streamed.chunksSent_le ?_
  unfold installSnapshotOnce
  refine .read ?_
  split
  · refine .seq ((sendChunk_streamed _).mono_error ?_) ?_
    · intro _ h
      exact h.mono (Nat.le_add_right 1 _)
    · intro _ n' hsent
      obtain ⟨k, hk, h⟩ := hloop n' hsent.1
      exact h.mono (fun _ _ h' => (hsent.trans h').mono (Nat.add_le_add_left hk 1))
        fun _ h' => (hsent.trans h').mono (Nat.add_le_add_left hk 1)
  · exact .fail (.none rfl rfl)

/-! ## A transfer without end -/

/-- The peer accepts the first byte and then asks for it again, `k` times. -/
def seesaw (peer : PeerId) (t : Nat) : Nat → List InboundRaftMessage
  | 0 => []
  | k + 1 => ⟨peer, .installSnapshotResp ⟨t, 1, true⟩⟩ ::
      ⟨peer, .installSnapshotResp ⟨t, 0, false⟩⟩ :: seesaw peer t k

theorem answers_seesaw (peer : PeerId) (t k : Nat) : ∀ f ∈ seesaw peer t k, f.Answers peer t := by
  induction k with
  | zero => exact fun _ hf => absurd hf List.not_mem_nil
  | succ k ih =>
    intro f hf
    obtain rfl | hf := List.mem_cons.mp hf
    · exact ⟨rfl, _, rfl, rfl⟩
    obtain rfl | hf := List.mem_cons.mp hf
    · exact ⟨rfl, _, rfl, rfl⟩
    · exact ih f hf

section Seesaw

variable {n : RaftNode} {i i' : Install} {f : InboundRaftMessage}
  {fs : List InboundRaftMessage} {resp : InstallSnapshotResp}

/-- The chunk of `i` that the node sends. -/
def RaftNode.chunkAt (n : RaftNode) (i : Install) : RaftMessage :=
  .installSnapshot (n.chunkHeader i ((i.bytes.take (n.chunkEnd i)).drop i.offset))
    ((i.bytes.take (n.chunkEnd i)).drop i.offset)

def RaftNode.withChunk (n : RaftNode) (i : Install) : RaftNode :=
  n.putOnWire i.peer (n.chunkAt i)

theorem sent_withChunk (n : RaftNode) (i : Install) :
    (n.withChunk i).sent = n.sent ++ [⟨i.peer, n.chunkAt i, n.storage⟩] := rfl

theorem chunkCount_chunkAt_cons (peer : PeerId) (st : Storage) (l : List SentFrame) :
    chunkCount (⟨peer, n.chunkAt i, st⟩ :: l) = chunkCount l + 1 :=
  List.countP_cons_of_pos rfl

theorem sendChunk_calm (now : Nat) (henv : n.env = Env.calm now) :
    sendChunk i n = .ok () (n.withChunk i) := by
  have hsend : ∀ msg, sendMessage i.peer msg n = .ok true (n.putOnWire i.peer msg) := by
    intro msg
    unfold sendMessage
    refine get_bind.trans ?_
    rw [if_pos (by rw [henv]; rfl), henv]
    rfl
  unfold sendChunk
  refine get_bind.trans ?_
  rw [if_neg (by rw [henv]; exact Bool.false_ne_true)]
  refine get_bind.trans ?_
  exact (bind_of_ok (hsend _)).trans rfl

theorem installLoop_round (now : Nat) (henv : n.env = Env.calm now)
    (hresp : i.responseOf f = some resp) (hnext : advanceInstall i resp n = .ok (some i') n) :
    installLoop (f :: fs) i n = installLoop fs i' (n.withChunk i') := by
  rw [installLoop, hresp]
  refine (bind_of_ok hnext).trans ?_
  exact bind_of_ok (sendChunk_calm now henv)

theorem advanceInstall_forward (hterm : resp.term = n.hardState.currentTerm)
    (hopen : n.chunkDone i = false) (hacc : resp.accepted = true)
    (hlt : i.offset < resp.nextOffset) (hlen : resp.nextOffset < i.bytes.length) :
    advanceInstall i resp n = .ok (some { i with offset := resp.nextOffset, noProgress := 0 }) n := by
  unfold advanceInstall
  refine get_bind.trans ?_
  rw [if_neg (by omega), if_neg (by omega), if_neg, if_pos ⟨hacc, hlt⟩]
  · rfl
  · rintro ⟨-, hdone | hle⟩
    · rw [hopen] at hdone
      cases hdone
    · omega

theorem advanceInstall_back (hterm : resp.term = n.hardState.currentTerm)
    (hacc : resp.accepted = false) (hlen : resp.nextOffset ≤ i.bytes.length)
    (hround : i.noProgress + 1 < n.config.limits.snapshotMaxAttemptsPerPeer) :
    advanceInstall i resp n =
      .ok (some { i with offset := resp.nextOffset, noProgress := i.noProgress + 1 }) n := by
  have hno : ∀ p : Prop, ¬ (resp.accepted = true ∧ p) := by
    intro p h
    rw [hacc] at h
    cases h.1
  unfold advanceInstall
  refine get_bind.trans ?_
  rw [if_neg (by omega), if_neg (by omega), if_neg (hno _), if_neg (hno _), if_neg (by omega)]
  rfl

/-- Every turn of the seesaw sends two chunks, from a state of the same shape. -/
theorem installLoop_seesaw (now k : Nat) (henv : n.env = Env.calm now)
    (hcap : 1 < n.config.limits.snapshotMaxAttemptsPerPeer)
    (hlen : max n.config.limits.snapshotChunkBytes 1 < i.bytes.length) (hi : i.offset = 0) :
    ∃ l, ((installLoop (seesaw i.peer n.hardState.currentTerm k) i).after n).sent = n.sent ++ l ∧
      chunkCount l = 2 * k := by
  induction k generalizing n i with
  | zero => exact ⟨[], (List.append_nil _).symm, rfl⟩
  | succ k ih =>
    have hopen : n.chunkDone i = false := by
      unfold RaftNode.chunkDone RaftNode.chunkEnd
      rw [hi, beq_eq_false_iff_ne]
      omega
    let i₁ : Install := { i with offset := 1, noProgress := 0 }
    let i₂ : Install := { i with offset := 0, noProgress := 1 }
    have hanswer : ∀ (j : Install) resp, j.peer = i.peer →
        j.responseOf ⟨i.peer, .installSnapshotResp resp⟩ = some resp :=
      fun _ _ hj => if_pos hj.symm
    have h₁ : advanceInstall i ⟨n.hardState.currentTerm, 1, true⟩ n = .ok (some i₁) n :=
      advanceInstall_forward rfl hopen rfl (by show i.offset < 1; omega)
        (by show 1 < i.bytes.length; omega)
    have h₂ : advanceInstall i₁ ⟨n.hardState.currentTerm, 0, false⟩ (n.withChunk i₁) =
        .ok (some i₂) (n.withChunk i₁) :=
      advanceInstall_back rfl rfl (Nat.zero_le _) hcap
    have hrun : installLoop (seesaw i.peer n.hardState.currentTerm (k + 1)) i n =
        installLoop (seesaw i.peer n.hardState.currentTerm k) i₂
          ((n.withChunk i₁).withChunk i₂) := by
      rw [seesaw, installLoop_round now henv (hanswer i _ rfl) h₁]
      exact installLoop_round now henv (hanswer i₁ _ rfl) h₂
    obtain ⟨l, hl, hcount⟩ :=
      ih (n := (n.withChunk i₁).withChunk i₂) (i := i₂) henv hcap hlen rfl
    rw [sent_withChunk, sent_withChunk, List.append_assoc, List.append_assoc] at hl
    rw [after_of_eq hrun]
    refine ⟨_, hl, ?_⟩
    rw [List.singleton_append, List.singleton_append, chunkCount_chunkAt_cons,
      chunkCount_chunkAt_cons, hcount]
    omega

end Seesaw

/-- The leader of the three under the limits `chunk` and `cap`. -/
def seesawLeader (chunk cap : Nat) : RaftNode :=
  { trioLeader with
    config := { trioLeader.config with
      limits := { LimitsConfig.initial with
        snapshotChunkBytes := chunk
        snapshotMaxAttemptsPerPeer := cap } } }

theorem isLeader_seesawLeader (chunk cap : Nat) : (seesawLeader chunk cap).isLeader = true := by
  show trioLeader.isLeader = true
  decide +kernel

theorem chunksSent_seesaw (chunk cap len k : Nat) (hcap : 1 < cap) (hlen : max chunk 1 < len) :
    2 * k < (seesawLeader chunk cap).chunksSent (installSnapshotOnce 2 ⟨0, 0⟩
      (List.replicate len 0) (seesaw 2 trioLeader.hardState.currentTerm k)) := by
  let n := seesawLeader chunk cap
  let i : Install := ⟨2, ⟨0, 0⟩, List.replicate len 0, trioLeader.hardState.currentTerm, 0, 0⟩
  have hbytes : max chunk 1 < i.bytes.length := by
    rw [List.length_replicate]
    exact hlen
  have hstart : installSnapshotOnce 2 ⟨0, 0⟩ (List.replicate len 0)
      (seesaw 2 trioLeader.hardState.currentTerm k) n =
      installLoop (seesaw 2 trioLeader.hardState.currentTerm k) i (n.withChunk i) := by
    unfold installSnapshotOnce
    refine get_bind.trans ?_
    rw [if_pos (isLeader_seesawLeader chunk cap)]
    exact bind_of_ok (sendChunk_calm 0 rfl)
  obtain ⟨l, hl, hcount⟩ :=
    installLoop_seesaw (n := n.withChunk i) (i := i) 0 k rfl hcap hbytes rfl
  rw [sent_withChunk, List.append_assoc, List.singleton_append] at hl
  unfold RaftNode.chunksSent RaftNode.emitted
  rw [after_of_eq hstart]
  refine Nat.lt_of_lt_of_eq ?_ (congrArg chunkCount ((congrArg _ hl).trans
    (List.drop_left' rfl))).symm
  rw [chunkCount_chunkAt_cons, hcount]
  exact Nat.lt_succ_self _

/-- Chunks of one install are bounded, for a length of the snapshot, a chunk size and
an attempt cap, exactly when the first refusal ends the call or the snapshot is one
chunk. -/
theorem install_bounded_iff (len chunk cap : Nat) :
    (∃ bound, ∀ (n : RaftNode) (peer : PeerId) (m : SnapshotMeta) (bytes : List UInt8)
        (frames : List InboundRaftMessage), n.isLeader = true →
        n.config.limits.snapshotChunkBytes = chunk →
        n.config.limits.snapshotMaxAttemptsPerPeer = cap → bytes.length = len →
        (∀ f ∈ frames, f.Answers peer n.hardState.currentTerm) →
        n.chunksSent (installSnapshotOnce peer m bytes frames) ≤ bound) ↔
      cap ≤ 1 ∨ len ≤ max chunk 1 := by
  constructor
  · rintro ⟨bound, hbound⟩
    by_contra hwhen
    have hcap : 1 < cap := by omega
    have hlen : max chunk 1 < len := by omega
    have hle := hbound (seesawLeader chunk cap) 2 ⟨0, 0⟩ (List.replicate len 0) _
      (isLeader_seesawLeader chunk cap) rfl rfl List.length_replicate
      (answers_seesaw 2 trioLeader.hardState.currentTerm (bound + 1))
    have hmore := chunksSent_seesaw chunk cap len (bound + 1) hcap hlen
    omega
  · intro hwhen
    refine ⟨1 + max len (max cap 1), ?_⟩
    rintro n peer m bytes frames - rfl rfl rfl hframes
    exact installSnapshotOnce_streamed hframes hwhen

/-- A snapshot of two chunks under the default attempt cap of three. -/
theorem install_unbounded :
    ¬ ∃ bound, ∀ (n : RaftNode) (peer : PeerId) (m : SnapshotMeta) (bytes : List UInt8)
      (frames : List InboundRaftMessage), n.isLeader = true →
      n.config.limits.snapshotChunkBytes = 1 →
      n.config.limits.snapshotMaxAttemptsPerPeer = 3 → bytes.length = 2 →
      (∀ f ∈ frames, f.Answers peer n.hardState.currentTerm) →
      n.chunksSent (installSnapshotOnce peer m bytes frames) ≤ bound := by
  rintro ⟨bound, hbound⟩
  have hle := hbound (seesawLeader 1 3) 2 ⟨0, 0⟩ (List.replicate 2 0) _
    (isLeader_seesawLeader 1 3) rfl rfl List.length_replicate
    (answers_seesaw 2 trioLeader.hardState.currentTerm (bound + 1))
  have hmore := chunksSent_seesaw 1 3 2 (bound + 1) (by decide) (by decide)
  omega

end ArbitroRaft
