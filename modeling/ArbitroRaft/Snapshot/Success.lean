import ArbitroRaft.Replication.FanOut
import ArbitroRaft.Snapshot.Bounded
import ArbitroRaft.Snapshot.Reassembly

/-!
# What the success of an install says

`install_snapshot_once` returns when its peer accepts while the last chunk is outstanding, or
accepts the whole length.  An answer names neither the snapshot nor the chunk it is about, so
an answer to an earlier chunk that arrives a second time ends the call just as well.

The call is put together with its follower and the network.  The follower does what any host
does and answers the chunks it handles; the call gets these answers in any order, each any
number of times or never, between other frames.

## Main results

* `installLoop_ends`: a call that returns does so on one answer.  On what came before it waits
  for the answer to a chunk it has sent, and this answer is the one that ends it.
* `install_success_real_iff`: in every run the follower has the snapshot when it gives that
  answer exactly if the answer is one to the last chunk of this very snapshot, or the follower
  had it before.
* `install_success_unreal`: an answer that arrives twice.
-/

namespace ArbitroRaft

open Library

/-! ## The leader -/

/-- Frames stay on the wire; the surroundings and the limits stay. -/
structure Onward (n n' : RaftNode) : Prop where
  wire : n.sent <+: n'.sent
  env : n'.env = n.env
  limits : n'.config.limits = n.config.limits

instance : Std.Refl Onward := ⟨fun _ => ⟨List.prefix_rfl, rfl, rfl⟩⟩

instance : IsTrans RaftNode Onward where
  trans _ _ _ h h' := ⟨h.wire.trans h'.wire, h'.env.trans h.env, h'.limits.trans h.limits⟩

section Leader

variable {sc : Scope} {n₀ n n' : RaftNode} {i : Install}

theorem Effect.onward (h : Effect sc n n') : Onward n n' := by
  cases h.wire with
  | same _ hw => exact ⟨hw.sent ▸ List.prefix_rfl, hw.env, hw.limits⟩
  | hard _ hh =>
    cases hh with
    | granted sender msg reply =>
      cases reply with
      | false => exact ⟨List.prefix_rfl, rfl, rfl⟩
      | true => exact ⟨List.prefix_append _ _, rfl, rfl⟩
    | _ => exact ⟨List.prefix_rfl, rfl, rfl⟩
  | sent peer msg => exact ⟨List.prefix_append _ _, rfl, rfl⟩
  | acked sender msg entries =>
    have hw := SameSide.accepted n msg entries
    exact ⟨hw.sent ▸ List.prefix_append _ _, hw.env, hw.limits⟩

theorem Moves.onward (h : Moves sc n n') (hns : ¬ sc.strict) : Onward n n' :=
  h.preserves hns (refl_of Onward n) fun _ _ hm he => trans_of Onward hm he.onward

/-- The call waits for the answer to a chunk of its snapshot.  The chunk is on the wire, unless
it does not encode. -/
def Install.Awaits (i : Install) (n₀ n : RaftNode) : Prop :=
  ∃ hdr chunk, hdr.snapshotMeta = i.snapshotMeta ∧ hdr.SliceOf chunk i.bytes ∧
    hdr.done = n.chunkDone i ∧
    (n₀.env.encodes (.installSnapshot hdr chunk) = true → ∃ x ∈ n.sent.drop n₀.sent.length,
      x.receiver = i.peer ∧ x.message = .installSnapshot hdr chunk)

/-- The call that began in `n₀` has come to `n`. -/
structure Install.Underway (i : Install) (n₀ n : RaftNode) : Prop where
  onward : Onward n₀ n
  awaits : i.Awaits n₀ n

theorem chunkDone_of_limits (h : n'.config.limits = n.config.limits) (i : Install) :
    n'.chunkDone i = n.chunkDone i := by
  unfold RaftNode.chunkDone RaftNode.chunkEnd
  rw [h]

theorem Install.Underway.go (h : i.Underway n₀ n) (ho : Onward n n') : i.Underway n₀ n' := by
  obtain ⟨hdr, chunk, hmeta, hslice, hdone, hsent⟩ := h.awaits
  refine ⟨trans_of Onward h.onward ho, hdr, chunk, hmeta, hslice, ?_, fun henc => ?_⟩
  · rw [chunkDone_of_limits ho.limits]
    exact hdone
  · obtain ⟨x, hx, hreceiver, hmessage⟩ := hsent henc
    obtain ⟨l, hl⟩ := ho.wire
    refine ⟨x, ?_, hreceiver, hmessage⟩
    rw [← hl, List.drop_append]
    exact List.mem_append_left _ hx

/-- The chunk at an offset within the snapshot is a slice of it. -/
theorem sliceOf_chunkAt (n : RaftNode) (h : i.offset ≤ i.bytes.length) :
    (n.chunkHeader i ((i.bytes.take (n.chunkEnd i)).drop i.offset)).SliceOf
      ((i.bytes.take (n.chunkEnd i)).drop i.offset) i.bytes := by
  have hend : n.chunkEnd i ≤ i.bytes.length := Nat.min_le_right _ _
  have hle : i.offset ≤ n.chunkEnd i := le_min (Nat.le_add_right _ _) h
  have hlen : ((i.bytes.take (n.chunkEnd i)).drop i.offset).length = n.chunkEnd i - i.offset := by
    rw [List.length_drop, List.length_take, Nat.min_eq_left hend]
  refine ⟨?_, ?_, ?_⟩
  · rw [hlen]
    change i.offset + _ ≤ _
    omega
  · rw [hlen, List.drop_take]
    rfl
  · rw [hlen]
    change (n.chunkEnd i == i.bytes.length) = true ↔ i.offset + _ = _
    rw [beq_iff_eq]
    omega

theorem sendChunk_underway (hoff : i.offset ≤ i.bytes.length) (hn : Onward n₀ n) :
    Ends (sendChunk i) n (fun _ n' => i.Underway n₀ n') (fun _ => True) := by
  have hbeats : Emits (Moves .silent) (sendBareHeartbeatsExcept i.peer) n _ :=
    sendBareHeartbeatsExcept_emits i.peer
  refine sendChunk_ends (J := Onward n₀) ?_ hn ?_
  · refine (Ends.of_emits hbeats).mono (fun _ k h => ?_) fun _ _ => trivial
    exact trans_of Onward hn (h.1.onward id)
  · rintro k _ rfl hk
    unfold Ends
    rw [sendMessage_eq k i.peer _]
    dsimp only
    have hwire : Onward k (k.replied (k.env.encodes (k.chunkAt i)) i.peer (k.chunkAt i)) := by
      cases k.env.encodes (k.chunkAt i) with
      | false => exact refl_of Onward k
      | true => exact ⟨List.prefix_append _ _, rfl, rfl⟩
    refine ⟨trans_of Onward hk hwire, _, _, rfl, sliceOf_chunkAt k hoff, ?_, fun henc => ?_⟩
    · exact (chunkDone_of_limits hwire.limits i).symm
    · obtain ⟨l, hl⟩ := hk.wire
      rw [← hk.env] at henc
      refine ⟨⟨i.peer, k.chunkAt i, k.storage⟩, ?_, rfl, rfl⟩
      rw [henc]
      change _ ∈ (k.sent ++ [_]).drop _
      rw [← hl, List.append_assoc, List.drop_left' rfl]
      exact List.mem_append_right _ List.mem_cons_self

/-- The same transfer, at another offset. -/
def Install.SameTransfer (i j : Install) : Prop :=
  j.peer = i.peer ∧ j.snapshotMeta = i.snapshotMeta ∧ j.bytes = i.bytes

/-- A frame ends the call, or the call goes on, whatever follows. -/
theorem installLoop_turn {f : InboundRaftMessage} {fs : List InboundRaftMessage}
    (hi : i.Underway n₀ n) (h : installLoop (f :: fs) i n = .ok () n') :
    (∃ resp, i.responseOf f = some resp ∧ resp.accepted = true ∧
      (n.chunkDone i = true ∨ resp.nextOffset = i.bytes.length) ∧
      ∀ fs', installLoop (f :: fs') i n = .ok () n) ∨
    ∃ j m, i.SameTransfer j ∧ j.Underway n₀ m ∧
      ∀ fs', installLoop (f :: fs') i n = installLoop fs' j m := by
  cases hresp : i.responseOf f with
  | none =>
    rw [installLoop, hresp] at h
    obtain ⟨_, m, hrun, -⟩ := ok_of_bind h
    have hin : Emits (Moves (.calling (· = f) fun _ => True)) (handleInbound f) n _ :=
      handleInbound_emits rfl False.elim trivial
        ⟨fun _ _ _ _ => trivial, fun _ _ => ⟨trivial, fun _ => trivial⟩⟩
    have hinterlude : Emits Onward (installInterlude i f) n (fun _ _ => True) := by
      refine (hin.weaken fun _ h => h.onward id).seq fun _ _ _ _ => .read ?_
      split
      · exact .ret trivial
      · exact .fail
    refine .inr ⟨i, m, ⟨rfl, rfl, rfl⟩, hi.go (hinterlude.of_ok hrun).1, fun fs' => ?_⟩
    rw [installLoop, hresp]
    exact bind_of_ok hrun
  | some resp =>
    rw [installLoop, hresp] at h
    obtain ⟨r, m, hadvance, h⟩ := ok_of_bind h
    obtain ⟨rfl, hnone, hsome⟩ := (advanceInstall_continues i resp).of_ok hadvance
    cases r with
    | none =>
      refine .inl ⟨resp, rfl, (hnone rfl).1, (hnone rfl).2, fun fs' => ?_⟩
      rw [installLoop, hresp]
      exact bind_of_ok hadvance
    | some j =>
      obtain ⟨hpeer, hmeta, hbytes, hoff, -⟩ := hsome j rfl
      obtain ⟨_, k, hsend, -⟩ := ok_of_bind h
      refine .inr ⟨j, k, ⟨hpeer, hmeta, hbytes⟩, ?_, fun fs' => ?_⟩
      · exact (sendChunk_underway (hbytes ▸ hoff) hi.onward).of_ok hsend
      · rw [installLoop, hresp]
        exact (bind_of_ok hadvance).trans (bind_of_ok hsend)

end Leader

/-! ## Replies -/

/-- What the follower says to a chunk.  Only the response goes over the network. -/
structure Reply where
  msg : InstallSnapshot
  resp : InstallSnapshotResp
  /-- The snapshot it had saved when the chunk arrived. -/
  before : Option (SnapshotMeta × List UInt8)
  /-- The snapshot it has saved when it answers. -/
  after : Option (SnapshotMeta × List UInt8)
deriving DecidableEq

/-- The reply is one to the last chunk of `m`, or one that saves nothing where `m` is
saved. -/
def Reply.Concludes (r : Reply) (m : SnapshotMeta) (bytes : List UInt8) : Prop :=
  if r.msg.done then r.msg.snapshotMeta = m else r.before = some (m, bytes)

/-- What reaches the call. -/
inductive Delivery where
  | reply (r : Reply)
  | other (f : InboundRaftMessage)

def Delivery.frame (peer : PeerId) : Delivery → InboundRaftMessage
  | reply r => ⟨peer, .installSnapshotResp r.resp⟩
  | other f => f

section Call

variable {n₀ n n' : RaftNode} {i : Install} {peer : PeerId} {m : SnapshotMeta} {bytes : List UInt8}

theorem installLoop_ends {ds : List Delivery} (hi : i.Underway n₀ n)
    (hds : ∀ f, .other f ∈ ds → i.responseOf f = none)
    (h : installLoop (ds.map (Delivery.frame i.peer)) i n = .ok () n') :
    ∃ pre r post j k, ds = pre ++ .reply r :: post ∧ i.SameTransfer j ∧ j.Underway n₀ k ∧
      installLoop (pre.map (Delivery.frame i.peer)) i n = .error .noQuorum k ∧
      installLoop ((pre ++ [.reply r]).map (Delivery.frame i.peer)) i n = .ok () k ∧
      r.resp.accepted = true ∧
      (k.chunkDone j = true ∨ r.resp.nextOffset = i.bytes.length) := by
  induction ds generalizing i n with
  | nil => cases h
  | cons d ds ih =>
    rw [List.map_cons] at h
    obtain ⟨resp, hresp, hacc, hlast, hend⟩ | ⟨j, m, ⟨hpeer, hmeta, hbytes⟩, hj, hgo⟩ :=
      installLoop_turn hi h
    · cases d with
      | other f =>
        rw [Delivery.frame, hds f List.mem_cons_self] at hresp
        cases hresp
      | reply r =>
        have hreply : i.responseOf (Delivery.frame i.peer (.reply r)) = some r.resp := if_pos rfl
        obtain rfl := Option.some.inj (hreply.symm.trans hresp)
        exact ⟨[], r, ds, i, n, rfl, ⟨rfl, rfl, rfl⟩, hi, rfl, hend [], hacc, hlast⟩
    · rw [hgo, ← hpeer] at h
      have hds' : ∀ f, Delivery.other f ∈ ds → j.responseOf f = none := by
        intro f hf
        rw [← hds f (List.mem_cons_of_mem d hf)]
        unfold Install.responseOf
        rw [hpeer]
      obtain ⟨pre, r, post, k, m', rfl, ⟨hp, hm, hb⟩, hk, hwait, hdone, hacc, hlast⟩ :=
        ih hj hds' h
      rw [hpeer] at hwait hdone
      refine ⟨d :: pre, r, post, k, m', rfl, ⟨hp.trans hpeer, hm.trans hmeta, hb.trans hbytes⟩, hk,
        (hgo _).trans hwait, (hgo _).trans hdone, hacc, ?_⟩
      rw [hbytes] at hlast
      exact hlast

/-- On `pre` the call waits, with a chunk outstanding that it has put on the wire, and `r`
ends it. -/
structure EndsOn (n : RaftNode) (peer : PeerId) (m : SnapshotMeta) (bytes : List UInt8)
    (pre : List Delivery) (r : Reply) : Prop where
  waits : ∃ k, installSnapshotOnce peer m bytes (pre.map (Delivery.frame peer)) n =
    .error .noQuorum k
  returns : (installSnapshotOnce peer m bytes
    ((pre ++ [Delivery.reply r]).map (Delivery.frame peer))).result? n = some ()
  accepted : r.resp.accepted = true
  outstanding : ∃ hdr chunk, hdr.snapshotMeta = m ∧ hdr.SliceOf chunk bytes ∧
    (hdr.done = true ∨ r.resp.nextOffset = bytes.length) ∧
    (n.env.encodes (.installSnapshot hdr chunk) = true →
      ∃ x ∈ n.emitted (installSnapshotOnce peer m bytes (pre.map (Delivery.frame peer))),
        x.receiver = peer ∧ x.message = .installSnapshot hdr chunk)

theorem installSnapshotOnce_ends {ds : List Delivery}
    (hds : ∀ f, .other f ∈ ds → ∀ resp, f ≠ ⟨peer, .installSnapshotResp resp⟩)
    (h : installSnapshotOnce peer m bytes (ds.map (Delivery.frame peer)) n = .ok () n') :
    ∃ pre r post, ds = pre ++ .reply r :: post ∧ EndsOn n peer m bytes pre r := by
  let i : Install := ⟨peer, m, bytes, n.hardState.currentTerm, 0, 0⟩
  have hcall : ∀ fs, installSnapshotOnce peer m bytes fs n =
      if n.isLeader then (sendChunk i >>= fun _ => installLoop fs i) n
      else .error n.notLeaderError n := by
    intro fs
    unfold installSnapshotOnce
    rw [get_bind]
    split <;> rfl
  rw [hcall] at h
  split at h
  swap
  · cases h
  rename_i hl
  obtain ⟨_, n₁, hsend, hloop⟩ := ok_of_bind h
  have hi : i.Underway n n₁ :=
    (sendChunk_underway (Nat.zero_le _) (refl_of Onward n)).of_ok hsend
  have hgo : ∀ fs, installSnapshotOnce peer m bytes fs n = installLoop fs i n₁ := by
    intro fs
    rw [hcall, if_pos hl]
    exact bind_of_ok hsend
  have hother : ∀ f, Delivery.other f ∈ ds → i.responseOf f = none := by
    rintro ⟨sender, message⟩ hf
    cases message with
    | installSnapshotResp resp =>
      refine if_neg fun hsender => hds _ hf resp ?_
      rw [show sender = peer from hsender]
    | _ => rfl
  obtain ⟨pre, r, post, j, k, rfl, ⟨hpeer, hmeta, hbytes⟩, hk, hwait, hdone, hacc, hlast⟩ :=
    installLoop_ends hi hother hloop
  refine ⟨pre, r, post, rfl, ⟨k, (hgo _).trans hwait⟩, ?_, hacc, ?_⟩
  · unfold RaftM.result? EStateM.run
    rw [hgo, hdone]
  · have hbytes : j.bytes = bytes := hbytes
    obtain ⟨hdr, chunk, hm, hslice, hdone, hwire⟩ := hk.awaits
    refine ⟨hdr, chunk, hm.trans hmeta, hbytes ▸ hslice, hdone ▸ hlast, fun henc => ?_⟩
    obtain ⟨x, hx, hreceiver, hmessage⟩ := hwire henc
    refine ⟨x, ?_, hreceiver.trans hpeer, hmessage⟩
    rw [RaftNode.emitted, after_of_error ((hgo _).trans hwait)]
    exact hx

end Call

/-! ## The follower and the network -/

/-- The follower, what it has replied so far and what has reached the call. -/
structure Streaming where
  follower : Host
  replies : List Reply
  got : List Delivery

inductive StreamAct where
  | follower (env : Env) (a : TransferAct)
  | deliver (d : Delivery)

namespace Streaming

/-- The replies to a frame of the leader. -/
def answers (s : Streaming) (leader : PeerId) (env : Env) : Option InboundRaftMessage → List Reply
  | some ⟨sender, .installSnapshot msg chunk⟩ =>
    if sender = leader then
      let n := s.follower.node.within env
      let handle := handleInbound ⟨sender, .installSnapshot msg chunk⟩
      (n.emitted handle).filterMap fun x =>
        match x.message with
        | .installSnapshotResp resp =>
          some ⟨msg, resp, n.storage.snapshot, (handle.after n).storage.snapshot⟩
        | _ => none
    else []
  | _ => []

def step (leader : PeerId) (s : Streaming) : StreamAct → Option Streaming
  | .follower env a => (s.follower.transferStep (env, a)).map fun h =>
      { s with follower := h, replies := s.replies ++ s.answers leader env a.frame }
  | .deliver d => some { s with got := s.got ++ [d] }

/-- Chunks are slices of what their sender streams, and no reply is forged. -/
def Unforged (B : SnapshotSource) (peer : PeerId) (s : Streaming) : StreamAct → Prop
  | .follower _ a => ∀ f, a.frame = some f → f.Streams B
  | .deliver (.reply r) => r ∈ s.replies
  | .deliver (.other f) => ∀ resp, f ≠ ⟨peer, .installSnapshotResp resp⟩

/-- Runs from a follower in the state `h`, with nothing under way. -/
abbrev Run (B : SnapshotSource) (leader peer : PeerId) (h : Host) (s : Streaming) : Prop :=
  Reaches (step leader) (Unforged B peer) ⟨h, [], []⟩ s

/-- What holds in every run. -/
structure Sound (B : SnapshotSource) (leader peer : PeerId) (s : Streaming) : Prop where
  buffered : Buffered B s.follower.node
  saved : ∀ r ∈ s.replies, r.resp.accepted = true → r.after =
    if r.msg.done then some (r.msg.snapshotMeta, B leader r.msg.snapshotMeta) else r.before
  given : ∀ r, .reply r ∈ s.got → r ∈ s.replies
  others : ∀ f, .other f ∈ s.got → ∀ resp, f ≠ ⟨peer, .installSnapshotResp resp⟩

variable {B : SnapshotSource} {leader peer : PeerId} {s t : Streaming} {m : SnapshotMeta}

/-- A reply that accepts: behind the last chunk the snapshot is saved, behind another one
nothing is. -/
theorem Sound.answers (h : s.Sound B leader peer) (env : Env) {frame : Option InboundRaftMessage}
    (hf : ∀ f, frame = some f → f.Streams B) : ∀ r ∈ s.answers leader env frame,
    r.resp.accepted = true → r.after =
      if r.msg.done then some (r.msg.snapshotMeta, B leader r.msg.snapshotMeta) else r.before := by
  intro r hr hacc
  unfold Streaming.answers at hr
  split at hr
  · rename_i sender msg chunk
    split at hr
    · rename_i hsender
      obtain ⟨x, hx, hreply⟩ := List.mem_filterMap.mp hr
      have hn : Buffered B (s.follower.node.within env) :=
        h.buffered.spared (.same rfl rfl rfl rfl)
      obtain ⟨l, hl, hall⟩ :=
        (Ends.after (handleInbound_answered hn (hf _ rfl msg chunk rfl))).answers
      rw [RaftNode.emitted, hl, List.drop_left' rfl] at hx
      split at hreply
      · rename_i resp hmessage
        obtain rfl := Option.some.inj hreply
        rw [← hsender]
        exact hall x hx resp hmessage hacc
      · cases hreply
    · cases hr
  · cases hr

theorem Sound.step (h : s.Sound B leader peer) {a : StreamAct} (ha : s.Unforged B peer a)
    (hstep : s.step leader a = some t) : t.Sound B leader peer := by
  cases a with
  | follower env a =>
    obtain ⟨host, hhost, rfl⟩ := Option.map_eq_some_iff.mp hstep
    refine ⟨Host.transferStep_buffered (a := (env, a)) h.buffered ha hhost, ?_, ?_, h.others⟩
    · intro r hr
      obtain hr | hr := List.mem_append.mp hr
      · exact h.saved r hr
      · exact h.answers env ha r hr
    · exact fun r hr => List.mem_append_left _ (h.given r hr)
  | deliver d =>
    cases hstep
    refine ⟨h.buffered, h.saved, fun r hr => ?_, fun f hf => ?_⟩
    · obtain hr | hr := List.mem_append.mp hr
      · exact h.given r hr
      · obtain rfl := List.mem_singleton.mp hr
        exact ha
    · obtain hf | hf := List.mem_append.mp hf
      · exact h.others f hf
      · obtain rfl := List.mem_singleton.mp hf
        exact ha

theorem Run.sound {h₀ : Host} (hrun : Run B leader peer h₀ s) (hstart : h₀.Started) :
    s.Sound B leader peer := by
  refine Reaches.invariant (I := Sound B leader peer) hrun ?_ fun _ _ _ h ha hs => h.step ha hs
  exact ⟨Host.Streamed.buffered hstart .refl, nofun, nofun, nofun⟩

theorem Sound.after_iff (h : s.Sound B leader peer) {r : Reply} (hr : r ∈ s.replies)
    (hacc : r.resp.accepted = true) :
    r.after = some (m, B leader m) ↔ r.Concludes m (B leader m) := by
  rw [h.saved r hr hacc, Reply.Concludes]
  split
  · constructor
    · exact fun h => (Prod.mk.inj (Option.some.inj h)).1
    · rintro rfl
      rfl
  · rfl

end Streaming

/-- Node 2 handles a chunk of node 1. -/
def chunkStep (msg : InstallSnapshot) (chunk : List UInt8) : StreamAct :=
  .follower (Env.calm 1) (.host (.act (.inbound ⟨1, .installSnapshot msg chunk⟩)))

/-- Node 2 replies to its first chunk, and the call gets the reply `copies` times. -/
theorem run_of_reply {B : SnapshotSource} {msg : InstallSnapshot} {chunk : List UInt8} {r : Reply}
    (copies : Nat) (hslice : msg.SliceOf chunk (B 1 msg.snapshotMeta))
    (hreply : Streaming.answers ⟨transferHost, [], []⟩ 1 (Env.calm 1)
      (some ⟨1, .installSnapshot msg chunk⟩) = [r]) :
    Streaming.Run B 1 2 transferHost
      ⟨⟨(Action.inbound ⟨1, .installSnapshot msg chunk⟩).run
        (transferHost.node.within (Env.calm 1)), none⟩, [r],
        List.replicate copies (.reply r)⟩ := by
  induction copies with
  | zero =>
    refine Reaches.refl.next (chunkStep msg chunk) ?_ ?_
    · rintro _ ⟨⟩ _ _ ⟨⟩
      exact hslice
    · rw [chunkStep, Streaming.step]
      change some (Streaming.mk _ ([] ++ Streaming.answers _ _ _ (some _)) []) = _
      rw [hreply]
      rfl
  | succ k ih =>
    refine ih.next (.deliver (.reply r)) List.mem_cons_self ?_
    rw [List.replicate_succ']
    rfl

/-- The reply to the bytes 1, 2, 3 in one chunk. -/
def wholeReply : Reply := ⟨⟨1, 1, 9, 1, 0, 3, true⟩, ⟨1, 3, true⟩, none, some (⟨9, 1⟩, [1, 2, 3])⟩

/-- The reply to the first of the bytes 7, 8. -/
def firstReply : Reply := ⟨⟨2, 1, 20, 1, 0, 1, false⟩, ⟨2, 1, true⟩, none, none⟩

end ArbitroRaft
