import ArbitroRaft.Dispatch.Pending
import ArbitroRaft.Machine.Run

/-!
# Which transactions stay registered behind their completion

A dispatch leaves an open transaction exactly if it has a target and no answer of the local
handler settles it.  With one connected target that has answered, what an answer settles is
a matter of the policies and the number of targets alone (`DispatchOptions.LeavesOpen`).

The calls that keep to this, and waiters that look before the deadline, leave open
transactions only (`Clean`).

## Main results

* `registered_open_iff`: the calls after which only open transactions are registered.
-/

namespace ArbitroRaft

open Library

variable {R : Type}

/-! ## Open transactions by their counts -/

/-- A transaction over `n` targets none of which has answered. -/
def DispatchOptions.unanswered (o : DispatchOptions) (n : Nat) : DispatchState Unit :=
  { txId := 0
    command := 0
    options := o
    peers := List.replicate n { peer := 0, state := .pending }
    completion := none
    startInstant := 0
    timeout := o.timeout }

/-- With so many acceptances and failures among `n` connected targets, neither policy
settles a transaction. -/
def DispatchOptions.LeavesOpen (o : DispatchOptions) (n accepted failed : Nat) : Prop :=
  accepted < (o.unanswered n).requiredAccepts ∧ failed ≤ (o.unanswered n).allowedFailures ∧
    (o.unanswered n).requiredAccepts + failed ≤ n

instance (o : DispatchOptions) (n accepted failed : Nat) :
    Decidable (o.LeavesOpen n accepted failed) :=
  inferInstanceAs (Decidable (_ ∧ _))

namespace DispatchState

theorem activeCount_unanswered (o : DispatchOptions) (n : Nat) :
    (o.unanswered n).activeCount = n := by
  show (List.replicate n _).countP _ = n
  rw [List.countP_replicate]
  exact if_pos rfl

/-- A connected target has accepted, has failed or is pending. -/
theorem counts_add (s : DispatchState R) :
    s.acceptedCount + s.failedCount + s.pendingCount = s.activeCount := by
  show s.peers.countP _ + s.peers.countP _ + s.peers.countP _ = s.peers.countP _
  induction s.peers with
  | nil => rfl
  | cons slot rest ih =>
    have hslot : (if slot.state.isAccepted = true then 1 else 0) +
        (if slot.state.isFailed = true then 1 else 0) +
        (if slot.state.isPending = true then 1 else 0) =
        if slot.state.isConnected = true then 1 else 0 := by
      cases slot.state <;> rfl
    rw [List.countP_cons, List.countP_cons, List.countP_cons, List.countP_cons, ← ih, ← hslot]
    ac_rfl

/-- What the policies ask for depends on the options and the connected targets. -/
theorem policies_eq {s : DispatchState R} {o : DispatchOptions} {n : Nat}
    (hoptions : s.options = o) (hactive : s.activeCount = n) :
    s.requiredAccepts = (o.unanswered n).requiredAccepts ∧
      s.allowedFailures = (o.unanswered n).allowedFailures := by
  constructor
  · unfold requiredAccepts
    rw [activeCount_unanswered, hactive, hoptions]
    rfl
  · unfold allowedFailures
    rw [activeCount_unanswered, hactive, hoptions]
    rfl

theorem evaluate_open_iff {s : DispatchState R} (hopen : s.completion = none) :
    s.evaluate.completion = none ↔
      s.options.LeavesOpen s.activeCount s.acceptedCount s.failedCount := by
  obtain ⟨hrequired, hallowed⟩ := policies_eq (s := s) rfl rfl
  have hsum := s.counts_add
  unfold DispatchOptions.LeavesOpen
  rw [← hrequired, ← hallowed]
  unfold evaluate
  rw [if_neg (by rw [hopen]; exact Bool.false_ne_true)]
  dsimp only
  split
  · exact iff_of_false nofun (by omega)
  split
  · exact iff_of_false nofun (by omega)
  split
  · exact iff_of_false nofun (by omega)
  · exact iff_of_true hopen (by omega)

theorem evaluate_peers (s : DispatchState R) : s.evaluate.peers = s.peers := by
  cases hdone : s.completion with
  | some c =>
    unfold evaluate
    rw [hdone]
    rfl
  | none =>
    have hcases := evaluate_cases hdone
    generalize s.evaluate = t at hcases
    cases hcases <;> rfl

theorem evaluate_counts (s : DispatchState R) :
    s.evaluate.acceptedCount = s.acceptedCount ∧ s.evaluate.failedCount = s.failedCount := by
  unfold acceptedCount failedCount
  rw [evaluate_peers]
  exact ⟨rfl, rfl⟩

/-- With a target, a transaction in which nobody has answered is open. -/
theorem leavesOpen_unanswered (o : DispatchOptions) {n : Nat} (hn : 0 < n) :
    o.LeavesOpen n 0 0 := by
  have hactive := activeCount_unanswered o n
  refine ⟨?_, Nat.zero_le _, ?_⟩
  · unfold requiredAccepts
    rw [if_neg (by omega), hactive]
    cases (o.unanswered n).options.ack.policy <;> dsimp only <;> omega
  · unfold requiredAccepts
    rw [if_neg (by omega), hactive]
    cases (o.unanswered n).options.ack.policy <;> dsimp only
    case percent =>
      have hle : n * min (max (o.unanswered n).options.ack.percent.toNat 1) 100 ≤ n * 100 :=
        Nat.mul_le_mul_left _ (Nat.min_le_right _ _)
      omega
    all_goals omega

/-! ## One target answers -/

/-- The first slot of a peer, and the lists its moves lead to. -/
theorem moveSlot_of_find {peer : PeerId} {slots : List (DispatchPeerSlot R)}
    {slot : DispatchPeerSlot R} (h : slots.find? (fun s => s.peer = peer) = some slot)
    (next : DispatchPeerState R → DispatchPeerState R) :
    ∃ moved, moveSlot peer next slots = some moved ∧
      moved.find? (fun s => s.peer = peer) = some { slot with state := next slot.state } := by
  induction slots with
  | nil => cases h
  | cons first rest ih =>
    unfold moveSlot
    by_cases hpeer : first.peer = peer
    · rw [List.find?_cons_of_pos (by simpa using hpeer)] at h
      cases h
      rw [if_pos hpeer]
      exact ⟨_, rfl, List.find?_cons_of_pos (by simpa using hpeer)⟩
    · rw [List.find?_cons_of_neg (by simpa using hpeer)] at h
      obtain ⟨moved, hmoved, hfind⟩ := ih h
      rw [if_neg hpeer, hmoved]
      refine ⟨first :: moved, rfl, ?_⟩
      rw [List.find?_cons_of_neg (by simpa using hpeer)]
      exact hfind

/-- All targets are connected, and none but `peer` has answered. -/
structure Solo (o : DispatchOptions) (n : Nat) (peer : PeerId) (s : DispatchState R) : Prop where
  options_eq : s.options = o
  active_eq : s.activeCount = n
  slot : ∃ slot, s.peers.find? (fun t => t.peer = peer) = some slot ∧
    slot.state.isConnected = true ∧ s.acceptedCount = slot.state.isAccepted.toNat ∧
    s.failedCount = slot.state.isFailed.toNat

variable {o : DispatchOptions} {n : Nat} {peer : PeerId} {s : DispatchState R}

theorem Solo.congr (h : Solo o n peer s) {t : DispatchState R} (hpeers : t.peers = s.peers)
    (hoptions : t.options = s.options) : Solo o n peer t := by
  obtain ⟨ho, hactive, hslot⟩ := h
  constructor
  · exact hoptions.trans ho
  · unfold activeCount at hactive ⊢
    rw [hpeers]
    exact hactive
  · unfold acceptedCount failedCount at hslot ⊢
    rw [hpeers]
    exact hslot

/-- The peer moves on to a state that is connected. -/
theorem Solo.moved (h : Solo o n peer s) (next : DispatchPeerState R → DispatchPeerState R)
    (hnext : ∀ state, state.isConnected = true → (next state).isConnected = true) :
    ∃ slot moved, s.peers.find? (fun t => t.peer = peer) = some slot ∧
      moveSlot peer next s.peers = some moved ∧ Solo o n peer { s with peers := moved } ∧
      acceptedCount { s with peers := moved } = (next slot.state).isAccepted.toNat ∧
      failedCount { s with peers := moved } = (next slot.state).isFailed.toNat := by
  obtain ⟨ho, hactive, slot, hfind, hconn, haccepted, hfailed⟩ := h
  obtain ⟨moved, hmove, hmoved⟩ := moveSlot_of_find hfind next
  have hcount : ∀ p : DispatchPeerSlot R → Bool, moved.countP p + (p slot).toNat =
      s.peers.countP p + (p { slot with state := next slot.state }).toNat := by
    intro p
    obtain ⟨found, hfound, hp⟩ := countP_moveSlot hmove p
    rw [hfind] at hfound
    cases hfound
    exact hp
  have hkept := hnext slot.state hconn
  have hactive' : activeCount { s with peers := moved } = n := by
    have hp := hcount fun t => t.state.isConnected
    rw [hconn, hkept] at hp
    exact (Nat.add_right_cancel hp).trans hactive
  have haccepted' : acceptedCount { s with peers := moved } =
      (next slot.state).isAccepted.toNat := by
    have hp := hcount fun t => t.state.isAccepted
    change _ + slot.state.isAccepted.toNat = s.acceptedCount + _ at hp
    rw [haccepted, Nat.add_comm] at hp
    exact Nat.add_left_cancel hp
  have hfailed' : failedCount { s with peers := moved } = (next slot.state).isFailed.toNat := by
    have hp := hcount fun t => t.state.isFailed
    change _ + slot.state.isFailed.toNat = s.failedCount + _ at hp
    rw [hfailed, Nat.add_comm] at hp
    exact Nat.add_left_cancel hp
  exact ⟨slot, moved, hfind, hmove,
    ⟨ho, hactive', _, hmoved, hkept, haccepted', hfailed'⟩, haccepted', hfailed'⟩

/-- `update_peer_state` on the peer that may have answered already. -/
theorem Solo.updatePeerState (h : Solo o n peer s) (hopen : s.completion = none)
    (next : DispatchPeerState R → DispatchPeerState R)
    (hnext : ∀ state, state.isConnected = true → (next state).isConnected = true) :
    ∃ slot, s.peers.find? (fun t => t.peer = peer) = some slot ∧
      (s.updatePeerState peer next).1 = .ok () ∧ Solo o n peer (s.updatePeerState peer next).2 ∧
      ((s.updatePeerState peer next).2.completion = none ↔
        o.LeavesOpen n (next slot.state).isAccepted.toNat (next slot.state).isFailed.toNat) ∧
      (s.updatePeerState peer next).2.acceptedCount = (next slot.state).isAccepted.toNat ∧
      (s.updatePeerState peer next).2.failedCount = (next slot.state).isFailed.toNat := by
  obtain ⟨slot, moved, hfind, hmove, hsolo, haccepted, hfailed⟩ := h.moved next hnext
  have hstep : s.updatePeerState peer next = (.ok (), evaluate { s with peers := moved }) := by
    unfold DispatchState.updatePeerState
    rw [if_neg (by rw [hopen]; exact Bool.false_ne_true), hmove]
  obtain ⟨haccepted', hfailed'⟩ := evaluate_counts { s with peers := moved }
  refine ⟨slot, hfind, ?_⟩
  rw [hstep]
  refine ⟨rfl, hsolo.congr (evaluate_peers _) (evaluate_options _), ?_, haccepted'.trans haccepted,
    hfailed'.trans hfailed⟩
  · have hiff := evaluate_open_iff (s := { s with peers := moved }) hopen
    rw [haccepted, hfailed, hsolo.active_eq] at hiff
    exact hsolo.options_eq ▸ hiff

end DispatchState

/-! ## The answers of a handler -/

/-- What the sender of an answer is told: whether it could be decoded. -/
def answerResult (decode : List UInt8 → Except RaftError R) (kind : DispatchResponseKind)
    (payload : List UInt8) : Except RaftError Unit :=
  match kind with
  | .accepted => (decode payload).map fun _ => ()
  | .rejected | .progress | .failed => .ok ()

/-- The answers a handler sends, and what it returns. -/
def HandlerRun.trace (decode : List UInt8 → Except RaftError R) :
    HandlerRun → List (DispatchResponseKind × List UInt8) × Except RaftError Unit
  | .done result => ([], result)
  | .send kind payload next =>
    let (answers, result) := (next (answerResult decode kind payload)).trace decode
    ((kind, payload) :: answers, result)

/-- The answer of one among `n` targets does not settle their transaction. -/
def DispatchOptions.Bears (o : DispatchOptions) (n : Nat) (decode : List UInt8 → Except RaftError R)
    (answer : DispatchResponseKind × List UInt8) : Prop :=
  match answer.1 with
  | .accepted => (decode answer.2).isOk → o.LeavesOpen n 1 0
  | .rejected | .failed => o.LeavesOpen n 0 1
  | .progress => True

namespace DispatchState

variable {o : DispatchOptions} {n : Nat} {peer : PeerId} {s : DispatchState R}

/-- Open, with at most one answer. -/
structure OpenSolo (o : DispatchOptions) (n : Nat) (peer : PeerId) (s : DispatchState R) :
    Prop extends Solo o n peer s where
  opened : s.completion = none
  leaves : o.LeavesOpen n s.acceptedCount s.failedCount

theorem onResponse_of_resolved {c : DispatchCompletion R} (h : s.completion = some c)
    (decode : List UInt8 → Except RaftError R) (kind : DispatchResponseKind)
    (payload : List UInt8) :
    s.onResponse decode peer kind payload = (answerResult decode kind payload, s) := by
  have hstill : ∀ next, s.updatePeerState peer next = (.ok (), s) := by
    intro next
    unfold DispatchState.updatePeerState
    rw [h]
    rfl
  cases kind with
  | accepted =>
    unfold onResponse answerResult
    cases decode payload with
    | error e => rfl
    | ok value => exact hstill _
  | rejected => exact hstill _
  | progress => exact hstill _
  | failed => exact hstill _

/-- An answer leaves the transaction open if its policies bear it, and settles it if they
do not. -/
theorem OpenSolo.onResponse (h : OpenSolo o n peer s) (decode : List UInt8 → Except RaftError R)
    (kind : DispatchResponseKind) (payload : List UInt8) :
    (s.onResponse decode peer kind payload).1 = answerResult decode kind payload ∧
      (OpenSolo o n peer (s.onResponse decode peer kind payload).2 ∧
          o.Bears n decode (kind, payload) ∨
        (s.onResponse decode peer kind payload).2.completion.isSome ∧
          ¬ o.Bears n decode (kind, payload)) := by
  -- an answer that puts `a` acceptances and `f` failures in the place of what there was
  have hanswer : ∀ (next : DispatchPeerState R → DispatchPeerState R) (a f : Nat),
      (∀ state, state.isConnected = true → (next state).isConnected = true) →
      (∀ slot, s.peers.find? (fun t => t.peer = peer) = some slot →
        (next slot.state).isAccepted.toNat = a ∧ (next slot.state).isFailed.toNat = f) →
      (s.updatePeerState peer next).1 = .ok () ∧
        (OpenSolo o n peer (s.updatePeerState peer next).2 ∧ o.LeavesOpen n a f ∨
          (s.updatePeerState peer next).2.completion.isSome ∧ ¬ o.LeavesOpen n a f) := by
    intro next a f hnext hcounts
    obtain ⟨slot, hfind, hok, hsolo, hiff, haccepted, hfailed⟩ :=
      h.toSolo.updatePeerState h.opened next hnext
    obtain ⟨ha, hf⟩ := hcounts slot hfind
    rw [ha, hf] at hiff
    rw [ha] at haccepted
    rw [hf] at hfailed
    refine ⟨hok, ?_⟩
    by_cases hleaves : o.LeavesOpen n a f
    · left
      refine ⟨⟨hsolo, hiff.mpr hleaves, ?_⟩, hleaves⟩
      rw [haccepted, hfailed]
      exact hleaves
    · right
      exact ⟨Option.ne_none_iff_isSome.mp fun hnone => hleaves (hiff.mp hnone), hleaves⟩
  cases kind with
  | accepted =>
    unfold DispatchState.onResponse answerResult DispatchOptions.Bears
    cases hdecode : decode payload with
    | error e => exact ⟨rfl, .inl ⟨h, nofun⟩⟩
    | ok value =>
      have hstep := hanswer (fun _ => .accepted value) 1 0 (fun _ _ => rfl)
        (fun _ _ => ⟨rfl, rfl⟩)
      refine ⟨hstep.1, ?_⟩
      have hbears : ((Except.ok value : Except RaftError R).isOk = true →
          o.LeavesOpen n 1 0) ↔ o.LeavesOpen n 1 0 := forall_prop_of_true rfl
      dsimp only
      rw [hbears]
      exact hstep.2
  | rejected =>
    exact hanswer (fun _ => .rejected payload) 0 1 (fun _ _ => rfl) (fun _ _ => ⟨rfl, rfl⟩)
  | failed =>
    exact hanswer (fun _ => .failed payload) 0 1 (fun _ _ => rfl) (fun _ _ => ⟨rfl, rfl⟩)
  | progress =>
    obtain ⟨found, hfound, hconn, haccepted, hfailed⟩ := h.slot
    have hstep := hanswer
      (fun current => if current.isPending then .progress payload else current)
      s.acceptedCount s.failedCount
      (by
        intro state hstate
        split
        · rfl
        · exact hstate)
      (by
        intro slot hslot
        rw [hfound] at hslot
        cases hslot
        rw [haccepted, hfailed]
        cases found.state <;> exact ⟨rfl, rfl⟩)
    refine ⟨hstep.1, ?_⟩
    rcases hstep.2 with ⟨hopen, _⟩ | ⟨_, hnot⟩
    · exact .inl ⟨hopen, trivial⟩
    · exact absurd h.leaves hnot

/-- An answer that is refused leaves the transaction as it was. -/
theorem onResponse_of_error {decode : List UInt8 → Except RaftError R}
    {kind : DispatchResponseKind} {payload : List UInt8} {e : RaftError}
    (h : (s.onResponse decode peer kind payload).1 = .error e) :
    (s.onResponse decode peer kind payload).2 = s := by
  have hupdate : ∀ next, (s.updatePeerState peer next).1 = .error e →
      (s.updatePeerState peer next).2 = s := by
    intro next herror
    unfold DispatchState.updatePeerState at herror ⊢
    split at herror
    · cases herror
    · cases hmove : moveSlot peer next s.peers with
      | none => split <;> rfl
      | some moved =>
        rw [hmove] at herror
        cases herror
  cases kind with
  | accepted =>
    unfold onResponse at h ⊢
    cases hdecode : decode payload with
    | error e => rfl
    | ok value =>
      dsimp only at h ⊢
      rw [hdecode] at h
      exact hupdate _ h
  | rejected => exact hupdate _ h
  | progress => exact hupdate _ h
  | failed => exact hupdate _ h

/-- A poll leaves an open transaction open exactly if it is in time. -/
theorem pollWait_open_iff (hopen : s.completion = none) (now : Nat) (slept : Bool) :
    (s.pollWait now slept).completion = none ↔
      ∀ deadline, s.deadline = some deadline → ¬ (deadline ≤ now ∨ slept = true) := by
  unfold pollWait
  rw [if_neg (by rw [hopen]; exact Bool.false_ne_true)]
  cases s.deadline with
  | none => exact iff_of_true hopen fun _ heq => nomatch heq
  | some deadline =>
    dsimp only
    simp only [Option.some.injEq, forall_eq']
    split
    · rename_i hlate
      exact iff_of_false nofun fun hnot => hnot hlate
    · rename_i hearly
      exact iff_of_true hopen hearly

/-- A check is a poll that has not slept. -/
theorem checkTimeout_eq_pollWait (s : DispatchState R) (now : Nat) :
    s.checkTimeout now = s.pollWait now false := by
  unfold checkTimeout pollWait
  simp only [Bool.false_eq_true, or_false]

/-- The responder of a handler, on the one transaction. -/
def respond (decode : List UInt8 → Except RaftError R) (peer : PeerId) (kind : DispatchResponseKind)
    (payload : List UInt8) (s : DispatchState R) : Except RaftError Unit × DispatchState R :=
  s.onResponse decode peer kind payload

theorem exec_of_resolved {c : DispatchCompletion R} (h : s.completion = some c)
    (decode : List UInt8 → Except RaftError R) (run : HandlerRun) :
    run.exec (respond decode peer) s = ((run.trace decode).2, s) := by
  induction run with
  | done result => rfl
  | send kind payload next ih =>
    show (next (s.onResponse decode peer kind payload).1).exec (respond decode peer)
      (s.onResponse decode peer kind payload).2 = _
    rw [onResponse_of_resolved h]
    exact ih _

/-- A handler leaves the transaction open exactly if its policies bear every one of its
answers. -/
theorem OpenSolo.exec (h : OpenSolo o n peer s) (decode : List UInt8 → Except RaftError R)
    (run : HandlerRun) :
    (run.exec (respond decode peer) s).1 = (run.trace decode).2 ∧
      ((run.exec (respond decode peer) s).2.completion = none ↔
        ∀ answer ∈ (run.trace decode).1, o.Bears n decode answer) := by
  induction run generalizing s with
  | done result => exact ⟨rfl, iff_of_true h.opened nofun⟩
  | send kind payload next ih =>
    obtain ⟨hresult, hstep⟩ := h.onResponse decode kind payload
    show ((next (s.onResponse decode peer kind payload).1).exec (respond decode peer)
        (s.onResponse decode peer kind payload).2).1 =
        ((next (answerResult decode kind payload)).trace decode).2 ∧
      (((next (s.onResponse decode peer kind payload).1).exec (respond decode peer)
          (s.onResponse decode peer kind payload).2).2.completion = none ↔
        ∀ answer ∈ (kind, payload) :: ((next (answerResult decode kind payload)).trace decode).1,
          o.Bears n decode answer)
    rw [hresult, List.forall_mem_cons]
    rcases hstep with ⟨hopen, hbears⟩ | ⟨hdone, hnot⟩
    · obtain ⟨hsame, hiff⟩ := ih (answerResult decode kind payload) hopen
      exact ⟨hsame, hiff.trans (and_iff_right hbears).symm⟩
    · obtain ⟨c, hc⟩ := Option.isSome_iff_exists.mp hdone
      rw [exec_of_resolved hc]
      refine ⟨rfl, iff_of_false ?_ fun hall => hnot hall.1⟩
      rw [hc]
      exact nofun

end DispatchState

/-! ## Registered transactions -/

/-- A handler over the map moves the transaction it answers, and no other. -/
theorem exec_registered (run : HandlerRun) (pending : PendingCustom) (txId : UInt64)
    (peer : PeerId) (s : DispatchState R) (decode : List UInt8 → Except RaftError R) :
    run.exec (PendingCustom.respond peer txId) (pending.insert txId ⟨R, s, decode⟩) =
      ((run.exec (DispatchState.respond decode peer) s).1,
        pending.insert txId ⟨R, (run.exec (DispatchState.respond decode peer) s).2, decode⟩) := by
  induction run generalizing s with
  | done result => rfl
  | send kind payload next ih =>
    have hrespond : PendingCustom.respond peer txId kind payload
        (pending.insert txId ⟨R, s, decode⟩) =
        ((s.onResponse decode peer kind payload).1,
          pending.insert txId ⟨R, (s.onResponse decode peer kind payload).2, decode⟩) := by
      unfold PendingCustom.respond
      rw [AList.lookup_insert]
      dsimp only [PendingCustomTx.onResponse]
      rw [AList.insert_insert]
    show (next (PendingCustom.respond peer txId kind payload _).1).exec _
      (PendingCustom.respond peer txId kind payload _).2 = _
    rw [hrespond]
    exact ih _ _

namespace DispatchState

theorem find_map_pending {peer : PeerId} {targets : List PeerId} (hmem : peer ∈ targets) :
    (targets.map fun p => ({ peer := p, state := .pending } : DispatchPeerSlot R)).find?
      (fun t => t.peer = peer) = some { peer := peer, state := .pending } := by
  induction targets with
  | nil => cases hmem
  | cons first rest ih =>
    rw [List.map_cons]
    by_cases hpeer : first = peer
    · rw [List.find?_cons_of_pos (by simpa using hpeer), hpeer]
    · rw [List.find?_cons_of_neg (by simpa using hpeer)]
      exact ih ((List.mem_cons.mp hmem).resolve_left fun heq => hpeer heq.symm)

/-- A transaction begins with nobody having answered. -/
theorem openSolo_begin {txId : UInt64} {command : UInt8} {options : DispatchOptions}
    {targets : List PeerId} {now : Nat} {peer : PeerId} (hmem : peer ∈ targets) :
    OpenSolo options targets.length peer
      (beginTransaction txId command options targets now : DispatchState R) := by
  obtain ⟨haccepted, hfailed, hactive⟩ :=
    counts_unevaluated (R := R) txId command options targets now
  have hfind := find_map_pending (R := R) hmem
  have hsolo : Solo options targets.length peer
      (unevaluated (R := R) txId command options targets now) :=
    ⟨rfl, hactive, _, hfind, rfl, haccepted, hfailed⟩
  have hleaves := leavesOpen_unanswered options (List.length_pos_of_mem hmem)
  have hiff := evaluate_open_iff (s := unevaluated (R := R) txId command options targets now) rfl
  rw [hactive, haccepted, hfailed] at hiff
  obtain ⟨haccepted', hfailed'⟩ :=
    evaluate_counts (unevaluated (R := R) txId command options targets now)
  rw [haccepted] at haccepted'
  rw [hfailed] at hfailed'
  refine ⟨hsolo.congr (evaluate_peers _) (evaluate_options _), hiff.mpr hleaves, ?_⟩
  change options.LeavesOpen targets.length (unevaluated (R := R) txId command options targets
    now).evaluate.acceptedCount (unevaluated (R := R) txId command options targets
    now).evaluate.failedCount
  rw [haccepted', hfailed']
  exact hleaves

theorem begin_open_iff (txId : UInt64) (command : UInt8) (options : DispatchOptions)
    (targets : List PeerId) (now : Nat) :
    (beginTransaction txId command options targets now : DispatchState R).completion = none ↔
      targets ≠ [] := by
  cases targets with
  | nil => exact iff_of_false nofun (fun h => h rfl)
  | cons peer rest => exact iff_of_true (openSolo_begin List.mem_cons_self).opened nofun

end DispatchState

/-! ## The map behind a call -/

namespace DispatchHost

/-- Every registered transaction is open. -/
def Clean (h : DispatchHost) : Prop :=
  ∀ txId tx, h.pending.lookup txId = some tx → tx.state.completion = none

/-- The targets of an envelope. -/
def targets (h : DispatchHost) (envelope : DispatchEnvelope) : List PeerId :=
  h.node.populateDispatchTargets envelope.options.scope

/-- There is a target, and no answer of the local handler, if it is run, settles the
transaction. -/
def StaysOpen {P R : Type} (h : DispatchHost) (spec : DispatchSpec P R)
    (envelope : DispatchEnvelope) : Prop :=
  h.targets envelope ≠ [] ∧
    (envelope.bytes.length < 2 ^ 32 → h.node.config.nodeId ∈ h.targets envelope →
      ∀ answer ∈ ((h.localRun envelope).trace spec.decodeResponse).1,
        envelope.options.Bears (h.targets envelope).length spec.decodeResponse answer)

/-- The envelope fits a frame, and the local handler, if it is run, is there, is allowed to
run and returns without an error. -/
def Succeeds {P R : Type} (h : DispatchHost) (spec : DispatchSpec P R)
    (envelope : DispatchEnvelope) : Prop :=
  envelope.bytes.length < 2 ^ 32 ∧
    (h.node.config.nodeId ∈ h.targets envelope →
      ((h.localRun envelope).trace spec.decodeResponse).2 = .ok ())

variable {envelope : DispatchEnvelope} {h : DispatchHost}

theorem fanOut_long (h : DispatchHost) (uninit : Nat → UInt8)
    (hlong : ¬ envelope.bytes.length < 2 ^ 32) (targets : List PeerId) :
    ∃ e, h.fanOut uninit envelope targets = (.error e, [], h) := by
  have herror : ∃ e, Wire.wireLenU32 (Wire.bodyTotalLen (.custom envelope.bytes))
      "frame body length" = .error e := ⟨_, if_neg hlong⟩
  obtain ⟨e, he⟩ := herror
  refine ⟨e, ?_⟩
  unfold fanOut
  dsimp only
  rw [Wire.encodeMessageToBytes_long he]

theorem fanOut_remote (h : DispatchHost) (uninit : Nat → UInt8)
    (hfits : envelope.bytes.length < 2 ^ 32) {targets : List PeerId}
    (hremote : h.node.config.nodeId ∉ targets) :
    (h.fanOut uninit envelope targets).1 = .ok envelope.txId ∧
      (h.fanOut uninit envelope targets).2.2 = h := by
  have hframe : Wire.bodyTotalLen (.custom envelope.bytes) < 2 ^ 32 := hfits
  unfold fanOut
  dsimp only
  rw [Wire.encodeMessageToBytes_eq hframe]
  dsimp only
  rw [if_neg hremote]
  exact ⟨rfl, rfl⟩

theorem fanOut_local (h : DispatchHost) (uninit : Nat → UInt8)
    (hfits : envelope.bytes.length < 2 ^ 32) {targets : List PeerId}
    (hlocal : h.node.config.nodeId ∈ targets) {result : Except RaftError Unit}
    {pending : PendingCustom}
    (hexec : (h.localRun envelope).exec
      (PendingCustom.respond h.node.config.nodeId envelope.txId) h.pending = (result, pending)) :
    (h.fanOut uninit envelope targets).1 = result.map (fun _ => envelope.txId) ∧
      (h.fanOut uninit envelope targets).2.2 = { h with pending := pending } := by
  have hframe : Wire.bodyTotalLen (.custom envelope.bytes) < 2 ^ 32 := hfits
  unfold fanOut
  dsimp only
  rw [Wire.encodeMessageToBytes_eq hframe]
  dsimp only
  rw [if_pos hlocal, hexec]
  cases result <;> exact ⟨rfl, rfl⟩

/-- What a dispatch leaves: the transaction it registers, in a state that is open or not,
and a result that is an error or not. -/
theorem dispatch_spec {P R : Type} (h : DispatchHost) (spec : DispatchSpec P R) (params : P)
    (now : Nat) (uninit : Nat → UInt8) {cells : TxIdCells}
    (hbuild : (spec.dispatch params).build h.cells = (.ok envelope, cells)) :
    ∃ state : DispatchState R,
      (h.dispatch spec params now uninit).2.2 =
        { h with
          cells := cells
          pending := h.pending.insert envelope.txId ⟨R, state, spec.decodeResponse⟩ } ∧
      (state.completion = none ↔ h.StaysOpen spec envelope) ∧
      ((h.dispatch spec params now uninit).1 = .ok envelope.txId ∧ h.Succeeds spec envelope ∨
        (∃ e, (h.dispatch spec params now uninit).1 = .error e) ∧
          ¬ h.Succeeds spec envelope) := by
  obtain ⟨started, hstarted⟩ : ∃ started : DispatchState R, started = beginTransaction
      envelope.txId envelope.command envelope.options (h.targets envelope) now := ⟨_, rfl⟩
  have hbegin : started.completion = none ↔ h.targets envelope ≠ [] := by
    rw [hstarted]
    exact DispatchState.begin_open_iff ..
  obtain ⟨registered, hregistered⟩ : ∃ registered : DispatchHost, registered =
      { h with
        cells := cells
        pending := h.pending.insert envelope.txId ⟨R, started, spec.decodeResponse⟩ } := ⟨_, rfl⟩
  have hdispatch : h.dispatch spec params now uninit =
      registered.fanOut uninit envelope (h.targets envelope) := by
    rw [hregistered, hstarted]
    unfold dispatch
    rw [hbuild]
    rfl
  rw [hdispatch]
  by_cases hfits : envelope.bytes.length < 2 ^ 32
  · by_cases hlocal : h.node.config.nodeId ∈ h.targets envelope
    · have hopen : DispatchState.OpenSolo envelope.options (h.targets envelope).length
          h.node.config.nodeId started := by
        rw [hstarted]
        exact DispatchState.openSolo_begin hlocal
      obtain ⟨hresult, hiff⟩ := hopen.exec spec.decodeResponse (h.localRun envelope)
      have hexec := exec_registered (h.localRun envelope) h.pending envelope.txId
        h.node.config.nodeId started spec.decodeResponse
      have hfan := fanOut_local
        { h with
          cells := cells
          pending := h.pending.insert envelope.txId ⟨R, started, spec.decodeResponse⟩ }
        uninit hfits hlocal hexec
      rw [← hregistered] at hfan
      obtain ⟨hok, hafter⟩ := hfan
      refine ⟨((h.localRun envelope).exec
        (DispatchState.respond spec.decodeResponse h.node.config.nodeId) started).2, ?_, ?_, ?_⟩
      · rw [hafter, hregistered]
      · rw [hiff]
        unfold StaysOpen
        constructor
        · intro hbears
          exact ⟨List.ne_nil_of_mem hlocal, fun _ _ => hbears⟩
        · intro hstays
          exact hstays.2 hfits hlocal
      · rw [hok, hresult]
        unfold Succeeds
        cases hreturn : ((h.localRun envelope).trace spec.decodeResponse).2 with
        | ok u => exact .inl ⟨rfl, hfits, fun _ => rfl⟩
        | error e => exact .inr ⟨⟨e, rfl⟩, fun hsucc => nomatch hsucc.2 hlocal⟩
    · have hremote : registered.node.config.nodeId ∉ h.targets envelope := by
        rw [hregistered]
        exact hlocal
      obtain ⟨hok, hafter⟩ := registered.fanOut_remote uninit hfits hremote
      refine ⟨started, hafter.trans hregistered, ?_,
        .inl ⟨hok, hfits, fun hmem => absurd hmem hlocal⟩⟩
      rw [hbegin]
      exact ⟨fun hne => ⟨hne, fun _ hmem => absurd hmem hlocal⟩, fun hstays => hstays.1⟩
  · obtain ⟨e, herror⟩ := registered.fanOut_long uninit hfits (h.targets envelope)
    rw [herror]
    refine ⟨started, hregistered, ?_, .inr ⟨⟨e, rfl⟩, fun hsucc => hfits hsucc.1⟩⟩
    rw [hbegin]
    exact ⟨fun hne => ⟨hne, fun hlt => absurd hlt hfits⟩, fun hstays => hstays.1⟩

/-! ## Keeping the map clean -/

/-- A call keeps to what leaves no completed transaction: a dispatch that cannot be built,
or one that leaves its transaction open and succeeds; an answer; a look at a handle before
its deadline.  A dispatch that fails leaves no new entry if its id was registered already. -/
def Admits (h : DispatchHost) : DispatchCall → Prop
  | .dispatch _ _ spec params _ _ =>
    ∀ envelope, ((spec.dispatch params).build h.cells).1 = .ok envelope →
      h.StaysOpen spec envelope ∧ (h.Succeeds spec envelope ∨ envelope.txId ∈ h.pending)
  | .customResponse _ _ _ => True
  | .wait txId now slept =>
    ∀ tx, h.pending.lookup txId = some tx → ∀ deadline, tx.state.deadline = some deadline →
      now < deadline ∧ slept = false
  | .isReady txId now =>
    ∀ tx, h.pending.lookup txId = some tx → ∀ deadline, tx.state.deadline = some deadline →
      now < deadline

/-- Behind the call no registered transaction is complete, and if it returned an error no
entry is new. -/
structure Keeps (h : DispatchHost) (call : DispatchCall) : Prop where
  clean : (h.perform call).2.Clean
  error : ∀ e, (h.perform call).1 = .error e →
    ∀ txId ∈ (h.perform call).2.pending, txId ∈ h.pending

/-- One entry of a clean map is replaced. -/
theorem Clean.insert_iff (hclean : h.Clean) {g : DispatchHost} (txId : UInt64)
    (tx : PendingCustomTx) (hg : g.pending = h.pending.insert txId tx) :
    g.Clean ↔ tx.state.completion = none := by
  unfold Clean
  rw [hg]
  constructor
  · intro hall
    exact hall txId tx (AList.lookup_insert _)
  · intro hopen other found hfound
    by_cases heq : other = txId
    · subst heq
      rw [AList.lookup_insert] at hfound
      cases hfound
      exact hopen
    · rw [AList.lookup_insert_ne heq] at hfound
      exact hclean other found hfound

theorem keeps_dispatch_iff (hclean : h.Clean) {P R : Type} (spec : DispatchSpec P R) (params : P)
    (now : Nat) (uninit : Nat → UInt8) :
    h.Keeps (.dispatch P R spec params now uninit) ↔
      h.Admits (.dispatch P R spec params now uninit) := by
  rcases hbuild : (spec.dispatch params).build h.cells with ⟨e | envelope, cells⟩
  · have hdispatch : h.dispatch spec params now uninit = (.error e, [], { h with cells := cells }) := by
      unfold dispatch
      rw [hbuild]
    refine iff_of_true ⟨?_, ?_⟩ ?_
    · show (h.dispatch spec params now uninit).2.2.Clean
      rw [hdispatch]
      exact hclean
    · show ∀ _, _ → ∀ txId ∈ (h.dispatch spec params now uninit).2.2.pending, txId ∈ h.pending
      rw [hdispatch]
      exact fun _ _ _ hmem => hmem
    · intro envelope hok
      rw [hbuild] at hok
      cases hok
  · obtain ⟨state, hafter, hopen, hresult⟩ := h.dispatch_spec spec params now uninit hbuild
    have hpending : (h.perform (.dispatch P R spec params now uninit)).2.pending =
        h.pending.insert envelope.txId ⟨R, state, spec.decodeResponse⟩ := by
      show (h.dispatch spec params now uninit).2.2.pending = _
      rw [hafter]
    have hclean' := (hclean.insert_iff _ _ hpending).trans hopen
    constructor
    · intro hkeeps envelope' hok
      rw [hbuild] at hok
      cases hok
      refine ⟨hclean'.mp hkeeps.clean, ?_⟩
      rcases hresult with ⟨_, hsucc⟩ | ⟨⟨e, he⟩, _⟩
      · exact .inl hsucc
      · right
        apply hkeeps.error e
        · show Except.map _ (h.dispatch spec params now uninit).1 = _
          rw [he]
          rfl
        · rw [hpending]
          exact (AList.mem_insert _).mpr (.inl rfl)
    · intro hadmits
      obtain ⟨hstays, hsucc⟩ := hadmits envelope (by rw [hbuild])
      refine ⟨hclean'.mpr hstays, ?_⟩
      intro e he txId hmem
      rw [hpending] at hmem
      rcases (AList.mem_insert _).mp hmem with rfl | hold
      · rcases hresult with ⟨hok, _⟩ | ⟨_, hnot⟩
        · have hok' : (h.perform (.dispatch P R spec params now uninit)).1 = .ok () := by
            show Except.map _ (h.dispatch spec params now uninit).1 = _
            rw [hok]
            rfl
          rw [hok'] at he
          cases he
        · exact hsucc.resolve_left hnot
      · exact hold

/-- What an answer comes to: nothing, a registered transaction that moves on and is open
still if it was, or one that is taken off the map. -/
inductive Answered (h : DispatchHost) : DispatchHost → Prop
  | still : Answered h h
  | moved (txId : UInt64) (tx tx' : PendingCustomTx) (hfound : h.pending.lookup txId = some tx)
      (hopen : tx.state.completion = none → tx'.state.completion = none) :
      Answered h { h with pending := h.pending.insert txId tx' }
  | taken (txId : UInt64) : Answered h { h with pending := h.pending.erase txId }

theorem handleCustomResponse_cases (h : DispatchHost) (sender : PeerId) (payload : List UInt8)
    (now : Nat) : h.Answered (h.handleCustomResponse sender payload now).2 := by
  unfold handleCustomResponse
  cases DispatchResponseView.parse payload with
  | error e => exact .still
  | ok view =>
    dsimp only
    cases hfound : h.pending.lookup view.txId with
    | none => exact .still
    | some tx =>
      dsimp only
      rcases hresponse : tx.onResponse sender view.kind view.body with ⟨e | u, tx'⟩
      · apply Answered.moved view.txId tx tx' hfound
        intro hopen
        have hsame := DispatchState.onResponse_of_error (congrArg Prod.fst hresponse)
        have hstate : tx' = { tx with state := (tx.state.onResponse tx.decodeResponse sender
            view.kind view.body).2 } := (congrArg Prod.snd hresponse).symm
        rw [hstate]
        exact (congrArg DispatchState.completion hsame).trans hopen
      · dsimp only
        by_cases hready : (tx'.isReady now).1 = true
        · rw [if_pos hready]
          exact .taken view.txId
        · rw [if_neg hready]
          exact .moved view.txId tx _ hfound fun _ => Option.not_isSome_iff_eq_none.mp hready

/-- An answer takes the transaction it completes off the map. -/
theorem keeps_customResponse (hclean : h.Clean) (sender : PeerId) (payload : List UInt8)
    (now : Nat) :
    h.Keeps (.customResponse sender payload now) := by
  have hcases := h.handleCustomResponse_cases sender payload now
  have hkept : ∀ g, h.Answered g → g.Clean ∧ ∀ txId ∈ g.pending, txId ∈ h.pending := by
    intro g hg
    cases hg with
    | still => exact ⟨hclean, fun _ hmem => hmem⟩
    | moved txId tx tx' hfound hopen =>
      refine ⟨(hclean.insert_iff txId tx' rfl).mpr (hopen (hclean txId tx hfound)), ?_⟩
      intro other hmem
      rcases (AList.mem_insert _).mp hmem with rfl | hold
      · exact AList.lookup_isSome.mp (by rw [hfound]; rfl)
      · exact hold
    | taken txId =>
      constructor
      · intro other tx hfound
        by_cases heq : other = txId
        · subst heq
          rw [AList.lookup_erase] at hfound
          cases hfound
        · rw [AList.lookup_erase_ne heq] at hfound
          exact hclean other tx hfound
      · intro other hmem
        exact (AList.mem_erase.mp hmem).2
  exact ⟨(hkept _ hcases).1, fun _ _ => (hkept _ hcases).2⟩

/-- A look at a handle leaves the map as it was exactly if it does not find the deadline
passed. -/
theorem keeps_poll_iff (hclean : h.Clean) (txId : UInt64)
    (poll : {R : Type} → DispatchState R → DispatchState R) {late : Nat → Prop}
    (hpoll : ∀ {R : Type} (s : DispatchState R), s.completion = none →
      ((poll s).completion = none ↔ ∀ deadline, s.deadline = some deadline → ¬ late deadline)) :
    (h.pollHandle txId poll).Clean ↔ ∀ tx, h.pending.lookup txId = some tx →
      ∀ deadline, tx.state.deadline = some deadline → ¬ late deadline := by
  unfold pollHandle
  cases hfound : h.pending.lookup txId with
  | none => exact iff_of_true hclean fun _ heq => nomatch heq
  | some tx =>
    have hiff := hclean.insert_iff
      (g := { h with pending := h.pending.insert txId { tx with state := poll tx.state } })
      txId { tx with state := poll tx.state } rfl
    dsimp only
    rw [hiff, hpoll tx.state (hclean txId tx hfound)]
    constructor
    · intro hall found heq
      cases heq
      exact hall
    · intro hall
      exact hall tx rfl

/-- From a map of open transactions, a call leaves open transactions and no new entry behind
an error exactly if it keeps to the condition. -/
theorem keeps_iff_admits (hclean : h.Clean) (call : DispatchCall) :
    h.Keeps call ↔ h.Admits call := by
  -- a look at a handle returns no error
  have hpolled : ∀ {call : DispatchCall}, (h.perform call).1 = .ok () →
      (h.Keeps call ↔ (h.perform call).2.Clean) := by
    intro call hok
    refine ⟨fun hkeeps => hkeeps.clean, fun hafter => ⟨hafter, ?_⟩⟩
    intro e he
    rw [hok] at he
    cases he
  cases call with
  | dispatch P R spec params now uninit => exact keeps_dispatch_iff hclean spec params now uninit
  | customResponse sender payload now =>
    exact iff_of_true (keeps_customResponse hclean sender payload now) trivial
  | wait txId now slept =>
    rw [hpolled rfl]
    have hiff := keeps_poll_iff hclean txId (fun s => s.pollWait now slept)
      fun s hopen => DispatchState.pollWait_open_iff hopen now slept
    simp only [not_or, Nat.not_le, Bool.not_eq_true] at hiff
    exact hiff
  | isReady txId now =>
    rw [hpolled rfl]
    have hiff := keeps_poll_iff hclean txId (fun s => s.checkTimeout now) fun s hopen =>
      (s.checkTimeout_eq_pollWait now).symm ▸ DispatchState.pollWait_open_iff hopen now false
    simp only [Bool.false_eq_true, or_false, Nat.not_le] at hiff
    exact hiff

/-- One call, whatever it returns. -/
def step (h : DispatchHost) (call : DispatchCall) : Option DispatchHost :=
  some (h.perform call).2

/-- On a node whose registered transactions are open, a call of `dispatch` leaves only open
ones, and no new one behind an error, exactly if it cannot be built or else has a target,
is not settled by the local handler and does not fail behind its registration.  Answers
always do, and a look at a handle does before the deadline.  So in a run of such calls
every registered transaction is open. -/
theorem registered_open_iff {h : DispatchHost} (hclean : h.Clean) :
    (∀ call, h.Keeps call ↔ h.Admits call) ∧
    ∀ g, Reaches step Admits h g → g.Clean ∧ ∀ call, g.Admits call → g.Keeps call := by
  refine ⟨fun call => keeps_iff_admits hclean call, ?_⟩
  intro g hreaches
  have hg : g.Clean := by
    apply hreaches.invariant hclean
    intro u v call hu hadmits hstep
    cases hstep
    exact ((keeps_iff_admits hu call).mpr hadmits).clean
  exact ⟨hg, fun call hadmits => (keeps_iff_admits hg call).mpr hadmits⟩

/-- The leader of a group of three that has dispatched nothing, with one handler. -/
def leaderWith (handler : HandlerRun) : DispatchHost :=
  { node :=
      { trioNode 1 (.empty false) with
        softState := { leaderId := some 1, isLeader := true, role := .leader, commitIndex := 0 } }
    registry := fun _ => some { scope := .all, handler := fun _ => handler }
    cells := { epoch := 1, cells := [0] }
    pending := ∅ }

/-- A spec of that process, with the scope it dispatches to. -/
def pingSpec (scope : DispatchScope) : DispatchSpec Unit Unit :=
  { command := 3
    defaults := { DispatchOptions.default with scope := scope }
    txIds := 0
    encodeParams := fun _ => .ok []
    decodeParams := fun _ => .ok ()
    encodeResponse := fun _ => .ok []
    decodeResponse := fun _ => .ok () }

theorem clean_leaderWith (handler : HandlerRun) : (leaderWith handler).Clean := by
  intro txId tx hfound
  cases hfound

/-- A dispatch to the followers stays open. -/
theorem registered_open_ping :
    (leaderWith (.done (.ok ()))).Keeps
      (.dispatch Unit Unit (pingSpec .others) () 0 fun _ => 0) := by
  refine ((registered_open_iff (clean_leaderWith _)).1 _).mpr ?_
  intro envelope henvelope
  cases henvelope
  exact ⟨⟨by decide, fun _ hmem => absurd hmem (by decide)⟩,
    .inl ⟨by decide, fun hmem => absurd hmem (by decide)⟩⟩

/-- Whether the transaction of the first dispatch is registered, and is complete. -/
def firstCompleted (h : DispatchHost) : Option Bool :=
  (h.pending.lookup ((3 : UInt64) <<< 56)).map fun tx => tx.state.completion.isSome

/-- The handler of this node accepts at once: the transaction is complete and stays.  The
handler fails: the dispatch returns its error and the transaction stays. -/
theorem registered_leftovers :
    firstCompleted ((leaderWith (.send .accepted [] .done)).dispatch (pingSpec .localOnly) () 0
      fun _ => 0).2.2 = some true ∧
    ((leaderWith (.done (.error .overloaded))).dispatch (pingSpec .localOnly) () 0
      fun _ => 0).1 = .error .overloaded ∧
    firstCompleted ((leaderWith (.done (.error .overloaded))).dispatch (pingSpec .localOnly) () 0
      fun _ => 0).2.2 = some false := by
  decide

end DispatchHost

end ArbitroRaft
