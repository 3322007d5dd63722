import ArbitroRaft.Library.Reach
import ArbitroRaft.Machine.Run
import ArbitroRaft.Machine.Talk
import ArbitroRaft.Node.ReadIndex

/-!
# The freshness of counted acknowledgements

Any number of nodes act, run confirmation rounds and restart, in any interleaving.
Every frame that was ever sent stays on the wire: it may arrive late, out of order
and any number of times, and at a later process of its receiver.

Next to what the code keeps, a process keeps an account of its frames: for each
frame in `sent` the frame that was heard when it left, as a position in the list
of its sender, and the term the node had then.  With it one can say which
`AppendEntries` a counted acknowledgement answers.

The token of a round starts from zero with the process.  An acknowledgement that is
counted answers an `AppendEntries` of the round unless an earlier process of the
node sent one with the same token.

## Main results

* `acks_fresh_of_token_unused`: this, where no such token is reused.
* `confirmLeadershipQuorum_sound`: whom a confirmed read has heard.
-/

namespace ArbitroRaft

open Library

/-! ## The call -/

namespace Confirmation

/-- `peer` answered in the term of the round and with its token, in one of the frames. -/
def Heard (c : Confirmation) (frames : List InboundRaftMessage) (peer : PeerId) : Prop :=
  ∃ f ∈ frames, f.sender = peer ∧ ∃ resp, f.message = .appendEntriesResp resp ∧
    resp.term = c.term ∧ resp.probe = c.probe

/-- The round went on to `c'` with the answers among `frames`, nobody counted twice. -/
structure Extends (frames : List InboundRaftMessage) (c c' : Confirmation) : Prop where
  term : c'.term = c.term
  probe : c'.probe = c.probe
  nodup : c.acks.Nodup → c'.acks.Nodup
  acks : ∀ peer ∈ c'.acks, peer ∈ c.acks ∨ c.Heard frames peer

variable {c c' c'' : Confirmation} {frames frames' : List InboundRaftMessage}

theorem Extends.refl : Extends frames c c := ⟨rfl, rfl, id, fun _ hp => .inl hp⟩

theorem Heard.mono {peer : PeerId} (h : c.Heard frames peer) (hsub : frames ⊆ frames') :
    c.Heard frames' peer := by
  obtain ⟨f, hf, hrest⟩ := h
  exact ⟨f, hsub hf, hrest⟩

theorem Extends.append (h : Extends frames c c') (h' : Extends frames' c' c'') :
    Extends (frames ++ frames') c c'' := by
  refine ⟨h'.term.trans h.term, h'.probe.trans h.probe, fun hc => h'.nodup (h.nodup hc), ?_⟩
  intro peer hpeer
  rcases h'.acks peer hpeer with hpeer | hheard
  · exact (h.acks peer hpeer).imp id fun hheard => hheard.mono (List.subset_append_left _ _)
  · unfold Heard at hheard
    rw [h.term, h.probe] at hheard
    exact .inr (Heard.mono hheard (List.subset_append_right _ _))

theorem extends_count (c : Confirmation) (n : RaftNode) (f : InboundRaftMessage) :
    Extends [f] c (c.count n f) := by
  unfold count
  split
  · rename_i hcounts
    obtain ⟨sender, message⟩ := f
    cases message with
    | appendEntriesResp resp =>
      simp only [counts, Bool.and_eq_true, beq_iff_eq, decide_eq_true_eq] at hcounts
      obtain ⟨⟨⟨hterm, hprobe⟩, -⟩, hfresh⟩ := hcounts
      refine ⟨rfl, rfl, fun hc => List.nodup_append_comm.mp (List.nodup_cons.mpr ⟨hfresh, hc⟩), ?_⟩
      intro peer hpeer
      refine (List.mem_append.mp hpeer).imp id fun hpeer => ?_
      exact ⟨_, List.mem_cons_self, (List.mem_singleton.mp hpeer).symm, resp, rfl, hterm, hprobe⟩
    | _ => cases hcounts
  · exact .refl

end Confirmation

section Call

variable {n : RaftNode} {c : Confirmation}

theorem confirmFrames_extends (fs : List InboundRaftMessage) :
    Ends (confirmFrames fs c) n (fun c' _ => c.Extends fs c') (fun _ => True) := by
  induction fs generalizing n c with
  | nil => exact Confirmation.Extends.refl
  | cons f fs ih =>
    have hframe : Ends (confirmFrame f c) n (fun c' _ => c.Extends [f] c') (fun _ => True) :=
      Ends.read (Ends.any.seq fun _ _ _ => Ends.ret (c.extends_count n f))
    exact hframe.seq fun c' n' h => ih.mono (fun _ _ h' => h.append h') fun _ => id

/-- The round is over: a majority, in the term and with the lead. -/
structure Confirmed (frames : List InboundRaftMessage) (c c' : Confirmation) (n' : RaftNode) :
    Prop where
  answers : c.Extends frames c'
  majority : n'.voterMajority c'.acks = true
  leads : n'.isLeader = true ∧ n'.hardState.currentTerm = c.term

theorem confirmLoop_confirmed (turns : List ConfirmTurn) :
    Ends (confirmLoop turns c) n (fun c' n' => Confirmed (turns.flatMap (·.batch)) c c' n')
      (fun _ => True) := by
  induction turns generalizing n c with
  | nil =>
    unfold confirmLoop
    refine .read ?_
    split
    · rename_i hleads
      split
      · rename_i hmajority
        exact .ret ⟨.refl, hmajority, hleads⟩
      · exact .fail trivial
    · exact .fail trivial
  | cons turn rest ih =>
    unfold confirmLoop
    refine .read ?_
    split
    · rename_i hleads
      split
      · rename_i hmajority
        exact .ret ⟨.refl, hmajority, hleads⟩
      · refine Ends.any.seq fun _ n₁ _ => (confirmFrames_extends turn.batch).seq fun c₁ n₂ h₁ => ?_
        refine ih.mono (fun c' n' h => ?_) fun _ => id
        exact ⟨h₁.append h.answers, h.majority, h.leads.imp id fun ht => ht.trans h₁.term⟩
    · exact .fail trivial

end Call

/-! ## Processes and their accounts -/

/-- How a frame came to be sent. -/
structure Note where
  /-- The frame that was handled: its sender, and its place among the sender's. -/
  heard : Option (PeerId × Nat)
  /-- The term the node had. -/
  term : Nat
deriving DecidableEq, Repr

/-- A round that waits for acknowledgements. -/
structure Round where
  confirmation : Confirmation
  /-- How many frames the node had sent when the round began. -/
  began : Nat
  /-- The acknowledgements counted: their senders, and their places. -/
  counted : List (PeerId × Nat)
deriving DecidableEq, Repr

structure Process where
  node : RaftNode
  notes : List Note
  /-- How many frames earlier processes of the node had sent. -/
  boot : Nat
  /-- Rounds of this process. -/
  rounds : Nat
  round : Option Round

abbrev Processes := PeerId → Process

def Action.isProbe : Action → Bool
  | .bumpReadProbe => true
  | _ => false

inductive ProcessAct where
  /-- The frame it handles, if it handles one, is the one at `source`. -/
  | act (a : Action) (source : Nat)
  | beginRound (confirmTerm : Nat)
  /-- The round takes the frame at `source` of those `sender` sent. -/
  | roundFrame (sender : PeerId) (source : Nat)
  | endRound
  | restart (config : NodeConfig)

def ProcessAct.begins : ProcessAct → Bool
  | beginRound _ => true
  | _ => false

structure ProcessStep where
  site : PeerId
  env : Env
  act : ProcessAct

/-- The process went on to `n'`; the frames sent on the way are accounted for. -/
def Process.moved (p : Process) (n' : RaftNode) (heard : Option (PeerId × Nat)) : Process :=
  { p with
    node := n'
    notes := p.notes ++ List.replicate (n'.sent.length - p.node.sent.length)
      ⟨heard, n'.hardState.currentTerm⟩ }

/-- Every frame has its account, the token counts the rounds, and no `AppendEntries`
of the process is ahead of it. -/
structure Process.InOrder (p : Process) : Prop where
  length : p.notes.length = p.node.sent.length
  token : p.node.readProbeSeq = p.rounds
  stamped : ∀ j x msg, p.boot ≤ j → p.node.sent[j]? = some x →
    x.message.appendHeader? = some msg → msg.probe ≤ p.rounds

namespace Processes

/-- The frame at `k` of those its sender sent, addressed to `i`. -/
def delivers (s : Processes) (i : PeerId) (f : InboundRaftMessage) (k : Nat) : Bool :=
  ((s f.sender).node.sent[k]?).any fun x => decide (x.receiver = i ∧ x.message = f.message)

theorem delivers_iff {s : Processes} {i : PeerId} {f : InboundRaftMessage} {k : Nat} :
    s.delivers i f k = true ↔ ∃ x, (s f.sender).node.sent[k]? = some x ∧ x.receiver = i ∧
      x.message = f.message := by
  simp only [delivers, Option.any_eq_true, decide_eq_true_eq]

/-- The frame is on the wire, addressed to `i`. -/
def onWire (s : Processes) (i : PeerId) (f : InboundRaftMessage) : Bool :=
  (s f.sender).node.sent.any fun x => decide (x.receiver = i ∧ x.message = f.message)

/-- What process `i` does next; nothing, if a frame it would read is not there.  A
fresh probe is the beginning of a round. -/
def next (s : Processes) (i : PeerId) (env : Env) : ProcessAct → Option Process
  | .act a source =>
    if !a.isProbe && a.hears.all (s.onWire i) &&
        a.frame.all (fun f => s.delivers i f source) then
      some ((s i).moved (a.run ((s i).node.within env))
        (a.frame.map fun f => (f.sender, source)))
    else none
  | .beginRound confirmTerm =>
    match (s i).round, openConfirmation confirmTerm ((s i).node.within env) with
    | none, .ok c n' =>
      some { s i with
        node := n'
        rounds := (s i).rounds + 1
        round := some { confirmation := c, began := n'.sent.length, counted := [] } }
    | _, _ => none
  | .roundFrame sender source =>
    match (s i).round, (s sender).node.sent[source]? with
    | some r, some x =>
      if x.receiver = i then
        let n := (s i).node.within env
        let f : InboundRaftMessage := ⟨sender, x.message⟩
        match confirmFrame f r.confirmation n with
        | .ok c n' =>
          some { (s i).moved n' (some (sender, source)) with
            round := some
              { r with
                confirmation := c
                counted :=
                  if r.confirmation.counts n f then r.counted ++ [(sender, source)]
                  else r.counted } }
        | .error _ n' => some { (s i).moved n' (some (sender, source)) with round := none }
      else none
    | _, _ => none
  | .endRound => some { s i with round := none }
  | .restart config =>
    if config.nodeId = (s i).node.config.nodeId then
      (RaftNode.new config (s i).node.storage (s i).node.sent env).toOption.map fun n =>
        { s i with node := n, boot := n.sent.length, rounds := 0, round := none }
    else none

def step (s : Processes) (a : ProcessStep) : Option Processes :=
  (s.next a.site a.env a.act).map fun p => Function.update s a.site p

/-- Every node was just started, on some storage. -/
def Booted (s : Processes) : Prop :=
  ∀ i, ∃ config storage env n, RaftNode.new config storage [] env = .ok n ∧
    n.config.nodeId = i ∧ s i = ⟨n, [], 0, 0, none⟩

/-- A process runs fewer than `2 ^ 32 - 1` rounds. -/
def Bounded (s : Processes) (a : ProcessStep) : Prop :=
  match a.act with
  | .beginRound _ => (s a.site).rounds + 1 < 2 ^ 32 - 1
  | _ => True

/-- A process begins its round number `k` only if no `AppendEntries` of an earlier
process of the node carries `k`. -/
def TokenUnused (s : Processes) (a : ProcessStep) : Prop :=
  match a.act with
  | .beginRound _ => ∀ x ∈ (s a.site).node.sent.take (s a.site).boot,
      ∀ msg, x.message.appendHeader? = some msg → msg.probe ≠ (s a.site).rounds + 1
  | _ => True

/-- The frame at `k` of `peer` was sent in the term of the round, when `peer` handled
an `AppendEntries` that `i` had sent it after the round began. -/
def Fresh (s : Processes) (i : PeerId) (r : Round) (peer : PeerId) (k : Nat) : Prop :=
  ∃ j x, (s peer).notes[k]? = some ⟨some (i, j), r.confirmation.term⟩ ∧
    (s i).node.sent[j]? = some x ∧ x.receiver = peer ∧
    x.message.appendHeader?.isSome = true ∧ r.began ≤ j

/-! ## What every step keeps -/

/-- The answer at `k` of `i` has an account that names the `AppendEntries` it
answers. -/
def Accounted (s : Processes) (i : PeerId) (k : Nat) : Prop :=
  ∀ x resp, (s i).node.sent[k]? = some x → x.message.answer? = some resp →
    ∃ j y msg, (s i).notes[k]? = some ⟨some (x.receiver, j), resp.term⟩ ∧
      (s x.receiver).node.sent[j]? = some y ∧ y.receiver = i ∧
      y.message.appendHeader? = some msg ∧ msg.probe = resp.probe

/-- The token of the round is on no frame sent before it, and what was counted are
answers of its term with its token. -/
structure Kept (s : Processes) (i : PeerId) (r : Round) : Prop where
  began : r.began ≤ (s i).node.sent.length
  unused : ∀ j < r.began, ∀ x msg, (s i).node.sent[j]? = some x →
    x.message.appendHeader? = some msg → msg.probe ≠ r.confirmation.probe
  acks : ∃ self, r.confirmation.acks = self :: r.counted.map Prod.fst
  counted : ∀ c ∈ r.counted, ∃ x resp, (s c.1).node.sent[c.2]? = some x ∧ x.receiver = i ∧
    x.message.answer? = some resp ∧ resp.term = r.confirmation.term ∧
    resp.probe = r.confirmation.probe

structure Traced (s : Processes) : Prop where
  inOrder : ∀ i, (s i).InOrder
  accounted : ∀ i k, s.Accounted i k
  kept : ∀ i r, (s i).round = some r → s.Kept i r

theorem Traced.fresh {s : Processes} (h : s.Traced) {i : PeerId} {r : Round}
    (hr : (s i).round = some r) {peer : PeerId} {k : Nat} (hc : (peer, k) ∈ r.counted) :
    s.Fresh i r peer k := by
  have hk := h.kept i r hr
  obtain ⟨x, resp, hx, rfl, hresp, hterm, hprobe⟩ := hk.counted _ hc
  obtain ⟨j, y, msg, hnote, hy, hpeer, hmsg, hsame⟩ := h.accounted peer k x resp hx hresp
  refine ⟨j, y, hterm ▸ hnote, hy, hpeer, by rw [hmsg]; rfl, ?_⟩
  by_contra hlt
  exact hk.unused j (Nat.lt_of_not_le hlt) y msg hy hmsg (hsame.trans hprobe)

/-! ### Frames and accounts are only added -/

/-- Nothing that was sent or noted is gone. -/
def Grown (s s' : Processes) : Prop :=
  ∀ i, (s i).node.sent <+: (s' i).node.sent ∧ (s i).notes <+: (s' i).notes

section Grown

variable {s s' : Processes} {i : PeerId}

theorem getElem?_grown {α : Type} {l l' : List α} {k : Nat} (h : l <+: l')
    (hk : k < l.length) : l'[k]? = l[k]? :=
  (List.prefix_iff_getElem?.mp h k hk).trans (List.getElem?_eq_getElem hk).symm

theorem Grown.sent {k : Nat} {x : SentFrame} (h : Grown s s')
    (hx : (s i).node.sent[k]? = some x) : (s' i).node.sent[k]? = some x :=
  (getElem?_grown (h i).1 (List.getElem?_eq_some_iff.mp hx).1).trans hx

theorem Grown.notes {k : Nat} {x : Note} (h : Grown s s')
    (hx : (s i).notes[k]? = some x) : (s' i).notes[k]? = some x :=
  (getElem?_grown (h i).2 (List.getElem?_eq_some_iff.mp hx).1).trans hx

theorem Accounted.grown {k : Nat} (ha : s.Accounted i k) (h : Grown s s')
    (hk : k < (s i).node.sent.length) : s'.Accounted i k := by
  intro x resp hx hresp
  rw [getElem?_grown (h i).1 hk] at hx
  obtain ⟨j, y, msg, hnote, hy, hrest⟩ := ha x resp hx hresp
  exact ⟨j, y, msg, h.notes hnote, h.sent hy, hrest⟩

theorem Kept.grown {r : Round} (hr : s.Kept i r) (h : Grown s s') : s'.Kept i r := by
  refine ⟨hr.began.trans (h i).1.length_le, ?_, hr.acks, ?_⟩
  · intro j hj x msg hx
    rw [getElem?_grown (h i).1 (hj.trans_le hr.began)] at hx
    exact hr.unused j hj x msg hx
  · intro c hc
    obtain ⟨x, resp, hx, hrest⟩ := hr.counted c hc
    exact ⟨x, resp, h.sent hx, hrest⟩

/-- One process changed, and added to its frames and accounts. -/
theorem Grown.update {p : Process} (hs : (s i).node.sent <+: p.node.sent)
    (hn : (s i).notes <+: p.notes) : Grown s (Function.update s i p) := by
  intro j
  by_cases hj : j = i
  · subst hj
    rw [Function.update_self]
    exact ⟨hs, hn⟩
  · rw [Function.update_of_ne hj]
    exact ⟨List.prefix_rfl, List.prefix_rfl⟩

end Grown

/-! ### The steps -/

section Steps

variable {calm : Prop} {s : Processes} {i : PeerId} {p : Process}

/-- What is to be shown when one process moves: the others keep what they had. -/
theorem Traced.update (h : s.Traced) (hgrown : Grown s (Function.update s i p)) (hp : p.InOrder)
    (ha : ∀ k, (s i).node.sent.length ≤ k → Accounted (Function.update s i p) i k)
    (hk : ∀ r, p.round = some r → Kept (Function.update s i p) i r) :
    Traced (Function.update s i p) := by
  refine ⟨?_, ?_, ?_⟩
  · intro j
    by_cases hj : j = i
    · subst hj
      rw [Function.update_self]
      exact hp
    · rw [Function.update_of_ne hj]
      exact h.inOrder j
  · intro j k
    by_cases hlt : k < (s j).node.sent.length
    · exact (h.accounted j k).grown hgrown hlt
    · by_cases hj : j = i
      · subst hj
        exact ha k (Nat.le_of_not_lt hlt)
      · intro x resp hx
        rw [Function.update_of_ne hj] at hx
        exact absurd (List.getElem?_eq_some_iff.mp hx).1 hlt
  · intro j r hr
    by_cases hj : j = i
    · subst hj
      rw [Function.update_self] at hr
      exact hk r hr
    · rw [Function.update_of_ne hj] at hr
      exact (h.kept j r hr).grown hgrown

/-- The process changed without sending anything. -/
theorem Traced.still (h : s.Traced) (hsent : p.node.sent = (s i).node.sent)
    (hnotes : p.notes = (s i).notes) (htoken : p.node.readProbeSeq = p.rounds)
    (hstamped : ∀ j x msg, p.boot ≤ j → (s i).node.sent[j]? = some x →
      x.message.appendHeader? = some msg → msg.probe ≤ p.rounds)
    (hkept : ∀ r, p.round = some r → s.Kept i r) : Traced (Function.update s i p) := by
  have hgrown : Grown s (Function.update s i p) :=
    .update (hsent ▸ List.prefix_rfl) (hnotes ▸ List.prefix_rfl)
  refine h.update hgrown ⟨?_, htoken, hsent ▸ hstamped⟩ ?_ fun r hr => (hkept r hr).grown hgrown
  · rw [hnotes, hsent]
    exact (h.inOrder i).length
  · intro k hle x resp hx
    rw [Function.update_self, hsent] at hx
    exact absurd (List.getElem?_eq_some_iff.mp hx).1 (Nat.not_lt_of_le hle)

variable {env : Env} {n' n : RaftNode} {c : Confirmation}

theorem Grown.moved {f : Option InboundRaftMessage}
    (hspoke : Spoke calm f ((s i).node.within env) n') (heard : Option (PeerId × Nat)) :
    Grown s (Function.update s i ((s i).moved n' heard)) := by
  obtain ⟨-, l, hl, -⟩ := hspoke.frames
  exact .update ⟨l, hl.symm⟩ ⟨_, rfl⟩

/-- The process handled a frame, or none, and accounted for what it sent. -/
theorem Traced.moved (h : s.Traced) {f : Option InboundRaftMessage} {heard : Option (PeerId × Nat)}
    (hspoke : Spoke calm f ((s i).node.within env) n')
    (hf : ∀ g, f = some g → ∃ k, heard = some (g.sender, k) ∧ s.delivers i g k = true) :
    Traced (Function.update s i ((s i).moved n' heard)) := by
  obtain ⟨htoken, l, hl, hstamped, hanswers⟩ := hspoke.frames
  have hl : n'.sent = (s i).node.sent ++ l := hl
  have hnotes : ((s i).moved n' heard).notes =
      (s i).notes ++ List.replicate l.length ⟨heard, n'.hardState.currentTerm⟩ := by
    unfold Process.moved
    rw [hl, List.length_append, Nat.add_sub_cancel_left]
  have hgrown := Grown.moved hspoke heard
  -- The frames beyond the old ones are those of `l`.
  have hnew : ∀ k x, (s i).node.sent.length ≤ k → n'.sent[k]? = some x → x ∈ l := by
    intro k x hle hx
    rw [hl, List.getElem?_append_right hle] at hx
    exact List.mem_of_getElem? hx
  refine h.update hgrown ⟨?_, htoken.trans (h.inOrder i).token, ?_⟩ ?_ ?_
  · rw [hnotes, List.length_append, List.length_replicate, (h.inOrder i).length,
      ← List.length_append, ← hl]
    rfl
  · intro j x msg hboot hx hmsg
    by_cases hlt : j < (s i).node.sent.length
    · refine (h.inOrder i).stamped j x msg hboot ?_ hmsg
      rw [← List.getElem?_append_left hlt, ← hl]
      exact hx
    · have hx := hnew j x (Nat.le_of_not_lt hlt) hx
      have hprobe : msg.probe = (s i).node.readProbeSeq := hstamped x hx msg hmsg
      exact (hprobe.trans (h.inOrder i).token).le
  · intro k hle x resp hx hresp
    rw [Function.update_self] at hx
    obtain ⟨g, msg, hg, hreceiver, hmsg, hprobe, hterm⟩ :=
      hanswers x (hnew k x hle hx) resp hresp
    obtain ⟨j, rfl, hdelivers⟩ := hf g hg
    obtain ⟨y, hy, hyi, hym⟩ := delivers_iff.mp hdelivers
    have hlt : k - (s i).node.sent.length < l.length := by
      have hk := (List.getElem?_eq_some_iff.mp hx).1
      have hsent : ((s i).moved n' (some (g.sender, j))).node.sent.length =
          (s i).node.sent.length + l.length := (congrArg List.length hl).trans List.length_append
      omega
    refine ⟨j, y, msg, ?_, ?_, hyi, hym ▸ hmsg, hprobe⟩
    · rw [Function.update_self, hnotes, List.getElem?_append_right ((h.inOrder i).length ▸ hle),
        (h.inOrder i).length, List.getElem?_replicate, if_pos hlt, hreceiver, hterm]
    · rw [hreceiver]
      exact hgrown.sent hy
  · exact fun r hr => (h.kept i r hr).grown hgrown

/-- The beginning of a round sends nothing and takes the next token. -/
theorem openConfirmation_ok {confirmTerm : Nat} (h : openConfirmation confirmTerm n = .ok c n')
    (hn : n.readProbeSeq + 1 < 2 ^ 32) :
    n'.sent = n.sent ∧ n'.readProbeSeq = n.readProbeSeq + 1 ∧ c.probe = n'.readProbeSeq ∧
      c.acks = [n.config.nodeId] := by
  obtain ⟨rfl, rfl⟩ : _ = c ∧ _ = n' := EStateM.Result.ok.inj h
  refine ⟨rfl, ?_, rfl, rfl⟩
  change (if (n.readProbeSeq + 1) % 2 ^ 32 = 0 then 1 else (n.readProbeSeq + 1) % 2 ^ 32) = _
  rw [Nat.mod_eq_of_lt hn, if_neg (Nat.succ_ne_zero _)]

/-- A round begins, with a token that no earlier frame carries. -/
theorem Traced.begun (h : s.Traced) {confirmTerm : Nat}
    (hopen : openConfirmation confirmTerm ((s i).node.within env) = .ok c n')
    (hbound : (s i).rounds + 1 < 2 ^ 32 - 1)
    (hunused : ∀ x ∈ (s i).node.sent.take (s i).boot, ∀ msg,
      x.message.appendHeader? = some msg → msg.probe ≠ (s i).rounds + 1) :
    Traced (Function.update s i
      { s i with
        node := n'
        rounds := (s i).rounds + 1
        round := some { confirmation := c, began := n'.sent.length, counted := [] } }) := by
  have hseq : ((s i).node.within env).readProbeSeq = (s i).rounds := (h.inOrder i).token
  obtain ⟨hsent, htoken, hprobe, hacks⟩ := openConfirmation_ok hopen (by omega)
  rw [hseq] at htoken
  refine h.still hsent rfl htoken ?_ ?_
  · intro j x msg hboot hx hmsg
    exact ((h.inOrder i).stamped j x msg hboot hx hmsg).trans (Nat.le_succ _)
  · rintro r ⟨⟩
    refine ⟨(congrArg List.length hsent).le, ?_, ⟨_, hacks⟩, fun c hc =>
      absurd hc List.not_mem_nil⟩
    intro j _ x msg hx hmsg
    rw [hprobe, htoken]
    by_cases hj : j < (s i).boot
    · refine hunused x ?_ msg hmsg
      exact List.mem_of_getElem? ((List.getElem?_take_of_lt hj).trans hx)
    · have hle := (h.inOrder i).stamped j x msg (Nat.le_of_not_lt hj) hx hmsg
      omega

/-- A frame is counted if it is an answer of the round, and then handled. -/
theorem confirmFrame_spoke (f : InboundRaftMessage) (c : Confirmation) (n : RaftNode) :
    Ends (confirmFrame f c) n (fun c' n' => Spoke True (some f) n n' ∧ c' = c.count n f)
      (fun n' => Spoke True (some f) n n') := by
  unfold confirmFrame
  refine .read ?_
  exact (handleInboundTolerant_speaks f n).seq fun _ _ h => .ret ⟨h, rfl⟩

theorem answer_of_counts {f : InboundRaftMessage} (h : c.counts n f = true) :
    ∃ resp, f.message.answer? = some resp ∧ resp.term = c.term ∧ resp.probe = c.probe := by
  unfold Confirmation.counts at h
  split at h
  · rename_i resp hmessage
    simp only [Bool.and_eq_true, beq_iff_eq] at h
    exact ⟨resp, congrArg RaftMessage.answer? hmessage, h.1.1.1, h.1.1.2⟩
  · cases h

/-- The round goes on to its next frame. -/
theorem Kept.count {r : Round} (hr : s.Kept i r) (n : RaftNode) {sender : PeerId} {source : Nat}
    {x : SentFrame} (hx : (s sender).node.sent[source]? = some x) (hreceiver : x.receiver = i) :
    s.Kept i
      { r with
        confirmation := r.confirmation.count n ⟨sender, x.message⟩
        counted := if r.confirmation.counts n ⟨sender, x.message⟩
          then r.counted ++ [(sender, source)] else r.counted } := by
  unfold Confirmation.count
  cases hcounts : r.confirmation.counts n ⟨sender, x.message⟩ with
  | false => exact ⟨hr.began, hr.unused, hr.acks, hr.counted⟩
  | true =>
    obtain ⟨resp, hresp, hterm, hprobe⟩ := answer_of_counts hcounts
    obtain ⟨self, hself⟩ := hr.acks
    refine ⟨hr.began, hr.unused, ⟨self, ?_⟩, ?_⟩
    · simp only [if_true, hself, List.map_append, List.map_cons, List.map_nil, List.cons_append]
    · intro c hc
      obtain hc | hc := List.mem_append.mp hc
      · exact hr.counted c hc
      · rw [List.mem_singleton.mp hc]
        exact ⟨x, resp, hx, hreceiver, hresp, hterm, hprobe⟩

/-- A frame of the round is handled like any other. -/
theorem Traced.roundMoved (h : s.Traced) {sender : PeerId} {source : Nat} {x : SentFrame}
    (hx : (s sender).node.sent[source]? = some x) (hreceiver : x.receiver = i)
    (hspoke : Spoke calm (some ⟨sender, x.message⟩) ((s i).node.within env) n') {r : Option Round}
    (hr : ∀ r', r = some r' → s.Kept i r') :
    Traced (Function.update s i
      { (s i).moved n' (some (sender, source)) with round := r }) := by
  have hmoved : Traced (Function.update s i ((s i).moved n' (some (sender, source)))) := by
    refine h.moved hspoke ?_
    rintro g ⟨⟩
    exact ⟨source, rfl, delivers_iff.mpr ⟨x, hx, hreceiver, rfl⟩⟩
  have hself := hmoved.inOrder i
  rw [Function.update_self] at hself
  rw [← Function.update_idem ((s i).moved n' (some (sender, source)))]
  have hgrown := Grown.moved hspoke (some (sender, source))
  refine hmoved.still ?_ ?_ hself.token ?_ fun r' hr' => (hr r' hr').grown hgrown
  · rw [Function.update_self]
  · rw [Function.update_self]
  · rw [Function.update_self]
    exact hself.stamped

/-- A process starts again from its storage. -/
theorem Traced.restarted (h : s.Traced) {config : NodeConfig}
    (hnew : RaftNode.new config (s i).node.storage (s i).node.sent env = .ok n) :
    Traced (Function.update s i
      { s i with node := n, boot := n.sent.length, rounds := 0, round := none }) := by
  obtain rfl := RaftNode.new_eq hnew
  refine h.still rfl rfl rfl ?_ fun r hr => by cases hr
  intro j x msg hboot hx
  exact absurd (List.getElem?_eq_some_iff.mp hx).1 (Nat.not_lt_of_le hboot)

/-- A step keeps the account. -/
theorem Traced.step {t : Processes} {a : ProcessStep} (h : s.Traced) (hbound : s.Bounded a)
    (hunused : s.TokenUnused a) (hstep : s.step a = some t) : t.Traced := by
  obtain ⟨i, env, act⟩ := a
  obtain ⟨p, hnext, rfl⟩ := Option.map_eq_some_iff.mp hstep
  dsimp only at hnext ⊢
  cases act with
  | act a source =>
    simp only [next, Option.ite_none_right_eq_some, Bool.and_eq_true, Bool.not_eq_true',
      Option.some.injEq] at hnext
    obtain ⟨⟨⟨hprobe, -⟩, hframe⟩, rfl⟩ := hnext
    have hne : a ≠ .bumpReadProbe := by
      rintro rfl
      cases hprobe
    refine h.moved (a.spoke hne _) ?_
    intro g hg
    rw [hg] at hframe ⊢
    exact ⟨source, rfl, hframe⟩
  | beginRound confirmTerm =>
    simp only [next] at hnext
    split at hnext
    · rename_i hopen
      cases hnext
      exact h.begun hopen hbound hunused
    · cases hnext
  | roundFrame sender source =>
    simp only [next] at hnext
    split at hnext
    · rename_i r x hround hx
      split at hnext
      · rename_i hreceiver
        have hspoke := confirmFrame_spoke ⟨sender, x.message⟩ r.confirmation
          ((s i).node.within env)
        unfold Ends at hspoke
        split at hnext
        · rename_i hframe
          rw [hframe] at hspoke
          obtain ⟨hspoke, rfl⟩ := hspoke
          cases hnext
          refine h.roundMoved hx hreceiver hspoke ?_
          rintro r' ⟨⟩
          exact (h.kept i r hround).count _ hx hreceiver
        · rename_i hframe
          rw [hframe] at hspoke
          cases hnext
          exact h.roundMoved hx hreceiver hspoke fun r' hr' => by cases hr'
      · cases hnext
    · cases hnext
  | endRound =>
    cases hnext
    exact h.still rfl rfl (h.inOrder i).token (h.inOrder i).stamped fun r hr => by cases hr
  | restart config =>
    simp only [next, Option.ite_none_right_eq_some, Option.map_eq_some_iff] at hnext
    obtain ⟨-, n, hnew, rfl⟩ := hnext
    cases hok : RaftNode.new config (s i).node.storage (s i).node.sent env with
    | error e =>
      rw [hok] at hnew
      cases hnew
    | ok m =>
      rw [hok] at hnew
      cases hnew
      exact h.restarted hok

end Steps

/-- Whoever was counted in a round answered an `AppendEntries` of the round, in its
term. -/
def AcksFresh (s : Processes) : Prop :=
  ∀ i r, (s i).round = some r →
    (∃ self, r.confirmation.acks = self :: r.counted.map Prod.fst) ∧
      ∀ c ∈ r.counted, s.Fresh i r c.1 c.2

theorem Booted.traced {s : Processes} (hs : s.Booted) : s.Traced := by
  refine ⟨?_, ?_, ?_⟩
  · intro i
    obtain ⟨config, storage, env, n, hnew, -, hi⟩ := hs i
    obtain rfl := RaftNode.new_eq hnew
    rw [hi]
    exact ⟨rfl, rfl, fun j x msg _ hx => nomatch hx⟩
  · intro i k x resp hx
    obtain ⟨config, storage, env, n, hnew, -, hi⟩ := hs i
    obtain rfl := RaftNode.new_eq hnew
    rw [hi] at hx
    cases hx
  · intro i r hr
    obtain ⟨config, storage, env, n, hnew, -, hi⟩ := hs i
    rw [hi] at hr
    cases hr

/-- As long as a process takes no token that an earlier one put on the wire, every
acknowledgement that a round counts is fresh, whatever happened before the round. -/
theorem acks_fresh_of_token_unused {s t : Processes} (hs : s.Booted)
    (h : Reaches step (fun s a => s.Bounded a ∧ s.TokenUnused a) s t) : t.AcksFresh := by
  have htraced : t.Traced := h.invariant hs.traced fun u v a hu ha hstep =>
    hu.step ha.1 ha.2 hstep
  intro i r hr
  exact ⟨(htraced.kept i r hr).acks, fun c hc => htraced.fresh hr hc⟩

/-! ## Runs -/

/-- The voters 1, 2 and 3; anyone else is on their own. -/
def readConfig (i : PeerId) : NodeConfig :=
  if i = 1 ∨ i = 2 ∨ i = 3 then trioConfig i
  else { trioConfig i with peers := [i], bootstrapPeers := [i] }

def readCluster : Processes := fun i =>
  ⟨RaftNode.fromStorage (readConfig i) (Storage.empty false) [] (Env.calm 0), [], 0, 0, none⟩

theorem booted_readCluster : readCluster.Booted := by
  intro i
  refine ⟨readConfig i, Storage.empty false, Env.calm 0, _, ?_, ?_, rfl⟩
  · unfold readConfig RaftNode.new
    split
    · rename_i hi
      rcases hi with rfl | rfl | rfl <;> rfl
    · have hvalid : validateNodeConfig
          { trioConfig i with peers := [i], bootstrapPeers := [i] } = .ok () := by
        simp only [validateNodeConfig, List.cons_ne_self, if_false, trioConfig, List.mem_cons,
          List.not_mem_nil, or_false, not_true_eq_false, not_false_eq_true, and_true,
          List.nodup_cons, List.nodup_nil, and_self, validateLearners]
        rfl
      rw [hvalid]
      rfl
  · change (readConfig i).nodeId = i
    unfold readConfig
    split <;> rfl

def calmAct (i : PeerId) (a : Action) (source : Nat) : ProcessStep :=
  ⟨i, Env.calm 0, .act a source⟩

def calmRound (i : PeerId) (a : ProcessAct) : ProcessStep := ⟨i, Env.calm 0, a⟩

/-- Node 1 wins `term` with the vote of node 2 and commits a no-op with it.  Before,
the log held a no-op for each earlier term, and the two had sent `sent` and `sent'`
frames. -/
def winsAndCommits (term sent sent' : Nat) : List ProcessStep :=
  [calmAct 1 .startElection 0,
    calmAct 2 (.inbound ⟨1, .requestVote ⟨term, 1, term - 1, term - 1⟩⟩) sent,
    calmAct 1 (.countVotes term [⟨2, .requestVoteResp ⟨term, true⟩⟩] [1]) 0,
    calmAct 1 (.assumeLeadership term) 0,
    calmAct 1 (.startPropose [noopEntry]) 0,
    calmAct 2 (.inbound ⟨1, .appendEntries ⟨term, 1, term - 1, term - 1, 0, 0⟩
      [⟨term, term, noopEntry⟩]⟩) (sent + 2),
    calmAct 1 (.gatherFrame ⟨2, .appendEntriesResp ⟨term, term, true, 0⟩⟩
      ⟨term, term, 2, 1⟩) (sent' + 1),
    calmAct 1 (.finishPropose ⟨term, term, 2, 2⟩) 0]

/-- The heartbeats of a first round at term 1. -/
def firstTick : List ProcessStep :=
  [calmAct 1 .openTick 0, calmAct 1 (.bareHeartbeat 2) 0, calmAct 1 (.appendAttempt 3) 0]

/-- The heartbeat node 2 gets in that round. -/
def firstHeartbeat : InboundRaftMessage := ⟨1, .appendEntries ⟨1, 1, 1, 1, 1, 1⟩ []⟩

/-- Only the beginning of a round is restricted. -/
theorem admitted_of_quiet {a : ProcessStep} (h : a.act.begins = false) (s : Processes) :
    s.Bounded a ∧ s.TokenUnused a := by
  obtain ⟨i, env, act⟩ := a
  cases act with
  | beginRound confirmTerm => cases h
  | _ => exact ⟨trivial, trivial⟩

/-- Node 2 answers the heartbeat, and is counted. -/
theorem acks_fresh_first_round :
    ∃ t r, Reaches step (fun s a => s.Bounded a ∧ s.TokenUnused a) readCluster t ∧
      (t 1).round = some r ∧ r.confirmation.acks = [1, 2] ∧ r.counted = [(2, 2)] ∧
      t.AcksFresh := by
  have hrun : ((runSteps step readCluster (winsAndCommits 1 0 0)).bind fun u =>
      (u.step (calmRound 1 (.beginRound 1))).bind fun v =>
        (runSteps step v (firstTick ++ [calmAct 2 (.inbound firstHeartbeat) 4,
          calmRound 1 (.roundFrame 2 2)])).map fun t =>
            ((u 1).rounds, (u 1).boot, (t 1).round)) =
      some (0, 0, some ⟨⟨1, 1, [1, 2]⟩, 4, [(2, 2)]⟩) := by decide +kernel
  obtain ⟨u, hu, hrun⟩ := Option.bind_eq_some_iff.mp hrun
  obtain ⟨v, hv, hrun⟩ := Option.bind_eq_some_iff.mp hrun
  obtain ⟨t, ht, hfacts⟩ := Option.map_eq_some_iff.mp hrun
  obtain ⟨hrounds, hrest⟩ := Prod.mk.inj hfacts
  obtain ⟨hboot, hround⟩ := Prod.mk.inj hrest
  have hreach : Reaches step (fun s a => s.Bounded a ∧ s.TokenUnused a) readCluster t := by
    have hwon := Reaches.refl.steps hu fun a ha => admitted_of_quiet (a := a) (by revert a; decide)
    refine (hwon.next _ ⟨?_, ?_⟩ hv).steps ht fun a ha => admitted_of_quiet (a := a) (by revert a; decide)
    · change (u 1).rounds + 1 < 2 ^ 32 - 1
      rw [hrounds]
      decide
    · change ∀ x ∈ (u 1).node.sent.take (u 1).boot, _
      rw [hboot, List.take_zero]
      exact fun x hx => absurd hx List.not_mem_nil
  exact ⟨t, _, hreach, hround, rfl, rfl, acks_fresh_of_token_unused booted_readCluster hreach⟩

/-- A heartbeat of node 1 reaches node 2 only after node 1 crashed in its round and
won another election.  Node 2 answers in the new term and echoes the token.  The
first round of the new process has the same token and counts the answer, which makes
the majority, although the answer was there before the round began. -/
theorem ack_counted_before_round :
    ∃ t r, readCluster.Booted ∧ Reaches step Bounded readCluster t ∧ (t 1).round = some r ∧
      (t 1).node.isLeader = true ∧ (t 1).node.voterMajority r.confirmation.acks = true ∧
      r.confirmation.acks = [1, 2] ∧ ¬ t.AcksFresh := by
  have hrun : ((runSteps step readCluster (winsAndCommits 1 0 0)).bind fun u =>
      (u.step (calmRound 1 (.beginRound 1))).bind fun v =>
        (runSteps step v (firstTick ++ [calmRound 1 (.restart (trioConfig 1))] ++
          winsAndCommits 2 6 2 ++ [calmAct 2 (.inbound firstHeartbeat) 4])).bind fun w =>
            (w.step (calmRound 1 (.beginRound 2))).bind fun x =>
              (x.step (calmRound 1 (.roundFrame 2 4))).map fun t =>
                ((u 1).rounds, (w 1).rounds, (t 1).round, (t 2).notes[4]?,
                  (t 1).node.isLeader && (t 1).node.voterMajority [1, 2])) =
      some (0, 0, some ⟨⟨2, 1, [1, 2]⟩, 10, [(2, 4)]⟩, some ⟨some (1, 4), 2⟩, true) := by
    decide +kernel
  obtain ⟨u, hu, hrun⟩ := Option.bind_eq_some_iff.mp hrun
  obtain ⟨v, hv, hrun⟩ := Option.bind_eq_some_iff.mp hrun
  obtain ⟨w, hw, hrun⟩ := Option.bind_eq_some_iff.mp hrun
  obtain ⟨x, hx, hrun⟩ := Option.bind_eq_some_iff.mp hrun
  obtain ⟨t, ht, hfacts⟩ := Option.map_eq_some_iff.mp hrun
  simp only [Prod.mk.injEq, Bool.and_eq_true] at hfacts
  obtain ⟨hfirst, hsecond, hround, hnote, hleader, hmajority⟩ := hfacts
  have hreach : Reaches step Bounded readCluster t := by
    have hwon := Reaches.refl.steps hu fun a ha s =>
      (admitted_of_quiet (a := a) (by revert a; decide) s).1
    have hagain := (hwon.next _ ?_ hv).steps hw fun a ha s =>
      (admitted_of_quiet (a := a) (by revert a; decide) s).1
    · refine (hagain.next _ ?_ hx).next (calmRound 1 (.roundFrame 2 4)) trivial ht
      change (w 1).rounds + 1 < 2 ^ 32 - 1
      rw [hsecond]
      decide
    · change (u 1).rounds + 1 < 2 ^ 32 - 1
      rw [hfirst]
      decide
  refine ⟨t, _, booted_readCluster, hreach, hround, hleader, hmajority, rfl, fun hfresh => ?_⟩
  obtain ⟨j, y, hj, -, -, -, hbegan⟩ :=
    (hfresh 1 _ hround).2 (2, 4) List.mem_cons_self
  rw [hnote] at hj
  cases hj
  exact absurd hbegan (by decide)

end Processes

end ArbitroRaft
