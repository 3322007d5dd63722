import ArbitroRaft.Machine.Run

/-!
# The ways in which an AppendEntries message is handled

`AppendOutcome` lists how `handle_append_entries` and its seeded twin end: the
message is of an older term, the newer term cannot be saved, the entry before
the batch is not there, storage refuses the batch or its configuration change is
refused, or the batch is taken over and acknowledged.

The acknowledgement names the tip of the follower's log.  Where the batch was
there already that tip may be an entry of another leader behind the batch, and
the commit index follows it.

## Main results

* `ack_within_batch_iff`: when the answer names no entry behind the batch.
-/

namespace ArbitroRaft

open Library

/-- The node once it follows the sender of the message. -/
def RaftNode.heard (n : RaftNode) (msg : AppendEntries) : RaftNode :=
  RaftNode.followLeader
    (if n.hardState.currentTerm < msg.term then
      (n.withHard ⟨msg.term, none⟩).savedHard.demoteToFollowerKeepTerm
    else n) msg.leaderId

theorem SameLog.heard (n : RaftNode) (msg : AppendEntries) : SameLog n (n.heard msg) := by
  unfold RaftNode.heard
  split <;> exact ⟨⟨rfl, rfl, rfl, rfl, rfl⟩, rfl, rfl, rfl⟩

@[simp] theorem role_heard (n : RaftNode) (msg : AppendEntries) :
    (n.heard msg).softState.role = .follower := rfl

@[simp] theorem sent_heard (n : RaftNode) (msg : AppendEntries) : (n.heard msg).sent = n.sent := by
  unfold RaftNode.heard
  split <;> rfl

@[simp] theorem env_heard (n : RaftNode) (msg : AppendEntries) : (n.heard msg).env = n.env := by
  unfold RaftNode.heard
  split <;> rfl

variable {n : RaftNode} {msg : AppendEntries} {entries : List LogEntry}

theorem currentTerm_heard (h : n.hardState.currentTerm ≤ msg.term) :
    (n.heard msg).hardState.currentTerm = msg.term := by
  unfold RaftNode.heard
  split
  · rfl
  · change n.hardState.currentTerm = msg.term
    omega

/-- The tip named in a rejection. -/
def RaftNode.rejectHint (n : RaftNode) (msg : AppendEntries) : Nat :=
  min n.cachedLastLog.1 (msg.prevLogIndex - 1)

/-- The term of the message could be saved where it is a new one. -/
def RaftNode.Hears (n : RaftNode) (msg : AppendEntries) : Prop :=
  n.hardState.currentTerm < msg.term → ¬ n.Unsaved ⟨msg.term, none⟩

/-- How a message is handled; `unable` says which storages cannot store it. -/
inductive AppendOutcome (unable : Storage → Prop) (n : RaftNode) (sender : PeerId)
    (msg : AppendEntries) (entries : List LogEntry) :
    EStateM.Result RaftError RaftNode Unit → Prop
  | stale : msg.term < n.hardState.currentTerm →
      AppendOutcome unable n sender msg entries
        (.ok () (n.replied (n.env.encodes (n.appendResp msg false n.cachedLastLog.1)) sender
          (n.appendResp msg false n.cachedLastLog.1)))
  | unsaved (e : RaftError) : n.hardState.currentTerm < msg.term → n.Unsaved ⟨msg.term, none⟩ →
      AppendOutcome unable n sender msg entries (.error e (n.withHard ⟨msg.term, none⟩))
  | rejected : n.hardState.currentTerm ≤ msg.term → n.prevOk msg = false → n.Hears msg →
      AppendOutcome unable n sender msg entries
        (.ok () ((n.heard msg).replied
          (n.env.encodes ((n.heard msg).appendResp msg false (n.rejectHint msg))) sender
          ((n.heard msg).appendResp msg false (n.rejectHint msg))))
  | failed (e : RaftError) (n' : RaftNode) : n.hardState.currentTerm ≤ msg.term →
      n.prevOk msg = true →
      ApplyOutcome unable (n.heard msg) msg entries (.error e n') → n.Hears msg →
      AppendOutcome unable n sender msg entries (.error e n')
  | accepted : n.hardState.currentTerm ≤ msg.term → n.prevOk msg = true →
      (n.heard msg).scan msg entries ≠ .malformed →
      (n.heard msg).scan msg entries = .matched ∨
        ((n.heard msg).spliced msg entries).storage.entries.length ≤ maxEntries →
      (n.heard msg).Able unable msg entries →
      ¬ ActivationFails ((n.heard msg).fresh msg entries) → n.Hears msg →
      AppendOutcome unable n sender msg entries
        (.ok () ((((n.heard msg).tookOver msg entries).adopted msg.leaderCommit).replied
          (n.env.encodes
            ((((n.heard msg).tookOver msg entries).adopted msg.leaderCommit).ackOf msg)) sender
          ((((n.heard msg).tookOver msg entries).adopted msg.leaderCommit).ackOf msg)))

section Outcome

variable {unable : Storage → Prop} {store : List LogEntry → RaftM Unit} {n : RaftNode}

/-- Taking a message over is a matter of the log and the configuration. -/
theorem outside_tookOver (n : RaftNode) (msg : AppendEntries) (entries : List LogEntry) :
    (n.tookOver msg entries).env = n.env ∧ (n.tookOver msg entries).sent = n.sent ∧
      (n.tookOver msg entries).hardState = n.hardState := by
  have hact : ∀ (m : RaftNode) (rest : List LogEntry),
      (m.activated rest).env = m.env ∧ (m.activated rest).sent = m.sent ∧
        (m.activated rest).hardState = m.hardState := by
    intro m rest
    unfold RaftNode.activated
    split
    · unfold RaftNode.adoptConfig
      split <;> exact ⟨rfl, rfl, rfl⟩
    · exact ⟨rfl, rfl, rfl⟩
  unfold RaftNode.tookOver RaftNode.spliced
  cases n.scan msg entries with
  | malformed => exact ⟨rfl, rfl, rfl⟩
  | matched => exact ⟨rfl, rfl, rfl⟩
  | conflict rest =>
    have hrest := hact ((n.cutAt rest).stored rest) rest
    cases rest <;> exact hrest
  | missing rest => exact hact _ rest

theorem outside_adopted (n : RaftNode) (leaderCommit : Nat) :
    (n.adopted leaderCommit).env = n.env ∧ (n.adopted leaderCommit).sent = n.sent ∧
      (n.adopted leaderCommit).hardState = n.hardState := by
  unfold RaftNode.adopted
  split <;> exact ⟨rfl, rfl, rfl⟩

/-- The handler behind the checks on the term. -/
theorem receive_outcome (hst : Stores unable store) (notContiguous : String) (sender : PeerId)
    (msg : AppendEntries) (entries : List LogEntry) (hle : n.hardState.currentTerm ≤ msg.term)
    (hears : n.Hears msg) :
    AppendOutcome unable n sender msg entries
      ((do
        let m ← get
        if m.prevOk msg then do
          applyAppendEntriesWith notContiguous store msg entries
          adoptLeaderCommit msg.leaderCommit
          respondAppend sender msg true (fun m => m.cachedLastLog.1)
        else
          respondAppend sender msg false
            (fun m => min m.cachedLastLog.1 (msg.prevLogIndex - 1)) : RaftM Unit)
        (n.heard msg)) := by
  have hlog := SameLog.heard n msg
  have hprev := hlog.toSameStore.prevOk msg
  rw [get_bind]
  cases hp : n.prevOk msg with
  | false =>
    rw [hprev, hp, if_neg Bool.false_ne_true, respondAppend_eq, env_heard, hlog.cached]
    exact .rejected hle hp hears
  | true =>
    rw [hprev, hp, if_pos rfl]
    have hout := applyAppendEntriesWith_eq hst notContiguous msg entries (role_heard n msg)
    cases hrun : applyAppendEntriesWith notContiguous store msg entries (n.heard msg) with
    | error e n' =>
      rw [bind_of_error hrun]
      rw [hrun] at hout
      exact .failed e n' hle hp hout hears
    | ok u n' =>
      rw [bind_of_ok hrun, adoptLeaderCommit, modify_bind, respondAppend_eq]
      rw [hrun] at hout
      cases hout with
      | done hwell hfits hable hact =>
        change AppendOutcome unable n sender msg entries
          (.ok () ((((n.heard msg).tookOver msg entries).adopted msg.leaderCommit).replied
            ((((n.heard msg).tookOver msg entries).adopted msg.leaderCommit).env.encodes
              ((((n.heard msg).tookOver msg entries).adopted msg.leaderCommit).ackOf msg))
            sender
            ((((n.heard msg).tookOver msg entries).adopted msg.leaderCommit).ackOf msg)))
        rw [(outside_adopted _ _).1, (outside_tookOver _ _ _).1, env_heard]
        exact .accepted hle hp hwell hfits hable hact hears

theorem handleAppendEntriesWith_outcome (hst : Stores unable store) (notContiguous : String)
    (sender : PeerId) (msg : AppendEntries) (entries : List LogEntry) :
    AppendOutcome unable n sender msg entries
      (handleAppendEntriesWith (applyAppendEntriesWith notContiguous store) sender msg entries n) := by
  unfold handleAppendEntriesWith
  rw [get_bind]
  by_cases hstale : msg.term < n.hardState.currentTerm
  · rw [if_pos hstale, respondAppend_eq]
    exact .stale hstale
  rw [if_neg hstale]
  have hle : n.hardState.currentTerm ≤ msg.term := by omega
  have hrest := receive_outcome hst notContiguous sender msg entries hle
  have hobserve : observeTerm msg.term n =
      if n.hardState.currentTerm < msg.term then stepDown msg.term n else .ok () n := by
    unfold observeTerm
    rw [get_bind]
    split <;> rfl
  by_cases hlt : n.hardState.currentTerm < msg.term
  · rw [if_pos hlt, stepDown_eq] at hobserve
    unfold RaftNode.heard at hrest
    rw [if_pos hlt] at hrest
    cases hsave : n.env.saveFails n.storage.hardState ⟨msg.term, none⟩ with
    | some kind =>
      rw [hsave] at hobserve
      rw [bind_of_error hobserve]
      refine .unsaved _ hlt ?_
      unfold RaftNode.Unsaved
      exact hsave ▸ Option.some_ne_none kind
    | none =>
      rw [hsave] at hobserve
      rw [bind_of_ok hobserve, modify_bind]
      exact hrest fun _ hunsaved => hunsaved hsave
  · rw [if_neg hlt] at hobserve
    unfold RaftNode.heard at hrest
    rw [if_neg hlt] at hrest
    rw [bind_of_ok hobserve, modify_bind]
    exact hrest fun h => absurd h hlt

theorem handleAppendEntries_outcome (n : RaftNode) (sender : PeerId) (msg : AppendEntries)
    (entries : List LogEntry) :
    AppendOutcome (fun _ => False) n sender msg entries
      (handleAppendEntries sender msg entries n) :=
  handleAppendEntriesWith_outcome stores_storeEntries _ sender msg entries

theorem handleAppendEntriesSeeded_outcome (n : RaftNode) (sender : PeerId) (msg : AppendEntries)
    (entries : List LogEntry) :
    AppendOutcome (fun s => s.seeded = false) n sender msg entries
      (handleAppendEntriesSeeded sender msg entries n) :=
  handleAppendEntriesWith_outcome stores_storeEntriesSeeded _ sender msg entries

end Outcome

/-! ## What an acknowledgement covers -/

/-- The batch brings something new, or the tip of the log is not behind it. -/
def RaftNode.Confined (n : RaftNode) (msg : AppendEntries) (entries : List LogEntry) : Prop :=
  (∃ e ∈ entries, n.localTerm e.index ≠ some e.term) ∨
    n.cachedLastLog.1 ≤ msg.prevLogIndex + entries.length

/-- A batch in sequence has every entry where the scan looks for it. -/
theorem index_in_sequence {pre post : List LogEntry} {e : LogEntry}
    (hc : Contiguous LogEntry.index msg.prevLogIndex (pre ++ e :: post))
    (hfit : msg.prevLogIndex + (pre ++ e :: post).length ≤ u64Max) :
    e.index = satAdd (satAdd msg.prevLogIndex 1) (0 + pre.length) := by
  have he := (contiguous_append.mp hc).2.1
  rw [List.length_append, List.length_cons] at hfit
  rw [satAdd_of_le (a := msg.prevLogIndex) (by omega), satAdd_of_le (by omega)]
  omega

/-- Whether a batch is in the log. -/
theorem scan_eq_matched (hc : Contiguous LogEntry.index msg.prevLogIndex entries)
    (hfit : msg.prevLogIndex + entries.length ≤ u64Max) :
    n.scan msg entries = .matched ↔ ∀ e ∈ entries, n.localTerm e.index = some e.term := by
  refine ⟨scanEntries_matched, fun h => ?_⟩
  by_contra hstopped
  obtain ⟨pre, e, post, rfl, -, hstop⟩ := exists_scanStop rfl hstopped
  have hknown := h e (List.mem_append_right pre List.mem_cons_self)
  generalize scanEntries n.localTerm _ 0 (pre ++ e :: post) = s at hstop
  cases hstop with
  | breaks hne => exact hne (index_in_sequence hc hfit)
  | isNew _ hnone =>
    rw [hnone] at hknown
    cases hknown
  | differs t _ hterm hne => exact hne (Option.some.inj (hterm.symm.trans hknown))

/-- The scan turns no batch away that is in sequence. -/
theorem scan_ne_malformed (hc : Contiguous LogEntry.index msg.prevLogIndex entries)
    (hfit : msg.prevLogIndex + entries.length ≤ u64Max) : n.scan msg entries ≠ .malformed := by
  intro h
  obtain ⟨pre, e, post, rfl, -, hstop⟩ := exists_scanStop h Scan.noConfusion
  cases hstop with
  | breaks hne => exact hne (index_in_sequence hc hfit)

theorem cachedLastLog_adopted (n : RaftNode) (leaderCommit : Nat) :
    (n.adopted leaderCommit).cachedLastLog = n.cachedLastLog := by
  unfold RaftNode.adopted
  split <;> rfl

/-- What is stored ends with the batch. -/
theorem tip_of_stored {entries pre : List LogEntry} {e : LogEntry} {tl : List LogEntry}
    (hsplit : entries = pre ++ e :: tl) (hc : Contiguous LogEntry.index msg.prevLogIndex entries) :
    (n.stored (e :: tl)).cachedLastLog.1 = msg.prevLogIndex + entries.length := by
  obtain ⟨last, hlast⟩ : ∃ last, (e :: tl).getLast? = some last :=
    ⟨_, List.getLast?_eq_some_getLast (List.cons_ne_nil e tl)⟩
  have hwhole : entries.getLast? = some last := by
    rw [hsplit, List.getLast?_append_of_ne_nil pre (List.cons_ne_nil e tl), hlast]
  rw [RaftNode.tip_stored_of_last hlast]
  exact hc.getLast?_idx hwhole

theorem tip_tookOver (hc : Contiguous LogEntry.index msg.prevLogIndex entries)
    (hwell : n.scan msg entries ≠ .malformed) :
    n.scan msg entries = .matched ∧ (n.tookOver msg entries).cachedLastLog = n.cachedLastLog ∨
      n.scan msg entries ≠ .matched ∧
        (n.tookOver msg entries).cachedLastLog.1 = msg.prevLogIndex + entries.length := by
  have hlog := (SameLog.tookOver n msg entries).cached
  unfold RaftNode.spliced at hlog
  cases hscan : n.scan msg entries with
  | malformed => exact absurd hscan hwell
  | matched =>
    rw [hscan] at hlog
    exact .inl ⟨rfl, hlog⟩
  | conflict rest =>
    rw [hscan] at hlog
    obtain ⟨pre, e, tl, t, hsplit, rfl, -⟩ := scanEntries_conflict hscan
    refine .inr ⟨by simp, ?_⟩
    rw [hlog]
    exact tip_of_stored hsplit hc
  | missing rest =>
    rw [hscan] at hlog
    obtain ⟨pre, e, tl, hsplit, rfl, -⟩ := scanEntries_missing hscan
    refine .inr ⟨by simp, ?_⟩
    rw [hlog]
    exact tip_of_stored hsplit hc

/-- Of the two bounds the one on the tip decides. -/
theorem bounded_by_tip {before lc tip bound after : Nat}
    (hafter : after = if before < lc then min lc tip else before) :
    tip ≤ bound ∧ after ≤ max before (min lc bound) ↔ tip ≤ bound := by
  constructor
  · exact fun h => h.1
  · intro h
    refine ⟨h, ?_⟩
    rw [hafter]
    split <;> omega

theorem commitIndex_tookOver (n : RaftNode) (msg : AppendEntries) (entries : List LogEntry) :
    (n.tookOver msg entries).softState.commitIndex = n.softState.commitIndex := by
  rw [(SameLog.tookOver n msg entries).commit]
  unfold RaftNode.spliced
  cases n.scan msg entries with
  | conflict rest => cases rest <;> rfl
  | _ => rfl

/-- The form of the handler. -/
inductive AppendForm where
  | plain
  | seeded
deriving DecidableEq, Repr

def AppendForm.handle : AppendForm → PeerId → AppendEntries → List LogEntry → RaftM Unit
  | .plain => handleAppendEntries
  | .seeded => handleAppendEntriesSeeded

/-- The storages that cannot store in this form. -/
def AppendForm.unable : AppendForm → Storage → Prop
  | .plain, _ => False
  | .seeded, s => s.seeded = false

theorem AppendForm.outcome_unable (form : AppendForm) (n : RaftNode) (sender : PeerId)
    (msg : AppendEntries) (entries : List LogEntry) :
    AppendOutcome form.unable n sender msg entries (form.handle sender msg entries n) := by
  cases form with
  | plain => exact handleAppendEntries_outcome n sender msg entries
  | seeded => exact handleAppendEntriesSeeded_outcome n sender msg entries

theorem AppendForm.outcome (form : AppendForm) (n : RaftNode) (sender : PeerId)
    (msg : AppendEntries) (entries : List LogEntry) :
    ∃ unable, AppendOutcome unable n sender msg entries (form.handle sender msg entries n) :=
  ⟨_, form.outcome_unable n sender msg entries⟩

theorem message_of_replied {reply : Bool} {peer : PeerId} {answer : RaftMessage} {f : SentFrame}
    {frames : List SentFrame} (hbefore : n.sent = frames)
    (h : (n.replied reply peer answer).sent = frames ++ [f]) : f.message = answer := by
  cases reply with
  | false =>
    have hlen := congrArg List.length h
    rw [List.length_append, List.length_singleton, ← hbefore] at hlen
    exact absurd hlen (Nat.ne_of_lt (Nat.lt_succ_self _))
  | true =>
    rw [← hbefore] at h
    have hf := List.singleton_inj.mp (List.append_cancel_left h)
    rw [← hf]

theorem commitIndex_adopted (n : RaftNode) (leaderCommit : Nat) :
    (n.adopted leaderCommit).softState.commitIndex =
      if n.softState.commitIndex < leaderCommit then min leaderCommit n.cachedLastLog.1
      else n.softState.commitIndex := by
  unfold RaftNode.adopted
  split <;> rfl

/-- The tip that is acknowledged stays within the batch in just these cases. -/
theorem tip_within_iff (hc : Contiguous LogEntry.index msg.prevLogIndex entries)
    (hfit : msg.prevLogIndex + entries.length ≤ u64Max) (hwell : n.scan msg entries ≠ .malformed) :
    (n.tookOver msg entries).cachedLastLog.1 ≤ msg.prevLogIndex + entries.length ↔
      n.Confined msg entries := by
  unfold RaftNode.Confined
  rcases tip_tookOver hc hwell with ⟨hmatched, htip⟩ | ⟨hnew, htip⟩
  · rw [htip]
    have hknown := (scan_eq_matched hc hfit).mp hmatched
    constructor
    · exact .inr
    · rintro (⟨e, he, hne⟩ | hle)
      · exact absurd (hknown e he) hne
      · exact hle
  · have hsome : ∃ e ∈ entries, n.localTerm e.index ≠ some e.term := by
      by_contra hnone
      push Not at hnone
      exact hnew ((scan_eq_matched hc hfit).mpr hnone)
    exact ⟨fun _ => .inl hsome, fun _ => htip.le⟩

/-- **What a follower acknowledges.**  The index named in a positive answer and
the commit index behind it stay within the entries the message carried just if
one of these was not in the log, or the log has nothing behind them. -/
theorem ack_within_batch_iff (form : AppendForm) {n n' : RaftNode} {sender : PeerId}
    {msg : AppendEntries} {entries : List LogEntry} {f : SentFrame} {resp : AppendEntriesResp}
    (hc : Contiguous LogEntry.index msg.prevLogIndex entries)
    (hfit : msg.prevLogIndex + entries.length ≤ u64Max)
    (hrun : form.handle sender msg entries n = .ok () n') (hsent : n'.sent = n.sent ++ [f])
    (hmsg : f.message = .appendEntriesResp resp) (hsuccess : resp.success = true) :
    (resp.matchIndex ≤ msg.prevLogIndex + entries.length ∧
      n'.softState.commitIndex ≤ max n.softState.commitIndex
        (min msg.leaderCommit (msg.prevLogIndex + entries.length))) ↔
      n.Confined msg entries := by
  obtain ⟨unable, hout⟩ := form.outcome n sender msg entries
  rw [hrun] at hout
  have hfalse : ∀ (m : RaftNode) (hint : Nat),
      RaftMessage.appendEntriesResp resp ≠ m.appendResp msg false hint := by
    intro m hint heq
    rw [RaftMessage.appendEntriesResp.inj heq] at hsuccess
    exact Bool.false_ne_true hsuccess
  cases hout with
  | stale _ => exact absurd (hmsg.symm.trans (message_of_replied rfl hsent)) (hfalse _ _)
  | rejected _ _ =>
      have hf := message_of_replied (sent_heard n msg) hsent
      exact absurd (hmsg.symm.trans hf) (hfalse _ _)
  | accepted _ _ hwell _ =>
      have hquiet : (((n.heard msg).tookOver msg entries).adopted msg.leaderCommit).sent =
          n.sent := by
        rw [(outside_adopted _ _).2.1, (outside_tookOver _ _ _).2.1, sent_heard]
      have hf := RaftMessage.appendEntriesResp.inj
        (hmsg.symm.trans (message_of_replied hquiet hsent))
      have htip : resp.matchIndex = ((n.heard msg).tookOver msg entries).cachedLastLog.1 := by
        rw [hf]
        exact congrArg Prod.fst (cachedLastLog_adopted _ _)
      have hcommit : (((((n.heard msg).tookOver msg entries).adopted msg.leaderCommit).replied
          (n.env.encodes ((((n.heard msg).tookOver msg entries).adopted
            msg.leaderCommit).ackOf msg)) sender
          ((((n.heard msg).tookOver msg entries).adopted
            msg.leaderCommit).ackOf msg))).softState.commitIndex =
          if n.softState.commitIndex < msg.leaderCommit then
            min msg.leaderCommit ((n.heard msg).tookOver msg entries).cachedLastLog.1
          else n.softState.commitIndex := by
        rw [(SameLog.replied _ _ _ _).commit, commitIndex_adopted, commitIndex_tookOver,
          (SameLog.heard n msg).commit]
      have hlog := SameLog.heard n msg
      rw [htip, bounded_by_tip hcommit, tip_within_iff hc hfit hwell, RaftNode.Confined,
        hlog.localTerm, hlog.cached]
      rfl

/-- The first entry of a log is acknowledged as such. -/
theorem ack_within_batch_iff_first_entry :
    let n := trioNode 1 (.empty false)
    let n' := (handleAppendEntries 2 ⟨1, 2, 0, 0, 1, 0⟩ [⟨1, 1, [7]⟩]).after n
    n'.sent.map SentFrame.message = [.appendEntriesResp ⟨1, 1, true, 0⟩] ∧
      n'.softState.commitIndex = 1 ∧ n.Confined ⟨1, 2, 0, 0, 1, 0⟩ [⟨1, 1, [7]⟩] := by
  refine ⟨rfl, rfl, ?_⟩
  have hiff := @ack_within_batch_iff .plain (trioNode 1 (.empty false))
    ((handleAppendEntries 2 ⟨1, 2, 0, 0, 1, 0⟩ [⟨1, 1, [7]⟩]).after (trioNode 1 (.empty false)))
    2 ⟨1, 2, 0, 0, 1, 0⟩ [⟨1, 1, [7]⟩] _ _ (by decide) (by decide) rfl rfl rfl rfl
  refine hiff.mp ?_
  decide

/-- A deposed leader whose only entry no other node ever received. -/
def deposed : RaftNode :=
  trioNode 1
    { hardState := ⟨1, some 1⟩, entries := [⟨1, 1, [7]⟩], snapshot := none, seeded := false }

/-- A heartbeat of the next leader that verifies nothing makes it acknowledge
and commit that entry. -/
theorem ack_beyond_batch :
    let n' := (handleAppendEntries 2 ⟨2, 2, 0, 0, 1, 0⟩ []).after deposed
    handleAppendEntries 2 ⟨2, 2, 0, 0, 1, 0⟩ [] deposed = .ok () n' ∧
      n'.sent.map SentFrame.message = [.appendEntriesResp ⟨2, 1, true, 0⟩] ∧
      deposed.softState.commitIndex = 0 ∧ n'.softState.commitIndex = 1 :=
  ⟨rfl, rfl, rfl, rfl⟩

end ArbitroRaft
