import ArbitroRaft.Replication.Receive
import Mathlib.Data.List.TakeWhile

/-!
# The receiver's log against the Raft rule

`mergeReference` is the rule of the protocol: keep the log up to the first sent
entry that is missing or has another term, and continue with what was sent.
On a node whose log is uncompacted the scan, the truncation and the append of
`handle_append_entries` compose to this rule, whatever the bounded arena happens
to remember, and a second delivery finds nothing to do.

## Main results

* `handleAppendEntries_merges`: the log, the answer and the caches behind a delivery.
-/

namespace ArbitroRaft

open Library

/-! ## The rule -/

/-- The log has an entry of this index and term. -/
def HasEntry (log : List LogEntry) (index term : Nat) : Prop :=
  ∃ e ∈ log, e.index = index ∧ e.term = term

instance (log : List LogEntry) (index term : Nat) : Decidable (HasEntry log index term) :=
  inferInstanceAs (Decidable (∃ e ∈ log, e.index = index ∧ e.term = term))

/-- What was sent from the first entry on that is missing or has another term. -/
def unmatched (log sent : List LogEntry) : List LogEntry :=
  sent.dropWhile fun e => decide (HasEntry log e.index e.term)

/-- The log the protocol asks for. -/
def mergeReference (log sent : List LogEntry) : List LogEntry :=
  match unmatched log sent with
  | [] => log
  | e :: rest => log.filter (fun x => decide (x.index < e.index)) ++ e :: rest

section Rule

variable {log sent : List LogEntry} {prev : Nat}

theorem mergeReference_of_matched (h : unmatched log sent = []) :
    mergeReference log sent = log := by
  unfold mergeReference
  rw [h]

theorem mergeReference_of_unmatched {e : LogEntry} {rest : List LogEntry}
    (h : unmatched log sent = e :: rest) :
    mergeReference log sent = log.filter (fun x => decide (x.index < e.index)) ++ e :: rest := by
  unfold mergeReference
  rw [h]

/-- Where the sent entries depart from the log. -/
theorem sent_eq_of_unmatched {e : LogEntry} {rest : List LogEntry}
    (h : unmatched log sent = e :: rest) :
    ∃ known, sent = known ++ e :: rest ∧ ∀ x ∈ known, HasEntry log x.index x.term := by
  refine ⟨sent.takeWhile fun e => decide (HasEntry log e.index e.term), ?_, ?_⟩
  · rw [← h]
    exact List.takeWhile_append_dropWhile.symm
  · intro x hx
    have hknown := List.mem_takeWhile_imp hx
    exact of_decide_eq_true hknown

theorem unmatched_eq_nil : unmatched log sent = [] ↔ ∀ e ∈ sent, HasEntry log e.index e.term := by
  unfold unmatched
  rw [List.dropWhile_eq_nil_iff]
  simp only [decide_eq_true_eq]

theorem unmatched_append {known rest : List LogEntry} {e : LogEntry}
    (hknown : ∀ x ∈ known, HasEntry log x.index x.term) (he : ¬ HasEntry log e.index e.term) :
    unmatched log (known ++ e :: rest) = e :: rest := by
  unfold unmatched
  rw [List.dropWhile_append_of_pos fun x hx => decide_eq_true (hknown x hx),
    List.dropWhile_cons_of_neg (by simpa using he)]

/-- The merged log has every entry that was sent. -/
theorem hasEntry_sent (hc : Contiguous LogEntry.index prev sent) :
    ∀ x ∈ sent, HasEntry (mergeReference log sent) x.index x.term := by
  intro x hx
  cases hu : unmatched log sent with
  | nil =>
    rw [mergeReference_of_matched hu]
    exact unmatched_eq_nil.mp hu x hx
  | cons e rest =>
    rw [mergeReference_of_unmatched hu]
    obtain ⟨known, rfl, hknown⟩ := sent_eq_of_unmatched hu
    rcases List.mem_append.mp hx with hx | hx
    · obtain ⟨hfirst, hrest⟩ := contiguous_append.mp hc
      obtain ⟨y, hy, hi, ht⟩ := hknown x hx
      have hbound := (hfirst.bounds hx).2
      have he : e.index = prev + known.length + 1 := hrest.1
      refine ⟨y, List.mem_append_left _ (List.mem_filter.mpr ⟨hy, ?_⟩), hi, ht⟩
      exact decide_eq_true (by omega)
    · exact ⟨x, List.mem_append_right _ hx, rfl, rfl⟩

end Rule

/-! ## Uncompacted nodes with or without a snapshot -/

/-- The log starts at index 1 and its two caches agree with it.  A snapshot may
have been saved; the receiver does not look at it. -/
structure Uncompacted (n : RaftNode) : Prop where
  contiguous : Contiguous LogEntry.index 0 n.storage.entries
  bounded : n.storage.entries.length ≤ maxEntries
  cached : n.cachedLastLog = n.storage.lastLogPosition
  arena : ∀ i t, n.logMetadata.getTerm i = some t → n.storage.termAt i = some t

/-- The node without its snapshot. -/
def RaftNode.bare (n : RaftNode) : RaftNode :=
  { n with storage := { n.storage with snapshot := none }, snapshotBoundary := (0, 0) }

namespace Uncompacted

variable {n n' : RaftNode} {msg : AppendEntries} {entries rest : List LogEntry}

theorem bare (h : Uncompacted n) : Coherent n.bare where
  contiguous := h.contiguous
  bounded := h.bounded
  cached := h.cached.trans (Storage.lastLogPosition_of_contiguous h.contiguous)
  arena := h.arena
  snapshot := rfl
  boundary := rfl

theorem of_bare (h : Coherent n.bare) : Uncompacted n where
  contiguous := h.contiguous
  bounded := h.bounded
  cached := h.cached.trans (Storage.lastLogPosition_of_contiguous h.contiguous).symm
  arena := h.arena

theorem of_same (h : Uncompacted n) (hs : SameStore n n') : Uncompacted n' where
  contiguous := hs.entries ▸ h.contiguous
  bounded := hs.entries ▸ h.bounded
  cached := by
    rw [hs.cached, h.cached, Storage.lastLogPosition, Storage.lastLogPosition, hs.entries]
  arena i t hi := by
    rw [hs.termAt]
    exact h.arena i t (hs.arena ▸ hi)

theorem localTerm_iff (h : Uncompacted n) {i t : Nat} :
    n.localTerm i = some t ↔ HasEntry n.storage.entries i t := by
  rw [show n.localTerm i = n.bare.localTerm i from rfl, h.bare.localTerm_eq]
  constructor
  · exact Storage.mem_of_termAt
  · rintro ⟨e, he, rfl, rfl⟩
    exact Storage.termAt_of_mem h.contiguous he

/-- The consistency check is about the entry itself. -/
theorem prevOk_iff (h : Uncompacted n) :
    n.prevOk msg = true ↔
      msg.prevLogIndex = 0 ∨ HasEntry n.storage.entries msg.prevLogIndex msg.prevLogTerm := by
  constructor
  · intro hok
    cases hk : msg.prevLogIndex with
    | zero => exact .inl rfl
    | succ k =>
      refine .inr (Storage.mem_of_termAt ?_)
      rw [Storage.termAt_succ h.contiguous]
      exact h.bare.prevOk_succ hk hok
  · intro hhas
    unfold RaftNode.prevOk
    cases ha : n.logMetadata.getTerm msg.prevLogIndex with
    | some t =>
      have hat := h.arena _ t ha
      rcases hhas with hzero | ⟨e, he, hi, ht⟩
      · rw [hzero, Storage.termAt_zero h.contiguous] at hat
        cases hat
      · rw [← hi, Storage.termAt_of_mem h.contiguous he] at hat
        rw [← Option.some.inj hat, ht]
        exact beq_self_eq_true _
    | none =>
      rcases hhas with hzero | ⟨e, he, hi, ht⟩
      · exact if_pos hzero
      · have hpos := (h.contiguous.bounds he).1
        dsimp only
        rw [if_neg (by omega), ← hi, Storage.termAt_of_mem h.contiguous he, ht]
        exact beq_self_eq_true _

theorem scan_matched_iff (h : Uncompacted n)
    (hc : Contiguous LogEntry.index msg.prevLogIndex entries)
    (hfit : msg.prevLogIndex + entries.length ≤ u64Max) :
    n.scan msg entries = .matched ↔ unmatched n.storage.entries entries = [] := by
  rw [scan_eq_matched hc hfit, unmatched_eq_nil]
  exact forall₂_congr fun e _ => h.localTerm_iff

/-- What a conflict leaves over, and where the log is cut for it. -/
theorem of_conflict (h : Uncompacted n) (hscan : n.scan msg entries = .conflict rest) :
    rest ≠ [] ∧ unmatched n.storage.entries entries = rest ∧
      (n.cutAt rest).storage.entries ++ rest = mergeReference n.storage.entries entries := by
  obtain ⟨pre, e, tl, t, rfl, rfl, hpre, ht, hne⟩ := scanEntries_conflict hscan
  have hu : unmatched n.storage.entries (pre ++ e :: tl) = e :: tl := by
    refine unmatched_append (fun x hx => h.localTerm_iff.mp (hpre x hx)) fun hhas => hne ?_
    exact Option.some.inj (ht.symm.trans (h.localTerm_iff.mpr hhas))
  exact ⟨List.cons_ne_nil e tl, hu, (mergeReference_of_unmatched hu).symm⟩

/-- What a gap leaves over continues the log. -/
theorem of_missing (h : Uncompacted n) (hc : Contiguous LogEntry.index msg.prevLogIndex entries)
    (hok : n.prevOk msg = true) (hscan : n.scan msg entries = .missing rest) :
    rest ≠ [] ∧ unmatched n.storage.entries entries = rest ∧
      n.storage.entries ++ rest = mergeReference n.storage.entries entries := by
  have hpos : Contiguous LogEntry.index n.storage.entries.length rest :=
    h.bare.missing_pos hc hok hscan
  obtain ⟨pre, e, tl, rfl, rfl, hpre, hnone⟩ := scanEntries_missing hscan
  have hu : unmatched n.storage.entries (pre ++ e :: tl) = e :: tl := by
    refine unmatched_append (fun x hx => h.localTerm_iff.mp (hpre x hx)) fun hhas => ?_
    rw [h.localTerm_iff.mpr hhas] at hnone
    cases hnone
  have hkeep : n.storage.entries.filter (fun x => decide (x.index < e.index)) =
      n.storage.entries := by
    rw [List.filter_eq_self]
    intro x hx
    have hx := (h.contiguous.bounds hx).2
    have he : e.index = n.storage.entries.length + 1 := hpos.1
    exact decide_eq_true (by omega)
  rw [mergeReference_of_unmatched hu, hkeep]
  exact ⟨List.cons_ne_nil e tl, hu, rfl⟩

/-- What is stored of a batch is what the rule leaves over. -/
theorem fresh_eq (h : Uncompacted n) (hc : Contiguous LogEntry.index msg.prevLogIndex entries)
    (hfit : msg.prevLogIndex + entries.length ≤ u64Max) (hok : n.prevOk msg = true) :
    n.fresh msg entries = unmatched n.storage.entries entries := by
  unfold RaftNode.fresh
  cases hscan : n.scan msg entries with
  | malformed => exact absurd hscan (scan_ne_malformed hc hfit)
  | matched => exact ((h.scan_matched_iff hc hfit).mp hscan).symm
  | conflict rest => exact (h.of_conflict hscan).2.1.symm
  | missing rest => exact (h.of_missing hc hok hscan).2.1.symm

/-- **The splice is the rule.** -/
theorem spliced_entries (h : Uncompacted n)
    (hc : Contiguous LogEntry.index msg.prevLogIndex entries)
    (hfit : msg.prevLogIndex + entries.length ≤ u64Max) (hok : n.prevOk msg = true) :
    (n.spliced msg entries).storage.entries = mergeReference n.storage.entries entries := by
  unfold RaftNode.spliced
  cases hscan : n.scan msg entries with
  | malformed => exact absurd hscan (scan_ne_malformed hc hfit)
  | matched =>
    exact (mergeReference_of_matched ((h.scan_matched_iff hc hfit).mp hscan)).symm
  | conflict rest => exact (h.of_conflict hscan).2.2
  | missing rest => exact (h.of_missing hc hok hscan).2.2

theorem bare_spliced (n : RaftNode) (msg : AppendEntries) (entries : List LogEntry) :
    (n.spliced msg entries).bare = n.bare.spliced msg entries := by
  unfold RaftNode.spliced
  rw [show n.bare.scan msg entries = n.scan msg entries from rfl]
  cases n.scan msg entries with
  | conflict rest => cases rest <;> rfl
  | _ => rfl

theorem spliced (h : Uncompacted n) (hc : Contiguous LogEntry.index msg.prevLogIndex entries)
    (hok : n.prevOk msg = true)
    (hb : n.scan msg entries = .matched ∨
      (n.spliced msg entries).storage.entries.length ≤ maxEntries) :
    Uncompacted (n.spliced msg entries) := by
  have hlen : (n.spliced msg entries).storage.entries.length ≤ maxEntries := by
    refine hb.elim (fun hmatched => ?_) id
    unfold RaftNode.spliced
    rw [hmatched]
    exact h.bounded
  apply of_bare
  rw [bare_spliced]
  refine h.bare.spliced hc hok ?_
  rw [← bare_spliced]
  exact hlen

theorem cutAt (h : Uncompacted n) (hc : Contiguous LogEntry.index msg.prevLogIndex entries)
    (hok : n.prevOk msg = true) (hscan : n.scan msg entries = .conflict rest) :
    Uncompacted (n.cutAt rest) := by
  obtain ⟨e, tl, k, rfl, he, -⟩ := h.bare.conflict_pos hc hok hscan
  have hcut : Coherent (n.bare.cutAt (e :: tl)) := h.bare.cutAt he
  exact of_bare hcut

end Uncompacted

/-! ## The handler -/

/-- A frame that answers the sender, unless the codec refuses it. -/
def Answers (n n' : RaftNode) (sender : PeerId) (success : Bool) : Prop :=
  ∃ resp : AppendEntriesResp, resp.success = success ∧
    n'.sent = n.sent ++
      if n.env.encodes (.appendEntriesResp resp) then
        [⟨sender, .appendEntriesResp resp, n'.storage⟩]
      else []

/-- There is something left of the batch, and storage refuses it. -/
def RaftNode.RefusesUnmatched (n : RaftNode) (entries : List LogEntry) : Prop :=
  unmatched n.storage.entries entries ≠ [] ∧
    (maxEntries < (mergeReference n.storage.entries entries).length ∨
      n.env.appendFails (unmatched n.storage.entries entries) ≠ none)

/-- The message is handled without an error and leaves the log as it is. -/
def RaftNode.Settled (n : RaftNode) (sender : PeerId) (msg : AppendEntries)
    (entries : List LogEntry) : Prop :=
  ∀ env, ∃ n', handleAppendEntries sender msg entries { n with env := env } = .ok () n' ∧
    n'.storage.entries = n.storage.entries

section Handler

variable {n : RaftNode} {sender : PeerId} {msg : AppendEntries} {entries rest : List LogEntry}

theorem answers_replied {m : RaftNode} {success : Bool} {hint : Nat} (hsent : m.sent = n.sent) :
    Answers n (m.replied (n.env.encodes (m.appendResp msg success hint)) sender
      (m.appendResp msg success hint)) sender success := by
  refine ⟨⟨m.hardState.currentTerm, hint, success, msg.probe⟩, rfl, ?_⟩
  change (m.replied (n.env.encodes (m.appendResp msg success hint)) sender
      (m.appendResp msg success hint)).sent = n.sent ++
    if n.env.encodes (m.appendResp msg success hint) then
      [⟨sender, m.appendResp msg success hint,
        (m.replied (n.env.encodes (m.appendResp msg success hint)) sender
          (m.appendResp msg success hint)).storage⟩]
    else []
  cases n.env.encodes (m.appendResp msg success hint) with
  | false => exact hsent.trans (List.append_nil _).symm
  | true => exact congrArg (· ++ _) hsent

theorem hardState_spliced (n : RaftNode) (msg : AppendEntries) (entries : List LogEntry) :
    (n.spliced msg entries).hardState = n.hardState := by
  unfold RaftNode.spliced
  cases n.scan msg entries with
  | conflict rest => cases rest <;> rfl
  | _ => rfl

theorem refusesUnmatched {m : RaftNode} (henv : m.env = n.env) (hne : rest ≠ [])
    (hrest : unmatched n.storage.entries entries = rest)
    (hmerge : m.storage.entries ++ rest = mergeReference n.storage.entries entries)
    (h : m.Refuses rest) : n.RefusesUnmatched entries := by
  refine ⟨hrest ▸ hne, ?_⟩
  rw [← hmerge, hrest, List.length_append, ← henv]
  exact h

theorem spliced_of_matched (h : n.scan msg entries = .matched) : n.spliced msg entries = n := by
  unfold RaftNode.spliced
  rw [h]

/-- A node of the message's term that has what the message carries. -/
theorem Uncompacted.settled (h : Uncompacted n) (hterm : n.hardState.currentTerm = msg.term)
    (hc : Contiguous LogEntry.index msg.prevLogIndex entries)
    (hfit : msg.prevLogIndex + entries.length ≤ u64Max)
    (hdone : n.prevOk msg = true → unmatched n.storage.entries entries = []) :
    n.Settled sender msg entries := by
  intro env
  have henv : SameStore n { n with env := env } := ⟨rfl, rfl, rfl, rfl, rfl⟩
  have hsame := henv.trans (SameLog.heard { n with env := env } msg).toSameStore
  have hmatched : n.prevOk msg = true →
      (({ n with env := env } : RaftNode).heard msg).scan msg entries = .matched := by
    intro hok
    rw [hsame.scan]
    exact (h.scan_matched_iff hc hfit).mpr (hdone hok)
  have hout := handleAppendEntries_outcome { n with env := env } sender msg entries
  generalize handleAppendEntries sender msg entries { n with env := env } = r at hout ⊢
  cases hout with
  | stale hlt => exact absurd hterm (Nat.ne_of_gt hlt)
  | unsaved e hlt _ => exact absurd hterm (Nat.ne_of_lt hlt)
  | rejected _ _ => exact ⟨_, rfl, (SameLog.replied _ _ _ _).entries.trans hsame.entries⟩
  | failed e n' _ hok hfail =>
    have hscan := hmatched hok
    cases hfail with
    | refused _ hwhy => simp [hscan] at hwhy
    | cut _ rest hcut _ => simp [hscan] at hcut
    | spliced _ _ hnew _ _ => exact absurd hscan hnew
  | accepted _ hok _ _ =>
    refine ⟨_, rfl, (SameStore.accepted _ msg entries _ _ _).entries.trans ?_⟩
    rw [spliced_of_matched (hmatched hok)]
    exact hsame.entries

/-- Behind the merge the message has nothing left to say. -/
theorem Uncompacted.settled_of_merged {n' : RaftNode} (h : Uncompacted n')
    (hterm : n'.hardState.currentTerm = msg.term)
    (hc : Contiguous LogEntry.index msg.prevLogIndex entries)
    (hfit : msg.prevLogIndex + entries.length ≤ u64Max)
    (hlog : n'.storage.entries = mergeReference n.storage.entries entries) :
    n'.Settled sender msg entries := by
  refine h.settled hterm hc hfit fun _ => ?_
  rw [hlog, unmatched_eq_nil]
  exact hasEntry_sent hc

/-- **The receiver's merge.**  The answer and the log are those of the Raft
rule, the caches agree with the log in every outcome, and a second delivery
changes nothing.  An error is a storage that refused the term or the entries,
or a configuration that was refused behind the merge. -/
theorem handleAppendEntries_merges (h : Uncompacted n)
    (hterm : n.hardState.currentTerm ≤ msg.term)
    (hc : Contiguous LogEntry.index msg.prevLogIndex entries)
    (hfit : msg.prevLogIndex + entries.length ≤ u64Max) :
    match handleAppendEntries sender msg entries n with
    | .ok _ n' =>
        Uncompacted n' ∧ n'.Settled sender msg entries ∧
          if msg.prevLogIndex = 0 ∨ HasEntry n.storage.entries msg.prevLogIndex msg.prevLogTerm then
            n'.storage.entries = mergeReference n.storage.entries entries ∧
              Answers n n' sender true
          else n'.storage.entries = n.storage.entries ∧ Answers n n' sender false
    | .error _ n' =>
        Uncompacted n' ∧
          (n.hardState.currentTerm < msg.term ∧ n.Unsaved ⟨msg.term, none⟩ ∨
            n.RefusesUnmatched entries ∨
            ActivationFails (unmatched n.storage.entries entries) ∧
              n'.storage.entries = mergeReference n.storage.entries entries ∧
              n'.Settled sender msg entries) := by
  have hsame : SameStore n (n.heard msg) := (SameLog.heard n msg).toSameStore
  have hm : Uncompacted (n.heard msg) := h.of_same hsame
  have hheard := currentTerm_heard hterm
  have hout := handleAppendEntries_outcome n sender msg entries
  generalize handleAppendEntries sender msg entries n = r at hout ⊢
  cases hout with
  | stale hlt => omega
  | unsaved e hlt hun =>
      refine ⟨h.of_same ?_, .inl ⟨hlt, hun⟩⟩
      exact ⟨rfl, rfl, rfl, rfl, rfl⟩
  | rejected _ hno =>
      have hreply := (SameLog.replied (n.heard msg)
        (n.env.encodes ((n.heard msg).appendResp msg false (n.rejectHint msg))) sender
        ((n.heard msg).appendResp msg false (n.rejectHint msg))).toSameStore
      have hall := hsame.trans hreply
      have hafter := h.of_same hall
      refine ⟨hafter, ?_, ?_⟩
      · refine hafter.settled ?_ hc hfit fun hok => ?_
        · rw [hardState_replied, hheard]
        · rw [hall.prevOk, hno] at hok
          cases hok
      · rw [if_neg]
        · exact ⟨hall.entries, answers_replied (sent_heard n msg)⟩
        · rw [← h.prevOk_iff, hno]
          exact Bool.false_ne_true
  | failed e n' _ hok hfail =>
      have hokm : (n.heard msg).prevOk msg = true := by rw [hsame.prevOk, hok]
      cases hfail with
      | refused _ hwhy =>
          rcases hwhy with hbad | ⟨rest, hscan, hrefused⟩
          · exact absurd hbad (scan_ne_malformed hc hfit)
          · obtain ⟨hne, hrest, hmerge⟩ := hm.of_missing hc hokm hscan
            have hwhole := hmerge.trans (by rw [hsame.entries])
            rw [hsame.entries] at hrest
            refine ⟨hm, .inr (.inl ?_)⟩
            exact refusesUnmatched (env_heard n msg) hne hrest hwhole (hrefused.resolve_right id)
      | cut _ rest hscan hrefused =>
          obtain ⟨hne, hrest, hmerge⟩ := hm.of_conflict hscan
          rw [hsame.entries] at hrest hmerge
          have henv : ((n.heard msg).cutAt rest).env = n.env := by
            cases rest <;> exact env_heard n msg
          refine ⟨hm.cutAt hc hokm hscan, .inr (.inl ?_)⟩
          exact refusesUnmatched henv hne hrest hmerge (hrefused.resolve_right id)
      | spliced _ hwell hnew hb hact =>
          have hlog := hm.spliced_entries hc hfit hokm
          have hafter := hm.spliced hc hokm (.inr hb)
          rw [hsame.entries] at hlog
          refine ⟨hafter, .inr (.inr ⟨?_, hlog, hafter.settled_of_merged ?_ hc hfit hlog⟩)⟩
          · rw [← hsame.entries, ← hm.fresh_eq hc hfit hokm]
            exact hact
          · rw [hardState_spliced, hheard]
  | accepted _ hok hwell hb =>
      have hokm : (n.heard msg).prevOk msg = true := by rw [hsame.prevOk, hok]
      have haccepted := SameStore.accepted (n.heard msg) msg entries
        (n.env.encodes
          ((((n.heard msg).tookOver msg entries).adopted msg.leaderCommit).ackOf msg)) sender
        ((((n.heard msg).tookOver msg entries).adopted msg.leaderCommit).ackOf msg)
      have hafter := (hm.spliced hc hokm hb).of_same haccepted
      have hlog := haccepted.entries.trans (hm.spliced_entries hc hfit hokm)
      rw [hsame.entries] at hlog
      have hquiet := outside_tookOver (n.heard msg) msg entries
      have hcalm := outside_adopted ((n.heard msg).tookOver msg entries) msg.leaderCommit
      refine ⟨hafter, hafter.settled_of_merged ?_ hc hfit hlog, ?_⟩
      · rw [hardState_replied, hcalm.2.2, hquiet.2.2, hheard]
      · rw [if_pos (h.prevOk_iff.mp hok)]
        refine ⟨hlog, answers_replied ?_⟩
        rw [hcalm.2.1, hquiet.2.1, sent_heard]

end Handler

/-- A restarted node knows its log from storage alone. -/
theorem uncompacted_trioNode {id : PeerId} {s : Storage}
    (hc : Contiguous LogEntry.index 0 s.entries) (hb : s.entries.length ≤ maxEntries) :
    Uncompacted (trioNode id s) where
  contiguous := hc
  bounded := hb
  cached := rfl
  arena i t hi := by
    have hnone : (trioNode id s).logMetadata.getTerm i = none :=
      LogMetadataArena.getTerm_new 8192 i
    rw [hnone] at hi
    cases hi

/-- Two entries of term 1 that were never committed. -/
def orphaned : Storage :=
  { hardState := ⟨1, none⟩
    entries := [⟨1, 1, [7]⟩, ⟨1, 2, [8]⟩]
    snapshot := none
    seeded := false }

/-- The leader of term 2 replaces the second one and adds a third. -/
theorem handleAppendEntries_merges_replaced_tail :
    let n' := (handleAppendEntries 2 ⟨2, 2, 1, 1, 0, 0⟩ [⟨2, 2, [9]⟩, ⟨2, 3, [10]⟩]).after
      (trioNode 1 orphaned)
    Uncompacted n' ∧ n'.storage.entries = [⟨1, 1, [7]⟩, ⟨2, 2, [9]⟩, ⟨2, 3, [10]⟩] := by
  have hmerges := @handleAppendEntries_merges (trioNode 1 orphaned) 2 ⟨2, 2, 1, 1, 0, 0⟩
    [⟨2, 2, [9]⟩, ⟨2, 3, [10]⟩] (uncompacted_trioNode (by decide) (by decide)) (by decide)
    (by decide) (by decide)
  exact ⟨hmerges.1, hmerges.2.2.1⟩

end ArbitroRaft
