import ArbitroRaft.Effect.Roll
import ArbitroRaft.Replication.Receive
import ArbitroRaft.Wire.RoundTrip

/-!
# The contiguity guard

The entries of an `AppendEntries` carry their own indices.  The handler checks them
in the loop that compares the batch with the log, and that loop ends at the first
entry the log does not hold: the entries behind it are stored as they come.  The
guard therefore covers a batch whose first wrong index lies within the part the log
already holds, or is the very entry the loop ends at.

## Main results

* `contiguity_guard_iff`: which batches with a wrong index are refused.
-/

namespace ArbitroRaft

open Library

/-! ## Where the scan stops -/

/-- The batch agrees with the log up to `e`, where the scan stops. -/
structure RaftNode.StopsAt (n : RaftNode) (msg : AppendEntries) (entries pre : List LogEntry)
    (e : LogEntry) (post : List LogEntry) (s : Scan) : Prop where
  split : entries = pre ++ e :: post
  matched : MatchedFrom n.localTerm (satAdd msg.prevLogIndex 1) 0 pre
  stop : ScanStop n.localTerm (satAdd msg.prevLogIndex 1) pre.length e post s

section StopsAt

variable {n : RaftNode} {msg : AppendEntries} {entries : List LogEntry}

theorem RaftNode.StopsAt.scan {pre : List LogEntry} {e : LogEntry} {post : List LogEntry}
    {s : Scan} (h : n.StopsAt msg entries pre e post s) : n.scan msg entries = s := by
  rw [RaftNode.scan, h.split]
  exact scanEntries_of_stop h.matched (by rw [Nat.zero_add]; exact h.stop)

theorem exists_stopsAt {s : Scan} (hscan : n.scan msg entries = s) (h : s ≠ .matched) :
    ∃ pre e post, n.StopsAt msg entries pre e post s := by
  obtain ⟨pre, e, post, hsplit, hpre, hstop⟩ := exists_scanStop hscan h
  rw [Nat.zero_add] at hstop
  exact ⟨pre, e, post, hsplit, hpre, hstop⟩

end StopsAt

/-! ## What the guard turns away -/

/-- The log, its caches, the configuration and the commit index are as before. -/
structure Untouched (n n' : RaftNode) : Prop extends SameRoll n n' where
  entries : n'.storage.entries = n.storage.entries
  arena : n'.logMetadata = n.logMetadata
  cached : n'.cachedLastLog = n.cachedLastLog
  commit : n'.softState.commitIndex = n.softState.commitIndex

/-- The indices of the batch follow the previous entry, or the handler returns an
error and nothing was touched. -/
def GuardHolds (form : AppendForm) (n : RaftNode) (sender : PeerId) (msg : AppendEntries)
    (entries : List LogEntry) : Prop :=
  Contiguous LogEntry.index msg.prevLogIndex entries ∨
    ∃ e n', form.handle sender msg entries n = .error e n' ∧ Untouched n n'

/-- The log, its arena and its tip end in `e :: post` already: cut at `e` and
extended by it, they are what they were. -/
structure RaftNode.EndsIn (n : RaftNode) (e : LogEntry) (post : List LogEntry) : Prop where
  entries : n.storage.entries.filter (fun x => decide (x.index < e.index)) ++ e :: post =
    n.storage.entries
  arena : (e :: post).foldl (fun a x => a.append x.index x.term)
    (n.logMetadata.truncateSuffix e.index) = n.logMetadata
  cached : (((e :: post).getLast (List.cons_ne_nil e post)).index,
    ((e :: post).getLast (List.cons_ne_nil e post)).term) = n.cachedLastLog

/-- When a message is refused with an error and the log left alone. -/
inductive RaftNode.TurnsAway (n : RaftNode) (form : AppendForm) (msg : AppendEntries)
    (entries : List LogEntry) : Prop
  /-- The term of the message is new and cannot be saved. -/
  | unsaved : n.hardState.currentTerm < msg.term → n.Unsaved ⟨msg.term, none⟩ →
      RaftNode.TurnsAway n form msg entries
  /-- The scan meets an index out of sequence. -/
  | guarded (pre : List LogEntry) (e : LogEntry) (post : List LogEntry) :
      n.hardState.currentTerm ≤ msg.term → n.prevOk msg = true →
      n.StopsAt msg entries pre e post .malformed → RaftNode.TurnsAway n form msg entries
  /-- Storage refuses what is new. -/
  | refused (pre : List LogEntry) (e : LogEntry) (post : List LogEntry) :
      n.hardState.currentTerm ≤ msg.term → n.prevOk msg = true →
      n.StopsAt msg entries pre e post (.missing (e :: post)) →
      n.Refuses (e :: post) ∨ form.unable n.storage → RaftNode.TurnsAway n form msg entries
  /-- The log is cut and written again as it was, and the newest change refused. -/
  | rewritten (pre : List LogEntry) (e : LogEntry) (post : List LogEntry) :
      n.hardState.currentTerm ≤ msg.term → n.prevOk msg = true →
      n.StopsAt msg entries pre e post (.conflict (e :: post)) →
      ¬ (n.env.appendFails (e :: post) ≠ none ∨ form.unable n.storage) →
      n.storage.entries.length ≤ maxEntries → n.EndsIn e post → ActivationFails (e :: post) →
      RaftNode.TurnsAway n form msg entries

section Guard

variable {form : AppendForm} {n n' : RaftNode} {msg : AppendEntries} {entries : List LogEntry}

theorem Untouched.heard (n : RaftNode) (msg : AppendEntries) : Untouched n (n.heard msg) := by
  have hlog := SameLog.heard n msg
  have hroll : SameRoll n (n.heard msg) := by
    unfold RaftNode.heard
    split <;> exact ⟨rfl, rfl⟩
  exact ⟨hroll, hlog.entries, hlog.arena, hlog.cached, hlog.commit⟩

theorem refuses_congr (hentries : n'.storage.entries = n.storage.entries) (henv : n'.env = n.env)
    (rest : List LogEntry) : n'.Refuses rest ↔ n.Refuses rest := by
  unfold RaftNode.Refuses
  rw [hentries, henv]

theorem unable_congr {s s' : Storage} (h : s'.seeded = s.seeded) :
    form.unable s' ↔ form.unable s := by
  cases form with
  | plain => exact Iff.rfl
  | seeded =>
    change s'.seeded = false ↔ s.seeded = false
    rw [h]

theorem seeded_heard (n : RaftNode) (msg : AppendEntries) :
    (n.heard msg).storage.seeded = n.storage.seeded := by
  unfold RaftNode.heard
  split <;> rfl

/-- A cut takes away the entry it is made at, from the log or from the arena. -/
theorem touched_of_cut {e : LogEntry} {post : List LogEntry} {t : Nat}
    (hlocal : n.localTerm e.index = some t)
    (hentries : (n.cutAt (e :: post)).storage.entries = n.storage.entries)
    (harena : (n.cutAt (e :: post)).logMetadata = n.logMetadata) : False := by
  change n.storage.entries.filter (fun x => decide (x.index < e.index)) =
    n.storage.entries at hentries
  change n.logMetadata.truncateSuffix e.index = n.logMetadata at harena
  unfold RaftNode.localTerm at hlocal
  cases hget : n.logMetadata.getTerm e.index with
  | some u =>
    rw [← harena] at hget
    exact absurd (LogMetadataArena.getTerm_truncateSuffix hget).1 (Nat.lt_irrefl _)
  | none =>
    rw [hget] at hlocal
    obtain ⟨x, hx, hidx, -⟩ := Storage.mem_of_termAt hlocal
    rw [← hentries, List.mem_filter] at hx
    have hlt := of_decide_eq_true hx.2
    omega

/-- The scan of a node that follows the sender stops where its own would. -/
theorem exists_stopsAt_heard {s : Scan} (hscan : (n.heard msg).scan msg entries = s)
    (h : s ≠ .matched) : ∃ pre e post, n.StopsAt msg entries pre e post s := by
  rw [(SameLog.heard n msg).scan] at hscan
  exact exists_stopsAt hscan h

theorem untouched_rewritten {e : LogEntry} {post : List LogEntry} :
    Untouched n (((n.heard msg).cutAt (e :: post)).stored (e :: post)) ↔ n.EndsIn e post := by
  have hheard := Untouched.heard n msg
  have hentries : (((n.heard msg).cutAt (e :: post)).stored (e :: post)).storage.entries =
      n.storage.entries.filter (fun x => decide (x.index < e.index)) ++ e :: post := by
    rw [← hheard.entries]
    rfl
  have harena : (((n.heard msg).cutAt (e :: post)).stored (e :: post)).logMetadata =
      (e :: post).foldl (fun a x => a.append x.index x.term)
        (n.logMetadata.truncateSuffix e.index) := by
    rw [← hheard.arena]
    rfl
  have hcached : (((n.heard msg).cutAt (e :: post)).stored (e :: post)).cachedLastLog =
      (((e :: post).getLast (List.cons_ne_nil e post)).index,
        ((e :: post).getLast (List.cons_ne_nil e post)).term) := by
    exact RaftNode.tip_stored_of_last
      (List.getLast?_eq_some_getLast (List.cons_ne_nil e post))
  constructor
  · intro h
    exact ⟨hentries ▸ h.entries, harena ▸ h.arena, hcached ▸ h.cached⟩
  · intro h
    exact ⟨⟨hheard.config, hheard.joint⟩, hentries.trans h.entries, harena.trans h.arena,
      hcached.trans h.cached, hheard.commit⟩

variable {sender : PeerId}

/-- An error that leaves everything as it was is one of those listed. -/
theorem RaftNode.TurnsAway.of_error {e : RaftError}
    (hout : AppendOutcome form.unable n sender msg entries (.error e n')) (h : Untouched n n') :
    n.TurnsAway form msg entries := by
  have hlog := SameLog.heard n msg
  have hlocal := hlog.localTerm
  cases hout with
  | unsaved e hlt hsave => exact .unsaved hlt hsave
  | failed e n' hle hprev happly hears =>
    cases happly with
    | refused e hwhy =>
      rcases hwhy with hscan | ⟨rest, hscan, hrefuse⟩
      · obtain ⟨pre, x, post, hstop⟩ := exists_stopsAt_heard hscan nofun
        exact .guarded pre x post hle hprev hstop
      · obtain ⟨pre, x, post, hstop⟩ := exists_stopsAt_heard hscan nofun
        cases hstop.stop with
        | isNew =>
          refine .refused pre x post hle hprev hstop ?_
          exact hrefuse.imp (refuses_congr hlog.entries (env_heard n msg) _).mp
            (unable_congr (seeded_heard n msg)).mp
    | cut e rest hscan hrefuse =>
      obtain ⟨pre, x, post, hstop⟩ := exists_stopsAt_heard hscan nofun
      cases hstop.stop with
      | differs t hidx hterm hne =>
        rw [← hlog.localTerm] at hterm
        exact (touched_of_cut hterm (h.entries.trans hlog.entries.symm)
          (h.arena.trans hlog.arena.symm)).elim
    | spliced e hwell hnew hfits hact hable =>
      unfold RaftNode.spliced at h hfits
      unfold RaftNode.fresh at hact
      unfold RaftNode.Able at hable
      cases hscan : (n.heard msg).scan msg entries with
      | malformed => exact absurd hscan hwell
      | matched => exact absurd hscan hnew
      | missing rest =>
        rw [hscan] at h
        obtain ⟨pre, x, post, hstop⟩ := exists_stopsAt_heard hscan nofun
        cases hstop.stop with
        | isNew =>
          have hlen := congrArg List.length h.entries
          change ((n.heard msg).storage.entries ++ x :: post).length = _ at hlen
          rw [hlog.entries, List.length_append, List.length_cons] at hlen
          omega
      | conflict rest =>
        rw [hscan] at h hfits hact hable
        obtain ⟨pre, x, post, hstop⟩ := exists_stopsAt_heard hscan nofun
        cases hstop.stop with
        | differs t hidx hterm hne =>
          rw [h.entries] at hfits
          refine .rewritten pre x post hle hprev hstop ?_ hfits
            (untouched_rewritten.mp h) hact
          have hunable : form.unable ((n.heard msg).cutAt (x :: post)).storage ↔
              form.unable n.storage := unable_congr (seeded_heard n msg)
          rintro (happend | hform)
          · rw [← env_heard n msg] at happend
            exact hable (.inl (.inr happend))
          · exact hable (.inr (hunable.mpr hform))

/-- A message of the term or a newer one whose previous entry is there: storage
could not save the term, the batch was not taken over, or it was. -/
theorem AppendOutcome.past_checks {r : EStateM.Result RaftError RaftNode Unit}
    (hout : AppendOutcome form.unable n sender msg entries r)
    (hle : n.hardState.currentTerm ≤ msg.term) (hprev : n.prevOk msg = true) :
    (∃ e n', r = .error e n' ∧ Untouched n n') ∨
      (∃ e n', r = .error e n' ∧
        ApplyOutcome form.unable (n.heard msg) msg entries (.error e n')) ∨
      (n.heard msg).scan msg entries ≠ .malformed ∧
        (n.heard msg).Able form.unable msg entries ∧
        ¬ ActivationFails ((n.heard msg).fresh msg entries) := by
  cases hout with
  | stale hstale => omega
  | unsaved e _ _ => exact .inl ⟨e, _, rfl, ⟨rfl, rfl⟩, rfl, rfl, rfl, rfl⟩
  | rejected _ hbad _ => exact absurd (hprev.symm.trans hbad) nofun
  | failed e n' _ _ happly _ => exact .inr (.inl ⟨e, n', rfl, happly⟩)
  | accepted _ _ hwell _ hable hact _ => exact .inr (.inr ⟨hwell, hable, hact⟩)

/-- The cases listed end in an error and leave everything as it was. -/
theorem RaftNode.TurnsAway.error {r : EStateM.Result RaftError RaftNode Unit}
    (h : n.TurnsAway form msg entries) (hout : AppendOutcome form.unable n sender msg entries r) :
    ∃ e n', r = .error e n' ∧ Untouched n n' := by
  have hlog := SameLog.heard n msg
  cases h with
  | unsaved hlt hsave =>
    cases hout with
    | stale hstale => omega
    | unsaved e _ _ => exact ⟨e, _, rfl, ⟨rfl, rfl⟩, rfl, rfl, rfl, rfl⟩
    | rejected _ _ hears => exact absurd hsave (hears hlt)
    | failed e n' _ _ _ hears => exact absurd hsave (hears hlt)
    | accepted _ _ _ _ _ _ hears => exact absurd hsave (hears hlt)
  | guarded pre x post hle hprev hstop =>
    have hscan : (n.heard msg).scan msg entries = .malformed :=
      (hlog.scan msg entries).trans hstop.scan
    rcases hout.past_checks hle hprev with hdone | ⟨e, n', rfl, happly⟩ | ⟨hwell, -, -⟩
    · exact hdone
    · cases happly with
      | refused e _ => exact ⟨e, _, rfl, Untouched.heard n msg⟩
      | cut e rest hcut _ => exact absurd (hscan.symm.trans hcut) nofun
      | spliced e hwell _ _ _ _ => exact absurd hscan hwell
    · exact absurd hscan hwell
  | refused pre x post hle hprev hstop hrefuse =>
    have hscan : (n.heard msg).scan msg entries = .missing (x :: post) :=
      (hlog.scan msg entries).trans hstop.scan
    have hunable : ¬ (n.heard msg).Able form.unable msg entries := by
      unfold RaftNode.Able
      rw [hscan]
      exact fun hable => hable (hrefuse.imp
        (refuses_congr hlog.entries (env_heard n msg) _).mpr
        (unable_congr (seeded_heard n msg)).mpr)
    rcases hout.past_checks hle hprev with hdone | ⟨e, n', rfl, happly⟩ | ⟨-, hable, -⟩
    · exact hdone
    · cases happly with
      | refused e _ => exact ⟨e, _, rfl, Untouched.heard n msg⟩
      | cut e rest hcut _ => exact absurd (hscan.symm.trans hcut) nofun
      | spliced e _ _ _ _ hable => exact absurd hable hunable
    · exact absurd hable hunable
  | rewritten pre x post hle hprev hstop hstores hfits hends hact =>
    have hscan : (n.heard msg).scan msg entries = .conflict (x :: post) :=
      (hlog.scan msg entries).trans hstop.scan
    rcases hout.past_checks hle hprev with hdone | ⟨e, n', rfl, happly⟩ | ⟨-, -, hfree⟩
    · exact hdone
    · cases happly with
      | refused e _ => exact ⟨e, _, rfl, Untouched.heard n msg⟩
      | cut e rest hcut hrefuse =>
        obtain rfl := Scan.conflict.inj (hscan.symm.trans hcut)
        rcases hrefuse with (hfull | happend) | hform
        · -- Cut and extended the log has the length it has now.
          change maxEntries < ((n.heard msg).storage.entries.filter
            (fun y => decide (y.index < x.index))).length + (x :: post).length at hfull
          rw [hlog.entries, ← List.length_append, hends.entries] at hfull
          omega
        · change (n.heard msg).env.appendFails (x :: post) ≠ none at happend
          rw [env_heard] at happend
          exact absurd (.inl happend) hstores
        · have hunable : form.unable ((n.heard msg).cutAt (x :: post)).storage ↔
              form.unable n.storage := unable_congr (seeded_heard n msg)
          exact absurd (.inr (hunable.mp hform)) hstores
      | spliced e _ _ _ _ _ =>
        refine ⟨e, _, rfl, ?_⟩
        unfold RaftNode.spliced
        rw [hscan]
        exact untouched_rewritten.mpr hends
    · unfold RaftNode.fresh at hfree
      rw [hscan] at hfree
      exact absurd hact hfree

end Guard

/-- **The contiguity guard.**  The indices of a batch follow the previous entry, or
the message is refused with an error and nothing is touched, just where the scan
itself meets the wrong index or the batch is refused for another reason. -/
theorem contiguity_guard_iff (form : AppendForm) (n : RaftNode) (sender : PeerId)
    (msg : AppendEntries) (entries : List LogEntry) :
    GuardHolds form n sender msg entries ↔
      Contiguous LogEntry.index msg.prevLogIndex entries ∨ n.TurnsAway form msg entries := by
  have hout := form.outcome_unable n sender msg entries
  refine or_congr_right ⟨?_, ?_⟩
  · rintro ⟨e, n', hrun, huntouched⟩
    rw [hrun] at hout
    exact .of_error hout huntouched
  · intro h
    exact h.error hout

/-! ## A gap behind the entry the scan ends at -/

/-- The header and the two entries of a batch with a gap, as they are on the wire. -/
def gappyHeader : Wire.AppendEntries := ⟨1, 2, 0, 0, 0, 2, 0⟩

def gappyItems : List Wire.EntryItem := [(⟨1, 1, 1, 0⟩, [5]), (⟨1, 7, 1, 0⟩, [6])]

def gappyPlain : Wire.RaftMessage :=
  .appendEntries gappyHeader (gappyItems.flatMap Wire.EntryItem.bytes)

def gappySeeded : Wire.RaftMessage :=
  .appendEntriesSeeded gappyHeader (gappyItems.flatMap Wire.EntryItem.header)
    (gappyItems.flatMap Prod.snd)

theorem gappyItems_sized : ∀ item ∈ gappyItems, item.Sized := by
  unfold Wire.EntryItem.Sized
  decide

theorem gappyPlain_wellFormed : gappyPlain.WellFormed :=
  ⟨⟨gappyItems, rfl, gappyItems_sized, rfl⟩, by decide⟩

theorem gappySeeded_wellFormed : gappySeeded.WellFormed :=
  ⟨⟨gappyItems, rfl, gappyItems_sized, rfl, rfl⟩, by decide⟩

/-- Both frames pass the decoder.  A follower without entries stores the first entry
of the batch as its first one, and with it the entry that calls itself the seventh. -/
theorem contiguity_guard_misses_tail :
    let n := trioNode 1 (.empty true)
    let entries : List LogEntry := [⟨1, 1, [5]⟩, ⟨1, 7, [6]⟩]
    Wire.Arrives (Wire.frameBytes 2 0 gappyPlain) 2 0 gappyPlain ∧
      Wire.Arrives (Wire.frameBytes 2 0 gappySeeded) 2 0 gappySeeded ∧
      ∀ form : AppendForm,
        ¬ GuardHolds form n 2 ⟨1, 2, 0, 0, 0, 0⟩ entries ∧
          ((form.handle 2 ⟨1, 2, 0, 0, 0, 0⟩ entries).after n).storage.entries = entries ∧
          ((form.handle 2 ⟨1, 2, 0, 0, 0, 0⟩ entries).after n).cachedLastLog = (7, 1) := by
  refine ⟨Wire.frameBytes_arrives gappyPlain_wellFormed 2 0,
    Wire.frameBytes_arrives gappySeeded_wellFormed 2 0, ?_⟩
  intro form
  have hrun : ∃ n', form.handle 2 ⟨1, 2, 0, 0, 0, 0⟩ [⟨1, 1, [5]⟩, ⟨1, 7, [6]⟩]
      (trioNode 1 (.empty true)) = .ok () n' := by
    cases form <;> exact ⟨_, rfl⟩
  obtain ⟨n', hn'⟩ := hrun
  refine ⟨?_, ?_⟩
  · rintro (hcontiguous | ⟨e, m, herror, -⟩)
    · exact absurd hcontiguous (by decide)
    · exact absurd (hn'.symm.trans herror) nofun
  · cases form <;> exact ⟨rfl, rfl⟩

end ArbitroRaft
