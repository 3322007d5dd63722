import ArbitroRaft.Effect.Wire

/-!
# The inbound handlers as effects
-/

namespace ArbitroRaft

open Library

variable {sc : Scope} {n : RaftNode}

/-! ## AppendEntries -/

/-- A storage call that appends a batch, or refuses it and leaves everything
alone; `unable` says that the operation is not implemented. -/
def Stores (unable : Storage → Prop) (store : List LogEntry → RaftM Unit) : Prop :=
  ∀ (rest : List LogEntry) (n : RaftNode),
    (n.Refuses rest ∨ unable n.storage) ∧ (∃ e, store rest n = .error e n) ∨
      store rest n = .ok () { n with storage := n.storage.appendEntries rest } ∧
        n.storage.entries.length + rest.length ≤ maxEntries ∧
        ¬ (n.Refuses rest ∨ unable n.storage)

theorem stores_storeEntries : Stores (fun _ => False) storeEntries := by
  intro rest n
  unfold storeEntries
  rw [get_bind]
  by_cases hfull : maxEntries < n.storage.entries.length + rest.length
  · rw [if_pos hfull]
    exact .inl ⟨.inl (.inl hfull), _, rfl⟩
  · rw [if_neg hfull]
    cases hf : n.env.appendFails rest with
    | some kind => exact .inl ⟨.inl (.inr (by simp [hf])), _, rfl⟩
    | none =>
      refine .inr ⟨rfl, by omega, ?_⟩
      rintro ((hr | hr) | hr)
      · exact hfull hr
      · exact hr hf
      · exact hr

theorem stores_storeEntriesSeeded : Stores (fun s => s.seeded = false) storeEntriesSeeded := by
  intro rest n
  unfold storeEntriesSeeded
  rw [get_bind]
  beta_reduce
  cases n.storage.seeded with
  | true =>
    rcases stores_storeEntries rest n with ⟨hr, he⟩ | ⟨hok, hb, hable⟩
    · exact .inl ⟨.inl (hr.resolve_right id), he⟩
    · exact .inr ⟨hok, hb, fun hr => hable (.inl (hr.resolve_right (by decide)))⟩
  | false => exact .inl ⟨.inr rfl, _, rfl⟩

theorem isLeader_adoptConfig (n : RaftNode) (entry : ConfigChangeEntry) :
    (n.adoptConfig entry).softState = n.softState := by
  unfold RaftNode.adoptConfig
  cases entry.phase <;> rfl

/-- A follower adopts the configuration and nothing more. -/
theorem activateConfig_eq (h : n.softState.role = .follower) (rest : List LogEntry) :
    ActivationFails rest ∧ (∃ e, activateConfig rest n = .error e n) ∨
      ¬ ActivationFails rest ∧ activateConfig rest n = .ok () (n.activated rest) := by
  unfold activateConfig RaftNode.activated ActivationFails
  cases latestConfig rest with
  | none =>
    refine .inr ⟨?_, rfl⟩
    rintro ⟨_, h, _⟩
    cases h
  | some entry =>
    unfold applyConfigChange
    dsimp only
    split
    · rename_i hrefused
      exact .inl ⟨⟨entry, rfl, hrefused⟩, _, rfl⟩
    · rename_i hrefused
      refine .inr ⟨?_, ?_⟩
      · rintro ⟨c, hc, href⟩
        cases hc
        exact hrefused href
      have hl : (n.adoptConfig entry).isLeader = false := by
        simp only [RaftNode.isLeader, isLeader_adoptConfig, h]
        rfl
      have hs : (n.adoptConfig entry).settleConfig = n.adoptConfig entry := by
        simp only [RaftNode.settleConfig, hl, Bool.false_eq_true, if_false]
      rw [modify_bind, hs, leaveIfRemoved, get_bind]
      simp only [RaftNode.leadsFromOutside, hl, Bool.false_and, Bool.false_eq_true,
        if_false]
      rfl

theorem respondAppend_eq (n : RaftNode) (sender : PeerId) (msg : AppendEntries)
    (success : Bool) (matchIndex : RaftNode → Nat) :
    respondAppend sender msg success matchIndex n =
      .ok () (n.replied (n.env.encodes (n.appendResp msg success (matchIndex n))) sender
        (n.appendResp msg success (matchIndex n))) := by
  unfold respondAppend
  rw [get_bind, bind_of_ok (sendMessage_eq n sender _)]
  rfl

/-- Storage takes what the scan leaves over. -/
def RaftNode.Able (n : RaftNode) (unable : Storage → Prop) (msg : AppendEntries)
    (entries : List LogEntry) : Prop :=
  match n.scan msg entries with
  | .missing rest => ¬ (n.Refuses rest ∨ unable n.storage)
  | .conflict rest => ¬ ((n.cutAt rest).Refuses rest ∨ unable (n.cutAt rest).storage)
  | .matched | .malformed => True

/-- The four ways in which `apply_append_entries` ends on a follower. -/
inductive ApplyOutcome (unable : Storage → Prop) (n : RaftNode) (msg : AppendEntries)
    (entries : List LogEntry) : EStateM.Result RaftError RaftNode Unit → Prop
  | done : n.scan msg entries ≠ .malformed →
      n.scan msg entries = .matched ∨
        (n.spliced msg entries).storage.entries.length ≤ maxEntries →
      n.Able unable msg entries → ¬ ActivationFails (n.fresh msg entries) →
      ApplyOutcome unable n msg entries (.ok () (n.tookOver msg entries))
  | refused (e : RaftError) : (n.scan msg entries = .malformed ∨
        ∃ rest, n.scan msg entries = .missing rest ∧ (n.Refuses rest ∨ unable n.storage)) →
      ApplyOutcome unable n msg entries (.error e n)
  | cut (e : RaftError) (rest : List LogEntry) : n.scan msg entries = .conflict rest →
      (n.cutAt rest).Refuses rest ∨ unable (n.cutAt rest).storage →
      ApplyOutcome unable n msg entries (.error e (n.cutAt rest))
  | spliced (e : RaftError) : n.scan msg entries ≠ .malformed →
      n.scan msg entries ≠ .matched →
      (n.spliced msg entries).storage.entries.length ≤ maxEntries →
      ActivationFails (n.fresh msg entries) → n.Able unable msg entries →
      ApplyOutcome unable n msg entries (.error e (n.spliced msg entries))

variable {unable : Storage → Prop} {store : List LogEntry → RaftM Unit} {msg : AppendEntries}
  {sender : PeerId} {chunk : List UInt8}

/-- Storing a rest on a follower: nothing, the entries without their
configuration, or both. -/
theorem appendRest_eq (hst : Stores unable store) (h : n.softState.role = .follower)
    (rest : List LogEntry) :
    (n.Refuses rest ∨ unable n.storage) ∧ (∃ e, appendRest store rest n = .error e n) ∨
      ¬ (n.Refuses rest ∨ unable n.storage) ∧
        (n.stored rest).storage.entries.length ≤ maxEntries ∧
        (ActivationFails rest ∧ (∃ e, appendRest store rest n = .error e (n.stored rest)) ∨
          ¬ ActivationFails rest ∧
            appendRest store rest n = .ok () ((n.stored rest).activated rest)) := by
  unfold appendRest
  rcases hst rest n with ⟨hr, e, he⟩ | ⟨hok, hb, hable⟩
  · rw [bind_of_error he]
    exact .inl ⟨hr, e, rfl⟩
  · rw [bind_of_ok hok, modify_bind]
    refine .inr ⟨hable, ?_, activateConfig_eq (n := n.stored rest) h rest⟩
    change (n.storage.entries ++ rest).length ≤ maxEntries
    rwa [List.length_append]

/-- The rest of a batch goes behind what is left of the log. -/
theorem appendRest_outcome (hst : Stores unable store) {m : RaftNode} {entries rest : List LogEntry}
    (h : m.softState.role = .follower)
    (hscan : n.scan msg entries = .conflict rest ∧ m = n.cutAt rest ∨
      n.scan msg entries = .missing rest ∧ m = n) :
    ApplyOutcome unable n msg entries (appendRest store rest m) := by
  have hscanned : n.scan msg entries ≠ .malformed ∧ n.scan msg entries ≠ .matched := by
    rcases hscan with ⟨hscan, -⟩ | ⟨hscan, -⟩ <;> simp [hscan]
  have hsp : n.spliced msg entries = m.stored rest := by
    rcases hscan with ⟨hscan, rfl⟩ | ⟨hscan, rfl⟩ <;> simp only [RaftNode.spliced, hscan]
  have hto : n.tookOver msg entries = (m.stored rest).activated rest := by
    rcases hscan with ⟨hscan, -⟩ | ⟨hscan, -⟩ <;> simp only [RaftNode.tookOver, hscan, hsp]
  have hfresh : n.fresh msg entries = rest := by
    rcases hscan with ⟨hscan, -⟩ | ⟨hscan, -⟩ <;> simp only [RaftNode.fresh, hscan]
  have hable : ¬ (m.Refuses rest ∨ unable m.storage) → n.Able unable msg entries := by
    rcases hscan with ⟨hscan, rfl⟩ | ⟨hscan, rfl⟩ <;> simp only [RaftNode.Able, hscan, imp_self]
  rcases appendRest_eq hst h rest with ⟨hr, e, he⟩ | ⟨hok, hb, ⟨hact, e, he⟩ | ⟨hact, hrun⟩⟩
  · rw [he]
    rcases hscan with ⟨hscan, rfl⟩ | ⟨hscan, rfl⟩
    · exact .cut e rest hscan hr
    · exact .refused e (.inr ⟨rest, hscan, hr⟩)
  · rw [he, ← hsp]
    exact .spliced e hscanned.1 hscanned.2 (hsp ▸ hb) (hfresh.symm ▸ hact) (hable hok)
  · rw [hrun, ← hto]
    exact .done hscanned.1 (.inr (hsp ▸ hb)) (hable hok) (hfresh.symm ▸ hact)

theorem applyAppendEntriesWith_eq (hst : Stores unable store) (notContiguous : String)
    (msg : AppendEntries) (entries : List LogEntry) (h : n.softState.role = .follower) :
    ApplyOutcome unable n msg entries
      (applyAppendEntriesWith notContiguous store msg entries n) := by
  unfold applyAppendEntriesWith
  rw [get_bind]
  cases hscan : n.scan msg entries with
  | malformed => exact .refused _ (.inl hscan)
  | matched =>
    have hto : n.tookOver msg entries = n := by
      simp only [RaftNode.tookOver, hscan]
    have hdone : ApplyOutcome unable n msg entries (.ok () (n.tookOver msg entries)) :=
      .done (by simp [hscan]) (.inl hscan) (by simp only [RaftNode.Able, hscan])
        (by simp [RaftNode.fresh, hscan, ActivationFails, latestConfig])
    rwa [hto] at hdone
  | conflict rest =>
    have hcut : truncateAt rest n = .ok () (n.cutAt rest) := by
      cases rest <;> rfl
    have hrole : (n.cutAt rest).softState.role = .follower := by
      cases rest <;> exact h
    dsimp only
    rw [bind_of_ok hcut]
    exact appendRest_outcome hst hrole (.inl ⟨hscan, rfl⟩)
  | missing rest => exact appendRest_outcome hst h (.inr ⟨hscan, rfl⟩)

/-- The tail of the handler, behind the consistency check, is one effect. -/
theorem acceptTail_emits (hst : Stores unable store) (notContiguous : String)
    {entries : List LogEntry} (hr : Receives sc n sender msg entries)
    (hun : ∀ s, unable s → s.seeded = false ∧ sc.rx ⟨sender, .appendEntriesSeeded msg entries⟩) :
    Emits (Moves sc)
      (do
        applyAppendEntriesWith notContiguous store msg entries
        adoptLeaderCommit msg.leaderCommit
        respondAppend sender msg true (fun n => n.cachedLastLog.1))
      n (fun _ _ => True) := by
  have hout := applyAppendEntriesWith_eq hst notContiguous msg entries hr.role
  unfold Emits
  cases hrun : applyAppendEntriesWith notContiguous store msg entries n with
  | error e n' =>
    rw [hrun] at hout
    rw [bind_of_error hrun]
    cases hout with
    | refused => exact refl_of (Moves sc) n
    | cut _ rest hscan href =>
      refine .log (.cut sender msg entries rest hr hscan ?_)
      rcases href with href | hu
      · exact .inl href
      · obtain ⟨hseed, hrx⟩ := hun _ hu
        refine .inr ⟨?_, hrx⟩
        cases rest <;> exact hseed
    | spliced _ h1 h2 hb hact =>
      exact .log (.spliced sender msg entries hr h1 h2 hb hact)
  | ok u n' =>
    rw [hrun] at hout
    rw [bind_of_ok hrun, adoptLeaderCommit, modify_bind, respondAppend_eq]
    cases hout with
    | done h1 hb =>
      exact ⟨.log (.accepted sender msg entries _ hr h1 hb), trivial⟩

theorem respondAppend_emits (msg : AppendEntries) (matchIndex : RaftNode → Nat)
    (ha : ∀ reply, Addressed sc n sender reply)
    (hheard : ∃ f, sc.rx f ∧ f.message.appendHeader?.isSome) :
    Emits (Moves sc) (respondAppend sender msg false matchIndex) n (fun _ _ => True) := by
  unfold respondAppend
  refine .read (sendOnly_emits ?_ (ha _)).trivial
  exact fun _ => ⟨rfl, rfl, hheard⟩

theorem Moves.followLeader {leaderId : PeerId}
    (h : (∃ sender msg entries, (sc.rx ⟨sender, .appendEntries msg entries⟩ ∨
        sc.rx ⟨sender, .appendEntriesSeeded msg entries⟩) ∧
        msg.term = n.hardState.currentTerm) ∨ ¬ sc.strict) :
    Moves sc n (n.followLeader leaderId) := by
  have hstamp : Moves sc (n.followSnapshotLeader leaderId) (n.followLeader leaderId) :=
    .quiet rfl
  exact trans_of (Moves sc) (.of_effect fun _ => .followed leaderId h) hstamp

theorem handleAppendEntriesWith_emits (hst : Stores unable store) (notContiguous : String)
    {entries : List LogEntry}
    (hun : ∀ s, unable s → s.seeded = false ∧ sc.rx ⟨sender, .appendEntriesSeeded msg entries⟩)
    (hrx : sc.rx ⟨sender, .appendEntries msg entries⟩ ∨
      sc.rx ⟨sender, .appendEntriesSeeded msg entries⟩)
    (hsh : sc.strict → Contiguous LogEntry.index msg.prevLogIndex entries) (hf : sc.fresh n.core)
    (hr : n.Finds sc msg.term) :
    Emits (Moves sc)
      (handleAppendEntriesWith (applyAppendEntriesWith notContiguous store) sender msg
        entries) n (fun _ _ => True) := by
  have haddr : ∀ (m : RaftNode) reply, Addressed sc m sender reply := by
    intro m reply
    rcases hrx with h | h <;> exact addressed_of_rx h
  have hheard : ∃ f, sc.rx f ∧ f.message.appendHeader?.isSome := by
    rcases hrx with h | h <;> exact ⟨_, h, rfl⟩
  unfold handleAppendEntriesWith
  refine .read ?_
  split
  · exact respondAppend_emits msg _ (haddr n) hheard
  · rename_i hle
    refine (observeTerm_emits msg.term hr).seq ?_
    rintro _ n' - ⟨hsame, hterm⟩
    have hmt : msg.term = n'.hardState.currentTerm := by omega
    refine .updateSeq (.followLeader (.inl ⟨sender, msg, entries, hrx, hmt⟩)) ?_
    refine .read ?_
    split
    · rename_i hprev
      refine acceptTail_emits hst notContiguous
        ⟨hrx, hmt, rfl, hprev, hsh, n, hf, ?_, ?_⟩ hun
      · exact hsame.trans ⟨⟨rfl, rfl, rfl, rfl, rfl⟩, rfl, rfl, rfl⟩
      · omega
    · exact respondAppend_emits msg _ (haddr _) hheard

/-- What an `AppendEntries` response may do to the progress of its sender. -/
theorem handleAppendEntriesResponse_emits {resp : AppendEntriesResp}
    (hrx : sc.rx ⟨sender, .appendEntriesResp resp⟩) (hf : sc.fresh n.core)
    (hr : n.Finds sc resp.term) :
    Emits (Moves sc) (handleAppendEntriesResponse sender resp) n (fun _ _ => True) := by
  unfold handleAppendEntriesResponse
  refine .read ?_
  split
  · rename_i h
    exact (stepDown_emits h hr).trivial
  · rename_i hle
    split
    · rename_i hl
      split
      · exact .ret trivial
      · rename_i progress hget
        refine .put (.of_effect fun _ => ?_) trivial
        exact .progressed sender progress _ resp hrx hf (by omega) hget (.responded hl)
    · exact .ret trivial

/-! ## Votes -/

theorem grantVote_eq (n : RaftNode) (sender : PeerId) (msg : RequestVote) :
    (n.Unsaved (n.castVote msg.candidateId).hardState ∧
      ∃ e, grantVote sender msg n = .error e (n.castVote msg.candidateId)) ∨
      ∃ reply, grantVote sender msg n =
        .ok () ((n.castVote msg.candidateId).savedHard.replied reply sender
          (.requestVoteResp ⟨n.hardState.currentTerm, true⟩)) := by
  unfold grantVote
  rw [modify_bind]
  have hsave := saveHardState_eq (n.castVote msg.candidateId)
  cases hf : (n.castVote msg.candidateId).env.saveFails
      (n.castVote msg.candidateId).storage.hardState
      (n.castVote msg.candidateId).hardState with
  | some kind =>
    rw [hf] at hsave
    rw [bind_of_error hsave]
    have hu : n.Unsaved (n.castVote msg.candidateId).hardState := by
      unfold RaftNode.Unsaved
      exact hf ▸ Option.some_ne_none kind
    exact .inl ⟨hu, _, rfl⟩
  | none =>
    rw [hf] at hsave
    rw [bind_of_ok hsave, get_bind, bind_of_ok (sendMessage_eq _ _ _)]
    exact .inr ⟨_, rfl⟩

theorem grantVote_emits {msg : RequestVote} (hrx : sc.rx ⟨sender, .requestVote msg⟩)
    (hv : n.canVote msg = true) : Emits (Moves sc) (grantVote sender msg) n (fun _ _ => True) := by
  unfold Emits
  rcases grantVote_eq n sender msg with ⟨hf, e, he⟩ | ⟨reply, hok⟩
  · rw [he]
    exact .hard (.grantFailed sender msg hrx hv hf)
  · rw [hok]
    exact ⟨.hard (.granted sender msg reply hrx hv), trivial⟩

theorem handleRequestVote_emits {msg : RequestVote} (hrx : sc.rx ⟨sender, .requestVote msg⟩)
    (hr : n.Finds sc msg.term) :
    Emits (Moves sc) (handleRequestVote sender msg) n (fun _ _ => True) := by
  unfold handleRequestVote
  refine (observeTerm_emits msg.term hr).seq ?_
  intro _ n' _ _
  refine .read ?_
  split
  · rename_i hv
    exact grantVote_emits hrx hv
  · unfold refuseVote
    refine .read (sendOnly_emits ?_ (addressed_of_rx hrx)).trivial
    exact fun _ => ⟨rfl, rfl⟩

theorem handlePreVote_emits {msg : RequestVote} (hrx : sc.rx ⟨sender, .preVote msg⟩) :
    Emits (Moves sc) (handlePreVote sender msg) n (fun _ _ => True) := by
  unfold handlePreVote
  refine .read (sendOnly_emits ?_ (addressed_of_rx hrx)).trivial
  exact fun _ => rfl

/-! ## Snapshots -/

theorem respondSnapshot_emits (accepted : Bool) (nextOffset : Nat)
    (ha : ∀ reply, Addressed sc n sender reply) :
    Emits (Moves sc) (respondSnapshot sender accepted nextOffset) n (fun _ _ => True) := by
  unfold respondSnapshot
  refine .read (sendOnly_emits ?_ (ha _)).trivial
  exact fun _ => rfl

theorem pendingFor_meta (n : RaftNode) (sender : PeerId) (m : SnapshotMeta)
    (offset : Nat) : (n.pendingFor sender m offset).snapshotMeta = m := by
  unfold RaftNode.pendingFor
  dsimp only
  split
  · rfl
  · split
    · rfl
    · rename_i h
      push Not at h
      exact h.2

theorem Moves.buffered {msg : InstallSnapshot} (hrx : sc.rx ⟨sender, .installSnapshot msg chunk⟩)
    (slots : PeerMap PendingSnapshot) : Moves sc n { n with pendingSnapshots := slots } :=
  .noted rfl ⟨.inr ⟨_, _, _, hrx⟩, .inl rfl, .inl rfl, .inl rfl⟩

theorem acceptChunk_emits {msg : InstallSnapshot} {pending : PendingSnapshot} (hns : ¬ sc.strict)
    (hrx : sc.rx ⟨sender, .installSnapshot msg chunk⟩)
    (hf : ∃ m : RaftNode, sc.fresh m.core ∧ SameLog m n ∧ m.hardState.currentTerm ≤ msg.term)
    (hrole : n.softState.role = .follower)
    (hp : pending.snapshotMeta = ⟨msg.lastIncludedIndex, msg.lastIncludedTerm⟩)
    (hc : msg.done = true →
      (pending.bytes ++ chunk).length ≤ n.config.limits.maxSnapshotBytes →
        sc.completes sender msg chunk) :
    Emits (Moves sc) (acceptChunk sender msg chunk pending) n (fun _ _ => True) := by
  have haddr : ∀ (m : RaftNode) reply, Addressed sc m sender reply :=
    fun m reply => addressed_of_rx hrx
  unfold acceptChunk
  refine .read ?_
  dsimp only
  split
  · refine .updateSeq (.buffered hrx _) ((respondSnapshot_emits _ _ (haddr _)).seq ?_)
    intro _ _ _ _
    exact .fail
  · rename_i hfits
    split
    · rename_i hdone
      have hdrop : Moves sc n (n.dropPending sender) := .buffered hrx _
      have hinst : Moves sc (n.dropPending sender)
          ((n.dropPending sender).completeSnapshot pending.snapshotMeta
            (pending.bytes ++ chunk)) := by
        obtain ⟨m, hm, hsame, hle⟩ := hf
        rw [hp]
        refine .log (.installed sender msg chunk _ hns hrx hdone ⟨m, hm, ?_, hle⟩ hrole
          (hc hdone (Nat.le_of_not_lt hfits)))
        exact hsame.trans ⟨⟨rfl, rfl, rfl, rfl, rfl⟩, rfl, rfl, rfl⟩
      exact .updateSeq (trans_of (Moves sc) hdrop hinst)
        (respondSnapshot_emits _ _ (haddr _))
    · exact .updateSeq (.buffered hrx _) (respondSnapshot_emits _ _ (haddr _))

theorem receiveChunk_emits {msg : InstallSnapshot} (hns : ¬ sc.strict)
    (hrx : sc.rx ⟨sender, .installSnapshot msg chunk⟩)
    (hf : ∃ m : RaftNode, sc.fresh m.core ∧ SameLog m n ∧ m.hardState.currentTerm ≤ msg.term)
    (hrole : n.softState.role = .follower)
    (hc : n.FitsBehind (n.pendingFor sender msg.snapshotMeta msg.offset).bytes msg chunk →
      sc.completes sender msg chunk) :
    Emits (Moves sc) (receiveChunk sender msg chunk) n (fun _ _ => True) := by
  unfold receiveChunk
  refine .read (.putSeq (.buffered hrx _) ?_)
  split
  · exact respondSnapshot_emits _ _ fun _ => addressed_of_rx hrx
  · rename_i hoff
    refine acceptChunk_emits hns hrx ?_ hrole (pendingFor_meta _ _ _ _)
      fun hdone hmax => hc ⟨hdone, not_not.mp hoff, hmax⟩
    obtain ⟨m, hm, hsame, hle⟩ := hf
    exact ⟨m, hm, hsame.trans ⟨⟨rfl, rfl, rfl, rfl, rfl⟩, rfl, rfl, rfl⟩, hle⟩

theorem handleInstallSnapshot_emits {msg : InstallSnapshot} (hns : ¬ sc.strict)
    (hrx : sc.rx ⟨sender, .installSnapshot msg chunk⟩) (hf : sc.fresh n.core)
    (hk : n.Known sc (.installSnapshot msg chunk)) :
    Emits (Moves sc) (handleInstallSnapshot sender msg chunk) n (fun _ _ => True) := by
  unfold handleInstallSnapshot
  refine .read ?_
  split
  · exact .fail
  · rename_i hlen
    split
    · exact .ret trivial
    · rename_i hmem
      refine .updateSeq (.buffered hrx _) ?_
      split
      · exact respondSnapshot_emits _ _ fun _ => addressed_of_rx hrx
      · rename_i hle
        have hevict : SameLog n n.evictStalledSnapshots :=
          ⟨⟨rfl, rfl, rfl, rfl, rfl⟩, rfl, rfl, rfl⟩
        refine (observeTerm_observed (n := n.evictStalledSnapshots) msg.term
          (hk.finds msg.term rfl)).seq ?_
        rintro _ n' - hobs
        refine .updateSeq (.of_effect fun _ => .followed msg.leaderId (.inr hns)) ?_
        refine receiveChunk_emits hns hrx ⟨n, hf, hevict.trans ?_, Nat.le_of_not_lt hle⟩ rfl
          fun hfit => hk.completes _ _ _ ⟨not_not.mp hmem, ?_⟩
        · exact hobs.sameLog.trans ⟨⟨rfl, rfl, rfl, rfl, rfl⟩, rfl, rfl, rfl⟩
        · cases hobs with
          | kept h => exact .inl ⟨(Nat.le_of_not_lt hle).antisymm h, not_not.mp hlen, hfit⟩
          | steppedDown h hsaved => exact .inr ⟨h, hsaved, not_not.mp hlen, hfit⟩

/-! ## Dispatch -/

theorem handleTimeoutNow_emits {msg : TimeoutNow} (hrx : sc.rx ⟨sender, .timeoutNow msg⟩)
    (hr : n.Finds sc msg.term) :
    Emits (Moves sc) (handleTimeoutNow sender msg) n (fun _ _ => True) := by
  unfold handleTimeoutNow
  refine .read ?_
  split
  · exact .ret trivial
  · refine (observeTerm_emits msg.term hr).seq ?_
    intro _ n' _ _
    refine .update ?_ trivial
    split
    · exact .noted rfl ⟨.inl fun _ hs => hs, .inr ⟨_, _, hrx⟩, .inl rfl, .inl rfl⟩
    · exact .quiet rfl

theorem handleCustomMessage_emits {payload : List UInt8} (hrx : sc.rx ⟨sender, .custom payload⟩) :
    Emits (Moves sc) (handleCustomMessage sender payload) n (fun _ _ => True) := by
  unfold handleCustomMessage
  refine .read ?_
  split
  · exact .fail
  · refine (sendOnly_emits ?_ (addressed_of_rx hrx)).trivial
    exact fun _ => trivial

/-- What a strict scope assumes of a frame: batches are consecutive and there
are no snapshots. -/
def Shaped : RaftMessage → Prop
  | .appendEntries m entries | .appendEntriesSeeded m entries =>
    Contiguous LogEntry.index m.prevLogIndex entries
  | .installSnapshot _ _ => False
  | _ => True

theorem dispatchMessage_emits {msg : RaftMessage} (hrx : sc.rx ⟨sender, msg⟩)
    (hsh : sc.strict → Shaped msg) (hf : sc.fresh n.core) (hk : n.Known sc msg) :
    Emits (Moves sc) (dispatchMessage sender msg) n (fun _ _ => True) := by
  cases msg with
  | requestVote m => exact handleRequestVote_emits hrx (hk.finds m.term rfl)
  | requestVoteResp m => exact (observeTerm_emits m.term (hk.finds m.term rfl)).trivial
  | preVote m => exact handlePreVote_emits hrx
  | preVoteResp m => exact (observeTerm_emits m.term (hk.finds m.term rfl)).trivial
  | appendEntries m entries =>
    exact handleAppendEntriesWith_emits stores_storeEntries _ (fun _ h => h.elim) (.inl hrx)
      hsh hf (hk.finds m.term rfl)
  | appendEntriesSeeded m entries =>
    exact handleAppendEntriesWith_emits stores_storeEntriesSeeded _ (fun _ h => ⟨h, hrx⟩)
      (.inr hrx) hsh hf (hk.finds m.term rfl)
  | appendEntriesResp m => exact handleAppendEntriesResponse_emits hrx hf (hk.finds m.term rfl)
  | installSnapshot m chunk => exact handleInstallSnapshot_emits hsh hrx hf hk
  | installSnapshotResp m => exact (observeTerm_emits m.term (hk.finds m.term rfl)).trivial
  | timeoutNow m => exact handleTimeoutNow_emits hrx (hk.finds m.term rfl)
  | custom payload => exact handleCustomMessage_emits hrx
  | customResponse payload => exact .ret trivial

theorem core_stampContact (n : RaftNode) (f : InboundRaftMessage) :
    (n.stampContact f).core = n.core := by
  unfold RaftNode.stampContact
  split <;> rfl

theorem handleInbound_emits {f : InboundRaftMessage} (hrx : sc.rx f)
    (hsh : sc.strict → Shaped f.message) (hf : sc.fresh n.core) (hk : n.Known sc f.message) :
    Emits (Moves sc) (handleInbound f) n (fun _ _ => True) := by
  unfold handleInbound
  have haside : (n.stampContact f).aside = n.aside := by
    unfold RaftNode.stampContact
    split <;> rfl
  refine .updateSeq (.noted (core_stampContact n f) (.same haside)) ?_
  refine dispatchMessage_emits hrx hsh ?_ ?_
  · rw [core_stampContact]
    exact hf
  · unfold RaftNode.stampContact
    split
    · exact ⟨hk.completes, hk.finds⟩
    · exact hk

theorem tolerate_emits {m : RaftM Unit} (h : Emits (Moves sc) m n (fun _ _ => True)) :
    Emits (Moves sc) (tolerate m) n (fun _ _ => True) := by
  unfold tolerate
  refine .recover h ?_
  intro e n' _
  split
  · exact .fail
  · exact .ret trivial

end ArbitroRaft
