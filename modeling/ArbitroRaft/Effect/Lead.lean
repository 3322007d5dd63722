import ArbitroRaft.Effect.Roll

/-!
# What an effect does to a leader

Most of what a node does ends its leadership or leaves the leader's books alone.
`Effect.lead` lists the rest: how the log, the membership, the progress table and
the awaited acknowledgements may change while a node leads one term.
-/

namespace ArbitroRaft

open Library

/-- The same log, membership, progress table and awaited acknowledgements. -/
structure SameSeat (n n' : RaftNode) : Prop extends SameOffice n n' where
  entries : n'.storage.entries = n.storage.entries
  cached : n'.cachedLastLog = n.cachedLastLog
  pending : n'.scratchPending = n.scratchPending

theorem SameSeat.of_core {n n' : RaftNode} (h : n'.core = n.core) : SameSeat n n' where
  toSameOffice := .of_core h
  entries := congrArg (fun c => c.storage.entries) h
  cached := congrArg Core.cachedLastLog h
  pending := congrArg Core.scratchPending h

/-- An effect on a node that leads the same term afterwards. -/
inductive LeadEffect (sc : Scope) (n : RaftNode) : RaftNode → Prop
  | kept (n' : RaftNode) : SameSeat n n' → LeadEffect sc n n'
  | crowned : n.softState.role = .candidate → sc.crowns n.hardState.currentTerm →
      LeadEffect sc n n.becomeLeader
  | initialized : n.peerProgress.isEmpty = true → LeadEffect sc n n.initializeLeaderProgress
  | progressed (peer : PeerId) (old p : PeerProgress) (resp : AppendEntriesResp) :
      sc.rx ⟨peer, .appendEntriesResp resp⟩ → sc.fresh n.core →
      resp.term ≤ n.hardState.currentTerm → n.peerProgress.get peer = some old →
      n.Advance (∀ m k, sc.pends m (m.remove k)) peer old resp p →
      LeadEffect sc n (n.setProgress peer p)
  | rebased (peer : PeerId) (old : PeerProgress) (boundary : Nat) :
      n.peerProgress.get peer = some old →
      LeadEffect sc n (n.setProgress peer (old.anchored boundary n.cachedLastLog.1))
  | led (payloads : List EntryPayload) : sc.appends → Arrived sc n → sc.batch payloads →
      LeadEffect sc n (n.stored (n.proposedBatch payloads))
  | restored (m : SnapshotMeta) : sc.restores → LeadEffect sc n (n.restoredFrom m)
  | compacted (term : Nat) (bytes : List UInt8) : sc.compacts →
      LeadEffect sc n (n.compacted term bytes n.compactionHorizon)
  | reconfigured (entry : ConfigChangeEntry) : sc.control → sc.change entry →
      LeadEffect sc n (n.adoptConfig entry).settleConfig
  | pended (m : PeerMap AppendAttemptState) : sc.pends n.scratchPending m →
      (n.scratchPending.keys.Nodup → m.keys.Nodup) →
      LeadEffect sc n { n with scratchPending := m }

variable {sc : Scope} {n n' : RaftNode}

theorem isLeader_iff : n.isLeader = true ↔ n.softState.role = .leader := by
  unfold RaftNode.isLeader
  exact beq_iff_eq

theorem SameSeat.replied (n : RaftNode) (reply : Bool) (peer : PeerId) (msg : RaftMessage) :
    SameSeat n (n.replied reply peer msg) := by
  cases reply <;> exact ⟨⟨⟨rfl, rfl⟩, rfl, rfl⟩, rfl, rfl, rfl⟩

theorem SameSeat.trans {n'' : RaftNode} (h : SameSeat n n') (h' : SameSeat n' n'') :
    SameSeat n n'' :=
  ⟨h.toSameOffice.trans h'.toSameOffice, h'.entries.trans h.entries,
    h'.cached.trans h.cached, h'.pending.trans h.pending⟩

theorem HardEffect.lead (h : HardEffect sc n n') (hl : n'.softState.role = .leader)
    (ht : n'.hardState.currentTerm = n.hardState.currentTerm) : SameSeat n n' := by
  cases h with
  | steppedDown t _ => cases hl
  | stepDownFailed t hlt _ => exact absurd ht hlt.ne'
  | abdicated _ _ => cases hl
  | abdicationFailed _ _ _ => exact ⟨⟨⟨rfl, rfl⟩, rfl, rfl⟩, rfl, rfl, rfl⟩
  | stood _ _ => cases hl
  | standFailed _ _ _ => cases hl
  | granted sender msg reply _ _ =>
    have hcast : SameSeat n (n.castVote msg.candidateId).savedHard :=
      ⟨⟨⟨rfl, rfl⟩, rfl, rfl⟩, rfl, rfl, rfl⟩
    exact hcast.trans (.replied _ reply sender _)
  | grantFailed sender msg _ _ _ => exact ⟨⟨⟨rfl, rfl⟩, rfl, rfl⟩, rfl, rfl, rfl⟩

theorem LogEffect.lead (h : LogEffect sc n n') (hl : n'.softState.role = .leader) :
    LeadEffect sc n n' := by
  -- what a follower takes over leaves it a follower
  have hfollower (hrole : n'.softState.role = n.softState.role)
      (hf : n.softState.role = .follower) : LeadEffect sc n n' := by
    rw [hrole, hf] at hl
    cases hl
  cases h with
  | cut sender msg entries rest hr _ _ => exact hfollower (SameOffice.cutAt n rest).role hr.role
  | spliced sender msg entries hr _ _ _ _ =>
    exact hfollower (SameOffice.spliced n msg entries).role hr.role
  | accepted sender msg entries reply hr _ _ =>
    refine hfollower ?_ hr.role
    rw [(SameOffice.replied _ reply sender _).role, (SameOffice.adopted _ _).role]
    exact role_tookOver n msg entries
  | led payloads happ harr _ _ hbatch => exact .led payloads happ harr hbatch
  | learned index t _ => exact .kept _ ⟨⟨⟨rfl, rfl⟩, rfl, rfl⟩, rfl, rfl, rfl⟩
  | installed sender msg chunk bytes _ _ _ _ hrole =>
    exact hfollower (SameOffice.completeSnapshot n _ bytes).role hrole
  | restored m hres _ _ _ => exact .restored m hres
  | compacted term bytes hc _ _ _ => exact .compacted term bytes hc.2

/-- How a node that leads the same term afterwards got there. -/
theorem Effect.lead (h : Effect sc n n') (hl : n'.isLeader = true)
    (ht : n'.hardState.currentTerm = n.hardState.currentTerm) : LeadEffect sc n n' := by
  rw [isLeader_iff] at hl
  have hsame {n' : RaftNode} (hs : SameSeat n n') : LeadEffect sc n n' := .kept n' hs
  cases h with
  | quiet _ hq => exact hsame (.of_core hq)
  | sent peer msg _ _ => exact hsame ⟨⟨⟨rfl, rfl⟩, rfl, rfl⟩, rfl, rfl, rfl⟩
  | hard _ hh => exact hsame (hh.lead hl ht)
  | log _ hlog => exact hlog.lead hl
  | demoted => cases hl
  | followed leaderId _ => cases hl
  | crowned hc hterm => exact .crowned hc hterm
  | initialized _ hempty => exact .initialized hempty
  | progressed peer old p resp hrx hf hle hget hadv =>
    exact .progressed peer old p resp hrx hf hle hget hadv
  | rebased peer old p _ hget hp =>
    obtain ⟨boundary, rfl⟩ := hp
    exact .rebased peer old boundary hget
  | committed q _ _ => exact hsame ⟨⟨⟨rfl, rfl⟩, rfl, rfl⟩, rfl, rfl, rfl⟩
  | applied e _ _ _ => exact hsame ⟨⟨⟨rfl, rfl⟩, rfl, rfl⟩, rfl, rfl, rfl⟩
  | reconfigured entry hctl hchange _ => exact .reconfigured entry hctl hchange
  | indexed indexes _ => exact hsame ⟨⟨⟨rfl, rfl⟩, rfl, rfl⟩, rfl, rfl, rfl⟩
  | pended m hm hnodup => exact .pended m hm hnodup

end ArbitroRaft
