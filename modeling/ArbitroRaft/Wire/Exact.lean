import ArbitroRaft.Wire.RoundTrip

/-!
# The decoder accepts frames only

The round trip says that what the encoders write is read back.  Here is the other
direction: a byte string that `decode_message` accepts is the frame of the message
it returns, up to the two header fields nobody reads, and no other byte string that
begins with it or that it begins with is accepted.

## Main results

* `decodeMessage_exact`: this, for every byte string.
-/

namespace ArbitroRaft.Wire

open Library

/-! ## No structure has padding -/

section Layouts

open Layout

theorem RaftFrameHeader.layout_exact : RaftFrameHeader.layout.Exact :=
  Exact.record (exact_u32.pair (exact_u8.pair (exact_u8.pair (exact_u16.pair (exact_u64.pair
    (exact_u32.pair (exact_u32.pair exact_u64))))))) fun _ => rfl

theorem RequestVote.layout_exact : RequestVote.layout.Exact :=
  Exact.record (exact_u64.pair (exact_u64.pair (exact_u64.pair exact_u64))) fun _ => rfl

theorem RequestVoteResp.layout_exact : RequestVoteResp.layout.Exact :=
  Exact.record (exact_u64.pair (exact_u8.pair (exact_array 7))) fun _ => rfl

theorem AppendEntries.layout_exact : AppendEntries.layout.Exact :=
  Exact.record (exact_u64.pair (exact_u64.pair (exact_u64.pair (exact_u64.pair (exact_u64.pair
    (exact_u32.pair exact_u32)))))) fun _ => rfl

theorem EntryHeader.layout_exact : EntryHeader.layout.Exact :=
  Exact.record (exact_u64.pair (exact_u64.pair (exact_u32.pair exact_u32))) fun _ => rfl

theorem AppendEntriesResp.layout_exact : AppendEntriesResp.layout.Exact :=
  Exact.record (exact_u64.pair (exact_u64.pair (exact_u8.pair (exact_array 7)))) fun _ => rfl

theorem InstallSnapshot.layout_exact : InstallSnapshot.layout.Exact :=
  Exact.record (exact_u64.pair (exact_u64.pair (exact_u64.pair (exact_u64.pair (exact_u64.pair
    (exact_u32.pair (exact_u8.pair (exact_array 3)))))))) fun _ => rfl

theorem InstallSnapshotResp.layout_exact : InstallSnapshotResp.layout.Exact :=
  Exact.record (exact_u64.pair (exact_u64.pair (exact_u8.pair (exact_array 7)))) fun _ => rfl

theorem TimeoutNow.layout_exact : TimeoutNow.layout.Exact :=
  Exact.record (exact_u64.pair exact_u64) fun _ => rfl

end Layouts

/-! ## The walks over attacker-controlled lengths -/

section Walks

variable {α : Type} {L : Layout α}

theorem parsePrefix_inv (hL : L.Exact) {buf rest : List UInt8} {what : String} {a : α}
    (h : parsePrefix L buf what = .ok (a, rest)) : buf = L.toBytes a ++ rest := by
  unfold parsePrefix at h
  cases hread : L.read buf with
  | none =>
    rw [hread] at h
    cases h
  | some r =>
    rw [hread] at h
    cases h
    exact hL.of_read hread

theorem parseWhole_inv (hL : L.Exact) {body : List UInt8} {what trailing : String} {a : α}
    (h : parseWhole L body what trailing = .ok a) : body = L.toBytes a := by
  unfold parseWhole at h
  cases hparse : parsePrefix L body what with
  | error e =>
    rw [hparse] at h
    cases h
  | ok r =>
    obtain ⟨wire, rest⟩ := r
    rw [hparse] at h
    have hsplit := parsePrefix_inv hL hparse
    cases rest with
    | nil =>
      cases h
      rw [hsplit, List.append_nil]
    | cons b bs => cases h

/-- A body that passes is the bytes of as many items as it states. -/
theorem validateAppendEntriesBody_inv {count : Nat} {body : List UInt8}
    (h : validateAppendEntriesBody count body = .ok ()) :
    ∃ items : List EntryItem, items.length = count ∧ (∀ item ∈ items, item.Sized) ∧
      body = items.flatMap EntryItem.bytes := by
  induction count generalizing body with
  | zero =>
    unfold validateAppendEntriesBody at h
    cases body with
    | nil => exact ⟨[], rfl, fun _ hmem => absurd hmem List.not_mem_nil, rfl⟩
    | cons b bs => cases h
  | succ count ih =>
    unfold validateAppendEntriesBody at h
    cases hparse : parsePrefix EntryHeader.layout body "append entry header" with
    | error e =>
      rw [hparse] at h
      cases h
    | ok r =>
      obtain ⟨header, rest⟩ := r
      rw [hparse] at h
      have hsplit := parsePrefix_inv EntryHeader.layout_exact hparse
      change (if rest.length < header.payloadLen.toNat then _ else _) = _ at h
      by_cases hshort : rest.length < header.payloadLen.toNat
      · rw [if_pos hshort] at h
        cases h
      · rw [if_neg hshort] at h
        obtain ⟨items, hlen, hsized, hrest⟩ := ih h
        have htake : (rest.take header.payloadLen.toNat).length = header.payloadLen.toNat :=
          List.length_take_of_le (by omega)
        refine ⟨(header, rest.take header.payloadLen.toNat) :: items, ?_, ?_, ?_⟩
        · rw [List.length_cons, hlen]
        · intro item hitem
          rcases List.mem_cons.mp hitem with rfl | hitem
          · exact htake.symm
          · exact hsized item hitem
        · rw [List.flatMap_cons, ← hrest, hsplit]
          change _ = EntryHeader.layout.toBytes header ++
            rest.take header.payloadLen.toNat ++ rest.drop header.payloadLen.toNat
          rw [List.append_assoc, List.take_append_drop]

/-- A block of whole headers. -/
theorem exists_headers {count : Nat} {block : List UInt8} (h : block.length = count * 24) :
    ∃ headers : List EntryHeader, headers.length = count ∧
      block = headers.flatMap EntryHeader.layout.toBytes := by
  induction count generalizing block with
  | zero =>
    rw [Nat.zero_mul] at h
    exact ⟨[], rfl, List.length_eq_zero_iff.mp h⟩
  | succ count ih =>
    have hfront : (block.take 24).length = 24 := List.length_take_of_le (by omega)
    have hback : (block.drop 24).length = count * 24 := by
      rw [List.length_drop]
      omega
    obtain ⟨headers, hlen, hrest⟩ := ih hback
    refine ⟨EntryHeader.layout.ofBytes (block.take 24) :: headers, ?_, ?_⟩
    · rw [List.length_cons, hlen]
    · rw [List.flatMap_cons, ← hrest, EntryHeader.layout_exact _ hfront, List.take_append_drop]

/-- A block cut into pieces of the sizes the headers state. -/
theorem exists_payloads {headers : List EntryHeader} {block : List UInt8}
    (h : block.length = (headers.map fun header => header.payloadLen.toNat).sum) :
    ∃ items : List EntryItem, items.map Prod.fst = headers ∧ (∀ item ∈ items, item.Sized) ∧
      block = items.flatMap Prod.snd := by
  induction headers generalizing block with
  | nil => exact ⟨[], rfl, fun _ hmem => absurd hmem List.not_mem_nil, List.length_eq_zero_iff.mp h⟩
  | cons header headers ih =>
    rw [List.map_cons, List.sum_cons] at h
    have htake : (block.take header.payloadLen.toNat).length = header.payloadLen.toNat :=
      List.length_take_of_le (by omega)
    have hdrop : (block.drop header.payloadLen.toNat).length =
        (headers.map fun header => header.payloadLen.toNat).sum := by
      rw [List.length_drop]
      omega
    obtain ⟨items, hheaders, hsized, hrest⟩ := ih hdrop
    refine ⟨(header, block.take header.payloadLen.toNat) :: items, ?_, ?_, ?_⟩
    · rw [List.map_cons, hheaders]
    · intro item hitem
      rcases List.mem_cons.mp hitem with rfl | hitem
      · exact htake.symm
      · exact hsized item hitem
    · rw [List.flatMap_cons, ← hrest, List.take_append_drop]

/-- What the headers of a block state, added up. -/
theorem expectedLen_eq (headers : List EntryHeader) :
    (List.range headers.length).foldl (fun len i =>
        len + (headerAt (headers.flatMap EntryHeader.layout.toBytes) i).payloadLen.toNat) 0 =
      (headers.map fun header => header.payloadLen.toNat).sum := by
  -- Any payloads of the stated sizes will do.
  let fill : EntryHeader → EntryItem := fun header =>
    (header, List.replicate header.payloadLen.toNat 0)
  have hsized : ∀ item ∈ headers.map fill, item.Sized := by
    intro item hitem
    obtain ⟨header, -, rfl⟩ := List.mem_map.mp hitem
    exact (List.length_replicate ..).symm
  have hsum := headersExpectedLen hsized
  rw [List.length_map, List.flatMap_map, List.flatMap_map, List.length_flatMap] at hsum
  refine hsum.trans ?_
  congr 2
  funext header
  exact List.length_replicate ..

/-- Blocks that pass are the headers and the payloads of as many items as stated. -/
theorem validateSeededPayloads_inv {count : Nat} {headers payloads : List UInt8}
    (hlen : headers.length = count * 24)
    (h : validateSeededPayloads headers payloads count = .ok ()) :
    ∃ items : List EntryItem, items.length = count ∧ (∀ item ∈ items, item.Sized) ∧
      headers = items.flatMap EntryItem.header ∧ payloads = items.flatMap Prod.snd := by
  obtain ⟨hs, rfl, rfl⟩ := exists_headers hlen
  unfold validateSeededPayloads at h
  dsimp only at h
  rw [expectedLen_eq] at h
  by_cases hsum : (hs.map fun header => header.payloadLen.toNat).sum = payloads.length
  · obtain ⟨items, rfl, hsized, rfl⟩ := exists_payloads hsum.symm
    refine ⟨items, (List.length_map _).symm, hsized, ?_, rfl⟩
    rw [List.flatMap_map]
    rfl
  · rw [if_pos hsum] at h
    cases h

end Walks

/-! ## The decoder -/

/-- The message is the only one with these bytes behind a header of this kind. -/
structure BodyOf (kind : UInt8) (body : List UInt8) (msg : RaftMessage) : Prop where
  kind_eq : kindOf msg = kind
  body_eq : bodyBytes msg = body
  consistent : msg.Consistent
  headers_eq : headersNeeded msg = 32

variable {body : List UInt8} {msg : RaftMessage}

theorem bodyOf_whole {α : Type} {L : Layout α} (hL : L.Exact) (mk : α → RaftMessage)
    {what trailing : String} {kind : UInt8}
    (hmk : ∀ a, kindOf (mk a) = kind ∧ bodyBytes (mk a) = L.toBytes a ∧ (mk a).Consistent ∧
      headersNeeded (mk a) = 32) (h : mk <$> parseWhole L body what trailing = .ok msg) :
    BodyOf kind body msg := by
  cases hparse : parseWhole L body what trailing with
  | error e =>
    rw [hparse] at h
    cases h
  | ok a =>
    rw [hparse] at h
    cases h
    obtain ⟨hkind, hbody, hconsistent, hheaders⟩ := hmk a
    exact ⟨hkind, hbody.trans (parseWhole_inv hL hparse).symm, hconsistent, hheaders⟩

theorem bodyOf_seeded (h : decodeSeeded body = .ok msg) :
    BodyOf kindAppendEntriesSeeded body msg := by
  unfold decodeSeeded at h
  cases hparse : parsePrefix AppendEntries.layout body "append entries seeded body" with
  | error e =>
    rw [hparse] at h
    cases h
  | ok r =>
    obtain ⟨ae, rest⟩ := r
    rw [hparse] at h
    have hsplit := parsePrefix_inv AppendEntries.layout_exact hparse
    change (if rest.length < ae.entryCount.toNat * 24 then _ else _) = _ at h
    by_cases hshort : rest.length < ae.entryCount.toNat * 24
    · rw [if_pos hshort] at h
      cases h
    · rw [if_neg hshort] at h
      change (validateSeededPayloads (rest.take (ae.entryCount.toNat * 24))
        (rest.drop (ae.entryCount.toNat * 24)) ae.entryCount.toNat >>= fun _ =>
          Except.ok (RaftMessage.appendEntriesSeeded ae
            (rest.take (ae.entryCount.toNat * 24))
            (rest.drop (ae.entryCount.toNat * 24)))) = _ at h
      cases hvalid : validateSeededPayloads (rest.take (ae.entryCount.toNat * 24))
          (rest.drop (ae.entryCount.toNat * 24)) ae.entryCount.toNat with
      | error e =>
        rw [hvalid] at h
        cases h
      | ok u =>
        rw [hvalid] at h
        cases h
        refine ⟨rfl, ?_, ?_, rfl⟩
        · rw [bodyBytes, List.append_assoc, List.take_append_drop, hsplit]
        · exact validateSeededPayloads_inv (List.length_take_of_le (by omega)) hvalid

theorem bodyOf_appendEntries (h : (do
      let (wire, rest) ← parsePrefix AppendEntries.layout body "append entries body"
      validateAppendEntriesBody wire.entryCount.toNat rest
      return .appendEntries wire rest : Except RaftError RaftMessage) = .ok msg) :
    BodyOf kindAppendEntries body msg := by
  cases hparse : parsePrefix AppendEntries.layout body "append entries body" with
  | error e =>
    rw [hparse] at h
    cases h
  | ok r =>
    obtain ⟨wire, rest⟩ := r
    rw [hparse] at h
    have hsplit := parsePrefix_inv AppendEntries.layout_exact hparse
    change (validateAppendEntriesBody wire.entryCount.toNat rest >>= fun _ =>
      Except.ok (RaftMessage.appendEntries wire rest)) = _ at h
    cases hvalid : validateAppendEntriesBody wire.entryCount.toNat rest with
    | error e =>
      rw [hvalid] at h
      cases h
    | ok u =>
      rw [hvalid] at h
      cases h
      exact ⟨rfl, hsplit.symm, validateAppendEntriesBody_inv hvalid, rfl⟩

theorem bodyOf_installSnapshot (h : (do
      let (wire, rest) ← parsePrefix InstallSnapshot.layout body "install snapshot body"
      if rest.length ≠ wire.chunkLen.toNat then
        throw (.protocol "install snapshot chunk length mismatch")
      return .installSnapshot wire rest : Except RaftError RaftMessage) = .ok msg) :
    BodyOf kindInstallSnapshot body msg := by
  cases hparse : parsePrefix InstallSnapshot.layout body "install snapshot body" with
  | error e =>
    rw [hparse] at h
    cases h
  | ok r =>
    obtain ⟨wire, rest⟩ := r
    rw [hparse] at h
    have hsplit := parsePrefix_inv InstallSnapshot.layout_exact hparse
    change (if rest.length ≠ wire.chunkLen.toNat then _ else _) = _ at h
    by_cases hlen : rest.length = wire.chunkLen.toNat
    · rw [if_neg (not_not.mpr hlen)] at h
      cases h
      exact ⟨rfl, hsplit.symm, hlen.symm, rfl⟩
    · rw [if_pos hlen] at h
      cases h

/-- Whatever the kind, the body is that of the message. -/
theorem decodeBody_inv {kind : UInt8} (h : decodeBody kind body = .ok msg) :
    BodyOf kind body msg := by
  unfold decodeBody at h
  by_cases h1 : kind = kindRequestVote
  · rw [if_pos h1] at h
    subst h1
    exact bodyOf_whole RequestVote.layout_exact .requestVote
      (fun _ => ⟨rfl, rfl, trivial, rfl⟩) h
  rw [if_neg h1] at h
  by_cases h2 : kind = kindRequestVoteResp
  · rw [if_pos h2] at h
    subst h2
    exact bodyOf_whole RequestVoteResp.layout_exact .requestVoteResp
      (fun _ => ⟨rfl, rfl, trivial, rfl⟩) h
  rw [if_neg h2] at h
  by_cases h3 : kind = kindPreVote
  · rw [if_pos h3] at h
    subst h3
    exact bodyOf_whole RequestVote.layout_exact .preVote
      (fun _ => ⟨rfl, rfl, trivial, rfl⟩) h
  rw [if_neg h3] at h
  by_cases h4 : kind = kindPreVoteResp
  · rw [if_pos h4] at h
    subst h4
    exact bodyOf_whole RequestVoteResp.layout_exact .preVoteResp
      (fun _ => ⟨rfl, rfl, trivial, rfl⟩) h
  rw [if_neg h4] at h
  by_cases h5 : kind = kindAppendEntries
  · rw [if_pos h5] at h
    subst h5
    exact bodyOf_appendEntries h
  rw [if_neg h5] at h
  by_cases h6 : kind = kindAppendEntriesResp
  · rw [if_pos h6] at h
    subst h6
    exact bodyOf_whole AppendEntriesResp.layout_exact .appendEntriesResp
      (fun _ => ⟨rfl, rfl, trivial, rfl⟩) h
  rw [if_neg h6] at h
  by_cases h7 : kind = kindAppendEntriesSeeded
  · rw [if_pos h7] at h
    subst h7
    exact bodyOf_seeded h
  rw [if_neg h7] at h
  by_cases h8 : kind = kindInstallSnapshot
  · rw [if_pos h8] at h
    subst h8
    exact bodyOf_installSnapshot h
  rw [if_neg h8] at h
  by_cases h9 : kind = kindInstallSnapshotResp
  · rw [if_pos h9] at h
    subst h9
    exact bodyOf_whole InstallSnapshotResp.layout_exact .installSnapshotResp
      (fun _ => ⟨rfl, rfl, trivial, rfl⟩) h
  rw [if_neg h9] at h
  by_cases h10 : kind = kindTimeoutNow
  · rw [if_pos h10] at h
    subst h10
    exact bodyOf_whole TimeoutNow.layout_exact .timeoutNow
      (fun _ => ⟨rfl, rfl, trivial, rfl⟩) h
  rw [if_neg h10] at h
  by_cases h11 : kind = kindCustom
  · rw [if_pos h11] at h
    subst h11
    cases h
    exact ⟨rfl, rfl, trivial, rfl⟩
  rw [if_neg h11] at h
  by_cases h12 : kind = kindCustomResponse
  · rw [if_pos h12] at h
    subst h12
    cases h
    exact ⟨rfl, rfl, trivial, rfl⟩
  · rw [if_neg h12] at h
    cases h

/-- The header of an accepted frame. -/
structure HeaderOf (header : RaftFrameHeader) (inbound : InboundRaftMessage) : Prop where
  magic : header.magic = raftMagic
  version : header.version = raftVersion
  sender : header.sender = inbound.sender
  groupId : header.groupId = inbound.groupId
  bodyLen : header.bodyLen.toNat = (bodyBytes inbound.message).length

theorem decodeMessage_inv {frame : List UInt8} {inbound : InboundRaftMessage}
    (h : decodeMessage frame = .ok inbound) :
    ∃ header : RaftFrameHeader,
      frame = RaftFrameHeader.layout.toBytes header ++ bodyBytes inbound.message ∧
        HeaderOf header inbound ∧
        BodyOf header.kind (bodyBytes inbound.message) inbound.message := by
  unfold decodeMessage at h
  cases hparse : parsePrefix RaftFrameHeader.layout frame "raft frame header" with
  | error e =>
    rw [hparse] at h
    cases h
  | ok r =>
    obtain ⟨header, rest⟩ := r
    rw [hparse] at h
    have hsplit := parsePrefix_inv RaftFrameHeader.layout_exact hparse
    change (if header.magic ≠ raftMagic then _ else _) = _ at h
    by_cases hmagic : header.magic = raftMagic
    · rw [if_neg (not_not.mpr hmagic)] at h
      change (if header.version ≠ raftVersion then _ else _) = _ at h
      by_cases hversion : header.version = raftVersion
      · rw [if_neg (not_not.mpr hversion)] at h
        change (if rest.length ≠ header.bodyLen.toNat then _ else _) = _ at h
        by_cases hlen : rest.length = header.bodyLen.toNat
        · rw [if_neg (not_not.mpr hlen)] at h
          change (decodeBody header.kind rest >>= fun message =>
            Except.ok (InboundRaftMessage.mk header.sender header.groupId message)) = _ at h
          cases hbody : decodeBody header.kind rest with
          | error e =>
            rw [hbody] at h
            cases h
          | ok msg =>
            rw [hbody] at h
            cases h
            have hof := decodeBody_inv hbody
            obtain rfl := hof.body_eq
            exact ⟨header, hsplit, ⟨hmagic, hversion, rfl, rfl, hlen.symm⟩, hof⟩
        · rw [if_pos hlen] at h
          cases h
      · rw [if_pos hversion] at h
        cases h
    · rw [if_pos hmagic] at h
      cases h

/-- A header before a body of another length than it states. -/
theorem decodeMessage_mismatch {header : RaftFrameHeader} (h : body.length ≠ header.bodyLen.toNat) :
    ∃ e, decodeMessage (RaftFrameHeader.layout.toBytes header ++ body) = .error e := by
  unfold decodeMessage
  rw [parsePrefix_append]
  change ∃ e, (if header.magic ≠ raftMagic then _ else _) = _
  by_cases hmagic : header.magic = raftMagic
  · rw [if_neg (not_not.mpr hmagic)]
    by_cases hversion : header.version = raftVersion
    · rw [if_neg (not_not.mpr hversion)]
      change ∃ e, (if body.length ≠ header.bodyLen.toNat then _ else _) = _
      rw [if_pos h]
      exact ⟨_, rfl⟩
    · rw [if_pos hversion]
      exact ⟨_, rfl⟩
  · rw [if_pos hmagic]
    exact ⟨_, rfl⟩

theorem decodeMessage_short {frame : List UInt8} (h : frame.length < 32) :
    ∃ e, decodeMessage frame = .error e := by
  have hread : RaftFrameHeader.layout.read frame = none := if_pos h
  refine ⟨.protocol "short raft frame header", ?_⟩
  unfold decodeMessage parsePrefix
  rw [hread]
  rfl

/-- A byte string is read as this message and as nothing more or less. -/
structure ReadExactly (frame : List UInt8) (inbound : InboundRaftMessage) : Prop where
  /-- Encoded again it is the same, with the two ignored fields cleared. -/
  reencoded : ∃ header body, frame = RaftFrameHeader.layout.toBytes header ++ body ∧
    (∀ headerBuf : List UInt8, 32 ≤ headerBuf.length →
      ∃ v, encodeMessageVectoredWithGroup inbound.sender inbound.groupId inbound.message
          headerBuf = .ok v ∧
        v.frame =
          RaftFrameHeader.layout.toBytes { header with flags := 0, reserved := 0 } ++ body) ∧
    (inbound.groupId = 0 → ∀ uninit,
      encodeMessageToBytes uninit inbound.sender inbound.message =
        .ok (RaftFrameHeader.layout.toBytes { header with flags := 0, reserved := 0 } ++ body))
  /-- The entries partition the body. -/
  entries : ∀ m p, inbound.message = .appendEntries m p →
    ∃ items : List EntryItem, items.length = m.entryCount.toNat ∧
      (∀ item ∈ items, item.Sized) ∧ p = items.flatMap EntryItem.bytes ∧
      Yields AppendEntriesEntryIter.next ⟨p, m.entryCount.toNat⟩ (items.map EntryItem.entry)
  /-- The pairs partition the two blocks. -/
  pairs : ∀ ae headers payloads, inbound.message = .appendEntriesSeeded ae headers payloads →
    ∃ items : List EntryItem, items.length = ae.entryCount.toNat ∧
      (∀ item ∈ items, item.Sized) ∧ headers = items.flatMap EntryItem.header ∧
      payloads = items.flatMap Prod.snd ∧
      Yields AppendEntriesRawIter.next (.new headers (.contiguous payloads)) items
  shorter : ∀ front tail, frame = front ++ tail → tail ≠ [] →
    ∃ e, decodeMessage front = .error e
  longer : ∀ tail, tail ≠ [] → ∃ e, decodeMessage (frame ++ tail) = .error e

/-- **Decoding is exact.** -/
theorem decodeMessage_exact {frame : List UInt8} {inbound : InboundRaftMessage}
    (h : decodeMessage frame = .ok inbound) : ReadExactly frame inbound := by
  obtain ⟨header, hframe, hheader, hbody⟩ := decodeMessage_inv h
  have hlen : header.bodyLen.toNat = bodyTotalLen inbound.message := by
    rw [hheader.bodyLen, length_bodyBytes]
  have hfits : bodyTotalLen inbound.message < 2 ^ 32 := hlen ▸ header.bodyLen.toNat_lt
  have hwf : inbound.message.WellFormed := ⟨hbody.consistent, hfits⟩
  have hsame : frameBytes inbound.sender inbound.groupId inbound.message =
      RaftFrameHeader.layout.toBytes { header with flags := 0, reserved := 0 } ++
        bodyBytes inbound.message := by
    unfold frameBytes frameHeader
    rw [hbody.kind_eq, ← hheader.sender, ← hheader.groupId, ← hheader.magic, ← hheader.version,
      ← hlen, UInt32.ofNat_toNat]
  refine ⟨⟨header, bodyBytes inbound.message, hframe, ?_, ?_⟩, ?_, ?_, ?_, ?_⟩
  · intro headerBuf hroom
    rw [← hbody.headers_eq] at hroom
    obtain ⟨v, hv, hgather⟩ := encodeMessageVectoredWithGroup_eq hwf inbound.sender
      inbound.groupId hroom
    exact ⟨v, hv, hgather.trans hsame⟩
  · intro hgroup uninit
    rw [encodeMessageToBytes_eq hfits, ← hsame, hgroup]
  · intro m p hmsg
    have hconsistent := hbody.consistent
    rw [hmsg] at hconsistent
    obtain ⟨items, hcount, hsized, hp⟩ := hconsistent
    have hyields := entryIter_yields hsized
    rw [hcount, ← hp] at hyields
    exact ⟨items, hcount, hsized, hp, hyields⟩
  · intro ae headers payloads hmsg
    have hconsistent := hbody.consistent
    rw [hmsg] at hconsistent
    obtain ⟨items, hcount, hsized, rfl, rfl⟩ := hconsistent
    exact ⟨items, hcount, hsized, rfl, rfl, rawIter_contiguous_yields items [] hsized⟩
  · intro front tail hsplit htail
    by_cases hshort : front.length < 32
    · exact decodeMessage_short hshort
    · -- The header is whole, so the body lacks the bytes of the tail.
      have htailPos := List.length_pos_iff.mpr htail
      have hhead : (RaftFrameHeader.layout.toBytes header).length = 32 :=
        RaftFrameHeader.layout.length_toBytes header
      have hfront : front = RaftFrameHeader.layout.toBytes header ++ front.drop 32 := by
        have htake : front.take 32 = RaftFrameHeader.layout.toBytes header := by
          have hcut := congrArg (List.take 32) (hframe.symm.trans hsplit)
          rw [List.take_left' hhead, List.take_append_of_le_length (by omega)] at hcut
          exact hcut.symm
        rw [← htake, List.take_append_drop]
      have htotal := congrArg List.length (hframe.symm.trans hsplit)
      rw [List.length_append, List.length_append, hhead] at htotal
      rw [hfront]
      refine decodeMessage_mismatch ?_
      rw [List.length_drop, hheader.bodyLen]
      omega
  · intro tail htail
    have htailPos := List.length_pos_iff.mpr htail
    rw [hframe, List.append_assoc]
    refine decodeMessage_mismatch ?_
    rw [List.length_append, hheader.bodyLen]
    omega

def flaggedEntries : List UInt8 :=
  [((⟨4, 1, 1, 0⟩, [7]) : EntryItem), (⟨4, 2, 2, 0⟩, [8, 9])].flatMap EntryItem.bytes

/-- A frame with two entries, whose header carries flags the encoders never set. -/
def flaggedFrame : List UInt8 :=
  RaftFrameHeader.layout.toBytes ⟨raftMagic, raftVersion, kindAppendEntries, 5, 3, 99, 9, 7⟩ ++
    (AppendEntries.layout.toBytes ⟨4, 3, 0, 0, 0, 2, 0⟩ ++ flaggedEntries)

theorem decodeMessage_exact_flagged :
    decodeMessage flaggedFrame = .ok ⟨3, 7, .appendEntries ⟨4, 3, 0, 0, 0, 2, 0⟩ flaggedEntries⟩ ∧
      ReadExactly flaggedFrame ⟨3, 7, .appendEntries ⟨4, 3, 0, 0, 0, 2, 0⟩ flaggedEntries⟩ := by
  have h : decodeMessage flaggedFrame =
      .ok ⟨3, 7, .appendEntries ⟨4, 3, 0, 0, 0, 2, 0⟩ flaggedEntries⟩ := by decide +kernel
  exact ⟨h, decodeMessage_exact h⟩

end ArbitroRaft.Wire
