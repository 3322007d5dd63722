import ArbitroRaft.Wire.Decode
import ArbitroRaft.Wire.Encode

/-!
# Round trip

Both encoders put the same frame on the wire (`frameBytes`), the decoder reads
it back, and the iterators recover the entries.

## Main results

* `encode_decode_roundTrip`: this, for every well-formed message.
-/

namespace ArbitroRaft.Wire

open Library

/-! ## What a frame is -/

/-- An entry as it travels: its header and its payload. -/
abbrev EntryItem := EntryHeader × List UInt8

namespace EntryItem

def Sized (item : EntryItem) : Prop := item.1.payloadLen.toNat = item.2.length

def header (item : EntryItem) : List UInt8 := EntryHeader.layout.toBytes item.1

def bytes (item : EntryItem) : List UInt8 := item.header ++ item.2

def entry (item : EntryItem) : LogEntry :=
  { term := item.1.term, index := item.1.index, payload := item.2 }

@[simp] theorem length_header (item : EntryItem) : item.header.length = 24 :=
  EntryHeader.layout.length_toBytes item.1

end EntryItem

/-- The item an encoder makes of an entry. -/
def LogEntry.item (e : LogEntry) : EntryItem :=
  (entryHeader e (UInt32.ofNat e.payload.length), e.payload)

/-- The body behind the frame header. -/
def bodyBytes : RaftMessage → List UInt8
  | .requestVote m | .preVote m => RequestVote.layout.toBytes m
  | .requestVoteResp m | .preVoteResp m => RequestVoteResp.layout.toBytes m
  | .appendEntries m p => AppendEntries.layout.toBytes m ++ p
  | .appendEntriesVectored m entries =>
    AppendEntries.layout.toBytes m ++ entries.flatMap (fun e => e.item.bytes)
  | .appendEntriesSeeded ae headers payloads =>
    AppendEntries.layout.toBytes ae ++ headers ++ payloads
  | .appendEntriesSeededVectored ae headers payloads =>
    AppendEntries.layout.toBytes ae ++ headers ++ payloads.flatten
  | .appendEntriesResp m => AppendEntriesResp.layout.toBytes m
  | .installSnapshot m p => InstallSnapshot.layout.toBytes m ++ p
  | .installSnapshotResp m => InstallSnapshotResp.layout.toBytes m
  | .timeoutNow m => TimeoutNow.layout.toBytes m
  | .custom p | .customResponse p => p

/-- The whole frame. -/
def frameBytes (sender groupId : UInt64) (msg : RaftMessage) : List UInt8 :=
  RaftFrameHeader.layout.toBytes
    (frameHeader sender groupId (kindOf msg) (UInt32.ofNat (bodyTotalLen msg))) ++ bodyBytes msg

variable {α : Type} {m : AppendEntries} {msg : RaftMessage} {headerBuf : List UInt8}
  {items : List EntryItem}

theorem foldl_add_eq_sum (f : α → Nat) (l : List α) (start : Nat) :
    l.foldl (fun len a => len + f a) start = start + (l.map f).sum := by
  induction l generalizing start with
  | nil => simp
  | cons a l ih => rw [List.foldl_cons, ih, List.map_cons, List.sum_cons, Nat.add_assoc]

theorem length_bodyBytes (msg : RaftMessage) : (bodyBytes msg).length = bodyTotalLen msg := by
  cases msg with
  | appendEntriesVectored m entries =>
    simp only [bodyBytes, bodyTotalLen, foldl_add_eq_sum, List.length_append,
      List.length_flatMap, AppendEntries.layout.length_toBytes]
    congr 3
    funext e
    simp [EntryItem.bytes, LogEntry.item]
  | appendEntriesSeededVectored ae headers payloads =>
    simp only [bodyBytes, bodyTotalLen, foldl_add_eq_sum, List.length_append,
      List.length_flatten]
  | _ => simp [bodyBytes, bodyTotalLen, Nat.add_assoc]

/-! ## Well-formed messages -/

/-- The lengths and counts a message states are those of what it carries. -/
def RaftMessage.Consistent : RaftMessage → Prop
  | .appendEntries m p =>
    ∃ items : List EntryItem, items.length = m.entryCount.toNat ∧
      (∀ item ∈ items, item.Sized) ∧ p = items.flatMap EntryItem.bytes
  | .appendEntriesVectored m entries => entries.length = m.entryCount.toNat
  | .appendEntriesSeeded ae headers payloads =>
    ∃ items : List EntryItem, items.length = ae.entryCount.toNat ∧
      (∀ item ∈ items, item.Sized) ∧ headers = items.flatMap EntryItem.header ∧
      payloads = items.flatMap Prod.snd
  | .appendEntriesSeededVectored ae headers payloads =>
    ∃ items : List EntryItem, items.length = ae.entryCount.toNat ∧
      (∀ item ∈ items, item.Sized) ∧ headers = items.flatMap EntryItem.header ∧
      payloads = items.map Prod.snd
  | .installSnapshot m p => m.chunkLen.toNat = p.length
  | _ => True

structure RaftMessage.WellFormed (msg : RaftMessage) : Prop where
  consistent : msg.Consistent
  fits : bodyTotalLen msg < 2 ^ 32

/-! ## The contiguous encoder -/

theorem wireLenU32_ok {len : Nat} (h : len < 2 ^ 32) (what : String) :
    wireLenU32 len what = .ok (UInt32.ofNat len) :=
  if_pos h

/-- A computation that appends `bytes` wherever they fit. -/
def Writes (f : Cursor → Except RaftError Cursor) (bytes : List UInt8) : Prop :=
  ∀ c : Cursor, c.offset + bytes.length ≤ c.buf.length →
    ∃ c', f c = .ok c' ∧ c.Wrote bytes c'

namespace Writes

theorem andThen {f g : Cursor → Except RaftError Cursor} {bytes bytes' : List UInt8}
    (hf : Writes f bytes) (hg : Writes g bytes') :
    Writes (fun c => f c >>= g) (bytes ++ bytes') := by
  intro c hroom
  rw [List.length_append] at hroom
  obtain ⟨c', hc', hw⟩ := hf c (by omega)
  obtain ⟨c'', hc'', hw'⟩ := hg c' (by rw [hw.offset_eq, hw.length_eq]; omega)
  refine ⟨c'', ?_, hw.trans hw'⟩
  show f c >>= g = .ok c''
  rw [hc']
  exact hc''

theorem nothing : Writes .ok [] :=
  fun c hroom => ⟨c, rfl, .refl hroom⟩

theorem copyFromSlice (bytes : List UInt8) :
    Writes (fun c => Wire.copyFromSlice c bytes) bytes := by
  intro c hroom
  obtain ⟨c', hput, hw⟩ := Cursor.put_wrote hroom
  exact ⟨c', by simp only [Wire.copyFromSlice, hput], hw⟩

theorem copyNonEmpty (bytes : List UInt8) : Writes (fun c => Wire.copyNonEmpty c bytes) bytes := by
  cases bytes with
  | nil => exact nothing
  | cons b bs => exact copyFromSlice (b :: bs)

theorem encodePayloads (payloads : List (List UInt8)) :
    Writes (fun c => Wire.encodePayloads c payloads) payloads.flatten := by
  induction payloads with
  | nil => exact nothing
  | cons p ps ih =>
    rw [List.flatten_cons]
    exact (copyNonEmpty p).andThen ih

theorem encodeEntries (entries : List LogEntry) (hlen : ∀ e ∈ entries, e.payload.length < 2 ^ 32) :
    Writes (fun c => Wire.encodeEntries c entries)
      (entries.flatMap (fun e => e.item.bytes)) := by
  induction entries with
  | nil => exact nothing
  | cons e es ih =>
    have hrest := ih fun e' he' => hlen e' (List.mem_cons_of_mem e he')
    have hsize := wireLenU32_ok (hlen e List.mem_cons_self) "entry payload length"
    intro c hroom
    show ∃ c', Wire.encodeEntries c (e :: es) = .ok c' ∧ c.Wrote _ c'
    rw [Wire.encodeEntries, hsize]
    rw [List.flatMap_cons, EntryItem.bytes, List.append_assoc] at hroom ⊢
    exact (copyFromSlice _).andThen ((copyNonEmpty e.payload).andThen hrest) c hroom

end Writes

theorem copyToEnd_wrote {c : Cursor} {bytes : List UInt8}
    (h : c.offset + bytes.length = c.buf.length) :
    ∃ c', copyToEnd c bytes = .ok c' ∧ c.Wrote bytes c' := by
  rw [copyToEnd, if_pos h.symm]
  exact Writes.copyFromSlice bytes c h.le

theorem payload_lt_of_fits {entries : List LogEntry}
    (h : bodyTotalLen (.appendEntriesVectored m entries) < 2 ^ 32) {e : LogEntry}
    (he : e ∈ entries) :
    e.payload.length < 2 ^ 32 := by
  simp only [bodyTotalLen, foldl_add_eq_sum] at h
  have hle : EntryHeader.layout.size + e.payload.length ≤
      (entries.map fun e => EntryHeader.layout.size + e.payload.length).sum :=
    List.single_le_sum (by simp) _ (List.mem_map_of_mem he)
  omega

/-- The body lands behind the header, in exactly the bytes left for it. -/
theorem encodeBody_wrote {c : Cursor} (hfits : bodyTotalLen msg < 2 ^ 32)
    (hroom : c.offset + (bodyBytes msg).length = c.buf.length) :
    ∃ c', encodeBody c msg = .ok c' ∧ c.Wrote (bodyBytes msg) c' := by
  cases msg with
  | requestVote m => exact copyToEnd_wrote hroom
  | requestVoteResp m => exact copyToEnd_wrote hroom
  | preVote m => exact copyToEnd_wrote hroom
  | preVoteResp m => exact copyToEnd_wrote hroom
  | appendEntriesResp m => exact copyToEnd_wrote hroom
  | installSnapshotResp m => exact copyToEnd_wrote hroom
  | timeoutNow m => exact copyToEnd_wrote hroom
  | appendEntries m p =>
    exact (Writes.copyFromSlice _).andThen (Writes.copyNonEmpty p) c hroom.le
  | installSnapshot m p =>
    exact (Writes.copyFromSlice _).andThen (Writes.copyNonEmpty p) c hroom.le
  | appendEntriesVectored m entries =>
    have hentries := Writes.encodeEntries entries fun e he => payload_lt_of_fits hfits he
    exact (Writes.copyFromSlice _).andThen hentries c hroom.le
  | appendEntriesSeeded ae headers payloads =>
    rw [bodyBytes, List.append_assoc] at hroom ⊢
    exact (Writes.copyFromSlice _).andThen
      ((Writes.copyNonEmpty headers).andThen (Writes.copyNonEmpty payloads)) c hroom.le
  | appendEntriesSeededVectored ae headers payloads =>
    rw [bodyBytes, List.append_assoc] at hroom ⊢
    exact (Writes.copyFromSlice _).andThen
      ((Writes.copyNonEmpty headers).andThen (Writes.encodePayloads payloads)) c hroom.le
  | custom p =>
    cases p with
    | nil => exact ⟨c, rfl, .refl hroom.le⟩
    | cons b bs => exact copyToEnd_wrote hroom
  | customResponse p =>
    cases p with
    | nil => exact ⟨c, rfl, .refl hroom.le⟩
    | cons b bs => exact copyToEnd_wrote hroom

/-- Every byte of the allocation is overwritten: the frame does not depend on
what it held. -/
theorem encodeMessageToBytes_eq (hfits : bodyTotalLen msg < 2 ^ 32) (uninit : Nat → UInt8)
    (sender : UInt64) : encodeMessageToBytes uninit sender msg = .ok (frameBytes sender 0 msg) := by
  let c : Cursor := ⟨(List.range (RaftFrameHeader.layout.size + bodyTotalLen msg)).map uninit, 0⟩
  let header :=
    RaftFrameHeader.layout.toBytes (frameHeader sender 0 (kindOf msg)
      (UInt32.ofNat (bodyTotalLen msg)))
  have hbuf : c.buf.length = header.length + (bodyBytes msg).length := by
    rw [length_bodyBytes, RaftFrameHeader.layout.length_toBytes]
    exact (List.length_map _).trans List.length_range
  have hroom : c.offset + header.length ≤ c.buf.length := by
    rw [hbuf, show c.offset = 0 from rfl]
    omega
  obtain ⟨c₁, hc₁, hw₁⟩ := Writes.copyFromSlice header c hroom
  have hroom₁ : c₁.offset + (bodyBytes msg).length = c₁.buf.length := by
    rw [hw₁.offset_eq, hw₁.length_eq, hbuf, show c.offset = 0 from rfl, Nat.zero_add]
  obtain ⟨c₂, hc₂, hw₂⟩ := encodeBody_wrote hfits hroom₁
  have hw := hw₁.trans hw₂
  have hfull : c₂.written = c₂.buf := by
    apply Cursor.written_of_full
    rw [hw.length_eq, hw.offset_eq, List.length_append, hbuf]
    exact Nat.le_add_left _ _
  have hframe : c₂.buf = frameBytes sender 0 msg := by
    rw [← hfull, hw.written_eq]
    exact List.nil_append _
  rw [encodeMessageToBytes, wireLenU32_ok hfits]
  show (copyFromSlice c header >>= fun c => encodeBody c msg >>= fun c => pure c.buf) = _
  have hc₁' : copyFromSlice c header = .ok c₁ := hc₁
  rw [hc₁']
  show (encodeBody c₁ msg >>= fun c => pure c.buf) = _
  rw [hc₂]
  exact congrArg _ hframe

theorem encodeMessageToBytes_long {e : RaftError}
    (h : wireLenU32 (bodyTotalLen msg) "frame body length" = .error e) (uninit : Nat → UInt8)
    (sender : UInt64) : encodeMessageToBytes uninit sender msg = .error e := by
  rw [encodeMessageToBytes, h]
  rfl

/-! ## The vectored encoder -/

/-- The slices pushed so far stand for `bytes`, and `room` header bytes are
free. -/
structure Vectored.Holds (v : Vectored) (bytes : List UInt8) (room : Nat) : Prop where
  gathers : v.headers.Gathers v.out bytes
  room_le : v.headers.offset + room ≤ v.headers.buf.length

namespace Vectored.Holds

variable {v : Vectored} {bytes : List UInt8} {room : Nat}

theorem start {headerBuf : List UInt8} (h : room ≤ headerBuf.length) :
    Vectored.Holds { headers := ⟨headerBuf, 0⟩, out := [] } [] room := by
  refine ⟨⟨fun s hs => absurd hs List.not_mem_nil, rfl⟩, ?_⟩
  rw [Nat.zero_add]
  exact h

theorem push (h : v.Holds bytes room) (p : List UInt8) : (v.push p).Holds (bytes ++ p) room :=
  ⟨h.gathers.payload p, h.room_le⟩

theorem pushNonEmpty (h : v.Holds bytes room) (p : List UInt8) :
    (v.pushNonEmpty p).Holds (bytes ++ p) room := by
  cases p with
  | nil =>
    rw [List.append_nil]
    exact h
  | cons b bs => exact h.push (b :: bs)

theorem pushPayloads (h : v.Holds bytes room) (payloads : List (List UInt8)) :
    (payloads.foldl Vectored.pushNonEmpty v).Holds (bytes ++ payloads.flatten) room := by
  induction payloads generalizing v bytes with
  | nil =>
    rw [List.flatten_nil, List.append_nil]
    exact h
  | cons p ps ih =>
    rw [List.flatten_cons, ← List.append_assoc]
    exact ih (h.pushNonEmpty p)

theorem pushHeader {chunk : List UInt8} (h : v.Holds bytes (chunk.length + room)) :
    ∃ v', v.pushHeader chunk = .ok v' ∧ v'.Holds (bytes ++ chunk) room := by
  have hroom := h.room_le
  obtain ⟨c, hc, hw⟩ := Writes.copyFromSlice chunk v.headers (by omega)
  refine ⟨⟨c, v.out ++ [.header v.headers.offset chunk.length]⟩, ?_, ?_, ?_⟩
  · have hcopy : copyFromSlice v.headers chunk = .ok c := hc
    rw [Vectored.pushHeader, hcopy]
    rfl
  · exact h.gathers.header (by omega) hw
  · show c.offset + room ≤ c.buf.length
    rw [hw.offset_eq, hw.length_eq]
    omega

theorem interleaveEntries {entries : List LogEntry}
    (hlen : ∀ e ∈ entries, e.payload.length < 2 ^ 32) (h : v.Holds bytes (entries.length * 24)) :
    ∃ v', Wire.interleaveEntries v entries = .ok v' ∧
      v'.Holds (bytes ++ entries.flatMap (fun e => e.item.bytes)) 0 := by
  induction entries generalizing v bytes with
  | nil =>
    rw [List.flatMap_nil, List.append_nil]
    exact ⟨v, rfl, by simpa using h⟩
  | cons e es ih =>
    have hsize := wireLenU32_ok (hlen e List.mem_cons_self) "entry payload length"
    have hroom : (e :: es).length * 24 = e.item.header.length + es.length * 24 := by
      rw [EntryItem.length_header, List.length_cons]
      omega
    rw [hroom] at h
    obtain ⟨v₁, hv₁, h₁⟩ := h.pushHeader
    obtain ⟨v₂, hv₂, h₂⟩ :=
      ih (fun e' he' => hlen e' (List.mem_cons_of_mem e he')) (h₁.pushNonEmpty e.payload)
    have hpush : v.pushHeader (EntryHeader.layout.toBytes
        (entryHeader e (UInt32.ofNat e.payload.length))) = .ok v₁ := hv₁
    refine ⟨v₂, ?_, ?_⟩
    · rw [Wire.interleaveEntries, hsize]
      show (v.pushHeader (EntryHeader.layout.toBytes
        (entryHeader e (UInt32.ofNat e.payload.length))) >>= fun v =>
          Wire.interleaveEntries (v.pushNonEmpty e.payload) es) = .ok v₂
      rw [hpush]
      exact hv₂
    · rw [List.flatMap_cons, EntryItem.bytes, ← List.append_assoc, ← List.append_assoc]
      exact h₂

/-- Behind the frame header come the slices of the body. -/
theorem pushBody (h : v.Holds bytes room) {msg : RaftMessage}
    (hmsg : ∀ m entries, msg ≠ .appendEntriesVectored m entries) :
    (Wire.pushBody v msg).Holds (bytes ++ bodyBytes msg) room := by
  cases msg with
  | appendEntriesVectored m entries => exact absurd rfl (hmsg m entries)
  | requestVote m => exact h.push _
  | requestVoteResp m => exact h.push _
  | preVote m => exact h.push _
  | preVoteResp m => exact h.push _
  | appendEntriesResp m => exact h.push _
  | installSnapshotResp m => exact h.push _
  | timeoutNow m => exact h.push _
  | appendEntries m p =>
    rw [bodyBytes, ← List.append_assoc]
    exact (h.push _).pushNonEmpty p
  | installSnapshot m p =>
    rw [bodyBytes, ← List.append_assoc]
    exact (h.push _).pushNonEmpty p
  | appendEntriesSeeded ae headers payloads =>
    rw [bodyBytes, ← List.append_assoc, ← List.append_assoc]
    exact ((h.push _).pushNonEmpty headers).pushNonEmpty payloads
  | appendEntriesSeededVectored ae headers payloads =>
    rw [bodyBytes, ← List.append_assoc, ← List.append_assoc]
    exact ((h.push _).pushNonEmpty headers).pushPayloads payloads
  | custom p => exact h.pushNonEmpty p
  | customResponse p => exact h.pushNonEmpty p

end Vectored.Holds

/-- Header bytes the vectored encoder needs. -/
def headersNeeded : RaftMessage → Nat
  | .appendEntriesVectored _ entries => 32 + 48 + entries.length * 24
  | _ => 32

/-- The batch encoder restates the count it was given. -/
theorem encodeAppendEntriesVectoredWithPad_eq {entries : List LogEntry}
    (hwf : (RaftMessage.appendEntriesVectored m entries).WellFormed) (sender groupId : UInt64)
    (hroom : headersNeeded (.appendEntriesVectored m entries) ≤ headerBuf.length) :
    ∃ v, encodeAppendEntriesVectoredWithPad sender groupId m entries headerBuf = .ok v ∧
      v.frame = frameBytes sender groupId (.appendEntriesVectored m entries) := by
  have hcount : entries.length = m.entryCount.toNat := hwf.consistent
  have hfits := hwf.fits
  have hbody : AppendEntries.layout.size +
      entries.foldl (fun len e => len + (EntryHeader.layout.size + e.payload.length)) 0 =
      bodyTotalLen (.appendEntriesVectored m entries) := by
    simp only [bodyTotalLen, foldl_add_eq_sum, Nat.zero_add]
  have hcount_ok : wireLenU32 entries.length "entry count" = .ok m.entryCount := by
    rw [hcount, wireLenU32_ok m.entryCount.toNat_lt, UInt32.ofNat_toNat]
  have hbuf : 80 + entries.length * 24 ≤ headerBuf.length := hroom
  let front :=
    RaftFrameHeader.layout.toBytes (frameHeader sender groupId kindAppendEntries
      (UInt32.ofNat (bodyTotalLen (.appendEntriesVectored m entries)))) ++
    AppendEntries.layout.toBytes m
  have hfront : front.length = 80 := by
    rw [List.length_append, RaftFrameHeader.layout.length_toBytes,
      AppendEntries.layout.length_toBytes]
    rfl
  have hstart : Vectored.Holds { headers := ⟨headerBuf, 0⟩, out := [] } []
      (front.length + entries.length * 24) := .start (by rw [hfront]; exact hbuf)
  obtain ⟨v₁, hv₁, h₁⟩ := hstart.pushHeader
  obtain ⟨v₂, hv₂, h₂⟩ :=
    h₁.interleaveEntries fun e he => payload_lt_of_fits hfits he
  refine ⟨v₂, ?_, ?_⟩
  · rw [encodeAppendEntriesVectoredWithPad, hbody, wireLenU32_ok hfits, hcount_ok]
    show (if headerBuf.length < 80 + entries.length * 24 then _ else _) = _
    rw [if_neg (by omega)]
    show ((⟨⟨headerBuf, 0⟩, []⟩ : Vectored).pushHeader front >>= fun v =>
      interleaveEntries v entries) = .ok v₂
    rw [hv₁]
    exact hv₂
  · rw [Vectored.frame, h₂.gathers.gather_eq, List.nil_append, frameBytes, bodyBytes,
      ← List.append_assoc]
    rfl

theorem encodePlainVectored_eq (hfits : bodyTotalLen msg < 2 ^ 32)
    (hmsg : ∀ m entries, msg ≠ .appendEntriesVectored m entries) (sender groupId : UInt64)
    (hroom : 32 ≤ headerBuf.length) :
    ∃ v, encodePlainVectored sender groupId msg headerBuf = .ok v ∧
      v.frame = frameBytes sender groupId msg := by
  let header :=
    RaftFrameHeader.layout.toBytes (frameHeader sender groupId (kindOf msg)
      (UInt32.ofNat (bodyTotalLen msg)))
  have hheader : header.length = 32 := RaftFrameHeader.layout.length_toBytes _
  have hstart : Vectored.Holds { headers := ⟨headerBuf, 0⟩, out := [] } []
      (header.length + 0) := .start (by rw [hheader]; exact hroom)
  obtain ⟨v, hv, h⟩ := hstart.pushHeader
  refine ⟨pushBody v msg, ?_, ?_⟩
  · rw [encodePlainVectored, wireLenU32_ok hfits]
    show (if headerBuf.length < 32 then _ else _) = _
    rw [if_neg (by omega)]
    show ((⟨⟨headerBuf, 0⟩, []⟩ : Vectored).pushHeader header >>= fun v =>
      pure (pushBody v msg)) = .ok (pushBody v msg)
    rw [hv]
    rfl
  · rw [Vectored.frame, (h.pushBody hmsg).gathers.gather_eq, List.nil_append, frameBytes]

theorem encodeMessageVectoredWithGroup_eq (hwf : msg.WellFormed) (sender groupId : UInt64)
    (hroom : headersNeeded msg ≤ headerBuf.length) :
    ∃ v, encodeMessageVectoredWithGroup sender groupId msg headerBuf = .ok v ∧
      v.frame = frameBytes sender groupId msg := by
  cases msg with
  | appendEntriesVectored m entries =>
    exact encodeAppendEntriesVectoredWithPad_eq hwf sender groupId hroom
  | _ => exact encodePlainVectored_eq hwf.fits (by simp) sender groupId hroom

/-! ## The decoder -/

theorem parsePrefix_append (L : Layout α) (a : α) (rest : List UInt8) (what : String) :
    parsePrefix L (L.toBytes a ++ rest) what = .ok (a, rest) := by
  rw [parsePrefix, L.read_toBytes_append]

theorem parseWhole_toBytes (L : Layout α) (a : α) (what trailing : String) :
    parseWhole L (L.toBytes a) what trailing = .ok a := by
  have h := parsePrefix_append L a [] what
  rw [List.append_nil] at h
  rw [parseWhole, h]
  rfl

theorem validateAppendEntriesBody_ok (hsized : ∀ item ∈ items, item.Sized) :
    validateAppendEntriesBody items.length (items.flatMap EntryItem.bytes) = .ok () := by
  induction items with
  | nil => rfl
  | cons item items ih =>
    have hsize : item.1.payloadLen.toNat = item.2.length := hsized item List.mem_cons_self
    have hrest := ih fun other h => hsized other (List.mem_cons_of_mem item h)
    rw [List.length_cons, validateAppendEntriesBody, List.flatMap_cons, EntryItem.bytes,
      List.append_assoc, EntryItem.header, parsePrefix_append]
    show (if (item.2 ++ items.flatMap EntryItem.bytes).length < item.1.payloadLen.toNat
      then _ else _) = _
    rw [if_neg (by rw [List.length_append]; omega), hsize]
    show validateAppendEntriesBody items.length
      ((item.2 ++ items.flatMap EntryItem.bytes).drop item.2.length) = .ok ()
    rw [List.drop_left' rfl]
    exact hrest

theorem length_flatMap_header (items : List EntryItem) :
    (items.flatMap EntryItem.header).length = items.length * 24 := by
  rw [List.length_flatMap]
  simp

/-- The header behind `before` in a block of headers. -/
theorem headerAt_flatMap (before after : List EntryItem) (item : EntryItem) :
    headerAt ((before ++ item :: after).flatMap EntryItem.header) before.length = item.1 := by
  rw [headerAt, List.flatMap_append, List.drop_left' (length_flatMap_header before),
    List.flatMap_cons, List.take_left' item.length_header]
  exact EntryHeader.layout.ofBytes_toBytes item.1

theorem headersExpectedLen (hsized : ∀ item ∈ items, item.Sized) :
    (List.range items.length).foldl (fun len i =>
      len + (headerAt (items.flatMap EntryItem.header) i).payloadLen.toNat) 0 =
      (items.flatMap Prod.snd).length := by
  rw [foldl_add_eq_sum, Nat.zero_add, List.length_flatMap]
  congr 1
  apply List.ext_getElem
  · simp
  · intro i hi hi'
    have hlt : i < items.length := by simpa using hi
    have hsplit : items = items.take i ++ items[i] :: items.drop (i + 1) := by
      rw [List.cons_getElem_drop_succ, List.take_append_drop]
    have hat : headerAt (items.flatMap EntryItem.header) i = items[i].1 := by
      have h := headerAt_flatMap (items.take i) (items.drop (i + 1)) items[i]
      rwa [← hsplit, List.length_take, Nat.min_eq_left hlt.le] at h
    simp only [List.getElem_map, List.getElem_range, hat]
    exact hsized _ (List.getElem_mem hlt)

theorem validateSeededPayloads_ok (hsized : ∀ item ∈ items, item.Sized) :
    validateSeededPayloads (items.flatMap EntryItem.header) (items.flatMap Prod.snd)
      items.length = .ok () := by
  rw [validateSeededPayloads, headersExpectedLen hsized]
  exact if_neg (fun h => h rfl)

theorem decodeSeeded_ok {ae : AppendEntries} (hcount : items.length = ae.entryCount.toNat)
    (hsized : ∀ item ∈ items, item.Sized) :
    decodeSeeded (AppendEntries.layout.toBytes ae ++ items.flatMap EntryItem.header ++
      items.flatMap Prod.snd) =
      .ok (.appendEntriesSeeded ae (items.flatMap EntryItem.header)
        (items.flatMap Prod.snd)) := by
  have hlen := length_flatMap_header items
  rw [decodeSeeded, List.append_assoc, parsePrefix_append]
  show (if (items.flatMap EntryItem.header ++ items.flatMap Prod.snd).length <
    ae.entryCount.toNat * 24 then _ else _) = _
  rw [← hcount, if_neg (by rw [List.length_append]; omega)]
  show (validateSeededPayloads
    ((items.flatMap EntryItem.header ++ items.flatMap Prod.snd).take (items.length * 24))
    ((items.flatMap EntryItem.header ++ items.flatMap Prod.snd).drop (items.length * 24))
    items.length >>= fun _ => _) = _
  rw [List.take_left' hlen, List.drop_left' hlen, validateSeededPayloads_ok hsized]
  show Except.ok (RaftMessage.appendEntriesSeeded ae
    ((items.flatMap EntryItem.header ++ items.flatMap Prod.snd).take (items.length * 24))
    ((items.flatMap EntryItem.header ++ items.flatMap Prod.snd).drop (items.length * 24))) = _
  rw [List.take_left' hlen, List.drop_left' hlen]

/-- What the receiver gets: the outbound spellings arrive as contiguous bytes. -/
def RaftMessage.received : RaftMessage → RaftMessage
  | .appendEntriesVectored m entries =>
    .appendEntries m (entries.flatMap (fun e => e.item.bytes))
  | .appendEntriesSeededVectored ae headers payloads =>
    .appendEntriesSeeded ae headers payloads.flatten
  | msg => msg

theorem LogEntry.item_sized {e : LogEntry} (h : e.payload.length < 2 ^ 32) : e.item.Sized :=
  UInt32.toNat_ofNat_of_lt h

theorem decodeBody_appendEntries (hcount : items.length = m.entryCount.toNat)
    (hsized : ∀ item ∈ items, item.Sized) :
    decodeBody kindAppendEntries
      (AppendEntries.layout.toBytes m ++ items.flatMap EntryItem.bytes) =
      .ok (.appendEntries m (items.flatMap EntryItem.bytes)) := by
  show (parsePrefix AppendEntries.layout _ "append entries body" >>= fun r =>
    validateAppendEntriesBody r.1.entryCount.toNat r.2 >>= fun _ =>
      pure (RaftMessage.appendEntries r.1 r.2)) = _
  rw [parsePrefix_append]
  show (validateAppendEntriesBody m.entryCount.toNat (items.flatMap EntryItem.bytes) >>=
    fun _ => pure (RaftMessage.appendEntries m _)) = _
  rw [← hcount, validateAppendEntriesBody_ok hsized]
  rfl

theorem decodeBody_installSnapshot {m : InstallSnapshot} {p : List UInt8}
    (hlen : m.chunkLen.toNat = p.length) :
    decodeBody kindInstallSnapshot (InstallSnapshot.layout.toBytes m ++ p) =
      .ok (.installSnapshot m p) := by
  show (parsePrefix InstallSnapshot.layout _ "install snapshot body" >>= fun r =>
    if r.2.length ≠ r.1.chunkLen.toNat then _ else _) = _
  rw [parsePrefix_append]
  show (if p.length ≠ m.chunkLen.toNat then _ else _) = _
  rw [if_neg (fun h => h hlen.symm)]
  rfl

theorem decodeBody_bodyBytes (hwf : msg.WellFormed) :
    decodeBody (kindOf msg) (bodyBytes msg) = .ok msg.received := by
  have hconsistent := hwf.consistent
  cases msg with
  | requestVote m =>
    show RaftMessage.requestVote <$> parseWhole RequestVote.layout _ _ _ = _
    rw [bodyBytes, parseWhole_toBytes]
    rfl
  | requestVoteResp m =>
    show RaftMessage.requestVoteResp <$> parseWhole RequestVoteResp.layout _ _ _ = _
    rw [bodyBytes, parseWhole_toBytes]
    rfl
  | preVote m =>
    show RaftMessage.preVote <$> parseWhole RequestVote.layout _ _ _ = _
    rw [bodyBytes, parseWhole_toBytes]
    rfl
  | preVoteResp m =>
    show RaftMessage.preVoteResp <$> parseWhole RequestVoteResp.layout _ _ _ = _
    rw [bodyBytes, parseWhole_toBytes]
    rfl
  | appendEntriesResp m =>
    show RaftMessage.appendEntriesResp <$> parseWhole AppendEntriesResp.layout _ _ _ = _
    rw [bodyBytes, parseWhole_toBytes]
    rfl
  | installSnapshotResp m =>
    show RaftMessage.installSnapshotResp <$> parseWhole InstallSnapshotResp.layout _ _ _ = _
    rw [bodyBytes, parseWhole_toBytes]
    rfl
  | timeoutNow m =>
    show RaftMessage.timeoutNow <$> parseWhole TimeoutNow.layout _ _ _ = _
    rw [bodyBytes, parseWhole_toBytes]
    rfl
  | appendEntries m p =>
    obtain ⟨items, hcount, hsized, rfl⟩ := hconsistent
    exact decodeBody_appendEntries hcount hsized
  | appendEntriesVectored m entries =>
    have hitems : entries.flatMap (fun e => e.item.bytes) =
        (entries.map LogEntry.item).flatMap EntryItem.bytes := by
      rw [List.flatMap_map]
    rw [bodyBytes, RaftMessage.received, hitems]
    apply decodeBody_appendEntries
    · rw [List.length_map]
      exact hconsistent
    · intro item hitem
      obtain ⟨e, he, rfl⟩ := List.mem_map.mp hitem
      exact LogEntry.item_sized (payload_lt_of_fits hwf.fits he)
  | appendEntriesSeeded ae headers payloads =>
    obtain ⟨items, hcount, hsized, rfl, rfl⟩ := hconsistent
    exact decodeSeeded_ok hcount hsized
  | appendEntriesSeededVectored ae headers payloads =>
    obtain ⟨items, hcount, hsized, rfl, rfl⟩ := hconsistent
    rw [bodyBytes, RaftMessage.received, ← List.flatMap_def]
    exact decodeSeeded_ok hcount hsized
  | installSnapshot m p => exact decodeBody_installSnapshot hconsistent
  | custom p => rfl
  | customResponse p => rfl

theorem decodeMessage_frameBytes (hwf : msg.WellFormed) (sender groupId : UInt64) :
    decodeMessage (frameBytes sender groupId msg) =
      .ok { sender := sender, groupId := groupId, message := msg.received } := by
  have hlen : (UInt32.ofNat (bodyTotalLen msg)).toNat = (bodyBytes msg).length :=
    (UInt32.toNat_ofNat_of_lt hwf.fits).trans (length_bodyBytes msg).symm
  rw [decodeMessage, frameBytes, parsePrefix_append]
  show (if (bodyBytes msg).length ≠ (UInt32.ofNat (bodyTotalLen msg)).toNat
    then _ else _) = _
  rw [if_neg (fun h => h hlen.symm)]
  show (decodeBody (kindOf msg) (bodyBytes msg) >>= fun message => pure _) = _
  rw [decodeBody_bodyBytes hwf]
  rfl

/-! ## The iterators -/

theorem entryIter_yields (hsized : ∀ item ∈ items, item.Sized) :
    Yields AppendEntriesEntryIter.next ⟨items.flatMap EntryItem.bytes, items.length⟩
      (items.map EntryItem.entry) := by
  induction items with
  | nil => exact .done rfl
  | cons item items ih =>
    have hsize : item.1.payloadLen.toNat = item.2.length := hsized item List.mem_cons_self
    refine .item ?_ (ih fun other h => hsized other (List.mem_cons_of_mem item h))
    rw [AppendEntriesEntryIter.next, if_neg (by simp), List.flatMap_cons, EntryItem.bytes,
      List.append_assoc, EntryItem.header, EntryHeader.layout.read_toBytes_append]
    show (if (item.2 ++ items.flatMap EntryItem.bytes).length < item.1.payloadLen.toNat
      then _ else some (LogEntry.mk item.1.term item.1.index
        ((item.2 ++ items.flatMap EntryItem.bytes).take item.1.payloadLen.toNat),
      AppendEntriesEntryIter.mk
        ((item.2 ++ items.flatMap EntryItem.bytes).drop item.1.payloadLen.toNat)
        items.length)) = _
    rw [if_neg (by rw [List.length_append]; omega), hsize, List.take_left' rfl,
      List.drop_left' rfl]
    rfl

section RawIter

variable {items before after : List EntryItem} {item : EntryItem}

/-- The header block has room for the next header exactly when an item is left. -/
theorem rawIter_room (before after : List EntryItem) (item : EntryItem) :
    ¬ ((before ++ item :: after).flatMap EntryItem.header).length <
      before.length * 24 + 24 := by
  rw [length_flatMap_header, List.length_append, List.length_cons]
  omega

theorem rawIter_done (headers : List UInt8) (payloads : SeededPayloads) (offset : Nat)
    (h : headers.length = items.length * 24) :
    AppendEntriesRawIter.next ⟨headers, payloads, items.length, offset⟩ = none := by
  rw [AppendEntriesRawIter.next]
  exact if_pos (by show headers.length < items.length * 24 + 24; omega)

/-- Induction on the items ahead: the offset is the payload bytes behind. -/
theorem rawIter_contiguous_yields (after : List EntryItem) :
    ∀ before : List EntryItem, (∀ item ∈ before ++ after, item.Sized) →
      Yields AppendEntriesRawIter.next
        ⟨(before ++ after).flatMap EntryItem.header,
          .contiguous ((before ++ after).flatMap Prod.snd), before.length,
          (before.flatMap Prod.snd).length⟩ after := by
  induction after with
  | nil =>
    intro before _
    apply Yields.done
    rw [List.append_nil]
    exact rawIter_done _ _ _ (length_flatMap_header before)
  | cons item after ih =>
    intro before hsized
    have hsize : item.1.payloadLen.toNat = item.2.length := hsized item (by simp)
    have hrest := ih (before ++ [item]) (by simpa using hsized)
    have hoffset : ((before ++ [item]).flatMap Prod.snd).length =
        (before.flatMap Prod.snd).length + item.2.length := by simp
    rw [hoffset, List.append_assoc, List.singleton_append, List.length_append] at hrest
    refine .item ?_ hrest
    have hpayloads : (before ++ item :: after).flatMap Prod.snd =
        before.flatMap Prod.snd ++ (item.2 ++ after.flatMap Prod.snd) := by
      rw [List.flatMap_append, List.flatMap_cons]
    rw [AppendEntriesRawIter.next, if_neg (rawIter_room before after item)]
    simp only [headerAt_flatMap, hsize, hpayloads]
    rw [if_neg (by simp only [List.length_append]; omega), List.drop_left' rfl,
      List.take_left' rfl]
    simp

theorem rawIter_disjoint_yields (after : List EntryItem) :
    ∀ (before : List EntryItem) (offset : Nat),
      Yields AppendEntriesRawIter.next
        ⟨(before ++ after).flatMap EntryItem.header,
          .disjoint ((before ++ after).map Prod.snd), before.length, offset⟩ after := by
  induction after with
  | nil =>
    intro before offset
    apply Yields.done
    rw [List.append_nil]
    exact rawIter_done _ _ _ (length_flatMap_header before)
  | cons item after ih =>
    intro before offset
    have hrest := ih (before ++ [item]) offset
    rw [List.append_assoc, List.singleton_append, List.length_append] at hrest
    refine .item ?_ hrest
    have hat : ((before ++ item :: after).map Prod.snd)[before.length]? = some item.2 := by
      simp
    rw [AppendEntriesRawIter.next, if_neg (rawIter_room before after item)]
    simp only [headerAt_flatMap, hat]
    rfl

end RawIter

/-! ## The round trip -/

/-- The structure and the plain bytes of a message, entries aside. -/
inductive FixedPart where
  | requestVote (msg : RequestVote)
  | requestVoteResp (msg : RequestVoteResp)
  | preVote (msg : RequestVote)
  | preVoteResp (msg : RequestVoteResp)
  | appendEntries (msg : AppendEntries)
  | appendEntriesSeeded (msg : AppendEntries)
  | appendEntriesResp (msg : AppendEntriesResp)
  | installSnapshot (msg : InstallSnapshot) (payload : List UInt8)
  | installSnapshotResp (msg : InstallSnapshotResp)
  | timeoutNow (msg : TimeoutNow)
  | custom (payload : List UInt8)
  | customResponse (payload : List UInt8)
deriving DecidableEq, Repr

namespace RaftMessage

def fixedPart : RaftMessage → FixedPart
  | .requestVote m => .requestVote m
  | .requestVoteResp m => .requestVoteResp m
  | .preVote m => .preVote m
  | .preVoteResp m => .preVoteResp m
  | .appendEntries m _ | .appendEntriesVectored m _ => .appendEntries m
  | .appendEntriesSeeded ae _ _ | .appendEntriesSeededVectored ae _ _ => .appendEntriesSeeded ae
  | .appendEntriesResp m => .appendEntriesResp m
  | .installSnapshot m p => .installSnapshot m p
  | .installSnapshotResp m => .installSnapshotResp m
  | .timeoutNow m => .timeoutNow m
  | .custom p => .custom p
  | .customResponse p => .customResponse p

/-- The entries of a message, as its iterator hands them out. -/
def Carries : RaftMessage → List LogEntry → Prop
  | .appendEntries m p, entries =>
    Yields AppendEntriesEntryIter.next ⟨p, m.entryCount.toNat⟩ entries
  | .appendEntriesVectored _ es, entries => entries = es
  | .appendEntriesSeeded _ headers payloads, entries =>
    ∃ items, Yields AppendEntriesRawIter.next (.new headers (.contiguous payloads)) items ∧
      entries = items.map EntryItem.entry
  | .appendEntriesSeededVectored _ headers payloads, entries =>
    ∃ items, Yields AppendEntriesRawIter.next (.new headers (.disjoint payloads)) items ∧
      entries = items.map EntryItem.entry
  | _, entries => entries = []

/-- A message carries one sequence of entries. -/
theorem Carries.unique {msg : RaftMessage} {entries entries' : List LogEntry}
    (h : msg.Carries entries) (h' : msg.Carries entries') : entries = entries' := by
  cases msg with
  | appendEntries m p => exact Yields.unique h h'
  | appendEntriesSeeded ae headers payloads =>
    obtain ⟨items, hitems, rfl⟩ := h
    obtain ⟨items', hitems', rfl⟩ := h'
    rw [hitems.unique hitems']
  | appendEntriesSeededVectored ae headers payloads =>
    obtain ⟨items, hitems, rfl⟩ := h
    obtain ⟨items', hitems', rfl⟩ := h'
    rw [hitems.unique hitems']
  | _ => exact Eq.trans h (Eq.symm h')

/-- Both messages have the same fixed part and carry the same entries. -/
def SameAs (msg msg' : RaftMessage) : Prop :=
  msg.fixedPart = msg'.fixedPart ∧ ∃ entries, msg.Carries entries ∧ msg'.Carries entries

theorem received_sameAs {msg : RaftMessage} (hwf : msg.WellFormed) : msg.received.SameAs msg := by
  have hconsistent := hwf.consistent
  cases msg with
  | appendEntries m p =>
    obtain ⟨items, hcount, hsized, rfl⟩ := hconsistent
    have hyields := entryIter_yields hsized
    rw [hcount] at hyields
    exact ⟨rfl, _, hyields, hyields⟩
  | appendEntriesVectored m entries =>
    have hcount : entries.length = m.entryCount.toNat := hconsistent
    have hsized : ∀ item ∈ entries.map LogEntry.item, EntryItem.Sized item := by
      intro item hitem
      obtain ⟨e, he, rfl⟩ := List.mem_map.mp hitem
      exact LogEntry.item_sized (payload_lt_of_fits hwf.fits he)
    have hyields := entryIter_yields hsized
    rw [List.length_map, hcount, List.flatMap_map, List.map_map] at hyields
    have hentries : entries.map (EntryItem.entry ∘ LogEntry.item) = entries :=
      List.map_id'' (fun e => rfl) entries
    rw [hentries] at hyields
    exact ⟨rfl, entries, hyields, rfl⟩
  | appendEntriesSeeded ae headers payloads =>
    obtain ⟨items, -, hsized, rfl, rfl⟩ := hconsistent
    have hyields := rawIter_contiguous_yields items [] hsized
    exact ⟨rfl, _, ⟨items, hyields, rfl⟩, ⟨items, hyields, rfl⟩⟩
  | appendEntriesSeededVectored ae headers payloads =>
    obtain ⟨items, -, hsized, rfl, rfl⟩ := hconsistent
    have hyields := rawIter_contiguous_yields items [] hsized
    have hyields' := rawIter_disjoint_yields items [] 0
    refine ⟨rfl, items.map EntryItem.entry, ⟨items, ?_, rfl⟩, ⟨items, hyields', rfl⟩⟩
    rw [← List.flatMap_def]
    exact hyields
  | _ => exact ⟨rfl, [], rfl, rfl⟩

end RaftMessage

/-- A frame decodes to this sender, this group and this message. -/
def Arrives (frame : List UInt8) (sender groupId : UInt64) (msg : RaftMessage) : Prop :=
  ∃ inbound, decodeMessage frame = .ok inbound ∧ inbound.sender = sender ∧
    inbound.groupId = groupId ∧ inbound.message.SameAs msg

theorem frameBytes_arrives (hwf : msg.WellFormed) (sender groupId : UInt64) :
    Arrives (frameBytes sender groupId msg) sender groupId msg :=
  ⟨_, decodeMessage_frameBytes hwf sender groupId, rfl, rfl, RaftMessage.received_sameAs hwf⟩

/-- **Wire round trip.**  Whatever the allocation held, the contiguous encoder's
bytes decode to the message in group 0; the vectored encoder's slices, gathered,
decode to it in the group they were stamped with. -/
theorem encode_decode_roundTrip {msg : RaftMessage} (hwf : msg.WellFormed) (sender : UInt64) :
    (∀ uninit, ∃ frame, encodeMessageToBytes uninit sender msg = .ok frame ∧
      Arrives frame sender 0 msg) ∧
    (∀ groupId headerBuf, headersNeeded msg ≤ headerBuf.length →
      ∃ v, encodeMessageVectoredWithGroup sender groupId msg headerBuf = .ok v ∧
        Arrives v.frame sender groupId msg) := by
  constructor
  · intro uninit
    exact ⟨_, encodeMessageToBytes_eq hwf.fits uninit sender, frameBytes_arrives hwf sender 0⟩
  · intro groupId headerBuf hroom
    obtain ⟨v, hv, hframe⟩ := encodeMessageVectoredWithGroup_eq hwf sender groupId hroom
    exact ⟨v, hv, hframe ▸ frameBytes_arrives hwf sender groupId⟩

/-- A batch of two entries, the second with an empty payload, under the probe
token 77. -/
def probedBatch : RaftMessage :=
  .appendEntriesVectored ⟨1, 2, 0, 0, 0, 2, 77⟩ [⟨1, 1, [5]⟩, ⟨1, 2, []⟩]

theorem probedBatch_wellFormed : probedBatch.WellFormed :=
  ⟨rfl, by decide⟩

theorem encode_decode_roundTrip_batch :
    (∃ frame, encodeMessageToBytes (fun _ => 0) 3 probedBatch = .ok frame ∧
      Arrives frame 3 0 probedBatch) ∧
    ∃ v, encodeMessageVectoredWithGroup 3 9 probedBatch (List.replicate 128 0) = .ok v ∧
      Arrives v.frame 3 9 probedBatch :=
  ⟨(encode_decode_roundTrip probedBatch_wellFormed 3).1 _,
    (encode_decode_roundTrip probedBatch_wellFormed 3).2 9 _ (by rw [List.length_replicate]; decide)⟩

end ArbitroRaft.Wire
