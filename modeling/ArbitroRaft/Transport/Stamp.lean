import ArbitroRaft.Wire.Exact

/-!
# One wire image for a message

The contiguous encoder, the vectored encoder and the group stamp of
`MultiplexedTransport` write the same frames: the encoders leave group 0 in the
header, and the transport overwrites its last eight bytes on the way out.

## Main results

* `one_wire_image`: this, errors included.
-/

namespace ArbitroRaft.Wire

open Library

/-! ## The multiplexed transport -/

def raftFrameHeaderSize : Nat := 32

/-- `STACK_IOVECS`. -/
def stackIovecs : Nat := 128

/-- `buf[start..start + bytes.len()].copy_from_slice(bytes)` where it is in range. -/
def copyAt {α : Type} (buf : List α) (start : Nat) (bytes : List α) : List α :=
  buf.take start ++ bytes ++ buf.drop (start + bytes.length)

/-- `group_id.to_le_bytes()` at `[24..32]`. -/
def stampGroup (groupId : UInt64) (bytes : List UInt8) : List UInt8 :=
  copyAt bytes 24 (Layout.u64.toBytes groupId)

/-- The slices `send_vectored` hands to the inner transport: the stamped header, what
the first slice holds behind it, and the others.  A short list is assembled in an
array on the stack, a long one in a vector. -/
def MultiplexedTransport.sendVectored (groupId : UInt64) (slices : List (List UInt8)) :
    Except RaftError (List (List UInt8)) :=
  match slices with
  | [] => .error (.protocol "multiplex: frame too small to stamp group_id")
  | first :: rest =>
    if first.length < raftFrameHeaderSize then
      .error (.protocol "multiplex: frame too small to stamp group_id")
    else
      let header := stampGroup groupId (first.take raftFrameHeaderSize)
      let total := slices.length + 1
      if total ≤ stackIovecs then
        let stamped : List (List UInt8) := List.replicate stackIovecs []
        let stamped := copyAt stamped 0 [header]
        let stamped := copyAt stamped 1 [first.drop raftFrameHeaderSize]
        let stamped := copyAt stamped 2 rest
        .ok (stamped.take total)
      else .ok ([header] ++ [first.drop raftFrameHeaderSize] ++ rest)

/-- The frame `send_frame_owned` hands on.  A buffer that is shared is copied first. -/
def MultiplexedTransport.sendFrameOwned (groupId : UInt64) (unique : Bool)
    (frame : List UInt8) : Except RaftError (List UInt8) :=
  if frame.length < raftFrameHeaderSize then
    .error (.protocol "multiplex: frame too short to stamp group_id")
  else
    let buf := if unique then frame else [] ++ frame
    .ok (stampGroup groupId buf)

/-- The slices of an encoded message. -/
def Vectored.slices (v : Vectored) : List (List UInt8) :=
  v.out.map (Slice.bytes v.headers.buf)

/-- `encode_message_vectored`. -/
def encodeMessageVectored (sender : UInt64) (msg : RaftMessage) (headerBuf : List UInt8) :
    Except RaftError Vectored :=
  encodeMessageVectoredWithGroup sender 0 msg headerBuf

/-- The batch spelling rebuilds the count from its entries. -/
def RaftMessage.CountsEntries : RaftMessage → Prop
  | .appendEntriesVectored m entries => m.entryCount.toNat = entries.length
  | _ => True

theorem bind_inv {ε α β : Type} {x : Except ε α} {f : α → Except ε β} {b : β}
    (h : (x >>= f) = .ok b) : ∃ a, x = .ok a ∧ f a = .ok b := by
  cases x with
  | error e => cases h
  | ok a => exact ⟨a, rfl, h⟩

/-! ## Stamping -/

theorem flatten_slices (v : Vectored) : v.slices.flatten = v.frame := by
  unfold Vectored.slices Vectored.frame Slice.gather
  rw [List.flatMap_def]

theorem copyAt_append {α : Type} {front old back new : List α} (h : old.length = new.length) :
    copyAt (front ++ old ++ back) front.length new = front ++ new ++ back := by
  have hlen : (front ++ old).length = front.length + new.length := by
    rw [List.length_append, h]
  unfold copyAt
  rw [List.drop_left' hlen, List.append_assoc front, List.take_left' rfl]

/-- The group id is the end of the header. -/
theorem RaftFrameHeader.toBytes_front (h : RaftFrameHeader) : ∃ front : List UInt8,
    front.length = 24 ∧
      ∀ g, RaftFrameHeader.layout.toBytes { h with groupId := g } =
        front ++ Layout.u64.toBytes g := by
  refine ⟨Layout.u32.toBytes h.magic ++ (Layout.u8.toBytes h.version ++
    (Layout.u8.toBytes h.kind ++ (Layout.u16.toBytes h.flags ++
    (Layout.u64.toBytes h.sender ++ (Layout.u32.toBytes h.bodyLen ++
    Layout.u32.toBytes h.reserved))))), ?_, ?_⟩
  · simp only [List.length_append, Layout.length_toBytes]
    rfl
  · intro g
    simp only [List.append_assoc]
    rfl

/-- The group is the last field of the header. -/
theorem stampGroup_header (groupId : UInt64) (header : RaftFrameHeader) (rest : List UInt8) :
    stampGroup groupId (RaftFrameHeader.layout.toBytes header ++ rest) =
      RaftFrameHeader.layout.toBytes { header with groupId := groupId } ++ rest := by
  obtain ⟨front, hlen, hbytes⟩ := header.toBytes_front
  have hold : RaftFrameHeader.layout.toBytes header = front ++ Layout.u64.toBytes header.groupId :=
    hbytes header.groupId
  rw [hold, hbytes]
  unfold stampGroup
  rw [← hlen]
  exact copyAt_append (by simp only [Layout.length_toBytes])

/-- Both ways to assemble the list give the same list. -/
theorem sendVectored_eq {groupId : UInt64} {first : List UInt8} {rest : List (List UInt8)}
    (h : 32 ≤ first.length) :
    MultiplexedTransport.sendVectored groupId (first :: rest) =
      .ok (stampGroup groupId (first.take 32) :: first.drop 32 :: rest) := by
  unfold MultiplexedTransport.sendVectored
  dsimp only
  rw [if_neg (by unfold raftFrameHeaderSize; omega)]
  by_cases htotal : (first :: rest).length + 1 ≤ stackIovecs
  · rw [if_pos htotal]
    -- Two writes at the front of the array and one behind them.
    have hfill : ∀ x y : List UInt8,
        copyAt (copyAt (List.replicate stackIovecs []) 0 [x]) 1 [y] =
          [x, y] ++ List.replicate 126 [] := by
      intro x y
      rfl
    rw [hfill]
    unfold copyAt
    have hlen : ([stampGroup groupId (first.take raftFrameHeaderSize),
        first.drop raftFrameHeaderSize] ++ rest).length = (first :: rest).length + 1 := by
      rw [List.length_append]
      simp only [List.length_cons, List.length_nil]
      omega
    have htwo : ∀ x y : List UInt8, ([x, y] ++ List.replicate 126 []).take 2 = [x, y] := by
      intro x y
      rfl
    rw [htwo, List.take_left' hlen]
    rfl
  · rw [if_neg htotal]
    rfl

/-- A transport that stamps the frame that was encoded for group 0. -/
theorem sendVectored_frame {g : UInt64} {v : Vectored} {header : RaftFrameHeader}
    {body first : List UInt8} {rest : List (List UInt8)} (hslices : v.slices = first :: rest)
    (hfirst : 32 ≤ first.length)
    (hframe : v.frame = RaftFrameHeader.layout.toBytes header ++ body) :
    ∃ out, MultiplexedTransport.sendVectored g v.slices = .ok out ∧
      out.flatten = RaftFrameHeader.layout.toBytes { header with groupId := g } ++ body := by
  have hhead : (RaftFrameHeader.layout.toBytes header).length = 32 :=
    RaftFrameHeader.layout.length_toBytes header
  have hall : first ++ rest.flatten = RaftFrameHeader.layout.toBytes header ++ body := by
    rw [← hframe, ← flatten_slices, hslices, List.flatten_cons]
  have htake : first.take 32 = RaftFrameHeader.layout.toBytes header := by
    have hcut := congrArg (List.take 32) hall
    rwa [List.take_append_of_le_length hfirst, List.take_left' hhead] at hcut
  have hdrop : first.drop 32 ++ rest.flatten = body := by
    have hcut := congrArg (List.drop 32) hall
    rwa [List.drop_append_of_le_length hfirst, List.drop_left' hhead] at hcut
  have hstamp := stampGroup_header g header []
  rw [List.append_nil, List.append_nil] at hstamp
  refine ⟨_, (congrArg _ hslices).trans (sendVectored_eq hfirst), ?_⟩
  rw [List.flatten_cons, List.flatten_cons, hdrop, htake, hstamp]

theorem sendFrameOwned_eq {groupId : UInt64} {unique : Bool} {header : RaftFrameHeader}
    {body : List UInt8} :
    MultiplexedTransport.sendFrameOwned groupId unique
        (RaftFrameHeader.layout.toBytes header ++ body) =
      .ok (RaftFrameHeader.layout.toBytes { header with groupId := groupId } ++ body) := by
  have hhead : (RaftFrameHeader.layout.toBytes header).length = 32 :=
    RaftFrameHeader.layout.length_toBytes header
  have hsame : (if unique then RaftFrameHeader.layout.toBytes header ++ body
      else [] ++ (RaftFrameHeader.layout.toBytes header ++ body)) =
      RaftFrameHeader.layout.toBytes header ++ body := by
    cases unique <;> rfl
  unfold MultiplexedTransport.sendFrameOwned
  rw [if_neg (by rw [List.length_append, hhead]; unfold raftFrameHeaderSize; omega)]
  dsimp only
  rw [hsame, stampGroup_header]

/-! ## The first slice -/

theorem copyFromSlice_inv {c c' : Cursor} {bytes : List UInt8}
    (h : copyFromSlice c bytes = .ok c') :
    c.offset + bytes.length ≤ c.buf.length ∧ c'.buf.length = c.buf.length := by
  by_cases hroom : c.offset + bytes.length ≤ c.buf.length
  · obtain ⟨c₁, hput, hwrote⟩ := Cursor.put_wrote hroom
    unfold copyFromSlice at h
    rw [hput] at h
    cases h
    exact ⟨hroom, hwrote.length_eq⟩
  · have hput : c.put bytes = none := if_neg hroom
    unfold copyFromSlice at h
    rw [hput] at h
    cases h

/-- The first slice is the front of the header buffer. -/
structure Vectored.Starts (v : Vectored) (len : Nat) : Prop where
  out_eq : ∃ rest, v.out = .header 0 len :: rest
  room : len ≤ v.headers.buf.length

namespace Vectored.Starts

variable {v : Vectored} {len : Nat}

theorem push (h : v.Starts len) (p : List UInt8) : (v.push p).Starts len := by
  obtain ⟨rest, hout⟩ := h.out_eq
  refine ⟨⟨rest ++ [.payload p], ?_⟩, h.room⟩
  show v.out ++ [.payload p] = _
  rw [hout]
  rfl

theorem pushNonEmpty (h : v.Starts len) (p : List UInt8) : (v.pushNonEmpty p).Starts len := by
  cases p with
  | nil => exact h
  | cons b bs => exact h.push (b :: bs)

theorem pushPayloads (h : v.Starts len) (payloads : List (List UInt8)) :
    (payloads.foldl Vectored.pushNonEmpty v).Starts len := by
  induction payloads generalizing v with
  | nil => exact h
  | cons p ps ih => exact ih (h.pushNonEmpty p)

theorem pushBody (h : v.Starts len) (msg : RaftMessage) : (Wire.pushBody v msg).Starts len := by
  cases msg with
  | appendEntriesVectored m entries => exact h
  | appendEntries m p => exact (h.push _).pushNonEmpty p
  | installSnapshot m p => exact (h.push _).pushNonEmpty p
  | appendEntriesSeeded ae headers payloads =>
    exact ((h.push _).pushNonEmpty headers).pushNonEmpty payloads
  | appendEntriesSeededVectored ae headers payloads =>
    exact ((h.push _).pushNonEmpty headers).pushPayloads payloads
  | custom p => exact h.pushNonEmpty p
  | customResponse p => exact h.pushNonEmpty p
  | _ => exact h.push _

/-- A later header goes behind the first one. -/
theorem pushHeader {v' : Vectored} {bytes : List UInt8} (h : v.Starts len)
    (hpush : v.pushHeader bytes = .ok v') : v'.Starts len := by
  obtain ⟨c, hcopy, hv'⟩ := bind_inv hpush
  cases hv'
  obtain ⟨rest, hout⟩ := h.out_eq
  refine ⟨⟨rest ++ [.header v.headers.offset bytes.length], ?_⟩, ?_⟩
  · show v.out ++ _ = _
    rw [hout]
    rfl
  · show len ≤ c.buf.length
    rw [(copyFromSlice_inv hcopy).2]
    exact h.room

theorem interleaveEntries {entries : List LogEntry} {v' : Vectored} (h : v.Starts len)
    (hrun : Wire.interleaveEntries v entries = .ok v') : v'.Starts len := by
  induction entries generalizing v with
  | nil =>
    cases hrun
    exact h
  | cons e es ih =>
    obtain ⟨payloadLen, -, hrun⟩ := bind_inv hrun
    obtain ⟨v₁, hpush, hrun⟩ := bind_inv hrun
    exact ih ((h.pushHeader hpush).pushNonEmpty e.payload) hrun

/-- The header written into an empty list of slices starts it. -/
theorem first {headerBuf bytes : List UInt8} {v' : Vectored}
    (hpush : (⟨⟨headerBuf, 0⟩, []⟩ : Vectored).pushHeader bytes = .ok v') :
    v'.Starts bytes.length := by
  obtain ⟨c, hcopy, hv'⟩ := bind_inv hpush
  cases hv'
  obtain ⟨hroom, hlen⟩ := copyFromSlice_inv hcopy
  refine ⟨⟨[], rfl⟩, ?_⟩
  show bytes.length ≤ c.buf.length
  rw [hlen]
  omega

theorem slices_eq (h : v.Starts len) :
    ∃ first rest, v.slices = first :: rest ∧ first.length = len := by
  obtain ⟨rest, hout⟩ := h.out_eq
  refine ⟨v.headers.buf.take len, rest.map (Slice.bytes v.headers.buf), ?_, ?_⟩
  · rw [Vectored.slices, hout]
    rfl
  · rw [List.length_take]
    exact Nat.min_eq_left h.room

end Vectored.Starts

variable {msg : RaftMessage}

/-- The first slice holds the frame header; for a batch, the fixed part of the body
as well. -/
theorem encodeMessageVectoredWithGroup_first {sender groupId : UInt64} {headerBuf : List UInt8}
    {v : Vectored} (h : encodeMessageVectoredWithGroup sender groupId msg headerBuf = .ok v) :
    ∃ first rest, v.slices = first :: rest ∧ 32 ≤ first.length ∧
      headersNeeded msg ≤ headerBuf.length := by
  have hplain : encodePlainVectored sender groupId msg headerBuf = .ok v →
      ∃ first rest, v.slices = first :: rest ∧ 32 ≤ first.length ∧ 32 ≤ headerBuf.length := by
    intro h
    obtain ⟨bodyLen, -, h⟩ := bind_inv h
    by_cases hroom : headerBuf.length < RaftFrameHeader.layout.size
    · rw [if_pos hroom] at h
      cases h
    · rw [if_neg hroom] at h
      obtain ⟨v₁, hpush, h⟩ := bind_inv h
      cases h
      obtain ⟨first, rest, hslices, hlen⟩ := ((Vectored.Starts.first hpush).pushBody msg).slices_eq
      refine ⟨first, rest, hslices, ?_, Nat.le_of_not_lt hroom⟩
      rw [hlen, Layout.length_toBytes]
      exact Nat.le_refl 32
  cases msg with
  | appendEntriesVectored m entries =>
    obtain ⟨bodyLen, -, h⟩ := bind_inv h
    obtain ⟨count, -, h⟩ := bind_inv h
    by_cases hroom : headerBuf.length < RaftFrameHeader.layout.size +
        AppendEntries.layout.size + entries.length * EntryHeader.layout.size
    · rw [if_pos hroom] at h
      cases h
    · rw [if_neg hroom] at h
      obtain ⟨v₁, hpush, h⟩ := bind_inv h
      obtain ⟨first, rest, hslices, hlen⟩ :=
        ((Vectored.Starts.first hpush).interleaveEntries h).slices_eq
      refine ⟨first, rest, hslices, ?_, Nat.le_of_not_lt hroom⟩
      rw [hlen, List.length_append, Layout.length_toBytes]
      exact Nat.le_add_right 32 _
  | _ => exact hplain h

/-! ## One image -/

theorem encodeMessageVectoredWithGroup_frame (hcount : msg.CountsEntries)
    (hfits : bodyTotalLen msg < 2 ^ 32) (sender groupId : UInt64) {headerBuf : List UInt8}
    (hroom : headersNeeded msg ≤ headerBuf.length) :
    ∃ v, encodeMessageVectoredWithGroup sender groupId msg headerBuf = .ok v ∧
      v.frame = frameBytes sender groupId msg := by
  cases msg with
  | appendEntriesVectored m entries =>
    exact encodeAppendEntriesVectoredWithPad_eq ⟨hcount.symm, hfits⟩ sender groupId hroom
  | _ => exact encodePlainVectored_eq hfits (by simp) sender groupId hroom

/-- A body that a `u32` cannot measure is refused before the header buffer is looked
at. -/
theorem encodeMessageVectoredWithGroup_long {e : RaftError}
    (h : wireLenU32 (bodyTotalLen msg) "frame body length" = .error e) (sender groupId : UInt64)
    (headerBuf : List UInt8) :
    encodeMessageVectoredWithGroup sender groupId msg headerBuf = .error e := by
  have hplain : encodePlainVectored sender groupId msg headerBuf = .error e := by
    rw [encodePlainVectored, h]
    rfl
  cases msg with
  | appendEntriesVectored m entries =>
    have hbody : AppendEntries.layout.size +
        entries.foldl (fun len e => len + (EntryHeader.layout.size + e.payload.length)) 0 =
        bodyTotalLen (.appendEntriesVectored m entries) := by
      simp only [bodyTotalLen, foldl_add_eq_sum, Nat.zero_add]
    rw [encodeMessageVectoredWithGroup, encodeAppendEntriesVectoredWithPad, hbody, h]
    rfl
  | _ => exact hplain

/-- The bytes on the wire when the slices go out in order. -/
def Vectored.concat (v : Vectored) : List UInt8 := v.slices.flatten

/-- The contiguous encoder, the slices of the vectored one and both stamping paths of
the multiplexed transport agree on every message, errors included.  A header buffer
that is too short gives no slices at all. -/
theorem one_wire_image {msg : RaftMessage} (hcount : msg.CountsEntries) (sender : UInt64)
    (headerBuf : List UInt8) :
    (headersNeeded msg ≤ headerBuf.length →
      (∀ uninit, Vectored.concat <$> encodeMessageVectored sender msg headerBuf =
        encodeMessageToBytes uninit sender msg) ∧
      ∀ groupId,
        (encodeMessageVectored sender msg headerBuf >>= fun v =>
            List.flatten <$> MultiplexedTransport.sendVectored groupId v.slices) =
          Vectored.concat <$> encodeMessageVectoredWithGroup sender groupId msg headerBuf ∧
        ∀ uninit unique,
          (encodeMessageToBytes uninit sender msg >>=
              MultiplexedTransport.sendFrameOwned groupId unique) =
            Vectored.concat <$> encodeMessageVectoredWithGroup sender groupId msg headerBuf) ∧
    (headerBuf.length < headersNeeded msg →
      ∀ groupId, ∃ e, encodeMessageVectoredWithGroup sender groupId msg headerBuf = .error e) := by
  constructor
  · intro hroom
    cases hlen : wireLenU32 (bodyTotalLen msg) "frame body length" with
    | error e =>
        have hslices : ∀ groupId,
            encodeMessageVectoredWithGroup sender groupId msg headerBuf = .error e :=
          fun groupId => encodeMessageVectoredWithGroup_long hlen sender groupId headerBuf
        have hbytes := encodeMessageToBytes_long hlen
        unfold encodeMessageVectored
        refine ⟨fun uninit => ?_, fun groupId => ⟨?_, fun uninit unique => ?_⟩⟩
        · rw [hslices, hbytes]
          rfl
        · rw [hslices, hslices]
          rfl
        · rw [hslices, hbytes]
          rfl
    | ok len =>
        have hfits : bodyTotalLen msg < 2 ^ 32 := by
          by_contra hlong
          rw [wireLenU32, if_neg hlong] at hlen
          cases hlen
        obtain ⟨v, hv, hframe⟩ :=
          encodeMessageVectoredWithGroup_frame hcount hfits sender 0 hroom
        unfold encodeMessageVectored
        refine ⟨fun uninit => ?_, fun groupId => ?_⟩
        · rw [hv, encodeMessageToBytes_eq hfits uninit sender, ← hframe, ← flatten_slices]
          rfl
        · obtain ⟨vg, hvg, hgroup⟩ :=
            encodeMessageVectoredWithGroup_frame hcount hfits sender groupId hroom
          have himage : vg.concat = frameBytes sender groupId msg :=
            (flatten_slices vg).trans hgroup
          obtain ⟨first, rest, hslices, hfirst, -⟩ := encodeMessageVectoredWithGroup_first hv
          obtain ⟨out, hsend, hout⟩ :=
            sendVectored_frame (g := groupId) hslices hfirst hframe
          refine ⟨?_, fun uninit unique => ?_⟩
          · rw [hv, hvg]
            show List.flatten <$> MultiplexedTransport.sendVectored groupId v.slices =
              .ok vg.concat
            rw [hsend, himage]
            exact congrArg Except.ok hout
          · rw [hvg, encodeMessageToBytes_eq hfits uninit sender]
            show MultiplexedTransport.sendFrameOwned groupId unique (frameBytes sender 0 msg) =
              .ok vg.concat
            rw [himage]
            exact sendFrameOwned_eq
  · intro hshort groupId
    cases h : encodeMessageVectoredWithGroup sender groupId msg headerBuf with
    | error e => exact ⟨e, rfl⟩
    | ok v =>
        obtain ⟨first, rest, -, -, hroom⟩ := encodeMessageVectoredWithGroup_first h
        omega

/-- The probed batch of two entries goes out for group 7. -/
theorem one_wire_image_batch :
    (∀ uninit, Vectored.concat <$>
        encodeMessageVectored 3 probedBatch (List.replicate 128 0) =
      encodeMessageToBytes uninit 3 probedBatch) ∧
    (encodeMessageVectored 3 probedBatch (List.replicate 128 0) >>= fun v =>
        List.flatten <$> MultiplexedTransport.sendVectored 7 v.slices) =
      Vectored.concat <$>
        encodeMessageVectoredWithGroup 3 7 probedBatch (List.replicate 128 0) := by
  have hroom : headersNeeded probedBatch ≤ (List.replicate 128 (0 : UInt8)).length := by
    rw [List.length_replicate]
    exact Nat.le_refl 128
  have hcount : probedBatch.CountsEntries := rfl
  have himage := (one_wire_image hcount 3 (List.replicate 128 0)).1 hroom
  exact ⟨himage.1, (himage.2 7).1⟩

end ArbitroRaft.Wire
