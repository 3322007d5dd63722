import ArbitroRaft.Dispatch.TxId
import ArbitroRaft.Library.Codec

/-!
# Dispatch frames

`dispatch/builder.rs`, `dispatch/view.rs` and `dispatch/response.rs`.  A dispatch and an
answer to it are a header of a fixed size and a body behind it, and the header states the
length of the body.  A view is a frame that was checked; it reads the fields off the header
and takes everything behind the header for the body.

What `build` and `encode_dispatch_response` write is read back as it was.  A frame with
bytes behind the stated body is accepted too, and these bytes are handed to the decoder
as part of the body.

## Main results

* `dispatch_frames_exact`: both, and when an accepted body has its stated length.
-/

namespace ArbitroRaft

open Library

/-! ## Headers -/

def raftDispatchMagic : UInt32 := 0x44535054
def raftDispatchVersion : UInt8 := 1
def raftDispatchResponseMagic : UInt32 := 0x44525350
def raftDispatchResponseVersion : UInt8 := 1

structure DispatchFrameHeader where
  magic : UInt32
  version : UInt8
  command : UInt8
  scope : UInt8
  ackPolicy : UInt8
  failPolicy : UInt8
  trace : UInt8
  pad : Vector UInt8 2
  txId : UInt64
  timeoutMs : UInt32
  bodyLen : UInt32
deriving DecidableEq, Repr

structure DispatchResponseFrameHeader where
  magic : UInt32
  version : UInt8
  command : UInt8
  kind : UInt8
  pad : UInt8
  txId : UInt64
  bodyLen : UInt32
deriving DecidableEq, Repr

section Layouts

open Layout

def DispatchFrameHeader.layout : Layout DispatchFrameHeader :=
  (u32.pair (u8.pair (u8.pair (u8.pair (u8.pair (u8.pair (u8.pair ((array 2).pair
    (u64.pair (u32.pair u32)))))))))).record
    (fun (magic, version, command, scope, ackPolicy, failPolicy, trace, pad, txId, timeoutMs,
        bodyLen) =>
      ⟨magic, version, command, scope, ackPolicy, failPolicy, trace, pad, txId, timeoutMs,
        bodyLen⟩)
    (fun h => (h.magic, h.version, h.command, h.scope, h.ackPolicy, h.failPolicy, h.trace, h.pad,
      h.txId, h.timeoutMs, h.bodyLen))
    (fun _ => rfl)

def DispatchResponseFrameHeader.layout : Layout DispatchResponseFrameHeader :=
  (u32.pair (u8.pair (u8.pair (u8.pair (u8.pair (u64.pair u32)))))).record
    (fun (magic, version, command, kind, pad, txId, bodyLen) =>
      ⟨magic, version, command, kind, pad, txId, bodyLen⟩)
    (fun h => (h.magic, h.version, h.command, h.kind, h.pad, h.txId, h.bodyLen))
    (fun _ => rfl)

end Layouts

/-! ## Discriminants -/

def DispatchScope.toU8 : DispatchScope → UInt8
  | .all => 0
  | .others => 1
  | .followers => 2
  | .leader => 3
  | .localOnly => 4

def DispatchScope.ofU8 : UInt8 → DispatchScope
  | 0 => .all
  | 1 => .others
  | 2 => .followers
  | 3 => .leader
  | 4 => .localOnly
  | _ => .all

def DispatchAckPolicy.toU8 : DispatchAckPolicy → UInt8
  | .all => 0
  | .quorum => 1
  | .atLeast => 2
  | .percent => 3
  | .bestEffort => 4

def DispatchAckPolicy.ofU8 : UInt8 → DispatchAckPolicy
  | 0 => .all
  | 1 => .quorum
  | 2 => .atLeast
  | 3 => .percent
  | 4 => .bestEffort
  | _ => .quorum

def DispatchFailPolicy.toU8 : DispatchFailPolicy → UInt8
  | .allowFailures => 0
  | .noFailures => 1
  | .maxFailures => 2
  | .maxFailurePercent => 3
  | .failFast => 4

def DispatchFailPolicy.ofU8 : UInt8 → DispatchFailPolicy
  | 0 => .allowFailures
  | 1 => .noFailures
  | 2 => .maxFailures
  | 3 => .maxFailurePercent
  | 4 => .failFast
  | _ => .allowFailures

inductive DispatchResponseKind where
  | accepted
  | rejected
  | progress
  | failed
deriving DecidableEq, Repr

def DispatchResponseKind.toU8 : DispatchResponseKind → UInt8
  | .accepted => 0
  | .rejected => 1
  | .progress => 2
  | .failed => 3

def DispatchResponseKind.ofU8 : UInt8 → DispatchResponseKind
  | 0 => .accepted
  | 1 => .rejected
  | 2 => .progress
  | 3 => .failed
  | _ => .failed

/-! ## Views -/

/-- A frame that holds a header. -/
structure DispatchView where
  frame : List UInt8
  fits : DispatchFrameHeader.layout.size ≤ frame.length

namespace DispatchView

def parse (frame : List UInt8) : Except RaftError DispatchView :=
  if hshort : frame.length < DispatchFrameHeader.layout.size then
    .error (.dispatch "short dispatch frame header")
  else
    let header := DispatchFrameHeader.layout.ofBytes (frame.take DispatchFrameHeader.layout.size)
    let rest := frame.drop DispatchFrameHeader.layout.size
    let version := header.version
    if header.magic ≠ raftDispatchMagic then .error (.dispatch "invalid dispatch magic")
    else if version ≠ raftDispatchVersion then
      .error (.dispatch s!"unsupported dispatch version {version}")
    else if rest.length < header.bodyLen.toNat then
      .error (.dispatch "dispatch body length mismatch")
    else if 4 < header.scope then .error (.dispatch "unknown dispatch scope")
    else if 4 < header.ackPolicy then .error (.dispatch "unknown dispatch ack policy")
    else if 4 < header.failPolicy then .error (.dispatch "unknown dispatch fail policy")
    else .ok ⟨frame, Nat.le_of_not_lt hshort⟩

def header (v : DispatchView) : DispatchFrameHeader :=
  DispatchFrameHeader.layout.ofBytes (v.frame.take DispatchFrameHeader.layout.size)

def command (v : DispatchView) : UInt8 := v.header.command
def txId (v : DispatchView) : UInt64 := v.header.txId
def scope (v : DispatchView) : DispatchScope := .ofU8 v.header.scope
def ackPolicy (v : DispatchView) : DispatchAckPolicy := .ofU8 v.header.ackPolicy
def failPolicy (v : DispatchView) : DispatchFailPolicy := .ofU8 v.header.failPolicy
def trace (v : DispatchView) : Bool := v.header.trace != 0
def timeoutMs (v : DispatchView) : UInt32 := v.header.timeoutMs
def body (v : DispatchView) : List UInt8 := v.frame.drop DispatchFrameHeader.layout.size

end DispatchView

/-- A frame that holds the header of an answer. -/
structure DispatchResponseView where
  frame : List UInt8
  fits : DispatchResponseFrameHeader.layout.size ≤ frame.length

namespace DispatchResponseView

def parse (frame : List UInt8) : Except RaftError DispatchResponseView :=
  if hshort : frame.length < DispatchResponseFrameHeader.layout.size then
    .error (.dispatch "short dispatch response header")
  else
    let header := DispatchResponseFrameHeader.layout.ofBytes
      (frame.take DispatchResponseFrameHeader.layout.size)
    let rest := frame.drop DispatchResponseFrameHeader.layout.size
    let version := header.version
    if header.magic ≠ raftDispatchResponseMagic then
      .error (.dispatch "invalid dispatch response magic")
    else if version ≠ raftDispatchResponseVersion then
      .error (.dispatch s!"unsupported dispatch response version {version}")
    else if rest.length < header.bodyLen.toNat then
      .error (.dispatch "dispatch response body length mismatch")
    else if 3 < header.kind then .error (.dispatch "unknown dispatch response kind")
    else .ok ⟨frame, Nat.le_of_not_lt hshort⟩

def header (v : DispatchResponseView) : DispatchResponseFrameHeader :=
  DispatchResponseFrameHeader.layout.ofBytes
    (v.frame.take DispatchResponseFrameHeader.layout.size)

def command (v : DispatchResponseView) : UInt8 := v.header.command
def txId (v : DispatchResponseView) : UInt64 := v.header.txId
def kind (v : DispatchResponseView) : DispatchResponseKind := .ofU8 v.header.kind

/-- `body`, and `body_bytes`. -/
def body (v : DispatchResponseView) : List UInt8 :=
  v.frame.drop DispatchResponseFrameHeader.layout.size

end DispatchResponseView

/-! ## Writing -/

structure DispatchBuilder (P R : Type) where
  spec : DispatchSpec P R
  params : P
  options : DispatchOptions

structure DispatchEnvelope where
  txId : UInt64
  command : UInt8
  bytes : List UInt8
  options : DispatchOptions
deriving DecidableEq, Repr

/-- `DispatchSpec::dispatch`, before its options are changed. -/
def DispatchSpec.dispatch {P R : Type} (spec : DispatchSpec P R) (params : P) :
    DispatchBuilder P R :=
  { spec := spec, params := params, options := spec.defaults }

/-- The timeout in milliseconds, as far as the wire field goes. -/
def DispatchOptions.timeoutMs (options : DispatchOptions) : UInt32 :=
  UInt32.ofNat (min (options.timeout / 10 ^ 6) (2 ^ 32 - 1))

/-- The header that `build` writes. -/
def DispatchBuilder.header {P R : Type} (b : DispatchBuilder P R) (txId : UInt64)
    (bodyLen : UInt32) : DispatchFrameHeader :=
  { magic := raftDispatchMagic
    version := raftDispatchVersion
    command := b.spec.command
    scope := b.options.scope.toU8
    ackPolicy := b.options.ack.policy.toU8
    failPolicy := b.options.fail.policy.toU8
    trace := b.options.trace.toUInt8
    pad := .replicate 2 0
    txId := txId
    timeoutMs := b.options.timeoutMs
    bodyLen := bodyLen }

def DispatchBuilder.build {P R : Type} (b : DispatchBuilder P R) (c : TxIdCells) :
    Except RaftError DispatchEnvelope × TxIdCells :=
  match b.spec.encodeParams b.params with
  | .error e => (.error e, c)
  | .ok body =>
    if 2 ^ 32 ≤ body.length then
      (.error (.dispatch "dispatch body length exceeds u32 wire field"), c)
    else
      let (txId, c) := b.spec.nextTxId c
      let header := b.header txId (UInt32.ofNat body.length)
      (.ok
        { txId := txId
          command := b.spec.command
          bytes := DispatchFrameHeader.layout.toBytes header ++ body
          options := b.options }, c)

structure DispatchResponse where
  txId : UInt64
  command : UInt8
  kind : DispatchResponseKind
  payload : List UInt8
deriving DecidableEq, Repr

/-- The header that `encode_dispatch_response` writes. -/
def DispatchResponse.header (response : DispatchResponse) (bodyLen : UInt32) :
    DispatchResponseFrameHeader :=
  { magic := raftDispatchResponseMagic
    version := raftDispatchResponseVersion
    command := response.command
    kind := response.kind.toU8
    pad := 0
    txId := response.txId
    bodyLen := bodyLen }

def encodeDispatchResponse (response : DispatchResponse) : Except RaftError (List UInt8) :=
  if 2 ^ 32 ≤ response.payload.length then
    .error (.dispatch "dispatch response payload length exceeds u32 wire field")
  else
    let header := response.header (UInt32.ofNat response.payload.length)
    .ok (DispatchResponseFrameHeader.layout.toBytes header ++ response.payload)

/-! ## What is read back -/

@[simp] theorem DispatchScope.ofU8_toU8 (s : DispatchScope) : ofU8 s.toU8 = s := by
  cases s <;> rfl

@[simp] theorem DispatchAckPolicy.ofU8_toU8 (p : DispatchAckPolicy) : ofU8 p.toU8 = p := by
  cases p <;> rfl

@[simp] theorem DispatchFailPolicy.ofU8_toU8 (p : DispatchFailPolicy) : ofU8 p.toU8 = p := by
  cases p <;> rfl

@[simp] theorem DispatchResponseKind.ofU8_toU8 (k : DispatchResponseKind) : ofU8 k.toU8 = k := by
  cases k <;> rfl

@[simp] theorem DispatchScope.toU8_le (s : DispatchScope) : ¬ 4 < s.toU8 := by
  cases s <;> decide

@[simp] theorem DispatchAckPolicy.toU8_le (p : DispatchAckPolicy) : ¬ 4 < p.toU8 := by
  cases p <;> decide

@[simp] theorem DispatchFailPolicy.toU8_le (p : DispatchFailPolicy) : ¬ 4 < p.toU8 := by
  cases p <;> decide

@[simp] theorem DispatchResponseKind.toU8_le (k : DispatchResponseKind) : ¬ 3 < k.toU8 := by
  cases k <;> decide

variable {v : DispatchView} {body frame : List UInt8}

/-- A header and what is behind it. -/
theorem DispatchView.fields {header : DispatchFrameHeader}
    (h : v.frame = DispatchFrameHeader.layout.toBytes header ++ body) :
    v.header = header ∧ v.body = body := by
  have hlen := DispatchFrameHeader.layout.length_toBytes header
  unfold DispatchView.header DispatchView.body
  rw [h, List.take_left' hlen, List.drop_left' hlen, Layout.ofBytes_toBytes]
  exact ⟨rfl, rfl⟩

theorem DispatchResponseView.fields {v : DispatchResponseView}
    {header : DispatchResponseFrameHeader}
    (h : v.frame = DispatchResponseFrameHeader.layout.toBytes header ++ body) :
    v.header = header ∧ v.body = body := by
  have hlen := DispatchResponseFrameHeader.layout.length_toBytes header
  unfold DispatchResponseView.header DispatchResponseView.body
  rw [h, List.take_left' hlen, List.drop_left' hlen, Layout.ofBytes_toBytes]
  exact ⟨rfl, rfl⟩

theorem DispatchView.parse_append {header : DispatchFrameHeader}
    (hmagic : header.magic = raftDispatchMagic) (hversion : header.version = raftDispatchVersion)
    (hbody : header.bodyLen.toNat ≤ body.length) (hscope : ¬ 4 < header.scope)
    (hack : ¬ 4 < header.ackPolicy) (hfail : ¬ 4 < header.failPolicy) :
    ∃ v, parse (DispatchFrameHeader.layout.toBytes header ++ body) = .ok v ∧
      v.frame = DispatchFrameHeader.layout.toBytes header ++ body := by
  have hlen := DispatchFrameHeader.layout.length_toBytes header
  have hfits : ¬ (DispatchFrameHeader.layout.toBytes header ++ body).length <
      DispatchFrameHeader.layout.size := by
    rw [List.length_append, hlen]
    omega
  refine ⟨⟨_, Nat.le_of_not_lt hfits⟩, ?_, rfl⟩
  unfold parse
  rw [dif_neg hfits, List.take_left' hlen, List.drop_left' hlen, Layout.ofBytes_toBytes]
  dsimp only
  rw [if_neg (not_not.mpr hmagic), if_neg (not_not.mpr hversion), if_neg (Nat.not_lt.mpr hbody),
    if_neg hscope, if_neg hack, if_neg hfail]

theorem DispatchResponseView.parse_append {header : DispatchResponseFrameHeader}
    (hmagic : header.magic = raftDispatchResponseMagic)
    (hversion : header.version = raftDispatchResponseVersion)
    (hbody : header.bodyLen.toNat ≤ body.length) (hkind : ¬ 3 < header.kind) :
    ∃ v, parse (DispatchResponseFrameHeader.layout.toBytes header ++ body) = .ok v ∧
      v.frame = DispatchResponseFrameHeader.layout.toBytes header ++ body := by
  have hlen := DispatchResponseFrameHeader.layout.length_toBytes header
  have hfits : ¬ (DispatchResponseFrameHeader.layout.toBytes header ++ body).length <
      DispatchResponseFrameHeader.layout.size := by
    rw [List.length_append, hlen]
    omega
  refine ⟨⟨_, Nat.le_of_not_lt hfits⟩, ?_, rfl⟩
  unfold parse
  rw [dif_neg hfits, List.take_left' hlen, List.drop_left' hlen, Layout.ofBytes_toBytes]
  dsimp only
  rw [if_neg (not_not.mpr hmagic), if_neg (not_not.mpr hversion), if_neg (Nat.not_lt.mpr hbody),
    if_neg hkind]

/-- A view reads an envelope back: the command, the transaction and the body of its
builder, and the options that travel. -/
structure DispatchView.Reads {P R : Type} (v : DispatchView) (b : DispatchBuilder P R)
    (e : DispatchEnvelope) : Prop where
  command_eq : v.command = b.spec.command
  txId_eq : v.txId = e.txId
  scope_eq : v.scope = b.options.scope
  ackPolicy_eq : v.ackPolicy = b.options.ack.policy
  failPolicy_eq : v.failPolicy = b.options.fail.policy
  trace_eq : v.trace = b.options.trace
  timeoutMs_eq : v.timeoutMs.toNat = min (b.options.timeout / 10 ^ 6) (2 ^ 32 - 1)
  body_eq : b.spec.encodeParams b.params = .ok v.body

/-- A view reads an answer back. -/
structure DispatchResponseView.Reads (v : DispatchResponseView) (response : DispatchResponse) :
    Prop where
  command_eq : v.command = response.command
  txId_eq : v.txId = response.txId
  kind_eq : v.kind = response.kind
  body_eq : v.body = response.payload

theorem DispatchBuilder.build_inv {P R : Type} {b : DispatchBuilder P R} {c : TxIdCells}
    {e : DispatchEnvelope} (h : (b.build c).1 = .ok e) :
    ∃ body, b.spec.encodeParams b.params = .ok body ∧ body.length < 2 ^ 32 ∧
      e.bytes = DispatchFrameHeader.layout.toBytes
        (b.header e.txId (UInt32.ofNat body.length)) ++ body := by
  unfold build at h
  cases hbody : b.spec.encodeParams b.params with
  | error err =>
    rw [hbody] at h
    cases h
  | ok body =>
    rw [hbody] at h
    dsimp only at h
    by_cases hlong : 2 ^ 32 ≤ body.length
    · rw [if_pos hlong] at h
      cases h
    · rw [if_neg hlong] at h
      cases h
      exact ⟨body, rfl, Nat.lt_of_not_le hlong, rfl⟩

theorem DispatchBuilder.parse_build {P R : Type} {b : DispatchBuilder P R} {c : TxIdCells}
    {e : DispatchEnvelope} (h : (b.build c).1 = .ok e) :
    ∃ v, DispatchView.parse e.bytes = .ok v ∧ v.Reads b e := by
  obtain ⟨body, hbody, hlen, hbytes⟩ := build_inv h
  have hfit : (UInt32.ofNat body.length).toNat = body.length := UInt32.toNat_ofNat_of_lt hlen
  have hparse := @DispatchView.parse_append body (b.header e.txId (UInt32.ofNat body.length))
    rfl rfl hfit.le (DispatchScope.toU8_le _) (DispatchAckPolicy.toU8_le _)
    (DispatchFailPolicy.toU8_le _)
  obtain ⟨v, hok, hframe⟩ := hparse
  obtain ⟨hheader, hrest⟩ := DispatchView.fields hframe
  rw [hbytes]
  refine ⟨v, hok, ?_⟩
  constructor
  · rw [DispatchView.command, hheader, header]
  · rw [DispatchView.txId, hheader, header]
  · rw [DispatchView.scope, hheader, header, DispatchScope.ofU8_toU8]
  · rw [DispatchView.ackPolicy, hheader, header, DispatchAckPolicy.ofU8_toU8]
  · rw [DispatchView.failPolicy, hheader, header, DispatchFailPolicy.ofU8_toU8]
  · rw [DispatchView.trace, hheader, header]
    cases b.options.trace <;> rfl
  · rw [DispatchView.timeoutMs, hheader, header, DispatchOptions.timeoutMs]
    exact UInt32.toNat_ofNat_of_lt (Nat.lt_of_le_of_lt (Nat.min_le_right _ _) (by decide))
  · rw [hrest]
    exact hbody

theorem DispatchResponse.parse_encode {response : DispatchResponse} {bytes : List UInt8}
    (h : encodeDispatchResponse response = .ok bytes) :
    ∃ v, DispatchResponseView.parse bytes = .ok v ∧ v.Reads response := by
  unfold encodeDispatchResponse at h
  by_cases hlong : 2 ^ 32 ≤ response.payload.length
  · rw [if_pos hlong] at h
    cases h
  rw [if_neg hlong] at h
  cases h
  have hfit : (UInt32.ofNat response.payload.length).toNat = response.payload.length :=
    UInt32.toNat_ofNat_of_lt (Nat.lt_of_not_le hlong)
  have hparse := @DispatchResponseView.parse_append response.payload
    (response.header (UInt32.ofNat response.payload.length))
    rfl rfl hfit.le (DispatchResponseKind.toU8_le _)
  obtain ⟨v, hok, hframe⟩ := hparse
  obtain ⟨hheader, hrest⟩ := DispatchResponseView.fields hframe
  refine ⟨v, hok, ?_, ?_, ?_, hrest⟩
  · rw [DispatchResponseView.command, hheader, header]
  · rw [DispatchResponseView.txId, hheader, header]
  · rw [DispatchResponseView.kind, hheader, header, DispatchResponseKind.ofU8_toU8]

/-! ## What is accepted -/

theorem DispatchView.frame_of_parse (h : parse frame = .ok v) : v.frame = frame := by
  unfold parse at h
  dsimp only at h
  split at h
  · cases h
  split at h
  · cases h
  split at h
  · cases h
  split at h
  · cases h
  split at h
  · cases h
  split at h
  · cases h
  split at h
  · cases h
  · cases h
    rfl

theorem DispatchResponseView.frame_of_parse {v : DispatchResponseView} (h : parse frame = .ok v) :
    v.frame = frame := by
  unfold parse at h
  dsimp only at h
  split at h
  · cases h
  split at h
  · cases h
  split at h
  · cases h
  split at h
  · cases h
  split at h
  · cases h
  · cases h
    rfl

/-- The body that the header of a frame states is all there is behind it. -/
def DispatchFrameHeader.Whole (frame : List UInt8) : Prop :=
  frame.length = layout.size + (layout.ofBytes (frame.take layout.size)).bodyLen.toNat

@[inherit_doc DispatchFrameHeader.Whole]
def DispatchResponseFrameHeader.Whole (frame : List UInt8) : Prop :=
  frame.length = layout.size + (layout.ofBytes (frame.take layout.size)).bodyLen.toNat

instance (frame : List UInt8) : Decidable (DispatchFrameHeader.Whole frame) :=
  inferInstanceAs (Decidable (_ = _))

instance (frame : List UInt8) : Decidable (DispatchResponseFrameHeader.Whole frame) :=
  inferInstanceAs (Decidable (_ = _))

theorem DispatchView.body_length_iff (h : parse frame = .ok v) :
    v.body.length = v.header.bodyLen.toNat ↔ DispatchFrameHeader.Whole frame := by
  have hfits := v.fits
  unfold body header DispatchFrameHeader.Whole
  rw [List.length_drop, frame_of_parse h] at *
  omega

theorem DispatchResponseView.body_length_iff {v : DispatchResponseView} (h : parse frame = .ok v) :
    v.body.length = v.header.bodyLen.toNat ↔ DispatchResponseFrameHeader.Whole frame := by
  have hfits := v.fits
  unfold body header DispatchResponseFrameHeader.Whole
  rw [List.length_drop, frame_of_parse h] at *
  omega

/-- Envelopes and answers are read back as they were, and the body of a frame that is
accepted has the length that the header states exactly if nothing is behind it. -/
theorem dispatch_frames_exact (frame : List UInt8) :
    (∀ (P R : Type) (b : DispatchBuilder P R) (c : TxIdCells) (e : DispatchEnvelope),
      (b.build c).1 = .ok e → ∃ v, DispatchView.parse e.bytes = .ok v ∧ v.Reads b e) ∧
    (∀ response, encodeDispatchResponse response = .ok frame →
      ∃ v, DispatchResponseView.parse frame = .ok v ∧ v.Reads response) ∧
    (∀ v, DispatchView.parse frame = .ok v →
      (v.body.length = v.header.bodyLen.toNat ↔ DispatchFrameHeader.Whole frame)) ∧
    (∀ v, DispatchResponseView.parse frame = .ok v →
      (v.body.length = v.header.bodyLen.toNat ↔ DispatchResponseFrameHeader.Whole frame)) :=
  ⟨fun _ _ _ _ _ h => DispatchBuilder.parse_build h,
    fun _ h => DispatchResponse.parse_encode h,
    fun _ h => DispatchView.body_length_iff h,
    fun _ h => DispatchResponseView.body_length_iff h⟩

/-- The answer `accepted` to transaction 7, with a body of one byte. -/
def acceptance : DispatchResponse :=
  { txId := 7, command := 3, kind := .accepted, payload := [9] }

/-- Its frame. -/
def acceptanceFrame : List UInt8 :=
  DispatchResponseFrameHeader.layout.toBytes (acceptance.header 1) ++ [9]

theorem dispatch_frames_exact_acceptance :
    ∃ v, DispatchResponseView.parse acceptanceFrame = .ok v ∧ v.Reads acceptance ∧
      v.body.length = v.header.bodyLen.toNat := by
  obtain ⟨v, hparse, hreads⟩ := (dispatch_frames_exact acceptanceFrame).2.1 acceptance rfl
  exact ⟨v, hparse, hreads,
    ((dispatch_frames_exact acceptanceFrame).2.2.2 v hparse).mpr (by decide)⟩

/-- A dispatch that states a body of no bytes. -/
def bareDispatch : DispatchFrameHeader :=
  { magic := raftDispatchMagic, version := raftDispatchVersion, command := 3, scope := 0,
    ackPolicy := 1, failPolicy := 0, trace := 0, pad := .replicate 2 0, txId := 7,
    timeoutMs := 0, bodyLen := 0 }

/-- A byte behind the body is accepted, and is handed on with the body. -/
theorem dispatch_frame_trailing_byte :
    (∃ v, DispatchView.parse (DispatchFrameHeader.layout.toBytes bareDispatch ++ [5]) = .ok v ∧
      v.header.bodyLen = 0 ∧ v.body = [5]) ∧
    ∃ v, DispatchResponseView.parse (acceptanceFrame ++ [5]) = .ok v ∧
      v.header.bodyLen = 1 ∧ v.body = [9, 5] :=
  ⟨⟨⟨_, by decide⟩, rfl, rfl, rfl⟩, ⟨⟨_, by decide⟩, rfl, rfl, rfl⟩⟩

end ArbitroRaft
