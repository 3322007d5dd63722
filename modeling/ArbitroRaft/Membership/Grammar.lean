import ArbitroRaft.Membership.WellFormed
import ArbitroRaft.Wire.FrameSize

/-!
# The grammar of a configuration entry

What `ConfigChangeEntry::decode` accepts, over all byte strings.  The decoder reads
two counts and then as many ids as they say, and asks for at least that many bytes.
Up to the byte it reserves, a payload of exactly the stated length is the encoding of
the entry it decodes to; a payload that goes on behind the last id is accepted too.
No-op entries and the payloads that a client may propose are never accepted.

## Main results

* `config_entry_grammar`: the accepted payloads, exactly.
-/

namespace ArbitroRaft

open Library Wire

/-- `reject_reserved_prefix`. -/
def rejectReservedPrefix (payload : List UInt8) : Except RaftError Unit :=
  if maxEntryPayload < payload.length then
    .error (.invalidPayload
      "payload exceeds MAX_ENTRY_PAYLOAD and would not fit a peer's frame buffer")
  else if payload.head? = some configChangeMagic then
    .error (.invalidPayload
      "payload first byte collides with reserved config-change magic (0xC0)")
  else .ok ()

/-! ## Ids -/

theorem length_readPeers (count : Nat) (bytes : List UInt8) :
    (readPeers count bytes).length = count := by
  induction count generalizing bytes with
  | zero => rfl
  | succ count ih => rw [readPeers, List.length_cons, ih]

theorem readPeers_le (count : Nat) (bytes : List UInt8) :
    ∀ p ∈ readPeers count bytes, p ≤ u64Max := by
  induction count generalizing bytes with
  | zero => exact fun p hp => absurd hp List.not_mem_nil
  | succ count ih =>
    intro p hp
    obtain rfl | hp := List.mem_cons.mp hp
    · have hlt := leValue_lt (bytes.take 8)
      have hlen : (bytes.take 8).length ≤ 8 := List.length_take_le 8 bytes
      have hle : 256 ^ (bytes.take 8).length ≤ 256 ^ 8 :=
        Nat.pow_le_pow_right (by omega) hlen
      show leValue (bytes.take 8) ≤ 256 ^ 8 - 1
      omega
    · exact ih _ p hp

/-- Ids that were read are written as the bytes they were read from. -/
theorem flatMap_readPeers (count : Nat) (bytes : List UInt8) (h : count * 8 ≤ bytes.length) :
    (readPeers count bytes).flatMap (leBytes 8) = bytes.take (count * 8) := by
  induction count generalizing bytes with
  | zero => simp [readPeers]
  | succ count ih =>
    have hlen : (bytes.take 8).length = 8 := by
      rw [List.length_take]
      omega
    have hhead : leBytes 8 (leValue (bytes.take 8)) = bytes.take 8 := by
      have hwrite := leBytes_leValue (bytes.take 8)
      rwa [hlen] at hwrite
    have htail := ih (bytes.drop 8) (by rw [List.length_drop]; omega)
    rw [readPeers, List.flatMap_cons, hhead, htail,
      show (count + 1) * 8 = 8 + count * 8 by ring, List.take_add]

namespace ConfigChangeEntry

/-- The counts of the header. -/
def oldCount (bytes : List UInt8) : Nat := leValue ((bytes.drop 4).take 4)

def newCount (bytes : List UInt8) : Nat := leValue ((bytes.drop 8).take 4)

/-- How long the payload is by its header. -/
def statedLength (bytes : List UInt8) : Nat :=
  headerLen + oldCount bytes * 8 + newCount bytes * 8

/-- Magic, version and phase are those of a configuration change. -/
structure Recognised (bytes : List UInt8) : Prop where
  header : headerLen ≤ bytes.length
  magic : bytes.getD 0 0 = configChangeMagic
  version : bytes.getD 1 0 = configChangeVersion
  phase : (ConfigChangePhase.ofByte (bytes.getD 2 0)).isSome

/-- Bytes follow the last id. -/
def Trails (bytes : List UInt8) : Prop :=
  Recognised bytes ∧ statedLength bytes < bytes.length

/-- The ids are ids. -/
def Representable (c : ConfigChangeEntry) : Prop :=
  ∀ p, p ∈ c.oldPeers ∨ p ∈ c.newPeers → p ≤ u64Max

/-- The same bytes but for the reserved one, which is written as 0. -/
def Writes (c : ConfigChangeEntry) (bytes : List UInt8) : Prop := bytes.set 3 0 = c.encode

/-- What the ids of a payload are. -/
def bodyOf (phase : ConfigChangePhase) (bytes : List UInt8) : ConfigChangeEntry :=
  { phase := phase
    oldPeers := readPeers (oldCount bytes) (bytes.drop headerLen)
    newPeers := readPeers (newCount bytes) (bytes.drop (headerLen + oldCount bytes * 8)) }

section Decode

variable {bytes : List UInt8} {c : ConfigChangeEntry}

/-- The decoder accepts what it recognises and finds long enough. -/
theorem decode_eq_some_iff :
    decode bytes = some c ↔ Recognised bytes ∧ statedLength bytes ≤ bytes.length ∧
      ∃ phase, ConfigChangePhase.ofByte (bytes.getD 2 0) = some phase ∧
        c = bodyOf phase bytes := by
  have hbody : ∀ phase, decodeBody phase bytes = some c ↔
      statedLength bytes ≤ bytes.length ∧ c = bodyOf phase bytes := by
    intro phase
    unfold decodeBody
    change (if bytes.length < statedLength bytes then none else some (bodyOf phase bytes)) =
      some c ↔ _
    split
    · rename_i hshort
      exact iff_of_false nofun fun h => absurd h.1 (Nat.not_le.mpr hshort)
    · rename_i hlong
      constructor
      · intro h
        exact ⟨Nat.le_of_not_lt hlong, (Option.some.inj h).symm⟩
      · intro h
        exact congrArg some h.2.symm
  unfold decode
  constructor
  · intro h
    split at h
    · cases h
    rename_i hlen
    split at h
    · cases h
    rename_i hmagic
    split at h
    · cases h
    rename_i hversion
    obtain ⟨phase, hphase, h⟩ := Option.bind_eq_some_iff.mp h
    obtain ⟨hlong, hc⟩ := (hbody phase).mp h
    refine ⟨⟨Nat.le_of_not_lt hlen, not_not.mp hmagic, not_not.mp hversion, ?_⟩, hlong, phase,
      hphase, hc⟩
    rw [hphase]
    rfl
  · rintro ⟨hrec, hlong, phase, hphase, hc⟩
    rw [if_neg (Nat.not_lt.mpr hrec.header), if_neg (not_not.mpr hrec.magic),
      if_neg (not_not.mpr hrec.version), hphase]
    exact (hbody phase).mpr ⟨hlong, hc⟩

/-- What is decoded has ids, and as many as its counts say. -/
theorem bodyOf_spec (phase : ConfigChangePhase) (bytes : List UInt8) :
    (bodyOf phase bytes).Representable ∧
      (bodyOf phase bytes).encode.length = statedLength bytes := by
  constructor
  · rintro p (hp | hp)
    · exact readPeers_le _ _ p hp
    · exact readPeers_le _ _ p hp
  · rw [length_encode]
    unfold bodyOf statedLength
    dsimp only
    rw [length_readPeers, length_readPeers]

theorem toByte_of_ofByte {b : UInt8} {phase : ConfigChangePhase}
    (h : ConfigChangePhase.ofByte b = some phase) : phase.toByte = b := by
  unfold ConfigChangePhase.ofByte at h
  split at h
  · rename_i hb
    cases h
    exact hb.symm
  split at h
  · rename_i hb
    cases h
    exact hb.symm
  split at h
  · rename_i hb
    cases h
    exact hb.symm
  split at h
  · rename_i hb
    cases h
    exact hb.symm
  · cases h

/-- A payload of the stated length is the encoding of what it decodes to. -/
theorem writes_of_decode (h : decode bytes = some c)
    (hlen : bytes.length ≤ statedLength bytes) : c.Writes bytes := by
  obtain ⟨hrec, hlong, phase, hphase, rfl⟩ := decode_eq_some_iff.mp h
  have hheader : 12 ≤ bytes.length := hrec.header
  have htotal : bytes.length = 12 + oldCount bytes * 8 + newCount bytes * 8 :=
    Nat.le_antisymm hlen hlong
  -- the first four bytes, the two counts, and the ids
  have hold : (bodyOf phase bytes).oldPeers.flatMap (leBytes 8) =
      (bytes.drop 12).take (oldCount bytes * 8) :=
    flatMap_readPeers _ _ (by rw [List.length_drop, show headerLen = 12 from rfl]; omega)
  have hnew : (bodyOf phase bytes).newPeers.flatMap (leBytes 8) =
      (bytes.drop (12 + oldCount bytes * 8)).take (newCount bytes * 8) :=
    flatMap_readPeers _ _ (by rw [List.length_drop, show headerLen = 12 from rfl]; omega)
  have hnewAll : (bytes.drop (12 + oldCount bytes * 8)).take (newCount bytes * 8) =
      bytes.drop (12 + oldCount bytes * 8) :=
    List.take_of_length_le (by rw [List.length_drop]; omega)
  have hcounts : ∀ i, i + 4 ≤ bytes.length →
      leBytes 4 (leValue ((bytes.drop i).take 4)) = (bytes.drop i).take 4 := by
    intro i hi
    have hwrite := leBytes_leValue ((bytes.drop i).take 4)
    have hfour : ((bytes.drop i).take 4).length = 4 := by
      rw [List.length_take, List.length_drop]
      omega
    rwa [hfour] at hwrite
  have holdLen : leBytes 4 (bodyOf phase bytes).oldPeers.length = (bytes.drop 4).take 4 := by
    rw [show (bodyOf phase bytes).oldPeers.length = oldCount bytes from length_readPeers _ _]
    exact hcounts 4 (by omega)
  have hnewLen : leBytes 4 (bodyOf phase bytes).newPeers.length = (bytes.drop 8).take 4 := by
    rw [show (bodyOf phase bytes).newPeers.length = newCount bytes from length_readPeers _ _]
    exact hcounts 8 (by omega)
  have hfront : (bytes.set 3 0).take 4 =
      [configChangeMagic, configChangeVersion, phase.toByte, 0] := by
    rw [← hrec.magic, ← hrec.version, toByte_of_ofByte hphase]
    match bytes, hheader with
    | _ :: _ :: _ :: _ :: _, _ => rfl
  have hback : (bytes.set 3 0).drop 4 = bytes.drop 4 := by
    match bytes, hheader with
    | _ :: _ :: _ :: _ :: _, _ => rfl
  unfold Writes encode
  rw [holdLen, hnewLen, hold, hnew, hnewAll, ← List.take_append_drop 4 (bytes.set 3 0), hfront,
    hback]
  have hsplit : bytes.drop 4 = (bytes.drop 4).take 4 ++ ((bytes.drop 8).take 4 ++
      ((bytes.drop 12).take (oldCount bytes * 8) ++
        bytes.drop (12 + oldCount bytes * 8))) := by
    rw [← List.drop_drop, List.take_append_drop]
    rw [show bytes.drop 12 = (bytes.drop 8).drop 4 by rw [List.drop_drop],
      List.take_append_drop]
    rw [show bytes.drop 8 = (bytes.drop 4).drop 4 by rw [List.drop_drop],
      List.take_append_drop]
  rw [List.append_assoc, List.append_assoc, List.append_assoc]
  exact congrArg _ hsplit

/-! ### The reserved byte -/

theorem drop_set_pad (bytes : List UInt8) (b : UInt8) {i : Nat} (hi : 4 ≤ i) :
    (bytes.set 3 b).drop i = bytes.drop i :=
  List.drop_set_of_lt (by omega)

theorem counts_set_pad (bytes : List UInt8) (b : UInt8) :
    oldCount (bytes.set 3 b) = oldCount bytes ∧ newCount (bytes.set 3 b) = newCount bytes := by
  unfold oldCount newCount
  rw [drop_set_pad bytes b le_rfl, drop_set_pad bytes b (show 4 ≤ 8 by omega)]
  exact ⟨rfl, rfl⟩

theorem statedLength_set_pad (bytes : List UInt8) (b : UInt8) :
    statedLength (bytes.set 3 b) = statedLength bytes := by
  unfold statedLength
  rw [(counts_set_pad bytes b).1, (counts_set_pad bytes b).2]

theorem getD_set_pad (bytes : List UInt8) (b : UInt8) {i : Nat} (hi : i ≠ 3) :
    (bytes.set 3 b).getD i 0 = bytes.getD i 0 := by
  rw [List.getD_eq_getElem?_getD, List.getD_eq_getElem?_getD, List.getElem?_set_ne hi.symm]

theorem recognised_set_pad (bytes : List UInt8) (b : UInt8) :
    Recognised (bytes.set 3 b) ↔ Recognised bytes := by
  have hzero := getD_set_pad bytes b (show 0 ≠ 3 by omega)
  have hone := getD_set_pad bytes b (show 1 ≠ 3 by omega)
  have htwo := getD_set_pad bytes b (show 2 ≠ 3 by omega)
  have hlen : (bytes.set 3 b).length = bytes.length := List.length_set
  constructor
  · rintro ⟨hheader, hmagic, hversion, hphase⟩
    exact ⟨hlen ▸ hheader, hzero ▸ hmagic, hone ▸ hversion, htwo ▸ hphase⟩
  · rintro ⟨hheader, hmagic, hversion, hphase⟩
    exact ⟨hlen.symm ▸ hheader, hzero.trans hmagic, hone.trans hversion, htwo.symm ▸ hphase⟩

theorem trails_set_pad (bytes : List UInt8) (b : UInt8) :
    Trails (bytes.set 3 b) ↔ Trails bytes := by
  unfold Trails
  rw [recognised_set_pad, statedLength_set_pad, List.length_set]

theorem decode_set_pad (bytes : List UInt8) (b : UInt8) :
    decode (bytes.set 3 b) = decode bytes := by
  have hbody : ∀ phase, bodyOf phase (bytes.set 3 b) = bodyOf phase bytes := by
    intro phase
    unfold bodyOf
    rw [(counts_set_pad bytes b).1, (counts_set_pad bytes b).2,
      drop_set_pad bytes b (show 4 ≤ headerLen by decide),
      drop_set_pad bytes b (show 4 ≤ headerLen + oldCount bytes * 8 by unfold headerLen; omega)]
  refine Option.ext fun c => ?_
  show decode (bytes.set 3 b) = some c ↔ decode bytes = some c
  rw [decode_eq_some_iff, decode_eq_some_iff, recognised_set_pad, statedLength_set_pad,
    List.length_set, getD_set_pad bytes b (show 2 ≠ 3 by omega)]
  simp only [hbody]

/-! ### Encodings -/

theorem recognised_encode (c : ConfigChangeEntry) : Recognised c.encode where
  header := by
    rw [length_encode]
    omega
  magic := rfl
  version := rfl
  phase := by
    show (ConfigChangePhase.ofByte c.phase.toByte).isSome
    rw [ofByte_toByte]
    rfl

/-- The counts of an encoding are those of the entry, cut to 32 bits. -/
theorem statedLength_encode (c : ConfigChangeEntry) :
    statedLength c.encode = headerLen + c.oldPeers.length % 2 ^ 32 * 8 +
      c.newPeers.length % 2 ^ 32 * 8 := by
  have hold : oldCount c.encode = c.oldPeers.length % 2 ^ 32 := by
    unfold oldCount
    rw [drop_four_encode, List.take_left' (length_leBytes 4 _), leValue_leBytes_mod,
      show (256 : Nat) ^ 4 = 2 ^ 32 from rfl]
  have hnew : newCount c.encode = c.newPeers.length % 2 ^ 32 := by
    unfold newCount
    rw [drop_eight_encode, List.take_left' (length_leBytes 4 _), leValue_leBytes_mod,
      show (256 : Nat) ^ 4 = 2 ^ 32 from rfl]
  unfold statedLength
  rw [hold, hnew]

/-- An entry that is too long for its counts is written with bytes behind them. -/
theorem fits_of_not_trails (hid : c.Representable) (h : ¬ Trails c.encode) : c.Fits := by
  have hlen : c.encode.length ≤ statedLength c.encode :=
    Nat.le_of_not_lt fun hlt => h ⟨recognised_encode c, hlt⟩
  rw [length_encode, statedLength_encode] at hlen
  have hold := Nat.mod_le c.oldPeers.length (2 ^ 32)
  have hnew := Nat.mod_le c.newPeers.length (2 ^ 32)
  have hold' := Nat.mod_lt c.oldPeers.length (show 0 < 2 ^ 32 by decide)
  have hnew' := Nat.mod_lt c.newPeers.length (show 0 < 2 ^ 32 by decide)
  exact ⟨by omega, by omega, fun p hp => hid p (.inl hp), fun p hp => hid p (.inr hp)⟩

/-- A payload is read as the entry that writes it, and as no other, exactly when
nothing trails. -/
theorem decode_exact_iff (bytes : List UInt8) :
    (∀ c : ConfigChangeEntry, c.Representable → (decode bytes = some c ↔ c.Writes bytes)) ↔
      ¬ Trails bytes := by
  constructor
  · rintro h ⟨hrec, hlong⟩
    obtain ⟨phase, hphase⟩ := Option.isSome_iff_exists.mp hrec.phase
    obtain ⟨hid, hlen⟩ := bodyOf_spec phase bytes
    have hdec : decode bytes = some (bodyOf phase bytes) :=
      decode_eq_some_iff.mpr ⟨hrec, hlong.le, phase, hphase, rfl⟩
    have hwrites : bytes.set 3 0 = (bodyOf phase bytes).encode := (h _ hid).mp hdec
    have hsame := congrArg List.length hwrites
    rw [List.length_set, hlen] at hsame
    omega
  · intro h c hid
    constructor
    · intro hdec
      refine writes_of_decode hdec (Nat.le_of_not_lt fun hlt => h ⟨?_, hlt⟩)
      exact (decode_eq_some_iff.mp hdec).1
    · intro hwrites
      have hfits : c.Fits := by
        refine fits_of_not_trails hid ?_
        rw [← show bytes.set 3 0 = c.encode from hwrites, trails_set_pad]
        exact h
      rw [← decode_set_pad bytes 0, show bytes.set 3 0 = c.encode from hwrites]
      exact decode_encode hfits

end Decode

end ConfigChangeEntry

/-! ## What is never a configuration change -/

theorem decode_of_isNoopEntry {payload : List UInt8} (h : isNoopEntry payload = true) :
    ConfigChangeEntry.decode payload = none := by
  rw [show payload = noopEntry from eq_of_beq h]
  decide

theorem decode_of_admitted {payload : List UInt8} (h : rejectReservedPrefix payload = .ok ()) :
    ConfigChangeEntry.decode payload = none := by
  unfold rejectReservedPrefix at h
  split at h
  · cases h
  split at h
  · cases h
  rename_i hfirst
  rw [Option.eq_none_iff_forall_ne_some]
  intro c hdec
  have hmagic := (ConfigChangeEntry.decode_eq_some_iff.mp hdec).1.magic
  cases payload with
  | nil => exact absurd hmagic (by decide)
  | cons b rest => exact hfirst (congrArg some hmagic)

/-- The grammar of configuration entries. -/
theorem config_entry_grammar (c : ConfigChangeEntry) (bytes : List UInt8) :
    (c.Fits → ConfigChangeEntry.decode c.encode = some c) ∧
    ((∀ c : ConfigChangeEntry, c.Representable →
        (ConfigChangeEntry.decode bytes = some c ↔ c.Writes bytes)) ↔
      ¬ ConfigChangeEntry.Trails bytes) ∧
    (isNoopEntry bytes = true → ConfigChangeEntry.decode bytes = none) ∧
    (rejectReservedPrefix bytes = .ok () → ConfigChangeEntry.decode bytes = none) :=
  ⟨ConfigChangeEntry.decode_encode, ConfigChangeEntry.decode_exact_iff bytes,
    decode_of_isNoopEntry, decode_of_admitted⟩

/-- A voter change over the wire, read back. -/
theorem config_entry_grammar_final :
    ConfigChangeEntry.decode (ConfigChangeEntry.mk .final [] [1, 2]).encode =
      some ⟨.final, [], [1, 2]⟩ ∧ rejectReservedPrefix [7] = .ok () ∧
      ConfigChangeEntry.decode [7] = none := by
  refine ⟨(config_entry_grammar _ [7]).1 ⟨by decide, by decide, by decide, by decide⟩, ?_,
    (config_entry_grammar ⟨.final, [], [1, 2]⟩ [7]).2.2.2 ?_⟩
  · decide +kernel
  · decide +kernel

/-- A final configuration with a byte behind it is taken for the configuration. -/
theorem config_entry_trailing_byte :
    ConfigChangeEntry.decode ((ConfigChangeEntry.mk .final [] [1, 2]).encode ++ [9]) =
        some ⟨.final, [], [1, 2]⟩ ∧
      ¬ (ConfigChangeEntry.mk .final [] [1, 2]).Writes
        ((ConfigChangeEntry.mk .final [] [1, 2]).encode ++ [9]) := by
  refine ⟨by decide +kernel, fun h => ?_⟩
  have hlen := congrArg List.length h
  revert hlen
  decide +kernel

end ArbitroRaft
