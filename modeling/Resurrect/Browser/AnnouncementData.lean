import Resurrect.Ethereum.Beacon
import Resurrect.Foundation.Abi

/-! # Announcement data in the browser client

`decodeAnnouncementData` reads the unindexed part of a `PeerAnnounced` log by
slicing its hex text. It accepts the one canonical encoding of an expiry and a
record, in either letter case, and nothing else.
-/

namespace Resurrect.Browser

open Hex

def uint64Max : Nat := 2 ^ 64 - 1

/-- The lengths of texts are exact as numbers, so that rounding up to words is integer division. -/
def decodeAnnouncementData (data : String) : Except String (Nat × String) :=
  let encoded := data.toList.drop 2
  if encoded.length < 192 ∨ encoded.length % 64 ≠ 0 ∨ ¬ encoded.all isDigit then
    .error "malformed announcement data"
  else
    let validUntil := number (encoded.extract 0 64)
    if uint64Max < validUntil then .error "validUntil exceeds uint64"
    else
      let offset := number (encoded.extract 64 128)
      if offset ≠ 64 then .error "non-canonical peer record offset"
      else
        let length := number (encoded.extract 128 192)
        let availableBytes := (encoded.length - 192) / 2
        if availableBytes < length then .error "truncated peer record"
        else
          let payloadHexLength := length * 2
          let payloadEnd := 192 + payloadHexLength
          let expectedEnd := 192 + (length + 31) / 32 * 64
          if encoded.length ≠ expectedEnd ∨ (encoded.drop payloadEnd).any (· != '0') then
            .error "non-canonical peer record padding"
          else .ok (validUntil, hexText (encoded.extract 192 payloadEnd))

/-- What a text must look like to be decoded, its record `length` bytes long. -/
structure Canonical (encoded : List Char) (validUntil length : Nat) : Prop where
  digits : encoded.all isDigit
  size : encoded.length = 192 + (length + 31) / 32 * 64
  validUntil_eq : number (encoded.extract 0 64) = validUntil
  validUntil_le : validUntil ≤ uint64Max
  offset_eq : number (encoded.extract 64 128) = 64
  length_eq : number (encoded.extract 128 192) = length
  padded : ∀ c ∈ encoded.drop (192 + length * 2), c = '0'

theorem decodeAnnouncementData_eq_ok {encoded : List Char} {validUntil : Nat} {record : String} :
    decodeAnnouncementData (hexText encoded) = .ok (validUntil, record) ↔
      ∃ length, Canonical encoded validUntil length ∧
        record = hexText (encoded.extract 192 (192 + length * 2)) := by
  rw [decodeAnnouncementData, drop_hexText]
  constructor
  · intro h
    dsimp only at h
    split at h
    · cases h
    split at h
    · cases h
    split at h
    · cases h
    split at h
    · cases h
    split at h
    · cases h
    rename_i hShape hValid hOffset hAvailable hPadding
    cases h
    refine ⟨_, ⟨?_, ?_, rfl, not_lt.mp hValid, not_not.mp hOffset, rfl, ?_⟩, rfl⟩
    · simpa using (not_or.mp (not_or.mp hShape).2).2
    · exact not_not.mp (not_or.mp hPadding).1
    · simpa using (not_or.mp hPadding).2
  · rintro ⟨length, h, rfl⟩
    have hSize := h.size
    have hShape : ¬ (encoded.length < 192 ∨ encoded.length % 64 ≠ 0 ∨ ¬ encoded.all isDigit) :=
      not_or.mpr ⟨by omega, not_or.mpr ⟨by omega, not_not.mpr h.digits⟩⟩
    have hPadding : ¬ (encoded.length ≠ 192 + (length + 31) / 32 * 64 ∨
        (encoded.drop (192 + length * 2)).any (· != '0')) := by
      rw [h.size]
      simpa using h.padded
    dsimp only
    rw [if_neg hShape, h.validUntil_eq, if_neg (not_lt.mpr h.validUntil_le), h.offset_eq, if_neg (not_not.mpr rfl),
      h.length_eq, if_neg (by omega), if_neg hPadding]

section Spelling

variable {encoded : List Char} {validUntil length : Nat} {record : Bytes}

theorem extract_append_drop (encoded : List Char) {start stop : Nat} (h : start ≤ stop) :
    encoded.extract start stop ++ encoded.drop stop = encoded.drop start := by
  have hDrop : encoded.drop stop = (encoded.drop start).drop (stop - start) := by
    rw [List.drop_drop, Nat.add_sub_cancel' h]
  rw [hDrop, List.extract_eq_take_drop, List.take_append_drop]

theorem all_extract (h : encoded.all isDigit) (start stop : Nat) : (encoded.extract start stop).all isDigit := by
  rw [List.all_eq_true] at h ⊢
  intro c hc
  exact h c (List.mem_of_mem_drop (List.mem_of_mem_take hc))

theorem lower_field (h : encoded.all isDigit) {start n : Nat} (hStop : start + 64 ≤ encoded.length)
    (hField : number (encoded.extract start (start + 64)) = n) :
    (encoded.extract start (start + 64)).map Char.toLower = Hex.ofNat 64 n := by
  have hLength : (encoded.extract start (start + 64)).length = 64 := by
    rw [List.extract_eq_take_drop, List.length_take, List.length_drop]
    omega
  rw [map_toLower_eq_ofNat (all_extract h start _), hLength, hField]

theorem Canonical.lower_padding (h : Canonical encoded validUntil length) :
    (encoded.drop (192 + length * 2)).map Char.toLower = spell (List.replicate (Abi.padding length) 0) := by
  have hLength : (encoded.drop (192 + length * 2)).length = Abi.padding length * 2 := by
    rw [List.length_drop, h.size, Abi.padding]
    omega
  rw [List.eq_replicate_of_mem h.padded, hLength, List.map_replicate, spell_replicate_zero]
  rfl

/-- Up to letter case, a canonical text spells the encoding of what is read from it. -/
theorem Canonical.lower_eq (h : Canonical encoded validUntil record.length)
    (hRecord : bytes? (encoded.extract 192 (192 + record.length * 2)) = some record) :
    encoded.map Char.toLower = spell (Abi.word validUntil ++ Abi.word 64 ++ Abi.word record.length ++ record ++
      List.replicate (Abi.padding record.length) 0) := by
  have hSize : 192 ≤ encoded.length := by
    rw [h.size]
    omega
  have hSplit : encoded = encoded.extract 0 64 ++ (encoded.extract 64 128 ++ (encoded.extract 128 192 ++
      (encoded.extract 192 (192 + record.length * 2) ++ encoded.drop (192 + record.length * 2)))) := by
    rw [extract_append_drop _ (by omega), extract_append_drop _ (by omega), extract_append_drop _ (by omega),
      extract_append_drop _ (by omega), List.drop_zero]
  rw [hSplit, List.map_append, List.map_append, List.map_append, List.map_append,
    lower_field h.digits (by omega) h.validUntil_eq, lower_field h.digits (by omega) h.offset_eq,
    lower_field h.digits (by omega) h.length_eq, bytes?_eq_some.mp hRecord, h.lower_padding]
  simp only [spell_append, Abi.spell_word, List.append_assoc]

theorem extract_eq_field {front field back : List Char} {start stop : Nat} (hStart : front.length = start)
    (hStop : start + field.length = stop) (h : encoded.map Char.toLower = front ++ (field ++ back)) :
    (encoded.extract start stop).map Char.toLower = field := by
  subst hStart hStop
  rw [List.extract_eq_take_drop, List.map_take, List.map_drop, h, List.drop_left, Nat.add_sub_cancel_left, List.take_left]

theorem number_extract_eq {front back : List Char} {start stop n : Nat} (hStart : front.length = start)
    (hStop : start + 64 = stop) (hn : n < Abi.wordLimit)
    (h : encoded.map Char.toLower = front ++ (Hex.ofNat 64 n ++ back)) : number (encoded.extract start stop) = n := by
  have hWord : n < 16 ^ 64 := hn
  rw [← number_map_toLower, extract_eq_field hStart (by rw [length_ofNat, hStop]) h, number_ofNat_of_lt hWord]

/-- A text that, up to letter case, spells an encoding is canonical. -/
theorem canonical_of_lower_eq {raw : Bytes} (hValid : validUntil ≤ uint64Max)
    (hRaw : Abi.encodeUintBytes validUntil record = some raw) (h : encoded.map Char.toLower = spell raw) :
    Canonical encoded validUntil record.length ∧
      bytes? (encoded.extract 192 (192 + record.length * 2)) = some record := by
  have hSize := congrArg List.length h
  rw [List.length_map, length_spell, Abi.length_encodeUintBytes hRaw] at hSize
  have hDigits : encoded.all isDigit := by
    rw [← all_isDigit_map_toLower, h]
    exact all_isDigit_spell raw
  have hFits := (Abi.encodeUintBytes_eq_some.mp hRaw).1
  have hEncoding := (Abi.encodeUintBytes_eq_some.mp hRaw).2
  have hSpelled : encoded.map Char.toLower = [] ++ (Hex.ofNat 64 validUntil ++ (Hex.ofNat 64 64 ++
      (Hex.ofNat 64 record.length ++ (spell record ++ spell (List.replicate (Abi.padding record.length) 0))))) := by
    rw [h, hEncoding]
    simp only [spell_append, Abi.spell_word, List.append_assoc, List.nil_append]
  have hOffset := hSpelled
  rw [List.nil_append] at hOffset
  have hLength := hOffset
  rw [← List.append_assoc] at hLength
  have hRecord := hLength
  rw [← List.append_assoc] at hRecord
  have hPadding := hRecord
  rw [← List.append_assoc] at hPadding
  refine ⟨⟨hDigits, by omega, ?_, hValid, ?_, ?_, ?_⟩, ?_⟩
  · exact number_extract_eq rfl rfl (hValid.trans_lt (by decide)) hSpelled
  · exact number_extract_eq (length_ofNat 64 _) rfl (by decide) hOffset
  · exact number_extract_eq (by rw [List.length_append, length_ofNat, length_ofNat]) rfl hFits hLength
  · have hDropped : (encoded.drop (192 + record.length * 2)).map Char.toLower =
        spell (List.replicate (Abi.padding record.length) 0) := by
      rw [List.map_drop, hPadding]
      apply List.drop_left'
      simp only [List.length_append, length_ofNat, length_spell]
    rw [spell_replicate_zero] at hDropped
    intro c hc
    have hLower := List.mem_map_of_mem (f := Char.toLower) hc
    rw [hDropped] at hLower
    exact toLower_eq_zero.mp (List.eq_of_mem_replicate hLower)
  · apply bytes?_eq_some.mpr
    apply extract_eq_field _ _ hRecord
    · simp only [List.length_append, length_ofNat]
    · rw [length_spell]

end Spelling

/-- A decoded expiry and record, the record as a text that spells its bytes. -/
structure Reads (decoded : Nat × String) (validUntil : UInt64) (peerRecord : Bytes) : Prop where
  validUntil_eq : decoded.1 = validUntil.toNat
  record_eq : ∃ digits, decoded.2 = hexText digits ∧ bytes? digits = some peerRecord

theorem Canonical.exists_reads {encoded : List Char} {validUntil length : Nat}
    (h : Canonical encoded validUntil length) : ∃ (value : UInt64) (record : Bytes), value.toNat = validUntil ∧ record.length = length ∧
      bytes? (encoded.extract 192 (192 + length * 2)) = some record := by
  have hSize := h.size
  have hLength : (encoded.extract 192 (192 + length * 2)).length = length * 2 := by
    rw [List.extract_eq_take_drop, List.length_take, List.length_drop]
    omega
  obtain ⟨record, hRecord, hRecordLength⟩ := exists_bytes (all_extract h.digits 192 (192 + length * 2)) (by omega)
  have hValid : validUntil < 2 ^ 64 := Nat.lt_of_le_pred (by decide) h.validUntil_le
  exact ⟨UInt64.ofNat validUntil, record, UInt64.toNat_ofNat_of_lt' hValid, by omega, hRecord⟩

theorem decode_encoded {encoded : List Char} {validUntil : UInt64} {peerRecord raw : Bytes}
    (hRaw : Abi.encodeUintBytes validUntil.toNat peerRecord = some raw) (hLower : encoded.map Char.toLower = spell raw) :
    ∃ decoded, decodeAnnouncementData (hexText encoded) = .ok decoded ∧ Reads decoded validUntil peerRecord := by
  have hValid : validUntil.toNat ≤ uint64Max := Nat.le_pred_of_lt validUntil.toNat_lt
  obtain ⟨hCanonical, hBytes⟩ := canonical_of_lower_eq hValid hRaw hLower
  exact ⟨_, decodeAnnouncementData_eq_ok.mpr ⟨_, hCanonical, rfl⟩, rfl, _, rfl, hBytes⟩

/-- The unindexed part of the log of an event. -/
def eventData (event : Ethereum.ResurrectBeaconV1.PeerAnnounced) : Option Bytes :=
  Abi.encodeUintBytes event.validUntil.toNat event.peerRecord

theorem eventData_emitted {blockTimestamp : Core.U256} {ns : Core.Namespace} {recordType ttl : UInt32}
    {peerRecord : Bytes} {event : Ethereum.ResurrectBeaconV1.PeerAnnounced}
    (h : Ethereum.ResurrectBeaconV1.announce blockTimestamp ns recordType ttl peerRecord = .ok event) :
    ∃ raw, eventData event = some raw ∧ Abi.encodeUintBytes event.validUntil.toNat peerRecord = some raw := by
  obtain ⟨hEmits, hEvent⟩ := Ethereum.ResurrectBeaconV1.announce_eq_ok.mp h
  have hRecord : event.peerRecord = peerRecord := by rw [hEvent]
  have hFits : peerRecord.length < Abi.wordLimit := hEmits.record_le.trans_lt (by decide)
  have hRaw : Abi.encodeUintBytes event.validUntil.toNat peerRecord = some _ :=
    Abi.encodeUintBytes_eq_some.mpr ⟨hFits, rfl⟩
  rw [eventData, hRecord]
  exact ⟨_, hRaw, hRaw⟩

/-- Decoding is exact: it yields an expiry and a record, and yields these just where the text is, up to letter case,
the canonical encoding of them. So it reads back whatever the beacon emits. -/
theorem decodeAnnouncementData_exact (encoded : List Char) :
    (∀ decoded, decodeAnnouncementData (hexText encoded) = .ok decoded →
      ∃ validUntil peerRecord, Reads decoded validUntil peerRecord) ∧
    (∀ (validUntil : UInt64) (peerRecord : Bytes),
      (∃ decoded, decodeAnnouncementData (hexText encoded) = .ok decoded ∧ Reads decoded validUntil peerRecord) ↔
        ∃ raw, Abi.encodeUintBytes validUntil.toNat peerRecord = some raw ∧ encoded.map Char.toLower = spell raw) ∧
    ∀ blockTimestamp ns recordType ttl peerRecord event,
      Ethereum.ResurrectBeaconV1.announce blockTimestamp ns recordType ttl peerRecord = .ok event →
        ∃ raw, eventData event = some raw ∧ (encoded.map Char.toLower = spell raw → ∃ decoded,
          decodeAnnouncementData (hexText encoded) = .ok decoded ∧ Reads decoded event.validUntil peerRecord) := by
  refine ⟨?_, ?_, ?_⟩
  · rintro ⟨validUntil, record⟩ h
    obtain ⟨length, hCanonical, rfl⟩ := decodeAnnouncementData_eq_ok.mp h
    obtain ⟨value, bytes, hValue, -, hBytes⟩ := hCanonical.exists_reads
    exact ⟨value, bytes, hValue.symm, _, rfl, hBytes⟩
  · intro validUntil peerRecord
    constructor
    · rintro ⟨⟨decodedUntil, record⟩, h, hReads⟩
      obtain ⟨length, hCanonical, rfl⟩ := decodeAnnouncementData_eq_ok.mp h
      obtain rfl : decodedUntil = validUntil.toNat := hReads.validUntil_eq
      obtain ⟨digits, hText, hBytes⟩ := hReads.record_eq
      obtain rfl := hexText_injective hText
      obtain ⟨value, bytes, -, hLength, hBytes'⟩ := hCanonical.exists_reads
      obtain rfl := Option.some.inj (hBytes'.symm.trans hBytes)
      subst hLength
      have hFits : bytes.length < Abi.wordLimit := by
        rw [← hCanonical.length_eq]
        exact (number_lt (all_extract hCanonical.digits _ _)).trans_le (Nat.pow_le_pow_right (by decide)
          (List.length_take_le _ _))
      exact ⟨_, Abi.encodeUintBytes_eq_some.mpr ⟨hFits, rfl⟩, hCanonical.lower_eq hBytes⟩
    · rintro ⟨raw, hRaw, hLower⟩
      exact decode_encoded hRaw hLower
  · intro blockTimestamp ns recordType ttl peerRecord event hEmitted
    obtain ⟨raw, hData, hRaw⟩ := eventData_emitted hEmitted
    exact ⟨raw, hData, decode_encoded hRaw⟩

end Resurrect.Browser
