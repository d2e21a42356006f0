import Resurrect.Foundation.Varint

/-! # The protobuf wire format

A message is a sequence of fields, each a key (tag and wire type) and a payload
whose extent the wire type alone fixes. `readFields` splits a buffer into its
fields; what a message does with a field, known or unknown, is left to a merge
function. Groups are skipped, to a bounded depth.
-/

namespace Resurrect.Wire

inductive WireType where
  | varint
  | sixtyFourBit
  | lengthDelimited
  | startGroup
  | endGroup
  | thirtyTwoBit
  deriving DecidableEq, Repr

def WireType.toNat : WireType → Nat
  | .varint => 0
  | .sixtyFourBit => 1
  | .lengthDelimited => 2
  | .startGroup => 3
  | .endGroup => 4
  | .thirtyTwoBit => 5

def WireType.ofNat? : Nat → Option WireType
  | 0 => some .varint
  | 1 => some .sixtyFourBit
  | 2 => some .lengthDelimited
  | 3 => some .startGroup
  | 4 => some .endGroup
  | 5 => some .thirtyTwoBit
  | _ => none

theorem WireType.ofNat?_toNat (wireType : WireType) :
    WireType.ofNat? wireType.toNat = some wireType := by cases wireType <;> rfl

theorem WireType.toNat_lt (wireType : WireType) : wireType.toNat < 8 := by
  cases wireType <;> decide

inductive DecodeError where
  | invalidVarint
  | invalidKey
  | invalidWireType
  | invalidTag
  | unexpectedWireType
  | bufferUnderflow
  | unexpectedEndGroup
  | recursionLimit
  deriving DecidableEq, Repr

/-- The payload of one field as it stands on the wire. -/
inductive Value where
  | varint (value : Nat)
  | sixtyFourBit (raw : Bytes)
  | lengthDelimited (raw : Bytes)
  | group
  | thirtyTwoBit (raw : Bytes)
  deriving DecidableEq, Repr

/-- What a `bytes`, `string` or message field takes. -/
def Value.delimited : Value → Except DecodeError Bytes
  | .lengthDelimited raw => .ok raw
  | _ => .error .unexpectedWireType

theorem Value.delimited_eq_ok {value : Value} {raw : Bytes} (h : value.delimited = .ok raw) :
    value = .lengthDelimited raw := by
  cases value with
  | lengthDelimited other => exact congrArg _ (Except.ok.inj h)
  | _ => cases h

def Value.integer : Value → Except DecodeError Nat
  | .varint value => .ok value
  | _ => .error .unexpectedWireType

structure Field where
  tag : Nat
  value : Value
  deriving DecidableEq, Repr

/-- What is left of `buf` after a read that consumed something. -/
abbrev Shorter (buf : Bytes) := {rest : Bytes // rest.length < buf.length}

abbrev NoLonger (buf : Bytes) := {rest : Bytes // rest.length ≤ buf.length}

def readVarint (buf : Bytes) : Except DecodeError (Nat × Shorter buf) :=
  match h : Varint.read buf with
  | some (value, rest) => .ok (value, ⟨rest, Varint.length_read h⟩)
  | none => .error .invalidVarint

def readKey (buf : Bytes) : Except DecodeError (Nat × WireType × Shorter buf) :=
  match readVarint buf with
  | .error error => .error error
  | .ok (key, rest) =>
    if 2 ^ 32 ≤ key then .error .invalidKey
    else match WireType.ofNat? (key % 8) with
      | none => .error .invalidWireType
      | some wireType =>
        if key / 8 = 0 then .error .invalidTag else .ok (key / 8, wireType, rest)

def readRaw (size : Nat) (buf : Bytes) : Except DecodeError (Bytes × NoLonger buf) :=
  if size ≤ buf.length then .ok (buf.take size, ⟨buf.drop size, by simp⟩)
  else .error .bufferUnderflow

mutual

/-- The payload after a key; `limit` bounds how deeply groups may nest. -/
def readValue (limit tag : Nat) (wireType : WireType) (buf : Bytes) :
    Except DecodeError (Value × NoLonger buf) :=
  match wireType with
  | .varint =>
    match readVarint buf with
    | .error error => .error error
    | .ok (value, ⟨rest, h⟩) => .ok (.varint value, ⟨rest, h.le⟩)
  | .sixtyFourBit =>
    match readRaw 8 buf with
    | .error error => .error error
    | .ok (raw, rest) => .ok (.sixtyFourBit raw, rest)
  | .thirtyTwoBit =>
    match readRaw 4 buf with
    | .error error => .error error
    | .ok (raw, rest) => .ok (.thirtyTwoBit raw, rest)
  | .lengthDelimited =>
    match readVarint buf with
    | .error error => .error error
    | .ok (size, ⟨body, h⟩) =>
      match readRaw size body with
      | .error error => .error error
      | .ok (raw, ⟨rest, h'⟩) => .ok (.lengthDelimited raw, ⟨rest, h'.trans h.le⟩)
  | .startGroup =>
    match skipGroup (limit - 1) tag buf with
    | .error error => .error error
    | .ok rest => .ok (.group, rest)
  | .endGroup => .error .unexpectedEndGroup
termination_by 2 * buf.length + 1

/-- Skips the fields of an open group, up to and with the end marker of the same tag. -/
def skipGroup (limit tag : Nat) (buf : Bytes) : Except DecodeError (NoLonger buf) :=
  match readKey buf with
  | .error error => .error error
  | .ok (innerTag, wireType, ⟨rest, h⟩) =>
    if wireType = .endGroup then
      if innerTag = tag then .ok ⟨rest, h.le⟩ else .error .unexpectedEndGroup
    else if limit = 0 then .error .recursionLimit
    else match readValue limit innerTag wireType rest with
      | .error error => .error error
      | .ok (_, ⟨rest', h'⟩) =>
        match skipGroup limit tag rest' with
        | .error error => .error error
        | .ok ⟨rest'', h''⟩ => .ok ⟨rest'', (h''.trans h').trans h.le⟩
termination_by 2 * buf.length

end

def readFields (limit : Nat) (buf : Bytes) : Except DecodeError (List Field) :=
  if buf = [] then .ok []
  else match readKey buf with
    | .error error => .error error
    | .ok (tag, wireType, ⟨rest, _h⟩) =>
      match readValue limit tag wireType rest with
      | .error error => .error error
      | .ok (value, ⟨rest', _h'⟩) =>
        match readFields limit rest' with
        | .error error => .error error
        | .ok fields => .ok (⟨tag, value⟩ :: fields)
termination_by buf.length

/-- Reads a message: its fields merged, in order, into the default value. -/
def decode {μ : Type} (limit : Nat) (merge : μ → Field → Except DecodeError μ) (initial : μ)
    (buf : Bytes) : Except DecodeError μ :=
  match readFields limit buf with
  | .error error => .error error
  | .ok fields => fields.foldlM merge initial

def encodeKey (tag : Nat) (wireType : WireType) : Bytes := Varint.encode (tag * 8 + wireType.toNat)

def encodeUint64 (tag value : Nat) : Bytes :=
  if value = 0 then [] else encodeKey tag .varint ++ Varint.encode value

def encodeDelimited (tag : Nat) (raw : Bytes) : Bytes :=
  encodeKey tag .lengthDelimited ++ Varint.encode raw.length ++ raw

/-- A `bytes` field; the default value is left out. -/
def encodeBytes (tag : Nat) (raw : Bytes) : Bytes :=
  if raw = [] then [] else encodeDelimited tag raw

theorem length_encodeDelimited (tag : Nat) (raw : Bytes) :
    raw.length ≤ (encodeDelimited tag raw).length := by
  simp only [encodeDelimited, List.length_append]
  omega

theorem length_encodeBytes (tag : Nat) (raw : Bytes) : raw.length ≤ (encodeBytes tag raw).length := by
  rw [encodeBytes]
  split
  · rename_i h
    simp [h]
  · exact length_encodeDelimited tag raw

theorem length_flatMap_encodeDelimited (tag : Nat) {raws : List Bytes} {raw : Bytes} (h : raw ∈ raws) :
    raw.length ≤ (raws.flatMap (encodeDelimited tag)).length := by
  obtain ⟨before, after, rfl⟩ := List.append_of_mem h
  have hRaw := length_encodeDelimited tag raw
  simp only [List.flatMap_append, List.flatMap_cons, List.length_append]
  omega

theorem readVarint_encode {value : Nat} (rest : Bytes) (h : value < 2 ^ 64) :
    ∃ hRest, readVarint (Varint.encode value ++ rest) = .ok (value, ⟨rest, hRest⟩) := by
  have hRead := Varint.read_encode rest h
  refine ⟨Varint.length_read hRead, ?_⟩
  rw [readVarint]
  split
  · rename_i value' rest' hRead'
    rw [hRead] at hRead'
    cases hRead'
    rfl
  · rename_i hNone
    rw [hRead] at hNone
    cases hNone

theorem readKey_encode {tag : Nat} (wireType : WireType) (rest : Bytes) (hPos : 0 < tag)
    (hTag : tag < 2 ^ 29) : ∃ hRest,
      readKey (encodeKey tag wireType ++ rest) = .ok (tag, wireType, ⟨rest, hRest⟩) := by
  have hType := wireType.toNat_lt
  have hKey : tag * 8 + wireType.toNat < 2 ^ 64 := by omega
  obtain ⟨hRest, hRead⟩ := readVarint_encode rest hKey
  refine ⟨hRest, ?_⟩
  have hMod : (tag * 8 + wireType.toNat) % 8 = wireType.toNat := by omega
  have hDiv : (tag * 8 + wireType.toNat) / 8 = tag := by omega
  simp only [readKey, encodeKey, hRead, hMod, hDiv, WireType.ofNat?_toNat]
  rw [if_neg (by omega), if_neg (by omega)]

theorem readRaw_append (raw rest : Bytes) :
    ∃ hRest, readRaw raw.length (raw ++ rest) = .ok (raw, ⟨rest, hRest⟩) := by
  refine ⟨by simp, ?_⟩
  simp [readRaw]

theorem encodeKey_append_ne_nil (tag : Nat) (wireType : WireType) (rest : Bytes) :
    encodeKey tag wireType ++ rest ≠ [] := by
  intro h
  exact Varint.encode_ne_nil _ (List.append_eq_nil_iff.mp h).1

@[simp] theorem readFields_nil (limit : Nat) : readFields limit [] = .ok [] := by
  rw [readFields, if_pos rfl]

theorem readFields_cons {limit tag : Nat} {wireType : WireType} {value : Value} {body rest : Bytes}
    {fields : List Field} (hPos : 0 < tag) (hTag : tag < 2 ^ 29)
    (hValue : ∃ hRest, readValue limit tag wireType body = .ok (value, ⟨rest, hRest⟩))
    (hFields : readFields limit rest = .ok fields) :
    readFields limit (encodeKey tag wireType ++ body) = .ok (⟨tag, value⟩ :: fields) := by
  obtain ⟨hRest, hKey⟩ := readKey_encode wireType body hPos hTag
  obtain ⟨hRest', hValue⟩ := hValue
  rw [readFields, if_neg (encodeKey_append_ne_nil _ _ _)]
  simp only [hKey, hValue, hFields]

theorem readFields_varint {limit tag value : Nat} {rest : Bytes} {fields : List Field} (hPos : 0 < tag)
    (hTag : tag < 2 ^ 29) (hValue : value < 2 ^ 64) (hFields : readFields limit rest = .ok fields) :
    readFields limit (encodeKey tag .varint ++ (Varint.encode value ++ rest)) =
      .ok (⟨tag, .varint value⟩ :: fields) := by
  obtain ⟨hRest, hRead⟩ := readVarint_encode rest hValue
  refine readFields_cons hPos hTag ⟨hRest.le, ?_⟩ hFields
  simp only [readValue, hRead]

theorem readFields_delimited {limit tag : Nat} {raw rest : Bytes} {fields : List Field} (hPos : 0 < tag)
    (hTag : tag < 2 ^ 29) (hRaw : raw.length < 2 ^ 64) (hFields : readFields limit rest = .ok fields) :
    readFields limit (encodeDelimited tag raw ++ rest) = .ok (⟨tag, .lengthDelimited raw⟩ :: fields) := by
  obtain ⟨hBody, hSize⟩ := readVarint_encode (raw ++ rest) hRaw
  obtain ⟨hRest, hRead⟩ := readRaw_append raw rest
  rw [encodeDelimited, List.append_assoc, List.append_assoc]
  refine readFields_cons hPos hTag ⟨hRest.trans hBody.le, ?_⟩ hFields
  simp only [readValue, hSize, hRead]

/-- The field an encoder writes for a value it may leave out. -/
def uint64Field (tag value : Nat) : List Field := if value = 0 then [] else [⟨tag, .varint value⟩]

def bytesField (tag : Nat) (raw : Bytes) : List Field :=
  if raw = [] then [] else [⟨tag, .lengthDelimited raw⟩]

theorem readFields_encodeUint64 {limit tag value : Nat} {rest : Bytes} {fields : List Field}
    (hPos : 0 < tag) (hTag : tag < 2 ^ 29) (hValue : value < 2 ^ 64)
    (hFields : readFields limit rest = .ok fields) :
    readFields limit (encodeUint64 tag value ++ rest) = .ok (uint64Field tag value ++ fields) := by
  rw [encodeUint64, uint64Field]
  split
  · exact hFields
  · rw [List.append_assoc]
    exact readFields_varint hPos hTag hValue hFields

theorem readFields_encodeBytes {limit tag : Nat} {raw rest : Bytes} {fields : List Field}
    (hPos : 0 < tag) (hTag : tag < 2 ^ 29) (hRaw : raw.length < 2 ^ 64)
    (hFields : readFields limit rest = .ok fields) :
    readFields limit (encodeBytes tag raw ++ rest) = .ok (bytesField tag raw ++ fields) := by
  rw [encodeBytes, bytesField]
  split
  · exact hFields
  · exact readFields_delimited hPos hTag hRaw hFields

theorem readFields_repeated {limit tag : Nat} (raws : List Bytes) (hPos : 0 < tag) (hTag : tag < 2 ^ 29)
    (hRaws : ∀ raw ∈ raws, raw.length < 2 ^ 64) :
    readFields limit (raws.flatMap (encodeDelimited tag)) =
      .ok (raws.map fun raw => ⟨tag, .lengthDelimited raw⟩) := by
  induction raws with
  | nil => simp
  | cons raw raws ih =>
    rw [List.flatMap_cons, List.map_cons]
    exact readFields_delimited hPos hTag (hRaws raw (by simp)) (ih fun r hr => hRaws r (by simp [hr]))

theorem decode_of_readFields {μ : Type} {limit : Nat} {merge : μ → Field → Except DecodeError μ}
    {initial : μ} {buf : Bytes} {fields : List Field} (h : readFields limit buf = .ok fields) :
    decode limit merge initial buf = fields.foldlM merge initial := by
  rw [decode, h]

def Value.Fits (size : Nat) (value : Value) : Prop := ∀ raw, value = .lengthDelimited raw → raw.length ≤ size

theorem fits_readValue {limit tag : Nat} {wireType : WireType} {buf : Bytes} {value : Value} {rest : NoLonger buf}
    (h : readValue limit tag wireType buf = .ok (value, rest)) : value.Fits buf.length := by
  rintro raw rfl
  cases wireType with
  | lengthDelimited =>
    rw [readValue] at h
    split at h
    · cases h
    rename_i size body hBody hSize
    rw [readRaw] at h
    split at h
    · cases h
    rename_i other hRaw
    split at hRaw
    · cases h
      cases hRaw
      have hTake := List.length_take_le size body
      omega
    · cases hRaw
  | endGroup =>
    rw [readValue] at h
    cases h
  | _ =>
    rw [readValue] at h
    split at h <;> cases h

/-- Every payload read from a buffer is a piece of it. -/
theorem fits_readFields {limit : Nat} {buf : Bytes} {fields : List Field} (h : readFields limit buf = .ok fields) :
    ∀ field ∈ fields, field.value.Fits buf.length := by
  induction hLength : buf.length using Nat.strongRecOn generalizing buf fields with
  | ind size ih =>
    rw [readFields] at h
    split at h
    · cases h
      intro field hMem
      cases hMem
    split at h
    · cases h
    rename_i tag wireType rest hRest hKey
    split at h
    · cases h
    rename_i value rest' hRest' hValue
    split at h
    · cases h
    rename_i fields hFields
    obtain rfl := Except.ok.inj h
    intro field hMem raw hRaw
    obtain rfl | hMem := List.mem_cons.mp hMem
    · have hFits := fits_readValue hValue raw hRaw
      omega
    · have hFits := ih rest'.length (by omega) hFields rfl field hMem raw hRaw
      omega

section Merge

variable {μ : Type} {merge : μ → Field → Except DecodeError μ} {initial next : μ} {tag : Nat} {fields : List Field}

/-- A field left out for its default value merges as the field would. -/
theorem foldlM_bytesField {raw : Bytes} (hNil : raw = [] → initial = next)
    (hMerge : merge initial ⟨tag, .lengthDelimited raw⟩ = .ok next) :
    (bytesField tag raw ++ fields).foldlM merge initial = fields.foldlM merge next := by
  rw [bytesField]
  split
  · rename_i h
    rw [hNil h, List.nil_append]
  · rw [List.singleton_append, List.foldlM_cons, hMerge]
    rfl

theorem foldlM_uint64Field {value : Nat} (hZero : value = 0 → initial = next)
    (hMerge : merge initial ⟨tag, .varint value⟩ = .ok next) :
    (uint64Field tag value ++ fields).foldlM merge initial = fields.foldlM merge next := by
  rw [uint64Field]
  split
  · rename_i h
    rw [hZero h, List.nil_append]
  · rw [List.singleton_append, List.foldlM_cons, hMerge]
    rfl

/-- What the fields of a buffer keep, decoding the buffer keeps. -/
theorem decode_invariant (P : μ → Prop) {limit : Nat} {buf : Bytes} {result : μ}
    (h : decode limit merge initial buf = .ok result) (hInitial : P initial)
    (hStep : ∀ value field next, field.value.Fits buf.length → P value → merge value field = .ok next → P next) :
    P result := by
  rw [decode] at h
  split at h
  · cases h
  rename_i fields hFields
  have hFits := fits_readFields hFields
  clear hFields
  induction fields generalizing initial with
  | nil =>
    cases h
    exact hInitial
  | cons field fields ih =>
    rw [List.foldlM_cons] at h
    cases hMerge : merge initial field with
    | error error =>
      rw [hMerge] at h
      cases h
    | ok next =>
      rw [hMerge] at h
      exact ih (hStep initial field next (hFits field (by simp)) hInitial hMerge) h fun other hMem =>
        hFits other (by simp [hMem])

end Merge

end Resurrect.Wire
