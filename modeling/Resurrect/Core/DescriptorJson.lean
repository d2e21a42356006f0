import Resurrect.Core.Descriptor
import Resurrect.Foundation.Hex
import Resurrect.Foundation.Json
import Resurrect.Foundation.Numeral
import Mathlib.Data.List.Sort

/-! # Descriptors as JSON

What `from_json` reads and `canonical_json` writes. Texts are printed and parsed
by serde_json, which hands the reader a value; a struct is read from an object
with exactly its fields, or from an array of them in order.
-/

namespace Resurrect.Core

open Hex Numeral

/-- The parts of serde_json and alloy that a descriptor passes through: the printer and the reader of
texts, the message for a text that is refused, and alloy's reader of an address spelled as an array. -/
structure Serde where
  toString : Json → String
  fromStr : String → Option Json
  report : String → String
  addressOfArray : List Json → Option Address

inductive VisitError where
  | invalidType
  | parse
  | custom (message : String)
  deriving DecidableEq, Repr

/-- The members of a struct, named by its fields. -/
def structMembers (fields : List String) : Json → Option (List (String × Json))
  | .object members =>
      let keys := members.map Prod.fst
      if keys.Nodup ∧ (∀ key ∈ keys, key ∈ fields) ∧ ∀ field ∈ fields, field ∈ keys then some members else none
  | .array items => if items.length = fields.length then some (fields.zip items) else none
  | _ => none

/-- serde_json reads a literal beyond `u64` as a float, which none of the visitors takes. -/
def visitU64 (literal : Nat) : Except VisitError Nat :=
  if literal < 2 ^ 64 then .ok literal else .error .invalidType

def visitStr (field : String) (limit : Nat) (value : String) : Except VisitError Nat :=
  let digits := value.toList
  if digits = [] ∨ (1 < digits.length ∧ digits.head? = some '0') ∨ ¬ digits.all Char.isDigit then
    .error (.custom (field ++ " must be a canonical unsigned decimal integer"))
  else if Numeral.value digits < limit then .ok (Numeral.value digits) else .error .parse

def deserializeUnsigned (field : String) (limit : Nat) : Json → Except VisitError Nat
  | .number literal => visitU64 literal
  | .string value => visitStr field limit value
  | _ => .error .invalidType

def deserializeChainId (json : Json) : Except VisitError U256 :=
  (deserializeUnsigned "chainId" (2 ^ 256) json).map (Fin.ofNat (2 ^ 256))

def deserializeDeploymentBlock (json : Json) : Except VisitError UInt64 :=
  (deserializeUnsigned "deploymentBlock" (2 ^ 64) json).map UInt64.ofNat

def deserializeU32 : Json → Option UInt32
  | .number literal => if literal < 2 ^ 32 then some (.ofNat literal) else none
  | _ => none

def deserializeRecordTypes : Json → Option (List UInt32)
  | .array items => items.mapM deserializeU32
  | _ => none

/-- The number spelled by exactly `width` digits; the reader of alloy strips one `0x` or `0X`. -/
def fixedHex (width : Nat) (text : String) : Option Nat :=
  let digits :=
    if "0x".toList <+: text.toList ∨ "0X".toList <+: text.toList then text.toList.drop 2 else text.toList
  if digits.length = width ∧ digits.all isDigit then some (number digits) else none

def deserializeAddress (serde : Serde) : Json → Option Address
  | .string text => (fixedHex 40 text).map (Fin.ofNat (2 ^ 160))
  | .array items => serde.addressOfArray items
  | _ => none

def Namespace.fromStr (value : String) : Option Namespace :=
  (fixedHex 64 value).map fun parsed => ⟨Fin.ofNat (2 ^ 256) parsed⟩

def deserializeNamespace : Json → Option Namespace
  | .string value => Namespace.fromStr value
  | _ => none

def RegistryDescriptor.fields : List String := ["chainId", "address", "deploymentBlock", "maxTtlSeconds"]

def NetworkDescriptor.fields : List String := ["resurrectVersion", "registry", "namespace", "acceptedRecordTypes"]

def RegistryDescriptor.deserialize (serde : Serde) (json : Json) : Option RegistryDescriptor := do
  let members ← structMembers fields json
  let chainId ← (members.lookup "chainId").bind fun value => (deserializeChainId value).toOption
  let address ← (members.lookup "address").bind (deserializeAddress serde)
  let deploymentBlock ← (members.lookup "deploymentBlock").bind fun value => (deserializeDeploymentBlock value).toOption
  let maxTtlSeconds ← (members.lookup "maxTtlSeconds").bind deserializeU32
  pure ⟨chainId, address, deploymentBlock, maxTtlSeconds⟩

def NetworkDescriptor.deserialize (serde : Serde) (json : Json) : Option NetworkDescriptor := do
  let members ← structMembers fields json
  let resurrectVersion ← (members.lookup "resurrectVersion").bind deserializeU32
  let registry ← (members.lookup "registry").bind (RegistryDescriptor.deserialize serde)
  let name ← (members.lookup "namespace").bind deserializeNamespace
  let acceptedRecordTypes ← (members.lookup "acceptedRecordTypes").bind deserializeRecordTypes
  pure ⟨resurrectVersion, registry, name, acceptedRecordTypes⟩

def NetworkDescriptor.fromJson (serde : Serde) (json : String) : Except DescriptorError NetworkDescriptor :=
  match (serde.fromStr json).bind (deserialize serde) with
  | none => .error (.json (serde.report json))
  | some descriptor =>
      match descriptor.validate with
      | .error error => .error error
      | .ok () => .ok descriptor

def maxSafeJsonInteger : Nat := 9007199254740991

def serializeUnsigned (value : Nat) : Json :=
  if value ≤ maxSafeJsonInteger then .number value else .string value.repr

def serializeChainId (chainId : U256) : Json := serializeUnsigned chainId.val

def serializeDeploymentBlock (value : UInt64) : Json := serializeUnsigned value.toNat

def serializeAddress (address : Address) : Json := .string (hexText (Hex.ofNat 40 address.val))

def Namespace.toString (self : Namespace) : String := hexText (Hex.ofNat 64 self.bytes.val)

def serializeU32 (value : UInt32) : Json := .number value.toNat

def RegistryDescriptor.serialize (self : RegistryDescriptor) : Json :=
  .object [("chainId", serializeChainId self.chainId), ("address", serializeAddress self.address),
    ("deploymentBlock", serializeDeploymentBlock self.deploymentBlock), ("maxTtlSeconds", serializeU32 self.maxTtlSeconds)]

def NetworkDescriptor.serialize (self : NetworkDescriptor) : Json :=
  .object [("resurrectVersion", serializeU32 self.resurrectVersion), ("registry", self.registry.serialize),
    ("namespace", .string self.namespace.toString), ("acceptedRecordTypes", .array (self.acceptedRecordTypes.map serializeU32))]

/-- The descriptor with its record types in ascending order. -/
def NetworkDescriptor.normalized (self : NetworkDescriptor) : NetworkDescriptor :=
  { self with acceptedRecordTypes := self.acceptedRecordTypes.insertionSort (· ≤ ·) }

def NetworkDescriptor.canonicalJson (serde : Serde) (self : NetworkDescriptor) : Except DescriptorError String :=
  match self.validate with
  | .error error => .error error
  | .ok () => .ok (serde.toString self.normalized.serialize)

theorem structMembers_object {fields : List String} {members named : List (String × Json)} (hFields : fields.Nodup) :
    structMembers fields (.object members) = some named ↔ named = members ∧ (members.map Prod.fst).Perm fields := by
  simp only [structMembers, Option.ite_none_right_eq_some, Option.some.injEq]
  constructor
  · rintro ⟨⟨hKeys, hKnown, hPresent⟩, rfl⟩
    exact ⟨rfl, (List.perm_ext_iff_of_nodup hKeys hFields).mpr fun key => ⟨hKnown key, hPresent key⟩⟩
  · rintro ⟨rfl, hPerm⟩
    exact ⟨⟨hPerm.nodup_iff.mpr hFields, fun key => hPerm.mem_iff.mp, fun field => hPerm.mem_iff.mpr⟩, rfl⟩

theorem visitStr_eq_ok {field value : String} {limit n : Nat} :
    visitStr field limit value = .ok n ↔ value = n.repr ∧ n < limit := by
  have hCanonical : (value.toList = [] ∨ (1 < value.toList.length ∧ value.toList.head? = some '0') ∨
      ¬ value.toList.all Char.isDigit) ↔ ¬ IsCanonical value.toList := by
    simp only [IsCanonical]
    tauto
  rw [visitStr]
  constructor
  · intro h
    split at h
    · cases h
    · rename_i hText
      rw [hCanonical, not_not, isCanonical_iff] at hText
      obtain ⟨m, rfl⟩ := hText
      split at h
      · rename_i hLt
        rw [value_repr] at h hLt
        cases h
        exact ⟨rfl, hLt⟩
      · cases h
  · rintro ⟨rfl, hLt⟩
    rw [if_neg (by rw [hCanonical, not_not]; exact isCanonical_iff.mpr ⟨n, rfl⟩), value_repr, if_pos hLt]

theorem deserializeUnsigned_eq_ok {field : String} {limit n : Nat} {value : Json} (hLimit : 2 ^ 64 ≤ limit) :
    deserializeUnsigned field limit value = .ok n ↔
      value.Spells n ∧ n < limit ∧ (value = .number n → n < 2 ^ 64) := by
  cases value with
  | number literal =>
    rw [deserializeUnsigned, visitU64]
    constructor
    · intro h
      split at h
      · rename_i hLt
        cases h
        exact ⟨.literal n, lt_of_lt_of_le hLt hLimit, fun _ => hLt⟩
      · cases h
    · rintro ⟨⟨⟩, -, hLt⟩
      rw [if_pos (hLt rfl)]
  | string text =>
    rw [deserializeUnsigned, visitStr_eq_ok]
    constructor
    · rintro ⟨rfl, hLt⟩
      exact ⟨.text n, hLt, fun h => (by cases h)⟩
    · rintro ⟨h, hLt, -⟩
      cases h
      exact ⟨rfl, hLt⟩
  | null => exact iff_of_false (by rintro ⟨⟩) (by rintro ⟨⟨⟩, -⟩)
  | bool => exact iff_of_false (by rintro ⟨⟩) (by rintro ⟨⟨⟩, -⟩)
  | array => exact iff_of_false (by rintro ⟨⟩) (by rintro ⟨⟨⟩, -⟩)
  | object => exact iff_of_false (by rintro ⟨⟩) (by rintro ⟨⟨⟩, -⟩)

theorem toOption_map_eq_some {ε α β : Type} {read : Except ε α} {f : α → β} {result : β} :
    (read.map f).toOption = some result ↔ ∃ value, read = .ok value ∧ f value = result := by
  cases read <;> simp [Except.map, Except.toOption]

theorem deserializeChainId_eq_some {value : Json} {chainId : U256} : (deserializeChainId value).toOption = some chainId ↔
    value.Spells chainId.val ∧ (value = .number chainId.val → chainId.val < 2 ^ 64) := by
  rw [deserializeChainId, toOption_map_eq_some]
  constructor
  · rintro ⟨n, hRead, rfl⟩
    obtain ⟨hSpells, hLt, hLiteral⟩ := (deserializeUnsigned_eq_ok (by decide)).mp hRead
    have hVal : (Fin.ofNat (2 ^ 256) n).val = n := Nat.mod_eq_of_lt hLt
    rw [hVal]
    exact ⟨hSpells, hLiteral⟩
  · rintro ⟨hSpells, hLiteral⟩
    exact ⟨chainId.val, (deserializeUnsigned_eq_ok (by decide)).mpr ⟨hSpells, chainId.isLt, hLiteral⟩,
      Fin.ext (Nat.mod_eq_of_lt chainId.isLt)⟩

theorem deserializeDeploymentBlock_eq_some {value : Json} {block : UInt64} :
    (deserializeDeploymentBlock value).toOption = some block ↔ value.Spells block.toNat := by
  rw [deserializeDeploymentBlock, toOption_map_eq_some]
  constructor
  · rintro ⟨n, hRead, rfl⟩
    obtain ⟨hSpells, hLt, -⟩ := (deserializeUnsigned_eq_ok (le_refl _)).mp hRead
    rwa [UInt64.toNat_ofNat_of_lt' hLt]
  · intro hSpells
    exact ⟨block.toNat, (deserializeUnsigned_eq_ok (le_refl _)).mpr ⟨hSpells, block.toNat_lt, fun _ => block.toNat_lt⟩,
      UInt64.ofNat_toNat⟩

theorem deserializeU32_eq_some {value : Json} {n : UInt32} : deserializeU32 value = some n ↔ value = .number n.toNat := by
  constructor
  · intro h
    cases value with
    | number literal =>
      rw [deserializeU32, Option.ite_none_right_eq_some] at h
      obtain ⟨hLt, h⟩ := h
      cases h
      rw [UInt32.toNat_ofNat_of_lt' hLt]
    | null => cases h
    | bool => cases h
    | string => cases h
    | array => cases h
    | object => cases h
  · rintro rfl
    rw [deserializeU32, if_pos n.toNat_lt, UInt32.ofNat_toNat]

theorem deserializeRecordTypes_eq_some {items : List Json} {recordTypes : List UInt32} :
    deserializeRecordTypes (.array items) = some recordTypes ↔ items = recordTypes.map serializeU32 := by
  rw [deserializeRecordTypes]
  induction items generalizing recordTypes with
  | nil => cases recordTypes <;> simp
  | cons item items ih =>
    simp only [List.mapM_cons, Option.bind_eq_bind, Option.bind_eq_some_iff, deserializeU32_eq_some, ih]
    constructor
    · rintro ⟨recordType, rfl, rest, rfl, h⟩
      cases h
      rfl
    · intro h
      cases recordTypes with
      | nil => cases h
      | cons recordType rest =>
        cases h
        exact ⟨recordType, rfl, rest, rfl, rfl⟩

section Objects

variable {serde : Serde} {members : List (String × Json)}

/-- What a registry written as an object is read from. -/
theorem RegistryDescriptor.deserialize_object {self : RegistryDescriptor} :
    deserialize serde (.object members) = some self ↔
      (members.map Prod.fst).Perm fields ∧
      (∃ value, members.lookup "chainId" = some value ∧ value.Spells self.chainId.val ∧
        (value = .number self.chainId.val → self.chainId.val < 2 ^ 64)) ∧
      (∃ value, members.lookup "address" = some value ∧ deserializeAddress serde value = some self.address) ∧
      (∃ value, members.lookup "deploymentBlock" = some value ∧ value.Spells self.deploymentBlock.toNat) ∧
      members.lookup "maxTtlSeconds" = some (.number self.maxTtlSeconds.toNat) := by
  have hFields : fields.Nodup := by decide
  simp only [deserialize, Option.bind_eq_bind, Option.bind_eq_some_iff, structMembers_object hFields,
    deserializeChainId_eq_some, deserializeDeploymentBlock_eq_some, deserializeU32_eq_some]
  constructor
  · rintro ⟨_, ⟨rfl, hKeys⟩, chainId, hChainId, address, hAddress, block, hBlock, maxTtl, ⟨_, hMaxTtl, rfl⟩, h⟩
    cases h
    exact ⟨hKeys, hChainId, hAddress, hBlock, hMaxTtl⟩
  · rintro ⟨hKeys, hChainId, hAddress, hBlock, hMaxTtl⟩
    exact ⟨members, ⟨rfl, hKeys⟩, self.chainId, hChainId, self.address, hAddress, self.deploymentBlock, hBlock,
      self.maxTtlSeconds, ⟨_, hMaxTtl, rfl⟩, rfl⟩

theorem NetworkDescriptor.deserialize_object {self : NetworkDescriptor} :
    deserialize serde (.object members) = some self ↔
      (members.map Prod.fst).Perm fields ∧
      members.lookup "resurrectVersion" = some (.number self.resurrectVersion.toNat) ∧
      (∃ value, members.lookup "registry" = some value ∧ RegistryDescriptor.deserialize serde value = some self.registry) ∧
      (∃ value, members.lookup "namespace" = some value ∧ deserializeNamespace value = some self.namespace) ∧
      ∃ value, members.lookup "acceptedRecordTypes" = some value ∧
        deserializeRecordTypes value = some self.acceptedRecordTypes := by
  have hFields : fields.Nodup := by decide
  simp only [deserialize, Option.bind_eq_bind, Option.bind_eq_some_iff, structMembers_object hFields, deserializeU32_eq_some]
  constructor
  · rintro ⟨_, ⟨rfl, hKeys⟩, version, ⟨_, hVersion, rfl⟩, registry, hRegistry, name, hName, recordTypes, hRecordTypes, h⟩
    cases h
    exact ⟨hKeys, hVersion, hRegistry, hName, hRecordTypes⟩
  · rintro ⟨hKeys, hVersion, hRegistry, hName, hRecordTypes⟩
    exact ⟨members, ⟨rfl, hKeys⟩, self.resurrectVersion, ⟨_, hVersion, rfl⟩, self.registry, hRegistry, self.namespace, hName,
      self.acceptedRecordTypes, hRecordTypes, rfl⟩

end Objects

section RoundTrip

variable (serde : Serde)

theorem spells_serializeUnsigned (n : Nat) : (serializeUnsigned n).Spells n := by
  rw [serializeUnsigned]
  split
  · exact .literal n
  · exact .text n

theorem le_of_serializeUnsigned_literal {n literal : Nat} (h : serializeUnsigned n = .number literal) :
    literal ≤ maxSafeJsonInteger := by
  rw [serializeUnsigned] at h
  split at h
  · cases h
    assumption
  · cases h

theorem deserializeChainId_serializeChainId (chainId : U256) :
    (deserializeChainId (serializeChainId chainId)).toOption = some chainId :=
  deserializeChainId_eq_some.mpr ⟨spells_serializeUnsigned _, fun h =>
    lt_of_le_of_lt (le_of_serializeUnsigned_literal h) (by decide)⟩

theorem deserializeDeploymentBlock_serializeDeploymentBlock (value : UInt64) :
    (deserializeDeploymentBlock (serializeDeploymentBlock value)).toOption = some value :=
  deserializeDeploymentBlock_eq_some.mpr (spells_serializeUnsigned _)

theorem deserializeU32_serializeU32 (value : UInt32) : deserializeU32 (serializeU32 value) = some value :=
  deserializeU32_eq_some.mpr rfl

theorem fixedHex_hexText {width n : Nat} (h : n < 16 ^ width) :
    fixedHex width (hexText (Hex.ofNat width n)) = some n := by
  have hPrefix : "0x".toList <+: (hexText (Hex.ofNat width n)).toList := ⟨Hex.ofNat width n, (toList_hexText _).symm⟩
  rw [fixedHex, if_pos (Or.inl hPrefix), drop_hexText, if_pos ⟨length_ofNat _ _, all_isDigit_ofNat _ _⟩,
    number_ofNat_of_lt h]

theorem deserializeAddress_serializeAddress (address : Address) :
    deserializeAddress serde (serializeAddress address) = some address := by
  have hLt : address.val < 16 ^ 40 := address.isLt
  rw [serializeAddress, deserializeAddress, fixedHex_hexText hLt]
  exact congrArg some (Fin.ext (Nat.mod_eq_of_lt address.isLt))

theorem fromStr_toString (name : Namespace) : Namespace.fromStr name.toString = some name := by
  have hLt : name.bytes.val < 16 ^ 64 := name.bytes.isLt
  rw [Namespace.toString, Namespace.fromStr, fixedHex_hexText hLt]
  exact congrArg (fun bytes => some (Namespace.mk bytes)) (Fin.ext (Nat.mod_eq_of_lt name.bytes.isLt))

theorem RegistryDescriptor.deserialize_serialize (self : RegistryDescriptor) : deserialize serde self.serialize = some self := by
  have hMembers : structMembers fields self.serialize = some [("chainId", serializeChainId self.chainId),
      ("address", serializeAddress self.address), ("deploymentBlock", serializeDeploymentBlock self.deploymentBlock),
      ("maxTtlSeconds", serializeU32 self.maxTtlSeconds)] :=
    (structMembers_object (by decide)).mpr ⟨rfl, .refl _⟩
  simp only [deserialize, hMembers, List.lookup_cons, String.reduceBEq, Option.bind_eq_bind, Option.bind_some,
    deserializeChainId_serializeChainId, deserializeAddress_serializeAddress, deserializeU32_serializeU32,
    deserializeDeploymentBlock_serializeDeploymentBlock]
  rfl

theorem NetworkDescriptor.deserialize_serialize (self : NetworkDescriptor) : deserialize serde self.serialize = some self := by
  have hMembers : structMembers fields self.serialize = some [("resurrectVersion", serializeU32 self.resurrectVersion),
      ("registry", self.registry.serialize), ("namespace", .string self.namespace.toString),
      ("acceptedRecordTypes", .array (self.acceptedRecordTypes.map serializeU32))] :=
    (structMembers_object (by decide)).mpr ⟨rfl, .refl _⟩
  simp only [deserialize, hMembers, List.lookup_cons, String.reduceBEq, Option.bind_eq_bind, Option.bind_some, fromStr_toString,
    deserializeU32_serializeU32, RegistryDescriptor.deserialize_serialize, deserializeNamespace,
    deserializeRecordTypes_eq_some.mpr rfl]
  rfl

end RoundTrip

section Canonical

variable {serde : Serde} {self other : NetworkDescriptor} {json : String}

theorem NetworkDescriptor.normalized_perm (self : NetworkDescriptor) :
    self.normalized.acceptedRecordTypes.Perm self.acceptedRecordTypes :=
  List.perm_insertionSort _ _

theorem NetworkDescriptor.Valid.normalized (h : self.Valid) : self.normalized.Valid where
  version := h.version
  maxTtl := h.maxTtl
  nonempty := by
    intro hNil
    have hPerm := self.normalized_perm
    rw [hNil] at hPerm
    exact h.nonempty hPerm.nil_eq.symm
  nodup := self.normalized_perm.nodup_iff.mpr h.nodup

theorem insertionSort_eq_iff {recordTypes others : List UInt32} :
    others.insertionSort (· ≤ ·) = recordTypes.insertionSort (· ≤ ·) ↔ others.Perm recordTypes := by
  have hPerm := List.perm_insertionSort (α := UInt32) (· ≤ ·)
  constructor
  · intro h
    exact ((hPerm others).symm.trans (List.Perm.of_eq h)).trans (hPerm recordTypes)
  · intro h
    exact (((hPerm others).trans h).trans (hPerm recordTypes).symm).eq_of_pairwise' (List.pairwise_insertionSort _ _)
      (List.pairwise_insertionSort _ _)

/-- Descriptors that differ in the order of their record types are normalized to the same. -/
theorem NetworkDescriptor.normalized_inj : other.normalized = self.normalized ↔
    other.acceptedRecordTypes.Perm self.acceptedRecordTypes ∧
      other = { self with acceptedRecordTypes := other.acceptedRecordTypes } := by
  obtain ⟨version, registry, name, recordTypes⟩ := self
  obtain ⟨otherVersion, otherRegistry, otherName, others⟩ := other
  simp only [normalized, mk.injEq, insertionSort_eq_iff]
  tauto

theorem NetworkDescriptor.normalized_normalized (self : NetworkDescriptor) : self.normalized.normalized = self.normalized :=
  normalized_inj.mpr ⟨self.normalized_perm, rfl⟩

theorem NetworkDescriptor.fromJson_eq_ok : fromJson serde json = .ok self ↔
    ∃ value, serde.fromStr json = some value ∧ deserialize serde value = some self ∧ self.Valid := by
  rw [fromJson]
  constructor
  · intro h
    split at h
    · cases h
    · rename_i read hRead
      split at h
      · cases h
      · rename_i hValid
        cases h
        obtain ⟨value, hValue, hDeserialize⟩ := Option.bind_eq_some_iff.mp hRead
        exact ⟨value, hValue, hDeserialize, validate_eq_ok.mp hValid⟩
  · rintro ⟨value, hValue, hDeserialize, hValid⟩
    rw [hValue, Option.bind_some, hDeserialize]
    dsimp only
    rw [validate_eq_ok.mpr hValid]

theorem NetworkDescriptor.canonicalJson_eq_ok : self.canonicalJson serde = .ok json ↔
    self.Valid ∧ serde.toString self.normalized.serialize = json := by
  rw [canonicalJson]
  constructor
  · intro h
    split at h
    · cases h
    · rename_i hValid
      cases h
      exact ⟨validate_eq_ok.mp hValid, rfl⟩
  · rintro ⟨hValid, rfl⟩
    rw [validate_eq_ok.mpr hValid]

end Canonical

end Resurrect.Core
