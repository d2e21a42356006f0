import Resurrect.Browser.AnnouncementData
import Resurrect.Foundation.Hex
import Resurrect.Foundation.Interaction
import Resurrect.Foundation.Json
import Resurrect.Foundation.Numeral
import Mathlib.Data.List.Dedup
import Mathlib.Data.List.Lex
import Mathlib.Data.List.Sort

/-! # Descriptors in the browser client

`parseDescriptor`, with the checks in the order in which they are made. The value
is one that JSON.parse returns, so the keys of an object are distinct, and a
literal is the double nearest to it.
-/

namespace Resurrect.Browser

open Hex Numeral Interaction

structure RegistryDescriptor where
  chainId : Nat
  address : String
  deploymentBlock : Nat
  maxTtlSeconds : Nat
  deriving DecidableEq, Repr

structure NetworkDescriptor where
  resurrectVersion : Nat
  registry : RegistryDescriptor
  «namespace» : String
  acceptedRecordTypes : List Nat
  deriving DecidableEq, Repr

def resurrectVersion : Nat := 1
def maxTtlSeconds : Nat := 7776000
def uint32Max : Nat := 0xffffffff
def uint256Max : Nat := 2 ^ 256 - 1

section Viem

variable (keccak256 : Bytes → Core.B256)

def isHex (value : String) : Bool :=
  value.toList.take 2 = ['0', 'x'] ∧ (value.toList.drop 2).all isDigit

def addressRegex (address : String) : Bool := isHex address ∧ address.toList.length = 42

def toLowerCase (value : String) : String := String.ofList (value.toList.map Char.toLower)

/-- The upper half of a byte stands before its lower half. -/
def nibble (hash : Bytes) (i : Nat) : Nat :=
  if i % 2 = 0 then ((hash[i / 2]?).getD 0).toNat / 16 else ((hash[i / 2]?).getD 0).toNat % 16

def checksumAddress (address : String) : String :=
  let hexAddress := (address.toList.drop 2).map Char.toLower
  let hash := Core.toBytes32 (keccak256 (hexAddress.map fun c => UInt8.ofNat c.toNat))
  hexText (hexAddress.mapIdx fun i c => if 8 ≤ nibble hash i then c.toUpper else c)

/-- The strict check, for which letters of both cases must be those of the checksum. -/
def isAddress (address : String) : Bool :=
  if ¬ addressRegex address then false
  else if toLowerCase address = address then true
  else checksumAddress keccak256 address = address

end Viem

/-- The place of a text in the order of UTF-16 code units, which is that of `sort()`. -/
def utf16 (text : String) : List Nat :=
  text.toList.flatMap fun c =>
    if c.toNat < 0x10000 then [c.toNat]
    else [0xd800 + (c.toNat - 0x10000) / 0x400, 0xdc00 + (c.toNat - 0x10000) % 0x400]

def ensure (condition : Bool) (message : String) : Except String Unit :=
  if condition then .ok () else .error message

def asRecord (message : String) : Json → Except String (List (String × Json))
  | .object members => .ok members
  | _ => .error message

def asString (message : String) : Json → Except String String
  | .string text => .ok text
  | _ => .error message

def asArray (message : String) : Json → Except String (List Json)
  | .array items => .ok items
  | _ => .error message

/-- What a member is, or `null` in place of `undefined`. -/
def member (record : List (String × Json)) (key : String) : Json := (record.lookup key).getD .null

def isNumber (n : Nat) : Json → Bool
  | .number literal => double literal = some n
  | _ => false

def safeInteger (literal : Nat) : Option Nat := (double literal).filter (· ≤ maxSafeInteger)

def assertExactKeys (record : List (String × Json)) (expected : List String) : Except String Unit :=
  let keys := (record.map Prod.fst).insertionSort fun a b => utf16 a ≤ utf16 b
  if keys ≠ expected then
    .error ("unexpected descriptor field: " ++ (keys.find? fun key => key ∉ expected).getD "missing field")
  else .ok ()

def unsignedRegex : List Char → Bool
  | ['0'] => true
  | first :: rest => first.isDigit ∧ first ≠ '0' ∧ rest.all Char.isDigit
  | [] => false

/-- The checks on the type of a value and what `BigInt` makes of it. -/
def unsignedOf (field : String) : Json → Except String Nat
  | .number literal =>
      match safeInteger literal with
      | none => .error (field ++ " exceeds JSON safe integer range; encode it as a decimal string")
      | some integer => .ok integer
  | .string text =>
      if ¬ unsignedRegex text.toList then .error (field ++ " must be an unsigned decimal integer")
      else .ok (Numeral.value text.toList)
  | _ => .error (field ++ " must be an integer")

def parseUnsigned (value : Json) (field : String) (maximum : Nat) : Except String Nat := do
  let parsed ← unsignedOf field value
  ensure (parsed ≤ maximum) (field ++ " exceeds its on-chain integer range")
  pure parsed

def parseRecordType (value : Json) : Except String Nat :=
  match value with
  | .number literal =>
      match (safeInteger literal).filter (· ≤ uint32Max) with
      | some recordType => .ok recordType
      | none => .error "record type must be uint32"
  | _ => .error "record type must be uint32"

def parseDescriptor (keccak256 : Bytes → Core.B256) (input : Json) : Except String NetworkDescriptor := do
  let input ← asRecord "descriptor must be an object" input
  assertExactKeys input ["acceptedRecordTypes", "namespace", "registry", "resurrectVersion"]
  ensure (isNumber resurrectVersion (member input "resurrectVersion")) "unsupported Resurrect version"
  let registry ← asRecord "descriptor registry must be an object" (member input "registry")
  assertExactKeys registry ["address", "chainId", "deploymentBlock", "maxTtlSeconds"]
  let address ← asString "invalid registry address" (member registry "address")
  ensure (isAddress keccak256 address) "invalid registry address"
  ensure (isNumber maxTtlSeconds (member registry "maxTtlSeconds")) "registry max TTL does not match Resurrect v1"
  let name ← asString "invalid namespace" (member input "namespace")
  ensure (isHex name ∧ name.toList.length = 66) "invalid namespace"
  let items ← asArray "acceptedRecordTypes must not be empty" (member input "acceptedRecordTypes")
  ensure (¬ items.isEmpty) "acceptedRecordTypes must not be empty"
  let accepted ← items.mapM parseRecordType
  ensure (accepted.dedup.length = accepted.length) "duplicate record type"
  let chainId ← parseUnsigned (member registry "chainId") "chainId" uint256Max
  let deploymentBlock ← parseUnsigned (member registry "deploymentBlock") "deploymentBlock" uint64Max
  pure {
    resurrectVersion
    registry := { chainId, address := checksumAddress keccak256 address, deploymentBlock, maxTtlSeconds }
    «namespace» := toLowerCase name
    acceptedRecordTypes := accepted.insertionSort (· ≤ ·) }

/-- `parse` is JSON.parse, with the text of what it throws. -/
def parseDescriptorJson (keccak256 : Bytes → Core.B256) (parse : String → Except String Json) (json : String) :
    Except String NetworkDescriptor :=
  parse json >>= parseDescriptor keccak256

section Steps

variable {message : String} {value : Json}

@[simp] theorem ensure_eq_ok {condition : Bool} {result : Unit} : ensure condition message = .ok result ↔ condition := by
  cases condition <;> simp [ensure]

theorem ensure_of {condition : Prop} [Decidable condition] (h : condition) (message : String) :
    ensure condition message = .ok () := by rw [ensure_eq_ok, decide_eq_true_eq]; exact h

@[simp] theorem asRecord_eq_ok {record : List (String × Json)} : asRecord message value = .ok record ↔ value = .object record := by
  cases value <;> simp [asRecord]

@[simp] theorem asString_eq_ok {text : String} : asString message value = .ok text ↔ value = .string text := by
  cases value <;> simp [asString]

@[simp] theorem asArray_eq_ok {items : List Json} : asArray message value = .ok items ↔ value = .array items := by
  cases value <;> simp [asArray]

theorem isNumber_iff {n : Nat} (hn : n ≤ maxSafeInteger) : isNumber n value ↔ value = .number n := by
  cases value <;> simp [isNumber, double_eq_some hn]

theorem safeInteger_eq_some {literal n : Nat} : safeInteger literal = some n ↔ literal = n ∧ n ≤ maxSafeInteger := by
  rw [safeInteger, Option.filter_eq_some_iff, decide_eq_true_iff]
  constructor
  · rintro ⟨h, hn⟩
    exact ⟨(double_eq_some hn).mp h, hn⟩
  · rintro ⟨h, hn⟩
    exact ⟨(double_eq_some hn).mpr h, hn⟩

/-- The keys are compared in sorted order, so any order of them will do. -/
theorem assertExactKeys_eq_ok {record : List (String × Json)} {expected : List String} {result : Unit}
    (hSorted : expected.Pairwise fun a b => utf16 a ≤ utf16 b)
    (hOrder : ∀ a ∈ expected, ∀ b ∈ expected, utf16 a ≤ utf16 b → utf16 b ≤ utf16 a → a = b) :
    assertExactKeys record expected = .ok result ↔ (record.map Prod.fst).Perm expected := by
  have hPerm := List.perm_insertionSort (fun a b => utf16 a ≤ utf16 b) (record.map Prod.fst)
  have hTotal : Std.Total fun a b : String => utf16 a ≤ utf16 b := ⟨fun a b => le_total _ _⟩
  have hTrans : IsTrans String fun a b => utf16 a ≤ utf16 b := ⟨fun a b c => le_trans⟩
  have hKeys := List.pairwise_insertionSort (fun a b => utf16 a ≤ utf16 b) (record.map Prod.fst)
  simp only [assertExactKeys, ite_not]
  constructor
  · intro h
    split at h
    · rename_i hEq
      rw [← hEq]
      exact hPerm.symm
    · cases h
  · intro h
    have hEq := (hPerm.trans h).eq_of_pairwise
      (fun a b ha hb => hOrder a ((hPerm.trans h).mem_iff.mp ha) b hb) hKeys hSorted
    rw [if_pos hEq]

theorem unsignedRegex_iff {text : List Char} : unsignedRegex text ↔ IsCanonical text := by
  cases text with
  | nil => simp [unsignedRegex, IsCanonical]
  | cons first rest =>
    cases rest with
    | nil =>
      by_cases hZero : first = '0'
      · subst hZero
        simp [unsignedRegex, IsCanonical]
      · simp [unsignedRegex, IsCanonical, hZero]
    | cons second rest =>
      simp only [unsignedRegex, IsCanonical, List.length_cons, List.head?_cons]
      simp
      tauto

theorem unsignedOf_eq_ok {field : String} {n : Nat} :
    unsignedOf field value = .ok n ↔ value.Spells n ∧ (value = .number n → n ≤ maxSafeInteger) := by
  cases value with
  | number literal =>
    rw [unsignedOf]
    constructor
    · intro h
      split at h
      · cases h
      · rename_i hSafe
        cases h
        obtain ⟨rfl, hn⟩ := safeInteger_eq_some.mp hSafe
        exact ⟨.literal _, fun _ => hn⟩
    · rintro ⟨⟨⟩, hn⟩
      rw [safeInteger_eq_some.mpr ⟨rfl, hn rfl⟩]
  | string text =>
    rw [unsignedOf]
    simp only [unsignedRegex_iff, ite_not]
    constructor
    · intro h
      split at h
      · rename_i hText
        obtain ⟨m, rfl⟩ := isCanonical_iff.mp hText
        rw [value_repr] at h
        cases h
        exact ⟨.text _, fun h => (by cases h)⟩
      · cases h
    · rintro ⟨⟨⟩, -⟩
      rw [if_pos (isCanonical_iff.mpr ⟨n, rfl⟩), value_repr]
  | null => exact iff_of_false (by rintro ⟨⟩) (by rintro ⟨⟨⟩, -⟩)
  | bool => exact iff_of_false (by rintro ⟨⟩) (by rintro ⟨⟨⟩, -⟩)
  | array => exact iff_of_false (by rintro ⟨⟩) (by rintro ⟨⟨⟩, -⟩)
  | object => exact iff_of_false (by rintro ⟨⟩) (by rintro ⟨⟨⟩, -⟩)

theorem parseUnsigned_eq_ok {field : String} {maximum n : Nat} : parseUnsigned value field maximum = .ok n ↔
    value.Spells n ∧ (value = .number n → n ≤ maxSafeInteger) ∧ n ≤ maximum := by
  simp only [parseUnsigned, bind_eq_ok, unsignedOf_eq_ok, ensure_eq_ok, decide_eq_true_eq]
  constructor
  · rintro ⟨m, ⟨hSpells, hSafe⟩, -, hLe, h⟩
    cases h
    exact ⟨hSpells, hSafe, hLe⟩
  · rintro ⟨hSpells, hSafe, hLe⟩
    exact ⟨n, ⟨hSpells, hSafe⟩, (), hLe, rfl⟩

theorem parseRecordType_eq_ok {n : Nat} : parseRecordType value = .ok n ↔ value = .number n ∧ n ≤ uint32Max := by
  have hMax : uint32Max ≤ maxSafeInteger := by decide
  cases value with
  | number literal =>
    rw [parseRecordType]
    constructor
    · intro h
      split at h
      · rename_i hSome
        cases h
        obtain ⟨hSafe, hn⟩ := Option.filter_eq_some_iff.mp hSome
        rw [(safeInteger_eq_some.mp hSafe).1]
        exact ⟨rfl, of_decide_eq_true hn⟩
      · cases h
    · rintro ⟨h, hn⟩
      cases h
      have hSome : (safeInteger n).filter (· ≤ uint32Max) = some n :=
        Option.filter_eq_some_iff.mpr ⟨safeInteger_eq_some.mpr ⟨rfl, hn.trans hMax⟩, decide_eq_true hn⟩
      rw [hSome]
  | null => simp [parseRecordType]
  | bool => simp [parseRecordType]
  | string => simp [parseRecordType]
  | array => simp [parseRecordType]
  | object => simp [parseRecordType]

theorem mapM_parseRecordType {items : List Json} {accepted : List Nat} :
    items.mapM parseRecordType = .ok accepted ↔ items = accepted.map Json.number ∧ ∀ n ∈ accepted, n ≤ uint32Max := by
  induction items generalizing accepted with
  | nil => cases accepted <;> simp [pure, Except.pure]
  | cons item items ih =>
    simp only [List.mapM_cons, bind_eq_ok, parseRecordType_eq_ok, ih]
    constructor
    · rintro ⟨n, ⟨rfl, hn⟩, rest, ⟨rfl, hRest⟩, h⟩
      cases h
      exact ⟨rfl, List.forall_mem_cons.mpr ⟨hn, hRest⟩⟩
    · rintro ⟨hItems, hAll⟩
      cases accepted with
      | nil => cases hItems
      | cons n rest =>
        cases hItems
        obtain ⟨hn, hRest⟩ := List.forall_mem_cons.mp hAll
        exact ⟨n, ⟨rfl, hn⟩, rest, ⟨rfl, hRest⟩, rfl⟩

end Steps

section Parse

variable {keccak256 : Bytes → Core.B256} {members registry : List (String × Json)} {address name : String}
  {accepted : List Nat} {ours : NetworkDescriptor}

/-- What `parseDescriptor` has found when it returns. -/
structure Parsed (keccak256 : Bytes → Core.B256) (members registry : List (String × Json)) (address name : String)
    (accepted : List Nat) (ours : NetworkDescriptor) : Prop where
  keys : (members.map Prod.fst).Perm ["acceptedRecordTypes", "namespace", "registry", "resurrectVersion"]
  version : member members "resurrectVersion" = .number resurrectVersion
  registry_eq : member members "registry" = .object registry
  registryKeys : (registry.map Prod.fst).Perm ["address", "chainId", "deploymentBlock", "maxTtlSeconds"]
  address_eq : member registry "address" = .string address
  isAddress : isAddress keccak256 address
  maxTtl : member registry "maxTtlSeconds" = .number maxTtlSeconds
  name_eq : member members "namespace" = .string name
  isHex : isHex name
  length : name.toList.length = 66
  recordTypes : member members "acceptedRecordTypes" = .array (accepted.map .number)
  bounded : ∀ recordType ∈ accepted, recordType ≤ uint32Max
  nonempty : accepted ≠ []
  nodup : accepted.Nodup
  chainId : (member registry "chainId").Spells ours.registry.chainId
  chainId_safe : member registry "chainId" = .number ours.registry.chainId → ours.registry.chainId ≤ maxSafeInteger
  chainId_le : ours.registry.chainId ≤ uint256Max
  deploymentBlock : (member registry "deploymentBlock").Spells ours.registry.deploymentBlock
  deploymentBlock_safe : member registry "deploymentBlock" = .number ours.registry.deploymentBlock →
    ours.registry.deploymentBlock ≤ maxSafeInteger
  deploymentBlock_le : ours.registry.deploymentBlock ≤ uint64Max
  result : ours = ⟨resurrectVersion, ⟨ours.registry.chainId, checksumAddress keccak256 address,
    ours.registry.deploymentBlock, maxTtlSeconds⟩, toLowerCase name, accepted.insertionSort (· ≤ ·)⟩

theorem length_dedup {accepted : List Nat} : accepted.dedup.length = accepted.length ↔ accepted.Nodup := by
  constructor
  · intro h
    rw [← (List.dedup_sublist accepted).eq_of_length h]
    exact List.nodup_dedup accepted
  · intro h
    rw [List.dedup_eq_self.mpr h]

theorem parseDescriptor_eq_ok {input : Json} : parseDescriptor keccak256 input = .ok ours ↔
    ∃ members registry address name accepted, input = .object members ∧
      Parsed keccak256 members registry address name accepted ours := by
  have hVersion : resurrectVersion ≤ maxSafeInteger := by decide
  have hTtl : maxTtlSeconds ≤ maxSafeInteger := by decide
  have hKeys : ∀ {record : List (String × Json)} {result : Unit}, assertExactKeys record
      ["acceptedRecordTypes", "namespace", "registry", "resurrectVersion"] = .ok result ↔
        (record.map Prod.fst).Perm ["acceptedRecordTypes", "namespace", "registry", "resurrectVersion"] :=
    assertExactKeys_eq_ok (by decide) (by decide)
  have hRegistryKeys : ∀ {record : List (String × Json)} {result : Unit}, assertExactKeys record
      ["address", "chainId", "deploymentBlock", "maxTtlSeconds"] = .ok result ↔
        (record.map Prod.fst).Perm ["address", "chainId", "deploymentBlock", "maxTtlSeconds"] :=
    assertExactKeys_eq_ok (by decide +kernel) (by decide)
  simp only [parseDescriptor, bind_eq_ok, asRecord_eq_ok, asString_eq_ok, asArray_eq_ok, ensure_eq_ok, hKeys, hRegistryKeys,
    isNumber_iff hVersion, isNumber_iff hTtl, mapM_parseRecordType, parseUnsigned_eq_ok, decide_eq_true_eq, length_dedup]
  constructor
  · rintro ⟨members, rfl, -, hMembers, -, hResurrect, registry, hRegistry, -, hFields, address, hAddress, -, hIsAddress, -,
      hMaxTtl, name, hName, -, ⟨hHex, hLength⟩, items, hItems, -, hNonempty, accepted, ⟨rfl, hBounded⟩, -, hNodup, chainId,
      ⟨hChainId, hChainSafe, hChainLe⟩, block, ⟨hBlock, hBlockSafe, hBlockLe⟩, h⟩
    cases h
    exact ⟨members, registry, address, name, accepted, rfl, hMembers, hResurrect, hRegistry, hFields, hAddress, hIsAddress,
      hMaxTtl, hName, hHex, hLength, hItems, hBounded, by simpa using hNonempty, hNodup, hChainId, hChainSafe, hChainLe,
      hBlock, hBlockSafe, hBlockLe, rfl⟩
  · rintro ⟨members, registry, address, name, accepted, rfl, h⟩
    exact ⟨members, rfl, (), h.keys, (), h.version, registry, h.registry_eq, (), h.registryKeys, address, h.address_eq, (),
      h.isAddress, (), h.maxTtl, name, h.name_eq, (), ⟨h.isHex, h.length⟩, _, h.recordTypes, (), by simpa using h.nonempty,
      accepted, ⟨rfl, h.bounded⟩, (), h.nodup, _, ⟨h.chainId, h.chainId_safe, h.chainId_le⟩, _,
      ⟨h.deploymentBlock, h.deploymentBlock_safe, h.deploymentBlock_le⟩, congrArg Except.ok h.result.symm⟩

end Parse

end Resurrect.Browser
