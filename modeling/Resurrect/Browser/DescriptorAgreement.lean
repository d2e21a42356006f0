import Resurrect.Core.DescriptorJson
import Resurrect.Browser.Descriptor
import Resurrect.Foundation.JsonText

/-! # The two descriptor parsers

What `from_json` and `parseDescriptor` make of the same value. The browser client
takes fewer spellings of it, and what it takes means the same to both.
-/

namespace Resurrect.Browser

open Hex Numeral Interaction
open Resurrect.Core (Serde)

/-- Both descriptors have the same fields, the record types in ascending order. -/
structure Same (ours : NetworkDescriptor) (theirs : Core.NetworkDescriptor) : Prop where
  version : ours.resurrectVersion = theirs.resurrectVersion.toNat
  chainId : ours.registry.chainId = theirs.registry.chainId.val
  address : bytes? (ours.registry.address.toList.drop 2) = some (beBytes 20 theirs.registry.address.val)
  deploymentBlock : ours.registry.deploymentBlock = theirs.registry.deploymentBlock.toNat
  maxTtl : ours.registry.maxTtlSeconds = theirs.registry.maxTtlSeconds.toNat
  name : bytes? (ours.namespace.toList.drop 2) = some (beBytes 32 theirs.namespace.bytes.val)
  recordTypes : ours.acceptedRecordTypes = theirs.normalized.acceptedRecordTypes.map UInt32.toNat

/-- A registry written so that the browser client takes it: literals within the safe range, and an
address in lower case or with its checksum. -/
structure PortableRegistry (keccak256 : Bytes → Core.B256) (registry : List (String × Json)) : Prop where
  chainId : ∀ literal, registry.lookup "chainId" = some (.number literal) → literal ≤ maxSafeInteger
  deploymentBlock : ∀ literal, registry.lookup "deploymentBlock" = some (.number literal) → literal ≤ maxSafeInteger
  address : ∃ text, registry.lookup "address" = some (.string text) ∧ isAddress keccak256 text

/-- A descriptor written as objects, its registry portable and its namespace prefixed. -/
inductive Portable (keccak256 : Bytes → Core.B256) : Json → Prop where
  | object {members registry : List (String × Json)} {name : String}
      (registry_eq : members.lookup "registry" = some (.object registry))
      (portable : PortableRegistry keccak256 registry)
      (name_eq : members.lookup "namespace" = some (.string name))
      (prefixed : name.toList.take 2 = ['0', 'x']) : Portable keccak256 (.object members)

section Hexadecimal

theorem isHex_iff {text : String} : isHex text ↔
    text.toList.take 2 = ['0', 'x'] ∧ (text.toList.drop 2).all isDigit := by
  rw [isHex, decide_eq_true_eq]

/-- Behind the prefix both sides ask for the same digits. -/
theorem fixedHex_eq_some {text : String} {width n : Nat} (hPrefix : text.toList.take 2 = ['0', 'x']) :
    Core.fixedHex width text = some n ↔
      isHex text ∧ text.toList.length = width + 2 ∧ number (text.toList.drop 2) = n := by
  have hLiteral : "0x".toList <+: text.toList := List.prefix_iff_eq_take.mpr hPrefix.symm
  have hLength : 2 ≤ text.toList.length := List.IsPrefix.length_le hLiteral
  have hDrop : (text.toList.drop 2).length = width ↔ text.toList.length = width + 2 := by
    rw [List.length_drop]
    omega
  rw [Core.fixedHex, if_pos (Or.inl hLiteral), isHex_iff]
  simp only [hDrop, Option.ite_none_right_eq_some, Option.some.injEq]
  tauto

theorem number_lt_of_isHex {text : String} {width : Nat} (h : isHex text) (hLength : text.toList.length = width + 2) :
    number (text.toList.drop 2) < 16 ^ width := by
  have hDigits : (text.toList.drop 2).length = width := by
    rw [List.length_drop, hLength, Nat.add_sub_cancel]
  have hLt := number_lt (isHex_iff.mp h).2
  rwa [hDigits] at hLt

theorem bytes?_of_lower {digits text : List Char} {width : Nat} (hDigits : digits.all isDigit)
    (hLength : digits.length = width * 2) (hText : text.map Char.toLower = digits.map Char.toLower) :
    bytes? text = some (beBytes width (number digits)) := by
  rw [bytes?_eq_some, hText, spell_beBytes, map_toLower_eq_ofNat hDigits, hLength]

theorem toLower_toUpper {c : Char} (h : isDigit c) : c.toLower.toUpper.toLower = c.toLower := by
  obtain ⟨d, hd⟩ := Option.isSome_iff_exists.mp h
  have hAscii := forall_ascii (P := fun c => isDigit c = true → c.toLower.toUpper.toLower = c.toLower)
    (by decide) (toNat_lt_of_value? hd)
  exact hAscii h

theorem toLower_toLower {c : Char} (h : isDigit c) : c.toLower.toLower = c.toLower := by
  obtain ⟨d, hd⟩ := Option.isSome_iff_exists.mp h
  obtain ⟨hLt, hLower⟩ := toLower_eq_digit hd
  rw [hLower, toLower_digit hLt]

theorem lower_checksumAddress (keccak256 : Bytes → Core.B256) {address : String}
    (h : (address.toList.drop 2).all isDigit) :
    ((checksumAddress keccak256 address).toList.drop 2).map Char.toLower = (address.toList.drop 2).map Char.toLower := by
  rw [checksumAddress, drop_hexText]
  refine List.ext_getElem (by simp) fun i _ hi => ?_
  rw [List.length_map] at hi
  have hDigit : isDigit (address.toList.drop 2)[i] := List.all_eq_true.mp h _ (List.getElem_mem hi)
  simp only [List.getElem_map, List.getElem_mapIdx]
  split
  · exact toLower_toUpper hDigit
  · exact toLower_toLower hDigit

theorem drop_toLowerCase (text : String) : (toLowerCase text).toList.drop 2 = (text.toList.drop 2).map Char.toLower := by
  rw [toLowerCase, String.toList_ofList, List.map_drop]

theorem isHex_of_isAddress {keccak256 : Bytes → Core.B256} {address : String} (h : isAddress keccak256 address) :
    isHex address ∧ address.toList.length = 40 + 2 := by
  rw [isAddress] at h
  split at h
  · cases h
  · rename_i hRegex
    simpa [addressRegex] using hRegex

end Hexadecimal

section Agreement

variable {keccak256 : Bytes → Core.B256} {serde : Serde} {members registry : List (String × Json)} {address name : String}
  {accepted : List Nat} {ours : NetworkDescriptor} {theirs : Core.NetworkDescriptor} {value : Json}

theorem lookup_eq_member {record : List (String × Json)} {keys : List String} {key : String}
    (hKeys : (record.map Prod.fst).Perm keys) (hKey : key ∈ keys) : record.lookup key = some (member record key) := by
  cases hLookup : record.lookup key with
  | some value => rw [member, hLookup, Option.getD_some]
  | none =>
    rw [List.lookup_eq_none_iff] at hLookup
    obtain ⟨entry, hEntry, hFst⟩ := List.mem_map.mp (hKeys.mem_iff.mpr hKey)
    have hNe := hLookup entry hEntry
    simp [hFst] at hNe

theorem member_of_lookup {record : List (String × Json)} {key : String} (h : record.lookup key = some value) :
    member record key = value := by
  rw [member, h, Option.getD_some]

theorem sorted_toNat (recordTypes : List UInt32) :
    (recordTypes.map UInt32.toNat).insertionSort (· ≤ ·) = (recordTypes.insertionSort (· ≤ ·)).map UInt32.toNat :=
  (List.map_insertionSort _ _ UInt32.toNat recordTypes fun _ _ _ _ => UInt32.le_iff_toNat_le).symm

theorem map_toNat_ofNat (h : ∀ recordType ∈ accepted, recordType ≤ uint32Max) :
    (accepted.map UInt32.ofNat).map UInt32.toNat = accepted := by
  rw [List.map_map, List.map_congr_left (g := id), List.map_id]
  intro recordType hMem
  exact UInt32.toNat_ofNat_of_lt' (Nat.lt_succ_of_le (h recordType hMem))

theorem literal_le {n literal : Nat} (hSpells : value.Spells n) (hSafe : value = .number n → n ≤ maxSafeInteger)
    (h : value = .number literal) : literal ≤ maxSafeInteger := by
  subst h
  cases hSpells
  exact hSafe rfl

theorem deserializeAddress_string (hHex : isHex address) (hLength : address.toList.length = 40 + 2) :
    Core.deserializeAddress serde (.string address) =
      some ⟨number (address.toList.drop 2), number_lt_of_isHex hHex hLength⟩ := by
  rw [Core.deserializeAddress, (fixedHex_eq_some (isHex_iff.mp hHex).1).mpr ⟨hHex, hLength, rfl⟩]
  exact congrArg some (Fin.ext (Nat.mod_eq_of_lt (number_lt_of_isHex hHex hLength)))

theorem deserializeNamespace_string (hHex : isHex name) (hLength : name.toList.length = 64 + 2) :
    Core.deserializeNamespace (.string name) =
      some ⟨⟨number (name.toList.drop 2), number_lt_of_isHex hHex hLength⟩⟩ := by
  rw [Core.deserializeNamespace, Core.Namespace.fromStr,
    (fixedHex_eq_some (isHex_iff.mp hHex).1).mpr ⟨hHex, hLength, rfl⟩]
  exact congrArg (fun bytes => some (Core.Namespace.mk bytes))
    (Fin.ext (Nat.mod_eq_of_lt (number_lt_of_isHex hHex hLength)))

/-- Whatever the browser client takes is portable, and `from_json` reads the same from it. -/
theorem Parsed.read (serde : Serde) (h : Parsed keccak256 members registry address name accepted ours) :
    Portable keccak256 (.object members) ∧ ∃ theirs, Core.NetworkDescriptor.deserialize serde (.object members) = some theirs ∧
      theirs.Valid ∧ Same ours theirs := by
  have hKeys : (members.map Prod.fst).Perm Core.NetworkDescriptor.fields := h.keys.trans (by decide)
  have hFields : (registry.map Prod.fst).Perm Core.RegistryDescriptor.fields := h.registryKeys.trans (by decide)
  have hMember : ∀ key ∈ Core.NetworkDescriptor.fields, members.lookup key = some (member members key) := fun _ =>
    lookup_eq_member hKeys
  have hField : ∀ key ∈ Core.RegistryDescriptor.fields, registry.lookup key = some (member registry key) := fun _ =>
    lookup_eq_member hFields
  have hRegistry : members.lookup "registry" = some (.object registry) := by
    rw [hMember _ (by decide), h.registry_eq]
  have hAddress : registry.lookup "address" = some (.string address) := by
    rw [hField _ (by decide), h.address_eq]
  have hName : members.lookup "namespace" = some (.string name) := by
    rw [hMember _ (by decide), h.name_eq]
  have hRecordTypes : members.lookup "acceptedRecordTypes" = some (.array (accepted.map .number)) := by
    rw [hMember _ (by decide), h.recordTypes]
  have hNameHex := isHex_iff.mp h.isHex
  obtain ⟨hAddressHex, hLength⟩ := isHex_of_isAddress h.isAddress
  have hAddressDigits := (isHex_iff.mp hAddressHex).2
  have hChainLt : ours.registry.chainId < 2 ^ 256 := Nat.lt_of_le_pred (by decide) h.chainId_le
  have hBlock : (UInt64.ofNat ours.registry.deploymentBlock).toNat = ours.registry.deploymentBlock :=
    UInt64.toNat_ofNat_of_lt' (Nat.lt_of_le_pred (by decide) h.deploymentBlock_le)
  have hNumbers := map_toNat_ofNat h.bounded
  have hItems : accepted.map Json.number = (accepted.map UInt32.ofNat).map Core.serializeU32 := by
    calc accepted.map Json.number = ((accepted.map UInt32.ofNat).map UInt32.toNat).map Json.number := by rw [hNumbers]
      _ = (accepted.map UInt32.ofNat).map Core.serializeU32 := List.map_map
  refine ⟨.object hRegistry ⟨?_, ?_, address, hAddress, h.isAddress⟩ hName hNameHex.1,
    ⟨1, ⟨⟨ours.registry.chainId, hChainLt⟩, ⟨_, number_lt_of_isHex hAddressHex hLength⟩,
      .ofNat ours.registry.deploymentBlock, 7776000⟩, ⟨⟨_, number_lt_of_isHex h.isHex h.length⟩⟩,
      accepted.map UInt32.ofNat⟩, ?_, ?_, ?_⟩
  · intro literal hLiteral
    rw [hField _ (by decide)] at hLiteral
    exact literal_le h.chainId h.chainId_safe (Option.some.inj hLiteral)
  · intro literal hLiteral
    rw [hField _ (by decide)] at hLiteral
    exact literal_le h.deploymentBlock h.deploymentBlock_safe (Option.some.inj hLiteral)
  · refine Core.NetworkDescriptor.deserialize_object.mpr ⟨hKeys, ?_, ⟨_, hRegistry, ?_⟩,
      ⟨_, hName, deserializeNamespace_string h.isHex h.length⟩, _, hRecordTypes, ?_⟩
    · rw [hMember _ (by decide), h.version]
      rfl
    · refine Core.RegistryDescriptor.deserialize_object.mpr ⟨hFields, ⟨_, hField _ (by decide), h.chainId, fun hLiteral =>
        lt_of_le_of_lt (h.chainId_safe hLiteral) (by decide)⟩, ⟨_, hAddress, deserializeAddress_string hAddressHex hLength⟩,
        ⟨_, hField _ (by decide), ?_⟩, ?_⟩
      · rw [hBlock]
        exact h.deploymentBlock
      · rw [hField _ (by decide), h.maxTtl]
        rfl
    · exact Core.deserializeRecordTypes_eq_some.mpr hItems
  · refine ⟨rfl, rfl, by simpa using h.nonempty, List.Nodup.of_map UInt32.toNat ?_⟩
    rw [hNumbers]
    exact h.nodup
  · refine ⟨congrArg (·.resurrectVersion) h.result, rfl, ?_, hBlock.symm, congrArg (·.registry.maxTtlSeconds) h.result, ?_, ?_⟩
    · have hText : ours.registry.address = checksumAddress keccak256 address := congrArg (·.registry.address) h.result
      rw [hText]
      exact bytes?_of_lower hAddressDigits (by rw [List.length_drop, hLength])
        (lower_checksumAddress keccak256 hAddressDigits)
    · have hText : ours.namespace = toLowerCase name := congrArg (·.namespace) h.result
      rw [hText]
      refine bytes?_of_lower hNameHex.2 (by rw [List.length_drop, h.length]) ?_
      rw [drop_toLowerCase, List.map_map]
      exact List.map_congr_left fun c hc => toLower_toLower (List.all_eq_true.mp hNameHex.2 c hc)
    · have hSorted : ours.acceptedRecordTypes = accepted.insertionSort (· ≤ ·) := congrArg (·.acceptedRecordTypes) h.result
      rw [hSorted]
      change _ = ((accepted.map UInt32.ofNat).insertionSort (· ≤ ·)).map UInt32.toNat
      rw [← sorted_toNat, hNumbers]

theorem exists_array {recordTypes : List UInt32} (h : Core.deserializeRecordTypes value = some recordTypes) :
    value = .array ((recordTypes.map UInt32.toNat).map .number) := by
  cases value with
  | array items =>
    rw [Core.deserializeRecordTypes_eq_some.mp h, List.map_map]
    rfl
  | null => cases h
  | bool => cases h
  | number => cases h
  | string => cases h
  | object => cases h

/-- A portable value that `from_json` takes is one that the browser client takes. -/
theorem exists_parsed (hPortable : Portable keccak256 value)
    (hRead : Core.NetworkDescriptor.deserialize serde value = some theirs) (hValid : theirs.Valid) :
    ∃ ours, parseDescriptor keccak256 value = .ok ours := by
  cases hPortable with
  | @object members registry name hRegistry hPortable hName hPrefix =>
    obtain ⟨hKeys, hVersion, ⟨_, hLookup, hRegistryRead⟩, ⟨_, hNameLookup, hNameRead⟩, recordTypes, hTypesLookup, hTypesRead⟩ :=
      Core.NetworkDescriptor.deserialize_object.mp hRead
    cases Option.some.inj (hRegistry.symm.trans hLookup)
    cases Option.some.inj (hName.symm.trans hNameLookup)
    obtain ⟨hFields, ⟨chainId, hChainId, hChainSpells, -⟩, -, ⟨block, hBlock, hBlockSpells⟩, hMaxTtl⟩ :=
      Core.RegistryDescriptor.deserialize_object.mp hRegistryRead
    obtain ⟨address, hAddress, hIsAddress⟩ := hPortable.address
    obtain ⟨parsed, hParsed, -⟩ := Option.map_eq_some_iff.mp hNameRead
    obtain ⟨hHex, hLength, -⟩ := (fixedHex_eq_some hPrefix).mp hParsed
    refine ⟨⟨resurrectVersion, ⟨theirs.registry.chainId.val, checksumAddress keccak256 address,
      theirs.registry.deploymentBlock.toNat, maxTtlSeconds⟩, toLowerCase name,
      (theirs.acceptedRecordTypes.map UInt32.toNat).insertionSort (· ≤ ·)⟩, parseDescriptor_eq_ok.mpr
      ⟨members, registry, address, name, theirs.acceptedRecordTypes.map UInt32.toNat, rfl, ?_⟩⟩
    exact {
      keys := hKeys.trans (by decide)
      version := by
        rw [member_of_lookup hVersion, hValid.version]
        rfl
      registry_eq := member_of_lookup hRegistry
      registryKeys := hFields.trans (by decide)
      address_eq := member_of_lookup hAddress
      isAddress := hIsAddress
      maxTtl := by
        rw [member_of_lookup hMaxTtl, hValid.maxTtl]
        rfl
      name_eq := member_of_lookup hName
      isHex := hHex
      length := hLength
      recordTypes := by rw [member_of_lookup hTypesLookup, exists_array hTypesRead]
      bounded := by
        simp only [List.forall_mem_map]
        exact fun recordType _ => Nat.le_of_lt_succ recordType.toNat_lt
      nonempty := by simpa using hValid.nonempty
      nodup := hValid.nodup.map fun _ _ => UInt32.toNat_inj.mp
      chainId := by
        rw [member_of_lookup hChainId]
        exact hChainSpells
      chainId_safe := by
        rw [member_of_lookup hChainId]
        rintro rfl
        exact hPortable.chainId _ hChainId
      chainId_le := Nat.le_pred_of_lt theirs.registry.chainId.isLt
      deploymentBlock := by
        rw [member_of_lookup hBlock]
        exact hBlockSpells
      deploymentBlock_safe := by
        rw [member_of_lookup hBlock]
        rintro rfl
        exact hPortable.deploymentBlock _ hBlock
      deploymentBlock_le := Nat.le_pred_of_lt theirs.registry.deploymentBlock.toNat_lt
      result := rfl }

/-- The browser client takes a value exactly if it is portable and `from_json` takes it. -/
theorem exists_parsed_iff (serde : Serde) : (∃ ours, parseDescriptor keccak256 value = .ok ours) ↔
    Portable keccak256 value ∧
      ∃ theirs, Core.NetworkDescriptor.deserialize serde value = some theirs ∧ theirs.Valid := by
  constructor
  · rintro ⟨ours, h⟩
    obtain ⟨members, registry, address, name, accepted, rfl, hParsed⟩ := parseDescriptor_eq_ok.mp h
    obtain ⟨hPortable, theirs, hRead, hValid, -⟩ := hParsed.read serde
    exact ⟨hPortable, theirs, hRead, hValid⟩
  · rintro ⟨hPortable, theirs, hRead, hValid⟩
    exact exists_parsed hPortable hRead hValid

theorem same_of_parsed (hOurs : parseDescriptor keccak256 value = .ok ours)
    (hTheirs : Core.NetworkDescriptor.deserialize serde value = some theirs) : Same ours theirs := by
  obtain ⟨members, registry, address, name, accepted, rfl, hParsed⟩ := parseDescriptor_eq_ok.mp hOurs
  obtain ⟨-, read, hRead, -, hSame⟩ := hParsed.read serde
  cases Option.some.inj (hRead.symm.trans hTheirs)
  exact hSame

end Agreement

section Canonical

variable {keccak256 : Bytes → Core.B256} {serde : Serde}

theorem isHex_hexText {width n : Nat} : isHex (hexText (Hex.ofNat width n)) := by
  rw [isHex_iff, drop_hexText, toList_hexText]
  exact ⟨rfl, all_isDigit_ofNat width n⟩

theorem isAddress_lower (address : Core.Address) : isAddress keccak256 (hexText (Hex.ofNat 40 address.val)) := by
  have hRegex : addressRegex (hexText (Hex.ofNat 40 address.val)) := by
    rw [addressRegex, isHex_hexText, toList_hexText]
    simp
  have hLower : toLowerCase (hexText (Hex.ofNat 40 address.val)) = hexText (Hex.ofNat 40 address.val) := by
    refine String.toList_inj.mp ?_
    rw [toLowerCase, String.toList_ofList, toList_hexText, List.map_cons, List.map_cons, map_toLower_ofNat]
    rfl
  rw [isAddress, if_neg (not_not.mpr hRegex), if_pos hLower]

/-- What `canonical_json` prints is portable. -/
theorem portable_serialize (descriptor : Core.NetworkDescriptor) : Portable keccak256 descriptor.serialize := by
  have hRegistry : [("resurrectVersion", Core.serializeU32 descriptor.resurrectVersion),
      ("registry", descriptor.registry.serialize), ("namespace", .string descriptor.namespace.toString),
      ("acceptedRecordTypes", .array (descriptor.acceptedRecordTypes.map Core.serializeU32))].lookup "registry" =
        some (.object [("chainId", Core.serializeChainId descriptor.registry.chainId),
          ("address", Core.serializeAddress descriptor.registry.address),
          ("deploymentBlock", Core.serializeDeploymentBlock descriptor.registry.deploymentBlock),
          ("maxTtlSeconds", Core.serializeU32 descriptor.registry.maxTtlSeconds)]) := rfl
  refine .object hRegistry ⟨?_, ?_, ?_⟩ rfl ?_
  · intro literal h
    exact Core.le_of_serializeUnsigned_literal (Option.some.inj h)
  · intro literal h
    exact Core.le_of_serializeUnsigned_literal (Option.some.inj h)
  · exact ⟨_, rfl, isAddress_lower _⟩
  · rw [Core.Namespace.toString, toList_hexText]
    rfl

end Canonical

/-- A canonical text is read back in both languages with its record types sorted, is its own canonical text, and is
the text of the descriptors that differ in the order of their record types. -/
theorem canonicalJson_roundTrip {serde : Serde} {parse : String → Except String Json} {keccak256 : Bytes → Core.B256}
    (hSerde : ∀ valid : Core.NetworkDescriptor, valid.validate = .ok () →
      serde.fromStr (serde.toString valid.normalized.serialize) = some valid.normalized.serialize)
    (hParse : ∀ valid : Core.NetworkDescriptor, valid.validate = .ok () →
      parse (serde.toString valid.normalized.serialize) = .ok valid.normalized.serialize)
    {descriptor : Core.NetworkDescriptor} (hValid : descriptor.validate = .ok ()) :
    ∃ json, descriptor.canonicalJson serde = .ok json ∧
      Core.NetworkDescriptor.fromJson serde json = .ok descriptor.normalized ∧
      (∃ ours, parseDescriptorJson keccak256 parse json = .ok ours ∧ Same ours descriptor) ∧
      descriptor.normalized.canonicalJson serde = .ok json ∧
      ∀ other : Core.NetworkDescriptor, other.validate = .ok () →
        (other.canonicalJson serde = .ok json ↔ other.acceptedRecordTypes.Perm descriptor.acceptedRecordTypes ∧
          other = { descriptor with acceptedRecordTypes := other.acceptedRecordTypes }) := by
  have hDescriptor := Core.validate_eq_ok.mp hValid
  have hRead := descriptor.normalized.deserialize_serialize serde
  refine ⟨serde.toString descriptor.normalized.serialize, Core.NetworkDescriptor.canonicalJson_eq_ok.mpr ⟨hDescriptor, rfl⟩,
    Core.NetworkDescriptor.fromJson_eq_ok.mpr ⟨_, hSerde _ hValid, hRead, hDescriptor.normalized⟩, ?_, ?_, ?_⟩
  · obtain ⟨ours, hOurs⟩ := exists_parsed (@portable_serialize keccak256 _) hRead hDescriptor.normalized
    refine ⟨ours, ?_, ?_⟩
    · rw [parseDescriptorJson, hParse _ hValid]
      exact hOurs
    · have hSame := same_of_parsed hOurs hRead
      have hTypes := hSame.recordTypes
      rw [Core.NetworkDescriptor.normalized_normalized] at hTypes
      exact { hSame with recordTypes := hTypes }
  · rw [Core.NetworkDescriptor.canonicalJson_eq_ok, Core.NetworkDescriptor.normalized_normalized]
    exact ⟨hDescriptor.normalized, rfl⟩
  · intro other hOther
    rw [Core.NetworkDescriptor.canonicalJson_eq_ok, ← Core.NetworkDescriptor.normalized_inj]
    constructor
    · rintro ⟨-, hText⟩
      have hValues := hSerde other hOther
      rw [hText, hSerde _ hValid] at hValues
      have hOtherRead := other.normalized.deserialize_serialize serde
      rw [← Option.some.inj hValues, hRead] at hOtherRead
      exact (Option.some.inj hOtherRead).symm
    · intro h
      rw [h]
      exact ⟨Core.validate_eq_ok.mp hOther, rfl⟩

/-- keccak256 of the reference registry's address. -/
def sampleKeccak (_ : Bytes) : Core.B256 := 0x62975a1b8662eff16ffcf06ef690d06b76460bed34daaa28ebd0e1f35e15ba38

example : checksumAddress sampleKeccak "0x136c191b5e6541532e42ecd7c719c29d7ecdf468" =
    "0x136c191B5e6541532E42Ecd7C719C29D7ecdf468" := by decide

def sampleSerde : Serde := ⟨Json.print, Json.read, fun _ => "expected value at line 1 column 1", fun _ => none⟩

theorem sampleSerde_reads (value : Json) : sampleSerde.fromStr (sampleSerde.toString value) = some value :=
  Json.read_print value

def sampleParse (json : String) : Except String Json :=
  match Json.read json with
  | some value => .ok value
  | none => .error "Unexpected end of JSON input"

/-- The chain id is the first that is written as text, and the deployment block the last of its type. -/
def sampleDescriptor : Core.NetworkDescriptor :=
  ⟨1, ⟨9007199254740992, 0x136c191b5e6541532e42ecd7c719c29d7ecdf468, 18446744073709551615, 7776000⟩,
    ⟨0x80b9e2baaf4a666ec32337c351ad59485b3a43eca09a5f372e2f84b981123c88⟩, [2, 1]⟩

theorem canonicalJson_roundTrip_fullWidth : ∃ json, sampleDescriptor.canonicalJson sampleSerde = .ok json ∧
    Core.NetworkDescriptor.fromJson sampleSerde json = .ok { sampleDescriptor with acceptedRecordTypes := [1, 2] } ∧
    ∃ ours, parseDescriptorJson sampleKeccak sampleParse json = .ok ours ∧ Same ours sampleDescriptor := by
  have hParse : ∀ value, sampleParse (sampleSerde.toString value) = .ok value := by
    intro value
    rw [sampleParse, sampleSerde, Json.read_print]
  obtain ⟨json, hJson, hRead, hOurs, -⟩ := @canonicalJson_roundTrip sampleSerde sampleParse sampleKeccak
    (fun _ _ => sampleSerde_reads _) (fun _ _ => hParse _) sampleDescriptor (by decide)
  exact ⟨json, hJson, hRead, hOurs⟩

/-- The browser client takes what `from_json` takes as far as it is portable, and both read the same from it. -/
theorem parsers_agree {serde : Serde} {keccak256 : Bytes → Core.B256} {json : String} {value : Json}
    (hText : serde.fromStr json = some value) :
    ((∃ ours, parseDescriptor keccak256 value = .ok ours) ↔
      Portable keccak256 value ∧ ∃ theirs, Core.NetworkDescriptor.fromJson serde json = .ok theirs) ∧
    ∀ ours theirs, parseDescriptor keccak256 value = .ok ours → Core.NetworkDescriptor.fromJson serde json = .ok theirs →
      Same ours theirs := by
  constructor
  · rw [exists_parsed_iff serde]
    simp only [Core.NetworkDescriptor.fromJson_eq_ok, hText, Option.some.injEq, exists_eq_left']
  · intro ours theirs hOurs hTheirs
    obtain ⟨read, hRead, hDeserialize, -⟩ := Core.NetworkDescriptor.fromJson_eq_ok.mp hTheirs
    cases Option.some.inj (hText.symm.trans hRead)
    exact same_of_parsed hOurs hDeserialize

theorem parsers_agree_canonical : ∃ ours theirs,
    parseDescriptor sampleKeccak sampleDescriptor.serialize = .ok ours ∧
    Core.NetworkDescriptor.fromJson sampleSerde (sampleSerde.toString sampleDescriptor.serialize) = .ok theirs ∧ Same ours theirs := by
  have hAgree := @parsers_agree sampleSerde sampleKeccak _ _ (sampleSerde_reads sampleDescriptor.serialize)
  have hTheirs : Core.NetworkDescriptor.fromJson sampleSerde (sampleSerde.toString sampleDescriptor.serialize) = .ok sampleDescriptor :=
    Core.NetworkDescriptor.fromJson_eq_ok.mpr ⟨_, sampleSerde_reads _, sampleDescriptor.deserialize_serialize _,
      Core.validate_eq_ok.mp (by decide)⟩
  obtain ⟨ours, hOurs⟩ := hAgree.1.mpr ⟨portable_serialize _, _, hTheirs⟩
  exact ⟨ours, sampleDescriptor, hOurs, hTheirs, hAgree.2 ours sampleDescriptor hOurs hTheirs⟩

/-- A descriptor whose chain id is the first number beyond the safe range, as a literal. -/
def largeLiteral : Json :=
  .object [("resurrectVersion", .number 1), ("registry", .object [("chainId", .number 9007199254740992),
    ("address", .string "0x136c191b5e6541532e42ecd7c719c29d7ecdf468"), ("deploymentBlock", .number 25943058),
    ("maxTtlSeconds", .number 7776000)]),
    ("namespace", .string "0x80b9e2baaf4a666ec32337c351ad59485b3a43eca09a5f372e2f84b981123c88"),
    ("acceptedRecordTypes", .array [.number 2])]

theorem largeLiteral_parts : sampleSerde.fromStr (sampleSerde.toString largeLiteral) = some largeLiteral ∧
    (∃ theirs, Core.NetworkDescriptor.fromJson sampleSerde (sampleSerde.toString largeLiteral) = .ok theirs) ∧
    ¬ ∃ ours, parseDescriptor sampleKeccak largeLiteral = .ok ours := by
  refine ⟨sampleSerde_reads _, ?_, ?_⟩
  · have hRead : Core.NetworkDescriptor.deserialize sampleSerde largeLiteral =
        some { sampleDescriptor with
          registry := { sampleDescriptor.registry with deploymentBlock := 25943058 }, acceptedRecordTypes := [2] } := by
      decide
    exact ⟨_, Core.NetworkDescriptor.fromJson_eq_ok.mpr ⟨largeLiteral, sampleSerde_reads _, hRead,
      Core.validate_eq_ok.mp (by decide)⟩⟩
  · intro hOurs
    obtain ⟨hPortable, -⟩ := (exists_parsed_iff sampleSerde).mp hOurs
    cases hPortable with
    | object hRegistry hPortable =>
      cases Option.some.inj hRegistry
      exact absurd (hPortable.chainId _ rfl) (by decide)

end Resurrect.Browser
