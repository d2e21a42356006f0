import Resurrect.Browser.Scanner

/-! # Deriving a namespace

The recommended namespace of an application and its major version, in the node
and in the browser client: one text with the version behind the last colon, and
its hash.
-/

namespace Resurrect

open Hex

namespace Core

/-- What `Namespace::derive` hashes. -/
def namespacePreimage (applicationIdentifier : String) (majorProtocolVersion : UInt64) : Bytes :=
  let input := "resurrect:" ++ applicationIdentifier ++ ":" ++ majorProtocolVersion.toNat.repr
  input.toUTF8.data.toList

def Namespace.derive (keccak256 : Bytes → B256) (applicationIdentifier : String) (majorProtocolVersion : UInt64) :
    Namespace :=
  ⟨keccak256 (namespacePreimage applicationIdentifier majorProtocolVersion)⟩

theorem toUTF8_data_toList_injective : Function.Injective fun text : String => text.toUTF8.data.toList := by
  intro text other h
  exact String.toByteArray_inj.mp (ByteArray.ext (Array.toList_inj.mp h))

/-- Whatever colons and digits an identifier has, the last colon is the one before the version. -/
theorem namespacePreimage_inj {application other : String} {major otherMajor : UInt64} :
    namespacePreimage application major = namespacePreimage other otherMajor ↔
      application = other ∧ major = otherMajor := by
  constructor
  · intro h
    have hText := congrArg String.toList (toUTF8_data_toList_injective h)
    simp only [String.toList_append] at hText
    have hColon : ":".toList = [':'] := rfl
    rw [hColon, List.append_assoc, List.append_assoc (_ ++ _) _ _, List.singleton_append, List.singleton_append,
      Numeral.append_separator_inj rfl] at hText
    obtain ⟨hPrefixed, hMajor⟩ := hText
    exact ⟨String.toList_injective (List.append_cancel_left hPrefixed), UInt64.toNat_inj.mp hMajor⟩
  · rintro ⟨rfl, rfl⟩
    rfl

end Core

namespace Browser

def stringToHex (text : String) : String := hexText (spell text.toUTF8.data.toList)

/-- The text that is hashed; `majorVersion` is the value that `BigInt` makes of the argument. -/
def namespaceText (application : String) (majorVersion : Int) : Except String String := do
  ensure (application ≠ "") "application identifier must not be empty"
  ensure (0 ≤ majorVersion) "major protocol version must not be negative"
  pure (stringToHex ("resurrect:" ++ application ++ ":" ++ toString majorVersion))

def deriveNamespace (keccak256 : Bytes → Core.B256) (application : String) (majorVersion : Int) : Except String String := do
  let bytes ← hexToBytes (← namespaceText application majorVersion)
  pure (hexText (Hex.ofNat 64 (keccak256 bytes).val))

section Agreement

open Resurrect.Core (Namespace namespacePreimage namespacePreimage_inj)

variable {keccak256 : Bytes → Core.B256} {application other : String} {major otherMajor : UInt64}

theorem namespaceText_eq_ok (h : application ≠ "") :
    namespaceText application major.toNat = .ok (hexText (spell (namespacePreimage application major))) := by
  have hMajor : toString (major.toNat : Int) = major.toNat.repr := rfl
  rw [namespaceText, ensure_of h, ensure_of (Int.natCast_nonneg _), hMajor]
  rfl

theorem hexToBytes_spell (bytes : Bytes) : hexToBytes (hexText (spell bytes)) = .ok bytes :=
  hexToBytes_hexText (map_toLower_spell bytes)

theorem hashed_bytes (h : application ≠ "") :
    (namespaceText application major.toNat >>= hexToBytes) = .ok (namespacePreimage application major) := by
  rw [namespaceText_eq_ok h, Interaction.bind_eq_ok]
  exact ⟨_, rfl, hexToBytes_spell _⟩

theorem deriveNamespace_eq_ok (h : application ≠ "") : deriveNamespace keccak256 application major.toNat =
    .ok (hexText (Hex.ofNat 64 (Namespace.derive keccak256 application major).bytes.val)) := by
  rw [deriveNamespace, namespaceText_eq_ok h, Interaction.bind_eq_ok]
  exact ⟨_, rfl, by rw [hexToBytes_spell, Interaction.bind_eq_ok]; exact ⟨_, rfl, rfl⟩⟩

theorem eq_or_collision (h : Namespace.derive keccak256 application major = Namespace.derive keccak256 other otherMajor) :
    (application = other ∧ major = otherMajor) ∨
      (namespacePreimage application major ≠ namespacePreimage other otherMajor ∧
        keccak256 (namespacePreimage application major) = keccak256 (namespacePreimage other otherMajor)) := by
  by_cases hSame : namespacePreimage application major = namespacePreimage other otherMajor
  · exact .inl (namespacePreimage_inj.mp hSame)
  · exact .inr ⟨hSame, congrArg Namespace.bytes h⟩

/-- Different applications and versions have different preimages, so that one namespace of two of them is a collision of
the hash, and for every nonempty identifier both clients hash the same bytes. -/
theorem namespaces_unambiguous_and_shared (application other : String) (major otherMajor : UInt64) :
    (namespacePreimage application major = namespacePreimage other otherMajor ↔
      application = other ∧ major = otherMajor) ∧
    (application ≠ "" →
      (namespaceText application major.toNat >>= hexToBytes) = .ok (namespacePreimage application major)) ∧
    ∀ keccak256 : Bytes → Core.B256,
      (application ≠ "" → deriveNamespace keccak256 application major.toNat =
        .ok (hexText (Hex.ofNat 64 (Namespace.derive keccak256 application major).bytes.val))) ∧
      (Namespace.derive keccak256 application major = Namespace.derive keccak256 other otherMajor →
        (application = other ∧ major = otherMajor) ∨
          (namespacePreimage application major ≠ namespacePreimage other otherMajor ∧
            keccak256 (namespacePreimage application major) = keccak256 (namespacePreimage other otherMajor))) :=
  ⟨namespacePreimage_inj, hashed_bytes, fun _ => ⟨deriveNamespace_eq_ok, eq_or_collision⟩⟩

/-- An identifier that ends like another with its version. -/
theorem namespaces_unambiguous_and_shared_colon :
    namespacePreimage "example:1" 2 ≠ namespacePreimage "example" 12 ∧
    ∀ keccak256 : Bytes → Core.B256, deriveNamespace keccak256 "example:1" 2 =
      .ok (hexText (Hex.ofNat 64 (Namespace.derive keccak256 "example:1" 2).bytes.val)) := by
  obtain ⟨hInj, -, hHash⟩ := namespaces_unambiguous_and_shared "example:1" "example" 2 12
  refine ⟨fun h => absurd (hInj.mp h).1 (by decide), fun keccak256 => (hHash keccak256).1 (by decide)⟩

end Agreement

end Browser

end Resurrect
