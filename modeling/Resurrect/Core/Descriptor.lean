import Resurrect.Core.PeerRecord

/-! # Network descriptors

The application configuration a client discovers peers with, and its v1
invariants. `validate` reports the first one that is violated.
-/

namespace Resurrect.Core

structure RegistryDescriptor where
  chainId : U256
  address : Address
  deploymentBlock : UInt64
  maxTtlSeconds : UInt32
  deriving DecidableEq, Repr

structure NetworkDescriptor where
  resurrectVersion : UInt32
  registry : RegistryDescriptor
  «namespace» : Namespace
  acceptedRecordTypes : List UInt32
  deriving DecidableEq, Repr

inductive DescriptorError where
  | json (message : String)
  | unsupportedVersion (version : UInt32)
  | unexpectedMaxTtl (expected actual : UInt32)
  | noAcceptedRecordTypes
  | duplicateRecordType (recordType : UInt32)
  | wrongChain (expected actual : U256)
  deriving DecidableEq, Repr

def DescriptorError.toString : DescriptorError → String
  | .json message => "invalid network descriptor JSON: " ++ message
  | .unsupportedVersion version => "unsupported Resurrect version " ++ Nat.repr version.toNat ++ "; expected 1"
  | .unexpectedMaxTtl expected actual =>
      "descriptor max TTL is " ++ Nat.repr actual.toNat ++ ", expected " ++ Nat.repr expected.toNat
  | .noAcceptedRecordTypes => "acceptedRecordTypes must contain at least one codec"
  | .duplicateRecordType recordType =>
      "record type " ++ Nat.repr recordType.toNat ++ " appears more than once"
  | .wrongChain expected actual =>
      "provider chain ID " ++ Nat.repr actual.val ++ " does not match descriptor chain ID " ++
        Nat.repr expected.val

/-- The first record type already in `unique` or repeated later. -/
def firstDuplicate (unique : List UInt32) : List UInt32 → Option UInt32
  | [] => none
  | recordType :: rest =>
      if recordType ∈ unique then some recordType else firstDuplicate (recordType :: unique) rest

def NetworkDescriptor.validate (self : NetworkDescriptor) : Except DescriptorError Unit :=
  if self.resurrectVersion ≠ Core.resurrectVersion then .error (.unsupportedVersion self.resurrectVersion)
  else if self.registry.maxTtlSeconds ≠ Core.maxTtlSeconds then
    .error (.unexpectedMaxTtl Core.maxTtlSeconds self.registry.maxTtlSeconds)
  else if self.acceptedRecordTypes = [] then .error .noAcceptedRecordTypes
  else match firstDuplicate [] self.acceptedRecordTypes with
    | some recordType => .error (.duplicateRecordType recordType)
    | none => .ok ()

def NetworkDescriptor.verifyChainId (self : NetworkDescriptor) (actual : U256) :
    Except DescriptorError Unit :=
  if actual ≠ self.registry.chainId then .error (.wrongChain self.registry.chainId actual) else .ok ()

theorem firstDuplicate_eq_none {unique recordTypes : List UInt32} :
    firstDuplicate unique recordTypes = none ↔
      recordTypes.Nodup ∧ ∀ recordType ∈ recordTypes, recordType ∉ unique := by
  induction recordTypes generalizing unique with
  | nil => simp [firstDuplicate]
  | cons recordType rest ih =>
    rw [firstDuplicate]
    split
    · rename_i hMem
      simp [hMem]
    · rename_i hNot
      rw [ih, List.nodup_cons]
      constructor
      · rintro ⟨hNodup, hRest⟩
        refine ⟨⟨fun hMem => hRest recordType hMem (by simp), hNodup⟩, fun other hOther => ?_⟩
        obtain rfl | hOther := List.mem_cons.mp hOther
        · exact hNot
        · exact fun hMem => hRest other hOther (List.mem_cons_of_mem _ hMem)
      · rintro ⟨⟨hHead, hNodup⟩, hRest⟩
        refine ⟨hNodup, fun other hOther hMem => ?_⟩
        obtain rfl | hMem := List.mem_cons.mp hMem
        · exact hHead hOther
        · exact hRest other (List.mem_cons_of_mem _ hOther) hMem

structure NetworkDescriptor.Valid (descriptor : NetworkDescriptor) : Prop where
  version : descriptor.resurrectVersion = Core.resurrectVersion
  maxTtl : descriptor.registry.maxTtlSeconds = Core.maxTtlSeconds
  nonempty : descriptor.acceptedRecordTypes ≠ []
  nodup : descriptor.acceptedRecordTypes.Nodup

theorem validate_eq_ok {self : NetworkDescriptor} : self.validate = .ok () ↔ self.Valid := by
  rw [NetworkDescriptor.validate]
  constructor
  · intro h
    split at h
    · cases h
    · split at h
      · cases h
      · split at h
        · cases h
        · split at h
          · cases h
          · rename_i hVersion hTtl hEmpty _ hNone
            exact ⟨not_not.mp hVersion, not_not.mp hTtl, hEmpty, (firstDuplicate_eq_none.mp hNone).1⟩
  · intro h
    have hNone : firstDuplicate [] self.acceptedRecordTypes = none :=
      firstDuplicate_eq_none.mpr ⟨h.nodup, by simp⟩
    rw [if_neg (not_not.mpr h.version), if_neg (not_not.mpr h.maxTtl), if_neg h.nonempty, hNone]

end Resurrect.Core
