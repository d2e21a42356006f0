import Resurrect.Libp2p.RecordRoundTrip
import Resurrect.Node.RegistryDiscovery

/-! # Seed self-announcement

`RegistryAnnouncer::announce`: the bounds and conformance checks before anything
is signed, a fresh sequence for each attempt, publication, and the time of the
next renewal.
-/

namespace Resurrect.Node

open Resurrect.Core Interaction Ethereum Bootstrap Libp2p

inductive AnnouncerQuery where
  | provider (query : ProviderQuery)
  | systemTime
  | randomRange (maximum : UInt64)
  deriving DecidableEq

/-- A registry provider, the clock, and random draws. A clock before the epoch answers nothing. -/
abbrev AnnouncerIO : Interface where
  Query := AnnouncerQuery
  Answer
    | .provider query => RegistryProvider.Answer query
    | .systemTime => Option Duration
    | .randomRange maximum => {drawn : UInt64 // drawn ≤ maximum}

instance : DecidableEq AnnouncerIO.Query := inferInstanceAs (DecidableEq AnnouncerQuery)

def publisherPart : Embedding RegistryProvider AnnouncerIO where
  query := .provider
  answer _ := Equiv.refl _

namespace AnnouncerIO

def systemTime : Prog AnnouncerIO (Option Duration) := Prog.ask (I := AnnouncerIO) .systemTime

def randomRange (maximum : UInt64) : Prog AnnouncerIO {drawn : UInt64 // drawn ≤ maximum} :=
  Prog.ask (I := AnnouncerIO) (.randomRange maximum)

end AnnouncerIO

def unixTime (now : Option Duration) : Except String UInt64 :=
  match now with
  | some duration => .ok duration.secs
  | none => .error "system clock predates the Unix epoch"

/-- The sequence a process starts from: microseconds, as far as they fit. -/
def sequenceNow (now : Option Duration) : UInt64 :=
  match now with
  | some duration =>
      if duration.asNanos / 1000 < 18446744073709551616 then .ofNat (duration.asNanos / 1000)
      else 18446744073709551614
  | none => 1

def renewalWindow (base ttl : UInt64) : UInt64 :=
  min (min (24 * 60 * 60) (Word64.saturatingSub base 1)) (Word64.saturatingSub (Word64.saturatingSub ttl base) 1)

def jitteredRenewal (base ttl : UInt64) : Prog AnnouncerIO UInt64 := do
  let window := renewalWindow base ttl
  if window = 0 then pure base
  else
    let drawn ← AnnouncerIO.randomRange (min (window.toNat * 2) 18446744073709551615).toUInt64
    pure (Word64.saturatingAdd (Word64.saturatingSub base window) drawn.val)

structure AnnouncerState where
  sequence : UInt64
  nextRenewal : UInt64
  announcements : UInt64
  deriving DecidableEq, Repr

def AnnouncerState.new (now : Option Duration) : AnnouncerState := ⟨sequenceNow now, 0, 0⟩

structure RegistryAnnouncer (library : Library) where
  descriptor : NetworkDescriptor
  keypair : library.Keypair
  addresses : List library.Multiaddr
  eligible : Bool
  renewalInterval : Duration

namespace RegistryAnnouncer

variable {library : Library} (self : RegistryAnnouncer library)

def peerId : library.PeerId := library.fromPublicKey (library.publicKey self.keypair)

def renewalDue (state : AnnouncerState) : Prog AnnouncerIO Bool := do
  if self.eligible then
    match unixTime (← AnnouncerIO.systemTime) with
    | .ok now => pure (decide (state.nextRenewal ≤ now))
    | .error _ => pure false
  else pure false

def promotionEligible (state : AnnouncerState) : Prog AnnouncerIO Bool := do
  if self.eligible then self.renewalDue state else pure false

/-- Everything that is checked before a record is signed; the TTL as the registry takes it. -/
def checkRegistry (ttl : Duration) : ExceptT BootstrapError (Prog AnnouncerIO) UInt32 := do
  if recordTypeLibp2p ∉ self.descriptor.acceptedRecordTypes then
    throw (.announcement "descriptor does not accept libp2p peer records")
  else if 4294967296 ≤ ttl.secs.toNat then
    throw (.announcement "announcement TTL exceeds uint32")
  else
    let ttl := ttl.secs.toUInt32
    if ttl = 0 ∨ self.descriptor.registry.maxTtlSeconds < ttl then
      throw (.announcement "announcement TTL is outside registry bounds")
    else
      let actualChain ← attempt (fun error => .announcement error.toString)
        (publisherPart.lift RegistryProvider.chainId)
      match self.descriptor.verifyChainId actualChain with
      | .error error => throw (.announcement error.toString)
      | .ok () =>
        let constants ← attempt (fun error => .announcement error.toString)
          (publisherPart.lift (RegistryProvider.registryConstants self.descriptor.registry.address))
        if constants.version ≠ resurrectVersion ∨ constants.maxTtl ≠ maxTtlSeconds ∨
            constants.maxTtl ≠ self.descriptor.registry.maxTtlSeconds ∨
            constants.maxRecordBytes.toNat ≠ defaultMaxRecordBytes then
          throw (.announcement "deployed registry constants do not match Resurrect v1")
        else pure ttl

/-- Signs under the next sequence, publishes, and schedules the renewal. -/
def publish (ttl : UInt32) (state : AnnouncerState) :
    Prog AnnouncerIO (Except BootstrapError Unit × AnnouncerState) := do
  let signed := { state with sequence := state.sequence + 1 }
  match signPeerRecord library self.keypair state.sequence self.addresses with
  | .error error => pure (.error (.announcement error.toString), signed)
  | .ok record =>
    match ← publisherPart.lift (RegistryProvider.announce self.descriptor.registry.address
      self.descriptor.namespace recordTypeLibp2p ttl record) with
    | .error error => pure (.error (.announcement error.toString), signed)
    | .ok _ =>
      match unixTime (← AnnouncerIO.systemTime) with
      | .error error => pure (.error (.announcement error), signed)
      | .ok now =>
        let baseRenewal := min self.renewalInterval.secs (max (ttl.toUInt64 / 2) 1)
        let renewalAfter ← jitteredRenewal baseRenewal ttl.toUInt64
        pure (.ok (), { signed with
          nextRenewal := Word64.saturatingAdd now renewalAfter
          announcements := state.announcements + 1 })

def announce (ttl : Duration) (state : AnnouncerState) :
    Prog AnnouncerIO (Except BootstrapError Unit × AnnouncerState) := do
  if !self.eligible then pure (.ok (), state)
  else
    match ← (self.checkRegistry ttl).run with
    | .error error => pure (.error error, state)
    | .ok ttl => self.publish ttl state

section Submissions

variable {self : RegistryAnnouncer library} {history : List (Event AnnouncerIO)} {target : AnnouncerQuery}

theorem invokes_checkRegistry {ttl : Duration} (h : Invokes (self.checkRegistry ttl) history target) :
    target = .provider .chainId ∨ ∃ address, target = .provider (.registryConstants address) := by
  rw [checkRegistry] at h
  split at h
  · exact absurd h invokes_throw
  split at h
  · exact absurd h invokes_throw
  dsimp only at h
  split at h
  · exact absurd h invokes_throw
  obtain h | ⟨first, actual, rest, rfl, -, h⟩ := invokes_bind.mp h
  · rw [invokes_attempt, publisherPart.reaches_lift] at h
    obtain ⟨inner, query, -, rfl, hChain⟩ := h
    exact .inl (congrArg _ (RegistryProvider.reaches_chainId.mp hChain).2)
  split at h
  · exact absurd h invokes_throw
  obtain h | ⟨second, constants, rest, rfl, -, h⟩ := invokes_bind.mp h
  · rw [invokes_attempt, publisherPart.reaches_lift] at h
    obtain ⟨inner, query, -, rfl, hConstants⟩ := h
    exact .inr ⟨_, congrArg _ (RegistryProvider.reaches_registryConstants.mp hConstants).2⟩
  split at h
  · exact absurd h invokes_throw
  · exact absurd h invokes_pure

theorem returns_checkRegistry {ttl : Duration} {trace : List (Event AnnouncerIO)} {checked : UInt32}
    (h : Returns (self.checkRegistry ttl) trace checked) :
    recordTypeLibp2p ∈ self.descriptor.acceptedRecordTypes := by
  rw [checkRegistry] at h
  split at h
  · exact absurd h returns_throw
  · rename_i hType
    exact not_not.mp hType

theorem reaches_jitteredRenewal {base ttl : UInt64} (h : (jitteredRenewal base ttl).Reaches history target) :
    history = [] ∧ ∃ maximum, target = .randomRange maximum := by
  rw [jitteredRenewal] at h
  split at h
  · exact absurd h Prog.reaches_pure
  · obtain ⟨rfl, rfl⟩ | ⟨answer, rest, -, h⟩ := Prog.reaches_ask_bind.mp h
    · exact ⟨rfl, _, rfl⟩
    · exact absurd h Prog.reaches_pure

structure Submits (announcer : RegistryAnnouncer library) (sequence : UInt64) (address : Address) (ns : Namespace)
    (recordType : UInt32) (peerRecord : Bytes) : Prop where
  address_eq : address = announcer.descriptor.registry.address
  namespace_eq : ns = announcer.descriptor.namespace
  recordType_eq : recordType = recordTypeLibp2p
  signed : signPeerRecord library announcer.keypair sequence announcer.addresses = .ok peerRecord

theorem submits_of_publish {ttl ttl' recordType : UInt32} {state : AnnouncerState} {address : Address}
    {ns : Namespace} {peerRecord : Bytes} (h : (self.publish ttl state).Reaches history
      (.provider (.announce address ns recordType ttl' peerRecord))) :
    Submits self state.sequence address ns recordType peerRecord := by
  rw [publish] at h
  dsimp only at h
  split at h
  · exact absurd h Prog.reaches_pure
  rename_i record hSigned
  obtain h | ⟨first, answer, rest, -, -, h⟩ := Prog.reaches_bind.mp h
  · obtain ⟨inner, query, -, hTarget, hAnnounce⟩ := publisherPart.reaches_lift.mp h
    obtain ⟨-, rfl⟩ := Prog.reaches_ask.mp hAnnounce
    cases hTarget
    exact ⟨rfl, rfl, rfl, hSigned⟩
  split at h
  · exact absurd h Prog.reaches_pure
  obtain ⟨-, hTarget⟩ | ⟨now, rest, -, h⟩ := Prog.reaches_ask_bind.mp h
  · cases hTarget
  split at h
  · exact absurd h Prog.reaches_pure
  generalize min self.renewalInterval.secs _ = base at h
  obtain h | ⟨drawn, renewal, rest, -, -, h⟩ := Prog.reaches_bind.mp h
  · obtain ⟨-, maximum, hTarget⟩ := reaches_jitteredRenewal h
    cases hTarget
  · exact absurd h Prog.reaches_pure

/-- Only a checked, freshly signed record is ever submitted. -/
theorem submits_of_announce {ttl : Duration} {ttl' recordType : UInt32} {state : AnnouncerState}
    {address : Address} {ns : Namespace} {peerRecord : Bytes} (h : (self.announce ttl state).Reaches history
      (.provider (.announce address ns recordType ttl' peerRecord))) :
    recordTypeLibp2p ∈ self.descriptor.acceptedRecordTypes ∧
      Submits self state.sequence address ns recordType peerRecord := by
  rw [announce] at h
  split at h
  · exact absurd h Prog.reaches_pure
  obtain h | ⟨first, checked, rest, -, hChecked, h⟩ := Prog.reaches_bind.mp h
  · obtain hTarget | ⟨address, hTarget⟩ := invokes_checkRegistry h
    · cases hTarget
    · cases hTarget
  · cases checked with
    | error error => exact absurd h Prog.reaches_pure
    | ok checked => exact ⟨returns_checkRegistry hChecked, submits_of_publish h⟩

end Submissions

end RegistryAnnouncer

end Resurrect.Node
