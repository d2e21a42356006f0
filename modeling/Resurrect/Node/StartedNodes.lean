import Resurrect.Browser.DescriptorAgreement
import Resurrect.Node.AnnounceRuns
import Resurrect.Node.IdentityAtomicity
import Resurrect.Node.Startup

/-! # What started nodes can rely on

The checks of the command line, of the announcer, of the contract and of the
readers fit together: a seed that has been started submits its announcements, and
what it submits no node that has been started for the network turns down.
-/

namespace Resurrect.Node

open Resurrect.Core Interaction Ethereum Bootstrap Libp2p
open IdentityFile (sevensEncoding identityKey)

section Started

variable {library : NodeLibrary} {keccak256 : Bytes → B256} {serde : Serde} {cli : Cli} {assembly : Assembly library}

/-- What the command line program put together from these options. -/
def Started (keccak256 : Bytes → B256) (serde : Serde) (cli : Cli) (assembly : Assembly library) : Prop :=
  ∃ trace, Returns (start cli keccak256 serde) trace assembly

theorem Started.valid (h : Started keccak256 serde cli assembly) : assembly.node.announcer.descriptor.Valid := by
  obtain ⟨trace, hReturns⟩ := h
  obtain ⟨descriptor, codecs, identity, provider, advertised, now, hAdmitted, rfl⟩ := returns_start hReturns
  exact hAdmitted.valid

theorem Started.accepts (h : Started keccak256 serde cli assembly) : ∀ address ∈ assembly.node.announcer.addresses,
    (endpointPolicy cli).accepts (library.protocols address) (some assembly.node.announcer.peerId) .nativeServer =
      true := by
  obtain ⟨trace, hReturns⟩ := h
  obtain ⟨descriptor, codecs, identity, provider, advertised, now, hAdmitted, rfl⟩ := returns_start hReturns
  exact hAdmitted.accepted

/-- The record types of the network, and no others, have the codecs of `build_codecs`. -/
theorem Started.get_codecs (h : Started keccak256 serde cli assembly) (recordType : UInt32) :
    assembly.node.discovery.codecs.get recordType =
      if recordType ∈ assembly.node.discovery.descriptor.acceptedRecordTypes then
        codecOf library (endpointPolicy cli) recordType else none := by
  obtain ⟨trace, hReturns⟩ := h
  obtain ⟨descriptor, codecs, identity, provider, advertised, now, hAdmitted, rfl⟩ := returns_start hReturns
  exact (registerCodecs_eq_ok hAdmitted.codecs_eq).2 recordType

theorem Started.cache_codecs (h : Started keccak256 serde cli assembly) :
    assembly.cache = .opened assembly.node.discovery.codecs assembly.node.discovery.descriptor.acceptedRecordTypes
      .nativeServer defaultMaxActiveCandidates ∧
    assembly.node.discovery.scannerConfig = scannerConfig cli := by
  obtain ⟨trace, hReturns⟩ := h
  obtain ⟨descriptor, codecs, identity, provider, advertised, now, hAdmitted, rfl⟩ := returns_start hReturns
  exact ⟨rfl, rfl⟩

theorem endpointPolicy_mono {other : Cli} (h : cli.allowPrivateEndpoints = true → other.allowPrivateEndpoints = true)
    {ip : IpAddr} (hAccepted : (endpointPolicy cli).acceptIp ip = true) :
    (endpointPolicy other).acceptIp ip = true := by
  rw [endpointPolicy] at hAccepted ⊢
  by_cases hOther : other.allowPrivateEndpoints = true
  · rw [if_pos hOther]
    split at hAccepted
    · exact hAccepted
    · exact EndpointPolicy.acceptIp_localTesting hAccepted
  · rw [if_neg hOther]
    rwa [if_neg fun hCli => hOther (h hCli)] at hAccepted

end Started

section Announced

variable {library : Library} (announcer : RegistryAnnouncer library)

/-- The candidate of a record that was signed under a sequence, with every endpoint. -/
def signedCandidate (sequence : UInt64) (bytes : Bytes) : PeerCandidate where
  recordType := recordTypeLibp2p
  peerId := library.toBytes announcer.peerId
  sequence := sequence
  endpoints := announcer.addresses.map fun address => ⟨library.toString address⟩
  rawSignedRecord := bytes
  expiresAt := 0
  source := .resurrectRegistry
  announcementBlock := none
  announcementLogIndex := none

variable {announcer} {codec : Libp2pPeerRecordCodec} {codecs : CodecRegistry} {policy : AnnouncementPolicy}
  {log : Announcement}

/-- A record whose endpoints are all accepted is judged with all of them. -/
theorem decodeAndVerify_accepted (hLawful : library.Lawful) {sequence : UInt64} {bytes : Bytes}
    (hSigned : signPeerRecord library announcer.keypair sequence announcer.addresses = .ok bytes)
    {dialContext : DialContext} (hFew : announcer.addresses.length ≤ codec.maxEndpoints)
    (hAccepts : ∀ address ∈ announcer.addresses,
      codec.policy.accepts (library.protocols address) (some announcer.peerId) dialContext = true) :
    codec.decodeAndVerify library bytes dialContext = .ok (signedCandidate announcer sequence bytes) := by
  obtain ⟨hSome, -⟩ := signPeerRecord_eq_ok.mp hSigned
  obtain ⟨address, hMem⟩ := List.exists_mem_of_ne_nil _ hSome
  have hDecoded : codec.decodeAndVerify library bytes dialContext =
      codec.judge library announcer.peerId sequence announcer.addresses dialContext bytes :=
    codec.decodeAndVerify_signed hLawful hSigned dialContext
  have hUsable : ¬ ∀ address ∈ announcer.addresses,
      codec.policy.accepts (library.protocols address) (some announcer.peerId) dialContext = false := by
    intro hRejects
    have hRejected := hRejects address hMem
    rw [hAccepts address hMem] at hRejected
    cases hRejected
  rw [hDecoded, Libp2pPeerRecordCodec.judge, if_neg (not_lt.mpr hFew), if_neg hUsable,
    Libp2pPeerRecordCodec.acceptedEndpoints, List.filter_eq_self.mpr hAccepts]
  rfl

/-- An announcement of such a record is valid until it expires. -/
theorem validateAnnouncement_accepted (hLawful : library.Lawful) {sequence : UInt64}
    (hSigned : signPeerRecord library announcer.keypair sequence announcer.addresses = .ok log.peerRecord)
    (hNamespace : log.namespace = policy.expectedNamespace) (hType : log.recordType = recordTypeLibp2p)
    (hMem : recordTypeLibp2p ∈ policy.acceptedRecordTypes) (hLive : policy.chainTime < log.validUntil)
    (hBytes : policy.maxRecordBytes = maxEnvelopeBytes)
    (hCodec : codecs.get recordTypeLibp2p = some (codec.codec library))
    (hFew : announcer.addresses.length ≤ min codec.maxEndpoints policy.maxEndpoints)
    (hAccepts : ∀ address ∈ announcer.addresses,
      codec.policy.accepts (library.protocols address) (some announcer.peerId) policy.dialContext = true) :
    codecs.validateAnnouncement log policy = .ok
      ((signedCandidate announcer sequence log.peerRecord).announcedBy log) := by
  obtain ⟨hCodecMax, hPolicyMax⟩ := le_min_iff.mp hFew
  have hDecoded := decodeAndVerify_accepted hLawful hSigned hCodecMax hAccepts
  obtain ⟨-, -, signature, -, hSealed, hSize⟩ := signPeerRecord_eq_ok.mp hSigned
  refine validateAnnouncement_eq_ok.mpr ⟨codec.codec library, signedCandidate announcer sequence log.peerRecord, ?_,
    rfl⟩
  constructor
  · exact hNamespace
  · rw [hType]
    exact hMem
  · exact hLive
  · rw [hSealed]
    exact Envelope.encodeToVec_ne_nil _ (List.cons_ne_nil _ _)
  · rw [hBytes]
    exact hSize
  · rw [hType]
    exact hCodec
  · exact hDecoded
  · exact hType.symm
  · rw [signedCandidate, List.length_map]
    exact hPolicyMax

end Announced

namespace RegistryAnnouncer

section Checks

variable {library : Library} {self : RegistryAnnouncer library} {trace : List (Event AnnouncerIO)} {ttl : Duration}

/-- The provider is on the network's chain, with the contract of v1. -/
structure Conforms (descriptor : NetworkDescriptor) (trace : List (Event AnnouncerIO)) : Prop where
  chainId : ∀ answer, (⟨.provider .chainId, answer⟩ : Event AnnouncerIO) ∈ trace →
    answer = .ok descriptor.registry.chainId
  constants : ∀ address answer, (⟨.provider (.registryConstants address), answer⟩ : Event AnnouncerIO) ∈ trace →
    answer = .ok v1Constants

/-- The TTL that is passed on is the one asked for, and within the bounds of the registry. -/
theorem ttl_of_checkRegistry {checked : UInt32} (h : Returns (self.checkRegistry ttl) trace checked) :
    checked.toNat = ttl.secs.toNat ∧ 0 < checked.toNat ∧
      checked.toNat ≤ self.descriptor.registry.maxTtlSeconds.toNat := by
  rw [checkRegistry] at h
  split at h
  · exact absurd h returns_throw
  split at h
  · exact absurd h returns_throw
  rename_i hFits
  dsimp only at h
  split at h
  · exact absurd h returns_throw
  rename_i hBounds
  obtain ⟨hZero, hMax⟩ := not_or.mp hBounds
  have hTtl : ttl.secs.toUInt32.toNat = ttl.secs.toNat := by
    rw [UInt64.toNat_toUInt32]
    exact Nat.mod_eq_of_lt (by omega)
  have hChecked : checked = ttl.secs.toUInt32 := by
    obtain ⟨_, _, _, -, -, h⟩ := returns_bind.mp h
    split at h
    · exact absurd h returns_throw
    obtain ⟨_, _, _, -, -, h⟩ := returns_bind.mp h
    split at h
    · exact absurd h returns_throw
    · exact (returns_pure.mp h).2
  rw [hChecked]
  refine ⟨hTtl, Nat.pos_of_ne_zero fun hNone => hZero (UInt32.toNat_inj.mp hNone), ?_⟩
  exact UInt32.le_iff_toNat_le.mp (UInt32.not_lt.mp hMax)

theorem runs_chainId {answer : Except ProviderError U256} :
    (publisherPart.lift RegistryProvider.chainId).Runs trace answer ↔ trace = [⟨.provider .chainId, answer⟩] := by
  rw [publisherPart.runs_lift]
  simp only [RegistryProvider.runs_chainId]
  constructor
  · rintro ⟨inner, rfl, rfl⟩
    rfl
  · rintro rfl
    exact ⟨_, rfl, rfl⟩

theorem runs_registryConstants {address : Address} {answer : Except ProviderError RegistryConstants} :
    (publisherPart.lift (RegistryProvider.registryConstants address)).Runs trace answer ↔
      trace = [⟨.provider (.registryConstants address), answer⟩] := by
  rw [publisherPart.runs_lift]
  simp only [RegistryProvider.runs_registryConstants]
  constructor
  · rintro ⟨inner, rfl, rfl⟩
    rfl
  · rintro rfl
    exact ⟨_, rfl, rfl⟩

/-- Before a conforming provider the checks are passed, if the network has libp2p records and the TTL is in bounds. -/
theorem not_throws_checkRegistry (hType : recordTypeLibp2p ∈ self.descriptor.acceptedRecordTypes)
    (hValid : self.descriptor.Valid) (hPos : 0 < ttl.secs.toNat)
    (hMax : ttl.secs.toNat ≤ self.descriptor.registry.maxTtlSeconds.toNat) (hConforms : Conforms self.descriptor trace)
    {error : BootstrapError} : ¬ Throws (self.checkRegistry ttl) trace error := by
  have hBound := self.descriptor.registry.maxTtlSeconds.toNat_lt
  have hTtl : ttl.secs.toUInt32.toNat = ttl.secs.toNat := by
    rw [UInt64.toNat_toUInt32]
    exact Nat.mod_eq_of_lt (by omega)
  have hInBounds : ¬ (ttl.secs.toUInt32 = 0 ∨ self.descriptor.registry.maxTtlSeconds < ttl.secs.toUInt32) := by
    rw [← UInt32.toNat_inj, UInt32.lt_iff_toNat_lt, hTtl]
    change ¬ (ttl.secs.toNat = 0 ∨ _)
    omega
  intro h
  rw [checkRegistry, if_neg (not_not.mpr hType), if_neg (by omega)] at h
  dsimp only at h
  rw [if_neg hInBounds] at h
  obtain hChain | ⟨first, actual, second, rfl, hChain, hRest⟩ := throws_bind.mp h
  · obtain ⟨cause, hRuns, -⟩ := throws_attempt.mp hChain
    rw [runs_chainId.mp hRuns] at hConforms
    cases hConforms.chainId _ (List.mem_singleton_self _)
  rw [returns_attempt, runs_chainId] at hChain
  subst hChain
  obtain rfl : actual = self.descriptor.registry.chainId := Except.ok.inj (hConforms.chainId _ List.mem_cons_self)
  have hVerify : self.descriptor.verifyChainId self.descriptor.registry.chainId = .ok () := if_neg (not_not.mpr rfl)
  rw [hVerify] at hRest
  dsimp only at hRest
  obtain hConstants | ⟨third, constants, rest, rfl, hConstants, hLast⟩ := throws_bind.mp hRest
  · obtain ⟨cause, hRuns, -⟩ := throws_attempt.mp hConstants
    rw [runs_registryConstants.mp hRuns] at hConforms
    cases hConforms.constants _ _ (List.mem_cons_of_mem _ (List.mem_singleton_self _))
  rw [returns_attempt, runs_registryConstants] at hConstants
  subst hConstants
  obtain rfl : constants = v1Constants :=
    Except.ok.inj (hConforms.constants _ _ (List.mem_cons_of_mem _ List.mem_cons_self))
  rw [if_neg] at hLast
  · exact throws_pure hLast
  · rw [hValid.maxTtl]
    decide

/-- What can be signed is submitted. -/
theorem PublishRun.submitted {checked : UInt32} {state : AnnouncerState}
    {result : Except BootstrapError Unit × AnnouncerState}
    (h : self.PublishRun checked state trace result) {record : Bytes}
    (hSigned : signPeerRecord library self.keypair state.sequence self.addresses = .ok record) :
    ∃ answer, (⟨self.submission checked record, answer⟩ : Event AnnouncerIO) ∈ trace := by
  cases h with
  | unsigned hSign =>
    rw [hSigned] at hSign
    cases hSign
  | refused hSign =>
    obtain rfl := Except.ok.inj (hSigned.symm.trans hSign)
    exact ⟨_, List.mem_cons_self⟩
  | unclocked hSign =>
    obtain rfl := Except.ok.inj (hSigned.symm.trans hSign)
    exact ⟨_, List.mem_cons_self⟩
  | scheduled hSign hRenewal =>
    obtain rfl := Except.ok.inj (hSigned.symm.trans hSign)
    exact ⟨_, List.mem_cons_self⟩

end Checks

end RegistryAnnouncer

section Network

variable {library : NodeLibrary} {keccak256 : Bytes → B256} {serde : Serde}

/-- What a seed that has been started has beyond a node. -/
theorem Started.seed {cli : Cli} {seed : Assembly library} (h : Started keccak256 serde cli seed)
    (hSeed : cli.seed = true) :
    seed.node.announcer.eligible = true ∧ seed.provider.writable = true ∧ seed.node.announcer.addresses ≠ [] ∧
      seed.node.announcer.addresses.length ≤ defaultMaxEndpointsPerRecord ∧
      Bounded cli seed.node.announcer.descriptor.registry.maxTtlSeconds ∧
        seed.supervisor.policy = supervisorPolicy cli := by
  obtain ⟨trace, hReturns⟩ := h
  obtain ⟨descriptor, codecs, identity, provider, advertised, now, hAdmitted, rfl⟩ := returns_start hReturns
  obtain ⟨hKey, hAdvertise⟩ := hAdmitted.seed hSeed
  refine ⟨hSeed, ?_, ?_, hAdmitted.few, hAdmitted.bounded, rfl⟩
  · obtain ⟨secret, hSecret⟩ := Option.ne_none_iff_exists'.mp hKey
    have hProvider := hAdmitted.provider_eq
    rw [registryProvider, hSecret, bind_eq_ok] at hProvider
    obtain ⟨signer, -, hSigned⟩ := hProvider
    rw [withSigner] at hSigned
    cases hUrl : parseUrl library cli.rpcUrl with
    | error error =>
      rw [hUrl] at hSigned
      cases hSigned
    | ok parsed =>
      rw [hUrl] at hSigned
      exact (congrArg AlloyRegistryProvider.writable (Except.ok.inj hSigned)).symm
  · have hParsed := hAdmitted.parsed
    intro hNone
    obtain ⟨first, rest, hCons⟩ := List.exists_cons_of_ne_nil hAdvertise
    have hEmpty : advertised = [] := hNone
    rw [parseMultiaddrs, hCons, hEmpty, List.mapM_cons, bind_eq_ok] at hParsed
    obtain ⟨_, -, hParsed⟩ := hParsed
    rw [bind_eq_ok] at hParsed
    obtain ⟨_, -, hParsed⟩ := hParsed
    cases hParsed

/-- A started seed submits every announcement it is asked for with one of its TTLs, if its provider conforms and its
libraries sign; that is, where its network has libp2p records at all and the signed envelope is of a size to send. -/
theorem started_seed_submits {cli : Cli} {seed : Assembly library} (hStarted : Started keccak256 serde cli seed)
    (hSeed : cli.seed = true) {ttl : Duration}
    (hTtl : ttl = seed.supervisor.policy.bootstrap.rebootTtl ∨ ttl = seed.supervisor.policy.maintenanceTtl)
    {state next : AnnouncerState} {trace : List (Event AnnouncerIO)} {result : Except BootstrapError Unit}
    (hRuns : (seed.node.announcer.announce ttl state).Runs trace (result, next))
    (hConforms : RegistryAnnouncer.Conforms seed.node.announcer.descriptor trace) {signature : Bytes}
    (hSign : library.sign seed.node.announcer.keypair (signingInput peerRecordPayloadType (recordPayload
      library.toLibrary seed.node.announcer.keypair state.sequence seed.node.announcer.addresses).encodeToVec) =
        .ok signature) :
    seed.provider.writable = true ∧ ((∃ answer record, signPeerRecord library.toLibrary seed.node.announcer.keypair
        state.sequence seed.node.announcer.addresses = .ok record ∧
        (⟨.provider (.announce seed.node.announcer.descriptor.registry.address seed.node.announcer.descriptor.namespace
          recordTypeLibp2p ttl.secs.toUInt32 record), answer⟩ : Event AnnouncerIO) ∈ trace) ↔
      recordTypeLibp2p ∈ seed.node.announcer.descriptor.acceptedRecordTypes ∧
        (sealedEnvelope library.toLibrary seed.node.announcer.keypair (recordPayload library.toLibrary
          seed.node.announcer.keypair state.sequence seed.node.announcer.addresses).encodeToVec
            signature).encodeToVec.length ≤ maxEnvelopeBytes) := by
  obtain ⟨hEligible, hWritable, hSome, hFew, hBounded, hPolicy⟩ := hStarted.seed hSeed
  have hValid := hStarted.valid
  have hBounds : 0 < ttl.secs.toNat ∧ ttl.secs.toNat ≤ seed.node.announcer.descriptor.registry.maxTtlSeconds.toNat := by
    rw [hPolicy] at hTtl
    obtain rfl | rfl := hTtl
    · exact hBounded.rebootTtl
    · exact hBounded.maintenanceTtl
  refine ⟨hWritable, ?_, ?_⟩
  · rintro ⟨answer, record, hSigned, hMem⟩
    obtain ⟨before, after, rfl⟩ := List.append_of_mem hMem
    refine ⟨(RegistryAnnouncer.submits_of_announce hRuns.reaches).1, ?_⟩
    obtain ⟨-, -, other, hOther, rfl, hSize⟩ := signPeerRecord_eq_ok.mp hSigned
    obtain rfl := Except.ok.inj (hSign.symm.trans hOther)
    exact hSize
  · rintro ⟨hType, hSize⟩
    have hSigned : signPeerRecord library.toLibrary seed.node.announcer.keypair state.sequence
        seed.node.announcer.addresses = .ok _ := signPeerRecord_eq_ok.mpr ⟨hSome, hFew, signature, hSign, rfl, hSize⟩
    cases RegistryAnnouncer.announceRun_of_runs hRuns with
    | ineligible hIneligible =>
      rw [hEligible] at hIneligible
      cases hIneligible
    | unchecked hCheck =>
      exact absurd hCheck (RegistryAnnouncer.not_throws_checkRegistry hType hValid hBounds.1 hBounds.2 hConforms)
    | attempted hCheck hPublish =>
      rename_i checks published checked
      obtain ⟨hChecked, -, -⟩ := RegistryAnnouncer.ttl_of_checkRegistry hCheck
      have hTtl : checked = ttl.secs.toUInt32 := by
        rw [← UInt32.toNat_inj, hChecked, UInt64.toNat_toUInt32, Nat.mod_eq_of_lt]
        exact hBounds.2.trans_lt (UInt32.toNat_lt _)
      obtain ⟨answer, hMem⟩ := hPublish.submitted hSigned
      rw [hTtl] at hMem
      exact ⟨answer, _, hSigned, List.mem_append_right _ hMem⟩

/-- What a started node demands of announcements, at a time of the chain or of its own clock. -/
def networkPolicy (descriptor : NetworkDescriptor) (time : UInt64) : AnnouncementPolicy where
  expectedNamespace := descriptor.namespace
  acceptedRecordTypes := descriptor.acceptedRecordTypes
  chainTime := time
  maxRecordBytes := defaultMaxRecordBytes
  maxEndpoints := defaultMaxEndpointsPerRecord
  dialContext := .nativeServer

theorem submitted_of_announce {library : Library} {announcer : RegistryAnnouncer library} {ttl : Duration}
    {state : AnnouncerState} {history : List (Event AnnouncerIO)} {address : Address} {ns : Namespace}
    {recordType supplied : UInt32} {record : Bytes} (h : (announcer.announce ttl state).Reaches history
      (.provider (.announce address ns recordType supplied record))) :
    supplied.toNat = ttl.secs.toNat ∧ 0 < supplied.toNat ∧
      supplied.toNat ≤ announcer.descriptor.registry.maxTtlSeconds.toNat := by
  obtain hCheck | ⟨checks, checked, published, -, hCheck, hPublish⟩ := RegistryAnnouncer.reaches_announce h
  · obtain hTarget | ⟨_, hTarget⟩ := RegistryAnnouncer.invokes_checkRegistry hCheck
    · cases hTarget
    · cases hTarget
  · obtain ⟨signed, -, ⟨-, hTarget⟩ | ⟨_, _, -, -, hTarget | ⟨_, hTarget⟩⟩⟩ :=
      RegistryAnnouncer.reaches_publish hPublish
    · cases hTarget
      exact RegistryAnnouncer.ttl_of_checkRegistry hCheck
    · cases hTarget
    · cases hTarget

/-- Whatever a started seed submits, the contract accepts, as long as the expiry fits, and every node that has been
started for the network, and allows the addresses that the seed allows, takes it with all of its endpoints, from the
registry and from its cache, until it expires. -/
theorem started_announcements_accepted (hLawful : library.toLibrary.Lawful) {cli readerCli : Cli}
    {seed reader : Assembly library} (hSeed : Started keccak256 serde cli seed)
    (hReader : Started keccak256 serde readerCli reader)
    (hNetwork : reader.node.discovery.descriptor = seed.node.announcer.descriptor)
    (hPrivate : cli.allowPrivateEndpoints = true → readerCli.allowPrivateEndpoints = true) {ttl : Duration}
    {state : AnnouncerState} {history : List (Event AnnouncerIO)} {address : Address} {ns : Namespace}
    {recordType supplied : UInt32} {record : Bytes}
    (hSubmitted : (seed.node.announcer.announce ttl state).Reaches history
      (.provider (.announce address ns recordType supplied record))) {blockTimestamp : U256}
    (hClock : blockTimestamp.val + ttl.secs.toNat < 2 ^ 64) :
    ∃ validUntil : UInt64, validUntil.toNat = blockTimestamp.val + ttl.secs.toNat ∧
      ResurrectBeaconV1.announce blockTimestamp ns recordType supplied record = .ok
        ⟨ns, recordType, validUntil, record⟩ ∧
      (∀ log : Announcement, log.namespace = ns → log.recordType = recordType → log.validUntil = validUntil →
        log.peerRecord = record → ∀ head : BlockInfo, head.timestamp < validUntil →
        reader.node.discovery.codecs.validateAnnouncement log
          (reader.node.discovery.scanner.policy reader.node.discovery.descriptor v1Constants head) =
            .ok ((signedCandidate seed.node.announcer state.sequence record).announcedBy log)) ∧
      ∀ row : CachedRow, row.recordType = recordType → row.expiresAt = validUntil → row.rawSignedRecord = record →
        ∀ now < validUntil, reader.cache.revalidate ns now row = some
          { (signedCandidate seed.node.announcer state.sequence record).announcedBy
            (SqlitePeerCache.announcement ns row) with
            source := .localCache } := by
  obtain ⟨hType, rfl, rfl, rfl, hSigned⟩ := RegistryAnnouncer.submits_of_announce hSubmitted
  obtain ⟨hSupplied, hPos, hMax⟩ := submitted_of_announce hSubmitted
  obtain ⟨hSome, hFew, signature, -, hSealed, hSize⟩ := signPeerRecord_eq_ok.mp hSigned
  have hMaxTtl := hSeed.valid.maxTtl
  rw [hMaxTtl] at hMax
  have hBlock : (UInt64.ofNat blockTimestamp.val).toNat = blockTimestamp.val :=
    UInt64.toNat_ofNat_of_lt' ((Nat.le_add_right _ _).trans_lt hClock)
  have hFits : blockTimestamp.val + supplied.toNat < 2 ^ 64 := by omega
  let validUntil := UInt64.ofNat (blockTimestamp.val + supplied.toNat)
  have hUntil : validUntil.toNat = blockTimestamp.val + supplied.toNat := UInt64.toNat_ofNat_of_lt' hFits
  have hAccepts : ∀ address ∈ seed.node.announcer.addresses, (endpointPolicy readerCli).accepts
      (library.protocols address) (some seed.node.announcer.peerId) .nativeServer = true :=
    fun address hMem => EndpointPolicy.accepts_mono (fun _ => endpointPolicy_mono hPrivate) (hSeed.accepts address hMem)
  have hCodec : reader.node.discovery.codecs.get recordTypeLibp2p = some (Libp2pPeerRecordCodec.codec library.toLibrary
      ⟨endpointPolicy readerCli, defaultMaxEndpointsPerRecord⟩) := by
    rw [hReader.get_codecs, hNetwork, if_pos hType]
    rfl
  obtain ⟨hCache, hConfig⟩ := hReader.cache_codecs
  refine ⟨validUntil, hUntil.trans (congrArg _ hSupplied), ResurrectBeaconV1.announce_eq_ok.mpr ⟨?_, rfl⟩, ?_, ?_⟩
  · constructor
    · exact hPos
    · exact hMax
    · rw [hSealed]
      exact List.length_pos_iff.mpr (Envelope.encodeToVec_ne_nil _ (List.cons_ne_nil _ _))
    · exact hSize
    · rw [hBlock]
      exact hUntil
  · intro log hNamespace hLogType hLogUntil hRecord head hLive
    subst hRecord
    have hPolicy : reader.node.discovery.scanner.policy reader.node.discovery.descriptor v1Constants head =
        networkPolicy reader.node.discovery.descriptor head.timestamp := by
      rw [RegistryDiscovery.scanner, hConfig]
      rfl
    rw [hPolicy, hNetwork]
    exact validateAnnouncement_accepted hLawful hSigned hNamespace hLogType hType (hLive.trans_eq hLogUntil.symm) rfl
      hCodec
      (le_min hFew hFew) hAccepts
  · intro row hRowType hRowUntil hRow now hLive
    subst hRow
    have hPolicy : reader.cache.policy seed.node.announcer.descriptor.namespace now =
        networkPolicy reader.node.discovery.descriptor now := by
      rw [hCache, hNetwork]
      rfl
    have hCodecs : reader.cache.codecs = reader.node.discovery.codecs := by rw [hCache]; rfl
    have hValid : reader.node.discovery.codecs.validateAnnouncement
        (SqlitePeerCache.announcement seed.node.announcer.descriptor.namespace row)
        (networkPolicy seed.node.announcer.descriptor now) = .ok _ :=
      validateAnnouncement_accepted hLawful hSigned rfl hRowType hType (hLive.trans_eq hRowUntil.symm) rfl hCodec
        (le_min hFew hFew) hAccepts
    rw [SqlitePeerCache.revalidate, hPolicy, hCodecs, hNetwork, hValid]
    rfl

end Network

section Mainnet

/-- The libraries of the example, with the identity of the seed of sevens. -/
def seedLibrary : NodeLibrary where
  toNativeLibrary := { exampleLibrary with
    parse := fun text =>
      if text = "/dns4/seed.example/tcp/443/wss" then .ok (some .browser)
      else if text = "/ip4/127.0.0.1/udp/30303" then .ok none
      else .error "invalid multiaddr" }
  generateEd25519 _ := ()
  toProtobufEncoding _ := .ok sevensEncoding
  fromProtobufEncoding bytes := if bytes = sevensEncoding then .ok () else .error "failed to decode private key bytes"
  peerText _ := "12D3KooWRawPbxPtP1eZaJpumGnyWX2DcUyd3RQnydr3eAto4Az7"
  Signer := Unit
  parseSigner _ := .ok ()
  urlScheme _ := .ok "https"

instance decidableStartupQuery : DecidableEq (Startup seedLibrary).Query :=
  inferInstanceAs (DecidableEq (StartupQuery Unit (Option VectorAddress)))

def seedCli : Cli where
  «namespace» := some developmentDescriptor.namespace
  rpcUrl := "https://ethereum.example"
  identity := identityKey
  listen := ["/ip4/127.0.0.1/udp/30303"]
  advertise := ["/dns4/seed.example/tcp/443/wss"]
  seed := true
  ethereumPrivateKey := some "0x0000000000000000000000000000000000000000000000000000000000000001"

def mainnetDescriptor : NetworkDescriptor := ⟨1, ethereumMainnetRegistry, developmentDescriptor.namespace, [2]⟩

def startedSeed : Assembly seedLibrary :=
  assemble seedCli mainnetDescriptor
    (CodecRegistry.new.register (Libp2pPeerRecordCodec.codec seedLibrary.toLibrary ⟨.default, 16⟩)) () ⟨true⟩
    [some .browser] (some ⟨0, 42000⟩)

def seedStartup : List (Event (Startup seedLibrary)) :=
  [⟨.os (.read identityKey), .ok sevensEncoding⟩, ⟨.startHost () ⟨[none], [], true, ⟨120, 0⟩⟩, .ok ()⟩,
    ⟨.waitForListener ⟨10, 0⟩,
      .ok ⟨"12D3KooWRawPbxPtP1eZaJpumGnyWX2DcUyd3RQnydr3eAto4Az7", ["/ip4/127.0.0.1/udp/30303"], [], 0⟩⟩,
    ⟨.openCache "resurrect-peers.sqlite3", .ok ()⟩, ⟨.pruneExpired, .ok 0⟩, ⟨.systemTime, some ⟨0, 42000⟩⟩]

theorem started_startedSeed : Started vectorKeccak Browser.sampleSerde seedCli startedSeed :=
  ⟨seedStartup, Prog.runs_of_replay rfl⟩

def seedChecks : List (Event AnnouncerIO) :=
  [⟨.provider .chainId, .ok 1⟩, ⟨.provider (.registryConstants ethereumMainnetRegistry.address), .ok v1Constants⟩]

def seedAnnouncement : List (Event AnnouncerIO) :=
  seedChecks ++ [⟨.provider (.announce ethereumMainnetRegistry.address developmentDescriptor.namespace recordTypeLibp2p
      604800 browserRecord), .ok 1⟩,
    ⟨.systemTime, some ⟨1800000000, 0⟩⟩, ⟨.randomRange 172800, ⟨1000, by decide⟩⟩]

theorem started_seed_submits_mainnet : ∃ answer record,
    signPeerRecord seedLibrary.toLibrary () 42 [some .browser] = .ok record ∧
    (⟨.provider (.announce ethereumMainnetRegistry.address developmentDescriptor.namespace recordTypeLibp2p 604800
      record),
      answer⟩ : Event AnnouncerIO) ∈ seedAnnouncement := by
  have hRuns : (startedSeed.node.announcer.announce ⟨604800, 0⟩ ⟨42, 0, 0⟩).Runs seedAnnouncement
      (.ok (), ⟨43, 1800217000, 1⟩) := Prog.runs_of_replay (by decide +kernel)
  have hConforms : RegistryAnnouncer.Conforms startedSeed.node.announcer.descriptor seedAnnouncement := by
    constructor
    · intro answer hMem
      have hAnswer : answer = .ok 1 := by simpa [seedAnnouncement, seedChecks] using hMem
      exact hAnswer
    · intro address answer hMem
      have hAnswer : address = ethereumMainnetRegistry.address ∧ answer = .ok v1Constants := by
        simpa [seedAnnouncement, seedChecks] using hMem
      exact hAnswer.2
  have hSign : seedLibrary.sign startedSeed.node.announcer.keypair (signingInput peerRecordPayloadType (recordPayload
      seedLibrary.toLibrary startedSeed.node.announcer.keypair 42 startedSeed.node.announcer.addresses).encodeToVec) =
        .ok browserSignature := by decide +kernel
  obtain ⟨-, hSubmits⟩ := started_seed_submits started_startedSeed rfl (.inl rfl) hRuns hConforms hSign
  exact hSubmits.mpr ⟨List.mem_singleton_self _, by decide +kernel⟩

def seedLog : Announcement :=
  ⟨developmentDescriptor.namespace, recordTypeLibp2p, 1800604800, browserRecord, 26000000, 7, none⟩

def seedRow : CachedRow := ⟨recordTypeLibp2p, browserRecord, 1800604800, some 26000000, some 7⟩

theorem started_announcements_accepted_mainnet : (∀ head : BlockInfo, head.timestamp < 1800604800 →
    startedSeed.node.discovery.codecs.validateAnnouncement seedLog
      (startedSeed.node.discovery.scanner.policy mainnetDescriptor v1Constants head) =
        .ok ((signedCandidate startedSeed.node.announcer 42 browserRecord).announcedBy seedLog)) ∧
    ∀ now < 1800604800, startedSeed.cache.revalidate developmentDescriptor.namespace now seedRow = some
      { (signedCandidate startedSeed.node.announcer 42 browserRecord).announcedBy
          (SqlitePeerCache.announcement developmentDescriptor.namespace seedRow) with source := .localCache } := by
  have hSubmitted : (startedSeed.node.announcer.announce ⟨604800, 0⟩ ⟨42, 0, 0⟩).Reaches seedChecks
      (.provider (.announce ethereumMainnetRegistry.address developmentDescriptor.namespace recordTypeLibp2p 604800
        browserRecord)) := Prog.reaches_of_awaits (by decide +kernel)
  obtain ⟨validUntil, hUntil, -, hRegistry, hCache⟩ := started_announcements_accepted exampleLibrary_lawful.lawful
    started_startedSeed started_startedSeed rfl id hSubmitted (show (1800000000 : U256).val + _ < _ by decide)
  obtain rfl : validUntil = 1800604800 := UInt64.toNat_inj.mp hUntil
  exact ⟨hRegistry seedLog rfl rfl rfl rfl, hCache seedRow rfl rfl rfl⟩

end Mainnet

end Resurrect.Node
