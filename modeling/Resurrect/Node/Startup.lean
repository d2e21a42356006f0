import Resurrect.Browser.NamespaceDerivation
import Resurrect.Core.DescriptorJson
import Resurrect.Ethereum.AlloyProvider
import Resurrect.Libp2p.EnrCodec
import Resurrect.Node.EventLoop
import Resurrect.Node.Identity
import Resurrect.Node.PeerCache
import Resurrect.Node.Resurrection
import Resurrect.Node.Supervisor

/-! # How a node is put together

`run` of the command line program up to its supervisor: the descriptor, the checks
of the options, the codecs, the identity, the provider, the addresses, and then the
host and the cache. What it puts together is the node that the other modules run.
-/

namespace Resurrect.Node

open Resurrect.Core Interaction Ethereum Bootstrap Libp2p

/-- The options that are read after parsing, with the defaults of the command line. -/
structure Cli where
  descriptor : Option String := none
  «namespace» : Option Namespace := none
  application : Option String := none
  majorVersion : Option UInt64 := none
  rpcUrl : String
  identity : Path := ⟨false, ["resurrect-identity.key"]⟩
  cache : String := "resurrect-peers.sqlite3"
  listen : List String := ["/ip4/0.0.0.0/tcp/4001"]
  advertise : List String := []
  seed : Bool := false
  ethereumPrivateKey : Option String := none
  mdns : Bool := true
  nativePeer : List String := []
  allowPrivateEndpoints : Bool := false
  minimumPeers : UInt64 := 2
  maximumParallelDials : UInt64 := 8
  dialTimeoutSeconds : UInt64 := 8
  nativeObservationMillis : UInt64 := 1500
  fallbackConfirmations : UInt64 := 12
  allowUnfinalized : Bool := false
  rebootTtlSeconds : UInt64 := 604800
  maintenanceTtlSeconds : UInt64 := 2592000
  renewalIntervalSeconds : UInt64 := 1209600
  initialBackoffMillis : UInt64 := 1000
  maximumBackoffSeconds : UInt64 := 300
  statusFile : Option String := none

/-- The libraries of a whole node. A URL is what is read of it, its scheme. -/
structure NodeLibrary extends NativeLibrary where
  generateEd25519 : Seed → Keypair
  toProtobufEncoding : Keypair → Except String Bytes
  fromProtobufEncoding : Bytes → Except String Keypair
  peerText : PeerId → String
  Signer : Type
  parseSigner : String → Except String Signer
  urlScheme : String → Except String String

def NodeLibrary.identities (library : NodeLibrary) : IdentityLibrary where
  Keypair := library.Keypair
  generateEd25519 := library.generateEd25519
  toProtobufEncoding := library.toProtobufEncoding
  fromProtobufEncoding := library.fromProtobufEncoding

structure HostConfig (Multiaddr : Type) where
  listenAddresses : List Multiaddr
  configuredPeers : List Multiaddr
  enableMdns : Bool
  idleConnectionTimeout : Duration
  deriving DecidableEq, Repr

inductive StartupQuery (Keypair Multiaddr : Type) where
  | readToString (path : String)
  | os (query : IdentityQuery)
  | startHost (identity : Keypair) (config : HostConfig Multiaddr)
  | waitForListener (timeout : Duration)
  | openCache (path : String)
  | pruneExpired
  | systemTime
  deriving DecidableEq, Repr

/-- What a node is started in: files, the swarm, the cache database and the clock. -/
abbrev Startup (library : NodeLibrary) : Interface where
  Query := StartupQuery library.Keypair library.Multiaddr
  Answer
    | .readToString _ => Except IoError String
    | .os query => Os.Answer query
    | .startHost .. => Except HostError Unit
    | .waitForListener _ => Except HostError HostStatus
    | .openCache _ => Except CacheError Unit
    | .pruneExpired => Except CacheError Nat
    | .systemTime => Option Duration

/-- The texts of an error, from the outermost context to the cause. -/
abbrev Failure := List String

namespace Startup

variable {library : NodeLibrary}

def osPart : Embedding Os (Startup library) where
  query := .os
  answer _ := Equiv.refl _

def readToString (path : String) : Prog (Startup library) (Except IoError String) :=
  Prog.ask (I := Startup library) (.readToString path)

def startHost (identity : library.Keypair) (config : HostConfig library.Multiaddr) :
    Prog (Startup library) (Except HostError Unit) := Prog.ask (I := Startup library) (.startHost identity config)

def waitForListener (timeout : Duration) : Prog (Startup library) (Except HostError HostStatus) :=
  Prog.ask (I := Startup library) (.waitForListener timeout)

def openCache (path : String) : Prog (Startup library) (Except CacheError Unit) :=
  Prog.ask (I := Startup library) (.openCache path)

def pruneExpired : Prog (Startup library) (Except CacheError Nat) := Prog.ask (I := Startup library) .pruneExpired

def systemTime : Prog (Startup library) (Option Duration) := Prog.ask (I := Startup library) .systemTime

end Startup

section Descriptor

def ethereumMainnetRegistry : RegistryDescriptor where
  chainId := 1
  address := 0x136c191B5e6541532E42Ecd7C719C29D7ecdf468
  deploymentBlock := 25943058
  maxTtlSeconds := maxTtlSeconds

def ethereumMainnet (ns : Namespace) (acceptedRecordTypes : List UInt32) :
    Except DescriptorError NetworkDescriptor := do
  let descriptor : NetworkDescriptor := ⟨resurrectVersion, ethereumMainnetRegistry, ns, acceptedRecordTypes⟩
  descriptor.validate
  pure descriptor

variable {library : NodeLibrary} (keccak256 : Bytes → B256) (serde : Serde) (cli : Cli)

/-- The namespace that is given, or derived from the application. -/
def cliNamespace : Except Failure Namespace :=
  match cli.namespace with
  | some ns => .ok ns
  | none =>
    match cli.application with
    | none => .error ["one descriptor source is required"]
    | some application =>
      if application = "" then .error ["--application must not be empty"]
      else match cli.majorVersion with
        | none => .error ["--application requires --major-version"]
        | some majorVersion => .ok (Namespace.derive keccak256 application majorVersion)

def loadDescriptor : ExceptT Failure (Prog (Startup library)) NetworkDescriptor :=
  match cli.descriptor with
  | some path => do
    let json ← attempt (fun error => ["could not read descriptor " ++ path, error.message]) (Startup.readToString path)
    decided ((NetworkDescriptor.fromJson serde json).mapError fun error =>
      ["network descriptor is not conforming Resurrect v1 JSON", error.toString])
  | none => do
    let ns ← decided (cliNamespace keccak256 cli)
    decided ((ethereumMainnet ns [recordTypeLibp2p]).mapError fun error =>
      ["built-in Ethereum mainnet descriptor is invalid", error.toString])

end Descriptor

section Options

/-- `bail!`, where it is called for. -/
def bailIf (refused : Prop) [Decidable refused] (text : String) : Except Failure Unit :=
  if refused then .error [text] else .ok ()

variable (cli : Cli)

def checkTtl (maximumTtl : UInt32) (name : String) (ttl : UInt64) : Except Failure Unit :=
  bailIf (ttl = 0 ∨ maximumTtl.toUInt64 < ttl) (name ++ " must be between 1 and the descriptor maximum TTL")

def validateCliPolicy (maximumTtl : UInt32) : Except Failure Unit := do
  bailIf (cli.minimumPeers = 0) "--minimum-peers must be positive"
  bailIf (cli.maximumParallelDials = 0) "--maximum-parallel-dials must be positive"
  bailIf (cli.dialTimeoutSeconds = 0) "--dial-timeout-seconds must be positive"
  bailIf (cli.nativeObservationMillis = 0) "--native-observation-millis must be positive"
  bailIf (cli.initialBackoffMillis = 0 ∨ cli.maximumBackoffSeconds = 0) "retry backoff values must be positive"
  bailIf (cli.renewalIntervalSeconds = 0) "--renewal-interval-seconds must be positive"
  checkTtl maximumTtl "--reboot-ttl-seconds" cli.rebootTtlSeconds
  checkTtl maximumTtl "--maintenance-ttl-seconds" cli.maintenanceTtlSeconds

def endpointPolicy : EndpointPolicy :=
  if cli.allowPrivateEndpoints then .localTesting else .default

end Options

section Parts

variable (library : NodeLibrary)

/-- The codecs of the record types, on top of the ones there are. -/
def registerCodecs (policy : EndpointPolicy) (codecs : CodecRegistry) : List UInt32 → Except Failure CodecRegistry
  | [] => .ok codecs
  | recordType :: rest =>
    if recordType = recordTypeEnr then
      registerCodecs policy (codecs.register (EnrCodec.codec library.toNativeLibrary ⟨policy⟩)) rest
    else if recordType = recordTypeLibp2p then
      registerCodecs policy
        (codecs.register (Libp2pPeerRecordCodec.codec library.toLibrary ⟨policy, defaultMaxEndpointsPerRecord⟩)) rest
    else .error ["descriptor requests unsupported record type " ++ Nat.repr recordType.toNat]

def buildCodecs (descriptor : NetworkDescriptor) (policy : EndpointPolicy) : Except Failure CodecRegistry :=
  registerCodecs library policy .new descriptor.acceptedRecordTypes

def parseUrl (rpcUrl : String) : Except ProviderError Unit :=
  match library.urlScheme rpcUrl with
  | .error error => .error (.configuration error)
  | .ok scheme =>
    if scheme ≠ "http" ∧ scheme ≠ "https" then
      .error (.configuration "only http and https JSON-RPC URLs are supported")
    else .ok ()

def readOnly (rpcUrl : String) : Except ProviderError AlloyRegistryProvider := do
  parseUrl library rpcUrl
  pure ⟨false⟩

def withSigner (rpcUrl : String) (_signer : library.Signer) : Except ProviderError AlloyRegistryProvider := do
  parseUrl library rpcUrl
  pure ⟨true⟩

variable (cli : Cli)

def registryProvider : Except Failure AlloyRegistryProvider :=
  match cli.ethereumPrivateKey with
  | some secret => do
    let signer ← (library.parseSigner secret).mapError fun error => ["Resurrect Ethereum signing key is invalid", error]
    (withSigner library cli.rpcUrl signer).mapError fun error => [error.toString]
  | none => (readOnly library cli.rpcUrl).mapError fun error => [error.toString]

def checkSeed : Except Failure Unit := do
  bailIf (cli.seed ∧ cli.ethereumPrivateKey.isNone) "--seed requires RESURRECT_ETHEREUM_PRIVATE_KEY"
  bailIf (cli.seed ∧ cli.advertise.isEmpty) "--seed requires at least one explicit --advertise endpoint"

def parseMultiaddrs (values : List String) (field : String) : Except Failure (List library.Multiaddr) :=
  values.mapM fun value => (library.parse value).mapError fun error =>
    ["invalid " ++ field ++ " multiaddr: " ++ value, error]

def checkAdvertised (policy : EndpointPolicy) (peerId : library.PeerId) (advertised : List library.Multiaddr) :
    Except Failure Unit :=
  if defaultMaxEndpointsPerRecord < advertised.length then
    .error ["--advertise exceeds the signed peer-record endpoint cap"]
  else match advertised.find? fun address =>
      !policy.accepts (library.protocols address) (some peerId) .nativeServer with
    | some address =>
      .error ["advertised endpoint is rejected by the selected endpoint policy: " ++ library.toString address]
    | none => .ok ()

end Parts

/-- A node that has been put together, before its supervisor runs. -/
structure Assembly (library : NodeLibrary) where
  node : NativeNode library.toLibrary
  state : NodeState
  provider : AlloyRegistryProvider
  cache : SqlitePeerCache
  observationTimeout : Duration
  supervisor : Supervisor

section Start

variable {library : NodeLibrary} (cli : Cli)

def supervisorPolicy : SupervisorPolicy where
  bootstrap := {
    minimumSuccessfulPeers := cli.minimumPeers.toNat
    maximumParallelDials := cli.maximumParallelDials.toNat
    perDialTimeout := ⟨cli.dialTimeoutSeconds, 0⟩
    rebootTtl := ⟨cli.rebootTtlSeconds, 0⟩ }
  connectedPollInterval := ⟨15, 0⟩
  initialBackoff := .fromMillis cli.initialBackoffMillis
  maximumBackoff := ⟨cli.maximumBackoffSeconds, 0⟩
  maintenanceTtl := ⟨cli.maintenanceTtlSeconds, 0⟩

def scannerConfig : ScannerConfig where
  initialChunkSize := 20000
  minimumChunkSize := 64
  maxLogsPerScan := 50000
  maxCandidates := defaultMaxActiveCandidates
  maxEndpointsPerRecord := defaultMaxEndpointsPerRecord
  fallbackConfirmations := cli.fallbackConfirmations
  useFinalityTags := !cli.allowUnfinalized
  dialContext := .nativeServer

def assemble (descriptor : NetworkDescriptor) (codecs : CodecRegistry) (identity : library.Keypair)
    (provider : AlloyRegistryProvider) (advertised : List library.Multiaddr) (now : Option Duration) :
    Assembly library where
  node := {
    controller := ⟨(supervisorPolicy cli).bootstrap⟩
    discovery := {
      descriptor
      codecs
      scannerConfig := scannerConfig cli
      localNodeId := library.toBytes (library.fromPublicKey (library.publicKey identity))
      hasCache := true }
    announcer := {
      descriptor
      keypair := identity
      addresses := advertised
      eligible := cli.seed
      renewalInterval := ⟨cli.renewalIntervalSeconds, 0⟩ } }
  state := ⟨.new, .new now⟩
  provider
  cache := .opened codecs descriptor.acceptedRecordTypes .nativeServer defaultMaxActiveCandidates
  observationTimeout := .fromMillis cli.nativeObservationMillis
  supervisor := {
    «namespace» := descriptor.namespace
    peerId := library.peerText (library.fromPublicKey (library.publicKey identity))
    policy := supervisorPolicy cli
    statusFile := cli.statusFile }

variable (keccak256 : Bytes → B256) (serde : Serde)

/-- `run`, up to the supervisor. -/
def start : ExceptT Failure (Prog (Startup library)) (Assembly library) := do
  let descriptor ← loadDescriptor keccak256 serde cli
  decided (validateCliPolicy cli descriptor.registry.maxTtlSeconds)
  let codecs ← decided (buildCodecs library descriptor (endpointPolicy cli))
  let identity ← attempt (fun error => [error.message])
    (Startup.osPart.lift (loadOrCreateIdentity library.identities cli.identity).run)
  let peerId := library.fromPublicKey (library.publicKey identity)
  let provider ← decided (registryProvider library cli)
  decided (checkSeed cli)
  let listenAddresses ← decided (parseMultiaddrs library cli.listen "listen")
  let configuredPeers ← decided (parseMultiaddrs library cli.nativePeer "native-peer")
  let advertised ← decided (parseMultiaddrs library cli.advertise "advertise")
  decided (checkAdvertised library (endpointPolicy cli) peerId advertised)
  attempt (fun error => [error.toString])
    (Startup.startHost identity ⟨listenAddresses, configuredPeers, cli.mdns, ⟨120, 0⟩⟩)
  let _ ← attempt (fun error => [error.toString]) (Startup.waitForListener ⟨10, 0⟩)
  attempt (fun error => [error.toString]) (Startup.openCache cli.cache)
  let _ ← attempt (fun error => [error.toString]) Startup.pruneExpired
  let now ← ExceptT.lift Startup.systemTime
  pure (assemble cli descriptor codecs identity provider advertised now)

end Start

section Checks

variable {library : NodeLibrary} {policy : EndpointPolicy} {cli : Cli}

/-- What `build_codecs` makes of a record type. -/
def codecOf (library : NodeLibrary) (policy : EndpointPolicy) (recordType : UInt32) : Option PeerRecordCodec :=
  if recordType = recordTypeEnr then some (EnrCodec.codec library.toNativeLibrary ⟨policy⟩)
  else if recordType = recordTypeLibp2p then
    some (Libp2pPeerRecordCodec.codec library.toLibrary ⟨policy, defaultMaxEndpointsPerRecord⟩)
  else none

theorem registerCodecs_cons (codecs : CodecRegistry) (recordType : UInt32) (rest : List UInt32) :
    registerCodecs library policy codecs (recordType :: rest) = match codecOf library policy recordType with
      | some codec => registerCodecs library policy (codecs.register codec) rest
      | none => .error ["descriptor requests unsupported record type " ++ Nat.repr recordType.toNat] := by
  rw [registerCodecs, codecOf]
  split
  · rfl
  · split
    · rfl
    · rfl

theorem recordType_codecOf {recordType : UInt32} {codec : PeerRecordCodec}
    (h : codecOf library policy recordType = some codec) : codec.recordType = recordType := by
  rw [codecOf] at h
  split at h
  · rename_i hEnr
    rw [← Option.some.inj h, hEnr]
    rfl
  · split at h
    · rename_i hLibp2p
      rw [← Option.some.inj h, hLibp2p]
      rfl
    · cases h

/-- Every record type has its codec, and no other is known. -/
theorem registerCodecs_eq_ok {codecs built : CodecRegistry} {recordTypes : List UInt32}
    (h : registerCodecs library policy codecs recordTypes = .ok built) :
    (∀ recordType ∈ recordTypes, (codecOf library policy recordType).isSome = true) ∧
      ∀ recordType, built.get recordType =
        if recordType ∈ recordTypes then codecOf library policy recordType else codecs.get recordType := by
  induction recordTypes generalizing codecs with
  | nil =>
    obtain rfl : codecs = built := Except.ok.inj h
    exact ⟨fun _ hMem => absurd hMem List.not_mem_nil, fun _ => rfl⟩
  | cons first rest ih =>
    rw [registerCodecs_cons] at h
    split at h
    · rename_i codec hCodec
      obtain ⟨hKnown, hGet⟩ := ih h
      have hFirst : codec.recordType = first := recordType_codecOf hCodec
      constructor
      · intro recordType hMem
        obtain rfl | hMem := List.mem_cons.mp hMem
        · rw [hCodec]
          rfl
        · exact hKnown recordType hMem
      · intro recordType
        rw [hGet]
        by_cases hRest : recordType ∈ rest
        · rw [if_pos hRest, if_pos (List.mem_cons_of_mem _ hRest)]
        · rw [if_neg hRest]
          by_cases hHead : recordType = first
          · rw [if_pos (List.mem_cons.mpr (.inl hHead)), hHead, hCodec, ← hFirst]
            exact CodecRegistry.get_register codecs codec
          · rw [if_neg (by rw [List.mem_cons, not_or]; exact ⟨hHead, hRest⟩)]
            exact AList.lookup_insert_ne (by rwa [hFirst])
    · cases h

theorem checkAdvertised_eq_ok {peerId : library.PeerId} {advertised : List library.Multiaddr} :
    checkAdvertised library policy peerId advertised = .ok () ↔ advertised.length ≤ defaultMaxEndpointsPerRecord ∧
      ∀ address ∈ advertised, policy.accepts (library.protocols address) (some peerId) .nativeServer = true := by
  rw [checkAdvertised]
  split
  · rename_i hMany
    exact iff_of_false (by rintro ⟨⟩) fun h => absurd h.1 (not_le.mpr hMany)
  · rename_i hFew
    rw [not_lt] at hFew
    split
    · rename_i address hFound
      refine iff_of_false (by rintro ⟨⟩) fun h => ?_
      have hRejected := List.find?_some hFound
      rw [h.2 address (List.mem_of_find?_eq_some hFound)] at hRejected
      cases hRejected
    · rename_i hNone
      refine iff_of_true rfl ⟨hFew, fun address hMem => ?_⟩
      simpa using List.find?_eq_none.mp hNone address hMem

theorem bailIf_eq_ok {refused : Prop} [Decidable refused] {text : String} {passed : Unit} :
    bailIf refused text = .ok passed ↔ ¬ refused := by
  rw [bailIf]
  split
  · rename_i hRefused
    exact iff_of_false (by rintro ⟨⟩) (not_not.mpr hRefused)
  · rename_i hPassed
    exact iff_of_true rfl hPassed

theorem checkSeed_eq_ok : checkSeed cli = .ok () ↔
    (cli.seed = true → cli.ethereumPrivateKey ≠ none ∧ cli.advertise ≠ []) := by
  rw [checkSeed, bind_eq_ok]
  simp only [bailIf_eq_ok, exists_const, not_and, Option.isNone_iff_eq_none, List.isEmpty_iff]
  exact forall_and.symm

theorem checkTtl_eq_ok {maximumTtl : UInt32} {name : String} {ttl : UInt64} {passed : Unit} :
    checkTtl maximumTtl name ttl = .ok passed ↔ 0 < ttl.toNat ∧ ttl.toNat ≤ maximumTtl.toNat := by
  rw [checkTtl, bailIf_eq_ok, not_or, ← UInt64.toNat_inj, UInt64.lt_iff_toNat_lt, UInt32.toNat_toUInt64,
    UInt64.toNat_zero]
  omega

/-- The options are positive, and both TTLs within the bounds of the registry. -/
structure Bounded (cli : Cli) (maximumTtl : UInt32) : Prop where
  minimumPeers : cli.minimumPeers ≠ 0
  maximumParallelDials : cli.maximumParallelDials ≠ 0
  dialTimeoutSeconds : cli.dialTimeoutSeconds ≠ 0
  nativeObservationMillis : cli.nativeObservationMillis ≠ 0
  backoffs : ¬ (cli.initialBackoffMillis = 0 ∨ cli.maximumBackoffSeconds = 0)
  renewalIntervalSeconds : cli.renewalIntervalSeconds ≠ 0
  rebootTtl : 0 < cli.rebootTtlSeconds.toNat ∧ cli.rebootTtlSeconds.toNat ≤ maximumTtl.toNat
  maintenanceTtl : 0 < cli.maintenanceTtlSeconds.toNat ∧ cli.maintenanceTtlSeconds.toNat ≤ maximumTtl.toNat

theorem validateCliPolicy_eq_ok {maximumTtl : UInt32} :
    validateCliPolicy cli maximumTtl = .ok () ↔ Bounded cli maximumTtl := by
  rw [validateCliPolicy]
  simp only [bind_eq_ok, bailIf_eq_ok, checkTtl_eq_ok, exists_const]
  constructor
  · rintro ⟨hPeers, hDials, hTimeout, hObservation, hBackoffs, hRenewal, hReboot, hMaintenance⟩
    exact ⟨hPeers, hDials, hTimeout, hObservation, hBackoffs, hRenewal, hReboot, hMaintenance⟩
  · intro h
    exact ⟨h.minimumPeers, h.maximumParallelDials, h.dialTimeoutSeconds, h.nativeObservationMillis, h.backoffs,
      h.renewalIntervalSeconds, h.rebootTtl, h.maintenanceTtl⟩

theorem ethereumMainnet_eq_ok {ns : Namespace} {recordTypes : List UInt32} {descriptor : NetworkDescriptor}
    (h : ethereumMainnet ns recordTypes = .ok descriptor) : descriptor.Valid := by
  rw [ethereumMainnet, bind_eq_ok] at h
  obtain ⟨⟨⟩, hValid, hDescriptor⟩ := h
  cases hDescriptor
  exact validate_eq_ok.mp hValid

end Checks

section Started

variable {library : NodeLibrary} {keccak256 : Bytes → B256} {serde : Serde} {cli : Cli}
  {trace : List (Event (Startup library))}

theorem loadDescriptor_valid {descriptor : NetworkDescriptor}
    (h : Returns (loadDescriptor keccak256 serde cli) trace descriptor) : descriptor.Valid := by
  rw [loadDescriptor] at h
  split at h
  · obtain ⟨_, json, _, -, -, h⟩ := returns_bind.mp h
    have hRead := (returns_decided.mp h).2
    cases hJson : NetworkDescriptor.fromJson serde json with
    | error error =>
      rw [hJson] at hRead
      cases hRead
    | ok read =>
      rw [hJson] at hRead
      obtain rfl : read = descriptor := Except.ok.inj hRead
      obtain ⟨-, -, -, hValid⟩ := NetworkDescriptor.fromJson_eq_ok.mp hJson
      exact hValid
  · obtain ⟨_, ns, _, -, -, h⟩ := returns_bind.mp h
    have hBuilt := (returns_decided.mp h).2
    cases hMainnet : ethereumMainnet ns [recordTypeLibp2p] with
    | error error =>
      rw [hMainnet] at hBuilt
      cases hBuilt
    | ok built =>
      rw [hMainnet] at hBuilt
      obtain rfl : built = descriptor := Except.ok.inj hBuilt
      exact ethereumMainnet_eq_ok hMainnet

/-- What has been checked of the parts that a node is put together from. -/
structure Admitted (library : NodeLibrary) (cli : Cli) (descriptor : NetworkDescriptor) (codecs : CodecRegistry)
    (identity : library.Keypair) (provider : AlloyRegistryProvider) (advertised : List library.Multiaddr) : Prop where
  valid : descriptor.Valid
  bounded : Bounded cli descriptor.registry.maxTtlSeconds
  codecs_eq : buildCodecs library descriptor (endpointPolicy cli) = .ok codecs
  provider_eq : registryProvider library cli = .ok provider
  seed : cli.seed = true → cli.ethereumPrivateKey ≠ none ∧ cli.advertise ≠ []
  parsed : parseMultiaddrs library cli.advertise "advertise" = .ok advertised
  few : advertised.length ≤ defaultMaxEndpointsPerRecord
  accepted : ∀ address ∈ advertised, (endpointPolicy cli).accepts (library.protocols address)
    (some (library.fromPublicKey (library.publicKey identity))) .nativeServer = true

/-- A node is put together from admitted parts. -/
theorem returns_start {assembly : Assembly library} (h : Returns (start cli keccak256 serde) trace assembly) :
    ∃ descriptor codecs identity provider advertised now,
      Admitted library cli descriptor codecs identity provider advertised ∧
      assembly = assemble cli descriptor codecs identity provider advertised now := by
  obtain ⟨_, descriptor, _, -, hDescriptor, h⟩ := returns_bind.mp h
  obtain ⟨_, ⟨⟩, _, -, hPolicy, h⟩ := returns_bind.mp h
  obtain ⟨_, codecs, _, -, hCodecs, h⟩ := returns_bind.mp h
  obtain ⟨_, identity, _, -, -, h⟩ := returns_bind.mp h
  obtain ⟨_, provider, _, -, hProvider, h⟩ := returns_bind.mp h
  obtain ⟨_, ⟨⟩, _, -, hSeed, h⟩ := returns_bind.mp h
  obtain ⟨_, _, _, -, -, h⟩ := returns_bind.mp h
  obtain ⟨_, _, _, -, -, h⟩ := returns_bind.mp h
  obtain ⟨_, advertised, _, -, hAdvertised, h⟩ := returns_bind.mp h
  obtain ⟨_, ⟨⟩, _, -, hAccepted, h⟩ := returns_bind.mp h
  obtain ⟨_, _, _, -, -, h⟩ := returns_bind.mp h
  obtain ⟨_, _, _, -, -, h⟩ := returns_bind.mp h
  obtain ⟨_, _, _, -, -, h⟩ := returns_bind.mp h
  obtain ⟨_, _, _, -, -, h⟩ := returns_bind.mp h
  obtain ⟨_, now, _, -, -, h⟩ := returns_bind.mp h
  obtain ⟨hFew, hUsable⟩ := checkAdvertised_eq_ok.mp (returns_decided.mp hAccepted).2
  refine ⟨descriptor, codecs, identity, provider, advertised, now, ?_, (returns_pure.mp h).2⟩
  exact {
    valid := loadDescriptor_valid hDescriptor
    bounded := validateCliPolicy_eq_ok.mp (returns_decided.mp hPolicy).2
    codecs_eq := (returns_decided.mp hCodecs).2
    provider_eq := (returns_decided.mp hProvider).2
    seed := checkSeed_eq_ok.mp (returns_decided.mp hSeed).2
    parsed := (returns_decided.mp hAdvertised).2
    few := hFew
    accepted := hUsable }

end Started

end Resurrect.Node
