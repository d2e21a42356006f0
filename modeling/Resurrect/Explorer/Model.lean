import Resurrect.Browser.DescriptorAgreement
import Resurrect.Browser.NamespaceDerivation
import Mathlib.Data.List.DropRight

/-! # What the explorer computes

The namespace a visitor types, the descriptor it selects, the public RPC endpoints
and the texts the page shows. The URL parser and the formats of the locale are
those of the browser.
-/

namespace Resurrect.Explorer

open Hex Interaction Browser

structure PublicRpcEndpoint where
  name : String
  url : String
  deriving DecidableEq, Repr

def defaultRpcEndpoints : List PublicRpcEndpoint :=
  [⟨"MEV Blocker", "https://rpc.mevblocker.io"⟩, ⟨"PublicNode", "https://ethereum-rpc.publicnode.com"⟩,
    ⟨"StupidTech", "https://evm.stupidtech.net/v1/ethereum"⟩, ⟨"dRPC", "https://eth.drpc.org"⟩,
    ⟨"Cloudflare", "https://cloudflare-eth.com"⟩]

def explorerScanOptions : ScanOptions where
  confirmations := none
  maxBlockLookback := some ethereumMainnetMaxBlocksPerTtl
  initialChunkSize := some 10000
  minimumChunkSize := none
  maxLogs := none
  maxCandidates := none
  maxEndpointsPerRecord := none
  allowPrivateEndpoints := none

structure RpcAttemptFailure where
  endpoint : PublicRpcEndpoint
  error : String
  deriving DecidableEq, Repr

section Namespace

/-- White space and line terminators. -/
def isSpace (c : Char) : Bool :=
  c.toNat ∈ [0x9, 0xa, 0xb, 0xc, 0xd, 0x20, 0xa0, 0x1680, 0x2028, 0x2029, 0x202f, 0x205f, 0x3000, 0xfeff] ∨
    0x2000 ≤ c.toNat ∧ c.toNat ≤ 0x200a

def trim (text : String) : String :=
  String.ofList ((text.toList.dropWhile isSpace).rdropWhile isSpace)

structure NamespaceSelection where
  application : String
  majorVersion : Int
  label : String
  «namespace» : String
  deriving DecidableEq, Repr

/-- What a major version is given as: the text of a field, or an integer. -/
inductive VersionInput where
  | text (value : String)
  | integer (value : Int)

def parseMajorVersion : VersionInput → Except String Int
  | .text value => do
      ensure (unsignedRegex (trim value).toList) "Namespace version must be an unsigned decimal integer."
      pure (Numeral.value (trim value).toList)
  | .integer value => do
      ensure (0 ≤ value) "Namespace version must not be negative."
      pure value

variable (keccak256 : Bytes → Core.B256)

def resolveNamespace (applicationInput : String) (majorVersionInput : VersionInput) :
    Except String NamespaceSelection := do
  let application := trim applicationInput
  ensure (application ≠ "") "Namespace name must not be empty."
  let majorVersion ← parseMajorVersion majorVersionInput
  let derived ← deriveNamespace keccak256 application majorVersion
  pure { application, majorVersion, label := application ++ ":v" ++ toString majorVersion, «namespace» := derived }

def ethereumMainnetRegistryAddress : String :=
  checksumAddress keccak256 "0x136c191B5e6541532E42Ecd7C719C29D7ecdf468"

/-- The object that is parsed, with the record types the explorer leaves at their default. -/
def ethereumMainnetDescriptor («namespace» : String) : Except String NetworkDescriptor :=
  parseDescriptor keccak256 (.object [
    ("resurrectVersion", .number resurrectVersion),
    ("registry", .object [("chainId", .number 1), ("address", .string (ethereumMainnetRegistryAddress keccak256)),
      ("deploymentBlock", .number 25943058), ("maxTtlSeconds", .number maxTtlSeconds)]),
    ("namespace", .string «namespace»),
    ("acceptedRecordTypes", .array [.number 2])])

def networkDescriptor (application : String) (majorVersion : VersionInput) : Except String NetworkDescriptor := do
  let selection ← resolveNamespace keccak256 application majorVersion
  ethereumMainnetDescriptor keccak256 selection.namespace

end Namespace

section Selection

variable {keccak256 : Bytes → Core.B256}

/-- The checksum does not look at the case of what it is taken of. -/
theorem checksumAddress_idem {address : String} (h : (address.toList.drop 2).all isDigit) :
    checksumAddress keccak256 (checksumAddress keccak256 address) = checksumAddress keccak256 address := by
  have hLower := lower_checksumAddress keccak256 h
  conv_lhs => rw [checksumAddress]
  rw [hLower]
  rfl

theorem isAddress_checksumAddress {address : String} (h : (address.toList.drop 2).all isDigit)
    (hLength : (address.toList.drop 2).length = 40) : isAddress keccak256 (checksumAddress keccak256 address) := by
  have hLower := lower_checksumAddress keccak256 h
  have hDigits : ((checksumAddress keccak256 address).toList.drop 2).all isDigit := by
    rw [← all_isDigit_map_toLower, hLower, all_isDigit_map_toLower]
    exact h
  have hPrefix : (checksumAddress keccak256 address).toList.take 2 = ['0', 'x'] := by
    rw [checksumAddress, toList_hexText]
    rfl
  have hCount : (checksumAddress keccak256 address).toList.length = 42 := by
    rw [checksumAddress, toList_hexText]
    simp only [List.length_cons, List.length_mapIdx, List.length_map, hLength]
  have hRegex : addressRegex (checksumAddress keccak256 address) := by
    rw [addressRegex, decide_eq_true_eq]
    exact ⟨isHex_iff.mpr ⟨hPrefix, hDigits⟩, hCount⟩
  rw [isAddress, if_neg (not_not.mpr hRegex), checksumAddress_idem h, decide_eq_true rfl]
  exact ite_self _

/-- The descriptor of a namespace on the deployed registry. -/
def mainnet (keccak256 : Bytes → Core.B256) («namespace» : String) : NetworkDescriptor where
  resurrectVersion := resurrectVersion
  registry := ⟨1, ethereumMainnetRegistryAddress keccak256, 25943058, maxTtlSeconds⟩
  «namespace» := «namespace»
  acceptedRecordTypes := [2]

theorem ethereumMainnetDescriptor_eq {«namespace» : String} (hHex : isHex «namespace»)
    (hLength : «namespace».toList.length = 66) :
    ethereumMainnetDescriptor keccak256 «namespace» = .ok (mainnet keccak256 (toLowerCase «namespace»)) := by
  have hDigits : ("0x136c191B5e6541532E42Ecd7C719C29D7ecdf468".toList.drop 2).all isDigit := by decide
  refine parseDescriptor_eq_ok.mpr ⟨_, [("chainId", .number 1),
    ("address", .string (ethereumMainnetRegistryAddress keccak256)), ("deploymentBlock", .number 25943058),
    ("maxTtlSeconds", .number maxTtlSeconds)], ethereumMainnetRegistryAddress keccak256, «namespace», [2], rfl, ?_⟩
  have hKeys : ["resurrectVersion", "registry", "namespace", "acceptedRecordTypes"].Perm
      ["acceptedRecordTypes", "namespace", "registry", "resurrectVersion"] := by decide
  have hRegistryKeys : ["chainId", "address", "deploymentBlock", "maxTtlSeconds"].Perm
      ["address", "chainId", "deploymentBlock", "maxTtlSeconds"] := by decide
  have hChain : 1 ≤ Numeral.maxSafeInteger := by decide
  have hChainMax : 1 ≤ uint256Max := by decide
  have hBlock : 25943058 ≤ Numeral.maxSafeInteger := by decide
  have hBlockMax : 25943058 ≤ uint64Max := by decide
  exact {
    keys := hKeys
    version := rfl
    registry_eq := rfl
    registryKeys := hRegistryKeys
    address_eq := rfl
    isAddress := isAddress_checksumAddress hDigits rfl
    maxTtl := rfl
    name_eq := rfl
    isHex := hHex
    length := hLength
    recordTypes := rfl
    bounded := by decide
    nonempty := by decide
    nodup := by decide
    chainId := .literal 1
    chainId_safe := fun _ => hChain
    chainId_le := hChainMax
    deploymentBlock := .literal 25943058
    deploymentBlock_safe := fun _ => hBlock
    deploymentBlock_le := hBlockMax
    result := by
      rw [ethereumMainnetRegistryAddress, checksumAddress_idem hDigits]
      rfl }

/-- The hash of a version's text, whatever its size. -/
def namespaceHash (keccak256 : Bytes → Core.B256) (application : String) (major : Int) : Core.B256 :=
  keccak256 ("resurrect:" ++ application ++ ":" ++ toString major).toUTF8.data.toList

theorem deriveNamespace_of {application : String} {major : Int} (hApplication : application ≠ "") (hMajor : 0 ≤ major) :
    deriveNamespace keccak256 application major =
      .ok (hexText (Hex.ofNat 64 (namespaceHash keccak256 application major).val)) := by
  have hBytes := hexToBytes_spell ("resurrect:" ++ application ++ ":" ++ toString major).toUTF8.data.toList
  rw [deriveNamespace, namespaceText, ensure_of hApplication, ensure_of hMajor, bind_eq_ok]
  exact ⟨_, rfl, by rw [stringToHex, hBytes]; rfl⟩

theorem toLowerCase_hexText (n : Nat) : toLowerCase (hexText (Hex.ofNat 64 n)) = hexText (Hex.ofNat 64 n) := by
  refine String.toList_inj.mp ?_
  rw [toLowerCase, String.toList_ofList, toList_hexText, List.map_cons, List.map_cons, map_toLower_ofNat]
  rfl

theorem dropWhile_trimmed (text : List Char) :
    ((text.dropWhile isSpace).rdropWhile isSpace).dropWhile isSpace = (text.dropWhile isSpace).rdropWhile isSpace := by
  have hPrefix := List.rdropWhile_prefix isSpace (text.dropWhile isSpace)
  refine List.dropWhile_eq_self_iff.mpr fun hLength => ?_
  rw [hPrefix.getElem hLength]
  exact List.dropWhile_get_zero_not _ text (hLength.trans_le hPrefix.length_le)

theorem trim_trim (text : String) : trim (trim text) = trim text := by
  rw [trim, trim, String.toList_ofList, dropWhile_trimmed, List.rdropWhile_idempotent]

theorem parseMajorVersion_nonneg {input : VersionInput} {major : Int} (h : parseMajorVersion input = .ok major) :
    0 ≤ major := by
  cases input with
  | text value =>
    obtain ⟨-, -, hMajor⟩ := bind_eq_ok.mp h
    cases hMajor
    exact Int.natCast_nonneg _
  | integer value =>
    obtain ⟨checked, hNonneg, hMajor⟩ := bind_eq_ok.mp h
    cases hMajor
    simpa using hNonneg

theorem resolveNamespace_eq_ok {application : String} {input : VersionInput} {selection : NamespaceSelection} :
    resolveNamespace keccak256 application input = .ok selection ↔ trim application ≠ "" ∧
      ∃ major, parseMajorVersion input = .ok major ∧
        selection = ⟨trim application, major, trim application ++ ":v" ++ toString major,
          hexText (Hex.ofNat 64 (namespaceHash keccak256 (trim application) major).val)⟩ := by
  simp only [resolveNamespace, bind_eq_ok, ensure_eq_ok, decide_eq_true_eq]
  constructor
  · rintro ⟨-, hApplication, major, hMajor, ns, hDerived, hSelection⟩
    rw [deriveNamespace_of hApplication (parseMajorVersion_nonneg hMajor)] at hDerived
    cases hDerived
    cases hSelection
    exact ⟨hApplication, major, hMajor, rfl⟩
  · rintro ⟨hApplication, major, hMajor, rfl⟩
    exact ⟨(), hApplication, major, hMajor, _, deriveNamespace_of hApplication (parseMajorVersion_nonneg hMajor), rfl⟩

/-- The descriptor that is scanned is that of the selected namespace. -/
theorem networkDescriptor_of_resolved {application : String} {input : VersionInput} {selection : NamespaceSelection}
    (h : resolveNamespace keccak256 application input = .ok selection) :
    networkDescriptor keccak256 selection.application (.integer selection.majorVersion) =
      .ok (mainnet keccak256 selection.namespace) := by
  obtain ⟨hApplication, major, hMajor, rfl⟩ := resolveNamespace_eq_ok.mp h
  have hInteger : parseMajorVersion (.integer major) = .ok major :=
    bind_eq_ok.mpr ⟨(), ensure_of (parseMajorVersion_nonneg hMajor) _, rfl⟩
  have hAgain : resolveNamespace keccak256 (trim application) (.integer major) = .ok _ :=
    resolveNamespace_eq_ok.mpr ⟨by rwa [trim_trim], major, hInteger, rfl⟩
  rw [networkDescriptor, hAgain, trim_trim]
  refine (ethereumMainnetDescriptor_eq isHex_hexText ?_).trans ?_
  · rw [toList_hexText]
    simp
  · rw [toLowerCase_hexText]

end Selection

section Texts

structure Url where
  protocol : String
  href : String
  host : String

/-- What the browser does for the page: it parses URLs, and writes numbers and dates as its locale has them. -/
structure Platform where
  parseUrl : String → Except String Url
  toLocaleString : Int → String
  toDateString : Nat → String

variable (platform : Platform)

def normalizeRpcUrl (value : String) : Except String String := do
  let url ← platform.parseUrl (trim value)
  ensure (url.protocol = "https:" ∨ url.protocol = "http:") "RPC URL must use HTTPS or HTTP"
  pure url.href

/-- The host of a URL that `jsonRpcProvider` takes. -/
def jsonRpcHost (url : String) : Except String String := do
  let parsed ← platform.parseUrl url
  ensure (parsed.protocol = "http:" ∨ parsed.protocol = "https:") "JSON-RPC URL must use HTTP or HTTPS"
  pure parsed.host

structure ScanSummary where
  announcements : String
  browserPeers : String
  filteredRecords : String
  confirmedHead : String
  scannedBlocks : String
  deriving DecidableEq, Repr

def summarizeScan (report : ScanReport) : ScanSummary where
  announcements := platform.toLocaleString report.logsProcessed
  browserPeers := platform.toLocaleString report.candidates.length
  filteredRecords := platform.toLocaleString report.recordsRejected
  confirmedHead := platform.toLocaleString report.headBlock
  scannedBlocks := platform.toLocaleString (report.headBlock - report.startBlock + 1)

/-- No date is later than a hundred million days after the epoch. -/
def formatChainTime (timestamp : Nat) : String :=
  let milliseconds := timestamp * 1000
  if Numeral.maxSafeInteger < milliseconds then "Timestamp out of range"
  else if 8640000000000000 < milliseconds then "Invalid timestamp"
  else platform.toDateString milliseconds

/-- Of an error with a message. -/
def errorMessage (message : String) : String :=
  if trim message = "" then "The provider request failed." else message

def mentions (message : String) (needles : List String) : Bool :=
  needles.any fun needle => needle.toList <:+: (toLowerCase message).toList

def friendlyError (error : String) : String :=
  let message := errorMessage error
  if mentions message ["free plan", "archive", "historical", "request timeout", "eth_getlogs", "block range",
    "range limit"] then
    "This provider cannot serve the recent event scan. Try another public Ethereum RPC."
  else if mentions message ["chain id", "does not match"] then
    message ++ " Switch the wallet to Ethereum mainnet or use Public RPC."
  else if mentions message ["failed to fetch", "network error", "cors", "load failed"] then
    "The provider could not be reached. Check its URL and browser access policy."
  else message

end Texts

end Resurrect.Explorer
