import Resurrect.Contracts.OnchainSite

/-! # Deploying the explorer

The deploy script cuts each file into chunks, stores them one after the other and
hands pointers and lengths to the site. What it stores is what the site serves.
-/

namespace Resurrect.Contracts

open Resurrect.Core Evm ResurrectBytecodeStorage ResurrectOnchainSite

structure SiteFile where
  path : Bytes
  contentType : Bytes
  content : Bytes
  deriving DecidableEq, Repr

namespace DeployResurrectExplorer

def chunkBytes : Nat := 24000

def chunkCount (file : Bytes) : Nat := (file.length + chunkBytes - 1) / chunkBytes

/-- The bytes copied one by one for the chunk of this index. -/
def chunkAt (file : Bytes) (i : Nat) : Bytes :=
  let offset := i * chunkBytes
  let length := file.length - offset
  let length := if chunkBytes < length then chunkBytes else length
  (List.range length).map fun j => file.getD (offset + j) 0

def writeAll (createAddress : Nat → Address) : List Bytes → World Address →
    Except StorageError (List Address × World Address)
  | [], world => .ok ([], world)
  | chunk :: rest, world =>
    match write createAddress chunk world with
    | .error error => .error error
    | .ok (pointer, world) =>
      match writeAll createAddress rest world with
      | .error error => .error error
      | .ok (pointers, world) => .ok (pointer :: pointers, world)

def deployChunks (createAddress : Nat → Address) (file : Bytes) (world : World Address) :
    Except StorageError (List Address × World Address) :=
  writeAll createAddress ((List.range (chunkCount file)).map (chunkAt file)) world

def deployFiles (createAddress : Nat → Address) : List SiteFile → World Address →
    Except StorageError (List (List Address) × World Address)
  | [], world => .ok ([], world)
  | file :: rest, world =>
    match deployChunks createAddress file.content world with
    | .error error => .error error
    | .ok (chunks, world) =>
      match deployFiles createAddress rest world with
      | .error error => .error error
      | .ok (others, world) => .ok (chunks :: others, world)

section Chunks

variable {file : Bytes}

theorem chunkAt_eq (file : Bytes) (i : Nat) : chunkAt file i = (file.drop (i * chunkBytes)).take chunkBytes := by
  have hSlice : chunkAt file i = slice file (i * chunkBytes) (min chunkBytes (file.length - i * chunkBytes)) := by
    rw [chunkAt, slice]
    split
    · rename_i hLong
      rw [min_eq_left hLong.le]
    · rename_i hShort
      rw [min_eq_right (not_lt.mp hShort)]
  rw [hSlice, List.take_eq_take_min, List.length_drop]
  by_cases hInside : i * chunkBytes ≤ file.length
  · exact slice_eq_take_drop (by omega)
  · have hNone : min chunkBytes (file.length - i * chunkBytes) = 0 := by omega
    rw [hNone, List.take_zero]
    rfl

/-- Cutting at every multiple of a size loses nothing up to the last cut. -/
theorem flatMap_take_drop {α : Type} (l : List α) (size count : Nat) :
    (List.range count).flatMap (fun i => (l.drop (i * size)).take size) = l.take (count * size) := by
  induction count with
  | zero => simp
  | succ count ih => rw [List.range_succ, List.flatMap_append, ih, List.flatMap_singleton, Nat.succ_mul, List.take_add]

def cut (file : Bytes) : List Bytes := (List.range (chunkCount file)).map (chunkAt file)

theorem length_cut (file : Bytes) : (cut file).length = chunkCount file := by
  rw [cut, List.length_map, List.length_range]

theorem flatten_cut (file : Bytes) : (cut file).flatten = file := by
  have hChunks : (fun i => chunkAt file i) = fun i => (file.drop (i * chunkBytes)).take chunkBytes :=
    funext (chunkAt_eq file)
  have hCovered : file.length ≤ chunkCount file * chunkBytes := by
    rw [chunkCount, chunkBytes]
    omega
  rw [cut, ← List.flatMap_def]
  change (List.range (chunkCount file)).flatMap (fun i => chunkAt file i) = file
  rw [hChunks, flatMap_take_drop, List.take_of_length_le hCovered]

theorem cut_ne_nil (h : file ≠ []) : cut file ≠ [] := by
  intro hNone
  rw [← flatten_cut file, hNone] at h
  exact h rfl

theorem mem_cut {chunk : Bytes} (h : chunk ∈ cut file) : chunk ≠ [] ∧ chunk.length ≤ maxChunkBytes := by
  obtain ⟨i, hIndex, rfl⟩ := List.mem_map.mp h
  rw [List.mem_range, chunkCount, chunkBytes] at hIndex
  rw [chunkAt_eq, ← List.length_pos_iff, List.length_take, List.length_drop, chunkBytes, maxChunkBytes]
  omega

end Chunks

section Storing

variable {createAddress : Nat → Address} {world next : World Address}

/-- Code once deployed stays. -/
def Extends (world next : World Address) : Prop := ∀ address, world.code address ≠ [] → next.code address = world.code address

theorem Extends.trans {last : World Address} (h : Extends world next) (hLast : Extends next last) : Extends world last := by
  intro address hCode
  rw [hLast address (by rwa [h address hCode]), h address hCode]

/-- Each pointer holds its chunk behind a STOP. -/
def Stored (world : World Address) (pointers : List Address) (chunks : List Bytes) : Prop :=
  List.Forall₂ (fun pointer chunk => world.code pointer = 0 :: chunk) pointers chunks

theorem Stored.extend {pointers : List Address} {chunks : List Bytes} (h : Stored world pointers chunks)
    (hNext : Extends world next) : Stored next pointers chunks :=
  h.imp fun pointer chunk hCode => by rw [hNext pointer (by rw [hCode]; exact List.cons_ne_nil _ _), hCode]

theorem Stored.payloads_eq {pointers : List Address} {chunks : List Bytes} (h : Stored world pointers chunks) :
    payloads world pointers = chunks.flatten := by
  induction h with
  | nil => rfl
  | cons hCode hRest ih => rw [payloads_cons, ih, payload, hCode, List.drop_one, List.tail_cons, List.flatten_cons]

theorem write_spec {chunk : Bytes} {count : Nat} (hChunk : chunk ≠ [] ∧ chunk.length ≤ maxChunkBytes)
    (hFresh : world.Fresh createAddress (count + 1)) : ∃ pointer next, write createAddress chunk world = .ok (pointer, next) ∧
      next.Fresh createAddress count ∧ Extends world next ∧ next.code pointer = 0 :: chunk := by
  refine ⟨_, _, write_eq_ok hChunk.1 hChunk.2 hFresh, hFresh.succ _, fun address hCode => ?_, Function.update_self ..⟩
  have hOther : address ≠ createAddress world.nonce := by
    rintro rfl
    exact hCode (hFresh.unused 0 (Nat.succ_pos _))
  exact Function.update_of_ne hOther ..

theorem writeAll_spec {chunks : List Bytes} {count : Nat} (hChunks : ∀ chunk ∈ chunks, chunk ≠ [] ∧ chunk.length ≤ maxChunkBytes)
    (hFresh : world.Fresh createAddress (chunks.length + count)) : ∃ pointers next,
      writeAll createAddress chunks world = .ok (pointers, next) ∧ next.Fresh createAddress count ∧ Extends world next ∧
      Stored next pointers chunks := by
  induction chunks generalizing world with
  | nil => exact ⟨[], world, rfl, by simpa using hFresh, fun _ _ => rfl, .nil⟩
  | cons chunk rest ih =>
    rw [List.length_cons, Nat.add_right_comm] at hFresh
    obtain ⟨pointer, written, hWrite, hFresh, hExtends, hCode⟩ := write_spec (hChunks chunk (List.mem_cons_self ..)) hFresh
    obtain ⟨pointers, next, hRest, hFresh, hExtendsRest, hStored⟩ :=
      ih (fun other hMem => hChunks other (List.mem_cons_of_mem _ hMem)) hFresh
    refine ⟨pointer :: pointers, next, ?_, hFresh, hExtends.trans hExtendsRest, .cons ?_ hStored⟩
    · rw [writeAll, hWrite]
      dsimp only
      rw [hRest]
    · rw [hExtendsRest pointer (by rw [hCode]; exact List.cons_ne_nil _ _), hCode]

def totalChunks (files : List SiteFile) : Nat := (files.map fun file => (cut file.content).length).sum

theorem deployFiles_spec {files : List SiteFile} {count : Nat}
    (hFresh : world.Fresh createAddress (totalChunks files + count)) : ∃ chunks next,
      deployFiles createAddress files world = .ok (chunks, next) ∧ Extends world next ∧
      List.Forall₂ (fun file pointers => Stored next pointers (cut file.content)) files chunks := by
  induction files generalizing world with
  | nil => exact ⟨[], world, rfl, fun _ _ => rfl, .nil⟩
  | cons file rest ih =>
    rw [totalChunks, List.map_cons, List.sum_cons, ← totalChunks, Nat.add_assoc] at hFresh
    obtain ⟨pointers, written, hWrite, hFresh, hExtends, hStored⟩ := writeAll_spec (fun chunk => mem_cut) hFresh
    obtain ⟨chunks, next, hRest, hExtendsRest, hEach⟩ := ih hFresh
    refine ⟨pointers :: chunks, next, ?_, hExtends.trans hExtendsRest, .cons (hStored.extend hExtendsRest) hEach⟩
    rw [deployFiles, deployChunks, ← cut, hWrite]
    dsimp only
    rw [hRest]

end Storing

section Site

variable {keccak256 : Bytes → B256} {world : World Address} {files : List SiteFile} {chunks : List (List Address)}

def siteEntries (keccak256 : Bytes → B256) (files : List SiteFile) (chunks : List (List Address)) : List SiteEntry :=
  files.zipWith (fun file pointers => ⟨keccak256 file.path, file.contentType, pointers, file.content.length⟩) chunks

theorem Stored.sound {file : SiteFile} {pointers : List Address} (h : Stored world pointers (cut file.content))
    (hSome : file.content ≠ []) (pathHash : B256) :
    Sound world ⟨pathHash, file.contentType, pointers, file.content.length⟩ where
  nonempty := by
    rintro rfl
    cases hCut : cut file.content with
    | nil => exact cut_ne_nil hSome hCut
    | cons chunk rest =>
      rw [hCut] at h
      cases h
  chunks := by
    intro pointer hMem
    obtain ⟨i, hIndex, rfl⟩ := List.getElem_of_mem hMem
    have hChunk := (List.forall₂_iff_get.mp h).2 i hIndex ((List.Forall₂.length_eq h) ▸ hIndex)
    have hSize := mem_cut (List.get_mem (cut file.content) ⟨i, (List.Forall₂.length_eq h) ▸ hIndex⟩)
    have hLength := List.length_pos_iff.mpr hSize.1
    rw [← length_payload, payload]
    simp only [List.get_eq_getElem] at hChunk hLength hSize
    rw [hChunk]
    exact ⟨hLength, hSize.2⟩
  length_eq := by
    rw [h.payloads_eq, flatten_cut]

/-- The arrays handed to the constructor: one sound entry for each file, in order. -/
theorem siteEntries_spec (hNonempty : ∀ file ∈ files, file.content ≠ [])
    (h : List.Forall₂ (fun file pointers => Stored world pointers (cut file.content)) files chunks) :
    entries (files.map fun file => keccak256 file.path) (files.map SiteFile.contentType) chunks
        (files.map fun file => file.content.length) = siteEntries keccak256 files chunks ∧
      (siteEntries keccak256 files chunks).map SiteEntry.pathHash = files.map (fun file => keccak256 file.path) ∧
      (∀ entry ∈ siteEntries keccak256 files chunks, Sound world entry) ∧
      ∀ file ∈ files, ∃ pointers ∈ chunks, ⟨keccak256 file.path, file.contentType, pointers, file.content.length⟩ ∈
        siteEntries keccak256 files chunks ∧ payloads world pointers = file.content := by
  induction h with
  | nil => simp [entries, siteEntries]
  | @cons file pointers rest others hStored hRest ih =>
    obtain ⟨hEntries, hHashes, hSound, hEach⟩ := ih fun other hMem => hNonempty other (List.mem_cons_of_mem _ hMem)
    refine ⟨congrArg (_ :: ·) hEntries, congrArg (_ :: ·) hHashes, ?_, ?_⟩
    · intro entry hMem
      obtain rfl | hMem := List.mem_cons.mp hMem
      · exact hStored.sound (hNonempty file (List.mem_cons_self ..)) _
      · exact hSound entry hMem
    · intro other hMem
      obtain rfl | hMem := List.mem_cons.mp hMem
      · exact ⟨pointers, List.mem_cons_self .., List.mem_cons_self .., by rw [hStored.payloads_eq, flatten_cut]⟩
      · obtain ⟨own, hOwn, hEntry, hContent⟩ := hEach other hMem
        exact ⟨own, List.mem_cons_of_mem _ hOwn, List.mem_cons_of_mem _ hEntry, hContent⟩

/-- A site whose resources are the files, each held by the pointers deployed for it. -/
structure Holds (keccak256 : Bytes → B256) (stored : World Address) (files : List SiteFile) (chunks : List (List Address))
    (site : ResurrectOnchainSite) : Prop where
  intact : Intact stored site.resources
  resource : ∀ file ∈ files, ∃ pointers ∈ chunks, payloads stored pointers = file.content ∧
    site.resources (keccak256 file.path) = ⟨file.contentType, pointers, file.content.length, true⟩
  others : ∀ pathHash, (∀ file ∈ files, keccak256 file.path ≠ pathHash) → (site.resources pathHash).exists = false

theorem exists_holds (hNonempty : ∀ file ∈ files, file.content ≠ [])
    (hDistinct : (files.map fun file => keccak256 file.path).Nodup)
    (hIndex : ∃ file ∈ files, file.path = literal "index.html")
    (h : List.Forall₂ (fun file pointers => Stored world pointers (cut file.content)) files chunks) (manifestHash : B256) :
    ∃ site, construct keccak256 world (files.map fun file => keccak256 file.path) (files.map SiteFile.contentType) chunks
      (files.map fun file => file.content.length) manifestHash = .ok site ∧ Holds keccak256 world files chunks site := by
  obtain ⟨hEntries, hHashes, hSound, hEach⟩ := siteEntries_spec hNonempty h
  obtain ⟨resources, hAdd, hTaken, hElse⟩ :=
    addResources_of_sound (intact_unset world) hSound (hHashes ▸ hDistinct) fun _ _ => rfl
  have hHolds : Holds keccak256 world files chunks ⟨manifestHash, resources⟩ := by
    constructor
    · exact (intact_unset world).addResources hAdd
    · intro file hMem
      obtain ⟨pointers, hPointers, hEntry, hContent⟩ := hEach file hMem
      exact ⟨pointers, hPointers, hContent, hTaken _ hEntry⟩
    · intro pathHash hNone
      refine congrArg Resource.exists (hElse pathHash fun entry hMem hSame => ?_)
      have hHash : pathHash ∈ files.map fun file => keccak256 file.path := by
        rw [← hHashes, ← hSame]
        exact List.mem_map_of_mem hMem
      obtain ⟨file, hFile, hPath⟩ := List.mem_map.mp hHash
      exact hNone file hFile hPath
  refine ⟨_, ?_, hHolds⟩
  obtain ⟨index, hMem, hPath⟩ := hIndex
  obtain ⟨pointers, -, -, hResource⟩ := hHolds.resource index hMem
  have hExists : (resources (indexPathHash keccak256)).exists = true := by
    rw [indexPathHash, ← hPath]
    exact congrArg Resource.exists hResource
  have hSome : files.length ≠ 0 := fun hNone => by
    rw [List.eq_nil_of_length_eq_zero hNone] at hMem
    cases hMem
  have hLength := h.length_eq
  rw [construct, if_neg (by simp [hLength ▸ hSome, hLength]), hEntries, hAdd]
  simp [hExists]

theorem Holds.request_file {stored later : World Address} {site : ResurrectOnchainSite}
    (h : Holds keccak256 stored files chunks site) {file : SiteFile} (hMem : file ∈ files)
    (hLater : ∀ pointer ∈ chunks.flatten, later.code pointer = stored.code pointer) {resource : List Bytes}
    (hSelected : selectedHash keccak256 resource = some (keccak256 file.path)) (memory : ContractMemory) :
    (site.request keccak256 later resource memory).1 = ⟨200, file.content, headersFor file.contentType true⟩ := by
  obtain ⟨pointers, hPointers, hContent, hResource⟩ := h.resource file hMem
  have hFound := @request_found keccak256 stored later site resource memory _ h.intact hSelected
  rw [hResource] at hFound
  obtain ⟨after, hRequest, -⟩ := hFound rfl fun pointer hPointer => hLater pointer (List.mem_flatten_of_mem hPointers hPointer)
  rw [hRequest, hContent]

theorem Holds.request_other {stored later : World Address} {site : ResurrectOnchainSite}
    (h : Holds keccak256 stored files chunks site) {path : Bytes} (hOther : ∀ file ∈ files, file.path ≠ path)
    (hKeccak : ∀ file ∈ files, keccak256 file.path = keccak256 path → file.path = path) (memory : ContractMemory) :
    (site.request keccak256 later [path] memory).1 = notFound := by
  rw [request_notFound]
  intro pathHash hSelected
  rw [← Option.some.inj hSelected]
  exact h.others _ fun file hMem hSame => hOther file hMem (hKeccak file hMem hSame)

end Site

end DeployResurrectExplorer

open DeployResurrectExplorer

/-- The site returns what was deployed, and puts every resource that it accepted together inside its buffer. -/
theorem onchainSite_returns_files {keccak256 : Bytes → B256} {createAddress : Nat → Address} {world : World Address}
    {files : List SiteFile} (hNonempty : ∀ file ∈ files, file.content ≠ [])
    (hDistinct : (files.map fun file => keccak256 file.path).Nodup)
    (hIndex : ∃ file ∈ files, file.path = literal "index.html")
    (hFresh : world.Fresh createAddress (totalChunks files)) (manifestHash : B256) :
    (∃ chunks stored site, deployFiles createAddress files world = .ok (chunks, stored) ∧
      construct keccak256 stored (files.map fun file => keccak256 file.path) (files.map SiteFile.contentType) chunks
        (files.map fun file => file.content.length) manifestHash = .ok site ∧
      ∀ later : World Address, (∀ pointer ∈ chunks.flatten, later.code pointer = stored.code pointer) → ∀ memory,
        (∀ file ∈ files, (site.request keccak256 later [file.path] memory).1 =
          ⟨200, file.content, headersFor file.contentType true⟩) ∧
        (∀ file ∈ files, file.path = literal "index.html" → (site.request keccak256 later [] memory).1 =
          ⟨200, file.content, headersFor file.contentType true⟩) ∧
        (∀ path, (∀ file ∈ files, file.path ≠ path) →
          (∀ file ∈ files, keccak256 file.path = keccak256 path → file.path = path) →
          (site.request keccak256 later [path] memory).1 = notFound) ∧
        ∀ first second rest, (site.request keccak256 later (first :: second :: rest) memory).1 = notFound) ∧
    ∀ (built later : World Address) pathHashes contentTypes chunks lengths manifestHash site,
      construct keccak256 built pathHashes contentTypes chunks lengths manifestHash = .ok site →
      ∀ resource pathHash memory, selectedHash keccak256 resource = some pathHash →
        (site.resources pathHash).exists = true →
        (∀ chunk ∈ (site.resources pathHash).chunks, later.code chunk = built.code chunk) →
        ∃ ranges, (site.request keccak256 later resource memory).2.copied = memory.copied ++ ranges ∧
          Covers ranges (memory.free + 0x20) (site.resources pathHash).length ∧
          ∀ i, i < memory.free + 0x20 ∨ memory.free + 0x20 + (site.resources pathHash).length ≤ i →
            (site.request keccak256 later resource memory).2.byte i = memory.byte i := by
  constructor
  · obtain ⟨chunks, stored, hDeploy, -, hStored⟩ := @deployFiles_spec createAddress world files 0 hFresh
    obtain ⟨site, hConstruct, hHolds⟩ := exists_holds hNonempty hDistinct hIndex hStored manifestHash
    refine ⟨chunks, stored, site, hDeploy, hConstruct, fun later hLater memory => ⟨?_, ?_, ?_, ?_⟩⟩
    · intro file hMem
      exact hHolds.request_file hMem hLater rfl memory
    · intro file hMem hPath
      exact hHolds.request_file hMem hLater (by rw [hPath]; rfl) memory
    · intro path hOther hKeccak
      exact hHolds.request_other hOther hKeccak memory
    · intro first second rest
      rw [request_notFound fun pathHash hSelected => by cases hSelected]
  · intro built later pathHashes contentTypes chunks lengths manifestHash site hConstruct resource pathHash memory
      hSelected hExists hCode
    obtain ⟨after, hRequest, ⟨ranges, hCopied, hCovers⟩, hFrame⟩ :=
      request_found (intact_of_construct hConstruct) hSelected hExists hCode
    rw [hRequest]
    exact ⟨ranges, hCopied, hCovers, hFrame⟩

/-- keccak256 on the two paths. -/
def sampleKeccak (path : Bytes) : B256 :=
  if path = literal "index.html" then 0x4d17a49e3c76c3b41120af8c4783bab04c2b6d39df6a3ce92620c5050fbed6d1
  else if path = literal "app.js" then 0x76af51e463bad21332e68b71064e7862ca64bed90fabd2224641de9aa979b46b
  else 0

/-- The addresses of the first contracts of the account 0xf39fd6e51aad88f6f4ce6ab8827279cfffb92266. -/
def sampleAddress : Nat → Address
  | 0 => 0x5fbdb2315678afecb367f032d93f642f64180aa3
  | 1 => 0xe7f1725e7734ce288f8367e1bb143e90bb3f0512
  | 2 => 0x9fe46736679d2d9a65f0992f2272de9f3c7fa6e0
  | _ => 0xcf7ed3acca5a467e9e704c703e8d87f634fb0fc9

/-- A script that takes three chunks. -/
def sampleScript : Bytes := literal "console.log('ok')" ++ List.replicate 50000 0x20

def sampleFiles : List SiteFile :=
  [⟨literal "index.html", literal "text/html; charset=utf-8", literal "<h1>resurrect</h1>"⟩,
    ⟨literal "app.js", literal "text/javascript; charset=utf-8", sampleScript⟩]

theorem chunkCount_sampleScript : chunkCount sampleScript = 3 := by
  have hText : (literal "console.log('ok')").length = 17 := by decide +kernel
  rw [chunkCount, sampleScript, List.length_append, List.length_replicate, hText, chunkBytes]

theorem totalChunks_sampleFiles : totalChunks sampleFiles = 4 := by
  have hIndex : chunkCount (literal "<h1>resurrect</h1>") = 1 := by decide +kernel
  simp only [totalChunks, sampleFiles, List.map_cons, List.map_nil, List.sum_cons, List.sum_nil, length_cut, hIndex,
    chunkCount_sampleScript, Nat.reduceAdd]

theorem onchainSite_returns_files_sample : ∃ chunks stored site,
    deployFiles sampleAddress sampleFiles ⟨fun _ => [], 0⟩ = .ok (chunks, stored) ∧
    construct sampleKeccak stored (sampleFiles.map fun file => sampleKeccak file.path)
      (sampleFiles.map SiteFile.contentType) chunks (sampleFiles.map fun file => file.content.length) 0 = .ok site ∧
    ∀ memory, (site.request sampleKeccak stored [] memory).1 =
        ⟨200, literal "<h1>resurrect</h1>", headersFor (literal "text/html; charset=utf-8") true⟩ ∧
      (site.request sampleKeccak stored [literal "app.js"] memory).1 =
        ⟨200, sampleScript, headersFor (literal "text/javascript; charset=utf-8") true⟩ := by
  have hNonempty : ∀ file ∈ sampleFiles, file.content ≠ [] := by
    intro file hMem
    obtain rfl | hMem := List.mem_cons.mp hMem
    · exact List.cons_ne_nil _ _
    · obtain rfl := List.mem_singleton.mp hMem
      exact List.cons_ne_nil _ _
  have hFresh : World.Fresh (⟨fun _ => [], 0⟩ : World Address) sampleAddress (totalChunks sampleFiles) := by
    rw [totalChunks_sampleFiles]
    exact ⟨by decide +kernel, fun _ _ => rfl, by decide +kernel⟩
  obtain ⟨⟨chunks, stored, site, hDeploy, hConstruct, hServes⟩, -⟩ :=
    @onchainSite_returns_files sampleKeccak sampleAddress ⟨fun _ => [], 0⟩ sampleFiles hNonempty
      (by decide) ⟨_, List.mem_cons_self .., rfl⟩ hFresh 0
  refine ⟨chunks, stored, site, hDeploy, hConstruct, fun memory => ?_⟩
  obtain ⟨hFiles, hIndex, -, -⟩ := hServes stored (fun _ _ => rfl) memory
  exact ⟨hIndex _ (List.mem_cons_self ..) rfl, hFiles _ (List.mem_cons_of_mem _ (List.mem_cons_self ..))⟩

end Resurrect.Contracts
