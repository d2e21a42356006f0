import Resurrect.Contracts.BytecodeStorage
import Mathlib.Algebra.BigOperators.Group.List.Basic

/-! # The onchain site

`ResurrectOnchainSite`: the constructor's accounting of paths, chunks and lengths,
and `request`, which puts a resource together in memory. Lengths are natural
numbers: what they count is held in memory, so no sum of them comes near 2^256.
-/

namespace Resurrect.Contracts

open Resurrect.Core Evm ResurrectBytecodeStorage

/-- A string literal of the source, as its bytes. -/
def literal (text : String) : Bytes := text.toList.map fun c => UInt8.ofNat c.toNat

structure KeyValue where
  key : Bytes
  value : Bytes
  deriving DecidableEq, Repr

structure Resource where
  contentType : Bytes
  chunks : List Address
  length : Nat
  «exists» : Bool
  deriving DecidableEq, Repr

/-- A mapping's value before anything is written to it. -/
def Resource.unset : Resource := ⟨[], [], 0, false⟩

inductive SiteError where
  | arrayLengthMismatch
  | duplicatePath (pathHash : B256)
  | emptyResource (pathHash : B256)
  | invalidChunk (pathHash : B256) (chunk : Address)
  | resourceLengthMismatch (pathHash : B256) (expected actual : Nat)
  | missingIndex
  deriving DecidableEq, Repr

structure Response where
  statusCode : UInt16
  body : Bytes
  headers : List KeyValue
  deriving DecidableEq, Repr

/-- What the constructor's arrays say of one path. -/
structure SiteEntry where
  pathHash : B256
  contentType : Bytes
  chunks : List Address
  length : Nat
  deriving DecidableEq, Repr

structure ResurrectOnchainSite where
  manifestHash : B256
  resources : B256 → Resource

namespace ResurrectOnchainSite

def indexPathHash (keccak256 : Bytes → B256) : B256 := keccak256 (literal "index.html")

/-- The length of some chunks behind `actualLength`, each of them checked. -/
def sumChunks (world : World Address) (pathHash : B256) : List Address → Nat → Except SiteError Nat
  | [], actualLength => .ok actualLength
  | chunk :: rest, actualLength =>
    let chunkLength := payloadSize world chunk
    if chunkLength = 0 ∨ maxChunkBytes < chunkLength then .error (.invalidChunk pathHash chunk)
    else sumChunks world pathHash rest (actualLength + chunkLength)

def addResource (world : World Address) (resources : B256 → Resource) (entry : SiteEntry) :
    Except SiteError (B256 → Resource) :=
  let target := resources entry.pathHash
  if target.exists then .error (.duplicatePath entry.pathHash)
  else if entry.length = 0 ∨ entry.chunks.length = 0 then .error (.emptyResource entry.pathHash)
  else
    match sumChunks world entry.pathHash entry.chunks 0 with
    | .error error => .error error
    | .ok actualLength =>
      if actualLength ≠ entry.length then
        .error (.resourceLengthMismatch entry.pathHash entry.length actualLength)
      else .ok (Function.update resources entry.pathHash
        ⟨entry.contentType, target.chunks ++ entry.chunks, entry.length, true⟩)

def addResources (world : World Address) : List SiteEntry → (B256 → Resource) → Except SiteError (B256 → Resource)
  | [], resources => .ok resources
  | entry :: rest, resources =>
    match addResource world resources entry with
    | .error error => .error error
    | .ok resources => addResources world rest resources

/-- The constructor's arrays by index, once they are known to be equally long. -/
def entries (pathHashes : List B256) (contentTypes : List Bytes) (chunks : List (List Address)) (lengths : List Nat) :
    List SiteEntry :=
  (pathHashes.zip (contentTypes.zip (chunks.zip lengths))).map fun (pathHash, contentType, chunks, length) =>
    ⟨pathHash, contentType, chunks, length⟩

def construct (keccak256 : Bytes → B256) (world : World Address) (pathHashes : List B256) (contentTypes : List Bytes)
    (chunks : List (List Address)) (lengths : List Nat) (expectedManifestHash : B256) :
    Except SiteError ResurrectOnchainSite :=
  let count := pathHashes.length
  if count = 0 ∨ count ≠ contentTypes.length ∨ count ≠ chunks.length ∨ count ≠ lengths.length then
    .error .arrayLengthMismatch
  else
    match addResources world (entries pathHashes contentTypes chunks lengths) (fun _ => .unset) with
    | .error error => .error error
    | .ok resources =>
      if !(resources (indexPathHash keccak256)).exists then .error .missingIndex
      else .ok ⟨expectedManifestHash, resources⟩

def headersFor (contentType : Bytes) (immutableResource : Bool) : List KeyValue :=
  [⟨literal "Content-Type", contentType⟩,
    ⟨literal "Cache-Control", if immutableResource then literal "public, max-age=31536000, immutable" else literal "no-store"⟩]

def notFound : Response := ⟨404, literal "not found\n", headersFor (literal "text/plain; charset=utf-8") false⟩

/-- `new bytes(length)`: zero bytes behind a length word, filled up to a whole word. The length word itself is left out. -/
def newBytes (length : Nat) (memory : ContractMemory) : Nat × ContractMemory :=
  (memory.free, { memory with
    byte := memory.byte.write (memory.free + 0x20) (List.replicate length 0)
    free := memory.free + 0x20 + (length + 31) / 32 * 32 })

def assemble (world : World Address) (data : Nat) : List Address → Nat → ContractMemory → ContractMemory
  | [], _, memory => memory
  | chunk :: rest, offset, memory =>
    assemble world data rest (offset + payloadSize world chunk) (copy world chunk data offset memory)

variable (self : ResurrectOnchainSite)

/-- The resource a request asks for, if its path has at most one element. -/
def selectedHash (keccak256 : Bytes → B256) : List Bytes → Option B256
  | [] => some (indexPathHash keccak256)
  | [path] => some (keccak256 path)
  | _ :: _ :: _ => none

def request (keccak256 : Bytes → B256) (world : World Address) (resource : List Bytes) (memory : ContractMemory) :
    Response × ContractMemory :=
  match selectedHash keccak256 resource with
  | none => (notFound, memory)
  | some pathHash =>
    let selected := self.resources pathHash
    if !selected.exists then (notFound, memory)
    else
      let (data, memory) := newBytes selected.length memory
      let memory := assemble world data selected.chunks 0 memory
      (⟨200, memory.byte.read (data + 0x20) selected.length, headersFor selected.contentType true⟩, memory)

section Assembly

variable {world : World Address} {data : Nat}

def payloads (world : World Address) (chunks : List Address) : Bytes := chunks.flatMap (payload world)

/-- Ranges that stay inside `size` bytes from `start` on, and leave none of them out. -/
structure Covers (ranges : List (Nat × Nat)) (start size : Nat) : Prop where
  inside : ∀ range ∈ ranges, start ≤ range.1 ∧ range.1 + range.2 ≤ start + size
  full : ∀ i, start ≤ i → i < start + size → ∃ range ∈ ranges, range.1 ≤ i ∧ i < range.1 + range.2

theorem Covers.cons {ranges : List (Nat × Nat)} {start first size : Nat} (h : Covers ranges (start + first) size) :
    Covers ((start, first) :: ranges) start (first + size) where
  inside := by
    intro range hMem
    obtain rfl | hMem := List.mem_cons.mp hMem
    · exact ⟨le_rfl, by omega⟩
    · have hInside := h.inside range hMem
      omega
  full := by
    intro i hStart hEnd
    by_cases hFirst : i < start + first
    · exact ⟨_, List.mem_cons_self .., hStart, hFirst⟩
    · obtain ⟨range, hMem, hRange⟩ := h.full i (not_lt.mp hFirst) (by omega)
      exact ⟨range, List.mem_cons_of_mem _ hMem, hRange⟩

/-- What `assemble` does to memory: it writes the payloads in order, each of their bytes and nothing else. -/
structure Assembled (world : World Address) (chunks : List Address) (start : Nat) (before after : ContractMemory) : Prop where
  content : after.byte.read start (payloads world chunks).length = payloads world chunks
  frame : ∀ i, i < start ∨ start + (payloads world chunks).length ≤ i → after.byte i = before.byte i
  covers : ∃ ranges, after.copied = before.copied ++ ranges ∧ Covers ranges start (payloads world chunks).length

theorem payloads_cons (world : World Address) (chunk : Address) (rest : List Address) :
    payloads world (chunk :: rest) = payload world chunk ++ payloads world rest := List.flatMap_cons

theorem Assembled.nil (start : Nat) (memory : ContractMemory) : Assembled world [] start memory memory where
  content := rfl
  frame _ _ := rfl
  covers := ⟨[], (List.append_nil _).symm, by simp, fun i hStart hEnd => absurd hStart (not_le.mpr hEnd)⟩

/-- Each copy ends where the next begins. -/
theorem Assembled.cons {chunk : Address} {rest : List Address} {start : Nat} {before after : ContractMemory}
    (h : Assembled world rest (start + (payload world chunk).length)
      { before with
        byte := before.byte.write start (payload world chunk)
        copied := before.copied ++ [(start, (payload world chunk).length)] } after) :
    Assembled world (chunk :: rest) start before after where
  content := by
    have hHere : after.byte.read start (payload world chunk).length = payload world chunk := by
      rw [read_congr fun i _ hEnd => h.frame i (.inl hEnd), read_write]
    rw [payloads_cons, List.length_append, read_append, hHere, h.content]
  frame i hOutside := by
    rw [payloads_cons, List.length_append] at hOutside
    rw [h.frame i (by omega)]
    exact write_outside (by omega)
  covers := by
    obtain ⟨ranges, hCopied, hCovers⟩ := h.covers
    refine ⟨(start, (payload world chunk).length) :: ranges, by simp [hCopied], ?_⟩
    rw [payloads_cons, List.length_append]
    exact hCovers.cons

theorem assembled (chunks : List Address) (offset : Nat) (memory : ContractMemory) :
    Assembled world chunks (data + 0x20 + offset) memory (assemble world data chunks offset memory) := by
  induction chunks generalizing offset memory with
  | nil => exact .nil _ _
  | cons chunk rest ih =>
    have hRest := ih (offset + payloadSize world chunk) (copy world chunk data offset memory)
    rw [← length_payload, ← Nat.add_assoc, copy_eq] at hRest
    rw [assemble, ← length_payload, copy_eq]
    exact hRest.cons

end Assembly

section Constructor

variable {keccak256 : Bytes → B256} {world : World Address} {resources next : B256 → Resource}

theorem sumChunks_eq_ok {pathHash : B256} {chunks : List Address} {behind total : Nat} :
    sumChunks world pathHash chunks behind = .ok total ↔
      (∀ chunk ∈ chunks, 0 < payloadSize world chunk ∧ payloadSize world chunk ≤ maxChunkBytes) ∧
        total = behind + (payloads world chunks).length := by
  induction chunks generalizing behind with
  | nil => simp [sumChunks, payloads, eq_comm]
  | cons chunk rest ih =>
    rw [sumChunks, payloads_cons, List.length_append, List.forall_mem_cons]
    split
    · rename_i hInvalid
      refine iff_of_false (fun h => by cases h) fun h => ?_
      omega
    · rename_i hValid
      rw [ih, length_payload]
      constructor
      · rintro ⟨hRest, rfl⟩
        exact ⟨⟨by omega, hRest⟩, by omega⟩
      · rintro ⟨⟨-, hRest⟩, rfl⟩
        exact ⟨hRest, by omega⟩

theorem length_payloads_pos {chunks : List Address} (hSome : chunks ≠ [])
    (h : ∀ chunk ∈ chunks, 0 < payloadSize world chunk) : 0 < (payloads world chunks).length := by
  cases chunks with
  | nil => exact absurd rfl hSome
  | cons chunk rest =>
    have hChunk := h chunk (List.mem_cons_self ..)
    rw [payloads_cons, List.length_append, length_payload]
    omega

/-- An entry that the constructor takes: its chunks hold exactly as many bytes as it says. -/
structure Sound (world : World Address) (entry : SiteEntry) : Prop where
  nonempty : entry.chunks ≠ []
  chunks : ∀ chunk ∈ entry.chunks, 0 < payloadSize world chunk ∧ payloadSize world chunk ≤ maxChunkBytes
  length_eq : entry.length = (payloads world entry.chunks).length

theorem addResource_eq_ok {entry : SiteEntry} : addResource world resources entry = .ok next ↔
    (resources entry.pathHash).exists = false ∧ Sound world entry ∧
      next = Function.update resources entry.pathHash
        ⟨entry.contentType, (resources entry.pathHash).chunks ++ entry.chunks, entry.length, true⟩ := by
  rw [addResource]
  split
  · rename_i hExists
    exact iff_of_false (fun h => by cases h) fun h => by simp [hExists] at h
  rename_i hUnset
  rw [Bool.not_eq_true] at hUnset
  split
  · rename_i hEmpty
    refine iff_of_false (fun h => by cases h) fun ⟨_, hSound, _⟩ => ?_
    have hPos := length_payloads_pos hSound.nonempty fun chunk hMem => (hSound.chunks chunk hMem).1
    have hSome := List.length_pos_iff.mpr hSound.nonempty
    have hLength := hSound.length_eq
    omega
  rename_i hSome
  have hChunks : entry.chunks ≠ [] := fun h => hSome (.inr (by rw [h]; rfl))
  split
  · rename_i error hSum
    refine iff_of_false (fun h => by cases h) fun ⟨_, hSound, _⟩ => ?_
    rw [sumChunks_eq_ok.mpr ⟨hSound.chunks, rfl⟩] at hSum
    cases hSum
  · rename_i actualLength hSum
    obtain ⟨hValid, rfl⟩ := sumChunks_eq_ok.mp hSum
    rw [Nat.zero_add]
    split
    · rename_i hDiffers
      exact iff_of_false (fun h => by cases h) fun ⟨_, hSound, _⟩ => hDiffers hSound.length_eq.symm
    · rename_i hEqual
      have hSound : Sound world entry := ⟨hChunks, hValid, (not_not.mp hEqual).symm⟩
      rw [Except.ok.injEq, eq_comm, and_iff_right hUnset, and_iff_right hSound]

/-- Every resource has the length of its chunks, and what is not there was never written. -/
structure Intact (world : World Address) (resources : B256 → Resource) : Prop where
  unset : ∀ pathHash, (resources pathHash).exists = false → resources pathHash = .unset
  sized : ∀ pathHash, (resources pathHash).length = (payloads world (resources pathHash).chunks).length

theorem intact_unset (world : World Address) : Intact world fun _ => .unset := ⟨fun _ _ => rfl, fun _ => rfl⟩

theorem Intact.addResource {entry : SiteEntry} (h : Intact world resources)
    (hAdd : addResource world resources entry = .ok next) : Intact world next := by
  obtain ⟨hUnset, hSound, rfl⟩ := addResource_eq_ok.mp hAdd
  rw [h.unset _ hUnset]
  constructor
  · intro pathHash
    by_cases hSame : pathHash = entry.pathHash
    · subst hSame
      simp
    · rw [Function.update_of_ne hSame]
      exact h.unset pathHash
  · intro pathHash
    by_cases hSame : pathHash = entry.pathHash
    · subst hSame
      rw [Function.update_self]
      exact hSound.length_eq
    · rw [Function.update_of_ne hSame]
      exact h.sized pathHash

theorem Intact.addResources {entries : List SiteEntry} (h : Intact world resources)
    (hAdd : addResources world entries resources = .ok next) : Intact world next := by
  induction entries generalizing resources with
  | nil =>
    cases hAdd
    exact h
  | cons entry rest ih =>
    rw [ResurrectOnchainSite.addResources] at hAdd
    split at hAdd
    · cases hAdd
    · rename_i added hEntry
      exact ih (h.addResource hEntry) hAdd

/-- The constructor takes sound entries with distinct paths, each as it stands. -/
theorem addResources_of_sound {entries : List SiteEntry} (h : Intact world resources)
    (hSound : ∀ entry ∈ entries, Sound world entry) (hDistinct : (entries.map SiteEntry.pathHash).Nodup)
    (hFree : ∀ entry ∈ entries, (resources entry.pathHash).exists = false) :
    ∃ next, addResources world entries resources = .ok next ∧
      (∀ entry ∈ entries, next entry.pathHash = ⟨entry.contentType, entry.chunks, entry.length, true⟩) ∧
      ∀ pathHash, (∀ entry ∈ entries, entry.pathHash ≠ pathHash) → next pathHash = resources pathHash := by
  induction entries generalizing resources with
  | nil => exact ⟨resources, rfl, by simp, fun _ _ => rfl⟩
  | cons entry rest ih =>
    rw [List.map_cons, List.nodup_cons] at hDistinct
    obtain ⟨hOther, hRest⟩ := hDistinct
    have hHere := hFree entry (List.mem_cons_self ..)
    have hAdd := addResource_eq_ok.mpr ⟨hHere, hSound entry (List.mem_cons_self ..), rfl⟩
    have hApart : ∀ other ∈ rest, other.pathHash ≠ entry.pathHash := fun other hMem hSame =>
      hOther (hSame ▸ List.mem_map_of_mem hMem)
    obtain ⟨next, hNext, hEach, hElse⟩ := ih (h.addResource hAdd)
      (fun other hMem => hSound other (List.mem_cons_of_mem _ hMem)) hRest fun other hMem => by
        rw [Function.update_of_ne (hApart other hMem)]
        exact hFree other (List.mem_cons_of_mem _ hMem)
    refine ⟨next, ?_, ?_, ?_⟩
    · rw [addResources, hAdd]
      exact hNext
    · intro other hMem
      obtain rfl | hMem := List.mem_cons.mp hMem
      · rw [hElse _ hApart, Function.update_self, h.unset _ hHere]
        rfl
      · exact hEach other hMem
    · intro pathHash hNone
      rw [hElse pathHash fun other hMem => hNone other (List.mem_cons_of_mem _ hMem),
        Function.update_of_ne (hNone entry (List.mem_cons_self ..)).symm]

theorem intact_of_construct {pathHashes : List B256} {contentTypes : List Bytes} {chunks : List (List Address)}
    {lengths : List Nat} {manifestHash : B256} {site : ResurrectOnchainSite}
    (h : construct keccak256 world pathHashes contentTypes chunks lengths manifestHash = .ok site) :
    Intact world site.resources := by
  rw [construct] at h
  split at h
  · cases h
  split at h
  · cases h
  rename_i resources hAdd
  split at h
  · cases h
  · cases h
    exact (intact_unset world).addResources hAdd

end Constructor

section Requests

variable {keccak256 : Bytes → B256} {world later : World Address} {self : ResurrectOnchainSite} {resource : List Bytes}
  {memory : ContractMemory} {pathHash : B256}

theorem request_notFound (h : ∀ pathHash, selectedHash keccak256 resource = some pathHash →
    (self.resources pathHash).exists = false) : self.request keccak256 world resource memory = (notFound, memory) := by
  rw [request]
  split
  · rfl
  · rename_i pathHash hSelected
    simp [h pathHash hSelected]

/-- A resource is put together from its chunks inside the buffer allocated for it, and fills the buffer. -/
theorem request_found (hIntact : Intact world self.resources) (hSelected : selectedHash keccak256 resource = some pathHash)
    (hExists : (self.resources pathHash).exists = true)
    (hCode : ∀ chunk ∈ (self.resources pathHash).chunks, later.code chunk = world.code chunk) :
    ∃ after, self.request keccak256 later resource memory =
        (⟨200, payloads world (self.resources pathHash).chunks, headersFor (self.resources pathHash).contentType true⟩, after) ∧
      (∃ ranges, after.copied = memory.copied ++ ranges ∧
        Covers ranges (memory.free + 0x20) (self.resources pathHash).length) ∧
      ∀ i, i < memory.free + 0x20 ∨ memory.free + 0x20 + (self.resources pathHash).length ≤ i →
        after.byte i = memory.byte i := by
  have hSame : payloads later (self.resources pathHash).chunks = payloads world (self.resources pathHash).chunks :=
    List.flatMap_congr fun chunk hMem => by rw [payload, hCode chunk hMem, payload]
  have hAssembled : Assembled later (self.resources pathHash).chunks (memory.free + 0x20 + 0)
      (newBytes (self.resources pathHash).length memory).2 _ := assembled _ 0 _
  rw [Nat.add_zero] at hAssembled
  obtain ⟨hContent, hFrame, hCovers⟩ := hAssembled
  rw [hSame, ← hIntact.sized] at hContent hFrame hCovers
  refine ⟨_, ?_, hCovers, fun i hOutside => ?_⟩
  · rw [request, hSelected]
    dsimp only
    rw [hExists, ← hContent]
    rfl
  · rw [hFrame i hOutside]
    exact write_outside (by simpa using hOutside)

end Requests

end ResurrectOnchainSite

end Resurrect.Contracts
