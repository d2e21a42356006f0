import Resurrect.Core.PeerRecord
import Resurrect.Foundation.Evm

/-! # Bytes kept as contract code

`ResurrectBytecodeStorage`: a chunk is deployed as the code of a contract behind a
STOP, and copied back from there.
-/

namespace Resurrect.Contracts

open Resurrect.Core Evm

/-- `address(0)`. -/
instance zeroAddress : Zero Address := ⟨0⟩

/-- Memory as the contracts use it: its bytes, where the next allocation goes, and a record of the ranges (start and
size) that code was copied into. -/
structure ContractMemory where
  byte : Memory
  free : Nat
  copied : List (Nat × Nat)

namespace ResurrectBytecodeStorage

def maxChunkBytes : Nat := 24000

inductive StorageError where
  | emptyChunk
  | chunkTooLarge (length : Nat)
  | chunkDeploymentFailed
  deriving DecidableEq, Repr

def bytes2 (value : UInt16) : Bytes := [(value >>> 8).toUInt8, value.toUInt8]

def initCode (data : Bytes) : Bytes :=
  let runtimeLength := UInt16.ofNat (data.length + 1)
  [0x61] ++ bytes2 runtimeLength ++ [0x80, 0x60, 0x0a, 0x5f, 0x39, 0x5f, 0xf3, 0x00] ++ data

def write (createAddress : Nat → Address) (data : Bytes) (world : World Address) :
    Except StorageError (Address × World Address) :=
  if data.length = 0 then .error .emptyChunk
  else if maxChunkBytes < data.length then .error (.chunkTooLarge data.length)
  else
    let (pointer, next) := create createAddress (initCode data) world
    if pointer = 0 then .error .chunkDeploymentFailed else .ok (pointer, next)

def payloadSize (world : World Address) (pointer : Address) : Nat :=
  let length := (world.code pointer).length
  if length = 0 then 0 else length - 1

/-- EXTCODECOPY behind the length word of `output`. -/
def copy (world : World Address) (pointer : Address) (output outputOffset : Nat) (memory : ContractMemory) :
    ContractMemory :=
  let length := payloadSize world pointer
  let destination := output + 0x20 + outputOffset
  { memory with
    byte := memory.byte.write destination (slice (world.code pointer) 1 length)
    copied := memory.copied ++ [(destination, length)] }

section InitCode

variable {data : Bytes}

theorem beNat_bytes2 (value : UInt16) : beNat (bytes2 value) = value.toNat := by
  have hLt := value.toNat_lt
  simp [beNat, bytes2, UInt16.toNat_shiftRight, Nat.shiftRight_eq_div_pow]
  omega

/-- The init code returns the STOP and the payload behind it, whatever the payload. -/
theorem execute_initCode (h : data.length ≤ maxChunkBytes) : execute (initCode data) = some (.returned (0 :: data)) := by
  rw [maxChunkBytes] at h
  obtain ⟨high, low, hBytes⟩ : ∃ high low, bytes2 (UInt16.ofNat (data.length + 1)) = [high, low] := ⟨_, _, rfl⟩
  have hSize : beNat [high, low] = data.length + 1 := by
    rw [← hBytes, beNat_bytes2, UInt16.toNat_ofNat_of_lt' (show data.length + 1 < 65536 by omega)]
  generalize hCode : initCode data = code
  have hBytes : code = 0x61 :: high :: low :: 0x80 :: 0x60 :: 0x0a :: 0x5f :: 0x39 :: 0x5f :: 0xf3 :: 0x00 :: data := by
    rw [← hCode, initCode, hBytes]
    rfl
  have hPayload : slice code 10 (data.length + 1) = 0 :: data := by
    rw [slice_eq_take_drop, hBytes]
    · exact List.take_of_length_le (by simp)
    · simp [hBytes]
      omega
  have hTen : beNat (slice code 5 1) = 10 := by
    rw [hBytes]
    rfl
  have hFuel : code.length + 1 = data.length + 5 + 7 := by simp [hBytes]
  rw [execute, hFuel]
  generalize (fun _ => 0 : Memory) = memory
  calc run code (data.length + 5 + 7) ⟨0, [], memory⟩
      = run code (data.length + 5 + 6) ⟨3, [data.length + 1], memory⟩ :=
        run_of_step (@step_push _ 0 _ _ 2 _ (by simp [hBytes]) (by decide) (by decide) (by rw [← hSize, hBytes]; rfl)) _
    _ = run code (data.length + 5 + 5) ⟨4, [data.length + 1, data.length + 1], memory⟩ :=
        run_of_step (step_dup1 (by simp [hBytes]) (by decide)) _
    _ = run code (data.length + 5 + 4) ⟨6, [10, data.length + 1, data.length + 1], memory⟩ :=
        run_of_step (@step_push _ 4 _ _ 1 _ (by simp [hBytes]) (by decide) (by simp [stackLimit]) hTen) _
    _ = run code (data.length + 5 + 3) ⟨7, [0, 10, data.length + 1, data.length + 1], memory⟩ :=
        run_of_step (@step_push _ 6 _ _ 0 _ (by simp [hBytes]) (by decide) (by simp [stackLimit]) rfl) _
    _ = run code (data.length + 5 + 2) ⟨8, [data.length + 1], Memory.write memory 0 (0 :: data)⟩ := by
        rw [← hPayload]
        exact run_of_step (step_codecopy (by simp [hBytes])) _
    _ = run code (data.length + 5 + 1) ⟨9, [0, data.length + 1], Memory.write memory 0 (0 :: data)⟩ :=
        run_of_step (@step_push _ 8 _ _ 0 _ (by simp [hBytes]) (by decide) (by simp [stackLimit]) rfl) _
    _ = some (.returned (Memory.read (Memory.write memory 0 (0 :: data)) 0 (data.length + 1))) :=
        run_of_halt (step_return (by simp [hBytes])) _
    _ = some (.returned (0 :: data)) := by
        rw [← List.length_cons (a := (0 : UInt8)), read_write]

end InitCode

section Write

variable {createAddress : Nat → Address} {world : World Address} {data : Bytes}

theorem write_eq_ok {count : Nat} (hSome : data ≠ []) (hSize : data.length ≤ maxChunkBytes)
    (hFresh : world.Fresh createAddress (count + 1)) : write createAddress data world =
      .ok (createAddress world.nonce,
        ⟨Function.update world.code (createAddress world.nonce) (0 :: data), world.nonce + 1⟩) := by
  have hUnused := hFresh.unused 0 (Nat.succ_pos _)
  have hNonzero := hFresh.nonzero 0 (Nat.succ_pos _)
  rw [Nat.add_zero] at hUnused hNonzero
  have hRuntime : (0 :: data).length ≤ maxCodeSize := by
    rw [maxChunkBytes] at hSize
    rw [List.length_cons, maxCodeSize]
    omega
  rw [write, if_neg (mt List.eq_nil_of_length_eq_zero hSome), if_neg (not_lt.mpr hSize),
    create_returned hUnused (execute_initCode hSize) hRuntime (by simp)]
  exact if_neg hNonzero

end Write

section Payload

variable {world : World Address} {pointer : Address}

/-- The bytes a pointer stands for: its code behind the first byte. -/
def payload (world : World Address) (pointer : Address) : Bytes := (world.code pointer).drop 1

theorem length_payload (world : World Address) (pointer : Address) :
    (payload world pointer).length = payloadSize world pointer := by
  rw [payload, List.length_drop, payloadSize]
  split
  · omega
  · rfl

theorem copy_eq (world : World Address) (pointer : Address) (output outputOffset : Nat) (memory : ContractMemory) :
    copy world pointer output outputOffset memory =
      { memory with
        byte := memory.byte.write (output + 0x20 + outputOffset) (payload world pointer)
        copied := memory.copied ++ [(output + 0x20 + outputOffset, (payload world pointer).length)] } := by
  have hSlice : slice (world.code pointer) 1 (payloadSize world pointer) = payload world pointer := by
    rw [payloadSize]
    split
    · rename_i hNone
      rw [payload, List.eq_nil_of_length_eq_zero hNone]
      rfl
    · rw [slice_eq_take_drop (by omega), payload]
      exact List.take_of_length_le (by simp)
  rw [copy, hSlice, length_payload]

end Payload

section Stores

variable {createAddress : Nat → Address} {world next : World Address} {pointer : Address} {data : Bytes}

/-- What a stored chunk is good for: its contract holds a STOP and the payload, and no code but that is new. -/
structure Stores (world next : World Address) (pointer : Address) (data : Bytes) : Prop where
  code : next.code pointer = 0 :: data
  others : ∀ address, address ≠ pointer → next.code address = world.code address
  payloadSize : ResurrectBytecodeStorage.payloadSize next pointer = data.length
  copied : ∀ output outputOffset memory, (copy next pointer output outputOffset memory).byte.read
    (output + 0x20 + outputOffset) data.length = data
  outside : ∀ output outputOffset memory i, i < output + 0x20 + outputOffset ∨
    output + 0x20 + outputOffset + data.length ≤ i → (copy next pointer output outputOffset memory).byte i = memory.byte i

theorem stores_of_code (hCode : next.code pointer = 0 :: data)
    (hOthers : ∀ address, address ≠ pointer → next.code address = world.code address) :
    Stores world next pointer data := by
  have hPayload : payload next pointer = data := by rw [payload, hCode, List.drop_succ_cons, List.drop_zero]
  refine ⟨hCode, hOthers, ?_, ?_, ?_⟩
  · rw [← length_payload, hPayload]
  · intro output outputOffset memory
    rw [copy_eq, hPayload]
    exact read_write _ _ _
  · intro output outputOffset memory i hOutside
    rw [copy_eq, hPayload]
    exact write_outside hOutside

theorem stores_of_write (hSize : data.length ≤ maxChunkBytes) (h : write createAddress data world = .ok (pointer, next)) :
    Stores world next pointer data := by
  rw [write] at h
  split at h
  · cases h
  split at h
  · cases h
  have hRuntime : (0 :: data).length ≤ maxCodeSize := by
    simp only [maxChunkBytes, List.length_cons, maxCodeSize] at hSize ⊢
    omega
  by_cases hUnused : world.code (createAddress world.nonce) = []
  · rw [create_returned hUnused (execute_initCode hSize) hRuntime (by simp)] at h
    dsimp only at h
    split at h
    · cases h
    · cases h
      refine stores_of_code (Function.update_self ..) fun address hOther => ?_
      exact Function.update_of_ne hOther _ _
  · have hTaken : create createAddress (initCode data) world = (0, { world with nonce := world.nonce + 1 }) :=
      if_pos hUnused
    rw [hTaken] at h
    cases h

/-- A chunk of 1 to 24000 bytes is stored as it is, whatever its bytes, and no other is stored. Where storing one of
these fails, the new contract's address was taken or zero. -/
theorem write_stores_exactly (createAddress : Nat → Address) (world : World Address) (data : Bytes) :
    (1 ≤ data.length ∧ data.length ≤ 24000 →
      (UInt16.ofNat (data.length + 1)).toNat = data.length + 1 ∧
      execute (initCode data) = some (.returned (0 :: data)) ∧
      (∀ pointer next, write createAddress data world = .ok (pointer, next) → Stores world next pointer data) ∧
      (world.code (createAddress world.nonce) = [] → createAddress world.nonce ≠ 0 →
        ∃ next, write createAddress data world = .ok (createAddress world.nonce, next))) ∧
    (¬ (1 ≤ data.length ∧ data.length ≤ 24000) → ∃ error, write createAddress data world = .error error) := by
  constructor
  · rintro ⟨hSome, hSize⟩
    refine ⟨UInt16.toNat_ofNat_of_lt' (show data.length + 1 < 65536 by omega), execute_initCode hSize,
      fun pointer next => stores_of_write hSize, fun hUnused hNonzero => ?_⟩
    have hFresh : world.Fresh createAddress 1 := by
      refine ⟨fun k hk => ?_, fun k hk => ?_, fun j hj k hk _ => by omega⟩
      · rwa [Nat.lt_one_iff.mp hk]
      · rwa [Nat.lt_one_iff.mp hk]
    exact ⟨_, @write_eq_ok _ _ _ 0 (List.ne_nil_of_length_pos hSome) hSize hFresh⟩
  · intro hSize
    rw [write]
    split
    · exact ⟨_, rfl⟩
    · rename_i hSome
      have hLarge : maxChunkBytes < data.length := by
        rw [maxChunkBytes]
        omega
      exact ⟨_, if_pos hLarge⟩

def emptyWorld : World Address := ⟨fun _ => [], 1⟩

/-- "abc" is stored as 0x00616263. -/
theorem write_stores_exactly_abc :
    execute (initCode [0x61, 0x62, 0x63]) = some (.returned [0x00, 0x61, 0x62, 0x63]) ∧
    ∃ next, write (fun nonce => Fin.ofNat _ nonce) [0x61, 0x62, 0x63] emptyWorld = .ok (1, next) ∧
      Stores emptyWorld next 1 [0x61, 0x62, 0x63] := by
  obtain ⟨-, hExecute, hStores, hWrites⟩ :=
    (write_stores_exactly (fun nonce => Fin.ofNat _ nonce) emptyWorld [0x61, 0x62, 0x63]).1 ⟨by decide, by decide⟩
  obtain ⟨next, hWrite⟩ := hWrites rfl (by decide)
  exact ⟨hExecute, next, hWrite, hStores 1 next hWrite⟩

end Stores

end ResurrectBytecodeStorage

end Resurrect.Contracts
