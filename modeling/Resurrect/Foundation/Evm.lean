import Resurrect.Foundation.Varint
import Mathlib.Algebra.Order.Ring.Nat
import Mathlib.Data.List.Range
import Mathlib.Logic.Function.Basic

/-! # Code that deploys code

The part of the virtual machine that init code made of pushes, a copy and a return
needs, and contract creation from such code. Gas, balances and the size limit of
init code are left out.
-/

namespace Resurrect.Evm

/-- `size` bytes from `offset` on; past the end there are zeros. -/
def slice (source : Bytes) (offset size : Nat) : Bytes := (List.range size).map fun i => source.getD (offset + i) 0

abbrev Memory := Nat → UInt8

namespace Memory

def read (memory : Memory) (start size : Nat) : Bytes := (List.range size).map fun i => memory (start + i)

def write (memory : Memory) (start : Nat) (data : Bytes) : Memory :=
  fun i => if start ≤ i ∧ i < start + data.length then data.getD (i - start) 0 else memory i

end Memory

def beNat (bytes : Bytes) : Nat := bytes.foldl (fun n byte => n * 256 + byte.toNat) 0

structure Machine where
  pc : Nat
  stack : List Nat
  memory : Memory

inductive Halt where
  | returned (data : Bytes)
  | failed
  | unknown (opcode : UInt8)
  deriving DecidableEq, Repr

def stackLimit : Nat := 1024

def Machine.push (machine : Machine) (width value : Nat) : Machine ⊕ Halt :=
  if machine.stack.length < stackLimit then
    .inl { machine with pc := machine.pc + 1 + width, stack := value :: machine.stack }
  else .inr .failed

/-- One instruction: STOP, CODECOPY, PUSH0 to PUSH32, DUP1 to DUP16, RETURN. -/
def step (code : Bytes) (machine : Machine) : Machine ⊕ Halt :=
  let opcode := code.getD machine.pc 0
  if opcode = 0x00 then .inr (.returned [])
  else if opcode = 0x39 then
    match machine.stack with
    | destination :: offset :: size :: rest =>
        .inl ⟨machine.pc + 1, rest, machine.memory.write destination (slice code offset size)⟩
    | _ => .inr .failed
  else if 0x5f ≤ opcode ∧ opcode ≤ 0x7f then
    let width := opcode.toNat - 0x5f
    machine.push width (beNat (slice code (machine.pc + 1) width))
  else if 0x80 ≤ opcode ∧ opcode ≤ 0x8f then
    match machine.stack[opcode.toNat - 0x80]? with
    | some value => machine.push 0 value
    | none => .inr .failed
  else if opcode = 0xf3 then
    match machine.stack with
    | offset :: size :: _ => .inr (.returned (machine.memory.read offset size))
    | _ => .inr .failed
  else .inr (.unknown opcode)

def run (code : Bytes) : Nat → Machine → Option Halt
  | 0, _ => none
  | fuel + 1, machine =>
    match step code machine with
    | .inl next => run code fuel next
    | .inr halt => some halt

/-- Nothing jumps, so an instruction for each byte and a STOP past the end is all that can be executed. -/
def execute (code : Bytes) : Option Halt := run code (code.length + 1) ⟨0, [], fun _ => 0⟩

theorem run_of_step {code : Bytes} {machine next : Machine} (h : step code machine = .inl next) (fuel : Nat) :
    run code (fuel + 1) machine = run code fuel next := by
  rw [run, h]

theorem run_of_halt {code : Bytes} {machine : Machine} {halt : Halt} (h : step code machine = .inr halt) (fuel : Nat) :
    run code (fuel + 1) machine = some halt := by
  rw [run, h]

section Instructions

variable {code : Bytes} {pc : Nat} {stack : List Nat} {memory : Memory}

theorem step_push {width value : Nat} (hOpcode : (code.getD pc 0).toNat = 0x5f + width) (hWidth : width ≤ 32)
    (hStack : stack.length < stackLimit) (hValue : beNat (slice code (pc + 1) width) = value) :
    step code ⟨pc, stack, memory⟩ = .inl ⟨pc + 1 + width, value :: stack, memory⟩ := by
  have hStop : code.getD pc 0 ≠ 0x00 := fun h => by
    have hNat : (code.getD pc 0).toNat = 0x00 := congrArg UInt8.toNat h
    omega
  have hCopy : code.getD pc 0 ≠ 0x39 := fun h => by
    have hNat : (code.getD pc 0).toNat = 0x39 := congrArg UInt8.toNat h
    omega
  have hRange : 0x5f ≤ code.getD pc 0 ∧ code.getD pc 0 ≤ 0x7f := by
    rw [UInt8.le_iff_toNat_le, UInt8.le_iff_toNat_le, hOpcode]
    exact ⟨Nat.le_add_right .., Nat.add_le_add_left hWidth _⟩
  rw [step]
  dsimp only
  rw [if_neg hStop, if_neg hCopy, if_pos hRange, hOpcode, Nat.add_sub_cancel_left, hValue, Machine.push, if_pos hStack]

theorem step_dup1 {value : Nat} (hOpcode : code.getD pc 0 = 0x80) (hStack : stack.length + 1 < stackLimit) :
    step code ⟨pc, value :: stack, memory⟩ = .inl ⟨pc + 1, value :: value :: stack, memory⟩ := by
  have hTop : (value :: stack)[(0x80 : UInt8).toNat - 0x80]? = some value := rfl
  rw [step]
  dsimp only
  rw [hOpcode, if_neg (by decide), if_neg (by decide), if_neg (by decide), if_pos (by decide), hTop]
  dsimp only
  rw [Machine.push, if_pos (by simpa using hStack)]

theorem step_codecopy {destination offset size : Nat} (hOpcode : code.getD pc 0 = 0x39) :
    step code ⟨pc, destination :: offset :: size :: stack, memory⟩ =
      .inl ⟨pc + 1, stack, Memory.write memory destination (slice code offset size)⟩ := by
  rw [step]
  dsimp only
  rw [hOpcode, if_neg (by decide), if_pos rfl]

theorem step_return {offset size : Nat} (hOpcode : code.getD pc 0 = 0xf3) :
    step code ⟨pc, offset :: size :: stack, memory⟩ = .inr (.returned (Memory.read memory offset size)) := by
  rw [step]
  dsimp only
  rw [hOpcode, if_neg (by decide), if_neg (by decide), if_neg (by decide), if_neg (by decide), if_pos rfl]

end Instructions

section Bytes

variable {source data : Bytes} {memory : Memory} {start size : Nat}

@[simp] theorem length_slice (source : Bytes) (offset size : Nat) : (slice source offset size).length = size := by
  simp [slice]

theorem slice_eq_take_drop (h : start + size ≤ source.length) : slice source start size = (source.drop start).take size := by
  apply List.ext_getElem
  · simp
    omega
  · intro i hSlice hTake
    rw [length_slice] at hSlice
    simp [slice, List.getElem?_eq_getElem (show start + i < source.length by omega)]

@[simp] theorem length_read (memory : Memory) (start size : Nat) : (memory.read start size).length = size := by
  simp [Memory.read]

theorem read_append (memory : Memory) (start first second : Nat) :
    memory.read start (first + second) = memory.read start first ++ memory.read (start + first) second := by
  rw [Memory.read, List.range_add, List.map_append, List.map_map, Memory.read, Memory.read]
  simp [Function.comp_def, Nat.add_assoc]

theorem write_outside {i : Nat} (h : i < start ∨ start + data.length ≤ i) : memory.write start data i = memory i := by
  rw [Memory.write, if_neg]
  omega

theorem read_congr {other : Memory} (h : ∀ i, start ≤ i → i < start + size → memory i = other i) :
    memory.read start size = other.read start size := by
  apply List.map_congr_left
  intro i hMem
  rw [List.mem_range] at hMem
  exact h _ (Nat.le_add_right ..) (by omega)

theorem read_write (memory : Memory) (start : Nat) (data : Bytes) :
    (memory.write start data).read start data.length = data := by
  apply List.ext_getElem
  · simp
  · intro i hRead hData
    simp [Memory.read, Memory.write, hData]

end Bytes

section Create

variable {Address : Type} [DecidableEq Address] [Zero Address]

/-- The code at each address, and the nonce of the account that creates contracts. -/
structure World (Address : Type) where
  code : Address → Bytes
  nonce : Nat

def maxCodeSize : Nat := 24576

/-- CREATE by the account of the world: zero if the address is taken, the init code does not return, or its result
is not accepted as code. -/
def create (createAddress : Nat → Address) (initCode : Bytes) (world : World Address) : Address × World Address :=
  let address := createAddress world.nonce
  let next := { world with nonce := world.nonce + 1 }
  if world.code address ≠ [] then (0, next)
  else
    match execute initCode with
    | some (.returned runtime) =>
      if maxCodeSize < runtime.length ∨ runtime.head? = some 0xef then (0, next)
      else (address, { next with code := Function.update world.code address runtime })
    | _ => (0, next)

/-- The next contracts of the account find their addresses free: they are hashes, and none has come up before. -/
structure World.Fresh (world : World Address) (createAddress : Nat → Address) (count : Nat) : Prop where
  nonzero : ∀ k < count, createAddress (world.nonce + k) ≠ 0
  unused : ∀ k < count, world.code (createAddress (world.nonce + k)) = []
  distinct : ∀ j < count, ∀ k < count, createAddress (world.nonce + j) = createAddress (world.nonce + k) → j = k

variable {createAddress : Nat → Address} {world : World Address}

theorem create_returned {initCode runtime : Bytes} (hUnused : world.code (createAddress world.nonce) = [])
    (hReturned : execute initCode = some (.returned runtime)) (hSize : runtime.length ≤ maxCodeSize)
    (hFirst : runtime.head? ≠ some 0xef) : create createAddress initCode world =
      (createAddress world.nonce, ⟨Function.update world.code (createAddress world.nonce) runtime, world.nonce + 1⟩) := by
  rw [create]
  dsimp only
  rw [if_neg (not_not.mpr hUnused), hReturned]
  dsimp only
  rw [if_neg]
  rintro (hLong | hHead)
  · omega
  · exact hFirst hHead

theorem World.Fresh.succ {count : Nat} (h : world.Fresh createAddress (count + 1)) (runtime : Bytes) :
    World.Fresh ⟨Function.update world.code (createAddress world.nonce) runtime, world.nonce + 1⟩ createAddress count where
  nonzero k hk := by
    have hSum : world.nonce + 1 + k = world.nonce + (k + 1) := by omega
    rw [hSum]
    exact h.nonzero (k + 1) (by omega)
  unused k hk := by
    have hSum : world.nonce + 1 + k = world.nonce + (k + 1) := by omega
    have hOther : createAddress (world.nonce + (k + 1)) ≠ createAddress world.nonce := fun hEq =>
      absurd (h.distinct (k + 1) (by omega) 0 (by omega) hEq) (Nat.succ_ne_zero k)
    dsimp only
    rw [hSum, Function.update_of_ne hOther]
    exact h.unused (k + 1) (by omega)
  distinct j hj k hk hEq := by
    have hFirst : world.nonce + 1 + j = world.nonce + (j + 1) := by omega
    have hSecond : world.nonce + 1 + k = world.nonce + (k + 1) := by omega
    rw [hFirst, hSecond] at hEq
    exact Nat.succ.inj (h.distinct (j + 1) (by omega) (k + 1) (by omega) hEq)

end Create

end Resurrect.Evm
