import Resurrect.Foundation.Evm
import Resurrect.Foundation.Hex

/-! # Words and byte strings in call and event data

The encoding of an unsigned integer followed by a byte string: two head words, the
value and the offset of the tail, and a tail of the length and the bytes, filled up
with zeros to a whole number of words. Reading takes the encodings and nothing else.
-/

namespace Resurrect.Abi

def wordBytes : Nat := 32

/-- The numbers below it fit in a word. -/
def wordLimit : Nat := 2 ^ 256

def word (n : Nat) : Bytes := Hex.beBytes wordBytes n

/-- The zeros behind a byte string of `size` bytes. -/
def padding (size : Nat) : Nat := (size + 31) / 32 * 32 - size

/-- A byte string has an encoding as long as its length fits in a word. -/
def encodeUintBytes (value : Nat) (payload : Bytes) : Option Bytes :=
  if payload.length < wordLimit then
    some (word value ++ word 64 ++ word payload.length ++ payload ++ List.replicate (padding payload.length) 0)
  else none

theorem spell_word (n : Nat) : Hex.spell (word n) = Hex.ofNat 64 n := Hex.spell_beBytes 32 n

theorem encodeUintBytes_eq_some {value : Nat} {payload raw : Bytes} :
    encodeUintBytes value payload = some raw ↔ payload.length < wordLimit ∧
      raw = word value ++ word 64 ++ word payload.length ++ payload ++ List.replicate (padding payload.length) 0 := by
  rw [encodeUintBytes]
  split
  · rename_i hFits
    rw [Option.some_inj, eq_comm, and_iff_right hFits]
  · rename_i hLong
    constructor
    · intro h
      cases h
    · intro h
      exact absurd h.1 hLong

theorem length_encodeUintBytes {value : Nat} {payload raw : Bytes} (h : encodeUintBytes value payload = some raw) :
    raw.length = 96 + (payload.length + 31) / 32 * 32 := by
  have hFull : payload.length ≤ (payload.length + 31) / 32 * 32 := by omega
  rw [(encodeUintBytes_eq_some.mp h).2]
  simp only [List.length_append, word, Hex.length_beBytes, List.length_replicate, padding, wordBytes]
  omega

section Reading

theorem beNat_beBytes {width n : Nat} (h : n < 256 ^ width) : Evm.beNat (Hex.beBytes width n) = n := by
  induction width generalizing n with
  | zero => exact (Nat.lt_one_iff.mp h).symm
  | succ width ih =>
    have hByte : (UInt8.ofNat (n % 256)).toNat = n % 256 := UInt8.toNat_ofNat_of_lt' (Nat.mod_lt n (by decide))
    have hHigh : Evm.beNat (Hex.beBytes width (n / 256)) = n / 256 := ih (Nat.div_lt_of_lt_mul (by rwa [mul_comm, ← pow_succ]))
    rw [Hex.beBytes, Evm.beNat, List.foldl_concat]
    change Evm.beNat (Hex.beBytes width (n / 256)) * 256 + _ = n
    rw [hHigh, hByte]
    exact Nat.div_add_mod' n 256

theorem beNat_word {n : Nat} (h : n < wordLimit) : Evm.beNat (word n) = n := beNat_beBytes h

@[simp] theorem length_word (n : Nat) : (word n).length = wordBytes := Hex.length_beBytes ..

/-- A number and a byte string are read from data that is their encoding. -/
def readUintBytes (data : Bytes) : Option (Nat × Bytes) :=
  let value := Evm.beNat (data.take wordBytes)
  let size := Evm.beNat ((data.drop 64).take wordBytes)
  let payload := (data.drop 96).take size
  if encodeUintBytes value payload = some data then some (value, payload) else none

theorem readUintBytes_eq_some {data payload : Bytes} {value : Nat} (hValue : value < wordLimit) :
    readUintBytes data = some (value, payload) ↔ encodeUintBytes value payload = some data := by
  constructor
  · intro h
    rw [readUintBytes] at h
    split at h
    · rename_i hEncoded
      obtain ⟨rfl, rfl⟩ := Prod.mk.inj (Option.some.inj h)
      exact hEncoded
    · cases h
  · intro h
    obtain ⟨hSize, hData⟩ := encodeUintBytes_eq_some.mp h
    have hHead : data.take wordBytes = word value := by
      rw [hData, List.append_assoc, List.append_assoc, List.append_assoc]
      exact List.take_left' (length_word value)
    have hLength : (data.drop 64).take wordBytes = word payload.length := by
      rw [hData, List.append_assoc, List.append_assoc, List.drop_left' (by simp [wordBytes])]
      exact List.take_left' (length_word _)
    have hTail : (data.drop 96).take payload.length = payload := by
      rw [hData, List.append_assoc, List.drop_left' (by simp [wordBytes])]
      exact List.take_left' rfl
    rw [readUintBytes, hHead, hLength, beNat_word hValue, beNat_word hSize, hTail, if_pos h]

end Reading

end Resurrect.Abi
