import Mathlib.Tactic.Common
import Mathlib.Algebra.Order.Ring.Nat
import Mathlib.Tactic.Ring

/-! # Unsigned LEB128 varints

`encode` writes seven bits a byte, least significant first, the high bit marking
that more follow. Of the spellings of a value, which may end in idle zero digits,
it writes the shortest. `read` takes at most ten bytes and refuses a value of more
than 64 bits; it does accept a longer spelling than the one `encode` writes.
-/

namespace Resurrect

abbrev Bytes := List UInt8

namespace Varint

def encode (value : Nat) : Bytes :=
  if value < 128 then [UInt8.ofNat value]
  else UInt8.ofNat (value % 128 + 128) :: encode (value / 128)
termination_by value
decreasing_by omega

theorem encode_small {value : Nat} (h : value < 128) : encode value = [UInt8.ofNat value] := by
  rw [encode, if_pos h]

theorem encode_large {value : Nat} (h : ¬ value < 128) :
    encode value = UInt8.ofNat (value % 128 + 128) :: encode (value / 128) := by
  rw [encode, if_neg h]

theorem encode_ne_nil (value : Nat) : encode value ≠ [] := by
  rw [encode]
  split <;> simp

theorem toNat_last {value : Nat} (h : value < 128) : (UInt8.ofNat value).toNat = value := by
  rw [UInt8.toNat_ofNat']
  omega

theorem toNat_more (value : Nat) : (UInt8.ofNat (value % 128 + 128)).toNat = value % 128 + 128 := by
  rw [UInt8.toNat_ofNat']
  omega

/-- Two varints that start the same bytes are the same varint, so the rest agrees too. -/
theorem encode_append_inj {a b : Nat} {x y : Bytes} (h : encode a ++ x = encode b ++ y) :
    a = b ∧ x = y := by
  induction a using Nat.strongRecOn generalizing b with
  | ind a ih =>
    by_cases ha : a < 128 <;> by_cases hb : b < 128
    · rw [encode_small ha, encode_small hb] at h
      obtain ⟨hHead, hTail⟩ := List.cons.inj h
      refine ⟨?_, hTail⟩
      rw [← toNat_last ha, ← toNat_last hb, hHead]
    · rw [encode_small ha, encode_large hb] at h
      have hHead := congrArg UInt8.toNat (List.cons.inj h).1
      rw [toNat_last ha, toNat_more] at hHead
      omega
    · rw [encode_large ha, encode_small hb] at h
      have hHead := congrArg UInt8.toNat (List.cons.inj h).1
      rw [toNat_more, toNat_last hb] at hHead
      omega
    · rw [encode_large ha, encode_large hb] at h
      have hHead := congrArg UInt8.toNat (List.cons.inj h).1
      rw [toNat_more, toNat_more] at hHead
      obtain ⟨hDiv, hTail⟩ := ih (a / 128) (by omega) (List.cons.inj h).2
      exact ⟨by omega, hTail⟩

theorem encode_prefix_inj {a b : Nat} (h : encode a <+: encode b) : a = b := by
  obtain ⟨rest, hRest⟩ := h
  rw [← List.append_nil (encode b)] at hRest
  exact (encode_append_inj hRest).1

section Spelling

/-- `bytes` spells `value`: seven bits a byte, and a byte with the high bit clear ends it. -/
inductive Spells : Bytes → Nat → Prop
  | last {byte : UInt8} (h : byte.toNat < 128) : Spells [byte] byte.toNat
  | more {byte : UInt8} {rest : Bytes} {value : Nat} (h : 128 ≤ byte.toNat) (hRest : Spells rest value) :
      Spells (byte :: rest) (byte.toNat - 128 + 128 * value)

/-- The spelling that is shorter than every other one. -/
structure Minimal (bytes : Bytes) (value : Nat) : Prop where
  spells : Spells bytes value
  shorter : ∀ other, Spells other value → other ≠ bytes → bytes.length < other.length

theorem Spells.ne_nil {bytes : Bytes} {value : Nat} (h : Spells bytes value) : bytes ≠ [] := by
  cases h <;> simp

theorem spells_encode (value : Nat) : Spells (encode value) value := by
  induction value using Nat.strongRecOn with
  | ind value ih =>
    by_cases h : value < 128
    · have hLast := @Spells.last (UInt8.ofNat value) (by rwa [toNat_last h])
      rwa [toNat_last h, ← encode_small h] at hLast
    · have hByte : 128 ≤ (UInt8.ofNat (value % 128 + 128)).toNat := by rw [toNat_more]; omega
      have hMore := Spells.more hByte (ih (value / 128) (by omega))
      rwa [toNat_more, Nat.add_sub_cancel, Nat.mod_add_div, ← encode_large h] at hMore

theorem Spells.eq_or_longer {other : Bytes} {value : Nat} (h : Spells other value) :
    other = encode value ∨ (encode value).length < other.length := by
  induction h with
  | @last byte h =>
    left
    rw [encode_small h, UInt8.ofNat_toNat]
  | @more byte rest value h hRest ih =>
    have hByte : byte.toNat < 256 := byte.toNat_lt
    by_cases hSmall : byte.toNat - 128 + 128 * value < 128
    · -- the bytes that follow are idle: one byte spells the value
      right
      have hLength := List.length_pos_iff.mpr hRest.ne_nil
      rw [encode_small hSmall, List.length_singleton, List.length_cons]
      omega
    · have hDiv : (byte.toNat - 128 + 128 * value) / 128 = value := by omega
      have hMod : (byte.toNat - 128 + 128 * value) % 128 + 128 = byte.toNat := by omega
      rw [encode_large hSmall, hDiv, hMod, UInt8.ofNat_toNat]
      obtain hEq | hLonger := ih
      · exact .inl (congrArg _ hEq)
      · right
        simpa using hLonger

theorem minimal_encode (value : Nat) : Minimal (encode value) value where
  spells := spells_encode value
  shorter _ hSpells hNe := hSpells.eq_or_longer.resolve_left hNe

end Spelling

/-- Reads on from byte number `count`, with `value` read so far. -/
def readFrom (count value : Nat) : Bytes → Option (Nat × Bytes)
  | [] => none
  | byte :: rest =>
    if 10 ≤ count then none
    else if byte.toNat < 128 then
      if count = 9 ∧ 2 ≤ byte.toNat then none
      else some (value + byte.toNat * 128 ^ count, rest)
    else readFrom (count + 1) (value + (byte.toNat - 128) * 128 ^ count) rest

def read (buf : Bytes) : Option (Nat × Bytes) := readFrom 0 0 buf

theorem length_readFrom {count value : Nat} {buf rest : Bytes} {result : Nat}
    (h : readFrom count value buf = some (result, rest)) : rest.length < buf.length := by
  induction buf generalizing count value with
  | nil => cases h
  | cons byte buf ih =>
    rw [readFrom] at h
    split at h
    · cases h
    · split at h
      · split at h
        · cases h
        · obtain ⟨-, rfl⟩ := Prod.mk.inj (Option.some.inj h)
          simp
      · have := ih h
        simp only [List.length_cons]
        omega

theorem length_read {buf rest : Bytes} {result : Nat} (h : read buf = some (result, rest)) :
    rest.length < buf.length := length_readFrom h

theorem readFrom_encode (value : Nat) {count held : Nat} (rest : Bytes) (hCount : count ≤ 9)
    (hValue : value * 128 ^ count < 2 ^ 64) :
    readFrom count held (encode value ++ rest) = some (held + value * 128 ^ count, rest) := by
  induction value using Nat.strongRecOn generalizing count held with
  | ind value ih =>
    by_cases h : value < 128
    · have hTenth : ¬ (count = 9 ∧ 2 ≤ value) := by
        rintro ⟨rfl, h2⟩
        omega
      rw [encode_small h, List.singleton_append, readFrom, if_neg (by omega), toNat_last h, if_pos h,
        if_neg hTenth]
    · have hCount' : count + 1 ≤ 9 := by
        by_contra hc
        obtain rfl : count = 9 := by omega
        omega
      have hSplit : value % 128 * 128 ^ count + value / 128 * 128 ^ (count + 1) = value * 128 ^ count := by
        calc
          _ = (value % 128 + 128 * (value / 128)) * 128 ^ count := by ring
          _ = _ := by rw [Nat.mod_add_div]
      rw [encode_large h, List.cons_append, readFrom, if_neg (by omega), toNat_more, if_neg (by omega),
        Nat.add_sub_cancel, ih (value / 128) (by omega) hCount' (by omega), Nat.add_assoc, hSplit]

theorem read_encode {value : Nat} (rest : Bytes) (h : value < 2 ^ 64) :
    read (encode value ++ rest) = some (value, rest) := by
  rw [read, readFrom_encode value rest (by omega) (by simpa using h)]
  simp

end Varint

end Resurrect
