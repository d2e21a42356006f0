import Resurrect.Core.PeerRecord
import Mathlib.Data.List.Lex
import Mathlib.Data.Prod.Lex

/-! # Stored values and their order

The values a row can hold and the order in which the engine compares them. The
cache relies on that order for integers alone; `storageOrder` is the whole of it.
-/

namespace Resurrect.Node

open Resurrect.Core

/-- A stored value that is not NULL. A REAL equal to an integer is stored as that integer. -/
inductive SqlValue where
  | integer (value : Int64)
  | real (bits : UInt64)
  | text (value : String)
  | blob (value : Bytes)
  deriving DecidableEq, Repr

/-- How the engine compares stored values; no two different ones are equal to it. -/
structure SqlOrder (σ : Type) [LinearOrder σ] where
  rank : SqlValue → σ
  rank_injective : Function.Injective rank
  rank_integer : ∀ a b : Int64, rank (.integer a) ≤ rank (.integer b) ↔ a ≤ b

def leastReal : Nat := 1 <<< 1074

theorem one_shiftLeft_pos (count : Nat) : 0 < 1 <<< count := by
  rw [Nat.one_shiftLeft]
  exact Nat.two_pow_pos count

theorem leastReal_pos : 0 < leastReal := one_shiftLeft_pos 1074

/-- A REAL as a multiple of the least positive one. -/
def realMagnitude (bits : UInt64) : Int :=
  let exponent := (bits.toNat >>> 52) % 2048
  let mantissa := bits.toNat % 4503599627370496
  let scaled := if exponent = 0 then mantissa else (4503599627370496 + mantissa) <<< (exponent - 1)
  if bits.toNat < 9223372036854775808 then scaled else -scaled

/-- Numbers by value come before texts, and texts before blobs, both by their bytes. -/
def SqlValue.storageRank (value : SqlValue) : ℕ ×ₗ ℤ ×ₗ List ℕ :=
  match value with
  | .integer value => toLex (0, toLex (value.toInt * leastReal, []))
  | .real bits => toLex (0, toLex (realMagnitude bits, [bits.toNat]))
  | .text value => toLex (1, toLex (0, value.toList.map Char.toNat))
  | .blob value => toLex (2, toLex (0, value.map UInt8.toNat))

theorem storageRank_injective : Function.Injective SqlValue.storageRank := by
  intro a b h
  cases a with
  | integer a =>
    cases b with
    | integer b =>
      simp only [SqlValue.storageRank, toLex_inj, Prod.mk.injEq, and_true, true_and] at h
      have hPos : (leastReal : Int) ≠ 0 := Int.natCast_ne_zero.mpr leastReal_pos.ne'
      rw [Int64.toInt_inj.mp (Int.eq_of_mul_eq_mul_right hPos h)]
    | real => simp [SqlValue.storageRank] at h
    | text => simp [SqlValue.storageRank] at h
    | blob => simp [SqlValue.storageRank] at h
  | real a =>
    cases b with
    | real b =>
      simp only [SqlValue.storageRank, toLex_inj, Prod.mk.injEq, List.cons.injEq, true_and, and_true] at h
      rw [UInt64.toNat_inj.mp h.2]
    | integer => simp [SqlValue.storageRank] at h
    | text => simp [SqlValue.storageRank] at h
    | blob => simp [SqlValue.storageRank] at h
  | text a =>
    cases b with
    | text b =>
      simp only [SqlValue.storageRank, toLex_inj, Prod.mk.injEq, true_and] at h
      rw [String.toList_inj.mp (List.map_injective_iff.mpr (fun c d hcd => Char.toNat_inj.mp hcd) h)]
    | integer => simp [SqlValue.storageRank] at h
    | real => simp [SqlValue.storageRank] at h
    | blob => simp [SqlValue.storageRank] at h
  | blob a =>
    cases b with
    | blob b =>
      simp only [SqlValue.storageRank, toLex_inj, Prod.mk.injEq, true_and] at h
      rw [List.map_injective_iff.mpr (fun c d hcd => UInt8.toNat_inj.mp hcd) h]
    | integer => simp [SqlValue.storageRank] at h
    | real => simp [SqlValue.storageRank] at h
    | text => simp [SqlValue.storageRank] at h

theorem storageRank_integer (a b : Int64) :
    (SqlValue.integer a).storageRank ≤ (SqlValue.integer b).storageRank ↔ a ≤ b := by
  have hPos : (0 : Int) < leastReal := Int.natCast_pos.mpr leastReal_pos
  rw [Int64.le_iff_toInt_le, ← Int.mul_le_mul_iff_of_pos_right hPos]
  simp only [SqlValue.storageRank, Prod.Lex.le_iff, ofLex_toLex, lt_irrefl, false_or, true_and, le_refl, and_true]
  exact le_iff_lt_or_eq.symm

def storageOrder : SqlOrder (ℕ ×ₗ ℤ ×ₗ List ℕ) where
  rank := SqlValue.storageRank
  rank_injective := storageRank_injective
  rank_integer := storageRank_integer

example : storageOrder.rank (.integer 1) < storageOrder.rank (.real 0x3FF8000000000000) ∧
    storageOrder.rank (.real 0x3FF8000000000000) < storageOrder.rank (.integer 2) := by
  decide

end Resurrect.Node
