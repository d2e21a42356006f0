import Mathlib.Algebra.Group.Nat.Defs
import Mathlib.Order.Lattice
import Mathlib.Order.Nat

/-! # Saturating arithmetic on 64-bit words -/

namespace Resurrect.Word64

def saturatingSub (a b : UInt64) : UInt64 := if a < b then 0 else a - b

def saturatingAdd (a b : UInt64) : UInt64 :=
  if 2 ^ 64 ≤ a.toNat + b.toNat then UInt64.ofNat (2 ^ 64 - 1) else a + b

@[simp] theorem toNat_saturatingSub (a b : UInt64) :
    (saturatingSub a b).toNat = a.toNat - b.toNat := by
  rw [saturatingSub]
  split
  · rename_i h
    rw [UInt64.lt_iff_toNat_lt] at h
    exact (Nat.sub_eq_zero_of_le h.le).symm
  · rename_i h
    exact UInt64.toNat_sub_of_le _ _ (UInt64.not_lt.mp h)

@[simp] theorem toNat_saturatingAdd (a b : UInt64) :
    (saturatingAdd a b).toNat = min (a.toNat + b.toNat) (2 ^ 64 - 1) := by
  rw [saturatingAdd]
  split
  · rename_i h
    rw [min_eq_right (by omega)]
    rfl
  · rename_i h
    rw [UInt64.toNat_add, Nat.mod_eq_of_lt (not_le.mp h), min_eq_left (by omega)]

@[simp] theorem toNat_min (a b : UInt64) : (min a b).toNat = min a.toNat b.toNat := by
  change (if a ≤ b then a else b).toNat = _
  split
  · rename_i h
    exact (min_eq_left (UInt64.le_iff_toNat_le.mp h)).symm
  · rename_i h
    exact (min_eq_right (UInt64.le_iff_toNat_le.mp (UInt64.le_of_lt (UInt64.not_le.mp h)))).symm

@[simp] theorem toNat_max (a b : UInt64) : (max a b).toNat = max a.toNat b.toNat := by
  change (if a ≤ b then b else a).toNat = _
  split
  · rename_i h
    exact (max_eq_right (UInt64.le_iff_toNat_le.mp h)).symm
  · rename_i h
    exact (max_eq_left (UInt64.le_iff_toNat_le.mp (UInt64.le_of_lt (UInt64.not_le.mp h)))).symm

theorem toNat_add_one_of_lt {a b : UInt64} (h : a.toNat < b.toNat) :
    (a + 1).toNat = a.toNat + 1 := by
  have hMax := b.toNat_lt
  rw [UInt64.toNat_add, UInt64.toNat_one, Nat.mod_eq_of_lt (by omega)]

/-- The midpoint of a bisection does not wrap and stays below the upper end. -/
theorem toNat_midpoint {low high : UInt64} (h : low < high) :
    (low + (high - low) / 2).toNat = low.toNat + (high.toNat - low.toNat) / 2 := by
  rw [UInt64.lt_iff_toNat_lt] at h
  have hMax := high.toNat_lt
  have hTwo : (2 : UInt64).toNat = 2 := rfl
  rw [UInt64.toNat_add, UInt64.toNat_div, UInt64.toNat_sub_of_le _ _ (UInt64.le_iff_toNat_le.mpr h.le),
    hTwo, Nat.mod_eq_of_lt (by omega)]

theorem midpoint_lt {low high : UInt64} (h : low < high) :
    (low + (high - low) / 2).toNat < high.toNat := by
  rw [toNat_midpoint h]
  rw [UInt64.lt_iff_toNat_lt] at h
  omega

end Resurrect.Word64
