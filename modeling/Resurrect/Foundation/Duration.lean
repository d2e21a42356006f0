import Mathlib.Algebra.Order.Ring.Nat
import Mathlib.Data.Nat.Basic
import Mathlib.Order.Basic

/-! # Spans of time

Whole seconds and nanoseconds below one, with arithmetic that saturates at the
longest span that can be written down. Every operation is one on the count of
nanoseconds, clamped.
-/

namespace Resurrect

instance neZeroNanosPerSec : NeZero 1000000000 := ⟨Nat.succ_ne_zero 999999999⟩

/-- A span of time: whole seconds and nanoseconds below one. -/
structure Duration where
  secs : UInt64
  nanos : Fin 1000000000
  deriving DecidableEq, Repr

namespace Duration

def nanosPerSec : Nat := 1000000000

def asNanos (self : Duration) : Nat := self.secs.toNat * nanosPerSec + self.nanos

def longest : Duration := ⟨18446744073709551615, 999999999⟩

/-- A count of nanoseconds as a span, clamped to the longest. -/
def ofNanos (count : Nat) : Duration :=
  if longest.asNanos < count then longest
  else ⟨.ofNat (count / nanosPerSec), ⟨count % nanosPerSec, Nat.mod_lt _ (by decide)⟩⟩

theorem asNanos_le (self : Duration) : self.asNanos ≤ longest.asNanos := by
  have hLongest : longest.asNanos = 18446744073709551615999999999 := by decide
  have hSecs := self.secs.toNat_lt
  have hNanos := self.nanos.isLt
  rw [hLongest, asNanos, nanosPerSec]
  omega

theorem asNanos_ofNanos (count : Nat) : (ofNanos count).asNanos = min count longest.asNanos := by
  have hLongest : longest.asNanos = 18446744073709551615999999999 := by decide
  rw [ofNanos]
  split
  · rename_i hLong
    exact (min_eq_right hLong.le).symm
  · rename_i hShort
    have hDiv : count / nanosPerSec < 2 ^ 64 := by
      rw [hLongest] at hShort
      rw [nanosPerSec]
      omega
    have hMod := Nat.div_add_mod count nanosPerSec
    rw [min_eq_left (not_lt.mp hShort)]
    change (UInt64.ofNat (count / nanosPerSec)).toNat * nanosPerSec + count % nanosPerSec = count
    rw [UInt64.toNat_ofNat_of_lt' hDiv, Nat.mul_comm, hMod]

def fromNanos (count : UInt64) : Duration := ofNanos count.toNat

/-- A `u64` of milliseconds is never too long. -/
def fromMillis (count : UInt64) : Duration := ofNanos (count.toNat * 1000000)

def saturatingAdd (self other : Duration) : Duration := ofNanos (self.asNanos + other.asNanos)

def saturatingSub (self other : Duration) : Duration := ofNanos (self.asNanos - other.asNanos)

def saturatingMul (self : Duration) (factor : UInt32) : Duration := ofNanos (self.asNanos * factor.toNat)

def half (self : Duration) : Duration := ofNanos (self.asNanos / 2)

def shorter (self other : Duration) : Duration := if other.asNanos < self.asNanos then other else self

end Duration

end Resurrect
