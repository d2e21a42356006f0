import Mathlib.Order.Bounds.Basic
import Mathlib.Order.Nat

/-! # Bisection for the first point of an upward-closed property

`Brackets` is what the two ends of a bisection keep: everything below the lower
one misses the property, everything from the upper one on has it. Each probe
moves one end past the probed point; where the ends meet is the first point.
-/

namespace Resurrect.Bisection

/-- Once reached, a property stays reached up to `last`. -/
def UpwardClosed (reached : ℕ → Prop) (first last : ℕ) : Prop :=
  ∀ a b, first ≤ a → a ≤ b → b ≤ last → reached a → reached b

structure Brackets (reached : ℕ → Prop) (first last low high : ℕ) : Prop where
  first_le : first ≤ low
  le : low ≤ high
  le_last : high ≤ last
  below : ∀ n, first ≤ n → n < low → ¬ reached n
  above : ∀ n, high ≤ n → n ≤ last → reached n

variable {reached : ℕ → Prop} {first last low high middle : ℕ}

theorem Brackets.start (h : first ≤ last) (hLast : reached last) :
    Brackets reached first last first last where
  first_le := le_rfl
  le := h
  le_last := le_rfl
  below n hn hlt := absurd hn (not_le.mpr hlt)
  above n hn hle := by rwa [le_antisymm hle hn]

theorem Brackets.raise (h : Brackets reached first last low high)
    (hUp : UpwardClosed reached first last) (hLow : low ≤ middle) (hHigh : middle < high)
    (hMiss : ¬ reached middle) : Brackets reached first last (middle + 1) high where
  first_le := h.first_le.trans (hLow.trans (Nat.le_succ middle))
  le := hHigh
  le_last := h.le_last
  below n hn hlt hReached :=
    hMiss (hUp n middle hn (Nat.lt_succ_iff.mp hlt) (hHigh.le.trans h.le_last) hReached)
  above := h.above

theorem Brackets.lower (h : Brackets reached first last low high)
    (hUp : UpwardClosed reached first last) (hLow : low ≤ middle) (hHigh : middle < high)
    (hHit : reached middle) : Brackets reached first last low middle where
  first_le := h.first_le
  le := hLow
  le_last := hHigh.le.trans h.le_last
  below := h.below
  above n hn hle := hUp middle n (h.first_le.trans hLow) hn hle hHit

/-- Where the ends meet is the least point with the property. -/
theorem Brackets.isLeast (h : Brackets reached first last low high) (hMeet : high ≤ low) :
    IsLeast {n | first ≤ n ∧ n ≤ last ∧ reached n} low := by
  obtain rfl : low = high := le_antisymm h.le hMeet
  refine ⟨⟨h.first_le, h.le_last, h.above low le_rfl h.le_last⟩, ?_⟩
  rintro n ⟨hFirst, -, hReached⟩
  by_contra hlt
  exact h.below n hFirst (not_le.mp hlt) hReached

end Resurrect.Bisection
