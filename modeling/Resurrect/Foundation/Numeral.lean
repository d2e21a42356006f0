import Mathlib.Data.List.Induction
import Mathlib.Algebra.Order.Ring.Nat
import Mathlib.Data.Nat.Log

/-! # Numerals

Unsigned decimal texts without superfluous zeros, which are exactly the texts that
numbers are printed as, and the double that a decimal literal is read as.
-/

namespace Resurrect.Numeral

/-- A nonempty text of decimal digits that begins with a zero only if it is one digit. -/
def IsCanonical (text : List Char) : Prop :=
  text ≠ [] ∧ (1 < text.length → text.head? ≠ some '0') ∧ text.all Char.isDigit

instance decidableIsCanonical (text : List Char) : Decidable (IsCanonical text) :=
  inferInstanceAs (Decidable (_ ∧ _ ∧ _))

def value (text : List Char) : Nat := Nat.ofDigitChars 10 text 0

@[simp] theorem value_repr (n : Nat) : value n.repr.toList = n := by
  rw [value, Nat.toList_repr, Nat.ofDigitChars_ten_toDigits]

theorem repr_injective : Function.Injective Nat.repr := fun m n h => by
  rw [← value_repr m, h, value_repr]

theorem not_mem_repr {c : Char} (hDigit : c.isDigit = false) (n : Nat) : c ∉ n.repr.toList := by
  rw [Nat.toList_repr]
  intro hMem
  rw [Nat.isDigit_of_mem_toDigits (by decide) (by decide) hMem] at hDigit
  cases hDigit

/-- A text and a numeral behind a separator can be told apart at the last separator. -/
theorem append_separator_inj {text other : List Char} {c : Char} {m n : Nat} (hDigit : c.isDigit = false) :
    text ++ c :: m.repr.toList = other ++ c :: n.repr.toList ↔ text = other ∧ m = n := by
  have hLast : ∀ {middle : List Char} {j k : Nat}, c :: j.repr.toList = middle ++ c :: k.repr.toList → middle = [] := by
    intro middle j k h
    cases middle with
    | nil => rfl
    | cons first rest =>
      obtain ⟨-, hRest⟩ := List.cons.inj h
      exact absurd (hRest ▸ List.mem_append_right rest List.mem_cons_self) (not_mem_repr hDigit j)
  constructor
  · intro h
    obtain ⟨middle, rfl, hMiddle⟩ | ⟨middle, rfl, hMiddle⟩ := List.append_eq_append_iff.mp h
    · obtain rfl := hLast hMiddle
      exact ⟨by simp, repr_injective (String.toList_injective (List.cons.inj hMiddle).2)⟩
    · obtain rfl := hLast hMiddle
      exact ⟨by simp, (repr_injective (String.toList_injective (List.cons.inj hMiddle).2)).symm⟩
  · rintro ⟨rfl, rfl⟩
    rfl

theorem value_concat (text : List Char) (c : Char) : value (text ++ [c]) = 10 * value text + (c.toNat - 48) := by
  rw [value, Nat.ofDigitChars_append, Nat.ofDigitChars_cons, Nat.ofDigitChars_nil, value]
  rfl

theorem digitChar_of_isDigit {c : Char} (h : c.isDigit) : c.toNat - 48 < 10 ∧ Nat.digitChar (c.toNat - 48) = c := by
  rw [Char.isDigit_iff_toNat] at h
  change 48 ≤ c.toNat ∧ c.toNat ≤ 57 at h
  have hAll : ∀ d < 10, Nat.digitChar d = Char.ofNat (48 + d) := by decide
  have hSum : 48 + (c.toNat - 48) = c.toNat := by omega
  refine ⟨by omega, ?_⟩
  rw [hAll _ (by omega), hSum, Char.ofNat_toNat]

theorem value_pos {text : List Char} (hDigits : text.all Char.isDigit) (hHead : text.head? ≠ some '0')
    (hNonempty : text ≠ []) : 0 < value text := by
  induction text using List.reverseRecOn with
  | nil => exact absurd rfl hNonempty
  | append_singleton text c ih =>
    rw [List.all_append, Bool.and_eq_true] at hDigits
    rw [value_concat]
    cases text with
    | nil =>
      obtain ⟨-, hc⟩ := digitChar_of_isDigit (by simpa using hDigits.2)
      have hNonzero : c.toNat - 48 ≠ 0 := by
        intro h
        rw [h] at hc
        exact hHead (by rw [← hc]; rfl)
      omega
    | cons first rest =>
      have hPos := ih hDigits.1 hHead (List.cons_ne_nil _ _)
      omega

/-- A canonical text is what its number is printed as. -/
theorem toDigits_value {text : List Char} (h : IsCanonical text) : Nat.toDigits 10 (value text) = text := by
  obtain ⟨hNonempty, hHead, hDigits⟩ := h
  induction text using List.reverseRecOn with
  | nil => exact absurd rfl hNonempty
  | append_singleton text c ih =>
    rw [List.all_append, Bool.and_eq_true] at hDigits
    obtain ⟨hLt, hc⟩ := digitChar_of_isDigit (c := c) (by simpa using hDigits.2)
    rw [value_concat]
    cases text with
    | nil =>
      have hZero : 10 * value [] + (c.toNat - 48) = c.toNat - 48 := by simp [value]
      rw [hZero, Nat.toDigits_of_lt_base hLt, hc, List.nil_append]
    | cons first rest =>
      have hFirst : (first :: rest).head? ≠ some '0' := hHead (by simp)
      have hPos := value_pos hDigits.1 hFirst (List.cons_ne_nil _ _)
      rw [← Nat.toDigits_append_toDigits (by decide) hPos hLt,
        ih (List.cons_ne_nil _ _) (fun _ => hFirst) hDigits.1, Nat.toDigits_of_lt_base hLt, hc]

theorem head?_toDigits {n : Nat} (h : n ≠ 0) : (Nat.toDigits 10 n).head? ≠ some '0' := by
  induction n using Nat.strongRecOn with
  | ind n ih =>
    by_cases hLt : n < 10
    · have hAll : ∀ d < 10, d ≠ 0 → [Nat.digitChar d].head? ≠ some '0' := by decide
      rw [Nat.toDigits_of_lt_base hLt]
      exact hAll n hLt h
    · have hHead := ih (n / 10) (by omega) (by omega)
      obtain ⟨first, rest, hDigits⟩ := List.exists_cons_of_ne_nil (Nat.toDigits_ne_nil (n := n / 10) (b := 10))
      rw [Nat.toDigits_of_base_le (by decide) (by omega), hDigits]
      rwa [hDigits] at hHead

theorem isCanonical_toDigits (n : Nat) : IsCanonical (Nat.toDigits 10 n) := by
  refine ⟨Nat.toDigits_ne_nil, fun hLength => head?_toDigits ?_, ?_⟩
  · rintro rfl
    simp at hLength
  · rw [List.all_eq_true]
    exact fun c hc => Nat.isDigit_of_mem_toDigits (by decide) (by decide) hc

theorem isCanonical_iff {text : String} : IsCanonical text.toList ↔ ∃ n : Nat, text = n.repr := by
  constructor
  · intro h
    refine ⟨value text.toList, String.toList_inj.mp ?_⟩
    rw [Nat.toList_repr, toDigits_value h]
  · rintro ⟨n, rfl⟩
    rw [Nat.toList_repr]
    exact isCanonical_toDigits n

section Doubles

def maxSafeInteger : Nat := 2 ^ 53 - 1

/-- The least power of two that is too large for a double. -/
def doubleLimit : Nat := 2 ^ 1024

theorem maxSafeInteger_lt_doubleLimit : maxSafeInteger < doubleLimit := by
  have hPow : ∀ k, 53 ≤ k → maxSafeInteger < 2 ^ k := fun k hk =>
    lt_of_lt_of_le (by decide) (Nat.pow_le_pow_right (by decide) hk)
  rw [doubleLimit]
  exact hPow 1024 (by decide)

attribute [irreducible] doubleLimit

/-- A number rounded to its first 53 binary digits, ties to even. -/
def nearest (n : Nat) : Nat :=
  let unit := 2 ^ (Nat.log 2 n - 52)
  if unit < 2 * (n % unit) ∨ 2 * (n % unit) = unit ∧ n / unit % 2 = 1 then (n / unit + 1) * unit
  else n / unit * unit

/-- The double that a literal is read as, which is `none` for infinity. -/
def double (n : Nat) : Option Nat := if nearest n < doubleLimit then some (nearest n) else none

theorem nearest_of_le {n : Nat} (h : n ≤ maxSafeInteger) : nearest n = n := by
  have hMax : maxSafeInteger = 9007199254740991 := rfl
  have hLog : Nat.log 2 n - 52 = 0 := by
    have hLt : Nat.log 2 n < 53 := Nat.log_lt_of_lt_pow' (by decide) (by omega)
    omega
  rw [nearest, hLog, Nat.pow_zero, Nat.mod_one, Nat.div_one, if_neg (by omega), Nat.mul_one]

/-- Rounding never brings a number into the safe range. -/
theorem lt_nearest {n : Nat} (h : maxSafeInteger < n) : maxSafeInteger < nearest n := by
  have hMax : maxSafeInteger = 9007199254740991 := rfl
  have hLog : 53 ≤ Nat.log 2 n := Nat.le_log_of_pow_le (by decide) (by omega)
  have hPow : 2 ^ 52 * 2 ^ (Nat.log 2 n - 52) ≤ n := by
    rw [← Nat.pow_add, Nat.add_sub_cancel' (by omega)]
    exact Nat.pow_log_le_self 2 (by omega)
  have hUnit : 2 ^ 1 ≤ 2 ^ (Nat.log 2 n - 52) := Nat.pow_le_pow_right (by decide) (by omega)
  rw [nearest]
  generalize 2 ^ (Nat.log 2 n - 52) = unit at hPow hUnit ⊢
  have hQuotient : 2 ^ 52 ≤ n / unit := (Nat.le_div_iff_mul_le (by omega)).mpr hPow
  have hDown : 2 ^ 52 * 2 ≤ n / unit * unit := Nat.mul_le_mul hQuotient hUnit
  have hUp : n / unit * unit ≤ (n / unit + 1) * unit := Nat.mul_le_mul_right _ (Nat.le_succ _)
  split <;> omega

/-- A literal is read as a safe number exactly if it is one. -/
theorem double_eq_some {n d : Nat} (hd : d ≤ maxSafeInteger) : double n = some d ↔ n = d := by
  rw [double]
  constructor
  · intro h
    split at h
    · have hNearest := Option.some.inj h
      by_cases hn : n ≤ maxSafeInteger
      · rwa [nearest_of_le hn] at hNearest
      · have hLarge := lt_nearest (not_le.mp hn)
        omega
    · cases h
  · rintro rfl
    rw [nearest_of_le hd, if_pos (lt_of_le_of_lt hd maxSafeInteger_lt_doubleLimit)]

end Doubles

end Resurrect.Numeral
