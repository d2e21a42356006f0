import Resurrect.Foundation.Varint
import Mathlib.Algebra.Order.Monoid.Unbundled.Pow
import Mathlib.Data.List.Induction

/-! # Hexadecimal text

Digits of either letter case, the number a text of digits spells, and the text of
a number or of bytes in lower case and fixed width. Up to letter case a text of a
given width is the one spelling of its number.
-/

namespace Resurrect.Hex

/-- The value of a digit of either letter case. -/
def value? (c : Char) : Option Nat :=
  if 48 ≤ c.toNat ∧ c.toNat ≤ 57 then some (c.toNat - 48)
  else if 97 ≤ c.toNat ∧ c.toNat ≤ 102 then some (c.toNat - 87)
  else if 65 ≤ c.toNat ∧ c.toNat ≤ 70 then some (c.toNat - 55)
  else none

def digit (d : Nat) : Char := Char.ofNat (if d < 10 then 48 + d else 87 + d)

def isDigit (c : Char) : Bool := (value? c).isSome

def number (digits : List Char) : Nat := digits.foldl (fun n c => n * 16 + (value? c).getD 0) 0

/-- The last `width` digits of a number. -/
def ofNat : (width n : Nat) → List Char
  | 0, _ => []
  | width + 1, n => ofNat width (n / 16) ++ [digit (n % 16)]

def spell (bytes : Bytes) : List Char := bytes.flatMap fun byte => ofNat 2 byte.toNat

/-- The bytes spelled by pairs of digits. -/
def bytes? : List Char → Option Bytes
  | [] => some []
  | [_] => none
  | high :: low :: rest => do
      let high ← value? high
      let low ← value? low
      let bytes ← bytes? rest
      pure (UInt8.ofNat (high * 16 + low) :: bytes)

/-- The last `width` bytes of a number, the most significant first. -/
def beBytes : (width n : Nat) → Bytes
  | 0, _ => []
  | width + 1, n => beBytes width (n / 256) ++ [UInt8.ofNat (n % 256)]

/-- The `0x`-prefixed text of digits. -/
def hexText (digits : List Char) : String := "0x" ++ String.ofList digits

@[simp] theorem toList_hexText (digits : List Char) : (hexText digits).toList = '0' :: 'x' :: digits := by
  simp [hexText]

theorem drop_hexText (digits : List Char) : (hexText digits).toList.drop 2 = digits := by
  rw [toList_hexText, List.drop_succ_cons, List.drop_succ_cons, List.drop_zero]

theorem hexText_injective {digits other : List Char} (h : hexText digits = hexText other) : digits = other := by
  rw [← drop_hexText digits, h, drop_hexText]

section Digits

theorem forall_ascii {P : Char → Prop} (h : ∀ n < 128, P (Char.ofNat n)) {c : Char} (hc : c.toNat < 128) : P c := by
  rw [← Char.ofNat_toNat c]
  exact h _ hc

theorem toNat_lt_of_value? {c : Char} {d : Nat} (h : value? c = some d) : c.toNat < 128 := by
  rw [value?] at h
  split at h
  · omega
  split at h
  · omega
  split at h
  · omega
  · cases h

theorem toLower_eq_self {c : Char} (h : ¬ c.toNat < 128) : c.toLower = c := by
  refine dif_neg ?_
  rintro ⟨-, hUpper⟩
  have hNat : c.toNat ≤ 90 := hUpper
  omega

theorem ascii_table : ∀ n < 128, value? (Char.ofNat n).toLower = value? (Char.ofNat n) ∧
    (∀ d ∈ value? (Char.ofNat n), d < 16 ∧ (Char.ofNat n).toLower = digit d) ∧
    ((Char.ofNat n).toLower = '0' ↔ Char.ofNat n = '0') := by
  decide

theorem digit_table : ∀ d < 16, value? (digit d) = some d ∧ value? (Nat.digitChar d) = some d ∧
    (Nat.digitChar d).toLower = Nat.digitChar d := by
  decide

theorem value?_toLower (c : Char) : value? c.toLower = value? c := by
  by_cases h : c.toNat < 128
  · exact forall_ascii (P := fun c => value? c.toLower = value? c) (fun n hn => (ascii_table n hn).1) h
  · rw [toLower_eq_self h]

theorem toLower_eq_digit {c : Char} {d : Nat} (h : value? c = some d) : d < 16 ∧ c.toLower = digit d := by
  have hAscii := forall_ascii (P := fun c => ∀ d ∈ value? c, d < 16 ∧ c.toLower = digit d)
    (fun n hn => (ascii_table n hn).2.1) (toNat_lt_of_value? h)
  exact hAscii d h

theorem value?_digit {d : Nat} (h : d < 16) : value? (digit d) = some d := (digit_table d h).1

theorem toLower_digit {d : Nat} (h : d < 16) : (digit d).toLower = digit d :=
  (toLower_eq_digit (value?_digit h)).2

theorem toLower_eq_zero {c : Char} : c.toLower = '0' ↔ c = '0' := by
  by_cases h : c.toNat < 128
  · exact forall_ascii (P := fun c => c.toLower = '0' ↔ c = '0') (fun n hn => (ascii_table n hn).2.2) h
  · rw [toLower_eq_self h]

theorem isDigit_toLower (c : Char) : isDigit c.toLower = isDigit c := by
  rw [isDigit, value?_toLower, isDigit]

end Digits

section Numbers

@[simp] theorem number_nil : number [] = 0 := rfl

theorem number_concat (digits : List Char) (c : Char) :
    number (digits ++ [c]) = number digits * 16 + (value? c).getD 0 := by
  rw [number, List.foldl_append, List.foldl_cons, List.foldl_nil, number]

theorem number_map_toLower (digits : List Char) : number (digits.map Char.toLower) = number digits := by
  induction digits using List.reverseRecOn with
  | nil => rfl
  | append_singleton digits c ih =>
    rw [List.map_append, List.map_singleton, number_concat, number_concat, ih, value?_toLower]

@[simp] theorem length_ofNat (width n : Nat) : (ofNat width n).length = width := by
  induction width generalizing n with
  | zero => rfl
  | succ width ih => rw [ofNat, List.length_append, ih, List.length_singleton]

theorem number_ofNat (width n : Nat) : number (ofNat width n) = n % 16 ^ width := by
  induction width generalizing n with
  | zero => rw [Nat.pow_zero, Nat.mod_one]; rfl
  | succ width ih =>
    rw [ofNat, number_concat, ih, value?_digit (Nat.mod_lt n (by decide)), Option.getD_some, Nat.pow_succ,
      Nat.mul_comm (16 ^ width) 16, Nat.mod_mul]
    ring

theorem number_ofNat_of_lt {width n : Nat} (h : n < 16 ^ width) : number (ofNat width n) = n := by
  rw [number_ofNat, Nat.mod_eq_of_lt h]

theorem all_isDigit_ofNat (width n : Nat) : (ofNat width n).all isDigit := by
  induction width generalizing n with
  | zero => rfl
  | succ width ih =>
    rw [ofNat, List.all_append, ih, List.all_cons, List.all_nil, isDigit, value?_digit (Nat.mod_lt n (by decide))]
    rfl

theorem map_toLower_ofNat (width n : Nat) : (ofNat width n).map Char.toLower = ofNat width n := by
  induction width generalizing n with
  | zero => rfl
  | succ width ih =>
    rw [ofNat, List.map_append, ih, List.map_singleton, toLower_digit (Nat.mod_lt n (by decide))]

/-- Up to letter case, digits are the spelling of their number in their own width. -/
theorem map_toLower_eq_ofNat {digits : List Char} (h : digits.all isDigit) :
    digits.map Char.toLower = ofNat digits.length (number digits) := by
  induction digits using List.reverseRecOn with
  | nil => rfl
  | append_singleton digits c ih =>
    rw [List.all_append, Bool.and_eq_true] at h
    obtain ⟨hDigits, hLast⟩ := h
    rw [List.all_cons, List.all_nil, Bool.and_true] at hLast
    obtain ⟨d, hd⟩ := Option.isSome_iff_exists.mp hLast
    obtain ⟨hLt, hLower⟩ := toLower_eq_digit hd
    have hHigh : (number digits * 16 + d) / 16 = number digits := by omega
    have hLow : (number digits * 16 + d) % 16 = d := by omega
    rw [List.map_append, ih hDigits, List.map_singleton, hLower, List.length_append, List.length_singleton, ofNat,
      number_concat, hd, Option.getD_some, hHigh, hLow]

theorem number_lt {digits : List Char} (h : digits.all isDigit) : number digits < 16 ^ digits.length := by
  have hNumber := number_ofNat digits.length (number digits)
  rw [← map_toLower_eq_ofNat h, number_map_toLower] at hNumber
  rw [hNumber]
  exact Nat.mod_lt _ (Nat.pow_pos (by decide))

theorem value?_digitChar {d : Nat} (h : d < 16) : value? (Nat.digitChar d) = some d := (digit_table d h).2.1

/-- The shortest text of a number spells it. -/
theorem number_toDigits (n : Nat) : number (Nat.toDigits 16 n) = n := by
  induction n using Nat.strongRecOn with
  | ind n ih =>
    by_cases hLt : n < 16
    · rw [Nat.toDigits_of_lt_base hLt, ← List.nil_append [Nat.digitChar n], number_concat, value?_digitChar hLt,
        Option.getD_some, number_nil, Nat.zero_mul, Nat.zero_add]
    · rw [Nat.toDigits_of_base_le (by decide) (not_lt.mp hLt), number_concat, ih (n / 16) (by omega),
        value?_digitChar (Nat.mod_lt n (by decide)), Option.getD_some, Nat.div_add_mod']

theorem all_isDigit_toDigits (n : Nat) : (Nat.toDigits 16 n).all isDigit := by
  induction n using Nat.strongRecOn with
  | ind n ih =>
    by_cases hLt : n < 16
    · rw [Nat.toDigits_of_lt_base hLt, List.all_cons, isDigit, value?_digitChar hLt]
      rfl
    · rw [Nat.toDigits_of_base_le (by decide) (not_lt.mp hLt), List.all_append, ih (n / 16) (by omega), List.all_cons,
        isDigit, value?_digitChar (Nat.mod_lt n (by decide))]
      rfl

theorem toDigits_injective : Function.Injective (Nat.toDigits 16) := fun m n h => by
  rw [← number_toDigits m, h, number_toDigits]

theorem not_mem_toDigits {c : Char} (hDigit : isDigit c = false) (n : Nat) : c ∉ Nat.toDigits 16 n := by
  intro hMem
  rw [List.all_eq_true.mp (all_isDigit_toDigits n) c hMem] at hDigit
  cases hDigit

theorem toLower_of_mem_toDigits {b : Nat} (hOne : 1 < b) (hBase : b ≤ 16) (n : Nat) :
    ∀ c ∈ Nat.toDigits b n, c.toLower = c := by
  induction n using Nat.strongRecOn with
  | ind n ih =>
    intro c hMem
    by_cases hLt : n < b
    · rw [Nat.toDigits_of_lt_base hLt, List.mem_singleton] at hMem
      rw [hMem]
      exact (digit_table n (by omega)).2.2
    · rw [Nat.toDigits_of_base_le hOne (not_lt.mp hLt), List.mem_append, List.mem_singleton] at hMem
      obtain hHigh | rfl := hMem
      · exact ih (n / b) (Nat.div_lt_self (by omega) hOne) c hHigh
      · exact (digit_table _ ((Nat.mod_lt n (by omega)).trans_le hBase)).2.2

/-- The text of a number begins with the text of another just where its last digits are more than that. -/
theorem toDigits_prefix_iff {m : Nat} (hPos : 0 < m) (n : Nat) :
    Nat.toDigits 16 m <+: Nat.toDigits 16 n ↔ ∃ k, n / 16 ^ k = m := by
  induction n using Nat.strongRecOn with
  | ind n ih =>
    by_cases hLt : n < 16
    · have hSingle := @List.prefix_concat_iff _ (Nat.toDigits 16 m) [] (Nat.digitChar n)
      rw [List.nil_append, List.prefix_nil, ← Nat.toDigits_of_lt_base hLt] at hSingle
      rw [hSingle, or_iff_left Nat.toDigits_ne_nil, toDigits_injective.eq_iff]
      constructor
      · rintro rfl
        exact ⟨0, Nat.div_one _⟩
      · rintro ⟨k, hDiv⟩
        cases k with
        | zero => rw [← hDiv, Nat.pow_zero, Nat.div_one]
        | succ k =>
          rw [Nat.pow_succ', ← Nat.div_div_eq_div_mul, Nat.div_eq_of_lt hLt, Nat.zero_div] at hDiv
          omega
    · rw [Nat.toDigits_of_base_le (by decide) (not_lt.mp hLt), List.prefix_concat_iff,
        ← Nat.toDigits_of_base_le (by decide) (not_lt.mp hLt), toDigits_injective.eq_iff, ih (n / 16) (by omega)]
      constructor
      · rintro (rfl | ⟨k, hDiv⟩)
        · exact ⟨0, Nat.div_one _⟩
        · exact ⟨k + 1, by rw [Nat.pow_succ', ← Nat.div_div_eq_div_mul, hDiv]⟩
      · rintro ⟨k, hDiv⟩
        cases k with
        | zero => exact .inl (by rw [← hDiv, Nat.pow_zero, Nat.div_one])
        | succ k => exact .inr ⟨k, by rwa [Nat.pow_succ', ← Nat.div_div_eq_div_mul] at hDiv⟩

theorem all_isDigit_map_toLower (digits : List Char) : (digits.map Char.toLower).all isDigit = digits.all isDigit := by
  rw [List.all_map]
  congr 1
  funext c
  exact isDigit_toLower c

end Numbers

section Spelling

theorem spell_cons (byte : UInt8) (rest : Bytes) : spell (byte :: rest) = ofNat 2 byte.toNat ++ spell rest := rfl

theorem spell_append (bytes more : Bytes) : spell (bytes ++ more) = spell bytes ++ spell more := List.flatMap_append

@[simp] theorem length_spell (bytes : Bytes) : (spell bytes).length = bytes.length * 2 := by
  induction bytes with
  | nil => rfl
  | cons byte rest ih => rw [spell_cons, List.length_append, length_ofNat, ih, List.length_cons]; ring

theorem all_isDigit_spell (bytes : Bytes) : (spell bytes).all isDigit := by
  induction bytes with
  | nil => rfl
  | cons byte rest ih => rw [spell_cons, List.all_append, all_isDigit_ofNat, ih]; rfl

theorem spell_replicate_zero (n : Nat) : spell (List.replicate n 0) = List.replicate (n * 2) '0' := by
  induction n with
  | zero => rfl
  | succ n ih =>
    rw [List.replicate_succ, spell_cons, ih, Nat.succ_mul, Nat.add_comm, ← List.replicate_append_replicate]
    rfl

@[simp] theorem length_beBytes (width n : Nat) : (beBytes width n).length = width := by
  induction width generalizing n with
  | zero => rfl
  | succ width ih => rw [beBytes, List.length_append, ih, List.length_singleton]

theorem ofNat_two {n : Nat} (h : n < 256) : ofNat 2 n = [digit (n / 16), digit (n % 16)] := by
  have hHigh : n / 16 % 16 = n / 16 := Nat.mod_eq_of_lt (by omega)
  rw [ofNat, ofNat, ofNat, hHigh]
  rfl

theorem spell_beBytes (width n : Nat) : spell (beBytes width n) = ofNat (width * 2) n := by
  induction width generalizing n with
  | zero => rfl
  | succ width ih =>
    have hByte : (UInt8.ofNat (n % 256)).toNat = n % 256 := UInt8.toNat_ofNat_of_lt' (Nat.mod_lt n (by decide))
    have hShift : n / 16 / 16 = n / 256 := Nat.div_div_eq_div_mul n 16 16
    have hHigh : n % 256 / 16 = n / 16 % 16 := by omega
    have hLow : n % 256 % 16 = n % 16 := by omega
    have hLast : spell [UInt8.ofNat (n % 256)] = [digit (n / 16 % 16), digit (n % 16)] := by
      rw [spell_cons, hByte, ofNat_two (Nat.mod_lt n (by decide)), hHigh, hLow]
      rfl
    rw [beBytes, spell_append, ih, hLast, Nat.succ_mul, ofNat, ofNat, hShift, List.append_assoc]
    rfl

theorem bytes?_map_toLower (digits : List Char) : bytes? (digits.map Char.toLower) = bytes? digits := by
  induction digits using bytes?.induct with
  | case1 => rfl
  | case2 c => rfl
  | case3 high low rest ih =>
    rw [List.map_cons, List.map_cons, bytes?, bytes?, value?_toLower, value?_toLower, ih]

theorem bytes?_spell (bytes : Bytes) : bytes? (spell bytes) = some bytes := by
  induction bytes with
  | nil => rfl
  | cons byte rest ih =>
    have hHigh : byte.toNat / 16 < 16 := Nat.div_lt_of_lt_mul byte.toNat_lt
    have hSum : byte.toNat / 16 * 16 + byte.toNat % 16 = byte.toNat := Nat.div_add_mod' _ _
    rw [spell_cons, ofNat_two byte.toNat_lt, List.cons_append, List.cons_append, List.nil_append, bytes?,
      value?_digit hHigh, value?_digit (Nat.mod_lt _ (by decide)), ih]
    simp only [Option.bind_eq_bind, Option.bind_some, Option.pure_def, hSum, UInt8.ofNat_toNat]

theorem map_toLower_of_bytes? {digits : List Char} {bytes : Bytes} (h : bytes? digits = some bytes) :
    digits.map Char.toLower = spell bytes := by
  induction digits using bytes?.induct generalizing bytes with
  | case1 =>
    cases h
    rfl
  | case2 c => cases h
  | case3 high low rest ih =>
    simp only [bytes?, Option.bind_eq_bind, Option.bind_eq_some_iff] at h
    obtain ⟨a, hHigh, b, hLow, tail, hTail, h⟩ := h
    cases h
    obtain ⟨ha, hHigh⟩ := toLower_eq_digit hHigh
    obtain ⟨hb, hLow⟩ := toLower_eq_digit hLow
    have hByte : (UInt8.ofNat (a * 16 + b)).toNat = a * 16 + b := UInt8.toNat_ofNat_of_lt' (by
      change _ < 256
      omega)
    have hFirst : (a * 16 + b) / 16 = a := by omega
    have hSecond : (a * 16 + b) % 16 = b := by omega
    rw [List.map_cons, List.map_cons, hHigh, hLow, ih hTail, spell_cons, hByte, ofNat_two (by omega), hFirst, hSecond]
    rfl

/-- Up to letter case, a text that spells bytes is their spelling. -/
theorem bytes?_eq_some {digits : List Char} {bytes : Bytes} :
    bytes? digits = some bytes ↔ digits.map Char.toLower = spell bytes := by
  constructor
  · exact map_toLower_of_bytes?
  · intro h
    rw [← bytes?_map_toLower, h, bytes?_spell]

theorem map_toLower_spell (bytes : Bytes) : (spell bytes).map Char.toLower = spell bytes :=
  bytes?_eq_some.mp (bytes?_spell bytes)

/-- Digits in pairs spell bytes. -/
theorem exists_bytes {digits : List Char} (h : digits.all isDigit) (hEven : digits.length % 2 = 0) :
    ∃ bytes, bytes? digits = some bytes ∧ bytes.length * 2 = digits.length := by
  refine ⟨beBytes (digits.length / 2) (number digits), bytes?_eq_some.mpr ?_, ?_⟩
  · rw [spell_beBytes, Nat.div_mul_cancel (Nat.dvd_of_mod_eq_zero hEven), map_toLower_eq_ofNat h]
  · rw [length_beBytes, Nat.div_mul_cancel (Nat.dvd_of_mod_eq_zero hEven)]

end Spelling

end Resurrect.Hex
