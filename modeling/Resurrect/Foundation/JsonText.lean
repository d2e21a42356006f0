import Resurrect.Foundation.Hex
import Resurrect.Foundation.Json
import Mathlib.Tactic.IntervalCases

/-! # JSON texts

The compact text of a value, and a reader that takes one character after another
with the open arrays and objects on a stack. A number ends where the next
character is no digit, so a value read to its end may still wait for that
character. Escaped surrogates are not read.
-/

namespace Resurrect.Json

open Hex

section Printing

def escape (c : Char) : List Char :=
  if c = '"' then ['\\', '"']
  else if c = '\\' then ['\\', '\\']
  else if c.toNat = 8 then ['\\', 'b']
  else if c.toNat = 9 then ['\\', 't']
  else if c.toNat = 10 then ['\\', 'n']
  else if c.toNat = 12 then ['\\', 'f']
  else if c.toNat = 13 then ['\\', 'r']
  else if c.toNat < 32 then '\\' :: 'u' :: Hex.ofNat 4 c.toNat
  else [c]

def quote (text : String) : List Char := '"' :: (text.toList.flatMap escape ++ ['"'])

mutual

def chars : Json → List Char
  | .null => ['n', 'u', 'l', 'l']
  | .bool true => ['t', 'r', 'u', 'e']
  | .bool false => ['f', 'a', 'l', 's', 'e']
  | .number literal => Nat.toDigits 10 literal
  | .string text => quote text
  | .array [] => ['[', ']']
  | .array (item :: items) => '[' :: (chars item ++ moreItems items)
  | .object [] => ['\x7b', '\x7d']
  | .object ((key, value) :: members) => '\x7b' :: (quote key ++ ':' :: (chars value ++ moreMembers members))

/-- The rest of an array behind one of its items. -/
def moreItems : List Json → List Char
  | [] => [']']
  | item :: items => ',' :: (chars item ++ moreItems items)

def moreMembers : List (String × Json) → List Char
  | [] => ['\x7d']
  | (key, value) :: members => ',' :: (quote key ++ ':' :: (chars value ++ moreMembers members))

end

def print (value : Json) : String := String.ofList (chars value)

end Printing

section Reading

/-- An open array or object, with what is complete of it in reverse order. -/
inductive Frame where
  | items (before : List Json)
  | member (before : List (String × Json)) (key : String)

/-- What a text between quotes is read for. -/
inductive Purpose where
  | value
  | key (before : List (String × Json))

inductive Mode where
  | value
  | firstItem
  | firstKey
  | key (before : List (String × Json))
  | colon (before : List (String × Json)) (key : String)
  | word (rest : List Char) (value : Json)
  | number (n : Nat)
  | text (purpose : Purpose) (read : List Char)
  | escape (purpose : Purpose) (read : List Char)
  | unicode (purpose : Purpose) (read digits : List Char)
  | after (value : Json)

abbrev State := Mode × List Frame

def closeText (text : String) : Purpose → Mode
  | .value => .after (.string text)
  | .key before => .colon before text

def stepValue (c : Char) (stack : List Frame) : Option State :=
  if c = '[' then some (.firstItem, .items [] :: stack)
  else if c = '\x7b' then some (.firstKey, stack)
  else if c = '"' then some (.text .value [], stack)
  else if c = 'n' then some (.word ['u', 'l', 'l'] .null, stack)
  else if c = 't' then some (.word ['r', 'u', 'e'] (.bool true), stack)
  else if c = 'f' then some (.word ['a', 'l', 's', 'e'] (.bool false), stack)
  else if c = '0' then some (.after (.number 0), stack)
  else if c.isDigit then some (.number (c.toNat - 48), stack)
  else none

/-- What follows a complete value. -/
def stepAfter (value : Json) (c : Char) : List Frame → Option State
  | .items before :: stack =>
      if c = ',' then some (.value, .items (value :: before) :: stack)
      else if c = ']' then some (.after (.array (value :: before).reverse), stack)
      else none
  | .member before key :: stack =>
      if c = ',' then some (.key ((key, value) :: before), stack)
      else if c = '\x7d' then some (.after (.object ((key, value) :: before).reverse), stack)
      else none
  | [] => none

def unescape (c : Char) : Option Char :=
  if c = '"' ∨ c = '\\' ∨ c = '/' then some c
  else if c = 'b' then some (Char.ofNat 8)
  else if c = 't' then some (Char.ofNat 9)
  else if c = 'n' then some (Char.ofNat 10)
  else if c = 'f' then some (Char.ofNat 12)
  else if c = 'r' then some (Char.ofNat 13)
  else none

def step : State → Char → Option State
  | (.value, stack), c => stepValue c stack
  | (.firstItem, stack), c => if c = ']' then some (.after (.array []), stack.tail) else stepValue c stack
  | (.firstKey, stack), c =>
      if c = '\x7d' then some (.after (.object []), stack)
      else if c = '"' then some (.text (.key []) [], stack)
      else none
  | (.key before, stack), c => if c = '"' then some (.text (.key before) [], stack) else none
  | (.colon before key, stack), c => if c = ':' then some (.value, .member before key :: stack) else none
  | (.word rest value, stack), c =>
      if rest.head? ≠ some c then none
      else if rest.tail = [] then some (.after value, stack)
      else some (.word rest.tail value, stack)
  | (.number n, stack), c =>
      if c.isDigit then some (.number (10 * n + (c.toNat - 48)), stack) else stepAfter (.number n) c stack
  | (.text purpose read, stack), c =>
      if c = '"' then some (closeText (String.ofList read.reverse) purpose, stack)
      else if c = '\\' then some (.escape purpose read, stack)
      else if 32 ≤ c.toNat then some (.text purpose (c :: read), stack)
      else none
  | (.escape purpose read, stack), c =>
      if c = 'u' then some (.unicode purpose read [], stack)
      else (unescape c).map fun c => (.text purpose (c :: read), stack)
  | (.unicode purpose read digits, stack), c =>
      let digits := digits ++ [c]
      if ¬ isDigit c then none
      else if digits.length < 4 then some (.unicode purpose read digits, stack)
      else if (Hex.number digits).isValidChar then some (.text purpose (Char.ofNat (Hex.number digits) :: read), stack)
      else none
  | (.after value, stack), c => stepAfter value c stack

def finish : State → Option Json
  | (.after value, []) => some value
  | (.number n, []) => some (.number n)
  | _ => none

def run (text : List Char) (state : State) : Option State := text.foldlM step state

def read (text : String) : Option Json := (run text.toList (.value, [])).bind finish

end Reading

section RoundTrip

@[simp] theorem run_cons (c : Char) (rest : List Char) (state : State) :
    run (c :: rest) state = (step state c).bind (run rest) := by
  rw [run, List.foldlM_cons]
  rfl

theorem run_append (text more : List Char) (state : State) : run (text ++ more) state = (run text state).bind (run more) := by
  rw [run, List.foldlM_append]
  rfl

/-- Where the reader stands behind the last character of a value. -/
def ended : Json → Mode
  | .number literal => if literal = 0 then .after (.number 0) else .number literal
  | value => .after value

theorem step_ended (value : Json) {c : Char} (hc : ¬ c.isDigit) (stack : List Frame) :
    step (ended value, stack) c = stepAfter value c stack := by
  cases value with
  | number literal =>
    rw [ended]
    split
    · rename_i hZero
      rw [hZero]
      rfl
    · rw [step, if_neg hc]
  | null => rfl
  | bool => rfl
  | string => rfl
  | array => rfl
  | object => rfl

theorem finish_ended (value : Json) : finish (ended value, []) = some value := by
  cases value with
  | number literal =>
    rw [ended]
    split
    · rename_i hZero
      rw [hZero]
      rfl
    · rfl
  | null => rfl
  | bool => rfl
  | string => rfl
  | array => rfl
  | object => rfl

theorem stepValue_digit {d : Nat} (hd : d < 10) (stack : List Frame) :
    stepValue (Nat.digitChar d) stack = some (ended (.number d), stack) := by
  interval_cases d <;> rfl

theorem run_toDigits (n : Nat) (stack : List Frame) :
    run (Nat.toDigits 10 n) (.value, stack) = some (ended (.number n), stack) := by
  induction n using Nat.strongRecOn with
  | ind n ih =>
    by_cases hn : n < 10
    · rw [Nat.toDigits_of_lt_base hn, run_cons, step, stepValue_digit hn]
      rfl
    · have hDigit : (Nat.digitChar (n % 10)).isDigit ∧ (Nat.digitChar (n % 10)).toNat - 48 = n % 10 := by
        have hAll : ∀ d < 10, (Nat.digitChar d).isDigit ∧ (Nat.digitChar d).toNat - 48 = d := by decide
        exact hAll _ (Nat.mod_lt n (by decide))
      have hHigh : n / 10 ≠ 0 := by omega
      have hSum : 10 * (n / 10) + n % 10 = n := Nat.div_add_mod n 10
      rw [Nat.toDigits_of_base_le (by decide) (by omega), run_append, ih (n / 10) (by omega), Option.bind_some, ended,
        if_neg hHigh, run_cons, step, if_pos hDigit.1, hDigit.2, hSum, ended, if_neg (by omega)]
      rfl

theorem run_unicode {n : Nat} (hn : n < 32) (purpose : Purpose) (read : List Char) (stack : List Frame) :
    run (Hex.ofNat 4 n) (.unicode purpose read [], stack) = some (.text purpose (Char.ofNat n :: read), stack) := by
  interval_cases n <;> rfl

/-- A character is read back from however it is written. -/
theorem run_escape (c : Char) (purpose : Purpose) (read : List Char) (stack : List Frame) :
    run (escape c) (.text purpose read, stack) = some (.text purpose (c :: read), stack) := by
  have hCode : ∀ {n}, c.toNat = n → c = Char.ofNat n := fun h => by rw [← h, Char.ofNat_toNat]
  rw [escape]
  split
  · rename_i hQuote
    rw [hQuote]
    rfl
  split
  · rename_i hBackslash
    rw [hBackslash]
    rfl
  split
  · rename_i hCode8
    rw [hCode hCode8]
    rfl
  split
  · rename_i hCode9
    rw [hCode hCode9]
    rfl
  split
  · rename_i hCode10
    rw [hCode hCode10]
    rfl
  split
  · rename_i hCode12
    rw [hCode hCode12]
    rfl
  split
  · rename_i hCode13
    rw [hCode hCode13]
    rfl
  split
  · rename_i hControl
    have hEscape : run ['\\', 'u'] (.text purpose read, stack) = some (.unicode purpose read [], stack) := rfl
    have hSplit : '\\' :: 'u' :: Hex.ofNat 4 c.toNat = ['\\', 'u'] ++ Hex.ofNat 4 c.toNat := rfl
    rw [hSplit, run_append, hEscape, Option.bind_some, run_unicode hControl, Char.ofNat_toNat]
  · rename_i hQuote hBackslash _ _ _ _ _ hControl
    rw [run_cons, step, if_neg hQuote, if_neg hBackslash, if_pos (not_lt.mp hControl)]
    rfl

theorem run_escapes (text : List Char) (purpose : Purpose) (read : List Char) (stack : List Frame) :
    run (text.flatMap escape) (.text purpose read, stack) = some (.text purpose (text.reverse ++ read), stack) := by
  induction text generalizing read with
  | nil => rfl
  | cons c text ih =>
    rw [List.flatMap_cons, run_append, run_escape, Option.bind_some, ih, List.reverse_cons, List.append_assoc]
    rfl

theorem run_text (text : String) (purpose : Purpose) (stack : List Frame) :
    run (text.toList.flatMap escape ++ ['"']) (.text purpose [], stack) = some (closeText text purpose, stack) := by
  rw [run_append, run_escapes, Option.bind_some, run_cons, step, if_pos rfl, List.append_nil, List.reverse_reverse,
    String.ofList_toList]
  rfl

theorem chars_head (value : Json) : ∃ c rest, chars value = c :: rest ∧ c ≠ ']' := by
  cases value with
  | null => exact ⟨_, _, rfl, by decide⟩
  | bool value => cases value <;> exact ⟨_, _, rfl, by decide⟩
  | number literal =>
    obtain ⟨c, rest, hDigits⟩ := List.exists_cons_of_ne_nil (Nat.toDigits_ne_nil (n := literal) (b := 10))
    refine ⟨c, rest, by rw [chars, hDigits], ?_⟩
    rintro rfl
    have hDigit := Nat.isDigit_of_mem_toDigits (b := 10) (n := literal) (by decide) (by decide)
      (c := ']') (by rw [hDigits]; exact List.mem_cons_self)
    exact absurd hDigit (by decide)
  | string text => exact ⟨_, _, by rw [chars, quote], by decide⟩
  | array items => cases items <;> exact ⟨_, _, by rw [chars], by decide⟩
  | object members =>
    cases members with
    | nil => exact ⟨_, _, by rw [chars], by decide⟩
    | cons member members => exact ⟨_, _, by rw [chars], by decide⟩

theorem run_firstItem (value : Json) (stack : List Frame) :
    run (chars value) (.firstItem, stack) = run (chars value) (.value, stack) := by
  obtain ⟨c, rest, hChars, hc⟩ := chars_head value
  rw [hChars, run_cons, run_cons, step, step, if_neg hc]

mutual

theorem run_chars : ∀ (value : Json) (stack : List Frame), run (chars value) (.value, stack) = some (ended value, stack)
  | .null, _ => rfl
  | .bool true, _ => rfl
  | .bool false, _ => rfl
  | .number literal, stack => by rw [chars, run_toDigits]
  | .string text, stack => by
    rw [chars, quote, run_cons]
    exact run_text text .value stack
  | .array [], _ => rfl
  | .array (item :: items), stack => by
    rw [chars, run_cons]
    change run (chars item ++ moreItems items) (.firstItem, .items [] :: stack) = _
    rw [run_append, run_firstItem, run_chars item, Option.bind_some, run_moreItems items item [] stack]
    rfl
  | .object [], _ => rfl
  | .object ((key, value) :: members), stack => by
    rw [chars, run_cons]
    change run (quote key ++ ':' :: (chars value ++ moreMembers members)) (.firstKey, stack) = _
    rw [quote, List.cons_append, run_cons]
    change run ((key.toList.flatMap escape ++ ['"']) ++ _) (.text (.key []) [], stack) = _
    rw [run_append, run_text, Option.bind_some, run_cons]
    change run (chars value ++ moreMembers members) (.value, .member [] key :: stack) = _
    rw [run_append, run_chars value, Option.bind_some, run_moreMembers members value [] key stack]
    rfl

theorem run_moreItems : ∀ (items : List Json) (item : Json) (before : List Json) (stack : List Frame),
    run (moreItems items) (ended item, .items before :: stack) =
      some (.after (.array ((item :: before).reverse ++ items)), stack)
  | [], item, before, stack => by
    rw [moreItems, run_cons, step_ended item (by decide), stepAfter, if_neg (by decide), if_pos rfl, List.append_nil]
    rfl
  | next :: items, item, before, stack => by
    rw [moreItems, run_cons, step_ended item (by decide), stepAfter, if_pos rfl, Option.bind_some, run_append,
      run_chars next, Option.bind_some, run_moreItems items next (item :: before) stack]
    simp

theorem run_moreMembers : ∀ (members : List (String × Json)) (value : Json) (before : List (String × Json)) (key : String)
    (stack : List Frame), run (moreMembers members) (ended value, .member before key :: stack) =
      some (.after (.object (((key, value) :: before).reverse ++ members)), stack)
  | [], value, before, key, stack => by
    rw [moreMembers, run_cons, step_ended value (by decide), stepAfter, if_neg (by decide), if_pos rfl, List.append_nil]
    rfl
  | (name, next) :: members, value, before, key, stack => by
    rw [moreMembers, run_cons, step_ended value (by decide), stepAfter, if_pos rfl, Option.bind_some, quote,
      List.cons_append, run_cons]
    change run ((name.toList.flatMap escape ++ ['"']) ++ _) (.text (.key ((key, value) :: before)) [], stack) = _
    rw [run_append, run_text, Option.bind_some, run_cons]
    change run (chars next ++ moreMembers members) (.value, .member ((key, value) :: before) name :: stack) = _
    rw [run_append, run_chars next, Option.bind_some, run_moreMembers members next ((key, value) :: before) name stack]
    simp

end

/-- The reader inverts the printer. -/
theorem read_print (value : Json) : read (print value) = some value := by
  rw [read, print, String.toList_ofList, run_chars, Option.bind_some, finish_ended]

end RoundTrip

end Resurrect.Json
