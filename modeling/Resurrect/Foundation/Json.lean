import Mathlib.Data.List.Basic

/-! # JSON values

Values whose numbers are integer literals without sign, fraction or exponent. An
object is the list of its members in the order of the text.
-/

namespace Resurrect

inductive Json where
  | null
  | bool (value : Bool)
  | number (literal : Nat)
  | string (text : String)
  | array (items : List Json)
  | object (members : List (String × Json))

/-- A number written as a literal or as canonical text. -/
inductive Json.Spells : Json → Nat → Prop where
  | literal (n : Nat) : Spells (.number n) n
  | text (n : Nat) : Spells (.string n.repr) n

end Resurrect
