/-!
# JSON values

A text in JSON notation as a tree that forgets nothing a reader of typed values could ask for: numerals
keep their digits, objects keep the order and repetition of their members, and a string with an escaped
surrogate that has no partner, which spells no text, is kept as a string without text.
-/

namespace OpenSound

/-- A number as it is written. Digits are kept as characters. -/
structure Numeral where
  negative : Bool
  whole : List Char
  fraction : Option (List Char)
  /-- Whether the exponent is negative, and its digits. -/
  exponent : Option (Bool × List Char)
  deriving DecidableEq, Repr

inductive Json where
  | null
  | bool (value : Bool)
  | number (value : Numeral)
  | string (text : Option String)
  | array (items : List Json)
  | object (members : List (Option String × Json))
  deriving Repr

namespace Json

def text (s : String) : Json := .string (some s)

/-- An object whose keys spell texts. -/
def record (members : List (String × Json)) : Json :=
  .object (members.map fun (key, value) => (some key, value))

def nat (n : Nat) : Json := .number ⟨false, Nat.toDigits 10 n, none, none⟩

def int (n : Int) : Json := .number ⟨decide (n < 0), Nat.toDigits 10 n.natAbs, none, none⟩

end Json

end OpenSound
