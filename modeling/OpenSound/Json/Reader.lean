import OpenSound.Json.Basic
/-!
# Reading JSON

The notation is read strictly: four kinds of blank, no comma after the last item, no leading zeros, no
bare control characters in strings. Each reader takes what it can from the front of the characters and
gives back the rest, or nothing. Nesting is bounded by the length of the text alone.
-/

namespace OpenSound

namespace Json

/-- The blanks between the parts of a text. -/
def isBlank (c : Char) : Bool := c == ' ' || c == '\n' || c == '\t' || c == '\r'

def skipBlanks (cs : List Char) : List Char := cs.dropWhile isBlank

/-! ### Numerals -/

def isDigit (c : Char) : Bool := '0' ≤ c && c ≤ '9'

/-- Reads digits, at least one. -/
def readDigits (cs : List Char) : Option (List Char × List Char) :=
  let digits := cs.takeWhile isDigit
  if digits = [] then none else some (digits, cs.dropWhile isDigit)

/-- Reads the digits before the point: a zero alone, or digits that do not begin with one. -/
def readWhole (cs : List Char) : Option (List Char × List Char) :=
  match readDigits cs with
  | some ('0' :: _ :: _, _) => none
  | read => read

/-- Reads a point and digits, if there is a point. -/
def readFraction : List Char → Option (Option (List Char) × List Char)
  | '.' :: cs => (readDigits cs).map fun (digits, rest) => (some digits, rest)
  | cs => some (none, cs)

def readSign : List Char → Bool × List Char
  | '-' :: cs => (true, cs)
  | '+' :: cs => (false, cs)
  | cs => (false, cs)

def readExponent : List Char → Option (Option (Bool × List Char) × List Char)
  | c :: cs =>
    if c = 'e' ∨ c = 'E' then
      let (negative, cs) := readSign cs
      (readDigits cs).map fun (digits, rest) => (some (negative, digits), rest)
    else some (none, c :: cs)
  | [] => some (none, [])

def readNumeral (cs : List Char) : Option (Numeral × List Char) := do
  let (negative, cs) :=
    match cs with
    | '-' :: rest => (true, rest)
    | _ => (false, cs)
  let (whole, cs) ← readWhole cs
  let (fraction, cs) ← readFraction cs
  let (exponent, cs) ← readExponent cs
  return (⟨negative, whole, fraction, exponent⟩, cs)

/-! ### Strings -/

/-- What a string is made of: characters, and the halves of characters that were escaped in two
parts. -/
inductive Piece where
  | char (c : Char)
  | high (unit : Nat)
  | low (unit : Nat)
  deriving DecidableEq, Repr

/-- The text that pieces spell, if every half has its partner. -/
def joinPieces : List Piece → Option (List Char)
  | [] => some []
  | .char c :: pieces => (c :: ·) <$> joinPieces pieces
  | .high h :: .low l :: pieces =>
    (Char.ofNat (0x10000 + (h - 0xD800) * 0x400 + (l - 0xDC00)) :: ·) <$> joinPieces pieces
  | _ :: _ => none

def hexValue? (c : Char) : Option Nat :=
  if '0' ≤ c ∧ c ≤ '9' then some (c.toNat - '0'.toNat)
  else if 'a' ≤ c ∧ c ≤ 'f' then some (c.toNat - 'a'.toNat + 10)
  else if 'A' ≤ c ∧ c ≤ 'F' then some (c.toNat - 'A'.toNat + 10)
  else none

/-- The piece with a given number of sixteen bits. -/
def Piece.ofUnit (unit : Nat) : Piece :=
  if 0xD800 ≤ unit ∧ unit < 0xDC00 then .high unit
  else if 0xDC00 ≤ unit ∧ unit < 0xE000 then .low unit
  else .char (Char.ofNat unit)

/-- The character that a letter after a backslash stands for. -/
def escaped? (c : Char) : Option Char :=
  if c = '"' ∨ c = '\\' ∨ c = '/' then some c
  else if c = 'b' then some '\x08'
  else if c = 'f' then some '\x0c'
  else if c = 'n' then some '\n'
  else if c = 'r' then some '\r'
  else if c = 't' then some '\t'
  else none

/-- Reads pieces up to the closing quotation mark. -/
def readPieces : List Char → Option (List Piece × List Char)
  | '"' :: cs => some ([], cs)
  | '\\' :: 'u' :: a :: b :: c :: d :: cs => do
    let a ← hexValue? a
    let b ← hexValue? b
    let c ← hexValue? c
    let d ← hexValue? d
    let (pieces, rest) ← readPieces cs
    return (Piece.ofUnit (((a * 16 + b) * 16 + c) * 16 + d) :: pieces, rest)
  | '\\' :: c :: cs => do
    let c ← escaped? c
    let (pieces, rest) ← readPieces cs
    return (.char c :: pieces, rest)
  | c :: cs =>
    if c.toNat < 0x20 ∨ c = '\\' then none
    else do
      let (pieces, rest) ← readPieces cs
      return (.char c :: pieces, rest)
  | [] => none

def readString (cs : List Char) : Option (Option String × List Char) :=
  (readPieces cs).map fun (pieces, rest) => ((joinPieces pieces).map String.ofList, rest)

/-! ### Values -/

def readWord (word : String) (cs : List Char) : Option (List Char) :=
  if word.toList.isPrefixOf cs then some (cs.drop word.length) else none

mutual

def readValue : (fuel : Nat) → List Char → Option (Json × List Char)
  | 0, _ => none
  | fuel + 1, cs =>
    match skipBlanks cs with
    | [] => none
    | '[' :: cs =>
      match skipBlanks cs with
      | ']' :: rest => some (.array [], rest)
      | cs => (readItems fuel cs).map fun (items, rest) => (.array items, rest)
    | '\x7b' :: cs =>
      match skipBlanks cs with
      | '\x7d' :: rest => some (.object [], rest)
      | cs => (readMembers fuel cs).map fun (members, rest) => (.object members, rest)
    | '"' :: cs => (readString cs).map fun (s, rest) => (.string s, rest)
    | 'n' :: cs => (readWord "ull" cs).map fun rest => (.null, rest)
    | 't' :: cs => (readWord "rue" cs).map fun rest => (.bool true, rest)
    | 'f' :: cs => (readWord "alse" cs).map fun rest => (.bool false, rest)
    | cs => (readNumeral cs).map fun (n, rest) => (.number n, rest)

/-- Reads items up to the closing bracket, at least one. -/
def readItems : (fuel : Nat) → List Char → Option (List Json × List Char)
  | 0, _ => none
  | fuel + 1, cs => do
    let (item, cs) ← readValue fuel cs
    match skipBlanks cs with
    | ']' :: rest => some ([item], rest)
    | ',' :: cs =>
      let (items, rest) ← readItems fuel cs
      some (item :: items, rest)
    | _ => none

/-- Reads members up to the closing brace, at least one. -/
def readMembers : (fuel : Nat) → List Char → Option (List (Option String × Json) × List Char)
  | 0, _ => none
  | fuel + 1, cs =>
    match skipBlanks cs with
    | '"' :: cs => do
      let (key, cs) ← readString cs
      match skipBlanks cs with
      | ':' :: cs =>
        let (value, cs) ← readValue fuel cs
        match skipBlanks cs with
        | '\x7d' :: rest => some ([(key, value)], rest)
        | ',' :: cs =>
          let (members, rest) ← readMembers fuel cs
          some ((key, value) :: members, rest)
        | _ => none
      | _ => none
    | _ => none

end

/-- The value that all of a text spells. -/
def parse? (s : String) : Option Json :=
  match readValue (2 * s.length + 2) s.toList with
  | some (j, rest) => if skipBlanks rest = [] then some j else none
  | none => none

end Json

end OpenSound
