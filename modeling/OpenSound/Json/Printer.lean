import OpenSound.Json.Basic
import OpenSound.Text.Quoted
/-!
# Writing JSON

The compact form: no space between the parts, members in order, and in strings only the escapes that
the notation demands.
-/

namespace OpenSound

def Json.escape (c : Char) : List Char :=
  if c = '"' then ['\\', '"']
  else if c = '\\' then ['\\', '\\']
  else if c = '\x08' then ['\\', 'b']
  else if c = '\x0c' then ['\\', 'f']
  else if c = '\n' then ['\\', 'n']
  else if c = '\r' then ['\\', 'r']
  else if c = '\t' then ['\\', 't']
  else if c.toNat < 0x20 then ['\\', 'u'] ++ (Text.paddedHex 4 c.toNat).toList
  else [c]

def Json.quote (s : String) : List Char :=
  ['"'] ++ s.toList.flatMap escape ++ ['"']

/-- The characters of a numeral. The sign of an exponent is always written. -/
def Numeral.chars (n : Numeral) : List Char :=
  let fraction :=
    match n.fraction with
    | none => []
    | some digits => '.' :: digits
  let exponent :=
    match n.exponent with
    | none => []
    | some (negative, digits) => 'e' :: (if negative then '-' else '+') :: digits
  (if n.negative then ['-'] else []) ++ n.whole ++ fraction ++ exponent

namespace Json

mutual

/-- The characters of a value. A string without text is written as an empty one. -/
def chars : Json → List Char
  | null => "null".toList
  | bool true => "true".toList
  | bool false => "false".toList
  | number n => n.chars
  | string s => quote (s.getD "")
  | array items => ['['] ++ charsItems items ++ [']']
  | object members => ['\x7b'] ++ charsMembers members ++ ['\x7d']

def charsItems : List Json → List Char
  | [] => []
  | [item] => chars item
  | item :: items => chars item ++ ',' :: charsItems items

def charsMembers : List (Option String × Json) → List Char
  | [] => []
  | [(key, value)] => quote (key.getD "") ++ ':' :: chars value
  | (key, value) :: members =>
    quote (key.getD "") ++ ':' :: chars value ++ ',' :: charsMembers members

end

def toText (j : Json) : String := String.ofList j.chars

end Json

end OpenSound
