import OpenSound.Text.Invisible
import OpenSound.Text.Combining
/-!
# Quoted text

How error texts show the strings and characters they complain about: between quotation marks, with
the five short escapes, the enclosing mark and the backslash escaped, and the number of every
character that could not be recognised on sight.
-/

namespace OpenSound.Text

/-- The lower-case hexadecimal digits of a number, without leading zeros. -/
def hexDigits (n : Nat) : List Char := Nat.toDigits 16 n

/-- The lower-case hexadecimal digits of a number, filled up with zeros to `width` digits. -/
def paddedHex (width n : Nat) : String :=
  let digits := hexDigits n
  String.ofList (List.replicate (width - digits.length) '0' ++ digits)

/-- How a character is shown between two `quote` marks. -/
def escape (quote c : Char) : List Char :=
  if c = '\x00' then ['\\', '0']
  else if c = '\t' then ['\\', 't']
  else if c = '\r' then ['\\', 'r']
  else if c = '\n' then ['\\', 'n']
  else if c = '\\' ∨ c = quote then ['\\', c]
  else if isCombining c || isInvisible c then ['\\', 'u', '\x7b'] ++ hexDigits c.toNat ++ ['\x7d']
  else [c]

/-- A string between double quotation marks. -/
def quoted (s : String) : String :=
  String.ofList (['"'] ++ s.toList.flatMap (escape '"') ++ ['"'])

def quotedChar (c : Char) : String :=
  String.ofList (['\''] ++ escape '\'' c ++ ['\''])

end OpenSound.Text
