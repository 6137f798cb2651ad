import OpenSound.Pattern.Element
import OpenSound.Regex.Engine
/-!
# Patterns as regular expressions

The elements of a pattern are put together to tokens: plain characters in a row are one token, and so
are runs in a row. Tokens are written as a regular expression, from the start of an address to its end,
with the flag that lets a dot stand for the end of a line as well. The engine escapes texts; inside
classes, where it escapes nothing, a backslash goes in front of every character that could mean
something there.
-/

namespace OpenSound.Pattern

inductive Token where
  | literal (text : List Char)
  | anyChar
  | anyRun
  | oneOf (negated : Bool) (items : List ClassItem)
  | alternatives (choices : List (List Char))
  deriving DecidableEq, Repr

/-- Puts an element in front of tokens. -/
def Token.push : Element → List Token → List Token
  | .char c, .literal text :: ts => .literal (c :: text) :: ts
  | .char c, ts => .literal [c] :: ts
  | .anyChar, ts => .anyChar :: ts
  | .anyRun, .anyRun :: ts => .anyRun :: ts
  | .anyRun, ts => .anyRun :: ts
  | .oneOf negated items, ts => .oneOf negated items :: ts
  | .alternatives choices, ts => .alternatives choices :: ts

def tokens (es : List Element) : List Token := es.foldr Token.push []

/-! ### The expression -/

def escapeMember (c : Char) : List Char :=
  if c ∈ ['\\', '[', ']', '^', '-', '&', '~'] then ['\\', c] else [c]

def ClassItem.expression : ClassItem → List Char
  | single c => escapeMember c
  | range low high => escapeMember low ++ '-' :: escapeMember high

def Token.expression (escape : String → String) : Token → List Char
  | literal text => (escape (String.ofList text)).toList
  | anyChar => ['.']
  | anyRun => ['.', '*']
  | oneOf negated items =>
    '[' :: (if negated then ['^'] else []) ++ items.flatMap ClassItem.expression ++ [']']
  | alternatives choices =>
    ['(', '?', ':'] ++
      List.intercalate ['|'] (choices.map fun choice => (escape (String.ofList choice)).toList) ++ [')']

/-- The regular expression of a whole pattern. -/
def expression (escape : String → String) (ts : List Token) : String :=
  String.ofList (['(', '?', 's', ')', '^'] ++ ts.flatMap (Token.expression escape) ++ ['$'])

end OpenSound.Pattern
