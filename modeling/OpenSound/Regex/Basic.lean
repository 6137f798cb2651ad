/-!
# Regular expressions

As much of them as patterns need: characters, classes, `.`, runs of any length of one of these, choices
between texts in brackets, and the two ends of what is searched. An expression is written as a sequence
of characters, each as it stands or behind a backslash, and is a tree besides.

What an expression stands for is said place by place (`Term.Stands`): a place is given by the characters
before and behind it, since two kinds of terms look at nothing else. A text is searched for a piece that
the whole expression stands for (`Regex.FoundIn`).
-/

namespace OpenSound.Regex

/-! ### Characters -/

/-- A character in an expression, as it stands or behind a backslash. -/
structure Literal where
  char : Char
  escaped : Bool
  deriving DecidableEq, Repr

/-- The characters with a meaning in expressions. -/
def special : List Char :=
  ['\\', '.', '+', '*', '?', '(', ')', '|', '[', ']', '\x7b', '\x7d', '^', '$', '#', '&', '-', '~']

/-- The characters with a meaning in classes, some of them only next to others. -/
def specialInClass : List Char := ['\\', '[', ']', '^', '-', '&', '~']

/-- Behind a backslash these characters stand for themselves. -/
def escapable (c : Char) : Bool :=
  decide (c.toNat < 128) && !c.isAlphanum && c != '<' && c != '>'

namespace Literal

def text (l : Literal) : List Char := if l.escaped then ['\\', l.char] else [l.char]

/-- A character that stands for itself where these have a meaning. -/
def Proper (reserved : List Char) (l : Literal) : Prop :=
  if l.escaped then escapable l.char = true else l.char ∉ reserved

instance (reserved : List Char) (l : Literal) : Decidable (l.Proper reserved) :=
  inferInstanceAs (Decidable (if l.escaped then escapable l.char = true else l.char ∉ reserved))

end Literal

/-- A character as it stands, with its meaning if it has one. -/
def bare (c : Char) : Literal := ⟨c, false⟩

/-! ### Classes -/

inductive Member where
  | single (l : Literal)
  | range (low high : Literal)
  deriving DecidableEq, Repr

namespace Member

def written : Member → List Literal
  | single l => [l]
  | range low high => [low, bare '-', high]

def Proper : Member → Prop
  | single l => l.Proper specialInClass
  | range low high =>
    low.Proper specialInClass ∧ high.Proper specialInClass ∧ low.char ≤ high.char

def Contains : Member → Char → Prop
  | single l, c => c = l.char
  | range low high, c => low.char ≤ c ∧ c ≤ high.char

instance : (m : Member) → Decidable m.Proper
  | single _ => inferInstanceAs (Decidable (Literal.Proper _ _))
  | range _ _ => inferInstanceAs (Decidable (_ ∧ _ ∧ _))

instance : (m : Member) → (c : Char) → Decidable (m.Contains c)
  | single _, _ => inferInstanceAs (Decidable (_ = _))
  | range _ _, _ => inferInstanceAs (Decidable (_ ∧ _))

end Member

/-! ### Terms -/

inductive Single where
  | literal (l : Literal)
  | dot
  | oneOf (negated : Bool) (members : List Member)
  deriving DecidableEq, Repr

namespace Single

def written : Single → List Literal
  | literal l => [l]
  | dot => [bare '.']
  | oneOf negated members =>
    bare '[' :: (if negated then [bare '^'] else []) ++ members.flatMap Member.written ++ [bare ']']

def Proper : Single → Prop
  | literal l => l.Proper special
  | dot => True
  | oneOf _ members => members ≠ [] ∧ ∀ m ∈ members, m.Proper

instance : (s : Single) → Decidable s.Proper
  | literal _ => inferInstanceAs (Decidable (Literal.Proper _ _))
  | dot => inferInstanceAs (Decidable True)
  | oneOf _ _ => inferInstanceAs (Decidable (_ ∧ _))

/-- The characters it stands for. A dot leaves out the end of a line unless the flag `s` is set. -/
def Admits (dotAll : Bool) : Single → Char → Prop
  | literal l, c => c = l.char
  | dot, c => dotAll = true ∨ c ≠ '\n'
  | oneOf false members, c => ∃ m ∈ members, m.Contains c
  | oneOf true members, c => ¬ ∃ m ∈ members, m.Contains c

instance (dotAll : Bool) : (s : Single) → (c : Char) → Decidable (s.Admits dotAll c)
  | literal _, _ => inferInstanceAs (Decidable (_ = _))
  | dot, _ => inferInstanceAs (Decidable (_ ∨ _))
  | oneOf false _, _ => inferInstanceAs (Decidable (∃ m ∈ _, Member.Contains m _))
  | oneOf true _, _ => inferInstanceAs (Decidable (¬ ∃ m ∈ _, Member.Contains m _))

end Single

inductive Term where
  | one (s : Single)
  | many (s : Single)
  | group (choices : List (List Literal))
  | start
  | finish
  deriving DecidableEq, Repr

namespace Term

def written : Term → List Literal
  | one s => s.written
  | many s => s.written ++ [bare '*']
  | group choices =>
    bare '(' :: bare '?' :: bare ':' :: List.intercalate [bare '|'] choices ++ [bare ')']
  | start => [bare '^']
  | finish => [bare '$']

def Proper : Term → Prop
  | one s | many s => s.Proper
  | group choices => choices ≠ [] ∧ ∀ choice ∈ choices, ∀ l ∈ choice, l.Proper special
  | start | finish => True

instance : (t : Term) → Decidable t.Proper
  | one _ | many _ => inferInstanceAs (Decidable (Single.Proper _))
  | group _ => inferInstanceAs (Decidable (_ ∧ _))
  | start | finish => inferInstanceAs (Decidable True)

/-- The pieces that a term stands for, between the characters before and behind them. -/
inductive Stands (dotAll : Bool) : Term → (before piece behind : List Char) → Prop where
  | one {s : Single} {c : Char} (before behind : List Char) (h : s.Admits dotAll c) :
      Stands dotAll (.one s) before [c] behind
  | many {s : Single} {piece : List Char} (before behind : List Char)
      (h : ∀ c ∈ piece, s.Admits dotAll c) : Stands dotAll (.many s) before piece behind
  | group {choices : List (List Literal)} {choice : List Literal} (before behind : List Char)
      (h : choice ∈ choices) :
      Stands dotAll (.group choices) before (choice.map Literal.char) behind
  | start (behind : List Char) : Stands dotAll .start [] [] behind
  | finish (before : List Char) : Stands dotAll .finish before [] []

end Term

/-- The pieces that terms stand for, one behind the other. -/
inductive Stands (dotAll : Bool) : List Term → (before piece behind : List Char) → Prop where
  | nil (before behind : List Char) : Stands dotAll [] before [] behind
  | cons {t : Term} {ts : List Term} {before front rest behind : List Char}
      (head : t.Stands dotAll before front (rest ++ behind))
      (tail : Stands dotAll ts (before ++ front) rest behind) :
      Stands dotAll (t :: ts) before (front ++ rest) behind

end Regex

/-! ### Expressions -/

/-- An expression: whether the flag `s` is set in front, and its terms. -/
structure Regex where
  dotAll : Bool
  terms : List Regex.Term
  deriving DecidableEq, Repr

namespace Regex

def flag : List Literal := [bare '(', bare '?', bare 's', bare ')']

def written (r : Regex) : List Literal :=
  (if r.dotAll then flag else []) ++ r.terms.flatMap Term.written

def text (r : Regex) : String := String.ofList (r.written.flatMap Literal.text)

def Proper (r : Regex) : Prop := ∀ t ∈ r.terms, t.Proper

instance (r : Regex) : Decidable r.Proper :=
  inferInstanceAs (Decidable (∀ t ∈ r.terms, t.Proper))

/-- Somewhere in the text stands a piece for the whole expression. -/
def FoundIn (r : Regex) (haystack : List Char) : Prop :=
  ∃ before piece behind, haystack = before ++ piece ++ behind ∧
    Stands r.dotAll r.terms before piece behind

end OpenSound.Regex
