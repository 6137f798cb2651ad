import OpenSound.Address
/-!
# The elements of a pattern

A pattern is a sequence of elements: plain characters, `?` for any one character, `*` for any run of
them, `[...]` for one character of a class, `{...}` for one of several texts. Reading goes from left
to right and stops at the first fault. A comma means nothing outside braces, and a dash makes a range
only between two members of a class.

`Element.Covers` says which texts an element stands for; how an address is matched is not defined
here.
-/

namespace OpenSound.Pattern

/-- A member of a character class: one character, or all from one to another. -/
inductive ClassItem where
  | single (c : Char)
  | range (low high : Char)
  deriving DecidableEq, Repr

inductive Element where
  | char (c : Char)
  | anyChar
  | anyRun
  | oneOf (negated : Bool) (items : List ClassItem)
  | alternatives (choices : List (List Char))
  deriving DecidableEq, Repr

/-! ### Meaning -/

def ClassItem.Contains : ClassItem → Char → Prop
  | single c, x => x = c
  | range low high, x => low ≤ x ∧ x ≤ high

instance (item : ClassItem) (x : Char) : Decidable (item.Contains x) := by
  cases item
  · exact inferInstanceAs (Decidable (_ = _))
  · exact inferInstanceAs (Decidable (_ ∧ _))

/-- The texts that an element stands for. -/
inductive Element.Covers : Element → List Char → Prop where
  | char (c : Char) : Covers (.char c) [c]
  | anyChar (c : Char) : Covers .anyChar [c]
  | anyRun (text : List Char) : Covers .anyRun text
  | listed {items : List ClassItem} {c : Char} (h : ∃ item ∈ items, item.Contains c) :
      Covers (.oneOf false items) [c]
  | unlisted {items : List ClassItem} {c : Char} (h : ¬ ∃ item ∈ items, item.Contains c) :
      Covers (.oneOf true items) [c]
  | choice {choices : List (List Char)} {text : List Char} (h : text ∈ choices) :
      Covers (.alternatives choices) text

/-- The texts that can be cut into consecutive pieces, one for each element. -/
inductive Covers : List Element → List Char → Prop where
  | nil : Covers [] []
  | cons {e : Element} {es : List Element} {front rest : List Char} (head : e.Covers front)
      (tail : Covers es rest) : Covers (e :: es) (front ++ rest)

/-! ### Written form -/

def ClassItem.text : ClassItem → List Char
  | single c => [c]
  | range low high => [low, '-', high]

def Element.text : Element → List Char
  | char c => [c]
  | anyChar => ['?']
  | anyRun => ['*']
  | oneOf negated items =>
    ['['] ++ (if negated then ['!'] else []) ++ items.flatMap ClassItem.text ++ [']']
  | alternatives choices => ['\x7b'] ++ List.intercalate [','] choices ++ ['\x7d']

/-! ### Reading -/

/-- Cuts the body of a class off the characters after its opening bracket. -/
def splitClass : List Char → Except PatternFault (List Char × List Char)
  | [] => .error .unterminatedClass
  | c :: cs =>
    if c = ']' then .ok ([], cs)
    else if c = ' ' ∨ c = '#' then .error (.unexpectedInClass c)
    else match splitClass cs with
      | .error fault => .error fault
      | .ok (body, rest) => .ok (c :: body, rest)

def parseItems : List Char → Except PatternFault (List ClassItem)
  | [] => .ok []
  | low :: '-' :: high :: cs =>
    if high < low then .error (.reversedRange low high)
    else (ClassItem.range low high :: ·) <$> parseItems cs
  | c :: cs => (ClassItem.single c :: ·) <$> parseItems cs

/-- Reads the body of a class: a mark of negation, if any, and its members. -/
def parseClass (body : List Char) : Except PatternFault Element :=
  let negated := body.head? == some '!'
  let members := if negated then body.tail else body
  if members = [] then .error .emptyClass
  else Element.oneOf negated <$> parseItems members

/-- Puts a character in front of the first choice. -/
def extendFirst (c : Char) : List (List Char) → List (List Char)
  | [] => [[c]]
  | choice :: choices => (c :: choice) :: choices

/-- Reads choices up to the closing brace. -/
def parseChoices : List Char → Except PatternFault (List (List Char) × List Char)
  | [] => .error .unterminatedAlternation
  | c :: cs =>
    if c = '\x7d' then .ok ([[]], cs)
    else if c = ',' then
      match parseChoices cs with
      | .error fault => .error fault
      | .ok (choices, rest) => .ok ([] :: choices, rest)
    else if c ∈ Address.reserved then .error (.unexpectedInAlternation c)
    else match parseChoices cs with
      | .error fault => .error fault
      | .ok (choices, rest) => .ok (extendFirst c choices, rest)

theorem length_of_splitClass {cs body rest : List Char} (h : splitClass cs = .ok (body, rest)) :
    body.length + 1 + rest.length = cs.length := by
  induction cs generalizing body with
  | nil => cases h
  | cons c cs ih =>
    rw [splitClass] at h
    split at h
    · cases h
      simp only [List.length_nil, List.length_cons]
      omega
    split at h
    · cases h
    split at h
    · cases h
    rename_i hrest
    cases h
    have hlength := ih hrest
    simp only [List.length_cons]
    omega

theorem length_of_parseChoices {cs rest : List Char} {choices : List (List Char)}
    (h : parseChoices cs = .ok (choices, rest)) : rest.length < cs.length := by
  induction cs generalizing choices with
  | nil => cases h
  | cons c cs ih =>
    rw [parseChoices] at h
    split at h
    · cases h
      simp
    split at h
    · split at h
      · cases h
      rename_i hrest
      cases h
      have hlength := ih hrest
      simp only [List.length_cons]
      omega
    split at h
    · cases h
    split at h
    · cases h
    rename_i hrest
    cases h
    have hlength := ih hrest
    simp only [List.length_cons]
    omega

def parse : List Char → Except PatternFault (List Element)
  | [] => .ok []
  | c :: cs =>
    if c = '?' then (Element.anyChar :: ·) <$> parse cs
    else if c = '*' then (Element.anyRun :: ·) <$> parse cs
    else if c = '[' then
      match _hclass : splitClass cs with
      | .error fault => .error fault
      | .ok (body, rest) => do
        let e ← parseClass body
        (e :: ·) <$> parse rest
    else if c = '\x7b' then
      match _hchoices : parseChoices cs with
      | .error fault => .error fault
      | .ok (choices, rest) => (Element.alternatives choices :: ·) <$> parse rest
    else if c ∈ Address.reserved ∧ c ≠ ',' then .error (.unexpected c)
    else (Element.char c :: ·) <$> parse cs
termination_by cs => cs.length
decreasing_by
  · simp
  · simp
  · have hlength := length_of_splitClass _hclass
    simp only [List.length_cons]
    omega
  · have hlength := length_of_parseChoices _hchoices
    simp only [List.length_cons]
    omega
  · simp

end OpenSound.Pattern
