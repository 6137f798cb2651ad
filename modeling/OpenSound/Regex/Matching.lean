import OpenSound.Regex.Engine
import OpenSound.Regex.Reading
/-!
# Searching with marks

An expression is carried along the text that is searched, term by term, as one mark for each place: a
place is marked when the terms so far can stand for a piece that ends there. Every place is marked to
begin with, since a search may begin anywhere. A term moves the marks in one sweep, so a search takes
time proportional to the product of the two lengths, whatever the expression.
-/

namespace OpenSound.Regex

/-- The marks after one more character that passes the test: each mark moves on by one. -/
def advance (test : Char → Bool) : List Char → List Bool → List Bool
  | c :: cs, mark :: marks => (mark && test c) :: advance test cs marks
  | _, _ => []

/-- The marks after any number of characters that pass the test. -/
def spread (test : Char → Bool) (carried : Bool) : List Char → List Bool → List Bool
  | c :: cs, mark :: marks =>
    (carried || mark) :: spread test ((carried || mark) && test c) cs marks
  | [], mark :: _ => [carried || mark]
  | _, [] => []

def sweepText (haystack : List Char) (marks : List Bool) (text : List Char) : List Bool :=
  text.foldl (fun marks c => false :: advance (· == c) haystack marks) marks

def keepFirst : List Bool → List Bool
  | [] => []
  | mark :: marks => mark :: marks.map fun _ => false

def keepLast : List Bool → List Bool
  | [] => []
  | [mark] => [mark]
  | _ :: marks => false :: keepLast marks

def sweep (dotAll : Bool) (haystack : List Char) (marks : List Bool) : Term → List Bool
  | .one s => false :: advance (fun c => decide (s.Admits dotAll c)) haystack marks
  | .many s => spread (fun c => decide (s.Admits dotAll c)) false haystack marks
  | .group choices =>
    (choices.map fun choice => sweepText haystack marks (choice.map Literal.char)).foldl
      (List.zipWith (· || ·)) (marks.map fun _ => false)
  | .start => keepFirst marks
  | .finish => keepLast marks

def finds (r : Regex) (haystack : List Char) : Bool :=
  (r.terms.foldl (sweep r.dotAll haystack) (true :: haystack.map fun _ => true)).contains true

/-- Puts a backslash in front of every character that has a meaning. -/
def escape (text : String) : String :=
  String.ofList (text.toList.flatMap fun c => Literal.text ⟨c, special.contains c⟩)

/-- The engine that reads expressions and searches with marks. -/
def Engine.marking : Engine where
  Compiled := Regex
  escape := Regex.escape
  compile text :=
    match ofText? text with
    | none => .error "unknown expression"
    | some r => .ok r
  isMatch r haystack := r.finds haystack.toList

end OpenSound.Regex
