import OpenSound.Json.Number
/-!
# Typed values in JSON

The common forms that typed values take. A structure is an object with its fields, in any order and
among others, or an array of exactly its fields; the latter may be cut short where the fields left out
have a default. A variant is an object whose one key names it, or its name alone when it carries
nothing.

Every reader is told how many more containers it may open, each inside the one before, and fails when
they run out. The containers of a value that is only skipped do not count.
-/

namespace OpenSound.Json

/-- The number of containers that may be open at a time. -/
def maxDepth : Nat := 127

def valuesOf (name : String) (members : List (Option String × Json)) : List Json :=
  (members.filter fun (key, _) => key == some name).map Prod.snd

/-- The value of a field, or nothing, provided that it stands at most once. -/
def uniqueValue? (name : String) (members : List (Option String × Json)) : Option (Option Json) :=
  match valuesOf name members with
  | [] => some none
  | [value] => some (some value)
  | _ => none

/-- The fields of a structure, where each may be missing. -/
def fields? (names : List String) : Json → Option (List (Option Json))
  | array items =>
    if items.length ≤ names.length then
      some (items.map some ++ List.replicate (names.length - items.length) none)
    else none
  | object members =>
    if members.all fun (key, _) => key.isSome then
      names.mapM fun name => uniqueValue? name members
    else none
  | _ => none

/-- The name of a variant and the value that it carries. -/
def variant? : Json → Option (String × Json)
  | object [(some name, value)] => some (name, value)
  | _ => none

/-- An integer from `low` on, below `high`. -/
def int? (low high : Int) : Json → Option Int
  | number n => do
    let value ← (← n.number?).int?
    if low ≤ value ∧ value < high then some value else none
  | _ => none

def byte? (j : Json) : Option UInt8 := (j.int? 0 UInt8.size).map fun n => UInt8.ofNat n.toNat

def word32? (j : Json) : Option UInt32 := (j.int? 0 UInt32.size).map fun n => UInt32.ofNat n.toNat

def bool? : Json → Option Bool
  | bool value => some value
  | _ => none

def text? : Json → Option String
  | string s => s
  | _ => none

/-- A string of one character. -/
def char? (j : Json) : Option Char := do
  match (← j.text?).toList with
  | [c] => some c
  | _ => none

def number? : Json → Option Number
  | number n => n.number?
  | _ => none

/-- The items of an array, which counts as one more container. -/
def items? {α : Type} (item : Nat → Json → Option α) : (depth : Nat) → Json → Option (List α)
  | depth + 1, array items => items.mapM (item depth)
  | _, _ => none

end OpenSound.Json
