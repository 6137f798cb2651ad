import OpenSound.Error
/-!
# Addresses

An address names a method: it begins with a slash and holds none of the characters that mean
something in a pattern.
-/

namespace OpenSound.Address

/-- The characters with a meaning in patterns, which no address may hold. -/
def reserved : List Char := [' ', '#', '*', ',', '?', '[', ']', '\x7b', '\x7d']

def Valid (s : String) : Prop :=
  s.toList.head? = some '/' ∧ ∀ c ∈ s.toList, c ∉ reserved

instance (s : String) : Decidable (Valid s) :=
  @instDecidableAnd _ _ inferInstance (List.decidableBAll (· ∉ reserved) s.toList)

/-- Addresses and patterns alike begin with a slash. -/
def checkSlash (s : String) : Except AddressFault Unit :=
  if s.toList.head? = some '/' then .ok () else .error (.missingSlash s)

/-- The first reserved character and the number of bytes before it. -/
def firstReserved : (offset : Nat) → List Char → Option (Char × Nat)
  | _, [] => none
  | offset, c :: cs =>
    if c ∈ reserved then some (c, offset)
    else firstReserved (offset + (Utf8.encodeChar c).length) cs

/-- Refuses what is no address, for its first fault. -/
def validate (s : String) : Except AddressFault Unit := do
  checkSlash s
  match firstReserved 0 s.toList with
  | some (c, offset) => .error (.reserved c offset s)
  | none => .ok ()

theorem firstReserved_eq_none_iff {offset : Nat} {cs : List Char} :
    firstReserved offset cs = none ↔ ∀ c ∈ cs, c ∉ reserved := by
  induction cs generalizing offset with
  | nil => simp [firstReserved]
  | cons c cs ih =>
    rw [firstReserved]
    split <;> simp_all

theorem validate_eq_ok_iff {s : String} : validate s = .ok () ↔ Valid s := by
  unfold validate checkSlash Valid
  split
  · rename_i hslash
    simp only [hslash, true_and, ← @firstReserved_eq_none_iff 0]
    cases firstReserved 0 s.toList <;> simp [bind, Except.bind]
  · rename_i hslash
    simp [hslash, bind, Except.bind]

end OpenSound.Address
