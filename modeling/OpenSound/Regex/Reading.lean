import OpenSound.Regex.Basic
/-!
# Reading regular expressions

A text is cut into characters first, each with the backslash in front of it, so that no later reader has
to know about escapes. A star belongs to what stands in front of it, which is known only once the rest
has been read: the reader of terms tells whether what it was given begins with a star.
-/

namespace OpenSound.Regex

def literals? : List Char → Option (List Literal)
  | [] => some []
  | ['\\'] => none
  | '\\' :: c :: cs => if escapable c then (⟨c, true⟩ :: ·) <$> literals? cs else none
  | c :: cs => (bare c :: ·) <$> literals? cs

/-- What stands in front of the first closing character, and what stands behind it. -/
def cut? (close : Literal) : List Literal → Option (List Literal × List Literal)
  | [] => none
  | l :: ls =>
    if l = close then some ([], ls)
    else match cut? close ls with
      | none => none
      | some (body, rest) => some (l :: body, rest)

def readMembers : List Literal → List Member
  | [] => []
  | low :: dash :: high :: ls =>
    if dash = bare '-' then .range low high :: readMembers ls
    else .single low :: readMembers (dash :: high :: ls)
  | l :: ls => .single l :: readMembers ls

def readClass (ls : List Literal) : Option (Term × List Literal) :=
  let negated := ls.head? == some (bare '^')
  match cut? (bare ']') (if negated then ls.tail else ls) with
  | none => none
  | some (body, rest) => some (.one (.oneOf negated (readMembers body)), rest)

/-- Reads choices behind their opening bracket. -/
def readGroup : List Literal → Option (Term × List Literal)
  | query :: colon :: ls =>
    if query = bare '?' ∧ colon = bare ':' then
      match cut? (bare ')') ls with
      | none => none
      | some (body, rest) => some (.group (body.splitOn (bare '|')), rest)
    else none
  | _ => none

/-- Reads one term that begins with this character, without a star. -/
def readTerm (l : Literal) (ls : List Literal) : Option (Term × List Literal) :=
  if l = bare '^' then some (.start, ls)
  else if l = bare '$' then some (.finish, ls)
  else if l = bare '.' then some (.one .dot, ls)
  else if l = bare '[' then readClass ls
  else if l = bare '(' then readGroup ls
  else some (.one (.literal l), ls)

/-- Puts a term in front of others, with the star that they begin with, if they do. -/
def attach? (t : Term) : Bool × List Term → Option (List Term)
  | (false, ts) => some (t :: ts)
  | (true, ts) =>
    match t with
    | .one s => some (.many s :: ts)
    | _ => none

theorem length_of_cut? {close : Literal} {ls body rest : List Literal}
    (h : cut? close ls = some (body, rest)) : rest.length < ls.length := by
  induction ls generalizing body with
  | nil => cases h
  | cons l ls ih =>
    rw [cut?] at h
    split at h
    · cases h
      simp
    split at h
    · cases h
    rename_i hrest
    cases h
    have hlength := ih hrest
    simp only [List.length_cons]
    omega

theorem length_of_readTerm {l : Literal} {ls rest : List Literal} {t : Term}
    (h : readTerm l ls = some (t, rest)) : rest.length ≤ ls.length := by
  unfold readTerm at h
  split at h
  · cases h
    exact Nat.le_refl _
  split at h
  · cases h
    exact Nat.le_refl _
  split at h
  · cases h
    exact Nat.le_refl _
  split at h
  · unfold readClass at h
    dsimp only at h
    split at h
    · cases h
    rename_i hcut
    cases h
    have hlength := length_of_cut? hcut
    split at hlength
    · rw [List.length_tail] at hlength
      omega
    · omega
  split at h
  · unfold readGroup at h
    split at h
    · split at h
      · split at h
        · cases h
        rename_i hcut
        cases h
        have hlength := length_of_cut? hcut
        simp only [List.length_cons]
        omega
      · cases h
    · cases h
  · cases h
    exact Nat.le_refl _

/-- Reads terms, and whether a star stands in front of them. -/
def readTerms : List Literal → Option (Bool × List Term)
  | [] => some (false, [])
  | l :: ls =>
    if l = bare '*' then
      match readTerms ls with
      | some (false, ts) => some (true, ts)
      | _ => none
    else
      match _hterm : readTerm l ls with
      | none => none
      | some (t, rest) => do
        let ts ← readTerms rest >>= attach? t
        some (false, ts)
termination_by ls => ls.length
decreasing_by
  · simp
  · have hlength := length_of_readTerm _hterm
    simp only [List.length_cons]
    omega

/-- Reads an expression behind the flag, if that is set. -/
def ofLiterals? (dotAll : Bool) (ls : List Literal) : Option Regex :=
  match readTerms ls with
  | some (false, terms) => if Proper ⟨dotAll, terms⟩ then some ⟨dotAll, terms⟩ else none
  | _ => none

def ofText? (text : String) : Option Regex := do
  let ls ← literals? text.toList
  if ls.take 4 = flag then ofLiterals? true (ls.drop 4) else ofLiterals? false ls

end OpenSound.Regex
