import OpenSound.Proofs.Numerals
/-!
# Texts in JSON notation

What is written is read back, whatever follows it (`Reads`). A character of a string is read back from
its escape, so strings are, and a container is if its parts are. A value must not be followed by what a
numeral could go on with, which neither a comma nor a closing bracket is. The fuel of the reader goes
down by one with each part that it enters, and a part is shorter than what it is a part of, so twice the
length of the text is enough.
-/

namespace OpenSound.Json

/-! ### Strings -/

def unit? : List Char → Option Nat
  | [a, b, c, d] => do
    let a ← hexValue? a
    let b ← hexValue? b
    let c ← hexValue? c
    let d ← hexValue? d
    return ((a * 16 + b) * 16 + c) * 16 + d
  | _ => none

theorem unit?_paddedHex {n : Nat} (h : n < 0x20) : unit? (Text.paddedHex 4 n).toList = some n := by
  rw [Text.paddedHex, String.toList_ofList]
  revert n
  decide

def prepend (piece : Piece) (read : List Piece × List Char) : List Piece × List Char :=
  (piece :: read.1, read.2)

theorem readPieces_unit {digits : List Char} {unit : Nat} (h : unit? digits = some unit)
    (rest : List Char) :
    readPieces (['\\', 'u'] ++ digits ++ rest) =
      (readPieces rest).map (prepend (.ofUnit unit)) := by
  unfold unit? at h
  split at h
  · simp only [Option.bind_eq_bind, Option.bind_eq_some_iff] at h
    obtain ⟨a, ha, b, hb, c, hc, d, hd, hunit⟩ := h
    cases hunit
    simp only [List.cons_append, List.nil_append, readPieces, ha, hb, hc, hd]
    cases readPieces rest <;> rfl
  · cases h

theorem readPieces_escaped {c letter : Char} (h : escaped? letter = some c) (rest : List Char) :
    readPieces (['\\', letter] ++ rest) = (readPieces rest).map (prepend (.char c)) := by
  simp only [List.cons_append, List.nil_append]
  rw [readPieces.eq_def]
  split
  · rename_i heq
    cases heq
  · -- The letter that a number follows stands for no character itself.
    rename_i heq
    cases heq
    cases h
  · rename_i heq
    cases heq
    rw [h]
    cases readPieces rest <;> rfl
  · rename_i hescaped heq
    cases heq
    exact (hescaped _ _ rfl rfl).elim
  · rename_i heq
    cases heq

theorem readPieces_plain {c : Char} (hquote : c ≠ '"') (hbackslash : c ≠ '\\')
    (hcontrol : ¬c.toNat < 0x20) (rest : List Char) :
    readPieces (c :: rest) = (readPieces rest).map (prepend (.char c)) := by
  rw [readPieces.eq_def]
  split
  · rename_i heq
    cases heq
    exact absurd rfl hquote
  · rename_i heq
    cases heq
    exact absurd rfl hbackslash
  · rename_i heq
    cases heq
    exact absurd rfl hbackslash
  · rename_i heq
    cases heq
    rw [if_neg (not_or.2 ⟨hcontrol, hbackslash⟩)]
    cases readPieces rest <;> rfl
  · rename_i heq
    cases heq

theorem escape_cases (c : Char) :
    (∃ letter, escape c = ['\\', letter] ∧ escaped? letter = some c) ∨
      (∃ digits, escape c = ['\\', 'u'] ++ digits ∧ unit? digits = some c.toNat ∧ c.toNat < 0x20) ∨
      escape c = [c] ∧ c ≠ '"' ∧ c ≠ '\\' ∧ ¬c.toNat < 0x20 := by
  by_cases hletter : c ∈ ['"', '\\', '\x08', '\x0c', '\n', '\r', '\t']
  · simp only [List.mem_cons, List.not_mem_nil, or_false] at hletter
    rcases hletter with rfl | rfl | rfl | rfl | rfl | rfl | rfl <;> exact .inl ⟨_, rfl, rfl⟩
  · simp only [List.mem_cons, List.not_mem_nil, or_false, not_or] at hletter
    obtain ⟨hquote, hbackslash, hback, hfeed, hline, hreturn, htab⟩ := hletter
    simp only [escape, if_neg hquote, if_neg hbackslash, if_neg hback, if_neg hfeed, if_neg hline,
      if_neg hreturn, if_neg htab]
    split
    · rename_i hcontrol
      exact .inr (.inl ⟨_, rfl, unit?_paddedHex hcontrol, hcontrol⟩)
    · rename_i hcontrol
      exact .inr (.inr ⟨rfl, hquote, hbackslash, hcontrol⟩)

theorem readPieces_escape (c : Char) (rest : List Char) :
    readPieces (escape c ++ rest) = (readPieces rest).map (prepend (.char c)) := by
  rcases escape_cases c with ⟨letter, heq, hletter⟩ | ⟨digits, heq, hunit, hcontrol⟩ |
    ⟨heq, hquote, hbackslash, hcontrol⟩
  · rw [heq, readPieces_escaped hletter]
  · have hpiece : Piece.ofUnit c.toNat = .char c := by
      rw [Piece.ofUnit, if_neg (by omega), if_neg (by omega), Char.ofNat_toNat]
    rw [heq, readPieces_unit hunit, hpiece]
  · rw [heq, List.singleton_append, readPieces_plain hquote hbackslash hcontrol]

theorem joinPieces_map_char (cs : List Char) : joinPieces (cs.map .char) = some cs := by
  induction cs with
  | nil => rfl
  | cons c cs ih => simp [joinPieces, ih]

theorem readPieces_flatMap_escape (cs rest : List Char) :
    readPieces (cs.flatMap escape ++ '"' :: rest) = some (cs.map .char, rest) := by
  induction cs with
  | nil => rfl
  | cons c cs ih =>
    rw [List.flatMap_cons, List.append_assoc, readPieces_escape, ih]
    rfl

theorem quote_eq (s : String) : quote s = '"' :: (s.toList.flatMap escape ++ ['"']) := rfl

theorem readString_quote (s : String) (rest : List Char) :
    readString (s.toList.flatMap escape ++ '"' :: rest) = some (some s, rest) := by
  simp only [readString, readPieces_flatMap_escape, Option.map_some, joinPieces_map_char,
    String.ofList_toList]

/-! ### Values -/

/-- Values that are read back: their strings spell texts and their numerals are proper. -/
inductive Plain : Json → Prop where
  | null : Plain .null
  | bool (value : Bool) : Plain (.bool value)
  | number {n : Numeral} (h : n.Proper) : Plain (.number n)
  | text (s : String) : Plain (.text s)
  | array {items : List Json} (h : ∀ item ∈ items, Plain item) : Plain (.array items)
  | object {members : List (Option String × Json)}
    (hkeys : ∀ member ∈ members, ∃ key, member.1 = some key)
    (h : ∀ member ∈ members, Plain member.2) : Plain (.object members)

theorem Plain.record {members : List (String × Json)} (h : ∀ member ∈ members, Plain member.2) :
    Plain (record members) := by
  refine .object (fun member hmember => ?_) fun member hmember => ?_
  · obtain ⟨named, -, rfl⟩ := List.mem_map.1 hmember
    exact ⟨named.1, rfl⟩
  · obtain ⟨named, hnamed, rfl⟩ := List.mem_map.1 hmember
    exact h named hnamed

/-- Neither a blank nor the end of a container stands in front of a value. -/
theorem Plain.exists_chars_eq {j : Json} (h : Plain j) :
    ∃ c cs, j.chars = c :: cs ∧ isBlank c = false ∧ c ≠ ']' := by
  cases h with
  | null => exact ⟨_, _, rfl, by decide, by decide⟩
  | bool value => cases value <;> exact ⟨_, _, rfl, by decide, by decide⟩
  | number hproper =>
    obtain ⟨c, cs, hchars, hc⟩ := hproper.exists_chars_eq
    have hne : ∀ d, isDigit d = false → d ≠ '-' → c ≠ d := by
      rintro d hd hsign rfl
      rcases hc with hc | hc
      · exact hsign hc
      · rw [hd] at hc
        cases hc
    refine ⟨c, cs, hchars, ?_, hne _ rfl (by decide)⟩
    simp [isBlank, hne ' ' rfl (by decide), hne '\n' rfl (by decide), hne '\t' rfl (by decide),
      hne '\r' rfl (by decide)]
  | text s => exact ⟨_, _, rfl, by decide, by decide⟩
  | array h => exact ⟨_, _, rfl, by decide, by decide⟩
  | object hkeys h => exact ⟨_, _, rfl, by decide, by decide⟩

/-- The value is read back from what it is written as, whatever follows that does not go on with it. -/
def Reads (j : Json) : Prop :=
  ∀ fuel rest, 2 * j.chars.length ≤ fuel → Stops rest →
    readValue fuel (j.chars ++ rest) = some (j, rest)

theorem stops_nil : Stops [] := nofun

theorem stops_cons {c : Char} (h : isDigit c = false ∧ c ≠ '.' ∧ c ≠ 'e' ∧ c ≠ 'E') (rest : List Char) :
    Stops (c :: rest) := by
  rintro _ ⟨⟩
  exact h

theorem skipBlanks_cons {c : Char} (h : isBlank c = false) (cs : List Char) :
    skipBlanks (c :: cs) = c :: cs := by
  rw [skipBlanks, List.dropWhile_cons, h]
  rfl

theorem exists_eq_succ {n fuel : Nat} (h : 2 * n ≤ fuel) (hn : 0 < n) :
    ∃ less, fuel = less + 1 := ⟨fuel - 1, by omega⟩

theorem reads_null : Reads null := by
  intro fuel rest hfuel hrest
  obtain ⟨less, rfl⟩ := exists_eq_succ hfuel (by decide)
  rfl

theorem reads_bool (value : Bool) : Reads (bool value) := by
  intro fuel rest hfuel hrest
  obtain ⟨less, rfl⟩ := exists_eq_succ hfuel (by cases value <;> decide)
  cases value <;> rfl

theorem reads_text (s : String) : Reads (text s) := by
  intro fuel rest hfuel hrest
  obtain ⟨less, rfl⟩ := exists_eq_succ hfuel (Nat.succ_pos _)
  have hread := readString_quote s rest
  have hchars : (text s).chars ++ rest = '"' :: (s.toList.flatMap escape ++ '"' :: rest) := by
    simp [text, chars, quote_eq]
  rw [hchars, readValue, skipBlanks_cons rfl]
  simp only [hread]
  rfl

theorem reads_number {n : Numeral} (h : n.Proper) : Reads (number n) := by
  intro fuel rest hfuel hrest
  obtain ⟨c, cs, hchars, hblank, -⟩ := (Plain.number h).exists_chars_eq
  obtain ⟨less, rfl⟩ := exists_eq_succ hfuel (by simp [hchars])
  have hread : readNumeral (c :: (cs ++ rest)) = some (n, rest) := by
    rw [← List.cons_append, ← hchars]
    exact h.readNumeral_append hrest
  obtain ⟨d, ds, heq, hd⟩ := h.exists_chars_eq
  obtain ⟨rfl, rfl⟩ := List.cons.inj (hchars.symm.trans heq)
  rw [hchars, List.cons_append, readValue, skipBlanks_cons hblank]
  -- Only the last way to read a value is for one that begins with a sign or with a digit.
  split <;> rename_i hfirst
  case h_1 => cases hfirst
  case h_8 =>
    rw [hread]
    rfl
  all_goals
    cases hfirst
    rcases hd with hd | hd <;> cases hd

/-! ### Items -/

theorem readItems_last {fuel : Nat} {cs rest : List Char} {item : Json}
    (hitem : readValue fuel cs = some (item, ']' :: rest)) :
    readItems (fuel + 1) cs = some ([item], rest) := by
  simp only [readItems, hitem]
  rfl

theorem readItems_comma {fuel : Nat} {cs others rest : List Char} {item : Json} {items : List Json}
    (hitem : readValue fuel cs = some (item, ',' :: others))
    (hothers : readItems fuel others = some (items, rest)) :
    readItems (fuel + 1) cs = some (item :: items, rest) := by
  have hskip : skipBlanks (',' :: others) = ',' :: others := rfl
  simp [readItems, hitem, hskip, hothers]

theorem charsItems_cons (item : Json) {items : List Json} (h : items ≠ []) :
    charsItems (item :: items) = item.chars ++ ',' :: charsItems items := by
  cases items with
  | nil => exact absurd rfl h
  | cons next items => rfl

theorem readItems_charsItems {items : List Json} (hne : items ≠ []) (h : ∀ item ∈ items, Reads item)
    {fuel : Nat} (hfuel : 2 * (charsItems items).length + 1 ≤ fuel) (rest : List Char) :
    readItems fuel (charsItems items ++ ']' :: rest) = some (items, rest) := by
  -- Every item takes one unit of fuel, which the comma behind it is counted for.
  induction items generalizing fuel with
  | nil => exact absurd rfl hne
  | cons item items ih =>
    obtain ⟨less, rfl⟩ : ∃ less, fuel = less + 1 := ⟨fuel - 1, by omega⟩
    have hitem := h item List.mem_cons_self
    by_cases hlast : items = []
    · subst hlast
      exact readItems_last (hitem less _ (Nat.le_of_succ_le_succ hfuel) (stops_cons (by decide) rest))
    · rw [charsItems_cons item hlast, List.length_append, List.length_cons] at hfuel
      rw [charsItems_cons item hlast, List.append_assoc, List.cons_append]
      refine readItems_comma (hitem less _ (by omega) (stops_cons (by decide) _)) (ih hlast ?_ (by omega))
      exact fun other hother => h other (List.mem_cons_of_mem item hother)

theorem exists_charsItems_eq {items : List Json} (hne : items ≠ []) (h : ∀ item ∈ items, Plain item) :
    ∃ c cs, charsItems items = c :: cs ∧ isBlank c = false ∧ c ≠ ']' := by
  cases items with
  | nil => exact absurd rfl hne
  | cons item items =>
    obtain ⟨c, cs, hchars, hblank, hclose⟩ := (h item List.mem_cons_self).exists_chars_eq
    by_cases hlast : items = []
    · subst hlast
      exact ⟨c, cs, hchars, hblank, hclose⟩
    · rw [charsItems_cons item hlast, hchars]
      exact ⟨c, _, rfl, hblank, hclose⟩

theorem reads_array {items : List Json} (h : ∀ item ∈ items, Plain item)
    (hreads : ∀ item ∈ items, Reads item) : Reads (array items) := by
  intro fuel rest hfuel hrest
  obtain ⟨less, rfl⟩ := exists_eq_succ hfuel (by simp [chars])
  by_cases hne : items = []
  · subst hne
    rfl
  · have hlength : (array items).chars.length = (charsItems items).length + 2 := by simp [chars]
    have hread : readItems less (charsItems items ++ ']' :: rest) = some (items, rest) :=
      readItems_charsItems hne hreads (by omega) rest
    obtain ⟨c, cs, hchars, hblank, hclose⟩ := exists_charsItems_eq hne h
    have heq : (array items).chars ++ rest = '[' :: c :: (cs ++ ']' :: rest) := by
      simp [chars, hchars]
    rw [hchars, List.cons_append] at hread
    rw [heq, readValue, skipBlanks_cons rfl]
    simp only [skipBlanks_cons hblank]
    split
    · rename_i hend
      cases hend
      exact absurd rfl hclose
    · rw [hread]
      rfl

/-! ### Members -/

theorem readMembers_last {fuel : Nat} {cs rest : List Char} {value : Json} (key : String)
    (hvalue : readValue fuel cs = some (value, '\x7d' :: rest)) :
    readMembers (fuel + 1) (quote key ++ ':' :: cs) = some ([(some key, value)], rest) := by
  have hkey := readString_quote key (':' :: cs)
  have hskip : skipBlanks (':' :: cs) = ':' :: cs := rfl
  rw [quote_eq, List.cons_append, readMembers, skipBlanks_cons rfl]
  simp [hkey, hskip, hvalue]
  rfl

theorem readMembers_comma {fuel : Nat} {cs others rest : List Char} {value : Json} (key : String)
    {members : List (Option String × Json)}
    (hvalue : readValue fuel cs = some (value, ',' :: others))
    (hothers : readMembers fuel others = some (members, rest)) :
    readMembers (fuel + 1) (quote key ++ ':' :: cs) = some ((some key, value) :: members, rest) := by
  have hkey := readString_quote key (':' :: cs)
  have hskip : skipBlanks (':' :: cs) = ':' :: cs := rfl
  have hskip' : skipBlanks (',' :: others) = ',' :: others := rfl
  rw [quote_eq, List.cons_append, readMembers, skipBlanks_cons rfl]
  simp [hkey, hskip, hvalue, hskip', hothers]

theorem charsMembers_cons (key : String) (value : Json) {members : List (Option String × Json)}
    (h : members ≠ []) :
    charsMembers ((some key, value) :: members) =
      quote key ++ ':' :: value.chars ++ ',' :: charsMembers members := by
  cases members with
  | nil => exact absurd rfl h
  | cons next members => rfl

theorem readMembers_charsMembers {members : List (Option String × Json)} (hne : members ≠ [])
    (hkeys : ∀ member ∈ members, ∃ key, member.1 = some key)
    (h : ∀ member ∈ members, Reads member.2) {fuel : Nat}
    (hfuel : 2 * (charsMembers members).length + 1 ≤ fuel) (rest : List Char) :
    readMembers fuel (charsMembers members ++ '\x7d' :: rest) = some (members, rest) := by
  induction members generalizing fuel with
  | nil => exact absurd rfl hne
  | cons member members ih =>
    obtain ⟨less, rfl⟩ : ∃ less, fuel = less + 1 := ⟨fuel - 1, by omega⟩
    have hvalue := h member List.mem_cons_self
    obtain ⟨key, hkey⟩ := hkeys member List.mem_cons_self
    obtain ⟨name, value⟩ := member
    dsimp only at hkey hvalue
    subst hkey
    have hkeyed : (quote key).length = (key.toList.flatMap escape).length + 2 := by simp [quote_eq]
    by_cases hlast : members = []
    · subst hlast
      have hlength : (charsMembers [(some key, value)]).length =
          (quote key).length + (value.chars.length + 1) := by simp [charsMembers]
      have heq : charsMembers [(some key, value)] ++ '\x7d' :: rest =
          quote key ++ ':' :: (value.chars ++ '\x7d' :: rest) := by simp [charsMembers]
      rw [heq]
      exact readMembers_last key (hvalue less _ (by omega) (stops_cons (by decide) rest))
    · rw [charsMembers_cons key value hlast] at hfuel ⊢
      simp only [List.length_append, List.length_cons] at hfuel
      simp only [List.append_assoc, List.cons_append]
      refine readMembers_comma key (hvalue less _ (by omega) (stops_cons (by decide) _)) (ih hlast ?_ ?_ (by omega))
      · exact fun other hother => hkeys other (List.mem_cons_of_mem _ hother)
      · exact fun other hother => h other (List.mem_cons_of_mem _ hother)

theorem exists_charsMembers_eq {members : List (Option String × Json)} (hne : members ≠ []) :
    ∃ cs, charsMembers members = '"' :: cs := by
  cases members with
  | nil => exact absurd rfl hne
  | cons member members => cases members <;> exact ⟨_, rfl⟩

theorem reads_object {members : List (Option String × Json)}
    (hkeys : ∀ member ∈ members, ∃ key, member.1 = some key)
    (h : ∀ member ∈ members, Reads member.2) : Reads (object members) := by
  intro fuel rest hfuel hrest
  obtain ⟨less, rfl⟩ := exists_eq_succ hfuel (by simp [chars])
  by_cases hne : members = []
  · subst hne
    rfl
  · have hlength : (object members).chars.length = (charsMembers members).length + 2 := by simp [chars]
    have hread : readMembers less (charsMembers members ++ '\x7d' :: rest) = some (members, rest) :=
      readMembers_charsMembers hne hkeys h (by omega) rest
    obtain ⟨cs, hchars⟩ := exists_charsMembers_eq hne
    have heq : (object members).chars ++ rest = '\x7b' :: '"' :: (cs ++ '\x7d' :: rest) := by
      simp [chars, hchars]
    rw [hchars, List.cons_append] at hread
    rw [heq, readValue, skipBlanks_cons rfl]
    have hskip : skipBlanks ('"' :: (cs ++ '\x7d' :: rest)) = '"' :: (cs ++ '\x7d' :: rest) := rfl
    simp only [hskip]
    split
    · rename_i hend
      cases hend
    · rw [hread]
      rfl

/-! ### Texts -/

theorem Plain.reads {j : Json} (h : Plain j) : Reads j := by
  induction h with
  | null => exact reads_null
  | bool value => exact reads_bool value
  | number hproper => exact reads_number hproper
  | text s => exact reads_text s
  | array h ih => exact reads_array h ih
  | object hkeys h ih => exact reads_object hkeys ih

theorem parse?_toText {j : Json} (h : Plain j) : parse? j.toText = some j := by
  have hread := h.reads (2 * j.toText.length + 2) [] (by simp [toText]) stops_nil
  rw [List.append_nil] at hread
  rw [parse?, toText, String.toList_ofList]
  rw [toText] at hread
  simp only [hread]
  rfl

end OpenSound.Json
