import OpenSound.Proofs.Matching
/-!
# Which texts are patterns

The grammar of patterns, said of their characters alone: a pattern is a slash and what follows it, cut
into pieces, each of which is a plain character, a wildcard, a class in brackets or alternatives in
braces. Nothing here says what an element is or how one is read. A piece is what a proper element is
written as (`piece_iff`), so the texts with a grammar are those that can be read, and every other text
is refused with a fault that names it.
-/

namespace OpenSound.Pattern

/-! ### The grammar -/

/-- The characters that no pattern holds outside brackets and braces but as what they stand for. -/
def special : List Char := [' ', '#', '*', '?', '[', ']', '\x7b', '\x7d']

/-- A body without the mark of negation, of which there is at most one. -/
def unmarked : List Char → List Char
  | '!' :: members => members
  | members => members

/-- The ranges of a class, from left to right: every dash between two characters that are left makes
one of them. -/
def ranges : List Char → List (Char × Char)
  | low :: '-' :: high :: cs => (low, high) :: ranges cs
  | _ :: cs => ranges cs
  | [] => []

inductive Piece : List Char → Prop where
  | char {c : Char} (hplain : c ∉ special) : Piece [c]
  | anyChar : Piece ['?']
  | anyRun : Piece ['*']
  | oneOf {body : List Char} (hchars : ∀ c ∈ body, c ∉ [']', ' ', '#'])
      (hsome : unmarked body ≠ [])
      (horder : ∀ range ∈ ranges (unmarked body), range.1 ≤ range.2) : Piece ('[' :: (body ++ [']']))
  | alternatives {body : List Char} (hchars : ∀ c ∈ body, c ∈ Address.reserved → c = ',') :
      Piece ('\x7b' :: (body ++ ['\x7d']))

def Grammatical (s : String) : Prop :=
  s.toList.head? = some '/' ∧
    ∃ pieces : List (List Char), (∀ piece ∈ pieces, Piece piece) ∧ pieces.flatten = s.toList

/-! ### Pieces are written elements -/

theorem joins_eq_false {cs : List Char} (h : ∀ high rest, cs ≠ '-' :: high :: rest) :
    joins cs = false := by
  unfold joins
  split
  · exact absurd rfl (h _ _)
  · rfl

theorem ranges_of_not_joins {c : Char} {cs : List Char} (h : joins cs = false) :
    ranges (c :: cs) = ranges cs := by
  rw [ranges.eq_2]
  intro high rest hcs
  rw [hcs] at h
  cases h

theorem exists_parseItems_iff {cs : List Char} :
    (∃ items, parseItems cs = .ok items) ↔ ∀ range ∈ ranges cs, range.1 ≤ range.2 := by
  induction cs using parseItems.induct with
  | case1 => simp [parseItems, ranges]
  | case2 low high cs hlt =>
    rw [parseItems, if_pos hlt, ranges, List.forall_mem_cons]
    simp [Char.not_le.2 hlt]
  | case3 low high cs hle ih =>
    rw [parseItems, if_neg hle, ranges, List.forall_mem_cons, ← ih, exists_map_eq_ok_iff]
    simp [Char.not_lt.1 hle]
  | case4 c cs hsingle ih =>
    have hjoins := joins_eq_false hsingle
    rw [parseItems_of_not_joins hjoins, ranges_of_not_joins hjoins, ← ih, exists_map_eq_ok_iff]

theorem parseClass_eq_ite (body : List Char) :
    parseClass body = if unmarked body = [] then .error .emptyClass
      else Element.oneOf (body.head? == some '!') <$> parseItems (unmarked body) := by
  unfold parseClass unmarked
  split
  · rfl
  · rename_i hmark
    have hnone : (body.head? == some '!') = false := by
      simp only [beq_eq_false_iff_ne, ne_eq, List.head?_eq_some_iff, not_exists]
      exact hmark
    rw [hnone]
    rfl

theorem exists_parseClass_iff {body : List Char} :
    (∃ e, parseClass body = .ok e) ↔
      unmarked body ≠ [] ∧ ∀ range ∈ ranges (unmarked body), range.1 ≤ range.2 := by
  rw [parseClass_eq_ite, ← exists_parseItems_iff]
  split
  · rename_i hnil
    simp [hnil]
  · rename_i hsome
    simp only [ne_eq, hsome, not_false_eq_true, true_and, exists_map_eq_ok_iff]

theorem exists_oneOf_iff {body : List Char} (hchars : ∀ c ∈ body, c ∉ closers) :
    (∃ negated items, (Element.oneOf negated items).Proper ∧ body = classBody negated items) ↔
      unmarked body ≠ [] ∧ ∀ range ∈ ranges (unmarked body), range.1 ≤ range.2 := by
  rw [← exists_parseClass_iff]
  apply Iff.intro
  · intro h
    obtain ⟨negated, items, hproper, htext⟩ := h
    exact ⟨_, (parseClass_eq_ok_iff hchars).2 ⟨negated, items, rfl, hproper, htext⟩⟩
  · intro h
    obtain ⟨e, he⟩ := h
    obtain ⟨negated, items, rfl, hproper, htext⟩ := (parseClass_eq_ok_iff hchars).1 he
    exact ⟨negated, items, hproper, htext⟩

theorem exists_parseChoices {body : List Char} (h : ∀ c ∈ body, c ∈ Address.reserved → c = ',') :
    ∃ choices, parseChoices (body ++ ['\x7d']) = .ok (choices, []) := by
  induction body with
  | nil => exact ⟨[[]], rfl⟩
  | cons c body ih =>
    obtain ⟨hc, hbody⟩ := List.forall_mem_cons.1 h
    obtain ⟨choices, hread⟩ := ih hbody
    by_cases hcomma : c = ','
    · refine ⟨[] :: choices, ?_⟩
      rw [hcomma, List.cons_append, parseChoices, if_neg (by decide), if_pos rfl, hread]
    · exact ⟨extendFirst c choices, parseChoices_cons (fun hmem => hcomma (hc hmem)) hread⟩

/-- A comma is reserved and still stands for itself. -/
theorem proper_char_iff {c : Char} : (Element.char c).Proper ↔ c ∉ special := by
  unfold Element.Proper Address.reserved special
  by_cases hcomma : c = ','
  · simp [hcomma]
  · simp [hcomma]

theorem exists_alternatives_iff {body : List Char} :
    (∃ choices, (Element.alternatives choices).Proper ∧ body = List.intercalate [','] choices) ↔
      ∀ c ∈ body, c ∈ Address.reserved → c = ',' := by
  apply Iff.intro
  · intro h c hc hreserved
    obtain ⟨choices, hproper, rfl⟩ := h
    rcases mem_intercalate hc with hcomma | ⟨choice, hchoice, hmem⟩
    · exact hcomma
    · exact absurd hreserved (hproper.2 choice hchoice c hmem)
  · intro h
    obtain ⟨choices, hread⟩ := exists_parseChoices h
    obtain ⟨hproper, htext⟩ := proper_of_parseChoices hread
    exact ⟨choices, hproper, List.append_cancel_right htext⟩

theorem piece_iff {piece : List Char} : Piece piece ↔ ∃ e : Element, e.Proper ∧ e.text = piece := by
  apply Iff.intro
  · intro h
    cases h with
    | @char c hplain => exact ⟨.char c, proper_char_iff.2 hplain, rfl⟩
    | anyChar => exact ⟨.anyChar, trivial, rfl⟩
    | anyRun => exact ⟨.anyRun, trivial, rfl⟩
    | oneOf hchars hsome horder =>
      obtain ⟨negated, items, hproper, rfl⟩ := (exists_oneOf_iff hchars).2 ⟨hsome, horder⟩
      refine ⟨.oneOf negated items, hproper, ?_⟩
      rw [← List.append_nil (Element.text _), text_oneOf_append]
    | alternatives hchars =>
      obtain ⟨choices, hproper, rfl⟩ := exists_alternatives_iff.2 hchars
      exact ⟨.alternatives choices, hproper, rfl⟩
  · intro h
    obtain ⟨e, hproper, rfl⟩ := h
    cases e with
    | char c => exact .char (proper_char_iff.1 hproper)
    | anyChar => exact .anyChar
    | anyRun => exact .anyRun
    | oneOf negated items =>
      have hchars := mem_classBody hproper
      obtain ⟨hsome, horder⟩ := (exists_oneOf_iff hchars).1 ⟨negated, items, hproper, rfl⟩
      rw [← List.append_nil (Element.text _), text_oneOf_append]
      exact .oneOf hchars hsome horder
    | alternatives choices =>
      exact .alternatives (exists_alternatives_iff.1 ⟨choices, hproper, rfl⟩)

theorem exists_elements {pieces : List (List Char)} (h : ∀ piece ∈ pieces, Piece piece) :
    ∃ es : List Element, (∀ e ∈ es, e.Proper) ∧ es.map Element.text = pieces := by
  induction pieces with
  | nil => exact ⟨[], by simp, rfl⟩
  | cons piece pieces ih =>
    obtain ⟨hpiece, hpieces⟩ := List.forall_mem_cons.1 h
    obtain ⟨e, he, rfl⟩ := piece_iff.1 hpiece
    obtain ⟨es, hes, rfl⟩ := ih hpieces
    exact ⟨e :: es, List.forall_mem_cons.2 ⟨he, hes⟩, rfl⟩

theorem grammatical_iff {s : String} :
    Grammatical s ↔ s.toList.head? = some '/' ∧ ∃ es, Spells es s.toList := by
  apply and_congr_right'
  apply Iff.intro
  · intro h
    obtain ⟨pieces, hpieces, htext⟩ := h
    obtain ⟨es, hes, rfl⟩ := exists_elements hpieces
    exact ⟨es, hes, by rw [List.flatMap_def, htext]⟩
  · intro h
    obtain ⟨es, hes, htext⟩ := h
    refine ⟨es.map Element.text, fun piece hpiece => ?_, by rw [← List.flatMap_def, htext]⟩
    obtain ⟨e, he, rfl⟩ := List.mem_map.1 hpiece
    exact piece_iff.2 ⟨e, hes e he, rfl⟩

/-! ### Reading a text -/

theorem exists_compile_iff {s : String} : (∃ p, compile s = .ok p) ↔ Grammatical s := by
  rw [grammatical_iff]
  apply Iff.intro
  · intro h
    obtain ⟨p, hp⟩ := h
    obtain rfl := text_of_compile hp
    exact ⟨p.slash, p.elements, p.spells_elements⟩
  · intro h
    obtain ⟨hslash, es, hes⟩ := h
    exact ⟨_, compile_of_spells hslash hes⟩

/-- A text is refused as a pattern for a missing slash, or else for a fault behind it. Either way the
fault names the text. -/
def RefusedFor (s : String) : AddressFault → Prop
  | .missingSlash text => text = s ∧ s.toList.head? ≠ some '/'
  | .pattern _ text => text = s ∧ s.toList.head? = some '/'
  | .reserved _ _ _ | .expression _ => False

theorem refusedFor_of_compile {s : String} {fault : AddressFault} (h : compile s = .error fault) :
    RefusedFor s fault := by
  unfold compile compileWith at h
  split at h
  · rename_i hslash
    split at h
    · cases h
      exact ⟨rfl, hslash⟩
    rename_i es hparsed
    split at h
    · rename_i hrefused
      rw [chooseMatcher_marking (parse_eq_ok_iff.1 hparsed).1] at hrefused
      cases hrefused
    · cases h
  · rename_i hslash
    cases h
    exact ⟨rfl, hslash⟩

/-- Reading a pattern succeeds exactly on the grammatical texts, and keeps the text. All others are
refused. -/
theorem compile_iff_grammatical (s : String) :
    ((∃ p, compile s = .ok p ∧ p.text = s) ↔ Grammatical s) ∧
      (¬ Grammatical s → ∃ fault, compile s = .error fault ∧ RefusedFor s fault) := by
  refine ⟨?_, fun hnot => ?_⟩
  · rw [← exists_compile_iff]
    exact exists_congr fun p => and_iff_left_of_imp text_of_compile
  · cases hread : compile s with
    | error fault => exact ⟨fault, rfl, refusedFor_of_compile hread⟩
    | ok p => exact absurd (exists_compile_iff.1 ⟨p, hread⟩) hnot

/-- Two readings of a dash: behind a range it starts none. -/
theorem compile_iff_grammatical_dashes :
    (∃ p, compile "/[!a-c-a]," = .ok p ∧ p.text = "/[!a-c-a],") ∧ ¬ Grammatical "/[!c-a]," ∧
      ∃ fault, compile "/[!c-a]," = .error fault ∧ RefusedFor "/[!c-a]," fault := by
  have hgrammatical : Grammatical "/[!a-c-a]," := by
    refine ⟨by decide, [['/'], "[!a-c-a]".toList, [',']], ?_, by decide⟩
    simp only [List.forall_mem_cons, List.not_mem_nil, false_imp_iff, implies_true, and_true]
    refine ⟨.char (by decide), ?_, .char (by decide)⟩
    exact @Piece.oneOf ['!', 'a', '-', 'c', '-', 'a'] (by decide) (by decide) (by decide)
  have hreversed : parse "/[!c-a],".toList = .error (.reversedRange 'c' 'a') := by
    simp [parse, splitClass, parseClass, parseItems, Address.reserved]
  have hnot : ¬ Grammatical "/[!c-a]," := by
    intro h
    obtain ⟨p, hp⟩ := exists_compile_iff.2 h
    have hparsed := p.parsed
    rw [text_of_compile hp, hreversed] at hparsed
    cases hparsed
  exact ⟨(compile_iff_grammatical "/[!a-c-a],").1.2 hgrammatical, hnot,
    (compile_iff_grammatical "/[!c-a],").2 hnot⟩

end OpenSound.Pattern
