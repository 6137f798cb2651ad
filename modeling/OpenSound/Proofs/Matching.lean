import OpenSound.Proofs.Tokens
/-!
# A pattern accepts its language

An address is accepted by a pattern exactly if it can be cut into consecutive pieces, one for each of
the elements that the text of the pattern spells, and there is only one way to spell it. For a pattern
of plain characters, which is compared with the address as it stands, the pieces are its characters; for
any other, the engine has found its regular expression, and all that counts is that the engine keeps
what is documented.
-/

namespace OpenSound.Pattern

variable {engine : Regex.Engine} {es es' : List Element} {s : String}

/-! ### Plain characters -/

theorem tokens_map_char (c : Char) (cs : List Char) :
    tokens ((c :: cs).map .char) = [.literal (c :: cs)] := by
  induction cs generalizing c with
  | nil => rfl
  | cons d cs ih =>
    change Token.push (.char c) (tokens ((d :: cs).map .char)) = _
    rw [ih]
    rfl

theorem push_ne_nil (e : Element) (ts : List Token) : Token.push e ts ≠ [] := by
  unfold Token.push
  split <;> simp

theorem eq_char_of_push {e : Element} {ts : List Token} {text : List Char}
    (h : Token.push e ts = [.literal text]) :
    ∃ c cs, e = .char c ∧ text = c :: cs ∧ (ts = [] ∧ cs = [] ∨ ts = [.literal cs]) := by
  unfold Token.push at h
  split at h
  · cases h
    exact ⟨_, _, rfl, rfl, .inr rfl⟩
  · cases h
    exact ⟨_, _, rfl, rfl, .inl ⟨rfl, rfl⟩⟩
  all_goals cases h

theorem eq_map_char_of_tokens {text : List Char} (h : tokens es = [.literal text]) :
    es = text.map .char := by
  induction es generalizing text with
  | nil => cases h
  | cons e es ih =>
    obtain ⟨c, cs, rfl, rfl, ⟨hnil, rfl⟩ | hcs⟩ := eq_char_of_push h
    · cases es with
      | nil => rfl
      | cons e' es => exact absurd hnil (push_ne_nil e' _)
    · rw [ih hcs, List.map_cons]

theorem arePlain_tokens_iff : arePlain (tokens es) = true ↔ ∃ cs, es = List.map .char cs := by
  apply Iff.intro
  · intro h
    unfold arePlain at h
    split at h
    · rename_i hnil
      cases es with
      | nil => exact ⟨[], rfl⟩
      | cons e es => exact absurd hnil (push_ne_nil e _)
    · rename_i hliteral
      exact ⟨_, eq_map_char_of_tokens hliteral⟩
    · cases h
  · intro h
    obtain ⟨cs, rfl⟩ := h
    cases cs with
    | nil => rfl
    | cons c cs =>
      rw [tokens_map_char]
      rfl

/-- A pattern is compared as it stands exactly if it has no wildcards. -/
theorem isLiteral_eq (p : Pattern engine) : p.isLiteral = arePlain (tokens p.elements) := by
  have hcompiled := p.compiled
  unfold chooseMatcher at hcompiled
  unfold isLiteral
  split at hcompiled
  · rename_i hplain
    rw [← Except.ok.inj hcompiled, hplain]
  · rename_i hwild
    obtain ⟨compiled, -, hregex⟩ := map_eq_ok_iff.1 hcompiled
    rw [← hregex, Bool.eq_false_iff.2 hwild]

theorem compile_of_regex {p : Pattern engine} {compiled : engine.Compiled}
    (h : p.matcher = .regex compiled) :
    engine.compile (expression engine.escape (tokens p.elements)) = .ok compiled := by
  have hcompiled := p.compiled
  rw [h] at hcompiled
  unfold chooseMatcher at hcompiled
  split at hcompiled
  · cases hcompiled
  · obtain ⟨_, hcompile, heq⟩ := map_eq_ok_iff.1 hcompiled
    cases heq
    exact hcompile

/-! ### What a pattern is made of -/

theorem spells_elements (p : Pattern engine) : Spells p.elements p.text.toList :=
  parse_eq_ok_iff.1 p.parsed

theorem eq_of_spells {cs : List Char} (h : Spells es cs) (h' : Spells es' cs) : es = es' := by
  have hread := parse_eq_ok_iff.2 h
  rw [parse_eq_ok_iff.2 h'] at hread
  cases hread
  rfl

theorem elements_of_isLiteral {p : Pattern engine} (h : p.isLiteral = true) :
    p.elements = p.text.toList.map .char := by
  rw [isLiteral_eq, arePlain_tokens_iff] at h
  obtain ⟨cs, hcs⟩ := h
  have htext := p.spells_elements.2
  rw [hcs, List.flatMap_map] at htext
  rw [hcs, ← htext]
  congr 1
  exact (List.flatMap_singleton' cs).symm

/-- Both ways of matching decide whether the elements cover the address. -/
theorem accepts_eq_true_iff (hengine : engine.Documented) {p : Pattern engine} {address : String} :
    p.accepts address = true ↔ Covers p.elements address.toList := by
  unfold accepts
  split
  · rename_i hexact
    have hliteral : p.isLiteral = true := by rw [isLiteral, hexact]
    rw [beq_iff_eq, elements_of_isLiteral hliteral, covers_map_char_iff, String.toList_inj]
  · rename_i compiled hregex
    obtain ⟨written, hescapes⟩ := exists_escapes hengine
    have hcompile := compile_of_regex hregex
    rw [← text_regex hescapes] at hcompile
    rw [hengine.isMatch _ _ (proper_regex hescapes p.spells_elements.1) hcompile,
      foundIn_regex_iff hescapes]

/-- The text of a pattern spells one sequence of elements, and the pattern accepts exactly the
addresses that these cover, whichever engine has compiled its regular expression. -/
theorem spells_and_accepts_iff_of_compile (hengine : engine.Documented) {p : Pattern engine}
    (h : compileWith engine s = .ok p) :
    ∃ es, Spells es s.toList ∧ (∀ es', Spells es' s.toList → es' = es) ∧
      ∀ address, p.accepts address = true ↔ Covers es address.toList := by
  have htext := compileWith_eq_ok_iff.1 h
  subst htext
  exact ⟨p.elements, p.spells_elements, fun es' h' => eq_of_spells h' p.spells_elements,
    fun address => accepts_eq_true_iff hengine⟩

/-! ### No expression is refused -/

theorem compile_expression (h : ∀ e ∈ es, e.Proper) :
    Regex.Engine.marking.compile (expression Regex.Engine.marking.escape (tokens es)) =
      .ok (Token.regex Regex.escaped (tokens es)) := by
  rw [← text_regex escapes_marking, Regex.compile_marking (proper_regex escapes_marking h)]

/-- How the engine of this library matches elements. -/
def ownMatcher (es : List Element) : Matcher Regex.Engine.marking.Compiled :=
  if arePlain (tokens es) then .exact else .regex (Token.regex Regex.escaped (tokens es))

theorem chooseMatcher_marking (h : ∀ e ∈ es, e.Proper) :
    chooseMatcher .marking (tokens es) = .ok (ownMatcher es) := by
  unfold chooseMatcher ownMatcher
  by_cases hplain : arePlain (tokens es) = true
  · rw [if_pos hplain, if_pos hplain]
  · rw [if_neg hplain, if_neg hplain]
    exact congrArg (Matcher.regex <$> ·) (compile_expression h)

theorem compile_of_spells (hslash : s.toList.head? = some '/') (h : Spells es s.toList) :
    compile s =
      .ok ⟨s, es, ownMatcher es, hslash, parse_eq_ok_iff.2 h, chooseMatcher_marking h.1⟩ :=
  compileWith_eq_ok_iff.2 rfl

/-- Every kind of element: runs in a row, a dash that makes a range and one that does not, a mark of
negation in a class that is negated, an empty alternative and one that begins like another. -/
def everyElement : List Element := [
  .char '/', .char '.', .anyChar, .anyRun, .anyRun, .oneOf false [.range 'a' 'c', .single '-'],
  .oneOf true [.single '!', .single '^'], .alternatives [['x'], [], ['x', 'y']], .char '$', .char ',']

theorem spells_and_accepts_iff_everyElement :
    Regex.Engine.marking.Documented ∧
      ∃ p, compileWith .marking "/.?**[a-c-][!!^]\x7bx,,xy\x7d$," = .ok p ∧
        Spells everyElement "/.?**[a-c-][!!^]\x7bx,,xy\x7d$,".toList ∧
        Covers everyElement "/.é//-\nxy$,".toList ∧ ¬ Covers everyElement "/.é//-!xy$,".toList := by
  have hspells : Spells everyElement "/.?**[a-c-][!!^]\x7bx,,xy\x7d$,".toList := by decide
  have hcompile := compile_of_spells (by decide) hspells
  obtain ⟨es, -, hunique, haccepts⟩ :=
    spells_and_accepts_iff_of_compile Regex.Engine.documented_marking hcompile
  obtain rfl := hunique everyElement hspells
  refine ⟨Regex.Engine.documented_marking, _, hcompile, hspells, (haccepts _).1 rfl,
    fun hcovers => ?_⟩
  have hrefused := (haccepts _).2 hcovers
  cases hrefused

end OpenSound.Pattern
