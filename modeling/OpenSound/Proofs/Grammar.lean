import OpenSound.Pattern.Element
import OpenSound.Proofs.Results
/-!
# The grammar of patterns

`Spells es cs` says without a reader that characters are a pattern: they are the written elements one
after the other, each of them proper. The readers of a class and of alternatives look for their closing
bracket first and then at what stands before it, and all of them read from left to right. `Proper` says
what this leaves to each kind of element, so that no two sequences of proper elements are written alike.
The reader of patterns finds exactly the elements that are spelled (`parse_eq_ok_iff`).
-/

namespace OpenSound.Pattern

/-! ### Proper elements -/

/-- What ends the body of a class or is refused in it. -/
def closers : List Char := [']', ' ', '#']

/-- A class without its brackets. -/
def classBody (negated : Bool) (items : List ClassItem) : List Char :=
  (if negated then ['!'] else []) ++ items.flatMap ClassItem.text

/-- Whether a character in front of these would be the start of a range. -/
def joins : List Char → Bool
  | '-' :: _ :: _ => true
  | _ => false

/-- The items are those that are found from left to right: every dash between two characters that are
left makes a range, and no range is reversed. -/
def ProperItems : List ClassItem → Prop
  | [] => True
  | .single _ :: items => joins (items.flatMap ClassItem.text) = false ∧ ProperItems items
  | .range low high :: items => low ≤ high ∧ ProperItems items

/-- An element that a pattern can be made of. -/
def Element.Proper : Element → Prop
  | .char c => c ∉ Address.reserved ∨ c = ','
  | .anyChar | .anyRun => True
  | .oneOf negated items =>
    items ≠ [] ∧ ProperItems items ∧ (∀ c ∈ items.flatMap ClassItem.text, c ∉ closers) ∧
      (negated = false → (items.flatMap ClassItem.text).head? ≠ some '!')
  | .alternatives choices => choices ≠ [] ∧ ∀ choice ∈ choices, ∀ c ∈ choice, c ∉ Address.reserved

/-- The characters are the elements, written one after the other. -/
def Spells (es : List Element) (cs : List Char) : Prop :=
  (∀ e ∈ es, e.Proper) ∧ es.flatMap Element.text = cs

instance decidableProperItems : (items : List ClassItem) → Decidable (ProperItems items)
  | [] => inferInstanceAs (Decidable True)
  | .single _ :: items =>
    have := decidableProperItems items
    inferInstanceAs (Decidable (_ ∧ _))
  | .range _ _ :: items =>
    have := decidableProperItems items
    inferInstanceAs (Decidable (_ ∧ _))

/-- A list is searched for what it must not hold, not the characters for those on the list. -/
instance decidableAvoids (cs refused : List Char) : Decidable (∀ c ∈ cs, c ∉ refused) :=
  List.decidableBAll (· ∉ refused) cs

instance (e : Element) : Decidable e.Proper :=
  match e with
  | .char _ => inferInstanceAs (Decidable (_ ∨ _))
  | .anyChar | .anyRun => inferInstanceAs (Decidable True)
  | .oneOf _ _ => inferInstanceAs (Decidable (_ ∧ _))
  | .alternatives _ => inferInstanceAs (Decidable (_ ∧ _))

instance (es : List Element) (cs : List Char) : Decidable (Spells es cs) :=
  inferInstanceAs (Decidable (_ ∧ _))

/-! ### Classes -/

/-- The body of a class reaches up to the first closing bracket. -/
theorem splitClass_eq_ok_iff {cs body rest : List Char} :
    splitClass cs = .ok (body, rest) ↔ (∀ c ∈ body, c ∉ closers) ∧ cs = body ++ ']' :: rest := by
  apply Iff.intro
  · intro h
    induction cs generalizing body with
    | nil => cases h
    | cons c cs ih =>
      rw [splitClass] at h
      split at h
      · rename_i hclose
        cases h
        exact ⟨by simp, by rw [hclose]; rfl⟩
      rename_i hclose
      split at h
      · cases h
      rename_i hrefused
      split at h
      · cases h
      rename_i hrest
      cases h
      obtain ⟨hbody, rfl⟩ := ih hrest
      have hc : c ∉ closers := by
        simp only [closers, List.mem_cons, List.not_mem_nil, or_false, not_or]
        exact ⟨hclose, not_or.1 hrefused⟩
      exact ⟨List.forall_mem_cons.2 ⟨hc, hbody⟩, rfl⟩
  · intro h
    obtain ⟨hbody, rfl⟩ := h
    induction body with
    | nil => rfl
    | cons c body ih =>
      obtain ⟨hc, hbody⟩ := List.forall_mem_cons.1 hbody
      simp only [closers, List.mem_cons, List.not_mem_nil, or_false, not_or] at hc
      rw [List.cons_append, splitClass, if_neg hc.1, if_neg (not_or.2 hc.2), ih hbody]

theorem parseItems_of_not_joins {c : Char} {cs : List Char} (h : joins cs = false) :
    parseItems (c :: cs) = (ClassItem.single c :: ·) <$> parseItems cs := by
  rw [parseItems.eq_3]
  intro high rest hcs
  rw [hcs] at h
  cases h

theorem parseItems_eq_ok_iff {body : List Char} {items : List ClassItem} :
    parseItems body = .ok items ↔ ProperItems items ∧ items.flatMap ClassItem.text = body := by
  apply Iff.intro
  · intro h
    induction body using parseItems.induct generalizing items with
    | case1 =>
      cases h
      exact ⟨trivial, rfl⟩
    | case2 low high cs hlt =>
      rw [parseItems, if_pos hlt] at h
      cases h
    | case3 low high cs hle ih =>
      rw [parseItems, if_neg hle, map_eq_ok_iff] at h
      obtain ⟨items', hitems', rfl⟩ := h
      obtain ⟨hproper, rfl⟩ := ih hitems'
      exact ⟨⟨Char.not_lt.1 hle, hproper⟩, rfl⟩
    | case4 c cs hsingle ih =>
      have hjoins : joins cs = false := by
        unfold joins
        split
        · exact absurd rfl (hsingle _ _)
        · rfl
      rw [parseItems_of_not_joins hjoins, map_eq_ok_iff] at h
      obtain ⟨items', hitems', rfl⟩ := h
      obtain ⟨hproper, rfl⟩ := ih hitems'
      exact ⟨⟨hjoins, hproper⟩, rfl⟩
  · intro h
    obtain ⟨hproper, rfl⟩ := h
    induction items with
    | nil => rfl
    | cons item items ih =>
      cases item with
      | single c =>
        change parseItems (c :: items.flatMap ClassItem.text) = _
        rw [parseItems_of_not_joins hproper.1, ih hproper.2]
        rfl
      | range low high =>
        change parseItems (low :: '-' :: high :: items.flatMap ClassItem.text) = _
        rw [parseItems, if_neg (Char.not_lt.2 hproper.1), ih hproper.2]
        rfl

theorem text_items_ne_nil {items : List ClassItem} (h : items ≠ []) :
    items.flatMap ClassItem.text ≠ [] := by
  cases items with
  | nil => exact absurd rfl h
  | cons item items => cases item <;> simp [ClassItem.text]

theorem parseMembers_eq_ok_iff {negated : Bool} {members : List Char} {e : Element} :
    (if members = [] then Except.error PatternFault.emptyClass
      else Element.oneOf negated <$> parseItems members) = .ok e ↔
      ∃ items, e = .oneOf negated items ∧ items ≠ [] ∧ ProperItems items ∧
        items.flatMap ClassItem.text = members := by
  apply Iff.intro
  · intro h
    split at h
    · cases h
    rename_i hmembers
    obtain ⟨items, hitems, rfl⟩ := map_eq_ok_iff.1 h
    obtain ⟨hproper, rfl⟩ := parseItems_eq_ok_iff.1 hitems
    refine ⟨items, rfl, fun hnil => ?_, hproper, rfl⟩
    rw [hnil] at hmembers
    exact hmembers rfl
  · intro h
    obtain ⟨items, rfl, hne, hproper, rfl⟩ := h
    rw [if_neg (text_items_ne_nil hne), parseItems_eq_ok_iff.2 ⟨hproper, rfl⟩]
    rfl

/-- A class is read from its body exactly if the body is how it is written between its brackets. -/
theorem parseClass_eq_ok_iff {body : List Char} {e : Element} (hbody : ∀ c ∈ body, c ∉ closers) :
    parseClass body = .ok e ↔
      ∃ negated items, e = .oneOf negated items ∧ e.Proper ∧ body = classBody negated items := by
  by_cases hmark : ∃ members, body = '!' :: members
  · obtain ⟨members, rfl⟩ := hmark
    have hread : parseClass ('!' :: members) = .ok e ↔
        ∃ items, e = .oneOf true items ∧ items ≠ [] ∧ ProperItems items ∧
          items.flatMap ClassItem.text = members := parseMembers_eq_ok_iff
    rw [hread]
    apply Iff.intro
    · intro h
      obtain ⟨items, rfl, hne, hproper, rfl⟩ := h
      exact ⟨true, items, rfl, ⟨hne, hproper, (List.forall_mem_cons.1 hbody).2, by simp⟩, rfl⟩
    · intro h
      obtain ⟨negated, items, rfl, ⟨hne, hproper, -, hhead⟩, htext⟩ := h
      cases negated with
      | true => exact ⟨items, rfl, hne, hproper, (List.cons.inj htext).2.symm⟩
      | false =>
        change '!' :: members = items.flatMap ClassItem.text at htext
        exact absurd (congrArg List.head? htext.symm) (hhead rfl)
  · have hhead : body.head? ≠ some '!' := by
      intro h
      exact hmark (List.head?_eq_some_iff.1 h)
    have hread : parseClass body = .ok e ↔
        ∃ items, e = .oneOf false items ∧ items ≠ [] ∧ ProperItems items ∧
          items.flatMap ClassItem.text = body := by
      have hnone : (body.head? == some '!') = false := by simpa using hhead
      rw [parseClass, hnone]
      exact parseMembers_eq_ok_iff
    rw [hread]
    apply Iff.intro
    · intro h
      obtain ⟨items, rfl, hne, hproper, rfl⟩ := h
      exact ⟨false, items, rfl, ⟨hne, hproper, hbody, fun _ => hhead⟩, rfl⟩
    · intro h
      obtain ⟨negated, items, rfl, ⟨hne, hproper, -, -⟩, htext⟩ := h
      cases negated with
      | true => exact absurd ⟨_, htext⟩ hmark
      | false => exact ⟨items, rfl, hne, hproper, htext.symm⟩

/-! ### Alternatives -/

theorem intercalate_nil_cons {choices : List (List Char)} (h : choices ≠ []) :
    List.intercalate [','] ([] :: choices) = ',' :: List.intercalate [','] choices := by
  cases choices with
  | nil => exact absurd rfl h
  | cons choice choices => simp [List.intercalate, List.intersperse]

theorem intercalate_extendFirst (c : Char) {choices : List (List Char)} (h : choices ≠ []) :
    List.intercalate [','] (extendFirst c choices) = c :: List.intercalate [','] choices := by
  cases choices with
  | nil => exact absurd rfl h
  | cons choice choices =>
    cases choices <;> simp [extendFirst, List.intercalate, List.intersperse]

/-- Choices reach up to the first closing brace, and are cut at every comma. -/
theorem proper_of_parseChoices {cs rest : List Char} {choices : List (List Char)}
    (h : parseChoices cs = .ok (choices, rest)) :
    (Element.alternatives choices).Proper ∧
      cs = List.intercalate [','] choices ++ '\x7d' :: rest := by
  induction cs generalizing choices with
  | nil => cases h
  | cons c cs ih =>
    rw [parseChoices] at h
    split at h
    · rename_i hclose
      cases h
      exact ⟨⟨by simp, by simp⟩, by rw [hclose]; rfl⟩
    split at h
    · rename_i hcomma
      split at h
      · cases h
      rename_i choices' rest' hothers
      cases h
      obtain ⟨⟨hne, hplain⟩, rfl⟩ := ih hothers
      refine ⟨⟨by simp, List.forall_mem_cons.2 ⟨by simp, hplain⟩⟩, ?_⟩
      rw [intercalate_nil_cons hne, hcomma]
      rfl
    split at h
    · cases h
    rename_i hc
    split at h
    · cases h
    rename_i choices' rest' hothers
    cases h
    obtain ⟨⟨hne, hplain⟩, rfl⟩ := ih hothers
    rw [intercalate_extendFirst c hne]
    cases choices' with
    | nil => exact absurd rfl hne
    | cons choice choices' =>
      obtain ⟨hchoice, hplain⟩ := List.forall_mem_cons.1 hplain
      exact ⟨⟨by simp [extendFirst], List.forall_mem_cons.2
        ⟨List.forall_mem_cons.2 ⟨hc, hchoice⟩, hplain⟩⟩, rfl⟩

theorem parseChoices_cons {c : Char} (hc : c ∉ Address.reserved) {cs rest : List Char}
    {choices : List (List Char)} (h : parseChoices cs = .ok (choices, rest)) :
    parseChoices (c :: cs) = .ok (extendFirst c choices, rest) := by
  have hclose : c ≠ '\x7d' := by
    intro heq
    rw [heq] at hc
    exact hc (by decide)
  have hcomma : c ≠ ',' := by
    intro heq
    rw [heq] at hc
    exact hc (by decide)
  rw [parseChoices, if_neg hclose, if_neg hcomma, if_neg hc, h]

theorem parseChoices_intercalate {choices : List (List Char)}
    (h : (Element.alternatives choices).Proper) (rest : List Char) :
    parseChoices (List.intercalate [','] choices ++ '\x7d' :: rest) = .ok (choices, rest) := by
  obtain ⟨hne, hplain⟩ := h
  induction choices with
  | nil => exact absurd rfl hne
  | cons choice choices ih =>
    obtain ⟨hchoice, hothers⟩ := List.forall_mem_cons.1 hplain
    clear hne hplain
    -- The first choice is read character by character, in front of the others.
    induction choice with
    | nil =>
      cases choices with
      | nil => rfl
      | cons next choices =>
        rw [intercalate_nil_cons (by simp), List.cons_append, parseChoices, if_neg (by decide),
          if_pos rfl, ih (by simp) hothers]
    | cons c choice ihc =>
      obtain ⟨hc, hchoice⟩ := List.forall_mem_cons.1 hchoice
      have hextend : (c :: choice) :: choices = extendFirst c (choice :: choices) := rfl
      rw [hextend, intercalate_extendFirst c (by simp), List.cons_append,
        parseChoices_cons hc (ihc hchoice)]

/-! ### Patterns -/

theorem text_oneOf_append (negated : Bool) (items : List ClassItem) (rest : List Char) :
    (Element.oneOf negated items).text ++ rest = '[' :: (classBody negated items ++ ']' :: rest) := by
  simp [Element.text, classBody]

theorem text_alternatives_append (choices : List (List Char)) (rest : List Char) :
    (Element.alternatives choices).text ++ rest =
      '\x7b' :: (List.intercalate [','] choices ++ '\x7d' :: rest) := by
  simp [Element.text]

theorem mem_classBody {negated : Bool} {items : List ClassItem}
    (h : (Element.oneOf negated items).Proper) : ∀ c ∈ classBody negated items, c ∉ closers := by
  obtain ⟨-, -, hclosers, -⟩ := h
  apply List.forall_mem_append.2 ⟨_, hclosers⟩
  cases negated <;> simp [closers]

theorem ne_of_proper_char {c special : Char} (h : (Element.char c).Proper)
    (hspecial : special ∈ Address.reserved) (hcomma : special ≠ ',') : c ≠ special := by
  intro heq
  subst heq
  rcases h with h | h
  · exact h hspecial
  · exact hcomma h

theorem parse_text_append {e : Element} (h : e.Proper) (rest : List Char) :
    parse (e.text ++ rest) = (e :: ·) <$> parse rest := by
  cases e with
  | char c =>
    have hplain : ¬ (c ∈ Address.reserved ∧ c ≠ ',') := fun hc => h.elim (absurd hc.1) (absurd · hc.2)
    change parse (c :: rest) = _
    rw [parse, if_neg (ne_of_proper_char h (by decide) (by decide)),
      if_neg (ne_of_proper_char h (by decide) (by decide)),
      if_neg (ne_of_proper_char h (by decide) (by decide)),
      if_neg (ne_of_proper_char h (by decide) (by decide)), if_neg hplain]
  | anyChar =>
    change parse ('?' :: rest) = _
    rw [parse, if_pos rfl]
  | anyRun =>
    change parse ('*' :: rest) = _
    rw [parse, if_neg (by decide), if_pos rfl]
  | oneOf negated items =>
    have hsplit := splitClass_eq_ok_iff.2 ⟨mem_classBody h, @rfl _ (_ ++ ']' :: rest)⟩
    have hclass := (parseClass_eq_ok_iff (mem_classBody h)).2 ⟨negated, items, rfl, h, rfl⟩
    rw [text_oneOf_append, parse, if_neg (by decide), if_neg (by decide), if_pos rfl]
    split
    · rename_i fault herror
      rw [hsplit] at herror
      cases herror
    · rename_i body rest' hok
      rw [hsplit] at hok
      cases hok
      rw [hclass, ok_bind]
  | alternatives choices =>
    have hchoices := parseChoices_intercalate h rest
    rw [text_alternatives_append, parse, if_neg (by decide), if_neg (by decide), if_neg (by decide),
      if_pos rfl]
    split
    · rename_i fault herror
      rw [hchoices] at herror
      cases herror
    · rename_i choices' rest' hok
      rw [hchoices] at hok
      cases hok
      rfl

theorem exists_of_parse_cons {c : Char} {cs : List Char} {es : List Element}
    (h : parse (c :: cs) = .ok es) :
    ∃ e es' rest, e.Proper ∧ c :: cs = e.text ++ rest ∧ es = e :: es' ∧ parse rest = .ok es' := by
  rw [parse] at h
  by_cases hquery : c = '?'
  · rw [if_pos hquery, map_eq_ok_iff] at h
    obtain ⟨es', hrest, rfl⟩ := h
    exact ⟨.anyChar, es', cs, trivial, by rw [hquery]; rfl, rfl, hrest⟩
  rw [if_neg hquery] at h
  by_cases hstar : c = '*'
  · rw [if_pos hstar, map_eq_ok_iff] at h
    obtain ⟨es', hrest, rfl⟩ := h
    exact ⟨.anyRun, es', cs, trivial, by rw [hstar]; rfl, rfl, hrest⟩
  rw [if_neg hstar] at h
  by_cases hbracket : c = '['
  · rw [if_pos hbracket] at h
    split at h
    · cases h
    rename_i body rest hsplit
    obtain ⟨hbody, rfl⟩ := splitClass_eq_ok_iff.1 hsplit
    obtain ⟨e, hclass, htail⟩ := bind_eq_ok_iff.1 h
    obtain ⟨es', hrest, rfl⟩ := map_eq_ok_iff.1 htail
    obtain ⟨negated, items, rfl, hproper, rfl⟩ := (parseClass_eq_ok_iff hbody).1 hclass
    exact ⟨_, es', rest, hproper, by rw [hbracket, text_oneOf_append], rfl, hrest⟩
  rw [if_neg hbracket] at h
  by_cases hbrace : c = '\x7b'
  · rw [if_pos hbrace] at h
    split at h
    · cases h
    rename_i choices rest hchoices
    obtain ⟨hproper, rfl⟩ := proper_of_parseChoices hchoices
    obtain ⟨es', hrest, rfl⟩ := map_eq_ok_iff.1 h
    exact ⟨_, es', rest, hproper, by rw [hbrace, text_alternatives_append], rfl, hrest⟩
  rw [if_neg hbrace] at h
  split at h
  · cases h
  rename_i hplain
  obtain ⟨es', hrest, rfl⟩ := map_eq_ok_iff.1 h
  have hproper : (Element.char c).Proper := by
    by_cases hcomma : c = ','
    · exact .inr hcomma
    · exact .inl fun hreserved => hplain ⟨hreserved, hcomma⟩
  exact ⟨.char c, es', cs, hproper, rfl, rfl, hrest⟩

theorem text_ne_nil (e : Element) : e.text ≠ [] := by
  cases e <;> simp [Element.text]

/-- A pattern is read exactly as the elements that it spells. -/
theorem parse_eq_ok_iff {cs : List Char} {es : List Element} : parse cs = .ok es ↔ Spells es cs := by
  apply Iff.intro
  · intro h
    induction hlength : cs.length using Nat.strongRecOn generalizing cs es with
    | ind length ih =>
    subst hlength
    cases cs with
    | nil =>
      rw [parse] at h
      cases h
      exact ⟨by simp, rfl⟩
    | cons c cs =>
      obtain ⟨e, es', rest, hproper, htext, rfl, hrest⟩ := exists_of_parse_cons h
      have hshorter : rest.length < (c :: cs).length := by
        have hpos := List.length_pos_iff.2 (text_ne_nil e)
        rw [htext, List.length_append]
        omega
      obtain ⟨hothers, rfl⟩ := ih rest.length hshorter hrest rfl
      exact ⟨List.forall_mem_cons.2 ⟨hproper, hothers⟩, htext.symm⟩
  · intro h
    obtain ⟨hproper, rfl⟩ := h
    induction es with
    | nil => rw [List.flatMap_nil, parse]
    | cons e es ih =>
      obtain ⟨he, hothers⟩ := List.forall_mem_cons.1 hproper
      rw [List.flatMap_cons, parse_text_append he, ih hothers]
      rfl

end OpenSound.Pattern
