import Mathlib.Tactic.Choose
import OpenSound.Pattern.Matching
import OpenSound.Proofs.Expressions
import OpenSound.Proofs.Grammar
/-!
# What the expression of a pattern stands for

The regular expression of tokens is a tree besides a text (`Token.regex`), and its text is the one that
patterns are compiled to, whatever the engine does to escape a text (`Escapes`). No character of a
pattern gets a meaning on the way, in a class or outside. Searched from the start of an address to its
end, the expression is found exactly if the address can be cut into pieces for the elements.
-/

namespace OpenSound.Pattern

open Regex (Literal Member Term Stands)

/-! ### Tokens stand for their elements -/

def Token.elements : Token → List Element
  | literal text => text.map .char
  | anyChar => [.anyChar]
  | anyRun => [.anyRun]
  | oneOf negated items => [.oneOf negated items]
  | alternatives choices => [.alternatives choices]

variable {e : Element} {es es' : List Element} {text : List Char} {ts : List Token}

theorem covers_cons_iff :
    Covers (e :: es) text ↔ ∃ front rest, text = front ++ rest ∧ e.Covers front ∧ Covers es rest := by
  apply Iff.intro
  · intro h
    cases h with
    | cons hfront hrest => exact ⟨_, _, rfl, hfront, hrest⟩
  · intro h
    obtain ⟨front, rest, rfl, hfront, hrest⟩ := h
    exact .cons hfront hrest

theorem covers_append_iff :
    Covers (es ++ es') text ↔ ∃ front rest, text = front ++ rest ∧ Covers es front ∧ Covers es' rest := by
  induction es generalizing text with
  | nil =>
    apply Iff.intro
    · intro h
      exact ⟨[], text, rfl, .nil, h⟩
    · intro h
      obtain ⟨_, _, rfl, hnil, h⟩ := h
      cases hnil
      exact h
  | cons e es ih =>
    rw [List.cons_append, covers_cons_iff]
    apply Iff.intro
    · intro h
      obtain ⟨front, _, rfl, hfront, h⟩ := h
      obtain ⟨middle, rest, rfl, hmiddle, hrest⟩ := ih.1 h
      exact ⟨front ++ middle, rest, by rw [List.append_assoc], .cons hfront hmiddle, hrest⟩
    · intro h
      obtain ⟨_, rest, rfl, h, hrest⟩ := h
      obtain ⟨front, middle, rfl, hfront, hmiddle⟩ := covers_cons_iff.1 h
      exact ⟨front, middle ++ rest, by rw [List.append_assoc], hfront,
        ih.2 ⟨middle, rest, rfl, hmiddle, hrest⟩⟩

theorem covers_map_char_iff {cs : List Char} : Covers (cs.map .char) text ↔ text = cs := by
  induction cs generalizing text with
  | nil =>
    apply Iff.intro
    · intro h
      cases h
      rfl
    · intro h
      rw [h]
      exact .nil
  | cons c cs ih =>
    rw [List.map_cons, covers_cons_iff]
    apply Iff.intro
    · intro h
      obtain ⟨_, rest, rfl, hfront, hrest⟩ := h
      cases hfront
      rw [ih.1 hrest]
      rfl
    · intro h
      exact ⟨[c], cs, h, .char c, ih.2 rfl⟩

/-- Two runs of any length are one such run. -/
theorem covers_anyRun_anyRun_iff :
    Covers (.anyRun :: .anyRun :: es) text ↔ Covers (.anyRun :: es) text := by
  apply Iff.intro
  · intro h
    obtain ⟨front, _, rfl, -, h⟩ := covers_cons_iff.1 h
    obtain ⟨middle, rest, rfl, -, hrest⟩ := covers_cons_iff.1 h
    exact covers_cons_iff.2 ⟨front ++ middle, rest, by rw [List.append_assoc], .anyRun _, hrest⟩
  · intro h
    exact covers_cons_iff.2 ⟨[], text, rfl, .anyRun [], h⟩

theorem covers_push_iff :
    Covers ((Token.push e ts).flatMap Token.elements) text ↔
      Covers (e :: ts.flatMap Token.elements) text := by
  unfold Token.push
  split
  case h_4 => exact covers_anyRun_anyRun_iff.symm
  all_goals rfl

theorem covers_tokens_iff : Covers ((tokens es).flatMap Token.elements) text ↔ Covers es text := by
  induction es generalizing text with
  | nil => rfl
  | cons e es ih =>
    change Covers ((Token.push e (tokens es)).flatMap Token.elements) text ↔ _
    rw [covers_push_iff, covers_cons_iff, covers_cons_iff]
    simp only [ih]

theorem elements_push_subset :
    (Token.push e ts).flatMap Token.elements ⊆ e :: ts.flatMap Token.elements := by
  unfold Token.push
  split
  case h_4 => exact List.subset_cons_self _ _
  all_goals exact List.Subset.refl _

/-- No token holds more than the pattern does. -/
theorem elements_tokens_subset : (tokens es).flatMap Token.elements ⊆ es := by
  induction es with
  | nil => exact List.Subset.refl _
  | cons e es ih => exact List.Subset.trans elements_push_subset (List.cons_subset_cons e ih)

/-! ### The tree of the expression -/

def memberLiteral (c : Char) : Literal := ⟨c, ['\\', '[', ']', '^', '-', '&', '~'].contains c⟩

def ClassItem.member : ClassItem → Member
  | single c => .single (memberLiteral c)
  | range low high => .range (memberLiteral low) (memberLiteral high)

/-- The terms of a token, for a way to write texts. -/
def Token.terms (written : List Char → List Literal) : Token → List Term
  | literal text => (written text).map fun l => .one (.literal l)
  | anyChar => [.one .dot]
  | anyRun => [.many .dot]
  | oneOf negated items => [.one (.oneOf negated (items.map ClassItem.member))]
  | alternatives choices => [.group (choices.map written)]

def Token.regex (written : List Char → List Literal) (ts : List Token) : Regex :=
  ⟨true, .start :: ts.flatMap (Token.terms written) ++ [.finish]⟩

/-- Texts that are escaped are written like this, and nothing in them has a meaning. -/
def Escapes (escape : String → String) (written : List Char → List Literal) : Prop :=
  ∀ text, (∀ l ∈ written text, l.Proper Regex.special) ∧ (written text).map Literal.char = text ∧
    (escape (String.ofList text)).toList = (written text).flatMap Literal.text

theorem exists_escapes {engine : Regex.Engine} (h : engine.Documented) :
    ∃ written, Escapes engine.escape written := by
  choose written hproper hchars htext using h.escape
  refine ⟨fun text => written (String.ofList text), fun text => ⟨hproper _, ?_, htext _⟩⟩
  rw [hchars, String.toList_ofList]

theorem escapes_marking : Escapes Regex.Engine.marking.escape Regex.escaped := by
  intro text
  refine ⟨Regex.forall_mem_escaped text, Regex.map_char_escaped text, ?_⟩
  rw [Regex.toList_escape, String.toList_ofList]

/-! ### Its text -/

section

variable {escape : String → String} {written : List Char → List Literal}

theorem text_memberLiteral (c : Char) : (memberLiteral c).text = escapeMember c := by
  unfold memberLiteral escapeMember Literal.text
  simp only [List.contains_iff_mem]

theorem text_member (item : ClassItem) :
    item.member.written.flatMap Literal.text = item.expression := by
  cases item with
  | single c => simp [ClassItem.member, ClassItem.expression, Member.written, text_memberLiteral]
  | range low high =>
    simp only [ClassItem.member, ClassItem.expression, Member.written, List.flatMap_cons,
      List.flatMap_nil, List.append_nil, text_memberLiteral]
    rfl

theorem flatMap_intercalate {α β : Type} (f : α → List β) (x : α) (choices : List (List α)) :
    (List.intercalate [x] choices).flatMap f =
      List.intercalate (f x) (choices.map fun choice => choice.flatMap f) := by
  induction choices with
  | nil => rfl
  | cons choice choices ih =>
    cases choices with
    | nil => simp [List.intercalate]
    | cons next choices =>
      rw [List.map_cons, List.map_cons, List.intercalate_cons_cons, List.intercalate_cons_cons,
        List.flatMap_append, List.flatMap_append, List.flatMap_singleton, ih, List.map_cons]

theorem text_terms (h : Escapes escape written) (t : Token) :
    ((t.terms written).flatMap Term.written).flatMap Literal.text = t.expression escape := by
  cases t with
  | literal text =>
    have hterms : ((written text).map fun l => Term.one (.literal l)).flatMap Term.written =
        written text := by
      rw [List.flatMap_map]
      exact List.flatMap_singleton' _
    rw [Token.terms, hterms, Token.expression, (h text).2.2]
  | anyChar => rfl
  | anyRun => rfl
  | oneOf negated items =>
    have hmembers : ((items.map ClassItem.member).flatMap Member.written).flatMap Literal.text =
        items.flatMap ClassItem.expression := by
      rw [List.flatMap_map, List.flatMap_assoc]
      simp only [text_member]
    rw [Token.terms, Token.expression, ← hmembers]
    cases negated with
    | true => simp [Term.written, Regex.Single.written, Regex.bare, Literal.text]
    | false => simp [Term.written, Regex.Single.written, Regex.bare, Literal.text]
  | alternatives choices =>
    have hchoices : (List.intercalate [Regex.bare '|'] (choices.map written)).flatMap Literal.text =
        List.intercalate ['|'] (choices.map fun choice => (escape (String.ofList choice)).toList) := by
      rw [flatMap_intercalate, List.map_map]
      congr 1
      exact List.map_congr_left fun choice _ => (h choice).2.2.symm
    rw [Token.terms, Token.expression, ← hchoices]
    simp [Term.written, Regex.bare, Literal.text]

theorem text_regex (h : Escapes escape written) (ts : List Token) :
    (Token.regex written ts).text = expression escape ts := by
  have hterms : ((ts.flatMap (Token.terms written)).flatMap Term.written).flatMap Literal.text =
      ts.flatMap (Token.expression escape) := by
    rw [List.flatMap_assoc, List.flatMap_assoc]
    refine congrArg (ts.flatMap ·) (funext fun t => ?_)
    rw [← text_terms h, List.flatMap_assoc]
  unfold Regex.text Regex.written Token.regex expression
  rw [← hterms]
  simp [Regex.flag, Regex.bare, Literal.text, Term.written]

/-! ### It is proper -/

theorem proper_memberLiteral (c : Char) : (memberLiteral c).Proper Regex.specialInClass :=
  Literal.proper_contains (by decide) c

theorem le_of_properItems {items : List ClassItem} (h : ProperItems items) :
    ∀ low high, .range low high ∈ items → low ≤ high := by
  induction items with
  | nil => exact fun _ _ => nofun
  | cons item items ih =>
    intro low high hmem
    cases item with
    | single c =>
      rcases List.mem_cons.1 hmem with heq | hmem
      · cases heq
      · exact ih h.2 low high hmem
    | range low' high' =>
      rcases List.mem_cons.1 hmem with heq | hmem
      · cases heq
        exact h.1
      · exact ih h.2 low high hmem

theorem proper_terms (h : Escapes escape written) {t : Token} (hproper : ∀ e ∈ t.elements, e.Proper) :
    ∀ term ∈ t.terms written, term.Proper := by
  cases t with
  | literal text =>
    intro term hterm
    obtain ⟨l, hl, rfl⟩ := List.mem_map.1 hterm
    exact (h text).1 l hl
  | anyChar => exact List.forall_mem_singleton.2 trivial
  | anyRun => exact List.forall_mem_singleton.2 trivial
  | oneOf negated items =>
    obtain ⟨hne, hitems, -⟩ := hproper _ (List.mem_singleton_self _)
    refine List.forall_mem_singleton.2 ⟨mt List.map_eq_nil_iff.1 hne, fun m hm => ?_⟩
    obtain ⟨item, hitem, rfl⟩ := List.mem_map.1 hm
    cases item with
    | single c => exact proper_memberLiteral c
    | range low high =>
      exact ⟨proper_memberLiteral low, proper_memberLiteral high, le_of_properItems hitems _ _ hitem⟩
  | alternatives choices =>
    obtain ⟨hne, -⟩ := hproper _ (List.mem_singleton_self _)
    refine List.forall_mem_singleton.2 ⟨mt List.map_eq_nil_iff.1 hne, fun choice hchoice => ?_⟩
    obtain ⟨text, -, rfl⟩ := List.mem_map.1 hchoice
    exact (h text).1

theorem proper_regex (h : Escapes escape written) (hproper : ∀ e ∈ es, e.Proper) :
    (Token.regex written (tokens es)).Proper := by
  have hterms : ∀ term ∈ (tokens es).flatMap (Token.terms written), term.Proper := by
    intro term hterm
    obtain ⟨t, ht, hterm⟩ := List.mem_flatMap.1 hterm
    refine proper_terms h (fun e he => ?_) term hterm
    exact hproper e (elements_tokens_subset (List.mem_flatMap.2 ⟨t, ht, he⟩))
  unfold Regex.Proper Token.regex
  exact List.forall_mem_append.2
    ⟨List.forall_mem_cons.2 ⟨trivial, hterms⟩, List.forall_mem_singleton.2 trivial⟩

/-! ### What it stands for -/

theorem stands_append_iff {dotAll : Bool} {front back : List Term} {before piece behind : List Char} :
    Stands dotAll (front ++ back) before piece behind ↔
      ∃ x y, piece = x ++ y ∧ Stands dotAll front before x (y ++ behind) ∧
        Stands dotAll back (before ++ x) y behind := by
  induction front generalizing before piece with
  | nil =>
    apply Iff.intro
    · intro h
      exact ⟨[], piece, rfl, .nil _ _, by rwa [List.append_nil]⟩
    · intro h
      obtain ⟨_, y, rfl, hnil, h⟩ := h
      cases hnil
      rwa [List.append_nil] at h
  | cons t front ih =>
    apply Iff.intro
    · intro h
      cases h with
      | @cons _ _ _ x _ _ hhead htail =>
        obtain ⟨y, z, rfl, hfront, hback⟩ := ih.1 htail
        rw [List.append_assoc] at hhead hback
        exact ⟨x ++ y, z, by rw [List.append_assoc], .cons hhead hfront, hback⟩
    · intro h
      obtain ⟨_, z, rfl, hfront, hback⟩ := h
      cases hfront with
      | @cons _ _ _ x y _ hhead htail =>
        rw [← List.append_assoc] at hhead hback
        rw [List.append_assoc]
        exact .cons hhead (ih.2 ⟨y, z, rfl, htail, hback⟩)

theorem stands_singleton_iff {dotAll : Bool} {t : Term} {before piece behind : List Char} :
    Stands dotAll [t] before piece behind ↔ t.Stands dotAll before piece behind := by
  apply Iff.intro
  · intro h
    cases h with
    | cons hhead htail =>
      cases htail
      rwa [List.append_nil]
  · intro h
    have hall := Stands.cons (by rwa [List.nil_append]) (.nil (before ++ piece) behind)
    rwa [List.append_nil] at hall

theorem stands_literals_iff {dotAll : Bool} {ls : List Literal} {before piece behind : List Char} :
    Stands dotAll (ls.map fun l => .one (.literal l)) before piece behind ↔
      piece = ls.map Literal.char := by
  induction ls generalizing before piece with
  | nil =>
    apply Iff.intro
    · intro h
      cases h
      rfl
    · intro h
      rw [h]
      exact .nil _ _
  | cons l ls ih =>
    apply Iff.intro
    · intro h
      cases h with
      | cons hhead htail =>
        cases hhead with
        | one _ _ hc =>
          rw [ih.1 htail, hc]
          rfl
    · intro h
      rw [h]
      have hc : (Regex.Single.literal l).Admits dotAll l.char := rfl
      exact .cons (.one _ _ hc) (ih.2 rfl)

theorem contains_member_iff {item : ClassItem} {c : Char} :
    item.member.Contains c ↔ item.Contains c := by
  cases item <;> rfl

theorem admits_oneOf_iff {negated : Bool} {items : List ClassItem} {c : Char} :
    (Regex.Single.oneOf negated (items.map ClassItem.member)).Admits true c ↔
      (Element.oneOf negated items).Covers [c] := by
  have hlisted : (∃ m ∈ items.map ClassItem.member, m.Contains c) ↔ ∃ item ∈ items, item.Contains c := by
    simp [contains_member_iff]
  cases negated with
  | false =>
    apply hlisted.trans
    apply Iff.intro
    · exact .listed
    · intro h
      cases h with
      | listed h => exact h
  | true =>
    apply (not_congr hlisted).trans
    apply Iff.intro
    · exact .unlisted
    · intro h
      cases h with
      | unlisted h => exact h

theorem covers_singleton_iff : Covers [e] text ↔ e.Covers text := by
  rw [covers_cons_iff]
  apply Iff.intro
  · intro h
    obtain ⟨front, _, rfl, hfront, hnil⟩ := h
    cases hnil
    rwa [List.append_nil]
  · intro h
    exact ⟨text, [], (List.append_nil text).symm, h, .nil⟩

theorem stands_terms_iff (h : Escapes escape written) (t : Token) {before piece behind : List Char} :
    Stands true (t.terms written) before piece behind ↔ Covers t.elements piece := by
  cases t with
  | literal text =>
    rw [Token.terms, stands_literals_iff, (h text).2.1, Token.elements, covers_map_char_iff]
  | anyChar =>
    rw [Token.terms, stands_singleton_iff, Token.elements, covers_singleton_iff]
    apply Iff.intro
    · intro hstands
      cases hstands with
      | one => exact .anyChar _
    · intro hcovers
      cases hcovers with
      | anyChar => exact .one _ _ (.inl rfl)
  | anyRun =>
    rw [Token.terms, stands_singleton_iff, Token.elements, covers_singleton_iff]
    apply Iff.intro
    · intro _
      exact .anyRun piece
    · intro _
      exact .many _ _ fun _ _ => .inl rfl
  | oneOf negated items =>
    rw [Token.terms, stands_singleton_iff, Token.elements, covers_singleton_iff]
    apply Iff.intro
    · intro hstands
      cases hstands with
      | one _ _ hc => exact admits_oneOf_iff.1 hc
    · intro hcovers
      have hone : ∃ c, piece = [c] := by
        cases hcovers <;> exact ⟨_, rfl⟩
      obtain ⟨c, rfl⟩ := hone
      exact .one _ _ (admits_oneOf_iff.2 hcovers)
  | alternatives choices =>
    rw [Token.terms, stands_singleton_iff, Token.elements, covers_singleton_iff]
    apply Iff.intro
    · intro hstands
      cases hstands with
      | group _ _ hchoice =>
        obtain ⟨choice, hmem, rfl⟩ := List.mem_map.1 hchoice
        rw [(h choice).2.1]
        exact .choice hmem
    · intro hcovers
      cases hcovers with
      | choice hmem =>
        rw [← (h piece).2.1]
        exact .group _ _ (List.mem_map_of_mem hmem)

theorem stands_flatMap_terms_iff (h : Escapes escape written) {before piece behind : List Char} :
    Stands true (ts.flatMap (Token.terms written)) before piece behind ↔
      Covers (ts.flatMap Token.elements) piece := by
  induction ts generalizing before piece with
  | nil =>
    apply Iff.intro
    · intro h
      cases h
      exact .nil
    · intro h
      cases h
      exact .nil _ _
  | cons t ts ih =>
    rw [List.flatMap_cons, List.flatMap_cons, stands_append_iff, covers_append_iff]
    simp only [stands_terms_iff h, ih]

/-- The expression begins where an address does and ends where it ends, so it is the whole address that
stands for the elements. -/
theorem foundIn_regex_iff (h : Escapes escape written) :
    (Token.regex written (tokens es)).FoundIn text ↔ Covers es text := by
  rw [← covers_tokens_iff]
  apply Iff.intro
  · intro hfound
    obtain ⟨before, piece, behind, rfl, hstands⟩ := hfound
    obtain ⟨_, _, rfl, hfront, hfinish⟩ := stands_append_iff.1 hstands
    cases hfront with
    | cons hstart hbody =>
      cases hstart
      cases stands_singleton_iff.1 hfinish
      simpa using (stands_flatMap_terms_iff h).1 hbody
  · intro hcovers
    have hbody : Stands true ((tokens es).flatMap (Token.terms written)) [] text [] :=
      (stands_flatMap_terms_iff h).2 hcovers
    have hfinish : Stands true [.finish] text [] [] := stands_singleton_iff.2 (.finish text)
    refine ⟨[], text, [], by simp, stands_append_iff.2 ?_⟩
    exact ⟨text, [], (List.append_nil text).symm, .cons (.start _) hbody, hfinish⟩

end

end OpenSound.Pattern
