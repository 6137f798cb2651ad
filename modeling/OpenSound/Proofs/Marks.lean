import Mathlib.Logic.Basic
import OpenSound.Regex.Matching
/-!
# What the marks along a text say

A place in a text is given by the characters before and behind it. The invariant of a search is that the
marks tell which places have a property (`Marked`): that the terms so far stand for a piece that ends
there, wherever it begins. Sweeping a term over the marks adds the term to the property
(`Marked.sweep`), so after the last term there is a mark exactly if the expression is found
(`finds_eq_true_iff`). No place is ever left out, which is why no choice made early can lose a match.
-/

namespace OpenSound.Regex

/-- Along the characters that are left, the marks tell which places have the property: the first one,
each later one, and the end. -/
inductive Marked (P : List Char → List Char → Prop) :
    (front rest : List Char) → (marks : List Bool) → Prop where
  | last {front : List Char} {mark : Bool} (hmark : mark = true ↔ P front []) :
      Marked P front [] [mark]
  | next {front rest : List Char} {c : Char} {mark : Bool} {marks : List Bool}
      (hmark : mark = true ↔ P front (c :: rest)) (hrest : Marked P (front ++ [c]) rest marks) :
      Marked P front (c :: rest) (mark :: marks)

variable {P Q : List Char → List Char → Prop} {front rest haystack : List Char} {marks : List Bool}

namespace Marked

theorem congr (h : Marked P front rest marks) (heq : ∀ front rest, P front rest ↔ Q front rest) :
    Marked Q front rest marks := by
  induction h with
  | last hmark => exact .last (hmark.trans (heq _ _))
  | next hmark _ ih => exact .next (hmark.trans (heq _ _)) ih

theorem everywhere (front rest : List Char) :
    Marked (fun _ _ => True) front rest (true :: rest.map fun _ => true) := by
  induction rest generalizing front with
  | nil => exact .last (by simp)
  | cons c rest ih => exact .next (by simp) (ih _)

theorem nowhere (h : Marked P front rest marks) (hnone : ∀ before behind,
    front <+: before → ¬ Q before behind) : Marked Q front rest (marks.map fun _ => false) := by
  induction h with
  | last _ => exact .last (by simpa using hnone _ _ List.prefix_rfl)
  | next _ _ ih =>
    have hlater := ih fun before behind hinitial =>
      hnone before behind ((List.prefix_append _ _).trans hinitial)
    exact .next (by simpa using hnone _ _ List.prefix_rfl) hlater

theorem or (h : Marked P front rest marks) {marks' : List Bool} (h' : Marked Q front rest marks') :
    Marked (fun before behind => P before behind ∨ Q before behind) front rest
      (List.zipWith (· || ·) marks marks') := by
  induction h generalizing marks' with
  | last hmark =>
    cases h' with
    | last hmark' => exact .last (by rw [Bool.or_eq_true, hmark, hmark'])
  | next hmark _ ih =>
    cases h' with
    | next hmark' hrest' => exact .next (by rw [Bool.or_eq_true, hmark, hmark']) (ih hrest')

theorem contains_true_iff (h : Marked P front rest marks) :
    marks.contains true = true ↔ ∃ piece behind, rest = piece ++ behind ∧ P (front ++ piece) behind := by
  induction h with
  | @last front mark hmark =>
    have hempty : ∀ piece behind : List Char, [] = piece ++ behind ↔ piece = [] ∧ behind = [] := by
      simp
    simp only [hempty, and_assoc, exists_and_left, exists_eq_left, List.append_nil, ← hmark]
    cases mark <;> rfl
  | @next front rest c mark marks hmark _ ih =>
    rw [List.contains_cons, Bool.or_eq_true, ih, beq_iff_eq, eq_comm, hmark]
    apply Iff.intro
    · intro h
      rcases h with h | ⟨piece, behind, rfl, h⟩
      · exact ⟨[], c :: rest, rfl, by rwa [List.append_nil]⟩
      · exact ⟨c :: piece, behind, rfl, by rwa [List.append_assoc] at h⟩
    · intro h
      obtain ⟨piece, behind, heq, h⟩ := h
      cases piece with
      | nil =>
        cases heq
        exact .inl (by rwa [List.append_nil] at h)
      | cons x piece =>
        cases heq
        exact .inr ⟨piece, behind, rfl, by rwa [List.append_assoc]⟩

end Marked

/-! ### Moving on by a piece -/

/-- The places behind such a piece, if the place in front of the piece has the property. -/
def Behind (P : List Char → List Char → Prop) (pieces : List Char → Prop) (front rest : List Char) :
    Prop :=
  ∃ before piece, front = before ++ piece ∧ pieces piece ∧ P before (piece ++ rest)

variable {pieces others : List Char → Prop} {test : Char → Bool}

theorem behind_behind_iff :
    Behind (Behind P pieces) others front rest ↔
      Behind P (fun piece => ∃ x y, piece = x ++ y ∧ pieces x ∧ others y) front rest := by
  apply Iff.intro
  · intro h
    obtain ⟨_, y, rfl, hy, before, x, rfl, hx, h⟩ := h
    exact ⟨before, x ++ y, by rw [List.append_assoc], ⟨x, y, rfl, hx, hy⟩, by rwa [List.append_assoc]⟩
  · intro h
    obtain ⟨before, _, rfl, ⟨x, y, rfl, hx, hy⟩, h⟩ := h
    rw [List.append_assoc] at h
    exact ⟨before ++ x, y, by rw [List.append_assoc], hy, before, x, rfl, hx, h⟩

theorem behind_congr (heq : ∀ piece, pieces piece ↔ others piece) :
    Behind P pieces front rest ↔ Behind P others front rest := by
  simp only [Behind, heq]

theorem behind_nil_iff : Behind P (· = []) front rest ↔ P front rest := by
  apply Iff.intro
  · intro h
    obtain ⟨before, _, rfl, rfl, h⟩ := h
    rwa [List.append_nil]
  · intro h
    exact ⟨front, [], (List.append_nil front).symm, rfl, h⟩

/-- The pieces of one character that passes the test. -/
def OneChar (test : Char → Bool) (piece : List Char) : Prop := ∃ c, piece = [c] ∧ test c = true

theorem not_behind_oneChar_nil : ¬ Behind P (OneChar test) [] rest := by
  intro h
  obtain ⟨before, _, heq, ⟨c, rfl, -⟩, -⟩ := h
  cases before <;> cases heq

theorem behind_oneChar_concat_iff {c : Char} :
    Behind P (OneChar test) (front ++ [c]) rest ↔ P front (c :: rest) ∧ test c = true := by
  apply Iff.intro
  · intro h
    obtain ⟨before, _, heq, ⟨x, rfl, hx⟩, h⟩ := h
    obtain ⟨rfl, hsame⟩ := List.append_inj' heq rfl
    cases hsame
    exact ⟨h, hx⟩
  · intro h
    exact ⟨front, [c], rfl, ⟨c, rfl, h.2⟩, h.1⟩

theorem Marked.advance {first : Bool} (h : Marked P front rest marks)
    (hfirst : first = true ↔ Behind P (OneChar test) front rest) :
    Marked (Behind P (OneChar test)) front rest (first :: advance test rest marks) := by
  induction h generalizing first with
  | last _ => exact .last hfirst
  | next hmark _ ih =>
    apply Marked.next hfirst
    apply ih
    rw [behind_oneChar_concat_iff, Bool.and_eq_true, hmark]

theorem Marked.advance_start (h : Marked P [] haystack marks) :
    Marked (Behind P (OneChar test)) [] haystack (false :: Regex.advance test haystack marks) :=
  h.advance (by simp [not_behind_oneChar_nil])

/-! ### Any number of characters -/

/-- The pieces of characters that all pass the test. -/
def AllChars (test : Char → Bool) (piece : List Char) : Prop := ∀ c ∈ piece, test c = true

/-- A run ends where it begins, or else it is longer by the last character. -/
theorem behind_allChars_iff :
    Behind P (AllChars test) front rest ↔
      Behind P (fun piece => piece ≠ [] ∧ AllChars test piece) front rest ∨ P front rest := by
  apply Iff.intro
  · intro h
    obtain ⟨before, piece, rfl, hpiece, h⟩ := h
    by_cases hne : piece = []
    · subst hne
      exact .inr (by rwa [List.append_nil])
    · exact .inl ⟨before, piece, rfl, ⟨hne, hpiece⟩, h⟩
  · intro h
    rcases h with ⟨before, piece, rfl, ⟨-, hpiece⟩, h⟩ | h
    · exact ⟨before, piece, rfl, hpiece, h⟩
    · exact ⟨front, [], (List.append_nil front).symm, nofun, h⟩

theorem behind_longer_concat_iff {c : Char} :
    Behind P (fun piece => piece ≠ [] ∧ AllChars test piece) (front ++ [c]) rest ↔
      Behind P (AllChars test) front (c :: rest) ∧ test c = true := by
  apply Iff.intro
  · intro h
    obtain ⟨before, piece, heq, ⟨hne, hpiece⟩, h⟩ := h
    obtain ⟨piece, x, rfl⟩ := (List.eq_nil_or_concat piece).resolve_left hne
    rw [List.concat_eq_append] at heq hpiece h
    rw [← List.append_assoc] at heq
    obtain ⟨rfl, hsame⟩ := List.append_inj' heq rfl
    cases hsame
    obtain ⟨hshorter, hlast⟩ := List.forall_mem_append.1 hpiece
    rw [List.append_assoc] at h
    exact ⟨⟨before, piece, rfl, hshorter, h⟩, hlast c (List.mem_singleton_self c)⟩
  · intro h
    obtain ⟨⟨before, piece, rfl, hpiece, h⟩, hc⟩ := h
    refine ⟨before, piece ++ [c], by rw [List.append_assoc], ⟨by simp, ?_⟩, ?_⟩
    · exact List.forall_mem_append.2 ⟨hpiece, List.forall_mem_singleton.2 hc⟩
    · rwa [List.append_assoc]

theorem Marked.spread {carried : Bool} (h : Marked P front rest marks)
    (hcarried : carried = true ↔
      Behind P (fun piece => piece ≠ [] ∧ AllChars test piece) front rest) :
    Marked (Behind P (AllChars test)) front rest (spread test carried rest marks) := by
  induction h generalizing carried with
  | last hmark =>
    exact .last (by rw [Bool.or_eq_true, hcarried, hmark, ← behind_allChars_iff])
  | next hmark _ ih =>
    have hreached := (or_congr hcarried hmark).trans behind_allChars_iff.symm
    rw [← Bool.or_eq_true] at hreached
    apply Marked.next hreached
    apply ih
    rw [behind_longer_concat_iff, Bool.and_eq_true, hreached]

/-! ### One of several texts -/

theorem Marked.sweepText (h : Marked P [] haystack marks) (text : List Char) :
    Marked (Behind P (· = text)) [] haystack (sweepText haystack marks text) := by
  induction text generalizing P marks with
  | nil => exact h.congr fun _ _ => behind_nil_iff.symm
  | cons c text ih =>
    refine (ih h.advance_start).congr fun front rest => ?_
    rw [behind_behind_iff]
    apply behind_congr
    intro piece
    apply Iff.intro
    · intro h
      obtain ⟨x, y, rfl, ⟨c', rfl, hc⟩, rfl⟩ := h
      rw [beq_iff_eq.1 hc]
      rfl
    · intro h
      exact ⟨[c], text, h, ⟨c, rfl, beq_self_eq_true c⟩, rfl⟩

/-- Every choice starts from the same marks, and what each of them reaches is put together. -/
theorem Marked.foldl_choices {reached : List Bool} (h : Marked P [] haystack marks)
    (hreached : Marked Q [] haystack reached) (choices : List (List Literal)) :
    Marked (fun front rest => Q front rest ∨
        Behind P (fun piece => ∃ choice ∈ choices, piece = choice.map Literal.char) front rest) []
      haystack
      ((choices.map fun choice => Regex.sweepText haystack marks (choice.map Literal.char)).foldl
        (List.zipWith (· || ·)) reached) := by
  induction choices generalizing Q reached with
  | nil => exact hreached.congr fun _ _ => by simp [Behind]
  | cons choice choices ih =>
    refine (ih (hreached.or (h.sweepText (choice.map Literal.char)))).congr fun front rest => ?_
    rw [or_assoc]
    apply or_congr_right
    apply Iff.intro
    · intro h
      rcases h with ⟨before, piece, hfront, hpiece, h⟩ | ⟨before, piece, hfront, hpiece, h⟩
      · exact ⟨before, piece, hfront, ⟨choice, List.mem_cons_self, hpiece⟩, h⟩
      · obtain ⟨other, hmem, hpiece⟩ := hpiece
        exact ⟨before, piece, hfront, ⟨other, List.mem_cons_of_mem _ hmem, hpiece⟩, h⟩
    · intro h
      obtain ⟨before, piece, hfront, ⟨other, hmem, hpiece⟩, h⟩ := h
      rcases List.mem_cons.1 hmem with rfl | hmem
      · exact .inl ⟨before, piece, hfront, hpiece, h⟩
      · exact .inr ⟨before, piece, hfront, ⟨other, hmem, hpiece⟩, h⟩

/-! ### The two ends -/

theorem Marked.keepFirst (h : Marked P [] haystack marks) :
    Marked (fun front rest => front = [] ∧ P front rest) [] haystack (keepFirst marks) := by
  cases h with
  | last hmark => exact .last (by simpa using hmark)
  | next hmark hrest =>
    apply Marked.next (by simpa using hmark)
    apply hrest.nowhere
    intro before behind hinitial h
    rw [h.1] at hinitial
    simp at hinitial

theorem Marked.keepLast (h : Marked P front rest marks) :
    Marked (fun front rest => rest = [] ∧ P front rest) front rest (keepLast marks) := by
  induction h with
  | last hmark => exact .last (by simpa using hmark)
  | next _ hrest ih =>
    cases hrest with
    | last _ => exact .next (by simp) ih
    | next _ _ => exact .next (by simp) ih

/-! ### A whole expression -/

variable {dotAll : Bool}

/-- The places behind a piece that the term stands for. -/
def After (dotAll : Bool) (P : List Char → List Char → Prop) (t : Term) (front rest : List Char) : Prop :=
  ∃ before piece, front = before ++ piece ∧ t.Stands dotAll before piece rest ∧ P before (piece ++ rest)

/-- Sweeping a term over the marks adds it to the property. -/
theorem Marked.sweep (h : Marked P [] haystack marks) (t : Term) :
    Marked (After dotAll P t) [] haystack (sweep dotAll haystack marks t) := by
  cases t with
  | one s =>
    refine h.advance_start.congr fun front rest => ?_
    apply Iff.intro
    · intro h
      obtain ⟨before, _, rfl, ⟨c, rfl, hc⟩, h⟩ := h
      exact ⟨before, [c], rfl, .one before rest (of_decide_eq_true hc), h⟩
    · intro h
      obtain ⟨before, _, rfl, hstands, h⟩ := h
      cases hstands with
      | one _ _ hc => exact ⟨before, _, rfl, ⟨_, rfl, decide_eq_true hc⟩, h⟩
  | many s =>
    have hnone : false = true ↔ Behind P (fun piece => piece ≠ [] ∧
        AllChars (fun c => decide (s.Admits dotAll c)) piece) [] haystack := by
      simp [Behind]
    refine (h.spread hnone).congr fun front rest => ?_
    apply Iff.intro
    · intro h
      obtain ⟨before, piece, rfl, hpiece, h⟩ := h
      exact ⟨before, piece, rfl, .many before rest fun c hc => of_decide_eq_true (hpiece c hc), h⟩
    · intro h
      obtain ⟨before, piece, rfl, hstands, h⟩ := h
      cases hstands with
      | many _ _ hpiece => exact ⟨before, piece, rfl, fun c hc => decide_eq_true (hpiece c hc), h⟩
  | group choices =>
    have hnowhere := h.nowhere (Q := fun _ _ => False) fun _ _ _ => id
    refine (h.foldl_choices hnowhere choices).congr fun front rest => ?_
    rw [false_or]
    apply Iff.intro
    · intro h
      obtain ⟨before, _, rfl, ⟨choice, hmem, rfl⟩, h⟩ := h
      exact ⟨before, _, rfl, .group before rest hmem, h⟩
    · intro h
      obtain ⟨before, _, rfl, hstands, h⟩ := h
      cases hstands with
      | group _ _ hmem => exact ⟨before, _, rfl, ⟨_, hmem, rfl⟩, h⟩
  | start =>
    refine h.keepFirst.congr fun front rest => ?_
    apply Iff.intro
    · intro h
      obtain ⟨rfl, h⟩ := h
      exact ⟨[], [], rfl, .start rest, h⟩
    · intro h
      obtain ⟨before, _, rfl, hstands, h⟩ := h
      cases hstands with
      | start _ => exact ⟨rfl, h⟩
  | finish =>
    refine h.keepLast.congr fun front rest => ?_
    apply Iff.intro
    · intro h
      obtain ⟨rfl, h⟩ := h
      exact ⟨front, [], (List.append_nil front).symm, .finish front, h⟩
    · intro h
      obtain ⟨before, _, rfl, hstands, h⟩ := h
      cases hstands with
      | finish _ => exact ⟨rfl, by rwa [List.append_nil]⟩

theorem Marked.foldl_sweep (h : Marked P [] haystack marks) (ts : List Term) :
    Marked (fun front rest => ∃ before piece, front = before ++ piece ∧
        Stands dotAll ts before piece rest ∧ P before (piece ++ rest)) [] haystack
      (ts.foldl (Regex.sweep dotAll haystack) marks) := by
  induction ts generalizing P marks with
  | nil =>
    refine h.congr fun front rest => ?_
    apply Iff.intro
    · intro h
      exact ⟨front, [], (List.append_nil front).symm, .nil front rest, h⟩
    · intro h
      obtain ⟨before, _, rfl, hstands, h⟩ := h
      cases hstands
      rwa [List.append_nil]
  | cons t ts ih =>
    refine (ih (h.sweep t)).congr fun front rest => ?_
    apply Iff.intro
    · intro h
      obtain ⟨_, back, rfl, htail, before, piece, rfl, hhead, h⟩ := h
      refine ⟨before, piece ++ back, by rw [List.append_assoc], .cons hhead htail, ?_⟩
      rwa [List.append_assoc]
    · intro h
      obtain ⟨before, _, rfl, hstands, h⟩ := h
      cases hstands with
      | @cons _ _ _ piece back _ hhead htail =>
        rw [List.append_assoc] at h
        exact ⟨before ++ piece, back, by rw [List.append_assoc], htail, before, piece, rfl, hhead, h⟩

/-- A mark is left exactly if the expression is found. -/
theorem finds_eq_true_iff {r : Regex} : r.finds haystack = true ↔ r.FoundIn haystack := by
  have hmarks := @Marked.foldl_sweep _ _ _ r.dotAll (Marked.everywhere [] haystack) r.terms
  rw [finds, hmarks.contains_true_iff]
  apply Iff.intro
  · intro h
    obtain ⟨_, behind, rfl, before, piece, hfront, hstands, -⟩ := h
    rw [List.nil_append] at hfront
    exact ⟨before, piece, behind, by rw [hfront], hstands⟩
  · intro h
    obtain ⟨before, piece, behind, rfl, hstands⟩ := h
    exact ⟨before ++ piece, behind, rfl, before, piece, rfl, hstands, trivial⟩

end OpenSound.Regex
