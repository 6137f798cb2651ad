import OpenSound.Proofs.Marks
/-!
# Expressions are read as they are written

No character that stands for itself looks like one with a meaning, so an expression can be read off its
text: characters first, then terms, each from its first character on. The engine that reads expressions
like this and searches with marks keeps what engines promise (`Engine.documented_marking`), and it
refuses no expression.
-/

namespace OpenSound

theorem mem_intercalate {α : Type} {x y : α} {choices : List (List α)}
    (h : y ∈ List.intercalate [x] choices) : y = x ∨ ∃ choice ∈ choices, y ∈ choice := by
  induction choices with
  | nil => cases h
  | cons choice choices ih =>
    cases choices with
    | nil => exact .inr ⟨choice, List.mem_cons_self, by simpa [List.intercalate] using h⟩
    | cons next choices =>
      rw [List.intercalate_cons_cons, List.append_assoc, List.mem_append, List.mem_append,
        List.mem_singleton] at h
      rcases h with hchoice | heq | hothers
      · exact .inr ⟨choice, List.mem_cons_self, hchoice⟩
      · exact .inl heq
      · refine (ih hothers).imp_right fun ⟨piece, hpiece, hy⟩ => ?_
        exact ⟨piece, List.mem_cons_of_mem _ hpiece, hy⟩

namespace Regex

/-! ### Characters -/

namespace Literal

variable {reserved : List Char} {l : Literal} {c : Char}

theorem Proper.ne_bare (h : l.Proper reserved) (hc : c ∈ reserved) : l ≠ bare c := by
  intro heq
  subst heq
  exact h hc

/-- Only a backslash stands in the way of cutting a text into characters. -/
theorem Proper.readable (h : l.Proper reserved) (hbackslash : '\\' ∈ reserved) : l.Proper ['\\'] := by
  obtain ⟨c, escaped⟩ := l
  cases escaped with
  | true => exact h
  | false =>
    intro hc
    obtain rfl : c = '\\' := List.mem_singleton.1 hc
    exact h hbackslash

/-- Characters with a meaning behind a backslash, and all others as they stand. -/
theorem proper_contains (hescapable : reserved.all escapable = true) (c : Char) :
    (⟨c, reserved.contains c⟩ : Literal).Proper reserved := by
  cases hc : reserved.contains c with
  | true => exact List.all_eq_true.1 hescapable c (List.contains_iff_mem.1 hc)
  | false =>
    intro hmem
    rw [List.contains_iff_mem.2 hmem] at hc
    cases hc

end Literal

theorem literals?_text_append {l : Literal} (h : l.Proper ['\\']) (rest : List Char) :
    literals? (l.text ++ rest) = (l :: ·) <$> literals? rest := by
  obtain ⟨c, escaped⟩ := l
  cases escaped with
  | true =>
    have hc : escapable c = true := h
    change literals? ('\\' :: c :: rest) = _
    rw [literals?, if_pos hc]
  | false =>
    have hc : c ≠ '\\' := fun heq => h (List.mem_singleton.2 heq)
    change literals? (c :: rest) = _
    rw [literals?]
    · rfl
    · exact fun heq => absurd heq hc
    · exact fun _ _ heq => absurd heq hc

theorem literals?_flatMap_text {ls : List Literal} (h : ∀ l ∈ ls, l.Proper ['\\']) :
    literals? (ls.flatMap Literal.text) = some ls := by
  induction ls with
  | nil => rfl
  | cons l ls ih =>
    obtain ⟨hl, hls⟩ := List.forall_mem_cons.1 h
    rw [List.flatMap_cons, literals?_text_append hl, ih hls]
    rfl

/-! ### Brackets -/

theorem cut?_append {close : Literal} {body : List Literal} (h : close ∉ body) (rest : List Literal) :
    cut? close (body ++ close :: rest) = some (body, rest) := by
  induction body with
  | nil => rw [List.nil_append, cut?, if_pos rfl]
  | cons l body ih =>
    obtain ⟨hl, hbody⟩ := not_or.1 (mt List.mem_cons.2 h)
    rw [List.cons_append, cut?, if_neg (Ne.symm hl), ih hbody]

/-! ### Classes -/

variable {ms : List Member}

theorem Member.exists_written_eq (m : Member) (h : m.Proper) :
    ∃ l ls, m.written = l :: ls ∧ l.Proper specialInClass := by
  cases m with
  | single l => exact ⟨l, [], rfl, h⟩
  | range low high => exact ⟨low, _, rfl, h.1⟩

/-- What is written in a class begins with none of the characters that mean something there. -/
theorem ne_bare_of_flatMap_written {c : Char} (h : ∀ m ∈ ms, m.Proper) (hc : c ∈ specialInClass)
    {l : Literal} {ls : List Literal} (hwritten : ms.flatMap Member.written = l :: ls) : l ≠ bare c := by
  cases ms with
  | nil => cases hwritten
  | cons m ms =>
    obtain ⟨first, others, hfirst, hproper⟩ := m.exists_written_eq (h m List.mem_cons_self)
    rw [List.flatMap_cons, hfirst] at hwritten
    cases hwritten
    exact hproper.ne_bare hc

theorem readMembers_of_ne_dash (l : Literal) {ls : List Literal}
    (h : ∀ x xs, ls = x :: xs → x ≠ bare '-') : readMembers (l :: ls) = .single l :: readMembers ls := by
  match ls with
  | [] => rfl
  | [x] => rfl
  | x :: y :: ls => rw [readMembers, if_neg (h x _ rfl)]

theorem readMembers_written (h : ∀ m ∈ ms, m.Proper) : readMembers (ms.flatMap Member.written) = ms := by
  induction ms with
  | nil => rfl
  | cons m ms ih =>
    obtain ⟨-, hms⟩ := List.forall_mem_cons.1 h
    cases m with
    | single l =>
      change readMembers (l :: ms.flatMap Member.written) = _
      rw [readMembers_of_ne_dash l fun x xs => ne_bare_of_flatMap_written hms (by decide), ih hms]
    | range low high =>
      change readMembers (low :: bare '-' :: high :: ms.flatMap Member.written) = _
      rw [readMembers, if_pos rfl, ih hms]

theorem forall_mem_written_member {m : Member} (h : m.Proper) :
    ∀ l ∈ m.written, l.Proper specialInClass ∨ l = bare '-' := by
  intro l hl
  cases m with
  | single l' =>
    obtain rfl := List.mem_singleton.1 hl
    exact .inl h
  | range low high =>
    obtain ⟨hlow, hhigh, -⟩ := h
    simp only [Member.written, List.mem_cons, List.not_mem_nil, or_false] at hl
    rcases hl with rfl | rfl | rfl
    · exact .inl hlow
    · exact .inr rfl
    · exact .inl hhigh

theorem readClass_written (negated : Bool) (hne : ms ≠ []) (h : ∀ m ∈ ms, m.Proper)
    (rest : List Literal) :
    readClass ((if negated then [bare '^'] else []) ++ ms.flatMap Member.written ++ bare ']' :: rest) =
      some (.one (.oneOf negated ms), rest) := by
  have hclose : bare ']' ∉ ms.flatMap Member.written := by
    intro hmem
    obtain ⟨m, hm, hmem⟩ := List.mem_flatMap.1 hmem
    rcases forall_mem_written_member (h m hm) _ hmem with hproper | heq
    · exact hproper.ne_bare (by decide) rfl
    · cases heq
  have hcut := cut?_append hclose rest
  cases negated with
  | true =>
    rw [readClass]
    simp [hcut, readMembers_written h]
  | false =>
    obtain ⟨m, ms', rfl⟩ := List.exists_cons_of_ne_nil hne
    obtain ⟨first, others, hfirst, hproper⟩ := m.exists_written_eq (h m List.mem_cons_self)
    have hhead : first ≠ bare '^' := hproper.ne_bare (by decide)
    have hwritten : (m :: ms').flatMap Member.written = first :: (others ++ ms'.flatMap Member.written) := by
      rw [List.flatMap_cons, hfirst, List.cons_append]
    have hread := readMembers_written h
    rw [hwritten] at hcut hread ⊢
    rw [readClass]
    simp_all

/-! ### Choices -/

theorem bare_notMem {choices : List (List Literal)} {c : Char}
    (h : ∀ choice ∈ choices, ∀ l ∈ choice, l.Proper special) (hc : c ∈ special) :
    ∀ choice ∈ choices, bare c ∉ choice :=
  fun choice hmem hbare => (h choice hmem _ hbare).ne_bare hc rfl

theorem readGroup_written {choices : List (List Literal)} (hne : choices ≠ [])
    (h : ∀ choice ∈ choices, ∀ l ∈ choice, l.Proper special) (rest : List Literal) :
    readGroup (bare '?' :: bare ':' :: (List.intercalate [bare '|'] choices ++ bare ')' :: rest)) =
      some (.group choices, rest) := by
  have hclose : bare ')' ∉ List.intercalate [bare '|'] choices := by
    intro hmem
    rcases mem_intercalate hmem with heq | ⟨choice, hchoice, hmem⟩
    · cases heq
    · exact bare_notMem h (by decide) choice hchoice hmem
  rw [readGroup, if_pos ⟨rfl, rfl⟩, cut?_append hclose]
  dsimp only
  rw [List.splitOn_intercalate _ (bare_notMem h (by decide)) hne]

/-! ### Terms -/

theorem exists_written_eq {s : Single} (h : s.Proper) :
    ∃ l ls, s.written = l :: ls ∧ l ≠ bare '*' ∧ l ≠ bare '(' ∧
      ∀ rest, readTerm l (ls ++ rest) = some (.one s, rest) := by
  cases s with
  | literal l =>
    have hne : ∀ c ∈ special, l ≠ bare c := fun c hc => h.ne_bare hc
    refine ⟨l, [], rfl, hne _ (by decide), hne _ (by decide), fun rest => ?_⟩
    rw [List.nil_append, readTerm, if_neg (hne _ (by decide)), if_neg (hne _ (by decide)),
      if_neg (hne _ (by decide)), if_neg (hne _ (by decide)), if_neg (hne _ (by decide))]
  | dot => exact ⟨_, [], rfl, by decide, by decide, fun rest => rfl⟩
  | oneOf negated ms =>
    refine ⟨_, _, rfl, by decide, by decide, fun rest => ?_⟩
    have hread := readClass_written negated h.1 h.2 rest
    rw [readTerm, if_neg (by decide), if_neg (by decide), if_neg (by decide), if_pos rfl, ← hread]
    simp

theorem readTerms_star {ls : List Literal} {ts : List Term} (h : readTerms ls = some (false, ts)) :
    readTerms (bare '*' :: ls) = some (true, ts) := by
  rw [readTerms, if_pos rfl, h]

theorem readTerms_cons {l : Literal} {ls rest : List Literal} {t : Term} (hstar : l ≠ bare '*')
    (h : readTerm l ls = some (t, rest)) {starred : Bool} {ts ts' : List Term}
    (hrest : readTerms rest = some (starred, ts)) (hattach : attach? t (starred, ts) = some ts') :
    readTerms (l :: ls) = some (false, ts') := by
  rw [readTerms, if_neg hstar]
  split
  · rename_i hnone
    rw [h] at hnone
    cases hnone
  · rename_i t' rest' hsome
    rw [h] at hsome
    cases hsome
    simp only [hrest, Option.bind_eq_bind, Option.bind_some, hattach]

theorem readTerms_written {ts : List Term} (h : ∀ t ∈ ts, t.Proper) :
    readTerms (ts.flatMap Term.written) = some (false, ts) := by
  induction ts with
  | nil => rw [List.flatMap_nil, readTerms]
  | cons t ts ih =>
    obtain ⟨ht, hts⟩ := List.forall_mem_cons.1 h
    have hrest := ih hts
    rw [List.flatMap_cons]
    cases t with
    | one s =>
      obtain ⟨l, ls, hwritten, hstar, -, hread⟩ := exists_written_eq ht
      rw [Term.written, hwritten]
      exact readTerms_cons hstar (hread _) hrest rfl
    | many s =>
      obtain ⟨l, ls, hwritten, hstar, -, hread⟩ := exists_written_eq ht
      rw [Term.written, hwritten, List.append_assoc]
      exact readTerms_cons hstar (hread _) (readTerms_star hrest) rfl
    | group choices =>
      have hread := readGroup_written ht.1 ht.2 (ts.flatMap Term.written)
      refine readTerms_cons (l := bare '(') (by decide) ?_ hrest rfl
      rw [readTerm, if_neg (by decide), if_neg (by decide), if_neg (by decide), if_neg (by decide),
        if_pos rfl, ← hread]
      simp
    | start => exact readTerms_cons (by decide) rfl hrest rfl
    | finish => exact readTerms_cons (by decide) rfl hrest rfl

/-! ### Expressions -/

theorem forall_mem_written_single {s : Single} (h : s.Proper) : ∀ l ∈ s.written, l.Proper ['\\'] := by
  cases s with
  | literal l => exact List.forall_mem_singleton.2 (h.readable (by decide))
  | dot => exact List.forall_mem_singleton.2 (by decide)
  | oneOf negated ms =>
    intro l hl
    simp only [Single.written, List.cons_append, List.mem_cons, List.mem_append, List.mem_flatMap,
      List.not_mem_nil, or_false] at hl
    rcases hl with rfl | (hnegated | ⟨m, hm, hl⟩) | rfl
    · decide
    · cases negated with
      | true =>
        obtain rfl := List.mem_singleton.1 hnegated
        decide
      | false => cases hnegated
    · rcases forall_mem_written_member (h.2 m hm) l hl with hproper | rfl
      · exact hproper.readable (by decide)
      · decide
    · decide

theorem forall_mem_written {t : Term} (h : t.Proper) : ∀ l ∈ t.written, l.Proper ['\\'] := by
  cases t with
  | one s => exact forall_mem_written_single h
  | many s =>
    exact List.forall_mem_append.2
      ⟨forall_mem_written_single h, List.forall_mem_singleton.2 (by decide)⟩
  | group choices =>
    intro l hl
    simp only [Term.written, List.cons_append, List.mem_cons, List.mem_append, List.not_mem_nil,
      or_false] at hl
    rcases hl with rfl | rfl | rfl | hl | rfl
    · decide
    · decide
    · decide
    · rcases mem_intercalate hl with rfl | ⟨choice, hchoice, hmem⟩
      · decide
      · exact (h.2 choice hchoice l hmem).readable (by decide)
    · decide
  | start => exact List.forall_mem_singleton.2 (by decide)
  | finish => exact List.forall_mem_singleton.2 (by decide)

theorem take_written_ne_flag {ts : List Term} (h : ∀ t ∈ ts, t.Proper) :
    (ts.flatMap Term.written).take 4 ≠ flag := by
  cases ts with
  | nil => decide
  | cons t ts =>
    obtain ⟨ht, -⟩ := List.forall_mem_cons.1 h
    rw [List.flatMap_cons]
    intro heq
    cases t with
    | one s | many s =>
      obtain ⟨l, ls, hwritten, -, hbracket, -⟩ := exists_written_eq ht
      rw [Term.written, hwritten] at heq
      exact hbracket (List.cons.inj heq).1
    | group | start | finish => simp [Term.written, flag, bare] at heq

theorem ofLiterals?_written {dotAll : Bool} {ts : List Term} (h : Proper ⟨dotAll, ts⟩) :
    ofLiterals? dotAll (ts.flatMap Term.written) = some ⟨dotAll, ts⟩ := by
  rw [ofLiterals?, readTerms_written h]
  exact if_pos h

/-- A proper expression is read from its text. -/
theorem ofText?_text {r : Regex} (h : r.Proper) : ofText? r.text = some r := by
  obtain ⟨dotAll, ts⟩ := r
  have hreadable : ∀ l ∈ ts.flatMap Term.written, l.Proper ['\\'] := by
    intro l hl
    obtain ⟨t, ht, hl⟩ := List.mem_flatMap.1 hl
    exact forall_mem_written (h t ht) l hl
  unfold ofText? text written
  cases dotAll with
  | true =>
    have hflag : ∀ l ∈ flag, l.Proper ['\\'] := by decide
    rw [if_pos rfl, String.toList_ofList,
      literals?_flatMap_text (List.forall_mem_append.2 ⟨hflag, hreadable⟩), Option.bind_eq_bind,
      Option.bind_some]
    exact (if_pos rfl).trans (ofLiterals?_written h)
  | false =>
    rw [if_neg Bool.false_ne_true, List.nil_append, String.toList_ofList,
      literals?_flatMap_text hreadable, Option.bind_eq_bind, Option.bind_some,
      if_neg (take_written_ne_flag h)]
    exact ofLiterals?_written h

/-! ### The engine -/

theorem compile_marking {r : Regex} (h : r.Proper) : Engine.marking.compile r.text = .ok r := by
  simp only [Engine.marking, ofText?_text h]

/-- How the engine escapes a text. -/
def escaped (text : List Char) : List Literal := text.map fun c => ⟨c, special.contains c⟩

theorem forall_mem_escaped (text : List Char) : ∀ l ∈ escaped text, l.Proper special := by
  intro l hl
  obtain ⟨c, -, rfl⟩ := List.mem_map.1 hl
  exact Literal.proper_contains (by decide) c

theorem map_char_escaped (text : List Char) : (escaped text).map Literal.char = text := by
  rw [escaped, List.map_map]
  exact List.map_id text

theorem toList_escape (text : String) :
    (Engine.marking.escape text).toList = (escaped text.toList).flatMap Literal.text := by
  change (Regex.escape text).toList = _
  rw [Regex.escape, String.toList_ofList, escaped, List.flatMap_map]

theorem Engine.documented_marking : Engine.marking.Documented where
  escape text := ⟨escaped text.toList, forall_mem_escaped _, map_char_escaped _, toList_escape text⟩
  isMatch := by
    intro r compiled hproper hcompiled haystack
    rw [compile_marking hproper] at hcompiled
    cases hcompiled
    exact finds_eq_true_iff

end Regex

end OpenSound
