import OpenSound.Proofs.Pieces
/-!
# The items of a class

A dash between two members of a class makes a range and a dash anywhere else is a member, so the items
depend on where reading begins. `Reads` says what it is to read from left to right, by positions and
without a reader: the items written down again are the members in front of those that are left, and no
single member stands in front of a dash with one more member behind it. Every class is read up to its end
or up to a reversed range (`exists_reads`), and the reader finds nothing else.

Reading can be done by positions in turns that take one member or three. No turn looks behind the last
member (`exists_endsAfter`), so looking two positions ahead is safe.
-/

namespace OpenSound.Pattern

/-! ### From left to right -/

/-- A dash stands behind the position, and one more member behind the dash. -/
def JoinsAt (members : List Char) (i : Nat) : Prop :=
  members[i + 1]? = some '-' ∧ i + 2 < members.length

/-- From left to right, the items are read from the members and the rest of these is left. -/
structure Reads (members : List Char) (items : List ClassItem) (rest : List Char) : Prop where
  text : items.flatMap ClassItem.text ++ rest = members
  inOrder : ∀ low high, .range low high ∈ items → low ≤ high
  apart : ∀ front c back, items = front ++ .single c :: back →
    ¬ JoinsAt members (front.flatMap ClassItem.text).length

theorem joinsAt_zero_iff {c : Char} {cs : List Char} : JoinsAt (c :: cs) 0 ↔ joins cs = true := by
  unfold JoinsAt joins
  match cs with
  | [] => simp
  | [d] => simp
  | d :: high :: rest =>
    by_cases hdash : d = '-'
    · simp [hdash]
    · simp [hdash]

theorem joinsAt_append_iff (front : List Char) {members : List Char} {i : Nat} :
    JoinsAt (front ++ members) (front.length + i) ↔ JoinsAt members i := by
  unfold JoinsAt
  rw [Nat.add_assoc, List.getElem?_append_right (by omega), Nat.add_sub_cancel_left,
    List.length_append]
  apply and_congr_right'
  omega

theorem reads_nil {members : List Char} : Reads members [] members :=
  ⟨rfl, nofun, fun front c back h => absurd h (by simp)⟩

/-- The items behind the first are read from what the first one leaves. -/
theorem reads_cons_iff {members rest : List Char} {item : ClassItem} {items : List ClassItem} :
    Reads members (item :: items) rest ↔
      ∃ cs, members = item.text ++ cs ∧ (∀ low high, item = .range low high → low ≤ high) ∧
        (∀ c, item = .single c → joins cs = false) ∧ Reads cs items rest := by
  apply Iff.intro
  · intro h
    obtain ⟨rfl, hinOrder, hapart⟩ := h
    rw [List.flatMap_cons, List.append_assoc] at hapart ⊢
    refine ⟨_, rfl, fun low high heq => ?_, fun c heq => ?_, rfl, fun low high hmem => ?_,
      fun front c back hitems => ?_⟩
    · exact hinOrder low high (heq ▸ List.mem_cons_self)
    · subst heq
      have hfirst := hapart [] c items rfl
      rw [← Bool.not_eq_true, ← joinsAt_zero_iff]
      exact hfirst
    · exact hinOrder low high (List.mem_cons_of_mem _ hmem)
    · have hlater := hapart (item :: front) c back (by rw [hitems, List.cons_append])
      rw [List.flatMap_cons, List.length_append, joinsAt_append_iff] at hlater
      exact hlater
  · intro h
    obtain ⟨cs, rfl, hrange, hsingle, rfl, hinOrder, hapart⟩ := h
    refine ⟨by rw [List.flatMap_cons, List.append_assoc], fun low high hmem => ?_,
      fun front c back hitems => ?_⟩
    · rcases List.mem_cons.1 hmem with heq | hmem
      · exact hrange low high heq.symm
      · exact hinOrder low high hmem
    · cases front with
      | nil =>
        obtain ⟨rfl, rfl⟩ := List.cons.inj hitems
        have hjoins := hsingle c rfl
        rw [← Bool.not_eq_true, ← joinsAt_zero_iff] at hjoins
        exact hjoins
      | cons first front =>
        obtain ⟨rfl, rfl⟩ := List.cons.inj hitems
        rw [List.flatMap_cons, List.length_append, joinsAt_append_iff]
        exact hapart front c back rfl

theorem reads_single {c : Char} {cs rest : List Char} {items : List ClassItem}
    (hjoins : joins cs = false) (h : Reads cs items rest) :
    Reads (c :: cs) (.single c :: items) rest :=
  reads_cons_iff.2 ⟨cs, rfl, nofun, fun _ _ => hjoins, h⟩

theorem reads_range {low high : Char} {cs rest : List Char} {items : List ClassItem}
    (hle : low ≤ high) (h : Reads cs items rest) :
    Reads (low :: '-' :: high :: cs) (.range low high :: items) rest := by
  refine reads_cons_iff.2 ⟨cs, rfl, fun low' high' heq => ?_, nofun, h⟩
  cases heq
  exact hle

/-- Reading goes on up to the end, or up to a range that is reversed. -/
theorem exists_reads (cs : List Char) :
    ∃ items, Reads cs items [] ∨
      ∃ low high rest, Reads cs items (low :: '-' :: high :: rest) ∧ high < low := by
  induction cs using parseItems.induct with
  | case1 => exact ⟨[], .inl reads_nil⟩
  | case2 low high cs hlt => exact ⟨[], .inr ⟨low, high, cs, reads_nil, hlt⟩⟩
  | case3 low high cs hle ih =>
    have hrange := Char.not_lt.1 hle
    obtain ⟨items, hend | ⟨low', high', rest, hreversed, hlt⟩⟩ := ih
    · exact ⟨_, .inl (reads_range hrange hend)⟩
    · exact ⟨_, .inr ⟨low', high', rest, reads_range hrange hreversed, hlt⟩⟩
  | case4 c cs hsingle ih =>
    have hjoins := joins_eq_false hsingle
    obtain ⟨items, hend | ⟨low, high, rest, hreversed, hlt⟩⟩ := ih
    · exact ⟨_, .inl (reads_single hjoins hend)⟩
    · exact ⟨_, .inr ⟨low, high, rest, reads_single hjoins hreversed, hlt⟩⟩

/-! ### The reader reads like this -/

theorem parseItems_of_reads {cs rest : List Char} {items : List ClassItem} (h : Reads cs items rest) :
    parseItems cs = (items ++ ·) <$> parseItems rest := by
  induction items generalizing cs with
  | nil =>
    have htext : rest = cs := h.text
    rw [htext]
    cases parseItems cs <;> rfl
  | cons item items ih =>
    obtain ⟨cs, rfl, hrange, hsingle, hothers⟩ := reads_cons_iff.1 h
    cases item with
    | single c =>
      change parseItems (c :: cs) = _
      rw [parseItems_of_not_joins (hsingle c rfl), ih hothers]
      cases parseItems rest <;> rfl
    | range low high =>
      change parseItems (low :: '-' :: high :: cs) = _
      rw [parseItems, if_neg (Char.not_lt.2 (hrange low high rfl)), ih hothers]
      cases parseItems rest <;> rfl

theorem parseItems_of_reads_all {cs : List Char} {items : List ClassItem} (h : Reads cs items []) :
    parseItems cs = .ok items := by
  rw [parseItems_of_reads h, parseItems, map_ok, List.append_nil]

theorem parseItems_of_reads_reversed {low high : Char} {cs rest : List Char} {items : List ClassItem}
    (h : Reads cs items (low :: '-' :: high :: rest)) (hlt : high < low) :
    parseItems cs = .error (.reversedRange low high) := by
  rw [parseItems_of_reads h, parseItems, if_pos hlt, map_error]

theorem parseItems_eq_ok_iff_reads {cs : List Char} {items : List ClassItem} :
    parseItems cs = .ok items ↔ Reads cs items [] := by
  apply Iff.intro _ parseItems_of_reads_all
  intro h
  obtain ⟨items', hend | ⟨low, high, rest, hreversed, hlt⟩⟩ := exists_reads cs
  · rw [parseItems_of_reads_all hend] at h
    cases h
    exact hend
  · rw [parseItems_of_reads_reversed hreversed hlt] at h
    cases h

theorem parseItems_eq_error_iff_reads {cs : List Char} {fault : PatternFault} :
    parseItems cs = .error fault ↔
      ∃ items low high rest, fault = .reversedRange low high ∧
        Reads cs items (low :: '-' :: high :: rest) ∧ high < low := by
  apply Iff.intro
  · intro h
    obtain ⟨items, hend | ⟨low, high, rest, hreversed, hlt⟩⟩ := exists_reads cs
    · rw [parseItems_of_reads_all hend] at h
      cases h
    · rw [parseItems_of_reads_reversed hreversed hlt] at h
      cases h
      exact ⟨items, low, high, rest, rfl, hreversed, hlt⟩
  · intro h
    obtain ⟨items, low, high, rest, rfl, hreversed, hlt⟩ := h
    exact parseItems_of_reads_reversed hreversed hlt

/-! ### By positions -/

/-- One turn of reading members by their positions: it comes to an end, or goes on from a position
with the items read so far, the latest first. There is no outcome if a position is out of range. -/
def turnAt? (members : List Char) (i : Nat) (read : List ClassItem) :
    Option (Except PatternFault (List ClassItem ⊕ Nat × List ClassItem)) :=
  if i < members.length then do
    let joined ← if i + 2 < members.length then (· == '-') <$> members[i + 1]? else some false
    let low ← members[i]?
    if joined then
      let high ← members[i + 2]?
      if high < low then some (.error (.reversedRange low high))
      else some (.ok (.inr (i + 3, .range low high :: read)))
    else some (.ok (.inr (i + 1, .single low :: read)))
  else some (.ok (.inl read.reverse))

/-- Reading by positions comes to this end after so many turns, none of them out of range. -/
inductive EndsAfter (members : List Char) :
    Nat → Nat → List ClassItem → Except PatternFault (List ClassItem) → Prop where
  | last {i read result} (hturn : turnAt? members i read = some (Sum.inl <$> result)) :
      EndsAfter members 1 i read result
  | next {i read i' read' turns result}
      (hturn : turnAt? members i read = some (.ok (.inr (i', read'))))
      (hrest : EndsAfter members turns i' read' result) :
      EndsAfter members (turns + 1) i read result

section

variable (front : List Char) (read : List ClassItem)

theorem turnAt?_end : turnAt? front front.length read = some (.ok (.inl read.reverse)) := by
  rw [turnAt?, if_neg (Nat.lt_irrefl _)]

theorem turnAt?_range (low high : Char) (cs : List Char) :
    turnAt? (front ++ low :: '-' :: high :: cs) front.length read =
      some (if high < low then .error (.reversedRange low high)
        else .ok (.inr (front.length + 3, .range low high :: read))) := by
  have hinside : front.length < (front ++ low :: '-' :: high :: cs).length := by simp
  have hahead : front.length + 2 < (front ++ low :: '-' :: high :: cs).length := by simp
  have hlow : (front ++ low :: '-' :: high :: cs)[front.length]? = some low := by simp
  have hdash : (front ++ low :: '-' :: high :: cs)[front.length + 1]? = some '-' := by simp
  have hhigh : (front ++ low :: '-' :: high :: cs)[front.length + 2]? = some high := by simp
  rw [turnAt?, if_pos hinside, if_pos hahead, hlow, hdash, hhigh]
  by_cases hlt : high < low
  · simp [hlt]
  · simp [hlt]

theorem turnAt?_single {c : Char} {cs : List Char} (hjoins : joins cs = false) :
    turnAt? (front ++ c :: cs) front.length read =
      some (.ok (.inr (front.length + 1, .single c :: read))) := by
  match cs with
  | [] => simp [turnAt?]
  | [d] => simp [turnAt?]
  | d :: high :: rest =>
    have hdash : d ≠ '-' := by
      intro hd
      rw [hd] at hjoins
      cases hjoins
    simp [turnAt?, hdash]

end

/-- Reading by positions goes on from a position as the reader does with the members behind it, and
every turn but the last takes one of these at least. -/
theorem exists_endsAfter (front cs : List Char) (read : List ClassItem) :
    ∃ turns, turns ≤ cs.length + 1 ∧
      EndsAfter (front ++ cs) turns front.length read ((read.reverse ++ ·) <$> parseItems cs) := by
  induction cs using parseItems.induct generalizing front read with
  | case1 =>
    refine ⟨1, Nat.le_refl 1, .last ?_⟩
    rw [List.append_nil, turnAt?_end, parseItems, map_ok, List.append_nil, map_ok]
  | case2 low high cs hlt =>
    refine ⟨1, Nat.le_add_left 1 _, .last ?_⟩
    rw [turnAt?_range, if_pos hlt, parseItems, if_pos hlt, map_error, map_error]
  | case3 low high cs hle ih =>
    obtain ⟨turns, hturns, hends⟩ := ih (front ++ [low, '-', high]) (.range low high :: read)
    have hturn := turnAt?_range front read low high cs
    rw [if_neg hle] at hturn
    refine ⟨turns + 1, ?_, .next hturn ?_⟩
    · simp only [List.length_cons]
      omega
    · rw [parseItems, if_neg hle]
      simpa using hends
  | case4 c cs hsingle ih =>
    have hjoins := joins_eq_false hsingle
    obtain ⟨turns, hturns, hends⟩ := ih (front ++ [c]) (.single c :: read)
    refine ⟨turns + 1, Nat.succ_le_succ hturns, .next (turnAt?_single front read hjoins) ?_⟩
    rw [parseItems_of_not_joins hjoins]
    simpa using hends

/-! ### Classes -/

/-- A class with members is read as the items that stand for all of them from left to right, with every
range in order and no single member in front of a dash that makes a range. If there are none, reading
from left to right meets a reversed range, and the class is refused for it. Reading by positions does the
same, in at most one turn for each member and one for the end, and no position is out of range. -/
theorem parseClass_reads (body : List Char) (hsome : unmarked body ≠ []) :
    (∀ e, parseClass body = .ok e ↔
      ∃ items, e = .oneOf (body.head? == some '!') items ∧ Reads (unmarked body) items []) ∧
    (∀ fault, parseClass body = .error fault ↔
      ∃ items low high rest, fault = .reversedRange low high ∧
        Reads (unmarked body) items (low :: '-' :: high :: rest) ∧ high < low) ∧
    ∃ turns result, turns ≤ (unmarked body).length + 1 ∧ EndsAfter (unmarked body) turns 0 [] result ∧
      parseClass body = Element.oneOf (body.head? == some '!') <$> result := by
  rw [parseClass_eq_ite, if_neg hsome]
  refine ⟨fun e => ?_, fun fault => ?_, ?_⟩
  · rw [map_eq_ok_iff]
    apply exists_congr
    intro items
    rw [parseItems_eq_ok_iff_reads, @eq_comm _ e, and_comm]
  · rw [map_eq_error_iff, parseItems_eq_error_iff_reads]
  · obtain ⟨turns, hturns, hends⟩ := exists_endsAfter [] (unmarked body) []
    refine ⟨turns, _, hturns, hends, ?_⟩
    cases parseItems (unmarked body) <;> rfl

/-- The body `!a-c-e`: behind a range a dash makes none. -/
def spacedBody : List Char := ['!', 'a', '-', 'c', '-', 'e']

/-- The body `az--a`: the second of two dashes is the end of a range, which is reversed. -/
def doubledBody : List Char := ['a', 'z', '-', '-', 'a']

theorem parseClass_reads_dashes :
    unmarked spacedBody ≠ [] ∧
      parseClass spacedBody = .ok (.oneOf true [.range 'a' 'c', .single '-', .single 'e']) ∧
      unmarked doubledBody ≠ [] ∧
      parseClass doubledBody = .error (.reversedRange 'z' '-') ∧
      ∃ turns result, turns ≤ 6 ∧ EndsAfter doubledBody turns 0 [] result := by
  have hspaced : unmarked spacedBody ≠ [] := by decide
  have hdoubled : unmarked doubledBody ≠ [] := by decide
  have hread : Reads (unmarked spacedBody) [.range 'a' 'c', .single '-', .single 'e'] [] :=
    reads_range (by decide) (reads_single rfl (reads_single rfl reads_nil))
  have hreversed : Reads (unmarked doubledBody) [.single 'a'] ['z', '-', '-', 'a'] :=
    reads_single rfl reads_nil
  obtain ⟨haccepted, -, -⟩ := parseClass_reads spacedBody hspaced
  obtain ⟨-, hrefused, turns, result, hturns, hends, -⟩ := parseClass_reads doubledBody hdoubled
  exact ⟨hspaced, (haccepted _).2 ⟨_, rfl, hread⟩, hdoubled,
    (hrefused _).2 ⟨_, 'z', '-', ['a'], rfl, hreversed, by decide⟩, turns, result, hturns, hends⟩

end OpenSound.Pattern
