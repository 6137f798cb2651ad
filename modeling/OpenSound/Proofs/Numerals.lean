import OpenSound.Json.Typed
import OpenSound.Json.Printer
import OpenSound.Json.Reader
/-!
# Numerals

Every numeral that is written is proper: digits wherever digits are expected, and no zero in front of
others. A proper numeral is read back as it is, provided that nothing follows that it could go on with.
An integer is written with all of its digits, and they are taken into one significand as long as it fits
64 bits, so an integer in range is the number that its numeral stands for.

A decimal is zero only if its exponent is zero as well. That is what keeps a zero from standing in front
of others when zeros are written after the digits.
-/

namespace OpenSound

open Binary

/-! ### Digits -/

/-- Characters that are digits, at least one. -/
structure Digits (cs : List Char) : Prop where
  ne_nil : cs ≠ []
  isDigit : ∀ c ∈ cs, Json.isDigit c = true

def Unpadded (cs : List Char) : Prop := cs.head? = some '0' → cs = ['0']

theorem Json.isDigit_of_isDigit {c : Char} (h : c.isDigit = true) : Json.isDigit c = true := by
  simpa [Json.isDigit, Char.isDigit, Char.le_def] using h

theorem Digits.append {cs ds : List Char} (hcs : Digits cs) (hds : ∀ c ∈ ds, Json.isDigit c = true) :
    Digits (cs ++ ds) := by
  refine ⟨by simp [hcs.ne_nil], fun c hc => ?_⟩
  rcases List.mem_append.1 hc with hc | hc
  · exact hcs.isDigit c hc
  · exact hds c hc

theorem Digits.take {cs : List Char} (h : Digits cs) {n : Nat} (hn : 0 < n) : Digits (cs.take n) :=
  ⟨by simp [h.ne_nil, Nat.ne_of_gt hn], fun c hc => h.isDigit c (List.mem_of_mem_take hc)⟩

theorem Digits.drop {cs : List Char} (h : Digits cs) {n : Nat} (hn : n < cs.length) :
    Digits (cs.drop n) :=
  ⟨by simpa using hn, fun c hc => h.isDigit c (List.mem_of_mem_drop hc)⟩

theorem digits_toDigits (n : Nat) : Digits (Nat.toDigits 10 n) :=
  ⟨Nat.toDigits_ne_nil, fun _ hc =>
    Json.isDigit_of_isDigit (Nat.isDigit_of_mem_toDigits (by decide) (by decide) hc)⟩

theorem isDigit_of_mem_replicate {n : Nat} : ∀ c ∈ List.replicate n '0', Json.isDigit c = true := by
  intro c hc
  rw [List.eq_of_mem_replicate hc]
  rfl

/-- Induction over the digits of a number, the first digit first. -/
theorem toDigits_induct {motive : Nat → List Char → Prop}
    (single : ∀ n < 10, motive n [Nat.digitChar n])
    (more : ∀ n, 10 ≤ n → motive (n / 10) (Nat.toDigits 10 (n / 10)) →
      motive n (Nat.toDigits 10 (n / 10) ++ [Nat.digitChar (n % 10)])) (n : Nat) :
    motive n (Nat.toDigits 10 n) := by
  induction n using Nat.strongRecOn with
  | ind n ih =>
    by_cases hsmall : n < 10
    · rw [Nat.toDigits_of_lt_base hsmall]
      exact single n hsmall
    · rw [Nat.toDigits_of_base_le (by decide) (Nat.le_of_not_lt hsmall)]
      exact more n (Nat.le_of_not_lt hsmall) (ih (n / 10) (by omega))

theorem digitChar_ne {n : Nat} (h : n < 10) (hne : n ≠ 0) : Nat.digitChar n ≠ '0' := by
  revert n
  decide

theorem head?_toDigits_ne {n : Nat} (h : n ≠ 0) : (Nat.toDigits 10 n).head? ≠ some '0' := by
  revert h
  refine toDigits_induct (motive := fun n cs => n ≠ 0 → cs.head? ≠ some '0') ?_ ?_ n
  · intro n hsmall hne hhead
    exact digitChar_ne hsmall hne (Option.some.inj hhead)
  · intro n hten ih _
    have hhead := ih (by omega)
    obtain ⟨c, cs, hcs⟩ := List.exists_cons_of_ne_nil (digits_toDigits (n / 10)).ne_nil
    rw [hcs] at hhead ⊢
    exact hhead

theorem unpadded_toDigits (n : Nat) : Unpadded (Nat.toDigits 10 n) := by
  intro hzero
  by_cases h : n = 0
  · subst h
    rfl
  · exact absurd hzero (head?_toDigits_ne h)

namespace Numeral

theorem accumulate_append {significand n : Nat} {cs : List Char}
    (h : accumulate significand cs = (n, [])) (ds : List Char) :
    accumulate significand (cs ++ ds) = accumulate n ds := by
  induction cs generalizing significand with
  | nil =>
    cases h
    rfl
  | cons c cs ih =>
    rw [accumulate] at h
    rw [List.cons_append, accumulate]
    split at h
    · rename_i hfits
      rw [if_pos hfits]
      exact ih h
    · cases h

theorem digitValue_digitChar {n : Nat} (h : n < 10) : digitValue (Nat.digitChar n) = n := by
  revert n
  decide

theorem accumulate_toDigits {n : Nat} (h : n < UInt64.size) :
    accumulate 0 (Nat.toDigits 10 n) = (n, []) := by
  revert h
  refine toDigits_induct (motive := fun n cs => n < UInt64.size → accumulate 0 cs = (n, [])) ?_ ?_ n
  · intro n hsmall hfits
    simp only [accumulate, digitValue_digitChar hsmall, Nat.zero_mul, Nat.zero_add, if_pos hfits]
  · intro n hten ih hfits
    have hsum : n / 10 * 10 + n % 10 = n := by omega
    rw [accumulate_append (ih (by omega))]
    simp only [accumulate, digitValue_digitChar (Nat.mod_lt n (by decide : 10 > 0)), hsum, if_pos hfits]

end Numeral

/-! ### Proper numerals -/

structure Numeral.Proper (n : Numeral) : Prop where
  whole : Digits n.whole
  unpadded : Unpadded n.whole
  fraction : ∀ digits, n.fraction = some digits → Digits digits
  exponent : ∀ negative digits, n.exponent = some (negative, digits) → Digits digits

namespace Json

/-- What follows a numeral is not a part of it. -/
def Stops (rest : List Char) : Prop :=
  ∀ c, rest.head? = some c → isDigit c = false ∧ c ≠ '.' ∧ c ≠ 'e' ∧ c ≠ 'E'

theorem readDigits_append {cs rest : List Char} (hcs : Digits cs)
    (hrest : ∀ c, rest.head? = some c → isDigit c = false) :
    readDigits (cs ++ rest) = some (cs, rest) := by
  have hnone : rest.takeWhile isDigit = [] ∧ rest.dropWhile isDigit = rest := by
    cases rest with
    | nil => exact ⟨rfl, rfl⟩
    | cons c rest => simp [hrest c rfl]
  rw [readDigits, List.takeWhile_append_of_pos hcs.isDigit, List.dropWhile_append_of_pos hcs.isDigit,
    hnone.1, hnone.2, List.append_nil]
  exact if_neg hcs.ne_nil

theorem readWhole_append {cs rest : List Char} (hcs : Digits cs) (hunpadded : Unpadded cs)
    (hrest : ∀ c, rest.head? = some c → isDigit c = false) :
    readWhole (cs ++ rest) = some (cs, rest) := by
  rw [readWhole, readDigits_append hcs hrest]
  split
  · rename_i heq
    cases heq
    cases hunpadded rfl
  · rfl

end Json

namespace Numeral

def fractionChars : Option (List Char) → List Char
  | none => []
  | some digits => '.' :: digits

def exponentChars : Option (Bool × List Char) → List Char
  | none => []
  | some (negative, digits) => 'e' :: (if negative then '-' else '+') :: digits

def unsignedChars (n : Numeral) : List Char :=
  n.whole ++ (fractionChars n.fraction ++ exponentChars n.exponent)

theorem chars_eq (n : Numeral) :
    n.chars = (if n.negative then ['-'] else []) ++ n.unsignedChars := by
  obtain ⟨negative, whole, fraction, exponent⟩ := n
  cases fraction <;> cases exponent <;> simp [chars, unsignedChars, fractionChars, exponentChars]

open Json

variable {rest : List Char}

theorem readExponent_append {exponent : Option (Bool × List Char)}
    (hexponent : ∀ negative digits, exponent = some (negative, digits) → Digits digits)
    (hrest : Stops rest) : readExponent (exponentChars exponent ++ rest) = some (exponent, rest) := by
  cases exponent with
  | none =>
    cases rest with
    | nil => rfl
    | cons c rest =>
      obtain ⟨-, -, hlower, hupper⟩ := hrest c rfl
      exact if_neg (not_or.2 ⟨hlower, hupper⟩)
  | some signed =>
    obtain ⟨negative, digits⟩ := signed
    have hread := readDigits_append (hexponent negative digits rfl) fun c hc => (hrest c hc).1
    cases negative <;> simp [exponentChars, readExponent, readSign, hread]

/-- The exponent does not go on with the digits before it, or with a point. -/
theorem head?_exponentChars_append (exponent : Option (Bool × List Char)) (hrest : Stops rest) :
    ∀ c, (exponentChars exponent ++ rest).head? = some c → isDigit c = false ∧ c ≠ '.' := by
  intro c hc
  cases exponent with
  | none => exact ⟨(hrest c hc).1, (hrest c hc).2.1⟩
  | some signed =>
    cases hc
    decide

theorem readFraction_append {fraction : Option (List Char)}
    (hfraction : ∀ digits, fraction = some digits → Digits digits)
    (hrest : ∀ c, rest.head? = some c → isDigit c = false ∧ c ≠ '.') :
    readFraction (fractionChars fraction ++ rest) = some (fraction, rest) := by
  cases fraction with
  | none =>
    cases rest with
    | nil => rfl
    | cons c rest =>
      obtain ⟨-, hpoint⟩ := hrest c rfl
      simp only [fractionChars, List.nil_append]
      unfold readFraction
      split
      · rename_i heq
        cases heq
        exact absurd rfl hpoint
      · rfl
  | some digits =>
    simp [fractionChars, readFraction,
      readDigits_append (hfraction digits rfl) fun c hc => (hrest c hc).1]

theorem head?_fractionChars_append (fraction : Option (List Char))
    (hrest : ∀ c, rest.head? = some c → isDigit c = false ∧ c ≠ '.') :
    ∀ c, (fractionChars fraction ++ rest).head? = some c → isDigit c = false := by
  intro c hc
  cases fraction with
  | none => exact (hrest c hc).1
  | some digits =>
    cases hc
    rfl

namespace Proper

variable {n : Numeral}

theorem exists_whole_eq (h : n.Proper) : ∃ c cs, n.whole = c :: cs ∧ isDigit c = true := by
  obtain ⟨c, cs, hwhole⟩ := List.exists_cons_of_ne_nil h.whole.ne_nil
  exact ⟨c, cs, hwhole, h.whole.isDigit c (hwhole ▸ List.mem_cons_self)⟩

theorem exists_chars_eq (h : n.Proper) :
    ∃ c cs, n.chars = c :: cs ∧ (c = '-' ∨ isDigit c = true) := by
  obtain ⟨c, cs, hwhole, hdigit⟩ := h.exists_whole_eq
  rw [chars_eq, unsignedChars, hwhole]
  cases n.negative with
  | false => exact ⟨_, _, rfl, .inr hdigit⟩
  | true => exact ⟨_, _, rfl, .inl rfl⟩

theorem readNumeral_append (h : n.Proper) (hrest : Stops rest) :
    readNumeral (n.chars ++ rest) = some (n, rest) := by
  have hexponent := readExponent_append h.exponent hrest
  have hafter := head?_exponentChars_append n.exponent hrest
  have hfraction := readFraction_append h.fraction hafter
  have hwhole := readWhole_append h.whole h.unpadded (head?_fractionChars_append n.fraction hafter)
  obtain ⟨negative, whole, fraction, exponent⟩ := n
  rw [chars_eq]
  cases negative with
  | true =>
    simp [readNumeral, unsignedChars, hwhole, hfraction, hexponent]
  | false =>
    have hsign : ∀ cs, whole ++ (fractionChars fraction ++ (exponentChars exponent ++ rest)) ≠
        '-' :: cs := by
      obtain ⟨c, cs, rfl, hdigit⟩ := h.exists_whole_eq
      rintro _ heq
      cases heq
      cases hdigit
    simp only [Bool.false_eq_true, if_false, List.nil_append, unsignedChars, List.append_assoc]
    rw [readNumeral.eq_2 _ hsign]
    simp [hwhole, hfraction, hexponent]

end Proper

/-! ### Integers -/

theorem proper_ofDigits (negative : Bool) (n : Nat) :
    (⟨negative, Nat.toDigits 10 n, none, none⟩ : Numeral).Proper :=
  ⟨digits_toDigits n, unpadded_toDigits n, nofun, nofun⟩

end Numeral

namespace Json

theorem int?_of_number? {n : Numeral} {value low high : Int}
    (h : n.number?.bind Number.int? = some value) (hlow : low ≤ value) (hhigh : value < high) :
    (number n).int? low high = some value := by
  obtain ⟨read, hread, hvalue⟩ := Option.bind_eq_some_iff.1 h
  simp only [int?, hread, hvalue, Option.bind_eq_bind, Option.bind_some, if_pos (And.intro hlow hhigh)]

theorem number?_natural {n : Nat} (h : n < UInt64.size) :
    Numeral.number? ⟨false, Nat.toDigits 10 n, none, none⟩ = some (.natural n) := by
  simp [Numeral.number?, Numeral.accumulate_toDigits h]

theorem number?_negated {n : Nat} (hpos : n ≠ 0) (h : n ≤ 0x8000000000000000) :
    Numeral.number? ⟨true, Nat.toDigits 10 n, none, none⟩ = some (.negated n) := by
  have hfits : n < UInt64.size := Nat.lt_of_le_of_lt h (by decide)
  simp [Numeral.number?, Numeral.accumulate_toDigits hfits, hpos, h]

theorem int?_nat {n high : Nat} (h : n < high) (hhigh : high ≤ UInt64.size) :
    (nat n).int? 0 high = some (n : Int) := by
  refine int?_of_number? ?_ (Int.natCast_nonneg n) (Int.ofNat_lt.2 h)
  rw [number?_natural (Nat.lt_of_lt_of_le h hhigh)]
  rfl

theorem int?_int {n low high : Int} (hlow : low ≤ n) (hhigh : n < high)
    (hleast : -0x8000000000000000 ≤ n) (hmost : n < 0x8000000000000000) :
    (int n).int? low high = some n := by
  have hsize : UInt64.size = 18446744073709551616 := rfl
  refine int?_of_number? ?_ hlow hhigh
  by_cases hsign : n < 0
  · have habs : -(n.natAbs : Int) = n := by omega
    rw [decide_eq_true hsign, number?_negated (by omega) (by omega)]
    exact congrArg some habs
  · have habs : (n.natAbs : Int) = n := by omega
    rw [decide_eq_false hsign, number?_natural (by omega)]
    exact congrArg some habs

theorem byte?_nat (b : UInt8) : (nat b.toNat).byte? = some b := by
  rw [byte?, int?_nat b.toNat_lt_size (by decide)]
  simp

theorem word32?_nat (w : UInt32) : (nat w.toNat).word32? = some w := by
  rw [word32?, int?_nat w.toNat_lt_size (by decide)]
  simp

end Json

/-! ### Numbers that are stored -/

namespace Binary

/-- Zero is written without an exponent. -/
def Decimal.Plain (d : Decimal) : Prop := d.digits = 0 → d.exponent = 0

/-- To strip zeros never leaves none. -/
theorem Decimal.Plain.strip {d : Decimal} (h : d.Plain) (fuel : Nat) : (d.strip fuel).Plain := by
  induction fuel generalizing d with
  | zero => exact h
  | succ fuel ih =>
    rw [Decimal.strip]
    split
    · refine ih fun hzero => ?_
      have hdiv : d.digits / 10 = 0 := hzero
      omega
    · exact h

namespace Interval

theorem ne_zero_of_contains {i : Interval} (hlow : 0 < i.low) {n unit : Nat}
    (h : i.contains (n * unit) = true) : n ≠ 0 := by
  rintro rfl
  rw [Nat.zero_mul] at h
  unfold contains at h
  split at h
  · simp at h
    omega
  · simp at h

/-- Zero does not lie around a positive number. -/
theorem digits_ne_zero_of_pointOnGrid {i : Interval} (hlow : 0 < i.low) {exponent : Int} {d : Decimal}
    (h : i.pointOnGrid exponent = some d) : d.digits ≠ 0 := by
  have hscaled : 0 < (i.scale (Nat.pow 10 (-exponent).toNat)).low :=
    Nat.mul_pos hlow (Nat.pow_pos (by decide))
  simp only [pointOnGrid, Option.map_eq_some_iff] at h
  obtain ⟨digits, hdigits, rfl⟩ := h
  split at hdigits
  · rename_i hdown _
    have hne := ne_zero_of_contains hscaled hdown
    split at hdigits
    · cases hdigits
      exact hne
    · split at hdigits
      · cases hdigits
        exact Nat.succ_ne_zero _
      · cases hdigits
        exact fun hsum => hne (Nat.eq_zero_of_add_eq_zero_right hsum)
  · rename_i hdown _
    cases hdigits
    exact ne_zero_of_contains hscaled hdown
  · cases hdigits
    exact Nat.succ_ne_zero _
  · cases hdigits

end Interval

theorem plain_shortest (f : Format) (m : Magnitude) : (f.shortest m).Plain := by
  unfold Format.shortest
  split
  · exact fun _ => rfl
  · rename_i hpositive
    apply Decimal.Plain.strip
    have hlow : 0 < (f.interval m).low := by
      refine Nat.mul_pos ?_ (Nat.pow_pos (by decide))
      split <;> omega
    cases hfound : (List.range maxDigits).findSome? fun (more : Nat) =>
        (f.interval m).pointOnGrid (floorLog10 (f.interval m).value (f.interval m).denominator - more) with
    | none => exact fun _ => rfl
    | some d =>
      obtain ⟨more, -, hpoint⟩ := List.exists_of_findSome?_eq_some hfound
      exact fun hzero => absurd hzero (Interval.digits_ne_zero_of_pointOnGrid hlow hpoint)

end Binary

theorem unpadded_of_head?_ne {cs : List Char} (h : cs.head? ≠ some '0') : Unpadded cs :=
  fun hzero => absurd hzero h

theorem Binary.Decimal.Plain.unpadded_append {d : Decimal} (h : d.Plain) :
    Unpadded (Nat.toDigits 10 d.digits ++ List.replicate d.exponent.toNat '0') := by
  by_cases hzero : d.digits = 0
  · rw [hzero, h hzero]
    exact fun _ => rfl
  · have hhead := head?_toDigits_ne hzero
    obtain ⟨c, cs, hcs⟩ := List.exists_cons_of_ne_nil (digits_toDigits d.digits).ne_nil
    rw [hcs] at hhead ⊢
    exact unpadded_of_head?_ne hhead

theorem Layout.proper_numeral (layout : Layout) (negative : Bool) {d : Decimal} (h : d.Plain) :
    (layout.numeral negative d).Proper := by
  have hdigits := digits_toDigits d.digits
  have hzero : Digits ['0'] := digits_toDigits 0
  simp only [numeral]
  split
  · split
    · -- All digits stand before the point.
      refine ⟨hdigits.append isDigit_of_mem_replicate, h.unpadded_append, ?_, nofun⟩
      rintro _ ⟨⟩
      exact hzero
    · rename_i hexponent
      split
      · -- The point stands among the digits. A zero has only one digit, and the exponent zero.
        rename_i hpoint
        have hne : d.digits ≠ 0 := fun hd => hexponent (Int.le_of_eq (h hd).symm)
        have hhead := head?_toDigits_ne hne
        refine ⟨hdigits.take (by omega), unpadded_of_head?_ne ?_, ?_, nofun⟩
        · rwa [List.head?_take, if_neg (by omega)]
        · rintro _ ⟨⟩
          exact hdigits.drop (by omega)
      · -- All digits stand after the point.
        refine ⟨hzero, fun _ => rfl, ?_, nofun⟩
        rintro _ ⟨⟩
        refine ⟨by simp [hdigits.ne_nil], fun c hc => ?_⟩
        rcases List.mem_append.1 hc with hc | hc
        · exact isDigit_of_mem_replicate c hc
        · exact hdigits.isDigit c hc
  · refine ⟨hdigits.take Nat.one_pos, ?_, ?_, ?_⟩
    · obtain ⟨c, cs, hcs⟩ := List.exists_cons_of_ne_nil hdigits.ne_nil
      rw [hcs]
      rintro ⟨⟩
      rfl
    · intro digits hfraction
      split at hfraction
      · cases hfraction
      · rename_i htail
        cases hfraction
        exact ⟨htail, fun c hc => hdigits.isDigit c (List.mem_of_mem_tail hc)⟩
    · rintro _ _ ⟨⟩
      exact digits_toDigits _

namespace Json

/-- How a stored number is written, whatever its width. -/
def stored (f : Format) (layout : Layout) (negative : Bool) (bits : Nat) : Json :=
  match f.ofBits? bits with
  | none => .null
  | some m => .number (layout.numeral negative (f.shortest m))

theorem float_eq_stored (x : Binary32) :
    float x = stored Format.single Layout.single x.isNegative x.unsigned := rfl

theorem double_eq_stored (x : Binary64) :
    double x = stored Format.double Layout.double x.isNegative x.unsigned := rfl

theorem stored_eq_null {f : Format} {layout : Layout} {negative : Bool} {bits : Nat}
    (h : f.infinity ≤ bits) : stored f layout negative bits = .null := by
  simp only [stored, Format.ofBits?, if_pos h]

theorem float_eq_null {x : Binary32} (h : x.isFinite = false) : float x = .null := by
  rw [float_eq_stored, stored_eq_null (Nat.le_of_not_lt (of_decide_eq_false h))]

theorem double_eq_null {x : Binary64} (h : x.isFinite = false) : double x = .null := by
  rw [double_eq_stored, stored_eq_null (Nat.le_of_not_lt (of_decide_eq_false h))]

theorem stored_eq_null_or_number (f : Format) (layout : Layout) (negative : Bool) (bits : Nat) :
    stored f layout negative bits = .null ∨
      ∃ n, n.Proper ∧ stored f layout negative bits = .number n := by
  unfold stored
  split
  · exact .inl rfl
  · exact .inr ⟨_, layout.proper_numeral negative (plain_shortest f _), rfl⟩

end Json

end OpenSound
