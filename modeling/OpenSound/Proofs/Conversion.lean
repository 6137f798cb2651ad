import Mathlib.Tactic.Qify
import OpenSound.Proofs.Rounding
import OpenSound.UnixTime
/-!
# Parts of a second, exactly

Nanoseconds and units of `2 ^ -32` seconds are converted through two rounded operations and a cut to a
whole number, and the outcome is nevertheless the whole part of the exact quotient.

One way nothing is rounded at all: a fraction is below `2 ^ 32` and a billion is `2 ^ 9 * 5 ^ 9`, so the
product needs no more than 53 bits. The other way the quotient by a billion is rounded, but it cannot
reach the next multiple of `2 ^ -32`: what is missing to that is at least `1 / (5 ^ 9 * 2 ^ 32)`, more
than the distance to the next number with 53 bits behind the point.
-/

namespace OpenSound

open Binary

namespace TimeTag

theorem value_ofNat_double {n : ℕ} (hn : n ≤ 2 ^ 53) : (Format.double.ofNat n).value = n := by
  apply (Format.nearest_ofNat (by decide) n).value_eq
  exact ⟨n, 0, hn, by decide, by simp⟩

/-- Dividing and then multiplying rounds twice: the quotient, and the product with what that gave. -/
theorem exists_nearest_quotient {a b c : ℕ} (ha : a ≤ 2 ^ 53) (hb : b ≤ 2 ^ 53) (hc : c ≤ 2 ^ 53)
    (hpos : 0 < b) :
    ∃ quotient, Format.double.Nearest (a / b) quotient ∧
      Format.double.Nearest (quotient.value * c)
        (Format.double.mul (Format.double.div (Format.double.ofNat a) (Format.double.ofNat b))
          (Format.double.ofNat c)) := by
  have hpos' : 0 < (Format.double.ofNat b).value := by
    rw [value_ofNat_double hb]
    exact_mod_cast hpos
  have hquotient := Format.nearest_div (f := .double) (by decide) (Format.double.ofNat a) hpos'
  rw [value_ofNat_double ha, value_ofNat_double hb] at hquotient
  refine ⟨_, hquotient, ?_⟩
  rw [← value_ofNat_double hc]
  exact Format.nearest_mul (by decide) _ _

theorem nanosOfFraction_eq {fraction : ℕ} (h : fraction < UInt32.size) :
    nanosOfFraction fraction = fraction * nanosPerSecond / UInt32.size := by
  change fraction < 2 ^ 32 at h
  obtain ⟨quotient, hquotient, hproduct⟩ := exists_nearest_quotient (a := fraction)
    (b := UInt32.size) (c := nanosPerSecond) (by omega) (by decide) (by decide) (by decide)
  have hexact : quotient.value = fraction / (UInt32.size : ℕ) := by
    refine hquotient.value_eq ⟨fraction, -32, ?_, by decide, ?_⟩
    · change fraction ≤ 2 ^ 53
      omega
    · rw [zpow_neg]
      rfl
  have hexact' : Format.double.Has (fraction / (UInt32.size : ℕ) * nanosPerSecond) := by
    refine ⟨fraction * 5 ^ 9, -23, ?_, by decide, ?_⟩
    · change fraction * 5 ^ 9 ≤ 2 ^ 53
      omega
    · push_cast
      norm_num
      ring
  rw [hexact] at hproduct
  have hfloor : (fraction : ℚ) / (UInt32.size : ℕ) * nanosPerSecond =
      (fraction * nanosPerSecond : ℕ) / (UInt32.size : ℕ) := by
    rw [Nat.cast_mul, div_mul_eq_mul_div]
  rw [nanosOfFraction, Magnitude.floor_eq, hproduct.value_eq hexact', hfloor, Nat.floor_div_eq_div]

/-- The quotient by a billion may be rounded up, but never as far as the next multiple of `2 ^ -32`. -/
theorem floor_quotient_eq {nanos : ℕ} {quotient : Magnitude} (h : nanos < nanosPerSecond)
    (hquotient : Format.double.Nearest (nanos / (nanosPerSecond : ℕ)) quotient) :
    ⌊quotient.value * (UInt32.size : ℕ)⌋₊ = nanos * UInt32.size / nanosPerSecond := by
  change nanos < 10 ^ 9 at h
  obtain ⟨units, hunits⟩ : ∃ units, units = nanos * 2 ^ 32 / 10 ^ 9 := ⟨_, rfl⟩
  obtain ⟨bits, hbits⟩ : ∃ bits, bits = nanos * 2 ^ 53 / 10 ^ 9 := ⟨_, rfl⟩
  obtain ⟨exact, hexact⟩ : ∃ exact : ℚ, exact = nanos / (nanosPerSecond : ℕ) := ⟨_, rfl⟩
  have hnanos : (nanos : ℚ) = 10 ^ 9 * exact := by
    rw [hexact]
    norm_num
    ring
  have hunitsle : 10 ^ 9 * units ≤ nanos * 2 ^ 32 := by omega
  -- Both sides are multiples of `2 ^ 9`, so it is that much at least that is missing.
  have hmissing : nanos * 2 ^ 32 + 2 ^ 9 ≤ 10 ^ 9 * (units + 1) := by omega
  have hbitsle : 10 ^ 9 * bits ≤ nanos * 2 ^ 53 := by omega
  have hbitslt : nanos * 2 ^ 53 < 10 ^ 9 * (bits + 1) := by omega
  qify at hunitsle hmissing hbitsle hbitslt
  rw [hnanos] at hunitsle hmissing hbitsle hbitslt
  rw [← hexact] at hquotient
  have htwo32 : (2 : ℚ) ^ (-32 : ℤ) = 1 / 2 ^ 32 := by norm_num
  have htwo53 : (2 : ℚ) ^ (-53 : ℤ) = 1 / 2 ^ 53 := by norm_num
  have hlow := hquotient.le_value (x := units * 2 ^ (-32 : ℤ))
    ⟨units, -32, by change _ ≤ 2 ^ 53; omega, by decide, rfl⟩
    (by
      rw [htwo32]
      linarith)
  have hnear := hquotient.abs_sub_le (bits * 2 ^ (-53 : ℤ))
    ⟨bits, -53, by change _ ≤ 2 ^ 53; omega, by decide, rfl⟩
  rw [htwo32] at hlow
  rw [htwo53, abs_of_nonpos (by linarith : bits * (1 / 2 ^ 53) - exact ≤ 0)] at hnear
  have hhigh := le_of_abs_le hnear
  change ⌊quotient.value * (2 ^ 32 : ℕ)⌋₊ = nanos * 2 ^ 32 / 10 ^ 9
  rw [← hunits, Nat.floor_eq_iff (mul_nonneg quotient.value_nonneg (Nat.cast_nonneg _))]
  push_cast
  constructor <;> linarith

theorem fractionOfNanos_eq {nanos : ℕ} (h : nanos < nanosPerSecond) :
    fractionOfNanos nanos = nanos * UInt32.size / nanosPerSecond := by
  have hsmall : nanos ≤ 2 ^ 53 := by
    change nanos < 10 ^ 9 at h
    omega
  obtain ⟨quotient, hquotient, hproduct⟩ := exists_nearest_quotient (a := nanos)
    (b := nanosPerSecond) (c := UInt32.size) hsmall (by decide) (by decide) (by decide)
  -- Multiplying by a power of two only moves the exponent.
  have hexact : Format.double.Has (quotient.value * (UInt32.size : ℕ)) := by
    obtain ⟨significand, exponent, hsignificand, hexponent, hvalue⟩ := hquotient.has
    refine ⟨significand, exponent + 32, hsignificand, by omega, ?_⟩
    rw [hvalue, zpow_add₀ two_ne_zero, ← mul_assoc]
    rfl
  rw [fractionOfNanos, Magnitude.floor_eq, hproduct.value_eq hexact, floor_quotient_eq h hquotient]

end TimeTag

/-! ### Times and tags -/

namespace UnixTime

theorem fst_clamped (t : UnixTime) : t.clamped.1 = t.seconds.toNat := by
  unfold clamped
  split
  · exact (Int.toNat_of_nonpos (by omega)).symm
  · rfl

theorem clamped_of_nonneg {t : UnixTime} (h : 0 ≤ t.seconds) :
    t.clamped = (t.seconds.toNat, t.nanos) := by
  rw [clamped, if_neg (by omega)]

theorem snd_clamped_lt (t : UnixTime) : t.clamped.2 < nanosPerSecond := by
  unfold clamped
  split
  · decide
  · exact t.nanos_lt

end UnixTime

namespace TimeTag

theorem ofUnixTime_eq (t : UnixTime) :
    ofUnixTime t = ⟨UInt32.ofNat (t.seconds.toNat + UnixTime.epoch),
      UInt32.ofNat (min (UInt32.size - 1) (fractionOfNanos t.clamped.2))⟩ := by
  rw [← t.fst_clamped, ofUnixTime]

theorem seconds_ofUnixTime (t : UnixTime) :
    (ofUnixTime t).seconds.toNat = (t.seconds.toNat + UnixTime.epoch) % UInt32.size := by
  rw [ofUnixTime_eq, UInt32.toNat_ofNat']

theorem fraction_ofUnixTime (t : UnixTime) :
    (ofUnixTime t).fraction.toNat = t.clamped.2 * UInt32.size / nanosPerSecond := by
  have hnanos := t.snd_clamped_lt
  have hlt : t.clamped.2 * UInt32.size / nanosPerSecond < UInt32.size := by
    rw [Nat.div_lt_iff_lt_mul (by decide), Nat.mul_comm]
    exact Nat.mul_lt_mul_of_pos_left hnanos (by decide)
  rw [ofUnixTime_eq, fractionOfNanos_eq hnanos, Nat.min_eq_right (Nat.le_sub_one_of_lt hlt),
    UInt32.toNat_ofNat_of_lt' hlt]

/-- The nanoseconds of a tag stay below a second, so nothing is carried. -/
theorem nanos_lt_nanosPerSecond (tag : TimeTag) :
    tag.fraction.toNat * nanosPerSecond / UInt32.size < nanosPerSecond := by
  rw [Nat.div_lt_iff_lt_mul (by decide), Nat.mul_comm]
  exact Nat.mul_lt_mul_of_pos_left tag.fraction.toNat_lt (by decide)

theorem toUnixTime_of_epoch_le {tag : TimeTag} (h : UnixTime.epoch ≤ tag.seconds.toNat) :
    tag.toUnixTime = .ok ⟨tag.seconds.toNat - UnixTime.epoch,
      tag.fraction.toNat * nanosPerSecond / UInt32.size, tag.nanos_lt_nanosPerSecond⟩ := by
  rw [toUnixTime, if_neg (not_lt.2 h), nanosOfFraction_eq tag.fraction.toNat_lt,
    UnixTime.after_of_lt _ tag.nanos_lt_nanosPerSecond]

theorem toUnixTime_of_lt_epoch {tag : TimeTag} (h : tag.seconds.toNat < UnixTime.epoch) :
    tag.toUnixTime = .error (.predatesUnixEpoch tag) := by
  rw [toUnixTime, if_pos h]

/-- A whole number of nanoseconds loses less than one of them on the way to units of `2 ^ -32` seconds
and back. -/
theorem nanos_of_fraction_of_nanos (nanos : ℕ) :
    nanos * UInt32.size / nanosPerSecond * nanosPerSecond / UInt32.size = nanos ∨
      nanos * UInt32.size / nanosPerSecond * nanosPerSecond / UInt32.size + 1 = nanos := by
  have hsize : UInt32.size = 2 ^ 32 := rfl
  have hsecond : nanosPerSecond = 10 ^ 9 := rfl
  rw [hsize, hsecond]
  omega

/-- Parts of a second are converted to the whole part of the exact quotient in both directions, and
nothing is carried into the seconds. So a time within the era comes back from its tag as it was or a
nanosecond earlier, in the same second. -/
theorem conversions_exact :
    (∀ t : UnixTime, 0 ≤ t.seconds →
      (ofUnixTime t).fraction.toNat = t.nanos * UInt32.size / nanosPerSecond) ∧
    (∀ tag : TimeTag, UnixTime.epoch ≤ tag.seconds.toNat →
      ∃ t, tag.toUnixTime = .ok t ∧ t.seconds = tag.seconds.toNat - UnixTime.epoch ∧
        t.nanos = tag.fraction.toNat * nanosPerSecond / UInt32.size ∧
        tag.fraction.toNat * nanosPerSecond / UInt32.size < nanosPerSecond) ∧
    ∀ t : UnixTime, 0 ≤ t.seconds → t.seconds + UnixTime.epoch < UInt32.size →
      ∃ back, (ofUnixTime t).toUnixTime = .ok back ∧ back.seconds = t.seconds ∧
        (back.toNanos = t.toNanos ∨ back.toNanos = t.toNanos - 1) := by
  have hfraction : ∀ t : UnixTime, 0 ≤ t.seconds →
      (ofUnixTime t).fraction.toNat = t.nanos * UInt32.size / nanosPerSecond := by
    intro t ht
    rw [fraction_ofUnixTime, UnixTime.clamped_of_nonneg ht]
  refine ⟨hfraction, fun tag htag => ?_, fun t ht hera => ?_⟩
  · exact ⟨_, toUnixTime_of_epoch_le htag, rfl, rfl, tag.nanos_lt_nanosPerSecond⟩
  · have hseconds : (ofUnixTime t).seconds.toNat = t.seconds.toNat + UnixTime.epoch := by
      rw [seconds_ofUnixTime, Nat.mod_eq_of_lt (by omega)]
    have hlate : UnixTime.epoch ≤ (ofUnixTime t).seconds.toNat := by omega
    have hback := toUnixTime_of_epoch_le hlate
    have hsame : ((ofUnixTime t).seconds.toNat : ℤ) - UnixTime.epoch = t.seconds := by omega
    refine ⟨_, hback, hsame, ?_⟩
    simp only [UnixTime.toNanos, hsame, hfraction t ht]
    have hnanos := nanos_of_fraction_of_nanos t.nanos
    omega

/-- A time in November 2023. -/
def autumn : UnixTime := ⟨1700000000, 123456789, by decide⟩

/-- The time comes back a nanosecond earlier. -/
theorem conversions_exact_autumn :
    (ofUnixTime autumn).fraction.toNat = 530242871 ∧
      ∃ back, (ofUnixTime autumn).toUnixTime = .ok back ∧ back.seconds = autumn.seconds ∧
        back.nanos = 123456788 ∧ back.toNanos = autumn.toNanos - 1 := by
  obtain ⟨hfraction, htag, hback⟩ := conversions_exact
  have hautumn : (ofUnixTime autumn).fraction.toNat = 530242871 := hfraction autumn (by decide)
  have hseconds : (ofUnixTime autumn).seconds.toNat = 3908988800 := seconds_ofUnixTime autumn
  obtain ⟨back, hread, hsame, -⟩ := hback autumn (by decide) (by decide)
  obtain ⟨t, ht, -, hnanos, -⟩ := htag (ofUnixTime autumn) (by rw [hseconds]; decide)
  rw [hread] at ht
  cases ht
  rw [hautumn] at hnanos
  refine ⟨hautumn, back, hread, hsame, hnanos, ?_⟩
  rw [UnixTime.toNanos, UnixTime.toNanos, hsame, hnanos]
  rfl

end TimeTag

end OpenSound
