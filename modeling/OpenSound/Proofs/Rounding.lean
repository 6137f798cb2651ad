import Mathlib.Algebra.Order.Field.Power
import Mathlib.Algebra.Order.Floor.Semifield
import Mathlib.Data.Rat.Floor
import Mathlib.Tactic.FieldSimp
import Mathlib.Tactic.Linarith
import Mathlib.Tactic.NormNum
import Mathlib.Tactic.Positivity
import Mathlib.Tactic.Ring
import OpenSound.Binary.Format
/-!
# Rounding to the nearest number

An operation in floating point computes its exact result and rounds it once. What can be said of the
outcome, whatever the operation, is `Format.Nearest`: it is a number of the format, and no other number
of the format is nearer to the exact result. Two consequences are all that arguments about a
conversion need. An exact result that is a number of the format comes out unchanged
(`Format.Nearest.value_eq`), and rounding never takes a result across a number of the format
(`Format.Nearest.le_value`).

The order of the proofs is that of the definition: the power of two below a fraction, the whole number
nearest to one, and the two together in units of the last place.
-/

namespace OpenSound.Binary

/-! ### Powers of two -/

theorem two_zpow_pos (e : ℤ) : (0 : ℚ) < 2 ^ e := zpow_pos two_pos e

theorem two_zpow_eq_div (e : ℤ) :
    (2 : ℚ) ^ e = (Nat.pow 2 e.toNat : ℕ) / (Nat.pow 2 (-e).toNat : ℕ) := by
  rcases Int.le_total 0 e with he | he
  · lift e to ℕ using he
    simp
  · obtain ⟨n, rfl⟩ := Int.exists_eq_neg_ofNat he
    simp

section

variable {numerator denominator : ℕ}

theorem two_zpow_floorLog2_le (hnum : 0 < numerator) (hden : 0 < denominator) :
    (2 : ℚ) ^ floorLog2 numerator denominator ≤ numerator / denominator := by
  have hden' : (0 : ℚ) < denominator := by exact_mod_cast hden
  rw [floorLog2, le_div_iff₀ hden']
  split
  · rename_i hle
    have hquot : numerator / denominator ≠ 0 := (Nat.div_pos hle hden).ne'
    have hpow : 2 ^ (numerator / denominator).log2 * denominator ≤ numerator :=
      (Nat.le_div_iff_mul_le hden).1 (Nat.log2_self_le hquot)
    rw [zpow_natCast]
    exact_mod_cast hpow
  · rename_i hlt
    have hpow : denominator ≤ numerator * 2 ^ (((denominator - 1) / numerator).log2 + 1) := by
      have hlog := (Nat.div_lt_iff_lt_mul hnum).1 (Nat.lt_log2_self (n := (denominator - 1) / numerator))
      rw [Nat.mul_comm]
      omega
    rw [zpow_neg, zpow_natCast, inv_mul_le_iff₀ (by positivity), mul_comm]
    exact_mod_cast hpow

theorem lt_two_zpow_floorLog2 (hnum : 0 < numerator) (hden : 0 < denominator) :
    (numerator : ℚ) / denominator < 2 ^ (floorLog2 numerator denominator + 1) := by
  have hden' : (0 : ℚ) < denominator := by exact_mod_cast hden
  rw [floorLog2, div_lt_iff₀ hden']
  split
  · have hpow : numerator < 2 ^ ((numerator / denominator).log2 + 1) * denominator :=
      (Nat.div_lt_iff_lt_mul hden).1 Nat.lt_log2_self
    exact_mod_cast hpow
  · rename_i hlt
    have hquot : (denominator - 1) / numerator ≠ 0 := (Nat.div_pos (by omega) hnum).ne'
    have hpow : numerator * 2 ^ ((denominator - 1) / numerator).log2 < denominator := by
      have hlog := (Nat.le_div_iff_mul_le hnum).1 (Nat.log2_self_le hquot)
      rw [Nat.mul_comm]
      omega
    have hexp : -((((denominator - 1) / numerator).log2 + 1 : ℕ) : ℤ) + 1 =
        -(((denominator - 1) / numerator).log2 : ℤ) := by
      push_cast
      ring
    rw [hexp, zpow_neg, zpow_natCast, lt_inv_mul_iff₀ (by positivity), mul_comm]
    exact_mod_cast hpow

/-! ### The nearest whole number -/

theorem abs_roundHalfEven_sub_le (hden : 0 < denominator) :
    |(roundHalfEven numerator denominator : ℚ) - numerator / denominator| ≤ 1 / 2 := by
  have hden' : (0 : ℚ) < denominator := by exact_mod_cast hden
  obtain ⟨part, hpart⟩ : ∃ part : ℚ, part = (numerator % denominator : ℕ) / denominator := ⟨_, rfl⟩
  have hwhole : (numerator : ℚ) / denominator = (numerator / denominator : ℕ) + part := by
    rw [hpart, add_div' _ _ _ hden'.ne', div_left_inj' hden'.ne']
    exact_mod_cast (Nat.div_add_mod' numerator denominator).symm
  have htwice : 2 * part = (2 * (numerator % denominator) : ℕ) / denominator := by
    rw [hpart, Nat.cast_mul, Nat.cast_ofNat, mul_div_assoc]
  have hnonneg : 0 ≤ part := by
    rw [hpart]
    positivity
  have hlt : part < 1 := by
    rw [hpart, div_lt_one hden']
    exact_mod_cast Nat.mod_lt numerator hden
  rw [hwhole, abs_le]
  unfold roundHalfEven
  dsimp only
  split
  · rename_i hbelow
    have hhalf : 2 * part < 1 := by
      rw [htwice, div_lt_one hden']
      exact_mod_cast hbelow
    constructor <;> linarith
  split
  · rename_i habove
    have hhalf : 1 < 2 * part := by
      rw [htwice, one_lt_div hden']
      exact_mod_cast habove
    push_cast
    constructor <;> linarith
  · rename_i hnotbelow hnotabove
    have hhalf : 2 * part = 1 := by
      rw [htwice, div_eq_one_iff_eq hden'.ne']
      exact_mod_cast le_antisymm (not_lt.1 hnotabove) (not_lt.1 hnotbelow)
    have hparity : numerator / denominator % 2 ≤ 1 := by omega
    have hparity' : ((numerator / denominator % 2 : ℕ) : ℚ) ≤ 1 := by exact_mod_cast hparity
    push_cast
    constructor <;> linarith [Nat.cast_nonneg (α := ℚ) (numerator / denominator % 2)]

end

/-- A whole number at most a half away is nearer than all others. -/
theorem abs_sub_le_of_abs_sub_le_half {k : ℤ} {x : ℚ} (h : |k - x| ≤ 1 / 2) (n : ℤ) :
    |k - x| ≤ |n - x| := by
  rcases eq_or_ne n k with rfl | hne
  · rfl
  · have hapart : (1 : ℚ) ≤ |(n : ℚ) - k| := by
      exact_mod_cast Int.one_le_abs (sub_ne_zero.2 hne)
    have htriangle := abs_sub_le (n : ℚ) x k
    rw [abs_sub_comm x k] at htriangle
    linarith

namespace Magnitude

/-- The number that a magnitude stands for. -/
def value (m : Magnitude) : ℚ := m.significand * 2 ^ m.exponent

theorem value_nonneg (m : Magnitude) : 0 ≤ m.value :=
  mul_nonneg (Nat.cast_nonneg _) (two_zpow_pos _).le

theorem numerator_div_denominator (m : Magnitude) :
    (m.numerator : ℚ) / m.denominator = m.value := by
  rw [value, two_zpow_eq_div, numerator, denominator, Nat.cast_mul, mul_div_assoc]

theorem floor_eq (m : Magnitude) : m.floor = ⌊m.value⌋₊ := by
  rw [floor, ← numerator_div_denominator, Nat.floor_div_eq_div]

end Magnitude

namespace Format

/-- The number is one of the format, were exponents unbounded above. -/
def Has (f : Format) (x : ℚ) : Prop :=
  ∃ (significand : ℕ) (exponent : ℤ), significand ≤ 2 ^ f.precision ∧
    f.leastExponent ≤ exponent ∧ x = significand * 2 ^ exponent

section

variable {f : Format} {numerator denominator : ℕ}

theorem round_zero (f : Format) (denominator : ℕ) : f.round 0 denominator = ⟨0, f.leastExponent⟩ := by
  rw [round, if_pos rfl]

theorem leastExponent_le_exponent_round :
    f.leastExponent ≤ (f.round numerator denominator).exponent := by
  unfold round
  split
  · exact le_rfl
  · exact le_max_left _ _

theorem exponent_round_eq (hnum : 0 < numerator) :
    (f.round numerator denominator).exponent =
      max f.leastExponent (floorLog2 numerator denominator - (f.precision - 1 : ℕ)) := by
  rw [round, if_neg hnum.ne']

variable (f numerator) in
/-- In units of its last place, a rounded number is the whole number nearest to the exact one. -/
theorem abs_significand_round_sub_le (hden : 0 < denominator) :
    |((f.round numerator denominator).significand : ℚ) -
      numerator / denominator / 2 ^ (f.round numerator denominator).exponent| ≤ 1 / 2 := by
  unfold round
  split
  · rename_i hnum
    simp [hnum]
  · obtain ⟨e, he⟩ : ∃ e, e = max f.leastExponent
      (floorLog2 numerator denominator - (f.precision - 1 : ℕ)) := ⟨_, rfl⟩
    have hscaled : (numerator : ℚ) / denominator / 2 ^ e =
        (numerator * Nat.pow 2 (-e).toNat : ℕ) / (denominator * Nat.pow 2 e.toNat : ℕ) := by
      rw [two_zpow_eq_div, div_div_div_eq, Nat.cast_mul, Nat.cast_mul]
    dsimp only
    rw [← he, hscaled]
    exact abs_roundHalfEven_sub_le (Nat.mul_pos hden (Nat.two_pow_pos _))

variable (f numerator) in
theorem div_le_two_pow_precision (hp : 0 < f.precision) (hden : 0 < denominator) :
    (numerator : ℚ) / denominator / 2 ^ (f.round numerator denominator).exponent ≤ 2 ^ f.precision := by
  rcases Nat.eq_zero_or_pos numerator with rfl | hnum
  · simp
  · rw [div_le_iff₀ (two_zpow_pos _), ← zpow_natCast, ← zpow_add₀ two_ne_zero]
    apply (lt_two_zpow_floorLog2 hnum hden).le.trans
    apply zpow_le_zpow_right₀ one_le_two
    rw [exponent_round_eq hnum]
    omega

variable (f numerator) in
/-- Above the least exponent, significands use all their bits. -/
theorem two_pow_le_of_leastExponent_lt (hden : 0 < denominator)
    (hlt : f.leastExponent < (f.round numerator denominator).exponent) :
    2 ^ (f.precision - 1) ≤
      (numerator : ℚ) / denominator / 2 ^ (f.round numerator denominator).exponent := by
  rcases Nat.eq_zero_or_pos numerator with rfl | hnum
  · rw [round_zero] at hlt
    exact absurd hlt (lt_irrefl _)
  · rw [exponent_round_eq hnum] at hlt ⊢
    rw [le_div_iff₀ (two_zpow_pos _), ← zpow_natCast, ← zpow_add₀ two_ne_zero]
    refine le_trans ?_ (two_zpow_floorLog2_le hnum hden)
    apply zpow_le_zpow_right₀ one_le_two
    omega

theorem has_value_round (hp : 0 < f.precision) (hden : 0 < denominator) :
    f.Has (f.round numerator denominator).value := by
  refine ⟨_, _, ?_, leastExponent_le_exponent_round, rfl⟩
  have hnear := (abs_le.1 (abs_significand_round_sub_le f numerator hden)).2
  have hbound := div_le_two_pow_precision f numerator hp hden
  have hlt : ((f.round numerator denominator).significand : ℚ) < (2 ^ f.precision + 1 : ℕ) := by
    push_cast
    linarith
  exact Nat.lt_succ_iff.1 (by exact_mod_cast hlt)

/-- No number of the format is nearer to a fraction than the one it is rounded to. -/
theorem abs_value_round_sub_le (hp : 0 < f.precision) (hden : 0 < denominator) {x : ℚ}
    (hx : f.Has x) :
    |(f.round numerator denominator).value - numerator / denominator| ≤
      |x - numerator / denominator| := by
  obtain ⟨significand, exponent, hsignificand, hexponent, rfl⟩ := hx
  obtain ⟨m, hm⟩ : ∃ m, m = f.round numerator denominator := ⟨_, rfl⟩
  have hpos := two_zpow_pos m.exponent
  have hscale (y : ℚ) : |y - (numerator : ℚ) / denominator| =
      |y / 2 ^ m.exponent - numerator / denominator / 2 ^ m.exponent| * 2 ^ m.exponent := by
    rw [← abs_of_pos hpos, ← abs_mul, abs_of_pos hpos, sub_mul, div_mul_cancel₀ _ hpos.ne',
      div_mul_cancel₀ _ hpos.ne']
  have hnear := abs_significand_round_sub_le f numerator hden
  rw [← hm] at hnear ⊢
  rw [hscale, hscale, Magnitude.value, mul_div_cancel_right₀ _ hpos.ne']
  apply mul_le_mul_of_nonneg_right _ hpos.le
  rcases le_or_gt m.exponent exponent with hle | hlt
  · -- The other number is a multiple of the same unit.
    obtain ⟨k, hk⟩ := Int.le.dest hle
    have hmultiple : (significand : ℚ) * 2 ^ exponent / 2 ^ m.exponent =
        ((significand * 2 ^ k : ℕ) : ℤ) := by
      rw [← hk, zpow_add₀ two_ne_zero, zpow_natCast]
      push_cast
      field_simp
    rw [hmultiple]
    exact abs_sub_le_of_abs_sub_le_half hnear _
  · -- The other number is at most the least one with all bits in use, which is not as near.
    have hfull := two_pow_le_of_leastExponent_lt f numerator hden
      (by rw [← hm]; omega)
    rw [← hm] at hfull
    have hbelow : (significand : ℚ) * 2 ^ exponent / 2 ^ m.exponent ≤ 2 ^ (f.precision - 1) := by
      rw [div_le_iff₀ hpos]
      calc (significand : ℚ) * 2 ^ exponent ≤ 2 ^ f.precision * 2 ^ exponent := by
            apply mul_le_mul_of_nonneg_right _ (two_zpow_pos _).le
            exact_mod_cast hsignificand
        _ ≤ 2 ^ (f.precision - 1) * 2 ^ m.exponent := by
            rw [← zpow_natCast, ← zpow_natCast, ← zpow_add₀ two_ne_zero, ← zpow_add₀ two_ne_zero]
            apply zpow_le_zpow_right₀ one_le_two
            omega
    have hnearest := abs_sub_le_of_abs_sub_le_half (k := m.significand) hnear (2 ^ (f.precision - 1))
    push_cast at hnearest
    apply hnearest.trans
    rw [abs_of_nonpos (by linarith), abs_of_nonpos (by linarith)]
    linarith

end

/-! ### What every operation gives -/

/-- The magnitude is a number of the format, and none is nearer to the exact result. -/
structure Nearest (f : Format) (exact : ℚ) (m : Magnitude) : Prop where
  has : f.Has m.value
  abs_sub_le : ∀ x, f.Has x → |m.value - exact| ≤ |x - exact|

section

variable {f : Format} {exact : ℚ} {m : Magnitude}

/-- A number of the format is not rounded. -/
theorem Nearest.value_eq (h : f.Nearest exact m) (hexact : f.Has exact) : m.value = exact := by
  have hle := h.abs_sub_le exact hexact
  rw [sub_self, abs_zero] at hle
  exact sub_eq_zero.1 (abs_nonpos_iff.1 hle)

theorem Nearest.le_value (h : f.Nearest exact m) {x : ℚ} (hx : f.Has x) (hle : x ≤ exact) :
    x ≤ m.value := by
  have hnear := h.abs_sub_le x hx
  rw [abs_of_nonpos (by linarith : x - exact ≤ 0)] at hnear
  linarith [neg_abs_le (m.value - exact)]

theorem nearest_round (hp : 0 < f.precision) (numerator : ℕ) {denominator : ℕ}
    (hden : 0 < denominator) :
    f.Nearest (numerator / denominator) (f.round numerator denominator) :=
  ⟨has_value_round hp hden, fun _ hx => abs_value_round_sub_le hp hden hx⟩

theorem nearest_ofNat (hp : 0 < f.precision) (n : ℕ) : f.Nearest n (f.ofNat n) := by
  have h := nearest_round hp n one_pos
  rwa [Nat.cast_one, div_one] at h

theorem nearest_mul (hp : 0 < f.precision) (x y : Magnitude) :
    f.Nearest (x.value * y.value) (f.mul x y) := by
  have h := nearest_round hp (x.numerator * y.numerator)
    (Nat.mul_pos x.denominator_pos y.denominator_pos)
  rwa [Nat.cast_mul, Nat.cast_mul, ← div_mul_div_comm, Magnitude.numerator_div_denominator,
    Magnitude.numerator_div_denominator] at h

theorem nearest_div (hp : 0 < f.precision) (x : Magnitude) {y : Magnitude} (hy : 0 < y.value) :
    f.Nearest (x.value / y.value) (f.div x y) := by
  have hnum : 0 < y.numerator := by
    apply Nat.pos_of_ne_zero
    intro hzero
    rw [← Magnitude.numerator_div_denominator, hzero, Nat.cast_zero, zero_div] at hy
    exact lt_irrefl _ hy
  have h := nearest_round hp (x.numerator * y.denominator) (Nat.mul_pos x.denominator_pos hnum)
  rwa [Nat.cast_mul, Nat.cast_mul, ← div_div_div_eq, Magnitude.numerator_div_denominator,
    Magnitude.numerator_div_denominator] at h

end

end Format

end OpenSound.Binary
