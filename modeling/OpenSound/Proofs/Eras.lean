import OpenSound.Proofs.Conversion
/-!
# Order and eras

The order of tags is that of their wire values, and within one era the tags of times are in the order
of the times (`isLE_compare_ofUnixTime`): both are read off the two halves of the wire value, of which
the conversion gives one each.

At the end of an era, in 2036, the seconds start again from zero. The tag of such a time means an
earlier one, or none that can be expressed, but it never means "at once": of the fractions that a
whole number of nanoseconds gives, none is 1.
-/

namespace OpenSound

/-- The later of a time and the start of 1970 respects the order of times, seconds first. -/
theorem UnixTime.clamped_le {t u : UnixTime} (h : t.toNanos ≤ u.toNanos) :
    t.clamped.1 < u.clamped.1 ∨ t.clamped.1 = u.clamped.1 ∧ t.clamped.2 ≤ u.clamped.2 := by
  have ht : t.nanos < 10 ^ 9 := t.nanos_lt
  have hu : u.nanos < 10 ^ 9 := u.nanos_lt
  simp only [toNanos, nanosPerSecond] at h
  unfold clamped
  split <;> split <;> omega

namespace TimeTag

/-! ### Order -/

theorem compare_eq_compare_toBits (s t : TimeTag) :
    s.compare t = Ord.compare s.toBits t.toBits := by
  have hs := s.fraction.toNat_lt
  have ht := t.fraction.toNat_lt
  rw [compare, UInt32.compare_eq_toNat_compare_toNat, UInt32.compare_eq_toNat_compare_toNat,
    UInt64.compare_eq_toNat_compare_toNat]
  -- The higher halves decide unless they are the same.
  rcases Nat.lt_trichotomy s.seconds.toNat t.seconds.toNat with hlt | heq | hgt
  · have hbits : s.toBits.toNat < t.toBits.toNat := by
      rw [toNat_toBits, toNat_toBits]
      omega
    rw [Nat.compare_eq_lt.2 hlt, Nat.compare_eq_lt.2 hbits]
    rfl
  · rw [Nat.compare_eq_eq.2 heq, Ordering.eq_then, toNat_toBits, toNat_toBits, heq]
    rcases Nat.lt_trichotomy s.fraction.toNat t.fraction.toNat with hlt | heq | hgt
    · rw [Nat.compare_eq_lt.2 hlt, Nat.compare_eq_lt.2 (Nat.add_lt_add_left hlt _)]
    · rw [heq, Nat.compare_eq_eq.2 rfl, Nat.compare_eq_eq.2 rfl]
    · rw [Nat.compare_eq_gt.2 hgt, Nat.compare_eq_gt.2 (Nat.add_lt_add_left hgt _)]
  · have hbits : t.toBits.toNat < s.toBits.toNat := by
      rw [toNat_toBits, toNat_toBits]
      omega
    rw [Nat.compare_eq_gt.2 hgt, Nat.compare_eq_gt.2 hbits]
    rfl

theorem isLE_compare_iff {s t : TimeTag} : (s.compare t).isLE ↔ s.toBits ≤ t.toBits := by
  rw [compare_eq_compare_toBits, Std.isLE_compare]

theorem isLE_compare_ofUnixTime {t u : UnixTime} (h : t.toNanos ≤ u.toNanos)
    (hera : u.seconds + UnixTime.epoch < UInt32.size) :
    ((ofUnixTime t).compare (ofUnixTime u)).isLE := by
  have hclamped := UnixTime.clamped_le h
  rw [UnixTime.fst_clamped, UnixTime.fst_clamped] at hclamped
  have hsize : UnixTime.epoch < UInt32.size := by decide
  have hfraction := (ofUnixTime t).fraction.toNat_lt
  rw [isLE_compare_iff, UInt64.le_iff_toNat_le, toNat_toBits, toNat_toBits, seconds_ofUnixTime,
    seconds_ofUnixTime, Nat.mod_eq_of_lt (by omega), Nat.mod_eq_of_lt (by omega)]
  rcases hclamped with hlt | ⟨heq, hle⟩
  · omega
  · have hparts : (ofUnixTime t).fraction.toNat ≤ (ofUnixTime u).fraction.toNat := by
      rw [fraction_ofUnixTime, fraction_ofUnixTime]
      exact Nat.div_le_div_right (Nat.mul_le_mul_right _ hle)
    omega

/-! ### At once -/

/-- A nanosecond is more than four units of `2 ^ -32` seconds. -/
theorem fraction_ofUnixTime_ne_one (t : UnixTime) : (ofUnixTime t).fraction.toNat ≠ 1 := by
  have hsize : UInt32.size = 2 ^ 32 := rfl
  have hsecond : nanosPerSecond = 10 ^ 9 := rfl
  rw [fraction_ofUnixTime, hsize, hsecond]
  omega

theorem ofUnixTime_ne_immediate (t : UnixTime) : ofUnixTime t ≠ immediate := by
  intro h
  apply fraction_ofUnixTime_ne_one t
  rw [h]
  rfl

/-! ### Any time -/

/-- Tags are ordered by their wire values, which are all the double words, and within the first era the
order of times is that of their tags. In whatever era a time lies, its seconds are counted modulo
`2 ^ 32`, so the time its tag means is off by whole eras, or cannot be expressed where the count falls
before 1970. No time has the tag that means "at once". -/
theorem order_and_eras :
    (Function.LeftInverse ofBits toBits ∧ Function.RightInverse ofBits toBits) ∧
    (∀ s t : TimeTag, s.compare t = Ord.compare s.toBits t.toBits ∧
      ((s.compare t).isLE ↔ s.toBits ≤ t.toBits)) ∧
    (∀ t u : UnixTime, t.toNanos ≤ u.toNanos → u.seconds + UnixTime.epoch < UInt32.size →
      ((ofUnixTime t).compare (ofUnixTime u)).isLE) ∧
    ∀ t : UnixTime,
      (ofUnixTime t).seconds.toNat = (t.seconds.toNat + UnixTime.epoch) % UInt32.size ∧
      ofUnixTime t ≠ immediate ∧
      ((∃ fault, (ofUnixTime t).toUnixTime = .error fault) ↔
        (ofUnixTime t).seconds.toNat < UnixTime.epoch) ∧
      (UnixTime.epoch ≤ (ofUnixTime t).seconds.toNat →
        ∃ back, (ofUnixTime t).toUnixTime = .ok back ∧
          (UInt32.size : ℤ) ∣ back.seconds - t.seconds.toNat) := by
  refine ⟨⟨ofBits_toBits, toBits_ofBits⟩, fun s t => ⟨compare_eq_compare_toBits s t, isLE_compare_iff⟩,
    fun t u => isLE_compare_ofUnixTime, fun t => ?_⟩
  have hseconds := seconds_ofUnixTime t
  refine ⟨hseconds, ofUnixTime_ne_immediate t, ⟨?_, fun h => ⟨_, toUnixTime_of_lt_epoch h⟩⟩, ?_⟩
  · rintro ⟨fault, hfault⟩
    by_contra hlate
    rw [toUnixTime_of_epoch_le (not_lt.1 hlate)] at hfault
    cases hfault
  · intro hlate
    have hwhole : ((ofUnixTime t).seconds.toNat - UnixTime.epoch : ℤ) - t.seconds.toNat =
        (t.seconds.toNat + UnixTime.epoch : ℤ) % UInt32.size - (t.seconds.toNat + UnixTime.epoch) := by
      rw [hseconds]
      push_cast
      ring
    refine ⟨_, toUnixTime_of_epoch_le hlate, ?_⟩
    rw [hwhole]
    exact Int.dvd_sub_self_of_emod_eq rfl

/-- The second in which the count of seconds since 1900 starts again. -/
def rollover : UnixTime := ⟨2085978496, 0, by decide⟩

/-- A time in 2106, as many seconds after the start of 1970 as an era has. -/
def secondEra : UnixTime := ⟨4294967296, 5, by decide⟩

/-- The tag of the rollover cannot be converted, and that of the later time is converted to one a whole
number of eras away. -/
theorem order_and_eras_secondEra :
    ((ofUnixTime ⟨-1, 0, by decide⟩).compare (ofUnixTime autumn)).isLE ∧
    (∃ fault, (ofUnixTime rollover).toUnixTime = .error fault) ∧
    ∃ back, (ofUnixTime secondEra).toUnixTime = .ok back ∧
      (UInt32.size : ℤ) ∣ back.seconds - 4294967296 := by
  obtain ⟨-, -, horder, heras⟩ := order_and_eras
  obtain ⟨hrollover, -, hearly, -⟩ := heras rollover
  obtain ⟨hsecond, -, -, hlate⟩ := heras secondEra
  refine ⟨horder ⟨-1, 0, by decide⟩ autumn (by decide) (by decide), ?_, ?_⟩
  · rw [hearly, hrollover]
    decide
  · refine hlate ?_
    rw [hsecond]
    decide

end TimeTag

end OpenSound
