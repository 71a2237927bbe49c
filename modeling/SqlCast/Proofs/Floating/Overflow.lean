import SqlCast.Proofs.Floating.Order

namespace SqlCast

namespace Binary

variable {f : Format}

lemma Format.overflowThreshold_le_double (f : Format) :
    f.overflowThreshold ≤ Format.double.overflowThreshold := by
  cases f with
  | double => exact le_rfl
  | single =>
    refine le_trans ?_ Format.double.two_pow_maxExponent_le
    calc Format.single.overflowThreshold ≤ 2 ^ 128 := by
          norm_num [Format.overflowThreshold, Format.precision, Format.maxExponent]
      _ ≤ 2 ^ Format.double.maxExponent := pow_le_pow_right₀ (by norm_num) (by decide)

lemma finite_convert (v : Finite f) (g : Format) : (finite false v).convert g = round g v.toRat := by
  apply ofRatio_eq_round v.toRat_nonneg f.one_pos
  rw [Finite.toRat, Nat.cast_mul, mul_div_right_comm]

lemma isInfinite_round {x : ℚ} (hx : 0 ≤ x) :
    (round f x).isInfinite = true ↔ f.overflowThreshold ≤ x := by
  rcases lt_or_ge x f.overflowThreshold with hlt | hge
  · obtain ⟨v, -, hv⟩ := exists_round_eq hx hlt
    rw [hv]
    exact iff_of_false Bool.false_ne_true (not_le.mpr hlt)
  · rw [round_of_le hx hge]
    exact iff_of_true rfl hge

namespace Approx

variable {k : ℕ} {x : Binary .double} {y : ℚ} (h : Approx .double k x y)

include h

lemma isInfinite_convert_of_lt (hy : y * Format.double.slack ^ k < f.overflowThreshold) :
    (x.convert f).isInfinite = false := by
  cases h with
  | @ofFinite v _ h =>
    rw [finite_convert, ← Bool.not_eq_true, isInfinite_round v.toRat_nonneg, not_le]
    exact h.1.trans_lt hy
  | ofInfinity h => exact absurd (h.trans_lt hy) (not_lt.mpr f.overflowThreshold_le_double)

lemma isInfinite_convert_of_le (hy : f.overflowThreshold * Format.double.slack ^ k ≤ y) :
    (x.convert f).isInfinite = true := by
  cases h with
  | @ofFinite v _ h =>
    rw [finite_convert, isInfinite_round v.toRat_nonneg]
    exact le_of_mul_le_mul_right (hy.trans h.2) (pow_pos Format.double.slack_pos k)
  | ofInfinity => rfl

end Approx

end Binary

namespace Floating

open Text Binary

namespace Plain

variable {m : Mantissa} (hm : m.WellFormed) {f : Format}

include hm

lemma value_eq_convert : value f m = (value .double m).convert f := by
  rw [value_eq_add hm, value, value_accumulate hm]

lemma length_kept_le_of_one_le (h : 1 ≤ m.magnitude) : (kept m).fraction.length ≤ 308 := by
  have hwhole : 10 ^ 0 ≤ m.wholeValue := by
    by_contra hzero
    obtain hzero : m.wholeValue = 0 := by simpa using hzero
    rw [Mantissa.magnitude, hzero, Nat.cast_zero, zero_add] at h
    exact absurd hm.fractionValue_lt_one (not_lt.mpr h)
  have hshort := length_kept_of_pow_le hm (j := 0) (by norm_num) hwhole
  omega

lemma isInfinite_value_of_lt (h : m.magnitude * (1 + 1 / 10 ^ 12) < f.overflowThreshold) :
    (value f m).isInfinite = false := by
  rw [value_eq_convert hm]
  rcases le_or_gt (kept m).fraction.length 308 with hk | hk
  · apply (approx_value hm hk).isInfinite_convert_of_lt
    refine lt_of_le_of_lt (mul_le_mul_of_nonneg_left ?_ m.magnitude_nonneg) h
    exact (pow_le_pow_right₀ Format.double.one_le_slack (by norm_num)).trans slack_pow_le
  · -- The fraction is lost, and with it the literal.
    rw [value_of_lt_length hm hk]
    apply (approx_whole (whole_of_lt (by norm_num : 0 < 10 ^ 15))).isInfinite_convert_of_lt
    rw [Nat.cast_zero, zero_mul]
    exact zero_lt_one.trans f.one_lt_overflowThreshold

lemma isInfinite_value_of_le (h : f.overflowThreshold * (1 + 1 / 10 ^ 12) ≤ m.magnitude) :
    (value f m).isInfinite = true := by
  have hone := f.one_lt_overflowThreshold.le
  have hnonneg : 0 ≤ f.overflowThreshold := zero_le_one.trans hone
  have hk := length_kept_le_of_one_le hm
    ((hone.trans (le_mul_of_one_le_right hnonneg (by norm_num))).trans h)
  rw [value_eq_convert hm]
  apply (approx_value hm hk).isInfinite_convert_of_le
  refine le_trans (mul_le_mul_of_nonneg_left ?_ hnonneg) h
  exact (pow_le_pow_right₀ Format.double.one_le_slack (by norm_num)).trans slack_pow_le

end Plain

section

variable {l : Literal} (he : l.exponent = none) {f : Format}

include he

lemma status_read_of_lt (h : l.magnitude * (1 + 1 / 10 ^ 12) < f.overflowThreshold) :
    (read f l.text).status = .success := by
  rw [l.magnitude_of_plain he] at h
  simp [read_plain f he, Plain.isInfinite_value_of_lt l.wellFormed h]

lemma status_read_of_le (h : f.overflowThreshold * (1 + 1 / 10 ^ 12) ≤ l.magnitude) :
    (read f l.text).status = .overflow := by
  rw [l.magnitude_of_plain he] at h
  simp [read_plain f he, Plain.isInfinite_value_of_le l.wellFormed h]

end

section Limits

lemma overflowThreshold_single_bounds :
    3402 * 10 ^ 35 * (1 + 1 / 10 ^ 12) < Format.single.overflowThreshold ∧
      Format.single.overflowThreshold * (1 + 1 / 10 ^ 12) ≤ 3403 * 10 ^ 35 := by
  norm_num [Format.overflowThreshold, Format.precision, Format.maxExponent]

lemma overflowThreshold_double_bounds :
    1797 * 10 ^ 305 * (1 + 1 / 10 ^ 12) < Format.double.overflowThreshold ∧
      Format.double.overflowThreshold * (1 + 1 / 10 ^ 12) ≤ 1798 * 10 ^ 305 := by
  have hlow : (89884 * 10 ^ 305 : ℚ) ≤ 100 * 2 ^ 1023 := by
    have hnat : 89884 * 10 ^ 305 ≤ 100 * 2 ^ 1023 := by decide +kernel
    exact_mod_cast hnat
  have hhigh : (10 * 2 ^ 1023 : ℚ) ≤ 8989 * 10 ^ 305 := by
    have hnat : 10 * 2 ^ 1023 ≤ 8989 * 10 ^ 305 := by decide +kernel
    exact_mod_cast hnat
  have hpos : (0 : ℚ) < 10 ^ 305 := by positivity
  rw [Format.overflowThreshold, show Format.double.maxExponent = 1023 from rfl,
    show Format.double.precision = 53 from rfl]
  generalize (10 : ℚ) ^ 305 = x at hlow hhigh hpos ⊢
  generalize (2 : ℚ) ^ 1023 = y at hlow hhigh ⊢
  constructor <;> linarith

end Limits

/-- The greatest finite numbers are some `1.7977 * 10 ^ 308` and `3.4028 * 10 ^ 38`; a plain literal of any
length overflows just beyond them, and not before. -/
theorem read_overflow_near_limit {l : Literal} (he : l.exponent = none) :
    (l.magnitude ≤ 1797 * 10 ^ 305 → (read .double l.text).status = .success) ∧
      (1798 * 10 ^ 305 ≤ l.magnitude → (read .double l.text).status = .overflow) ∧
      (l.magnitude ≤ 3402 * 10 ^ 35 → (read .single l.text).status = .success) ∧
      (3403 * 10 ^ 35 ≤ l.magnitude → (read .single l.text).status = .overflow) := by
  obtain ⟨hdouble, hdouble'⟩ := overflowThreshold_double_bounds
  obtain ⟨hsingle, hsingle'⟩ := overflowThreshold_single_bounds
  refine ⟨fun h => ?_, fun h => ?_, fun h => ?_, fun h => ?_⟩
  · exact status_read_of_lt he ((mul_le_mul_of_nonneg_right h (by norm_num)).trans_lt hdouble)
  · exact status_read_of_le he (hdouble'.trans h)
  · exact status_read_of_lt he ((mul_le_mul_of_nonneg_right h (by norm_num)).trans_lt hsingle)
  · exact status_read_of_le he (hsingle'.trans h)

def beyondDouble : Literal where
  sign := some .minus
  mantissa := ⟨[1, 7, 9, 8] ++ List.replicate 305 0, [5, 0], true⟩
  exponent := none
  wellFormed := by decide +kernel
  present := rfl

def withinSingle : Literal where
  sign := some .plus
  mantissa := ⟨[0, 0, 3, 4, 0, 2] ++ List.replicate 35 0, [], false⟩
  exponent := none
  wellFormed := by decide
  present := rfl

theorem read_overflow_near_limit_bothFormats :
    beyondDouble.exponent = none ∧ withinSingle.exponent = none ∧
      (read .double beyondDouble.text).status = .overflow ∧
      (read .single beyondDouble.text).status = .overflow ∧
      (read .double withinSingle.text).status = .success ∧
      (read .single withinSingle.text).status = .success := by
  obtain ⟨-, hdouble, -, hsingle⟩ := read_overflow_near_limit (l := beyondDouble) rfl
  obtain ⟨hdouble', -, hsingle', -⟩ := read_overflow_near_limit (l := withinSingle) rfl
  exact ⟨rfl, rfl, hdouble (by decide +kernel), hsingle (by decide +kernel), hdouble' (by decide +kernel),
    hsingle' (by decide +kernel)⟩

end Floating

end SqlCast
