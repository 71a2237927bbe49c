import SqlCast.Proofs.Binary.Accuracy
import SqlCast.Proofs.Floating.Quotient

/-! How accurate the accumulation is: a plain literal is read within some 600 roundings of its value
as long as the power of ten under its fraction is in range. -/

namespace SqlCast.Floating.Plain

open Text Binary

section Bounds

lemma slack_pow_le : Format.double.slack ^ 1244 ≤ 1 + 1 / 10 ^ 12 := by
  have h := slack_pow_mul_le .double 1244
  have hpos : (0 : ℚ) < 1 - (1244 : ℕ) * (2 / 2 ^ Format.double.precision) := by
    norm_num [Format.precision]
  refine le_of_mul_le_mul_right (h.trans ?_) hpos
  norm_num [Format.precision]

lemma slack_pow_le_of_le {k : ℕ} (h : k ≤ 1244) : Format.double.slack ^ k ≤ 3 / 2 :=
  (pow_le_pow_right₀ Format.double.one_le_slack h).trans (slack_pow_le.trans (by norm_num))

lemma overflowThreshold_le : Format.double.overflowThreshold ≤ 2 * 10 ^ 308 := by
  have hpow : (2 ^ 1024 : ℚ) ≤ 2 * 10 ^ 308 := by
    have hnat : 2 ^ 1024 ≤ 2 * 10 ^ 308 := by decide +kernel
    exact_mod_cast hnat
  refine le_trans ?_ hpow
  rw [Format.overflowThreshold, pow_succ' _ 1023]
  refine mul_le_mul_of_nonneg_right (sub_le_self _ (by positivity)) (by positivity)

lemma le_overflowThreshold : 17 * 10 ^ 307 ≤ Format.double.overflowThreshold := by
  have hpow : (17 * 10 ^ 307 : ℚ) ≤ 19 / 10 * 2 ^ 1023 := by
    have hnat : 17 * 10 ^ 308 ≤ 19 * 2 ^ 1023 := by decide +kernel
    have hrat : (17 * 10 ^ 308 : ℚ) ≤ 19 * 2 ^ 1023 := by exact_mod_cast hnat
    rw [pow_succ] at hrat
    generalize (10 : ℚ) ^ 307 = x at hrat ⊢
    generalize (2 : ℚ) ^ 1023 = y at hrat ⊢
    linarith
  refine hpow.trans (mul_le_mul_of_nonneg_right ?_ (by positivity))
  norm_num [Format.precision]

lemma eq_infinity_of_approx {k : ℕ} {x : Binary .double} {y : ℚ} (h : Approx .double k x y) (hk : k ≤ 1244)
    (hy : 10 ^ 309 ≤ y) : x = .infinity false := by
  cases h with
  | ofInfinity => rfl
  | @ofFinite v _ h =>
    have hv : v.toRat ≤ 2 * 10 ^ 308 := v.toRat_lt_overflowThreshold.le.trans overflowThreshold_le
    have hlarge : y ≤ 2 * 10 ^ 308 * (3 / 2) :=
      h.2.trans (mul_le_mul hv (slack_pow_le_of_le hk) (pow_nonneg Format.double.slack_pos.le _)
        (by positivity))
    rw [pow_succ] at hy
    have hpos : (0 : ℚ) < 10 ^ 308 := by positivity
    generalize (10 : ℚ) ^ 308 = z at hy hlarge hpos
    linarith

end Bounds

section WholePart

lemma approx_wholeNumber_of_lt {j n : ℕ} (h : n < 10 ^ j) : Approx .double (2 * j) (wholeNumber n) n := by
  induction j generalizing n with
  | zero =>
    obtain rfl : n = 0 := by omega
    rw [wholeNumber_eq (Nat.zero_le _)]
    exact approx_whole (whole_of_le (Nat.zero_le _))
  | succ j ih =>
    obtain ⟨p, d, hd, rfl⟩ : ∃ p d, d < 10 ∧ n = p * 10 + d := ⟨n / 10, n % 10, by omega, by omega⟩
    have hp := ih (n := p) (by rw [pow_succ] at h; omega)
    have hdigit := (approx_ofNat .double d).mono (Nat.cast_nonneg d) (by omega : 1 ≤ 2 * j + 1)
    have hten : (0 : ℚ) ≤ (p : ℚ) * (10 : ℕ) := by positivity
    rw [wholeNumber_step p hd, Nat.cast_add, Nat.cast_mul]
    exact (hp.mul_ofNat (Nat.cast_nonneg p) (by norm_num) whole_ten).add hten hdigit (Nat.cast_nonneg d)

lemma wholeNumber_of_large {n : ℕ} (h : 10 ^ 310 ≤ n) : wholeNumber n = .infinity false := by
  induction n using Nat.strong_induction_on with
  | _ n ih =>
    obtain ⟨p, d, hd, rfl⟩ : ∃ p d, d < 10 ∧ n = p * 10 + d := ⟨n / 10, n % 10, by omega, by omega⟩
    have hlow : 10 ^ 309 ≤ p := by
      rw [show 310 = 309 + 1 from rfl, pow_succ] at h
      omega
    have hp : wholeNumber p = .infinity false := by
      rcases lt_or_ge p (10 ^ 310) with hlt | hge
      · exact eq_infinity_of_approx (approx_wholeNumber_of_lt hlt) (by norm_num) (by exact_mod_cast hlow)
      · exact ih p (by omega) hge
    rw [wholeNumber_step p hd, hp, infinity_mul_ofNat (by norm_num) whole_ten, infinity_add (unsigned_ofNat _ d)]

lemma approx_wholeNumber (n : ℕ) : Approx .double 620 (wholeNumber n) n := by
  rcases lt_or_ge n (10 ^ 310) with hlt | hge
  · exact approx_wholeNumber_of_lt hlt
  · rw [wholeNumber_of_large hge]
    have hmany : (10 : ℚ) ^ 310 ≤ n := by exact_mod_cast hge
    refine .ofInfinity (overflowThreshold_le.trans (le_trans ?_ (le_mul_of_one_le_right (Nat.cast_nonneg n)
      (one_le_pow₀ Format.double.one_le_slack))))
    refine le_trans ?_ hmany
    rw [pow_add (10 : ℚ) 308 2, mul_comm]
    exact mul_le_mul_of_nonneg_left (by norm_num) (by positivity)

end WholePart

section Fraction

lemma approx_powerOf (k : ℕ) : Approx .double k (powerOf k) (10 ^ k) := by
  induction k with
  | zero =>
    rw [powerOf_zero, pow_zero]
    have h := approx_whole (f := .double) (n := 1) (whole_of_lt (by norm_num))
    rwa [Nat.cast_one] at h
  | succ k ih =>
    have h := ih.mul_ofNat (by positivity) (n := 10) (by norm_num) whole_ten
    rwa [← powerOf_succ, Nat.cast_ofNat, ← pow_succ] at h

lemma powerOf_of_lt {k : ℕ} (h : 308 < k) : powerOf k = .infinity false := by
  induction k, h using Nat.le_induction with
  | base => exact eq_infinity_of_approx (approx_powerOf _) (by norm_num) le_rfl
  | succ k _ ih => rw [powerOf_succ, ih, infinity_mul_ofNat (by norm_num) whole_ten]

lemma exists_powerOf_eq {k : ℕ} (h : k ≤ 308) :
    ∃ w : Finite .double, powerOf k = .finite false w ∧ Close .double k w.toRat (10 ^ k) := by
  have happrox := approx_powerOf k
  generalize powerOf k = x at happrox
  cases happrox with
  | @ofFinite w _ hw => exact ⟨w, rfl, hw⟩
  | ofInfinity hover =>
    have hslack := slack_pow_le_of_le (by omega : k ≤ 1244)
    have hpow : (10 : ℚ) ^ k ≤ 10 ^ 308 := pow_le_pow_right₀ (by norm_num) h
    have hlow := le_overflowThreshold.trans (hover.trans
      (mul_le_mul hpow hslack (pow_nonneg Format.double.slack_pos.le k) (by positivity)))
    rw [pow_succ (10 : ℚ) 307] at hlow
    have hpos : (0 : ℚ) < 10 ^ 307 := by positivity
    generalize (10 : ℚ) ^ 307 = y at hlow hpos
    linarith

lemma two_pow_mul_slack_le {k r : ℕ} (hk : k ≤ 308) (hr : 0 < r) :
    2 ^ 50 * Format.double.slack ^ (1 + k) ≤ r / 10 ^ k * Format.double.one := by
  have hone : (Format.double.one : ℚ) = 2 ^ 1074 := by
    have hexp : Format.double.quantumExponent = 1074 := rfl
    rw [Format.one, Nat.pow_eq, Nat.cast_pow, Nat.cast_ofNat, hexp]
  have hr1 : (1 : ℚ) ≤ r := by exact_mod_cast hr
  have hnat : (2 : ℚ) ^ 50 * (3 / 2) * 10 ^ 308 ≤ 2 ^ 1074 := by
    have hnat : 3 * 2 ^ 49 * 10 ^ 308 ≤ 2 ^ 1074 := by decide +kernel
    have hrat : (3 * 2 ^ 49 * 10 ^ 308 : ℚ) ≤ 2 ^ 1074 := by exact_mod_cast hnat
    rwa [show (2 : ℚ) ^ 50 * (3 / 2) = 3 * 2 ^ 49 by norm_num]
  have hpow : (10 : ℚ) ^ k ≤ 10 ^ 308 := pow_le_pow_right₀ (by norm_num) hk
  rw [div_mul_eq_mul_div, le_div_iff₀ (by positivity), hone]
  calc (2 : ℚ) ^ 50 * Format.double.slack ^ (1 + k) * 10 ^ k ≤ 2 ^ 50 * (3 / 2) * 10 ^ 308 := by
        refine mul_le_mul (mul_le_mul_of_nonneg_left (slack_pow_le_of_le (by omega)) (by positivity)) hpow
          (by positivity) (by positivity)
    _ ≤ 2 ^ 1074 := hnat
    _ ≤ r * 2 ^ 1074 := le_mul_of_one_le_left (by positivity) hr1

variable {m : Mantissa} (hm : m.WellFormed) (hk : (kept m).fraction.length ≤ 308)

include hm hk

lemma approx_quotient : Approx .double 620 (quotient m) (kept m).fractionValue := by
  obtain ⟨w, hw, hclose⟩ := exists_powerOf_eq hk
  obtain ⟨r, hr⟩ := exists_remainder_eq hm
  have hremainder : Close .double 1 r.toRat (ofDigits 10 (kept m).fraction) := by
    have happrox := approx_ofNat .double (ofDigits 10 (kept m).fraction)
    rw [hr] at happrox
    cases happrox with
    | ofFinite h => exact h
  have hdiv : Approx .double (1 + (kept m).fraction.length + 2 ^ 2) (.finite false r / .finite false w)
      (ofDigits 10 (kept m).fraction / 10 ^ (kept m).fraction.length) := by
    refine approx_div (j := 50) hremainder hclose (Nat.cast_nonneg _) (by positivity) rfl ?_
    rcases Nat.eq_zero_or_pos (ofDigits 10 (kept m).fraction) with hzero | hpos
    · exact Or.inl (by rw [hzero, Nat.cast_zero])
    · exact Or.inr (two_pow_mul_slack_le hk hpos)
  rw [quotient, hr, hw]
  exact hdiv.mono (kept m).fractionValue_nonneg (by omega)

lemma approx_value : Approx .double 622 (value .double m) m.magnitude := by
  have hsum := (approx_wholeNumber m.wholeValue).add (Nat.cast_nonneg _) (approx_quotient hm hk)
    (kept m).fractionValue_nonneg
  rw [← value_eq_add hm] at hsum
  have hslack : (1 : ℚ) + 1 / 10 ^ 17 ≤ Format.double.slack ^ 1 := by
    norm_num [Format.slack, Format.precision]
  have hcut : Close .double 1 (kept m).magnitude m.magnitude :=
    ⟨(magnitude_kept_le hm).trans (le_mul_of_one_le_right m.magnitude_nonneg
        (one_le_pow₀ Format.double.one_le_slack)),
      (magnitude_le_kept hm).trans (mul_le_mul_of_nonneg_left hslack (kept m).magnitude_nonneg)⟩
  exact hsum.trans hcut

end Fraction

end SqlCast.Floating.Plain
