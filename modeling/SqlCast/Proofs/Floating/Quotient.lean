import SqlCast.Proofs.Floating.Kept
import SqlCast.Proofs.Floating.WholePart

/-! The accumulated fraction: a rounded quotient of at most one that is added to the whole part. Where
its parts are exact, only this quotient and the sum are rounded. -/

namespace SqlCast.Floating.Plain

open Text Binary

def quotient (m : Mantissa) : Binary .double :=
  .ofNat .double (ofDigits 10 (kept m).fraction) / powerOf (kept m).fraction.length

section Power

lemma unsigned_powerOf (k : ℕ) : Unsigned (powerOf k) := by
  induction k with
  | zero =>
    rw [powerOf_zero]
    exact unsigned_ofNat _ 1
  | succ k ih =>
    rw [powerOf_succ]
    exact ih.mul_ofNat (by norm_num) whole_ten

lemma ofNat_pow_le_powerOf {j k : ℕ} (hj : j ≤ 22) (hjk : j ≤ k) : .ofNat .double (10 ^ j) ≤ powerOf k := by
  induction k, hjk using Nat.le_induction with
  | base =>
    rw [powerOf_eq hj]
    exact (unsigned_ofNat _ _).le_refl
  | succ k _ ih =>
    rw [powerOf_succ]
    exact Le.trans ih (le_mul_ofNat (unsigned_powerOf k) (by norm_num) whole_ten)

lemma isZero_powerOf (k : ℕ) : (powerOf k).isZero = false := by
  refine (unsigned_powerOf k).isZero_of_one_le ?_
  have hle := ofNat_pow_le_powerOf (Nat.zero_le 22) (Nat.zero_le k)
  rwa [pow_zero] at hle

end Power

lemma quotient_eq_round {m : Mantissa} (hk : (kept m).fraction.length ≤ 22) {r : Finite .double}
    (hr : Binary.ofNat .double (ofDigits 10 (kept m).fraction) = .finite false r) :
    quotient m = round .double (r.toRat / 10 ^ (kept m).fraction.length) := by
  rw [quotient, hr, powerOf_eq hk, finite_div_ofNat r (by positivity) (whole_pow hk), Nat.cast_pow,
    Nat.cast_ofNat]

section

variable {m : Mantissa} (hm : m.WellFormed)

include hm

lemma remainder_lt_pow : ofDigits 10 (kept m).fraction < 10 ^ (kept m).fraction.length :=
  ofDigits_lt (by norm_num) (wellFormed_kept hm).fraction_lt

lemma remainder_lt : ofDigits 10 (kept m).fraction < 10 ^ 18 := by
  by_cases h : (kept m).fraction = []
  · rw [h, ofDigits_nil]
    norm_num
  · refine lt_of_le_of_lt ?_ (unscaled_kept_lt hm h)
    rw [Mantissa.unscaled_eq]
    exact Nat.le_add_left _ _

lemma exists_remainder_eq :
    ∃ r : Finite .double, Binary.ofNat .double (ofDigits 10 (kept m).fraction) = .finite false r := by
  have hlt : (ofDigits 10 (kept m).fraction : ℚ) < Format.double.overflowThreshold := by
    have h18 : (ofDigits 10 (kept m).fraction : ℚ) < 10 ^ 18 := by exact_mod_cast remainder_lt hm
    have hpow : (10 : ℚ) ^ 18 ≤ 2 ^ Format.double.maxExponent := by
      calc (10 : ℚ) ^ 18 ≤ 2 ^ 60 := by norm_num
        _ ≤ 2 ^ Format.double.maxExponent := pow_le_pow_right₀ (by norm_num) (by decide)
    exact h18.trans_le (hpow.trans Format.double.two_pow_maxExponent_le)
  obtain ⟨r, -, hr⟩ := exists_round_eq (Nat.cast_nonneg _) hlt
  exact ⟨r, by rw [← round_natCast, hr]⟩

lemma unsigned_quotient : Unsigned (quotient m) := by
  obtain ⟨r, hr⟩ := exists_remainder_eq hm
  rw [quotient, hr]
  exact unsigned_div (unsigned_powerOf _) (isZero_powerOf _) r

lemma value_accumulate : (accumulate m).value = wholeNumber m.wholeValue + quotient m := by
  have hwhole : wholeOf m.whole = wholeNumber m.wholeValue := wholeOf_eq_wholeNumber hm.whole_lt
  rw [accumulate_eq, Accumulator.value, hwhole, ← quotient]

lemma unsigned_value (f : Format) : Unsigned (value f m) := by
  rw [value, value_accumulate hm]
  exact ((unsigned_wholeNumber _).add (unsigned_quotient hm)).convert f

lemma value_eq_add : value .double m = wholeNumber m.wholeValue + quotient m := by
  rw [value, value_accumulate hm]
  exact ((unsigned_wholeNumber _).add (unsigned_quotient hm)).convert_self

lemma wholeNumber_le_value : wholeNumber m.wholeValue ≤ value .double m := by
  rw [value_eq_add hm]
  exact le_add (unsigned_wholeNumber _) (unsigned_quotient hm)

lemma quotient_le_one : quotient m ≤ .ofNat .double 1 := by
  obtain ⟨r, hr⟩ := exists_remainder_eq hm
  have hle : Binary.ofNat .double (ofDigits 10 (kept m).fraction) ≤ powerOf (kept m).fraction.length := by
    rcases le_or_gt (kept m).fraction.length 22 with hk | hk
    · exact Le.trans (ofNat_le_ofNat (remainder_lt_pow hm).le) (ofNat_pow_le_powerOf hk le_rfl)
    · exact Le.trans (ofNat_le_ofNat ((remainder_lt hm).le.trans (by norm_num)))
        (ofNat_pow_le_powerOf le_rfl hk.le)
  rw [quotient, hr]
  exact div_le_ofNat_one (unsigned_powerOf _) (isZero_powerOf _) (hr ▸ hle)

end

structure Held (m : Mantissa) : Prop where
  whole : m.wholeValue ≤ 2 ^ 53
  significant : m.significant.length ≤ 18
  length : m.fraction.length ≤ 22
  remainder : ofDigits 10 m.fraction ≤ 2 ^ 53

namespace Held

variable {m : Mantissa} (h : Held m)

include h

lemma quotient_eq : quotient m = round .double m.fractionValue := by
  have hkept : (kept m).fraction = m.fraction := takenDigits_of_le h.significant
  have hwhole : Whole .double (ofDigits 10 m.fraction) := whole_of_le h.remainder
  rw [quotient_eq_round (by rw [hkept]; exact h.length) (by rw [hkept, ofNat_eq hwhole]), hkept,
    toRat_whole hwhole, Mantissa.fractionValue]

lemma value_eq (hm : m.WellFormed) {q : Finite .double}
    (hq : round .double m.fractionValue = .finite false q) :
    value .double m = round .double (m.wholeValue + q.toRat) := by
  have hwhole : Whole .double m.wholeValue := whole_of_le h.whole
  rw [value_eq_add hm, h.quotient_eq, hq, wholeNumber_eq h.whole, ofNat_eq hwhole, finite_add,
    toRat_whole hwhole]

end Held

end SqlCast.Floating.Plain
