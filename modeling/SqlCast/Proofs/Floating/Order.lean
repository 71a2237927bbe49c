import SqlCast.Proofs.Floating.Accuracy
import SqlCast.Proofs.Floating.Checked

/-! Plain literals keep their order where the rounding errors of two readings cannot cross. -/

namespace SqlCast.Floating

open Text Binary

namespace Plain

section

variable {m : Mantissa} (hm : m.WellFormed)

include hm

lemma length_kept_of_pow_le {j : ℕ} (hj : j ≤ 17) (h : 10 ^ j ≤ m.wholeValue) :
    (kept m).fraction.length + j < 18 := by
  by_cases hnil : (kept m).fraction = []
  · rw [hnil, List.length_nil]
    omega
  · have hlt := unscaled_kept_lt hm hnil
    have hwhole : (kept m).wholeValue = m.wholeValue := rfl
    rw [Mantissa.unscaled_eq, hwhole] at hlt
    have hpow : 10 ^ ((kept m).fraction.length + j) < 10 ^ 18 := by
      calc 10 ^ ((kept m).fraction.length + j) = 10 ^ j * 10 ^ (kept m).fraction.length := by ring
        _ ≤ m.wholeValue * 10 ^ (kept m).fraction.length := Nat.mul_le_mul_right _ h
        _ < 10 ^ 18 := (Nat.le_add_right _ _).trans_lt hlt
    exact (Nat.pow_lt_pow_iff_right (by norm_num)).mp hpow

lemma exists_quotient_eq (hk : (kept m).fraction.length ≤ 2) :
    ∃ q : Finite .double, q.quanta < Format.double.one ∧ quotient m = .finite false q := by
  obtain ⟨e, he⟩ : ∃ e, Format.double.quantumExponent = e + 7 := ⟨1067, rfl⟩
  have hone : Format.double.one = 2 ^ e * 128 := by
    rw [Format.one, he, Nat.pow_eq, pow_add]
    norm_num
  have hpow : 10 ^ (kept m).fraction.length ≤ 10 ^ 2 := Nat.pow_le_pow_right (by norm_num) hk
  have hlt := remainder_lt_pow hm
  have hwhole : Whole .double (ofDigits 10 (kept m).fraction) := whole_of_lt (by omega)
  have hle : (ofDigits 10 (kept m).fraction : ℚ) / 10 ^ (kept m).fraction.length ≤ 127 / 128 := by
    have hnat : ofDigits 10 (kept m).fraction * 128 ≤ 127 * 10 ^ (kept m).fraction.length := by omega
    rw [div_le_div_iff₀ (by positivity) (by norm_num)]
    exact_mod_cast hnat
  have hx := (kept m).fractionValue_nonneg
  rw [Mantissa.fractionValue] at hx
  obtain ⟨q, hq⟩ := exists_finite_nearest (f := .double) hx
    (hle.trans (by norm_num [Format.precision]))
  refine ⟨q, ?_, ?_⟩
  · have hlim : (ofDigits 10 (kept m).fraction : ℚ) / 10 ^ (kept m).fraction.length * Format.double.one ≤
        (127 * 2 ^ e : ℕ) := by
      calc (ofDigits 10 (kept m).fraction : ℚ) / 10 ^ (kept m).fraction.length * Format.double.one
          ≤ 127 / 128 * Format.double.one := mul_le_mul_of_nonneg_right hle (Nat.cast_nonneg _)
        _ = (127 * 2 ^ e : ℕ) := by
          rw [hone]
          push_cast
          ring
    have hquanta := hq.mono hlim (Nearest.of_precise (precise_mul_two_pow (by decide) e))
    rw [hone]
    have hunit : 0 < 2 ^ e := by positivity
    omega
  · rw [quotient_eq_round (hk.trans (by norm_num)) (ofNat_eq hwhole), toRat_whole, round_eq hx hq]

lemma value_eq_wholeNumber (hlow : 2 ^ 53 ≤ m.wholeValue) (hlt : m.wholeValue < 2 ^ 56) :
    value .double m = wholeNumber m.wholeValue := by
  have hk := length_kept_of_pow_le hm (j := 15) (by norm_num) (by omega)
  obtain ⟨q, hq, hquotient⟩ := exists_quotient_eq hm (by omega)
  rw [value_eq_add hm, hquotient]
  have hle : wholeNumber (2 ^ Format.double.precision) ≤ wholeNumber m.wholeValue :=
    wholeNumber_mono hlow hlt
  rw [wholeNumber_eq le_rfl] at hle
  exact (unsigned_wholeNumber _).add_eq_left hle hq

lemma value_eq_zero_of_quotient (hwhole : m.wholeValue = 0) (hq : quotient m = .ofNat .double 0) :
    value .double m = .ofNat .double 0 := by
  rw [value_eq_add hm, hwhole, hq, wholeNumber_eq (Nat.zero_le _)]
  exact (unsigned_ofNat _ _).add_ofNat_zero

lemma value_of_magnitude_eq_zero (h : m.magnitude = 0) : value .double m = .ofNat .double 0 := by
  have hnonneg := m.fractionValue_nonneg
  have hwhole : (m.wholeValue : ℚ) = 0 := by
    have hcast : (0 : ℚ) ≤ m.wholeValue := Nat.cast_nonneg _
    rw [Mantissa.magnitude] at h
    linarith
  have hrem := (remainder_bounds hm).1
  rw [Mantissa.magnitude, hwhole, zero_add] at h
  rw [h, zero_mul] at hrem
  have hrem : ofDigits 10 (kept m).fraction = 0 := Nat.le_zero.mp (by exact_mod_cast hrem)
  refine value_eq_zero_of_quotient hm (by exact_mod_cast hwhole) ?_
  rw [quotient, hrem]
  exact ofNat_zero_div (unsigned_powerOf _) (isZero_powerOf _)

lemma value_of_lt_length (h : 308 < (kept m).fraction.length) : value .double m = .ofNat .double 0 := by
  obtain ⟨r, hr⟩ := exists_remainder_eq hm
  have hwhole : m.wholeValue = 0 := by
    by_contra hne
    have hshort := length_kept_of_pow_le hm (j := 0) (by norm_num) (Nat.one_le_iff_ne_zero.mpr hne)
    omega
  refine value_eq_zero_of_quotient hm hwhole ?_
  rw [quotient, hr, powerOf_of_lt h, finite_div_infinity, ← ofNat_zero]

end

section

variable {a b : Mantissa} (ha : a.WellFormed) (hb : b.WellFormed)

include ha hb

lemma value_le_of_wholeValue_lt (hwhole : a.wholeValue < b.wholeValue) (hlt : b.wholeValue < 2 ^ 56) :
    value .double a ≤ value .double b := by
  refine Le.trans ?_ (wholeNumber_le_value hb)
  rcases Nat.lt_or_ge a.wholeValue (2 ^ 53) with hlow | hhigh
  · have hlow : a.wholeValue + 1 ≤ 2 ^ Format.double.precision := hlow
    have hnext : wholeNumber (a.wholeValue + 1) ≤ wholeNumber b.wholeValue := wholeNumber_mono hwhole hlt
    refine Le.trans ?_ hnext
    have ha' : Whole .double a.wholeValue := whole_of_le ((Nat.le_succ _).trans hlow)
    have hone : Whole .double 1 := whole_of_lt (by norm_num)
    rw [value_eq_add ha, wholeNumber_eq ((Nat.le_succ _).trans hlow), wholeNumber_eq hlow, ← ofNat_add ha' hone]
    exact add_mono (unsigned_ofNat _ _) (unsigned_ofNat _ _) (unsigned_quotient ha) (unsigned_ofNat _ _)
      (unsigned_ofNat _ _).le_refl (quotient_le_one ha)
  · rw [value_eq_wholeNumber ha hhigh (hwhole.trans hlt)]
    exact wholeNumber_mono hwhole.le hlt

lemma value_le_of_quotient_le (hwhole : a.wholeValue = b.wholeValue) (h : quotient a ≤ quotient b) :
    value .double a ≤ value .double b := by
  rw [value_eq_add ha, value_eq_add hb, hwhole]
  exact add_mono (unsigned_wholeNumber _) (unsigned_wholeNumber _) (unsigned_quotient ha)
    (unsigned_quotient hb) (unsigned_wholeNumber _).le_refl h

variable (hle : a.fractionValue ≤ b.fractionValue)

include hle

lemma quotient_le_of_length_eq (hk : (kept a).fraction.length = (kept b).fraction.length) :
    quotient a ≤ quotient b := by
  have hrem := remainder_le ha hb hle hk.le
  rw [hk, Nat.sub_self, pow_zero, mul_one] at hrem
  obtain ⟨r, hr⟩ := exists_remainder_eq ha
  obtain ⟨s, hs⟩ := exists_remainder_eq hb
  have hrs := ofNat_le_ofNat (f := .double) hrem
  rw [hr, hs] at hrs
  rw [quotient, quotient, hr, hs, hk]
  exact div_mono (unsigned_powerOf _) (isZero_powerOf _) (finite_le_finite.mp hrs)

end

section Padding

variable {r s k : ℕ} {v w : Finite .double} (hv : Binary.ofNat .double r = .finite false v)
  (hw : Binary.ofNat .double s = .finite false w)

lemma whole_padded (h : r * 10 ^ (k + 1) ≤ 2 ^ 54) : Whole .double (r * 10 ^ (k + 1)) := by
  have heven : r * 10 ^ (k + 1) = r * 10 ^ k * 5 * 2 ^ 1 := by ring
  rw [heven] at h ⊢
  refine whole_mul_two_pow ?_ (by decide)
  have hle : r * 10 ^ k * 5 ≤ 2 ^ 53 := by omega
  exact hle

lemma whole_of_padded (h : r * 10 ^ (k + 1) ≤ 2 ^ 54) : Whole .double r := by
  have hle : r * 10 ≤ r * 10 ^ (k + 1) := Nat.mul_le_mul_left r (by
    rw [pow_succ]
    exact Nat.le_mul_of_pos_left 10 (by positivity))
  refine whole_of_le ?_
  have hlt : r ≤ 2 ^ 53 := by omega
  exact hlt

include hv hw

lemma toRat_le_padded (hr : r ≤ 2 ^ 54) (h : r ≤ s * 10 ^ k) : v.toRat ≤ w.toRat * 10 ^ k := by
  cases k with
  | zero =>
    rw [pow_zero, mul_one] at h ⊢
    exact toRat_le_of_le hv hw h
  | succ k =>
    rcases le_or_gt (s * 10 ^ (k + 1)) (2 ^ 54) with hfew | hmany
    · have hle := toRat_le_of_le_whole hv (whole_padded hfew) h
      rw [toRat_eq_of_whole hw (whole_of_padded hfew)]
      exact_mod_cast hle
    · have h54 : Whole .double (2 ^ 53 * 2 ^ 1) := whole_mul_two_pow le_rfl (by decide)
      have h53 : Whole .double (2 ^ 53) := whole_of_le le_rfl
      refine (toRat_le_of_le_whole hv h54 hr).trans ?_
      rcases le_or_gt s (2 ^ 53) with hs | hs
      · rw [toRat_eq_of_whole hw (whole_of_le hs)]
        exact_mod_cast hmany.le
      · have hlow := le_toRat_of_whole_le hw h53 hs.le
        have hten : (2 : ℚ) ≤ 10 ^ (k + 1) := by
          rw [pow_succ]
          have hone : (1 : ℚ) ≤ 10 ^ k := one_le_pow₀ (by norm_num)
          linarith
        calc ((2 ^ 53 * 2 ^ 1 : ℕ) : ℚ) = (2 ^ 53 : ℕ) * 2 := by norm_num
          _ ≤ w.toRat * 10 ^ (k + 1) := mul_le_mul hlow hten (by norm_num) w.toRat_nonneg

lemma padded_le_toRat (hs : s ≤ 2 ^ 54) (h : r * 10 ^ k ≤ s) : v.toRat * 10 ^ k ≤ w.toRat := by
  cases k with
  | zero =>
    rw [pow_zero, mul_one] at h ⊢
    exact toRat_le_of_le hv hw h
  | succ k =>
    have hfew := h.trans hs
    have hle := le_toRat_of_whole_le hw (whole_padded hfew) h
    rw [toRat_eq_of_whole hv (whole_of_padded hfew)]
    exact_mod_cast hle

end Padding

structure FewDigits (m : Mantissa) : Prop where
  length : (kept m).fraction.length ≤ 22
  remainder : ofDigits 10 (kept m).fraction ≤ 2 ^ 54

lemma fewDigits_of_ten_le {m : Mantissa} (hm : m.WellFormed) (h : 10 ≤ m.wholeValue) : FewDigits m := by
  have hk := length_kept_of_pow_le hm (j := 1) (by norm_num) h
  have hlt := remainder_lt_pow hm
  have hpow : 10 ^ (kept m).fraction.length ≤ 10 ^ 16 := Nat.pow_le_pow_right (by norm_num) (by omega)
  exact ⟨by omega, by omega⟩

lemma quotient_le_of_fewDigits {a b : Mantissa} (ha : a.WellFormed) (hb : b.WellFormed)
    (hfa : FewDigits a) (hfb : FewDigits b) (hle : (kept a).fractionValue ≤ (kept b).fractionValue) :
    quotient a ≤ quotient b := by
  obtain ⟨v, hv⟩ := exists_remainder_eq ha
  obtain ⟨w, hw⟩ := exists_remainder_eq hb
  rw [quotient_eq_round hfa.length hv, quotient_eq_round hfb.length hw]
  refine round_le_round (div_nonneg v.toRat_nonneg (by positivity)) ?_
  rw [Mantissa.fractionValue, Mantissa.fractionValue, div_le_div_iff₀ (by positivity) (by positivity)] at hle
  rw [div_le_div_iff₀ (by positivity) (by positivity)]
  rcases le_total (kept a).fraction.length (kept b).fraction.length with hk | hk
  · obtain ⟨k, hk⟩ := Nat.exists_eq_add_of_le hk
    have hpow : (0 : ℚ) < 10 ^ (kept a).fraction.length := by positivity
    rw [hk, pow_add, mul_left_comm, mul_comm] at hle ⊢
    have hrem : ofDigits 10 (kept a).fraction * 10 ^ k ≤ ofDigits 10 (kept b).fraction := by
      exact_mod_cast le_of_mul_le_mul_right hle hpow
    exact mul_le_mul_of_nonneg_right (padded_le_toRat hv hw hfb.remainder hrem) hpow.le
  · obtain ⟨k, hk⟩ := Nat.exists_eq_add_of_le hk
    have hpow : (0 : ℚ) < 10 ^ (kept b).fraction.length := by positivity
    rw [hk, pow_add, mul_comm (10 ^ _) (10 ^ k), ← mul_assoc] at hle ⊢
    have hrem : ofDigits 10 (kept a).fraction ≤ ofDigits 10 (kept b).fraction * 10 ^ k := by
      exact_mod_cast le_of_mul_le_mul_right hle hpow
    exact mul_le_mul_of_nonneg_right (toRat_le_padded hv hw hfa.remainder hrem) hpow.le

lemma value_le_of_apart {a b : Mantissa} (ha : a.WellFormed) (hb : b.WellFormed)
    (hka : (kept a).fraction.length ≤ 308) (hkb : (kept b).fraction.length ≤ 308)
    (h : a.magnitude * (1 + 1 / 10 ^ 12) ≤ b.magnitude) : value .double a ≤ value .double b :=
  (approx_value ha hka).le (approx_value hb hkb)
    ((mul_le_mul_of_nonneg_left slack_pow_le a.magnitude_nonneg).trans h)

/-- Literals of which the rounding errors cannot cross, the first not above the second: the whole
parts differ and are below `2 ^ 56`; they are equal and leave room for 16 fraction digits at most; as
many fraction digits are kept of both; few are; the literals are one part in a million million apart;
or the first is zero. -/
inductive Steady (a b : Mantissa) : Prop
  | wholes (h : a.wholeValue < b.wholeValue) (hb : b.wholeValue < 2 ^ 56)
  | longWhole (h : a.wholeValue = b.wholeValue) (hten : 10 ≤ a.wholeValue)
  | sameLength (h : a.wholeValue = b.wholeValue)
      (hk : (kept a).fraction.length = (kept b).fraction.length)
  | fewDigits (h : a.wholeValue = b.wholeValue) (ha : FewDigits a) (hb : FewDigits b)
  | apart (h : a.magnitude * (1 + 1 / 10 ^ 12) ≤ b.magnitude) (ha : (kept a).fraction.length ≤ 308)
      (hb : (kept b).fraction.length ≤ 308)
  | zero (h : a.magnitude = 0)

section

variable {a b : Mantissa} (ha : a.WellFormed) (hb : b.WellFormed)

include ha

lemma Steady.symm (h : Steady a b) (heq : a.magnitude = b.magnitude) : Steady b a := by
  cases h with
  | wholes h =>
    have hnext : (a.wholeValue : ℚ) + 1 ≤ b.wholeValue := by exact_mod_cast h
    have hlt := ha.fractionValue_lt_one
    have hnonneg := b.fractionValue_nonneg
    rw [Mantissa.magnitude, Mantissa.magnitude] at heq
    linarith
  | longWhole h hten => exact .longWhole h.symm (h ▸ hten)
  | sameLength h hk => exact .sameLength h.symm hk.symm
  | fewDigits h hfa hfb => exact .fewDigits h.symm hfb hfa
  | apart h hka hkb =>
    refine .apart ?_ hkb hka
    rwa [heq] at h ⊢
  | zero h => exact .zero (heq ▸ h)

include hb

lemma value_mono (hle : a.magnitude ≤ b.magnitude) (h : Steady a b) :
    value .double a ≤ value .double b := by
  have hfraction : a.wholeValue = b.wholeValue → a.fractionValue ≤ b.fractionValue := by
    intro hwhole
    rw [Mantissa.magnitude, Mantissa.magnitude, hwhole] at hle
    exact le_of_add_le_add_left hle
  cases h with
  | wholes h hlt => exact value_le_of_wholeValue_lt ha hb h hlt
  | longWhole h hten =>
    exact value_le_of_quotient_le ha hb h
      (quotient_le_of_fewDigits ha hb (fewDigits_of_ten_le ha hten) (fewDigits_of_ten_le hb (h ▸ hten))
        (fractionValue_kept_mono ha hb (hfraction h) h))
  | sameLength h hk =>
    exact value_le_of_quotient_le ha hb h (quotient_le_of_length_eq ha hb (hfraction h) hk)
  | fewDigits h hfa hfb =>
    exact value_le_of_quotient_le ha hb h
      (quotient_le_of_fewDigits ha hb hfa hfb (fractionValue_kept_mono ha hb (hfraction h) h))
  | apart h hka hkb => exact value_le_of_apart ha hb hka hkb h
  | zero h =>
    rw [value_of_magnitude_eq_zero ha h]
    exact (unsigned_value hb .double).ofNat_zero_le

end

end Plain

lemma read_value (f : Format) {m : Mantissa} (hm : m.WellFormed) (hd : m.hasDigit = true) :
    (read f m.text).value = Plain.value f m := by
  have hp : m.present = true := by rw [Mantissa.present, hd, Bool.true_or]
  have htext : Literal.text ⟨none, m, none, hm, hp⟩ = m.text := by
    simp [Literal.text, Literal.exponentText, signText]
  rw [← htext, read_plain f rfl]
  rfl

/-- Digits that read as a larger number give no smaller value, and two spellings of one number give
one value, where the rounding errors of the two readings cannot cross. Neither reading leaves its
counters. -/
theorem read_mono {a b : Mantissa} (ha : a.WellFormed) (hb : b.WellFormed) (hda : a.hasDigit = true)
    (hdb : b.hasDigit = true) (hla : a.text.length < 2 ^ 32) (hlb : b.text.length < 2 ^ 32)
    (hle : a.magnitude ≤ b.magnitude) (h : Plain.Steady a b) :
    Checked.read .double a.text = .ok (read .double a.text) ∧
      Checked.read .double b.text = .ok (read .double b.text) ∧
      (read .double a.text).value ≤ (read .double b.text).value ∧
      (a.magnitude = b.magnitude → (read .double a.text).value = (read .double b.text).value) := by
  refine ⟨Checked.read_eq .double hla, Checked.read_eq .double hlb, ?_⟩
  rw [read_value .double ha hda, read_value .double hb hdb]
  have hval := Plain.value_mono ha hb hle h
  refine ⟨hval, fun heq => ?_⟩
  exact (Plain.unsigned_value ha .double).le_antisymm (Plain.unsigned_value hb .double) hval
    (Plain.value_mono hb ha heq.ge (h.symm ha heq))

def belowLimit : Mantissa :=
  ⟨[7, 2, 0, 5, 7, 5, 9, 4, 0, 3, 7, 9, 2, 7, 9, 3, 4], [9, 9], true⟩

def limit : Mantissa := ⟨[7, 2, 0, 5, 7, 5, 9, 4, 0, 3, 7, 9, 2, 7, 9, 3, 5], [], false⟩

theorem read_mono_limit :
    belowLimit.WellFormed ∧ limit.WellFormed ∧ belowLimit.hasDigit = true ∧ limit.hasDigit = true ∧
      belowLimit.text.length < 2 ^ 32 ∧ limit.text.length < 2 ^ 32 ∧
      belowLimit.magnitude ≤ limit.magnitude ∧ Plain.Steady belowLimit limit ∧
      (read .double belowLimit.text).value ≤ (read .double limit.text).value := by
  have hb : belowLimit.WellFormed := by decide
  have hl : limit.WellFormed := by decide
  have hlb : belowLimit.text.length < 2 ^ 32 := by decide
  have hll : limit.text.length < 2 ^ 32 := by decide
  have hle : belowLimit.magnitude ≤ limit.magnitude := by decide +kernel
  have h : Plain.Steady belowLimit limit := .wholes (by decide) (by decide)
  obtain ⟨-, -, hvalue, -⟩ := read_mono hb hl rfl rfl hlb hll hle h
  exact ⟨hb, hl, rfl, rfl, hlb, hll, hle, h, hvalue⟩

def carried : Mantissa := ⟨[9, 0, 0, 7, 1, 9, 9, 2, 5, 4, 7, 4, 0, 9, 9, 2, 9], [], false⟩

def next : Mantissa := ⟨[9, 0, 0, 7, 1, 9, 9, 2, 5, 4, 7, 4, 0, 9, 9, 3, 0], [], false⟩

def unpadded : Mantissa := ⟨[0], [4, 5, 7, 5, 3, 2, 8, 7, 8, 3, 4, 0, 6, 5, 5], true⟩

def padded : Mantissa := ⟨[0], [4, 5, 7, 5, 3, 2, 8, 7, 8, 3, 4, 0, 6, 5, 5, 0, 0], true⟩

theorem not_read_mono :
    (¬∀ a b : Mantissa, a.WellFormed → b.WellFormed → a.hasDigit = true → b.hasDigit = true →
        a.magnitude ≤ b.magnitude → (read .double a.text).value ≤ (read .double b.text).value) ∧
      ¬∀ a b : Mantissa, a.WellFormed → b.WellFormed → a.hasDigit = true → b.hasDigit = true →
        a.magnitude = b.magnitude → (read .double a.text).value = (read .double b.text).value := by
  constructor
  · intro h
    exact absurd (h carried next (by decide) (by decide) rfl rfl (by decide +kernel)) (by decide +kernel)
  · intro h
    exact absurd (h unpadded padded (by decide) (by decide) rfl rfl (by decide +kernel)) (by decide +kernel)

end SqlCast.Floating
