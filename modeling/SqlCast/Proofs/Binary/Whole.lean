import SqlCast.Proofs.Binary.Order

namespace SqlCast.Binary

variable {f : Format}

lemma roundHalfEven_mul_right (num den : ℕ) {c : ℕ} (hc : 0 < c) :
    roundHalfEven (num * c) (den * c) = roundHalfEven num den := by
  have hlow : 2 * (num % den * c) < den * c ↔ 2 * (num % den) < den := by
    rw [← mul_assoc, Nat.mul_lt_mul_right hc]
  have hhigh : den * c < 2 * (num % den * c) ↔ den < 2 * (num % den) := by
    rw [← mul_assoc, Nat.mul_lt_mul_right hc]
  simp only [roundHalfEven, Nat.mul_div_mul_right _ _ hc, Nat.mul_mod_mul_right, hlow, hhigh]

lemma whole_mul_two_pow {m e : ℕ} (hm : m ≤ 2 ^ f.precision) (he : f.precision + e ≤ f.maxExponent) :
    Whole f (m * 2 ^ e) := by
  have hunit : m * 2 ^ e * f.one = m * 2 ^ (e + f.quantumExponent) := by
    rw [mul_assoc, pow_add]
    rfl
  refine ⟨?_, hunit ▸ precise_mul_two_pow hm _⟩
  rw [hunit]
  calc m * 2 ^ (e + f.quantumExponent) ≤ 2 ^ f.precision * 2 ^ (e + f.quantumExponent) :=
        Nat.mul_le_mul_right _ hm
    _ = 2 ^ (f.precision + e + f.quantumExponent) := by rw [← pow_add, add_assoc]
    _ < f.ceiling := Nat.pow_lt_pow_right (by norm_num) (by omega)

section

variable {m n : ℕ} {v w : Finite f} (hv : ofNat f m = finite false v)

include hv

lemma toRat_eq_of_whole (hm : Whole f m) : v.toRat = m := by
  rw [ofNat_eq hm] at hv
  cases hv
  exact toRat_whole hm

lemma toRat_le_of_le (hw : ofNat f n = finite false w) (h : m ≤ n) : v.toRat ≤ w.toRat := by
  have hle := ofNat_le_ofNat (f := f) h
  rw [hv, hw] at hle
  exact Finite.toRat_le_toRat.mpr (finite_le_finite.mp hle)

lemma toRat_le_of_le_whole (hn : Whole f n) (h : m ≤ n) : v.toRat ≤ n := by
  rw [← toRat_whole hn]
  exact toRat_le_of_le hv (ofNat_eq hn) h

lemma le_toRat_of_whole_le (hn : Whole f n) (h : n ≤ m) : n ≤ v.toRat := by
  rw [← toRat_whole hn]
  exact toRat_le_of_le (ofNat_eq hn) hv h

end

lemma roundHalfEven_bounds (num : ℕ) {den : ℕ} (hden : 0 < den) :
    2 * (roundHalfEven num den * den) ≤ 2 * num + den ∧ 2 * num ≤ 2 * (roundHalfEven num den * den) + den := by
  have hsplit := Nat.div_add_mod' num den
  have hmod := Nat.mod_lt num hden
  simp only [roundHalfEven]
  generalize num / den = q at *
  generalize num % den = r at *
  have hnext : (q + 1) * den = q * den + den := Nat.succ_mul q den
  split_ifs with hlow hhigh
  · omega
  · omega
  · rcases Nat.mod_two_eq_zero_or_one q with h | h
    · rw [h, Nat.add_zero]
      omega
    · rw [h]
      omega

section

variable {n j : ℕ} (hlt : n < 2 ^ (f.precision + j))

include hlt

lemma roundHalfEven_two_pow_le : roundHalfEven n (2 ^ j) ≤ 2 ^ f.precision := by
  apply roundHalfEven_le
  rw [Nat.div_lt_iff_lt_mul (by positivity), ← pow_add]
  exact hlt

lemma precise_rounded : Precise f (roundHalfEven n (2 ^ j) * 2 ^ j * f.one) := by
  rw [mul_assoc, Format.one, Nat.pow_eq, ← pow_add]
  exact precise_mul_two_pow (roundHalfEven_two_pow_le hlt) _

lemma whole_rounded (hj : f.precision + j ≤ f.maxExponent) :
    Whole f (roundHalfEven n (2 ^ j) * 2 ^ j) :=
  whole_mul_two_pow (roundHalfEven_two_pow_le hlt) hj

variable (hlow : 2 ^ (f.precision - 1 + j) ≤ n)

include hlow

lemma roundQuanta_whole : roundQuanta f (n * f.one) 1 = roundHalfEven n (2 ^ j) * 2 ^ j * f.one := by
  have hbits : excessBits f (n * f.one / 1) = j + f.quantumExponent := by
    rw [Nat.div_one]
    apply excessBits_eq
    · rw [← add_assoc, pow_add]
      exact Nat.mul_lt_mul_of_pos_right hlt f.one_pos
    · rw [← add_assoc, pow_add]
      exact Or.inr (Nat.mul_le_mul_right _ hlow)
  have hunit : 1 * 2 ^ (j + f.quantumExponent) = 2 ^ j * f.one := by rw [one_mul, pow_add]; rfl
  rw [roundQuanta_eq, roundedSignificand, hbits, hunit, roundHalfEven_mul_right _ _ f.one_pos, mul_assoc,
    pow_add]
  rfl

lemma ofNat_eq_rounded : ofNat f n = ofNat f (roundHalfEven n (2 ^ j) * 2 ^ j) := by
  have hround : roundQuanta f (roundHalfEven n (2 ^ j) * 2 ^ j * f.one) 1 =
      roundHalfEven n (2 ^ j) * 2 ^ j * f.one := by
    have hn := nearest_roundQuanta f (roundHalfEven n (2 ^ j) * 2 ^ j * f.one) Nat.one_pos
    rw [Nat.cast_one, div_one] at hn
    exact hn.unique (Nearest.of_precise (precise_rounded hlt))
  simp only [ofNat, ofRatio, roundQuanta_whole hlt hlow, hround]

end

lemma Precise.add_two_le {n k : ℕ} (hn : Precise f n) (hk : Precise f k) (hlow : 2 ^ f.precision * f.one ≤ n)
    (hlt : n < k) : n + 2 * f.one ≤ k := by
  have hp := f.two_le_precision
  have hunit : (2 : ℕ) ^ (f.quantumExponent + 1) = 2 * f.one := by rw [pow_succ']; rfl
  have hlow : 2 ^ (f.precision - 1 + (f.quantumExponent + 1)) ≤ n := by
    refine le_trans (le_of_eq ?_) hlow
    rw [Format.one, Nat.pow_eq, ← pow_add]
    congr 1
    omega
  obtain ⟨i, rfl⟩ := hn.two_pow_dvd hlow
  obtain ⟨l, rfl⟩ := hk.two_pow_dvd (hlow.trans hlt.le)
  rw [hunit] at hlt ⊢
  have hil : i + 1 ≤ l := Nat.lt_of_mul_lt_mul_left hlt
  calc 2 * f.one * i + 2 * f.one = 2 * f.one * (i + 1) := by ring
    _ ≤ 2 * f.one * l := Nat.mul_le_mul_left _ hil

lemma finite_add_eq_left {v q : Finite f} (hv : 2 ^ f.precision * f.one ≤ v.quanta) (hq : q.quanta < f.one) :
    finite false v + finite false q = finite false v := by
  rw [finite_add]
  refine round_eq (add_nonneg v.toRat_nonneg q.toRat_nonneg) ?_
  rw [add_mul, v.toRat_mul_one, q.toRat_mul_one]
  have hcloser : ∀ k, Precise f k → k ≠ v.quanta →
      |(v.quanta + q.quanta : ℚ) - v.quanta| < |(v.quanta + q.quanta : ℚ) - k| := by
    intro k hk hne
    rw [add_sub_cancel_left, abs_of_nonneg (Nat.cast_nonneg _)]
    rcases Nat.lt_or_gt_of_ne hne with hlt | hgt
    · have hlt : (k : ℚ) < v.quanta := by exact_mod_cast hlt
      have hq0 : (0 : ℚ) ≤ q.quanta := Nat.cast_nonneg _
      rw [abs_of_nonneg (by linarith)]
      linarith
    · have hgap : (v.quanta + 2 * f.one : ℚ) ≤ k := by
        exact_mod_cast Precise.add_two_le v.representable.2 hk hv hgt
      have hq : (q.quanta : ℚ) < f.one := by exact_mod_cast hq
      have hone := f.cast_one_pos
      rw [abs_of_nonpos (by linarith)]
      linarith
  refine ⟨v.representable.2, fun k hk => ?_, fun k hk hne heq => absurd heq (hcloser k hk hne).ne⟩
  by_cases hkv : k = v.quanta
  · rw [hkv]
  · exact (hcloser k hk hkv).le

lemma Unsigned.add_eq_left {x : Binary f} (hx : Unsigned x) (h : ofNat f (2 ^ f.precision) ≤ x)
    {q : Finite f} (hq : q.quanta < f.one) : x + finite false q = x := by
  rw [ofNat_eq (whole_of_le le_rfl)] at h
  cases hx with
  | ofInfinity => exact infinity_add (.ofFinite q)
  | ofFinite v => exact finite_add_eq_left (finite_le_finite.mp h) hq

end SqlCast.Binary
