import Mathlib.Algebra.Order.Field.Power
import SqlCast.Proofs.Binary.Exact
import SqlCast.Status

/-! The two ends of the range: where nearest numbers leave it, and where they are still zero. -/

namespace SqlCast.Binary

namespace Format

variable (f : Format)

def overflowThreshold : ℚ := (2 - 1 / 2 ^ f.precision) * 2 ^ f.maxExponent

def underflowThreshold : ℚ := 1 / (2 * f.one)

def greatest : ℕ := (2 ^ f.precision - 1) * 2 ^ (2 * f.maxExponent - 1)

lemma ceiling_eq : f.ceiling = 2 ^ f.precision * 2 ^ (2 * f.maxExponent - 1) := by
  rw [ceiling, Nat.pow_eq, ← pow_add]
  congr 1
  cases f <;> decide

lemma precise_greatest : Precise f f.greatest :=
  precise_mul_two_pow (Nat.sub_le _ _) _

lemma precise_ceiling : Precise f f.ceiling := by
  rw [ceiling_eq]
  exact precise_mul_two_pow le_rfl _

lemma greatest_lt_ceiling : f.greatest < f.ceiling := by
  rw [ceiling_eq, greatest]
  exact Nat.mul_lt_mul_of_pos_right (Nat.sub_lt (by positivity) Nat.one_pos) (by positivity)

lemma odd_significand_greatest : ¬Even (significand f f.greatest) := by
  have hp := f.two_le_precision
  have heven : Even (2 ^ f.precision) := Nat.even_pow.mpr ⟨even_two, by omega⟩
  have hle : 2 ^ (f.precision - 1) ≤ 2 ^ f.precision - 1 :=
    Nat.le_sub_one_of_lt (Nat.pow_lt_pow_right (by norm_num) (by omega))
  rw [greatest, significand_mul_two_pow (Nat.sub_lt (by positivity) Nat.one_pos) (Or.inr hle), Nat.not_even_iff_odd]
  exact Nat.Even.sub_odd Nat.one_le_two_pow heven odd_one

lemma two_mul_overflowThreshold : 2 * (f.overflowThreshold * f.one) = f.greatest + f.ceiling := by
  have hq : f.maxExponent + 1 + f.quantumExponent = f.precision + (2 * f.maxExponent - 1) := by
    cases f <;> decide
  have hone : (2 : ℚ) * 2 ^ f.maxExponent * f.one = 2 ^ f.precision * 2 ^ (2 * f.maxExponent - 1) := by
    rw [one, Nat.pow_eq, Nat.cast_pow, Nat.cast_ofNat, ← pow_succ', ← pow_add, hq, pow_add]
  have hle : 1 ≤ 2 ^ f.precision := Nat.one_le_two_pow
  rw [ceiling_eq, greatest, overflowThreshold]
  push_cast [hle]
  calc 2 * ((2 - 1 / 2 ^ f.precision) * 2 ^ f.maxExponent * f.one)
      = (2 - 1 / 2 ^ f.precision) * ((2 : ℚ) * 2 ^ f.maxExponent * f.one) := by ring
    _ = (2 ^ f.precision - 1) * 2 ^ (2 * f.maxExponent - 1) +
        2 ^ f.precision * 2 ^ (2 * f.maxExponent - 1) := by
      rw [hone]
      field_simp
      ring

end Format

variable {f : Format} {x y : ℚ} {n : ℕ}

lemma Precise.le_greatest (hn : Precise f n) (hlt : n < f.ceiling) : n ≤ f.greatest := by
  by_contra hgt
  have hp := f.two_le_precision
  have hlow : 2 ^ (f.precision - 1 + (2 * f.maxExponent - 1)) ≤ n := by
    refine le_trans ?_ (not_le.mp hgt).le
    rw [pow_add, Format.greatest]
    exact Nat.mul_le_mul_right _
      (Nat.le_sub_one_of_lt (Nat.pow_lt_pow_right (by norm_num) (by omega)))
  obtain ⟨j, rfl⟩ := hn.two_pow_dvd hlow
  rw [f.ceiling_eq, mul_comm] at hlt
  have hj : j < 2 ^ f.precision := Nat.lt_of_mul_lt_mul_right hlt
  refine hgt ?_
  rw [Format.greatest, mul_comm]
  exact Nat.mul_le_mul_right _ (Nat.le_sub_one_of_lt hj)

namespace Nearest

lemma lt_ceiling_iff (hn : Nearest f (x * f.one) n) : n < f.ceiling ↔ x < f.overflowThreshold := by
  have hone := f.cast_one_pos
  have hsum := f.two_mul_overflowThreshold
  rw [← mul_lt_mul_iff_left₀ hone]
  constructor
  · intro hlt
    have hcast : (n : ℚ) < f.ceiling := by exact_mod_cast hlt
    have hle : (n : ℚ) ≤ f.greatest := by exact_mod_cast hn.precise.le_greatest hlt
    have hmid := (abs_sub_left_le_iff hcast).mp (hn.le _ f.precise_ceiling)
    refine lt_of_le_of_ne (by linarith) fun heq => ?_
    -- The threshold is a tie, and the greatest finite number is the odd side of it.
    have hgreatest : (n : ℚ) = f.greatest := by linarith
    have htie := (abs_sub_eq_iff hcast).mpr (by linarith : 2 * (x * f.one) = n + f.ceiling)
    have heven := hn.even _ f.precise_ceiling hlt.ne' htie
    obtain rfl : n = f.greatest := by exact_mod_cast hgreatest
    exact f.odd_significand_greatest heven
  · intro hlt
    by_contra hge
    have hle : (f.ceiling : ℚ) ≤ n := by exact_mod_cast not_lt.mp hge
    have hcast : (f.greatest : ℚ) < n :=
      lt_of_lt_of_le (by exact_mod_cast f.greatest_lt_ceiling) hle
    have hmid := (abs_sub_right_le_iff hcast).mp (hn.le _ f.precise_greatest)
    linarith

lemma eq_zero_iff (hn : Nearest f (x * f.one) n) : n = 0 ↔ x ≤ f.underflowThreshold := by
  have hone := f.cast_one_pos
  have hlt : 1 < 2 ^ f.precision := f.one_lt_two_pow_precision
  have hmul : f.underflowThreshold * f.one = 1 / 2 := by
    rw [Format.underflowThreshold]
    field_simp
  have hp1 : Precise f 1 := precise_mul_two_pow hlt.le 0
  have hp0 : Precise f 0 := ⟨0, 0, by positivity, rfl⟩
  rw [← mul_le_mul_iff_left₀ hone, hmul]
  constructor
  · rintro rfl
    have hmid := (abs_sub_left_le_iff (by norm_num : ((0 : ℕ) : ℚ) < (1 : ℕ))).mp (hn.le 1 hp1)
    push_cast at hmid
    linarith
  · intro hle
    by_contra hne
    have hcast : ((0 : ℕ) : ℚ) < n := by exact_mod_cast Nat.pos_of_ne_zero hne
    have hn1 : (1 : ℚ) ≤ n := by exact_mod_cast Nat.one_le_iff_ne_zero.mpr hne
    have hmid := (abs_sub_right_le_iff hcast).mp (hn.le 0 hp0)
    push_cast at hmid
    obtain rfl : n = 1 := by
      have h : (n : ℚ) = 1 := by linarith
      exact_mod_cast h
    have htie := (abs_sub_eq_iff hcast).mpr (by push_cast; linarith : 2 * (x * f.one) = (0 : ℕ) + (1 : ℕ))
    have heven := hn.even 0 hp0 (by norm_num) htie.symm
    have hone : significand f (1 * 2 ^ 0) = 1 := significand_mul_two_pow hlt (Or.inl rfl)
    rw [pow_zero, Nat.one_mul] at hone
    rw [hone] at heven
    exact absurd heven (by decide)

end Nearest

lemma exists_finite_nearest_of_lt (hx : 0 ≤ x) (hlt : x < f.overflowThreshold) :
    ∃ v : Finite f, Nearest f (x * f.one) v.quanta := by
  obtain ⟨n, hn⟩ := exists_nearest f (mul_nonneg hx (Nat.cast_nonneg f.one))
  exact ⟨⟨n, hn.lt_ceiling_iff.mpr hlt, hn.precise⟩, hn⟩

lemma Finite.IsNearest.nearest_of_lt {v : Finite f} (h : v.IsNearest x) (hx : 0 ≤ x)
    (hlt : x < f.overflowThreshold) : Nearest f (x * f.one) v.quanta := by
  obtain ⟨w, hw⟩ := exists_finite_nearest_of_lt hx hlt
  exact h.nearest_of_finite hw

lemma Nearest.within (hn : Nearest f x n) (hpos : 0 < n) : n ≤ 2 * x ∧ 2 * x ≤ 3 * n := by
  have hdouble : Precise f (n * 2) := by
    obtain ⟨m, e, hm, rfl⟩ := hn.precise
    exact ⟨m, e + 1, hm, by rw [pow_succ, mul_assoc]⟩
  have hzero : Precise f 0 := ⟨0, 0, by positivity, rfl⟩
  have hn0 : ((0 : ℕ) : ℚ) < n := by exact_mod_cast hpos
  have hlow := (abs_sub_right_le_iff hn0).mp (hn.le 0 hzero)
  have hn2 : (n : ℚ) < (n * 2 : ℕ) := by exact_mod_cast (by omega : n < n * 2)
  have hhigh := (abs_sub_left_le_iff hn2).mp (hn.le _ hdouble)
  push_cast at hlow hhigh
  constructor <;> linarith

inductive Rounds (f : Format) (negative : Bool) (x : ℚ) : Outcome (Binary f) → Prop
  | finite {v : Finite f} (hx : x < f.overflowThreshold) (hv : v.IsNearest x) :
      Rounds f negative x ⟨.finite negative v, .success⟩
  | infinite (hx : f.overflowThreshold ≤ x) : Rounds f negative x ⟨.infinity negative, .overflow⟩

lemma rounds_ofRatio {num den : ℕ} (hden : 0 < den) (h : (num / den : ℚ) = x * f.one) (s : Bool) :
    Rounds f s x
      ⟨ofRatio f s num den, if (ofRatio f s num den).isInfinite then .overflow else .success⟩ := by
  have hn := nearest_roundQuanta f num hden
  rw [h] at hn
  by_cases hlt : roundQuanta f num den < f.ceiling
  · rw [ofRatio, dif_pos hlt]
    exact .finite (hn.lt_ceiling_iff.mp hlt) (Finite.isNearest_of_nearest hn)
  · rw [ofRatio, dif_neg hlt]
    exact .infinite (not_lt.mp (mt hn.lt_ceiling_iff.mpr hlt))

lemma rounds_ofDecimal (f : Format) (s : Bool) (n : ℕ) (e : ℤ) :
    Rounds f s (n * 10 ^ e)
      ⟨ofDecimal f s n e, if (ofDecimal f s n e).isInfinite then .overflow else .success⟩ := by
  obtain ⟨num, den, hden, hx, heq⟩ := exists_ofDecimal_eq f s n e
  rw [heq]
  exact rounds_ofRatio hden hx s

lemma Format.two_pow_maxExponent_le (f : Format) : 2 ^ f.maxExponent ≤ f.overflowThreshold := by
  have hpow : (1 : ℚ) ≤ 2 ^ f.precision := one_le_pow₀ (by norm_num)
  have hinv : 1 / (2 : ℚ) ^ f.precision ≤ 1 := div_le_one_of_le₀ hpow (by positivity)
  exact le_mul_of_one_le_left (by positivity) (by linarith)

lemma Format.one_lt_overflowThreshold (f : Format) : 1 < f.overflowThreshold := by
  have hexp : f.maxExponent ≠ 0 := by cases f <;> decide
  exact (one_lt_pow₀ (by norm_num) hexp).trans_le f.two_pow_maxExponent_le

lemma Format.underflowThreshold_lt_one (f : Format) : f.underflowThreshold < 1 := by
  have hone : (1 : ℚ) ≤ f.one := by exact_mod_cast f.one_pos
  rw [underflowThreshold, div_lt_one (by linarith)]
  linarith

namespace Rounds

variable {s : Bool} {o : Outcome (Binary f)}

lemma of_overflow (h : Rounds f s x o) (hx : f.overflowThreshold ≤ x) (hy : f.overflowThreshold ≤ y) :
    Rounds f s y o := by
  cases h with
  | finite hlt => exact absurd hlt (not_lt.mpr hx)
  | infinite => exact .infinite hy

variable (hx0 : 0 ≤ x) (hy0 : 0 ≤ y)

include hx0 hy0

lemma of_underflow (h : Rounds f s x o) (hx : x ≤ f.underflowThreshold)
    (hy : y ≤ f.underflowThreshold) : Rounds f s y o := by
  have hlt := f.underflowThreshold_lt_one.trans f.one_lt_overflowThreshold
  cases h with
  | @finite v hxlt hv =>
    obtain ⟨w, hw⟩ := exists_finite_nearest_of_lt hy0 (hy.trans_lt hlt)
    have hv0 := (hv.nearest_of_lt hx0 hxlt).eq_zero_iff.mpr hx
    have hw0 := hw.eq_zero_iff.mpr hy
    obtain rfl : w = v := Finite.eq_iff.mpr (hw0.trans hv0.symm)
    exact .finite (hy.trans_lt hlt) (Finite.isNearest_of_nearest hw)
  | infinite hle => exact absurd (hx.trans_lt hlt) (not_lt.mpr hle)

lemma alike (h : Rounds f s x o) (h' : Rounds f s y o) :
    f.overflowThreshold ≤ x ∧ f.overflowThreshold ≤ y ∨
      x ≤ f.underflowThreshold ∧ y ≤ f.underflowThreshold ∨ x ≤ 3 * y ∧ y ≤ 3 * x := by
  cases h with
  | @finite v hx hv =>
    cases h' with
    | finite hy hv' =>
      have hn := hv.nearest_of_lt hx0 hx
      have hn' := hv'.nearest_of_lt hy0 hy
      rcases Nat.eq_zero_or_pos v.quanta with hz | hpos
      · exact Or.inr (Or.inl ⟨hn.eq_zero_iff.mp hz, hn'.eq_zero_iff.mp hz⟩)
      · have hone := f.cast_one_pos
        obtain ⟨hlow, hhigh⟩ := hn.within hpos
        obtain ⟨hlow', hhigh'⟩ := hn'.within hpos
        refine Or.inr (Or.inr ⟨?_, ?_⟩)
        · refine le_of_mul_le_mul_right ?_ hone
          linarith
        · refine le_of_mul_le_mul_right ?_ hone
          linarith
  | infinite hx =>
    cases h' with
    | infinite hy => exact Or.inl ⟨hx, hy⟩

end Rounds

lemma mul_zpow_far {M : ℕ} (hM : 0 < M) {a b : ℤ} (h : a < b) :
    3 * (M * 10 ^ a : ℚ) < M * 10 ^ b := by
  have hm : (0 : ℚ) < M := by exact_mod_cast hM
  have hpow : (0 : ℚ) < 10 ^ a := by positivity
  calc 3 * (M * 10 ^ a : ℚ) < 10 * (M * 10 ^ a) := by
        have hpos := mul_pos hm hpow
        linarith
    _ = M * 10 ^ (a + 1) := by
        rw [zpow_add_one₀ (by norm_num)]
        ring
    _ ≤ M * 10 ^ b := mul_le_mul_of_nonneg_left (zpow_le_zpow_right₀ (by norm_num) h) hm.le

lemma Rounds.zpow_iff {s : Bool} {o : Outcome (Binary f)} {M : ℕ} {a b : ℤ}
    (h : Rounds f s (M * 10 ^ a) o) :
    Rounds f s (M * 10 ^ b) o ↔ a = b ∨ M = 0 ∨
      f.overflowThreshold ≤ M * 10 ^ a ∧ f.overflowThreshold ≤ M * 10 ^ b ∨
      M * 10 ^ a ≤ f.underflowThreshold ∧ M * 10 ^ b ≤ f.underflowThreshold := by
  have ha : (0 : ℚ) ≤ M * 10 ^ a := by positivity
  have hb : (0 : ℚ) ≤ M * 10 ^ b := by positivity
  constructor
  · intro h'
    rcases Nat.eq_zero_or_pos M with hz | hpos
    · exact Or.inr (Or.inl hz)
    · rcases h.alike ha hb h' with hover | hunder | ⟨hle, hle'⟩
      · exact Or.inr (Or.inr (Or.inl hover))
      · exact Or.inr (Or.inr (Or.inr hunder))
      · rcases lt_trichotomy a b with hlt | heq | hgt
        · exact absurd hle' (not_le.mpr (mul_zpow_far hpos hlt))
        · exact Or.inl heq
        · exact absurd hle (not_le.mpr (mul_zpow_far hpos hgt))
  · rintro (rfl | rfl | ⟨hover, hover'⟩ | ⟨hunder, hunder'⟩)
    · exact h
    · rw [Nat.cast_zero, zero_mul] at h ⊢
      exact h
    · exact h.of_overflow hover hover'
    · exact h.of_underflow ha hb hunder hunder'

end SqlCast.Binary
