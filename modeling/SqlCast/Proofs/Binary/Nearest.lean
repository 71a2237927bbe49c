import Mathlib.Algebra.Order.Field.Rat
import Mathlib.Data.Nat.Cast.Order.Field
import Mathlib.Tactic.FieldSimp
import Mathlib.Tactic.Linarith
import SqlCast.Proofs.Binary.Precision

/-! Rounding to nearest: the one precise number that is closest to a rational, and of two equally
close ones the one with an even significand. -/

namespace SqlCast.Binary

section Distance

variable {x a b : ℚ}

lemma abs_sub_right_le_iff (h : a < b) : |x - b| ≤ |x - a| ↔ a + b ≤ 2 * x := by
  rw [← sq_le_sq, ← sub_nonneg, show (x - a) ^ 2 - (x - b) ^ 2 = (b - a) * (2 * x - (a + b)) by ring,
    mul_nonneg_iff_of_pos_left (sub_pos.mpr h), sub_nonneg]

lemma abs_sub_left_le_iff (h : a < b) : |x - a| ≤ |x - b| ↔ 2 * x ≤ a + b := by
  rw [← sq_le_sq, ← sub_nonneg, show (x - b) ^ 2 - (x - a) ^ 2 = (b - a) * (a + b - 2 * x) by ring,
    mul_nonneg_iff_of_pos_left (sub_pos.mpr h), sub_nonneg]

lemma abs_sub_eq_iff (h : a < b) : |x - a| = |x - b| ↔ 2 * x = a + b := by
  rw [le_antisymm_iff, abs_sub_left_le_iff h, abs_sub_right_le_iff h, ← le_antisymm_iff]

end Distance

variable {f : Format}

section HalfEven

variable (num : ℕ) {den : ℕ}

lemma roundHalfEven_spec (hden : 0 < den) :
    |(num / den : ℚ) - roundHalfEven num den| ≤ 1 / 2 ∧
      (|(num / den : ℚ) - roundHalfEven num den| = 1 / 2 → Even (roundHalfEven num den)) := by
  have hd : (0 : ℚ) < den := by exact_mod_cast hden
  obtain ⟨r, hr⟩ : ∃ r : ℚ, r = (num % den : ℕ) / den := ⟨_, rfl⟩
  have hr0 : 0 ≤ r := by rw [hr]; positivity
  have hsplit : (num / den : ℚ) = (num / den : ℕ) + r := by
    rw [hr, div_eq_iff hd.ne', add_mul, div_mul_cancel₀ _ hd.ne']
    exact_mod_cast (Nat.div_add_mod' num den).symm
  have hdouble : 2 * (num % den : ℕ) = 2 * r * den := by
    rw [hr, mul_assoc, div_mul_cancel₀ _ hd.ne']
  rw [hsplit, roundHalfEven]
  split_ifs with hlow hhigh
  · have hlt : 2 * r < 1 := by
      have h : (2 * (num % den : ℕ) : ℚ) < den := by exact_mod_cast hlow
      rw [hdouble] at h
      exact (mul_lt_iff_lt_one_left hd).mp h
    rw [add_sub_cancel_left, abs_of_nonneg hr0]
    exact ⟨by linarith, fun h => by linarith⟩
  · have hgt : 1 < 2 * r := by
      have h : (den : ℚ) < 2 * (num % den : ℕ) := by exact_mod_cast hhigh
      rw [hdouble] at h
      exact (lt_mul_iff_one_lt_left hd).mp h
    have hr1 : r < 1 := by
      rw [hr, div_lt_one hd]
      exact_mod_cast Nat.mod_lt num hden
    have habs : |((num / den : ℕ) : ℚ) + r - ((num / den + 1 : ℕ) : ℚ)| = 1 - r := by
      push_cast
      rw [add_sub_add_left_eq_sub, abs_sub_comm, abs_of_pos (by linarith)]
    rw [habs]
    exact ⟨by linarith, fun h => by linarith⟩
  · have htie : 2 * r = 1 := by
      have h : (2 * (num % den : ℕ) : ℚ) = den := by exact_mod_cast (by omega : 2 * (num % den) = den)
      rw [hdouble] at h
      exact mul_eq_right₀ hd.ne' |>.mp h
    have hparity : Even (num / den + num / den % 2) := by
      rw [Nat.even_iff]
      omega
    refine ⟨?_, fun _ => hparity⟩
    rcases Nat.mod_two_eq_zero_or_one (num / den) with h | h
    · rw [h, Nat.add_zero, add_sub_cancel_left, abs_of_nonneg hr0]
      linarith
    · rw [h, Nat.cast_add, add_sub_add_left_eq_sub, Nat.cast_one, abs_le]
      constructor <;> linarith

lemma roundHalfEven_nearest (hden : 0 < den) (k : ℕ) :
    |(num / den : ℚ) - roundHalfEven num den| ≤ |(num / den : ℚ) - k| ∧
      (k ≠ roundHalfEven num den →
        |(num / den : ℚ) - roundHalfEven num den| = |(num / den : ℚ) - k| →
          Even (roundHalfEven num den)) := by
  obtain ⟨hhalf, heven⟩ := roundHalfEven_spec num hden
  by_cases hk : k = roundHalfEven num den
  · rw [hk]
    exact ⟨le_rfl, fun h => absurd rfl h⟩
  · have hone : (1 : ℚ) ≤ |(roundHalfEven num den : ℚ) - k| := by
      have h : (1 : ℤ) ≤ |(roundHalfEven num den : ℤ) - k| :=
        Int.one_le_abs (sub_ne_zero.mpr (by exact_mod_cast Ne.symm hk))
      exact_mod_cast h
    have htri := abs_sub_le (roundHalfEven num den : ℚ) (num / den) k
    rw [abs_sub_comm (roundHalfEven num den : ℚ) (num / den)] at htri
    exact ⟨by linarith, fun _ he => heven (by linarith)⟩

lemma div_le_roundHalfEven (den : ℕ) : num / den ≤ roundHalfEven num den := by
  rw [roundHalfEven]
  split_ifs <;> omega

lemma abs_sub_mul_two_pow (hden : 0 < den) (j e : ℕ) :
    |(num / den : ℚ) - (j * 2 ^ e : ℕ)| = |(num / (den * 2 ^ e : ℕ) : ℚ) - j| * 2 ^ e := by
  have hd : (den : ℚ) ≠ 0 := by exact_mod_cast hden.ne'
  have hunit : (0 : ℚ) < 2 ^ e := by positivity
  have hsub : (num / den : ℚ) - (j * 2 ^ e : ℕ) = (num / (den * 2 ^ e : ℕ) - j) * 2 ^ e := by
    push_cast
    field_simp
  rw [hsub, abs_mul, abs_of_pos hunit]

end HalfEven

/-- `n` is the number closest to `x` that the precision holds, wherever the range ends. -/
structure Nearest (f : Format) (x : ℚ) (n : ℕ) : Prop where
  precise : Precise f n
  le : ∀ k, Precise f k → |x - n| ≤ |x - k|
  even : ∀ k, Precise f k → k ≠ n → |x - n| = |x - k| → Even (significand f n)

namespace Nearest

variable {x y : ℚ} {n k : ℕ}

lemma of_precise (hn : Precise f n) : Nearest f n n := by
  refine ⟨hn, fun k _ => ?_, fun k _ hk he => ?_⟩
  · rw [sub_self, abs_zero]
    exact abs_nonneg _
  · rw [sub_self, abs_zero, eq_comm, abs_eq_zero, sub_eq_zero] at he
    exact absurd (by exact_mod_cast he.symm) hk

lemma eq_next_of_tie (hn : Nearest f x n) (hk : Precise f k) (hlt : n < k) (htie : 2 * x = n + k) :
    k = (significand f n + 1) * 2 ^ excessBits f n := by
  have hunit : 2 ^ excessBits f n ∣ k := by
    by_cases he : excessBits f n = 0
    · rw [he, pow_zero]
      exact one_dvd k
    · exact hk.two_pow_dvd ((two_pow_le_of_excessBits he).trans hlt.le)
  obtain ⟨j, rfl⟩ := hunit
  have hmul := hn.precise.significand_mul
  have hj : significand f n + 1 ≤ j := by
    by_contra hj
    have hle := Nat.mul_le_mul_right (2 ^ excessBits f n) (Nat.lt_succ_iff.mp (not_le.mp hj))
    rw [hmul, mul_comm] at hle
    omega
  have hnext : Precise f ((significand f n + 1) * 2 ^ excessBits f n) :=
    precise_mul_two_pow (significand_lt f n) _
  have hpos : 0 < 2 ^ excessBits f n := by positivity
  have hgt : n < (significand f n + 1) * 2 ^ excessBits f n := by
    rw [Nat.succ_mul, hmul]
    omega
  rcases Nat.lt_or_eq_of_le (Nat.mul_le_mul_right (2 ^ excessBits f n) hj) with h | h
  · have hclose := (abs_sub_left_le_iff (by exact_mod_cast hgt)).mp (hn.le _ hnext)
    rw [htie, add_le_add_iff_left] at hclose
    rw [mul_comm j] at h
    exact absurd h (not_lt.mpr (by exact_mod_cast hclose))
  · rw [h, mul_comm]

lemma not_lt_of_nearest (hn : Nearest f x n) (hk : Nearest f x k) : ¬n < k := by
  intro hlt
  have heq := le_antisymm (hn.le k hk.precise) (hk.le n hn.precise)
  have htie := (abs_sub_eq_iff (by exact_mod_cast hlt)).mp heq
  have hnext := eq_next_of_tie hn hk.precise hlt htie
  have heven := hn.even k hk.precise hlt.ne' heq
  have hodd := hk.even n hn.precise hlt.ne heq.symm
  -- Neighbours have neighbouring significands, and two of those are not both even.
  have hroom : significand f n + 1 < 2 ^ f.precision := by
    have hp := f.two_le_precision
    have hpow : Even (2 ^ f.precision) := Nat.even_pow.mpr ⟨even_two, by omega⟩
    refine lt_of_le_of_ne (significand_lt f n) fun h => ?_
    rw [← h, Nat.even_add_one] at hpow
    exact hpow heven
  have hnormal : excessBits f n = 0 ∨ 2 ^ (f.precision - 1) ≤ significand f n + 1 :=
    (significand_normal f n).imp_right Nat.le_succ_of_le
  rw [hnext, significand_mul_two_pow hroom hnormal, Nat.even_add_one] at hodd
  exact hodd heven

lemma unique (hn : Nearest f x n) (hk : Nearest f x k) : n = k :=
  le_antisymm (not_lt.mp (not_lt_of_nearest hk hn)) (not_lt.mp (not_lt_of_nearest hn hk))

lemma mono (hxy : x ≤ y) (hn : Nearest f x n) (hk : Nearest f y k) : n ≤ k := by
  by_contra hlt
  have hcast : (k : ℚ) < n := by exact_mod_cast not_le.mp hlt
  have hx := (abs_sub_right_le_iff hcast).mp (hn.le k hk.precise)
  have hy := (abs_sub_left_le_iff hcast).mp (hk.le n hn.precise)
  obtain rfl : x = y := by linarith
  exact hlt (hn.unique hk).le

end Nearest

section RoundQuanta

variable (f) (num : ℕ) {den : ℕ} (hden : 0 < den)

def roundedSignificand (den : ℕ) : ℕ := roundHalfEven num (den * 2 ^ excessBits f (num / den))

lemma roundQuanta_eq (den : ℕ) :
    roundQuanta f num den = roundedSignificand f num den * 2 ^ excessBits f (num / den) := rfl

lemma roundedSignificand_le (den : ℕ) : roundedSignificand f num den ≤ 2 ^ f.precision :=
  roundHalfEven_le (div_lt_two_pow_precision f num den)

lemma roundedSignificand_normal (den : ℕ) :
    excessBits f (num / den) = 0 ∨ 2 ^ (f.precision - 1) ≤ roundedSignificand f num den := by
  refine (significand_normal f (num / den)).imp_right fun hle => hle.trans ?_
  rw [significand, Nat.div_div_eq_div_mul]
  exact div_le_roundHalfEven num _

include hden

lemma closer_of_not_dvd {k : ℕ} (hk : Precise f k) (hdvd : ¬2 ^ excessBits f (num / den) ∣ k) :
    |(num / den : ℚ) - roundQuanta f num den| < |(num / den : ℚ) - k| := by
  obtain ⟨e, he⟩ : ∃ e, e = excessBits f (num / den) := ⟨_, rfl⟩
  rw [← he] at hdvd
  have hpos : excessBits f (num / den) ≠ 0 := by
    rw [← he]
    rintro rfl
    exact hdvd (one_dvd k)
  have hlow : ((2 ^ (f.precision - 1) * 2 ^ e : ℕ) : ℚ) ≤ num / den := by
    have hle := two_pow_le_of_excessBits hpos
    rw [← he, pow_add] at hle
    exact (Nat.cast_le.mpr hle).trans Nat.cast_div_le
  have hlt : (k : ℚ) < (2 ^ (f.precision - 1) * 2 ^ e : ℕ) := by
    rw [← pow_add, Nat.cast_lt]
    by_contra hle
    exact hdvd (hk.two_pow_dvd (not_lt.mp hle))
  have hunit : (0 : ℚ) < 2 ^ e := by positivity
  have hint := (roundHalfEven_nearest num (Nat.mul_pos hden (by positivity : 0 < 2 ^ e))
    (2 ^ (f.precision - 1))).1
  calc |(num / den : ℚ) - roundQuanta f num den|
      = |(num / (den * 2 ^ e : ℕ) : ℚ) - roundHalfEven num (den * 2 ^ e)| * 2 ^ e := by
        rw [roundQuanta_eq, ← he, abs_sub_mul_two_pow num hden, roundedSignificand, he]
    _ ≤ |(num / (den * 2 ^ e : ℕ) : ℚ) - (2 ^ (f.precision - 1) : ℕ)| * 2 ^ e :=
        mul_le_mul_of_nonneg_right hint hunit.le
    _ = |(num / den : ℚ) - (2 ^ (f.precision - 1) * 2 ^ e : ℕ)| := (abs_sub_mul_two_pow num hden _ e).symm
    _ = num / den - (2 ^ (f.precision - 1) * 2 ^ e : ℕ) := abs_of_nonneg (sub_nonneg.mpr hlow)
    _ < num / den - k := sub_lt_sub_left hlt _
    _ = |(num / den : ℚ) - k| := (abs_of_pos (sub_pos.mpr (hlt.trans_le hlow))).symm

lemma nearest_roundQuanta : Nearest f (num / den) (roundQuanta f num den) := by
  have hunit : (0 : ℚ) < 2 ^ excessBits f (num / den) := by positivity
  have hint := roundHalfEven_nearest num
    (Nat.mul_pos hden (by positivity : 0 < 2 ^ excessBits f (num / den)))
  refine ⟨precise_mul_two_pow (roundedSignificand_le f num den) _, fun k hk => ?_,
    fun k hk hne heq => ?_⟩
  · by_cases hdvd : 2 ^ excessBits f (num / den) ∣ k
    · obtain ⟨j, rfl⟩ := hdvd
      rw [roundQuanta_eq, mul_comm _ j, abs_sub_mul_two_pow num hden, abs_sub_mul_two_pow num hden]
      exact mul_le_mul_of_nonneg_right (hint j).1 hunit.le
    · exact (closer_of_not_dvd f num hden hk hdvd).le
  · by_cases hdvd : 2 ^ excessBits f (num / den) ∣ k
    · obtain ⟨j, rfl⟩ := hdvd
      rw [roundQuanta_eq, mul_comm _ j] at hne heq
      rw [abs_sub_mul_two_pow num hden, abs_sub_mul_two_pow num hden, mul_left_inj' hunit.ne'] at heq
      exact even_significand_mul_two_pow (roundedSignificand_le f num den)
        (roundedSignificand_normal f num den) ((hint j).2 (fun h => hne (h ▸ rfl)) heq)
    · exact absurd heq (closer_of_not_dvd f num hden hk hdvd).ne

end RoundQuanta

lemma exists_nearest (f : Format) {x : ℚ} (hx : 0 ≤ x) : ∃ n, Nearest f x n := by
  obtain ⟨num, hnum⟩ := Int.eq_ofNat_of_zero_le (Rat.num_nonneg.mpr hx)
  have hx : x = num / x.den := by
    conv_lhs => rw [← x.num_div_den, hnum, Int.cast_natCast]
  rw [hx]
  exact ⟨_, nearest_roundQuanta f num x.den_pos⟩

end SqlCast.Binary
