import Mathlib.Algebra.Order.Floor.Semifield
import Mathlib.Data.Rat.Floor
import SqlCast.Decimal.Fitting

namespace SqlCast.Decimal

namespace Rounding

def round : Rounding → ℚ → ℕ
  | truncate, x => ⌊x⌋₊
  | halfUp, x => ⌊x + 1 / 2⌋₊

def half : Rounding → ℕ → ℕ
  | truncate, _ => 0
  | halfUp, k => 10 ^ k / 2

def drop (r : Rounding) (k n : ℕ) : ℕ := (n + r.half k) / 10 ^ k

variable (r : Rounding)

lemma two_mul_half_le (k : ℕ) : 2 * r.half k ≤ 10 ^ k := by
  cases r with
  | truncate => exact Nat.zero_le _
  | halfUp => exact Nat.mul_div_le (10 ^ k) 2

lemma half_succ (k : ℕ) : halfUp.half (k + 1) = 5 * 10 ^ k := by
  rw [half, pow_succ]
  omega

lemma half_add {k : ℕ} (hk : 0 < k) (j : ℕ) : r.half (j + k) = 10 ^ j * r.half k := by
  cases r with
  | truncate => rfl
  | halfUp =>
    obtain ⟨k, rfl⟩ := Nat.exists_eq_add_one_of_ne_zero hk.ne'
    rw [← Nat.add_assoc, half_succ, half_succ, pow_add]
    ring

lemma drop_add {k : ℕ} (hk : 0 < k) (j n : ℕ) : r.drop (j + k) n = r.drop k (n / 10 ^ j) := by
  rw [drop, drop, half_add r hk, pow_add, ← Nat.div_div_eq_div_mul,
    Nat.add_mul_div_left _ _ (by positivity)]

lemma drop_one (n : ℕ) {d : ℕ} (hd : d < 10) :
    r.drop 1 (n * 10 + d) = if r = .halfUp ∧ 5 ≤ d then n + 1 else n := by
  cases r with
  | truncate =>
    rw [drop, half, if_neg (by simp)]
    omega
  | halfUp =>
    change (n * 10 + d + 5) / 10 = _
    simp only [true_and]
    split_ifs <;> omega

lemma drop_eq_ite {k : ℕ} (hk : 0 < k) (n : ℕ) :
    r.drop k n =
      if r = .halfUp ∧ 10 ^ k / 2 ≤ n % 10 ^ k then n / 10 ^ k + 1 else n / 10 ^ k := by
  cases r with
  | truncate => simp [drop, half]
  | halfUp =>
    obtain ⟨k, rfl⟩ := Nat.exists_eq_add_one_of_ne_zero hk.ne'
    have hh : 10 ^ (k + 1) = 2 * (10 ^ (k + 1) / 2) := by
      rw [pow_succ]
      omega
    have hp : 0 < 10 ^ (k + 1) := by positivity
    have hlt : 10 ^ (k + 1) / 2 < 10 ^ (k + 1) := by omega
    rw [drop, half, Nat.add_div hp, Nat.div_eq_of_lt hlt, Nat.mod_eq_of_lt hlt, Nat.add_zero]
    simp only [true_and]
    split_ifs <;> omega

lemma drop_zero {k : ℕ} (hk : 0 < k) : r.drop k 0 = 0 := by
  rw [r.drop_eq_ite hk, Nat.zero_mod, Nat.zero_div, if_neg]
  rintro ⟨-, hh⟩
  have := Nat.le_self_pow hk.ne' 10
  omega

lemma drop_lt_pow {k a n : ℕ} (hk : 0 < k) (ha : 0 < a) (h : n < 10 ^ a) : r.drop k n < 10 ^ a := by
  have hh := r.two_mul_half_le k
  have hn : 10 ^ a * 10 ≤ 10 ^ a * 10 ^ k := Nat.mul_le_mul_left _ (Nat.le_self_pow hk.ne' 10)
  have hd : 10 * 10 ^ k ≤ 10 ^ a * 10 ^ k := Nat.mul_le_mul_right _ (Nat.le_self_pow ha.ne' 10)
  rw [drop, Nat.div_lt_iff_lt_mul (by positivity)]
  omega

lemma drop_le_pow {k a n : ℕ} (h : n < 10 ^ (a + k)) : r.drop k n ≤ 10 ^ a := by
  have hh := r.two_mul_half_le k
  have hp : 0 < 10 ^ k := by positivity
  rw [pow_add] at h
  rw [drop, ← Nat.lt_succ_iff, Nat.div_lt_iff_lt_mul hp, Nat.succ_mul]
  omega

lemma truncate_drop_lt_pow {k a n : ℕ} (h : n < 10 ^ (a + k)) : truncate.drop k n < 10 ^ a := by
  rw [drop, half, Nat.add_zero, Nat.div_lt_iff_lt_mul (by positivity), ← pow_add]
  exact h

lemma halfUp_drop_eq_or {k : ℕ} (hk : 0 < k) (n : ℕ) :
    halfUp.drop k n = truncate.drop k n ∨ halfUp.drop k n = truncate.drop k n + 1 := by
  have htruncate : truncate.drop k n = n / 10 ^ k := by rw [drop, half, Nat.add_zero]
  rw [htruncate, halfUp.drop_eq_ite hk]
  split_ifs
  · exact Or.inr rfl
  · exact Or.inl rfl

lemma round_natCast (n : ℕ) : r.round n = n := by
  cases r with
  | truncate => exact Nat.floor_natCast n
  | halfUp =>
    rw [round, Nat.floor_eq_iff (by positivity)]
    constructor <;> linarith

lemma round_div {k : ℕ} (hk : 0 < k) (n : ℕ) : r.round (n / 10 ^ k) = r.drop k n := by
  cases r with
  | truncate =>
    rw [round, drop, half, Nat.add_zero, ← Nat.floor_div_eq_div (K := ℚ)]
    push_cast
    rfl
  | halfUp =>
    obtain ⟨k, rfl⟩ := Nat.exists_eq_add_one_of_ne_zero hk.ne'
    rw [round, drop, half_succ, ← Nat.floor_div_eq_div (K := ℚ)]
    congr 1
    push_cast
    rw [pow_succ]
    field_simp
    ring

end Rounding

end SqlCast.Decimal
