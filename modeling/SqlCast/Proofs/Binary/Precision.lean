import Mathlib.Algebra.Group.Nat.Even
import Mathlib.Algebra.Order.Ring.Nat
import Mathlib.Data.Nat.Log
import Mathlib.Tactic.Positivity
import Mathlib.Tactic.Ring
import SqlCast.Binary.Basic

namespace SqlCast.Binary

namespace Format

lemma two_le_precision (f : Format) : 2 ≤ f.precision := by
  cases f <;> decide

lemma precision_le_quantumExponent (f : Format) : f.precision ≤ f.quantumExponent := by
  cases f <;> decide

end Format

def Precise (f : Format) (n : ℕ) : Prop := ∃ m e, m < 2 ^ f.precision ∧ n = m * 2 ^ e

def significand (f : Format) (n : ℕ) : ℕ := n / 2 ^ excessBits f n

variable {f : Format} {n : ℕ}

lemma representable_of_precise (hn : Precise f n) (h : n < f.ceiling) : Representable f n := ⟨h, hn⟩

lemma precise_mul_two_pow {m : ℕ} (h : m ≤ 2 ^ f.precision) (e : ℕ) : Precise f (m * 2 ^ e) := by
  rcases Nat.lt_or_eq_of_le h with hlt | rfl
  · exact ⟨m, e, hlt, rfl⟩
  · exact ⟨1, f.precision + e, f.one_lt_two_pow_precision, by rw [one_mul, pow_add]⟩

lemma Precise.mod_two_pow (h : Precise f n) (q : ℕ) : Precise f (n % 2 ^ q) := by
  obtain ⟨m, e, hm, rfl⟩ := h
  rcases le_total q e with hqe | heq
  · have hzero : m * 2 ^ e % 2 ^ q = 0 :=
      Nat.mod_eq_zero_of_dvd (Dvd.dvd.mul_left (pow_dvd_pow 2 hqe) m)
    exact ⟨0, 0, by positivity, by rw [hzero, Nat.zero_mul]⟩
  · refine ⟨m % 2 ^ (q - e), e, (Nat.mod_le _ _).trans_lt hm, ?_⟩
    rw [← Nat.mul_mod_mul_right, ← pow_add, Nat.sub_add_cancel heq]

lemma lt_two_pow_excessBits (f : Format) (n : ℕ) : n < 2 ^ (f.precision + excessBits f n) := by
  refine Nat.lt_log2_self.trans_le (Nat.pow_le_pow_right (by norm_num) ?_)
  rw [excessBits]
  omega

lemma two_pow_le_of_excessBits (h : excessBits f n ≠ 0) :
    2 ^ (f.precision - 1 + excessBits f n) ≤ n := by
  have hp := f.two_le_precision
  have hlog : n.log2 = f.precision - 1 + excessBits f n := by
    rw [excessBits] at h ⊢
    omega
  have hn : n ≠ 0 := by
    rintro rfl
    rw [Nat.log2_zero] at hlog
    omega
  rw [← hlog]
  exact Nat.log2_self_le hn

lemma excessBits_eq {e : ℕ} (hlt : n < 2 ^ (f.precision + e))
    (hle : e = 0 ∨ 2 ^ (f.precision - 1 + e) ≤ n) : excessBits f n = e := by
  have hp := f.two_le_precision
  rw [excessBits]
  by_cases hn : n = 0
  · subst hn
    have he : e = 0 := hle.resolve_right (by simp)
    rw [Nat.log2_zero]
    omega
  · have hlog := (Nat.log2_lt hn).mpr hlt
    rcases hle with rfl | hle
    · omega
    · have hlow := (Nat.le_log2 hn).mpr hle
      omega

lemma Precise.two_pow_dvd (h : Precise f n) {e : ℕ} (hn : 2 ^ (f.precision - 1 + e) ≤ n) : 2 ^ e ∣ n := by
  obtain ⟨m, j, hm, rfl⟩ := h
  have hp := f.two_le_precision
  have hlt : m * 2 ^ j < 2 ^ (f.precision + j) := by
    rw [pow_add]
    exact Nat.mul_lt_mul_of_pos_right hm (by positivity)
  have hexp := (Nat.pow_lt_pow_iff_right (by norm_num)).mp (hn.trans_lt hlt)
  exact Dvd.dvd.mul_left (pow_dvd_pow 2 (by omega)) m

lemma Precise.significand_mul (h : Precise f n) : significand f n * 2 ^ excessBits f n = n := by
  apply Nat.div_mul_cancel
  by_cases he : excessBits f n = 0
  · rw [he, pow_zero]
    exact one_dvd n
  · exact h.two_pow_dvd (two_pow_le_of_excessBits he)

lemma significand_lt (f : Format) (n : ℕ) : significand f n < 2 ^ f.precision := by
  rw [significand, Nat.div_lt_iff_lt_mul (by positivity), ← pow_add]
  exact lt_two_pow_excessBits f n

lemma significand_normal (f : Format) (n : ℕ) :
    excessBits f n = 0 ∨ 2 ^ (f.precision - 1) ≤ significand f n := by
  refine or_iff_not_imp_left.mpr fun he => ?_
  rw [significand, Nat.le_div_iff_mul_le (by positivity), ← pow_add]
  exact two_pow_le_of_excessBits he

lemma significand_mul_two_pow {m e : ℕ} (hm : m < 2 ^ f.precision)
    (he : e = 0 ∨ 2 ^ (f.precision - 1) ≤ m) : significand f (m * 2 ^ e) = m := by
  have hbits : excessBits f (m * 2 ^ e) = e := by
    apply excessBits_eq
    · rw [pow_add]
      exact Nat.mul_lt_mul_of_pos_right hm (by positivity)
    · refine he.imp_right fun hle => ?_
      rw [pow_add]
      exact Nat.mul_le_mul_right _ hle
  rw [significand, hbits, Nat.mul_div_cancel _ (by positivity)]

lemma even_significand_mul_two_pow {m e : ℕ} (hm : m ≤ 2 ^ f.precision)
    (he : e = 0 ∨ 2 ^ (f.precision - 1) ≤ m) (heven : Even m) : Even (significand f (m * 2 ^ e)) := by
  have hp := f.two_le_precision
  rcases Nat.lt_or_eq_of_le hm with hlt | rfl
  · rwa [significand_mul_two_pow hlt he]
  · -- The next power of two gives up one bit more.
    have hsplit : 2 ^ f.precision * 2 ^ e = 2 ^ (f.precision - 1) * 2 ^ (e + 1) := by
      rw [← pow_add, ← pow_add]
      congr 1
      omega
    rw [hsplit, significand_mul_two_pow (Nat.pow_lt_pow_right (by norm_num) (by omega)) (Or.inr le_rfl)]
    exact Nat.even_pow.mpr ⟨even_two, by omega⟩

end SqlCast.Binary
