import Mathlib.Algebra.Group.Int.Defs
import Mathlib.Algebra.Group.Nat.Defs
import Mathlib.Data.Int.Notation
import Mathlib.Data.Nat.Notation
import Mathlib.Logic.Basic
import Mathlib.Tactic.Lemma
import SqlCast.Integer.Width

namespace SqlCast.Integer.Width

lemma le_limit (w : Width) (negative : Bool) : 127 ≤ w.limit negative := by
  cases w <;> cases negative <;> decide

lemma pow_maxDigits_le_limit (w : Width) (negative : Bool) :
    10 ^ (w.maxDigits - 1) ≤ w.limit negative := by
  cases w <;> cases negative <;> decide

lemma toInt_ofMagnitude (w : Width) (negative : Bool) {n : ℕ} (h : n ≤ w.limit negative) :
    (w.ofMagnitude n negative).toInt = if negative then -(n : ℤ) else n := by
  cases negative with
  | false =>
    rw [ofMagnitude, if_neg Bool.false_ne_true, if_neg Bool.false_ne_true, BitVec.toInt_ofNat']
    simp only [limit, maxMagnitude, Nat.pow_eq, Bool.false_eq_true, if_false] at h ⊢
    cases w <;> simp only [bits] at h ⊢ <;> exact Int.bmod_eq_of_le (by omega) (by omega)
  | true =>
    rw [ofMagnitude, if_pos rfl, if_pos rfl, BitVec.toInt_neg, BitVec.toInt_ofNat',
      Int.bmod_neg_bmod]
    cases w <;> simp only [limit, maxMagnitude, bits, Nat.pow_eq, if_true] at h ⊢ <;>
      exact Int.bmod_eq_of_le (by omega) (by omega)

def least (w : Width) : ℤ := -(w.limit true : ℤ)
def greatest (w : Width) : ℤ := w.limit false

lemma least_eq (w : Width) : w.least = -2 ^ (w.bits - 1) := by
  cases w <;> rfl

lemma greatest_eq (w : Width) : w.greatest = 2 ^ (w.bits - 1) - 1 := by
  cases w <;> rfl

lemma natAbs_toInt_le_limit {w : Width} (v : w.Value) :
    v.toInt.natAbs ≤ w.limit (decide (v.toInt < 0)) := by
  have hlow : w.least ≤ v.toInt := by
    rw [least_eq]
    exact BitVec.le_toInt v
  have hhigh : v.toInt ≤ w.greatest := by
    rw [greatest_eq]
    exact BitVec.toInt_le
  rw [least] at hlow
  rw [greatest] at hhigh
  by_cases hneg : v.toInt < 0
  · rw [decide_eq_true hneg]
    omega
  · rw [decide_eq_false hneg]
    omega

lemma ofMagnitude_toInt {w : Width} (v : w.Value) :
    w.ofMagnitude v.toInt.natAbs (decide (v.toInt < 0)) = v := by
  apply BitVec.eq_of_toInt_eq
  rw [toInt_ofMagnitude w _ (natAbs_toInt_le_limit v)]
  by_cases hneg : v.toInt < 0
  · rw [if_pos (decide_eq_true hneg)]
    omega
  · rw [if_neg (by simpa using hneg)]
    omega

lemma toInt_bound (w : Width) (negative : Bool) :
    (w.bound negative).toInt = if negative then w.least else w.greatest := by
  rw [bound, toInt_ofMagnitude w negative (Nat.le_refl _)]
  cases negative <;> rfl

lemma ite_signed {α : Type} (w : Width) (negative : Bool) (n : ℕ) (below above within : α) :
    (if (if negative then -(n : ℤ) else n) < w.least then below
      else if w.greatest < (if negative then -(n : ℤ) else n) then above
      else within) =
      if w.limit negative < n then (if negative then below else above) else within := by
  cases negative with
  | false =>
    have hl : ¬(n : ℤ) < w.least := by rw [least]; omega
    rw [if_neg Bool.false_ne_true, if_neg Bool.false_ne_true, if_neg hl]
    exact if_congr Int.ofNat_lt rfl rfl
  | true =>
    have hg : ¬w.greatest < -(n : ℤ) := by rw [greatest]; omega
    rw [if_pos rfl, if_pos rfl, if_neg hg]
    exact if_congr (by rw [least]; omega) rfl rfl

end SqlCast.Integer.Width
