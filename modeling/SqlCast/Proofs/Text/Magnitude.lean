import SqlCast.Proofs.Text.Literal

namespace SqlCast.Text.Literal

variable (l : Literal)

lemma magnitude_mul_pow (s : ℕ) :
    l.magnitude * 10 ^ s = l.mantissa.unscaled * (10 : ℚ) ^ (s - l.scale) := by
  rw [magnitude, mul_assoc, ← zpow_natCast, ← zpow_add₀ (by norm_num)]
  congr 2
  ring

lemma magnitude_nonneg : 0 ≤ l.magnitude :=
  mul_nonneg (Nat.cast_nonneg _) (zpow_pos (by norm_num) _).le

lemma magnitude_lt : l.magnitude < (10 : ℚ) ^ (l.mantissa.significant.length - l.scale) := by
  have hlt : (l.mantissa.unscaled : ℚ) < (10 : ℚ) ^ l.mantissa.significant.length := by
    exact_mod_cast Mantissa.unscaled_lt l.wellFormed
  rw [magnitude, sub_eq_add_neg, zpow_add₀ (by norm_num), zpow_natCast]
  exact mul_lt_mul_of_pos_right hlt (zpow_pos (by norm_num) _)

lemma magnitude_ge (hn : l.mantissa.unscaled ≠ 0) :
    (10 : ℚ) ^ (l.mantissa.significant.length - 1 - l.scale) ≤ l.magnitude := by
  obtain ⟨k, hk⟩ := Nat.exists_eq_add_one_of_ne_zero
    ((Mantissa.unscaled_eq_zero_iff l.wellFormed).not.mp hn)
  have hle : (10 : ℚ) ^ k ≤ l.mantissa.unscaled := by
    exact_mod_cast Mantissa.pow_le_unscaled hk
  rw [magnitude, hk, Nat.cast_add, Nat.cast_one, add_sub_cancel_right, sub_eq_add_neg,
    zpow_add₀ (by norm_num), zpow_natCast]
  exact mul_le_mul_of_nonneg_right hle (zpow_pos (by norm_num) _).le

lemma zpow_le_magnitude_iff (hn : l.mantissa.unscaled ≠ 0) (w : ℤ) :
    (10 : ℚ) ^ w ≤ l.magnitude ↔ w < l.mantissa.significant.length - l.scale := by
  have hlt := l.magnitude_lt
  have hge := l.magnitude_ge hn
  constructor
  · intro h
    exact (zpow_lt_zpow_iff_right₀ (by norm_num)).mp (h.trans_lt hlt)
  · intro h
    exact (zpow_le_zpow_right₀ (by norm_num) (by omega)).trans hge

lemma pow_le_magnitude_iff (hn : l.mantissa.unscaled ≠ 0) (w : ℕ) :
    (10 : ℚ) ^ w ≤ l.magnitude ↔ (w : ℤ) < l.mantissa.significant.length - l.scale := by
  rw [← zpow_natCast]
  exact l.zpow_le_magnitude_iff hn w

lemma magnitude_eq_zero_iff : l.magnitude = 0 ↔ l.mantissa.unscaled = 0 := by
  rw [magnitude, mul_eq_zero, Nat.cast_eq_zero, or_iff_left (zpow_ne_zero _ (by norm_num))]

lemma magnitude_mul_lt_one_iff {s : ℕ} (hs : s ≤ l.scale) :
    l.magnitude * 10 ^ s < 1 ↔ l.mantissa.significant.length + s ≤ l.scale := by
  rcases eq_or_ne l.mantissa.unscaled 0 with hz | hn
  · have hlen : l.mantissa.significant.length = 0 :=
      (Mantissa.unscaled_eq_zero_iff l.wellFormed).mp hz
    rw [l.magnitude_eq_zero_iff.mpr hz, zero_mul, hlen]
    exact iff_of_true one_pos (by omega)
  · have hunit := l.zpow_le_magnitude_iff hn (-s)
    rw [zpow_neg, zpow_natCast, inv_le_iff_one_le_mul₀ (by positivity)] at hunit
    rw [← not_le, hunit]
    omega

end SqlCast.Text.Literal
