import SqlCast.Proofs.Decimal.Rounding
import SqlCast.Proofs.Text.Magnitude

namespace SqlCast.Text.Literal

open Decimal

variable (l : Literal) (r : Rounding)

lemma round_of_room {s : ℕ} (h : l.scale ≤ s) :
    r.round (l.magnitude * 10 ^ s) = l.mantissa.unscaled * 10 ^ (s - l.scale).toNat := by
  have hexp : (s : ℤ) - l.scale = (s - l.scale).toNat := (Int.toNat_of_nonneg (by omega)).symm
  have hcast : l.magnitude * 10 ^ s =
      ((l.mantissa.unscaled * 10 ^ (s - l.scale).toNat : ℕ) : ℚ) := by
    rw [magnitude_mul_pow, hexp, zpow_natCast, Int.toNat_natCast]
    push_cast
    rfl
  rw [hcast, r.round_natCast]

lemma round_of_excess {s : ℕ} (h : s < l.scale) :
    r.round (l.magnitude * 10 ^ s) = r.drop (l.scale - s).toNat l.mantissa.unscaled := by
  have hexp : (s : ℤ) - l.scale = -((l.scale - s).toNat : ℤ) := by omega
  rw [magnitude_mul_pow, hexp, zpow_neg, zpow_natCast, ← div_eq_mul_inv, r.round_div (by omega)]

end SqlCast.Text.Literal
