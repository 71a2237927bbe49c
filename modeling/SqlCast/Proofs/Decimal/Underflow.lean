import SqlCast.Proofs.Decimal.Checked

/-! How far an underflow is from the number that is written: less than one unit in the last place, as
long as the exponent is counted. An exponent below eight bits makes zero of the number, however many
digits stand before it. -/

namespace SqlCast

namespace Decimal.Rounding

lemma abs_round_sub_lt_one (r : Rounding) {x : ℚ} (hx : 0 ≤ x) : |(r.round x : ℚ) - x| < 1 := by
  cases r with
  | truncate =>
    have hle := Nat.floor_le hx
    have hlt := Nat.lt_floor_add_one x
    rw [round, abs_lt]
    constructor <;> linarith
  | halfUp =>
    have hle := Nat.floor_le (by linarith : 0 ≤ x + 1 / 2)
    have hlt := Nat.lt_floor_add_one (x + 1 / 2)
    rw [round, abs_lt]
    constructor <;> linarith

end Decimal.Rounding

namespace Decimal

open Text

variable {t : Storage} {precision scale : ℕ}

lemma abs_signed_sub (l : Literal) (n : ℕ) (y : ℚ) :
    |((signed l.negative n).unscaled : ℚ) - l.value * y| = |(n : ℚ) - l.magnitude * y| := by
  rw [signed, Literal.value]
  cases l.negative with
  | true =>
    simp only [if_true]
    rw [← abs_neg]
    congr 1
    push_cast
    ring
  | false =>
    simp only [Bool.false_eq_true, if_false, Int.cast_natCast]

section

variable (h : t.Admits precision scale) (r : Rounding) (l : Literal)

lemma fit_value_of_underflow
    (hs : (fit t h.type r l.mantissa l.exponentValue).status = .underflow) :
    (fit t h.type r l.mantissa l.exponentValue).value = r.round (l.magnitude * 10 ^ scale) := by
  have hw : ¬(precision : ℤ) - scale < l.mantissa.significant.length - l.scale := by
    intro hw
    rw [fit_status_of_wide h r l hw] at hs
    cases hs
  rw [fit_of_not_wide h r l (not_lt.mp hw)]

variable {u v : Bytes} (hu : allBlank u = true) (hv : allBlank v = true)

include h hu hv

lemma read_of_exponent_lt (he : l.exponentValue < -128) :
    Decimal.read t precision scale r (u ++ l.text ++ v) = ⟨⟨0⟩, .underflow⟩ := by
  rw [h.read_eq, readFitting, l.trim_text hu hv, l.splitSign_text]
  simp only [l.scan_mantissa, l.readExponent_of_lt he]
  rfl

lemma read_of_exponent_gt (he : 127 < l.exponentValue) :
    Decimal.read t precision scale r (u ++ l.text ++ v) = ⟨⟨0⟩, .overflow⟩ := by
  rw [h.read_eq, readFitting, l.trim_text hu hv, l.splitSign_text]
  simp only [l.scan_mantissa, l.readExponent_of_gt he]
  rfl

lemma close_of_exponentFits (he : l.ExponentFits)
    (hs : (Decimal.read t precision scale r (u ++ l.text ++ v)).status = .underflow) :
    |((Decimal.read t precision scale r (u ++ l.text ++ v)).value.unscaled : ℚ) -
      l.value * 10 ^ scale| < 1 := by
  rw [read_literal h r l he hu hv] at hs ⊢
  rw [abs_signed_sub, fit_value_of_underflow h r l hs]
  exact r.abs_round_sub_lt_one (mul_nonneg l.magnitude_nonneg (by positivity))

lemma close_iff_of_exponent_lt (he : l.exponentValue < -128) :
    |((Decimal.read t precision scale r (u ++ l.text ++ v)).value.unscaled : ℚ) -
      l.value * 10 ^ scale| < 1 ↔ l.mantissa.significant.length + scale ≤ l.scale := by
  have hscale : scale ≤ l.scale := by
    have hp : precision ≤ 38 := h.type.precision_le
    have hsp := h.scale_le
    rw [Literal.scale, Mantissa.scale]
    omega
  have hzero := signed_zero l.negative
  rw [read_of_exponent_lt h r l hu hv he, ← hzero, abs_signed_sub, Nat.cast_zero, zero_sub, abs_neg,
    abs_of_nonneg (mul_nonneg l.magnitude_nonneg (by positivity)), l.magnitude_mul_lt_one_iff hscale]

end

/-- An underflow is less than one unit off, unless its exponent is below eight bits and the mantissa has
more digits than that exponent moves past the last place. -/
theorem read_underflow_close_iff (h : t.Admits precision scale) (r : Rounding) (l : Literal)
    {u v : Bytes} (hu : allBlank u = true) (hv : allBlank v = true)
    (hlen : (u ++ l.text ++ v).length < 2 ^ 31 - 256)
    (hs : (Decimal.read t precision scale r (u ++ l.text ++ v)).status = .underflow) :
    ∃ run, Checked.read t precision scale r (u ++ l.text ++ v) = .ok run ∧
      run.outcome = Decimal.read t precision scale r (u ++ l.text ++ v) ∧
      (|(run.outcome.value.unscaled : ℚ) - l.value * 10 ^ scale| < 1 ↔
        -128 ≤ l.exponentValue ∨ l.mantissa.significant.length + scale ≤ l.scale) := by
  obtain ⟨unscaled, hread, -⟩ := Checked.read_eq t precision scale r hlen
  refine ⟨_, hread, rfl, ?_⟩
  dsimp only
  rcases lt_or_ge l.exponentValue (-128) with hlow | hlow
  · rw [close_iff_of_exponent_lt h r l hu hv hlow, or_iff_right (not_le.mpr hlow)]
  · have hhigh : l.exponentValue ≤ 127 := by
      by_contra hhigh
      rw [read_of_exponent_gt h r l hu hv (not_le.mp hhigh)] at hs
      cases hs
    exact iff_of_true (close_of_exponentFits h r l hu hv ⟨hlow, hhigh⟩ hs) (Or.inl hlow)

def longOne : Literal where
  sign := none
  mantissa := ⟨1 :: List.replicate 129 0, [], false⟩
  exponent := some ⟨false, some .minus, [1, 2, 9], by decide, by decide⟩
  wellFormed := by decide +kernel
  present := rfl

def farBelow : Literal where
  sign := some .minus
  mantissa := ⟨[9, 8], [7, 6, 5], true⟩
  exponent := some ⟨false, some .minus, [1, 2, 9], by decide, by decide⟩
  wellFormed := by decide
  present := rfl

theorem read_underflow_close_farBelow :
    ([] ++ farBelow.text ++ []).length < 2 ^ 31 - 256 ∧
      (Decimal.read .word32 5 2 .halfUp ([] ++ farBelow.text ++ [])).status = .underflow ∧
      |((Decimal.read .word32 5 2 .halfUp ([] ++ farBelow.text ++ [])).value.unscaled : ℚ) -
        farBelow.value * 10 ^ 2| < 1 := by
  have hlen : ([] ++ farBelow.text ++ []).length < 2 ^ 31 - 256 := by decide
  have hs : (Decimal.read .word32 5 2 .halfUp ([] ++ farBelow.text ++ [])).status = .underflow := by
    decide
  have hdigits : (farBelow.mantissa.significant.length : ℤ) + 2 ≤ farBelow.scale := by decide
  obtain ⟨run, -, hrun, hclose⟩ :=
    read_underflow_close_iff (by decide) .halfUp farBelow rfl rfl hlen hs
  rw [hrun] at hclose
  exact ⟨hlen, hs, hclose.mpr (Or.inr hdigits)⟩

theorem not_underflow_close :
    ¬∀ (t : Storage) (precision scale : ℕ), t.Admits precision scale →
      ∀ (r : Rounding) (l : Literal) (u v : Bytes), allBlank u = true → allBlank v = true →
        (Decimal.read t precision scale r (u ++ l.text ++ v)).status = .underflow →
          |((Decimal.read t precision scale r (u ++ l.text ++ v)).value.unscaled : ℚ) -
            l.value * 10 ^ scale| < 1 := by
  intro hall
  have hadm : Storage.word32.Admits 1 0 := by decide
  have hlow : longOne.exponentValue < -128 := by decide
  have hread := read_of_exponent_lt hadm .truncate longOne (u := []) (v := []) rfl rfl hlow
  have hclose := hall .word32 1 0 hadm .truncate longOne [] [] rfl rfl (by rw [hread])
  rw [close_iff_of_exponent_lt hadm .truncate longOne rfl rfl hlow] at hclose
  exact absurd hclose (by decide +kernel)

end Decimal

end SqlCast
