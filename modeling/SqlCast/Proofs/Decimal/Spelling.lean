import SqlCast.Proofs.Decimal.Reading

/-! Spellings of one number: the dot may move along the digits if the exponent makes up for it, and
zeros may stand in front. -/

namespace SqlCast

namespace Text.Mantissa

lemma significant_of_digits {m : Mantissa} {zeros : ℕ} {w : List ℕ}
    (hd : m.digits = List.replicate zeros 0 ++ w) : m.significant = w.dropWhile (· == 0) := by
  rw [significant, hd]
  exact List.dropWhile_append_of_pos (by simp)

end Text.Mantissa

namespace Decimal

open Text

section Fit

variable {t : Storage} {ty : DecimalType} {m₁ m₂ : Mantissa} {e₁ e₂ : ℤ}

lemma place_congr (value total : ℕ) {a₁ a₂ : ℕ} (h : a₁ - e₁ = a₂ - e₂) :
    place t value total a₁ e₁ = place t value total a₂ e₂ := by
  have hshift : e₁ - a₁ = e₂ - a₂ := by omega
  rw [place, place, h, hshift]
  exact if_congr (by omega) rfl rfl

lemma fit_congr (hsig : m₁.significant = m₂.significant) (hp : m₁.present = m₂.present)
    (hs : m₁.scale e₁ = m₂.scale e₂) (r : Rounding) : fit t ty r m₁ e₁ = fit t ty r m₂ e₂ := by
  have hplace : placement t ty m₁ e₁ = placement t ty m₂ e₂ := by
    rw [placement, placement, keptValue, keptValue, hsig]
    exact place_congr _ _ hs
  have habsent : (!m₁.hasDigit && !m₁.dotted) = (!m₂.hasDigit && !m₂.dotted) := by
    rw [← Bool.not_or, ← Bool.not_or]
    exact congrArg not hp
  have hdropped : droppedDigits ty m₁ = droppedDigits ty m₂ := by
    rw [droppedDigits, droppedDigits, hsig]
  have hfirst : firstDropped ty r m₁ = firstDropped ty r m₂ := by
    cases r with
    | truncate => rfl
    | halfUp => exact congrArg (fun ds : List ℕ => (ds[ty.precision]?).getD 0) hsig
  have hshorten : shorten t ty r m₁ = shorten t ty r m₂ := by
    funext p
    simp only [shorten, hdropped, hfirst]
  rw [fit, fit, hplace, habsent, hshorten]

end Fit

variable {t : Storage} {precision scale : ℕ}

theorem read_respelled (h : t.Admits precision scale) (r : Rounding) {l₁ l₂ : Literal}
    (he₁ : l₁.ExponentFits) (he₂ : l₂.ExponentFits) (hsign : l₁.negative = l₂.negative)
    {w : List ℕ} {zeros₁ zeros₂ : ℕ} (hd₁ : l₁.mantissa.digits = List.replicate zeros₁ 0 ++ w)
    (hd₂ : l₂.mantissa.digits = List.replicate zeros₂ 0 ++ w) (hs : l₁.scale = l₂.scale)
    {u₁ v₁ u₂ v₂ : Bytes} (hu₁ : allBlank u₁ = true) (hv₁ : allBlank v₁ = true)
    (hu₂ : allBlank u₂ = true) (hv₂ : allBlank v₂ = true) :
    Decimal.read t precision scale r (u₁ ++ l₁.text ++ v₁) =
      Decimal.read t precision scale r (u₂ ++ l₂.text ++ v₂) := by
  have hsig : l₁.mantissa.significant = l₂.mantissa.significant :=
    (Mantissa.significant_of_digits hd₁).trans (Mantissa.significant_of_digits hd₂).symm
  have hp : l₁.mantissa.present = l₂.mantissa.present := l₁.present.trans l₂.present.symm
  rw [read_literal h r l₁ he₁ hu₁ hv₁, read_literal h r l₂ he₂ hu₂ hv₂, hsign,
    fit_congr hsig hp hs]

def shiftedPoint : Literal where
  sign := some .minus
  mantissa := ⟨[0], [0, 0, 1, 2, 3, 4, 5, 6], true⟩
  exponent := some ⟨true, none, [6], by decide, by decide⟩
  wellFormed := by decide
  present := rfl

def unshiftedPoint : Literal where
  sign := some .minus
  mantissa := ⟨[1, 2, 3, 4], [5, 6], true⟩
  exponent := none
  wellFormed := by decide
  present := rfl

theorem read_respelled_shiftedPoint :
    shiftedPoint.mantissa.digits = List.replicate 3 0 ++ [1, 2, 3, 4, 5, 6] ∧
      Decimal.read .word32 5 1 .halfUp (shiftedPoint.text ++ [10]) = ⟨⟨-12346⟩, .underflow⟩ ∧
      Decimal.read .word32 5 1 .halfUp ([] ++ shiftedPoint.text ++ [10]) =
        Decimal.read .word32 5 1 .halfUp ([32] ++ unshiftedPoint.text ++ []) := by
  have hd : shiftedPoint.mantissa.digits = List.replicate 3 0 ++ [1, 2, 3, 4, 5, 6] := rfl
  have hd' : unshiftedPoint.mantissa.digits = List.replicate 0 0 ++ [1, 2, 3, 4, 5, 6] := rfl
  have hsign : shiftedPoint.negative = unshiftedPoint.negative := rfl
  exact ⟨hd, by decide, read_respelled (by decide) .halfUp (by decide) (by decide) hsign hd hd'
    (by decide) rfl rfl rfl rfl⟩

end Decimal

end SqlCast
