import SqlCast.Proofs.Decimal.Checked

/-! The value that comes with an overflow: the digits that the type keeps, moved by the exponent as
far as the word reaches, or the power of ten that rounding carries to. The number that overflows is too
large for the type, zeros apart. -/

namespace SqlCast

namespace Text.Literal

variable (l : Literal)

def leading (count : ℕ) : ℕ := ofDigits 10 (l.mantissa.significant.take count)

def shift : ℤ := l.exponentValue - l.mantissa.fraction.length

lemma neg_scale : -l.scale = l.shift := by
  rw [scale, Mantissa.scale, neg_sub, shift]

lemma significant_ne_nil_iff : l.mantissa.significant ≠ [] ↔ l.mantissa.unscaled ≠ 0 := by
  rw [Ne, Ne, Mantissa.unscaled_eq_zero_iff l.wellFormed, List.length_eq_zero_iff]

end Text.Literal

namespace Decimal

open Text

variable {t : Storage} {precision scale : ℕ}

lemma Storage.max_lt_pow (t : Storage) {k : ℕ} (h : t.maxPrecision < k) : t.max < (10 ^ k : ℕ) := by
  have hmax : t.max < (10 ^ (t.maxPrecision + 1) : ℕ) := by
    cases t <;> decide
  have hpow : 10 ^ (t.maxPrecision + 1) ≤ 10 ^ k := Nat.pow_le_pow_right (by norm_num) h
  exact hmax.trans_le (by exact_mod_cast hpow)

lemma scaleUp?_getD (t : Storage) (value shift : ℕ) :
    (scaleUp? t value shift).getD value =
      if (value * 10 ^ shift : ℕ) ≤ t.max then value * 10 ^ shift else value := by
  rw [scaleUp?, Storage.powerOfTen?_natCast]
  rcases le_or_gt shift t.maxPrecision with hs | hs
  · rw [if_pos hs, Option.bind_some]
    push_cast
    split_ifs
    · rfl
    · rfl
  · rw [if_neg hs.not_ge, Option.bind_none, Option.getD_none]
    rcases Nat.eq_zero_or_pos value with rfl | hpos
    · rw [Nat.zero_mul, ite_self]
    · have hle : 10 ^ shift ≤ value * 10 ^ shift := Nat.le_mul_of_pos_left _ hpos
      have hwide : t.max < (value * 10 ^ shift : ℕ) :=
        (t.max_lt_pow hs).trans_le (by exact_mod_cast hle)
      rw [if_neg hwide.not_ge]

lemma placement_value_eq_ite (t : Storage) (ty : DecimalType) (m : Mantissa) (exponent : ℤ) :
    (placement t ty m exponent).value =
      if 0 < -m.scale exponent ∧ (keptValue ty m * 10 ^ (-m.scale exponent).toNat : ℕ) ≤ t.max then
        keptValue ty m * 10 ^ (-m.scale exponent).toNat
      else keptValue ty m := by
  rcases le_or_gt 0 (m.scale exponent) with hs | hs
  · rw [placement_value hs, if_neg (by omega)]
  · have hshift : (exponent - m.fraction.length).toNat = (-m.scale exponent).toNat := by
      rw [Mantissa.scale, neg_sub]
    have hexp : exponent > m.fraction.length := by
      rw [Mantissa.scale] at hs
      omega
    rw [placement, place, if_pos hexp, hshift]
    simp only [scaleUp?_getD, neg_pos.mpr hs, true_and]

def overflowMagnitude (t : Storage) (precision scale : ℕ) (l : Literal) : ℕ :=
  if l.mantissa.significant ≠ [] ∧ l.magnitude < 10 ^ (precision - scale) then 10 ^ precision
  else if 0 < l.shift ∧ (l.leading precision * 10 ^ l.shift.toNat : ℕ) ≤ t.max then
    l.leading precision * 10 ^ l.shift.toNat
  else l.leading precision

section Fit

variable (h : t.Admits precision scale) (r : Rounding) (l : Literal)

lemma fit_value_of_wide (hw : (precision : ℤ) - scale < l.mantissa.significant.length - l.scale) :
    (fit t h.type r l.mantissa l.exponentValue).value = overflowMagnitude t precision scale l := by
  have hcarry : ¬(l.mantissa.significant ≠ [] ∧ l.magnitude < 10 ^ (precision - scale)) := by
    rintro ⟨hn, hlt⟩
    exact not_le.mpr hlt ((wide_iff_pow_le h l (l.significant_ne_nil_iff.mp hn)).mp hw)
  have hvalue := placement_value_eq_ite t h.type l.mantissa l.exponentValue
  rw [← Literal.scale, l.neg_scale] at hvalue
  rw [fit_of_wide r hw, overflowMagnitude, if_neg hcarry, hvalue]
  rfl

lemma fit_value_of_carry (hw : l.mantissa.significant.length - l.scale ≤ precision - scale)
    (ho : (fit t h.type r l.mantissa l.exponentValue).status = .overflow) :
    (fit t h.type r l.mantissa l.exponentValue).value = overflowMagnitude t precision scale l := by
  have hfit := fit_of_not_wide h r l hw
  have hround : r.round (l.magnitude * 10 ^ scale) = 10 ^ precision := by
    by_contra hne
    rw [hfit, if_neg hne] at ho
    split_ifs at ho
  have hn : l.mantissa.unscaled ≠ 0 := by
    intro hz
    have hzero : r.round 0 = 0 := by exact_mod_cast r.round_natCast 0
    rw [l.magnitude_eq_zero_iff.mpr hz, zero_mul, hzero] at hround
    exact absurd hround (by positivity : 0 < 10 ^ precision).ne
  have hlt : l.magnitude < 10 ^ (precision - scale) := by
    rw [← not_le, ← wide_iff_pow_le h l hn]
    exact not_lt.mpr hw
  have hvalue : (fit t h.type r l.mantissa l.exponentValue).value = 10 ^ precision := by
    rw [hfit]
    exact hround
  rw [hvalue, overflowMagnitude, if_pos ⟨l.significant_ne_nil_iff.mpr hn, hlt⟩]

end Fit

/-- An overflow keeps the sign and the first digits of the number. The zeros that its exponent asks for
come with them where the word holds the product, and a carry leaves the next power of ten. -/
theorem read_value_of_overflow (h : t.Admits precision scale) (r : Rounding) (l : Literal)
    (he : l.ExponentFits) {u v : Bytes} (hu : allBlank u = true) (hv : allBlank v = true)
    (ho : (Decimal.read t precision scale r (u ++ l.text ++ v)).status = .overflow) :
    (Decimal.read t precision scale r (u ++ l.text ++ v)).value.unscaled =
      if l.negative then -(overflowMagnitude t precision scale l : ℤ)
      else overflowMagnitude t precision scale l := by
  rw [read_literal h r l he hu hv] at ho ⊢
  have hvalue : (fit t h.type r l.mantissa l.exponentValue).value =
      overflowMagnitude t precision scale l := by
    rcases lt_or_ge ((precision : ℤ) - scale) (l.mantissa.significant.length - l.scale) with hw | hw
    · exact fit_value_of_wide h r l hw
    · exact fit_value_of_carry h r l hw ho
  rw [hvalue, signed]

def farShift : Literal where
  sign := some .minus
  mantissa := ⟨[1, 2, 3, 4, 5], [6], true⟩
  exponent := some ⟨false, none, [8], by decide, by decide⟩
  wellFormed := by decide
  present := rfl

theorem read_value_of_overflow_farShift :
    (Decimal.read .word64 4 1 .halfUp ([] ++ farShift.text ++ [32])).status = .overflow ∧
      (Decimal.read .word64 4 1 .halfUp ([] ++ farShift.text ++ [32])).value.unscaled = -12340000000 ∧
      (Decimal.read .word32 4 1 .halfUp ([] ++ farShift.text ++ [32])).value.unscaled = -1234 := by
  have h64 : (Decimal.read .word64 4 1 .halfUp ([] ++ farShift.text ++ [32])).status = .overflow := by
    decide
  have h32 : (Decimal.read .word32 4 1 .halfUp ([] ++ farShift.text ++ [32])).status = .overflow := by
    decide
  have hvalue64 : overflowMagnitude .word64 4 1 farShift = 12340000000 := by decide +kernel
  have hvalue32 : overflowMagnitude .word32 4 1 farShift = 1234 := by decide +kernel
  refine ⟨h64, ?_, ?_⟩
  · rw [read_value_of_overflow (by decide) .halfUp farShift (by decide) rfl rfl h64, hvalue64]
    rfl
  · rw [read_value_of_overflow (by decide) .halfUp farShift (by decide) rfl rfl h32, hvalue32]
    rfl

def Rounding.toScale : Rounding → ℕ → ℚ → ℚ
  | .truncate, _, x => x
  | .halfUp, s, x => Rounding.halfUp.round (x * 10 ^ s) / 10 ^ s

lemma le_toScale_of_overflows (h : t.Admits precision scale) {r : Rounding} {l : Literal}
    (ho : Overflows precision scale r l) :
    (10 : ℚ) ^ (precision - scale) ≤ r.toScale scale l.magnitude := by
  cases r with
  | truncate =>
    rcases ho with hl | ⟨hr, -, -⟩
    · exact hl
    · cases hr
  | halfUp =>
    have hp : 10 ^ precision ≤ Rounding.halfUp.round (l.magnitude * 10 ^ scale) := by
      rcases ho with hl | ⟨-, -, hr⟩
      · rw [pow_le_mul_pow_iff h] at hl
        refine Nat.le_floor ?_
        push_cast
        linarith
      · exact hr.ge
    rw [pow_le_mul_pow_iff h, Rounding.toScale, div_mul_cancel₀ _ (by positivity)]
    exact_mod_cast hp

lemma toScale_zero (r : Rounding) (s : ℕ) : r.toScale s 0 = 0 := by
  cases r with
  | truncate => rfl
  | halfUp =>
    have hz : Rounding.halfUp.round 0 = 0 := by exact_mod_cast Rounding.halfUp.round_natCast 0
    rw [Rounding.toScale, zero_mul, hz, Nat.cast_zero, zero_div]

lemma fit_status_of_zero (h : t.Admits precision scale) (r : Rounding) (l : Literal)
    (hz : l.mantissa.unscaled = 0) :
    (fit t h.type r l.mantissa l.exponentValue).status = .overflow ↔
      (precision : ℤ) - scale < -l.scale := by
  have hlen : l.mantissa.significant.length = 0 := (Mantissa.unscaled_eq_zero_iff l.wellFormed).mp hz
  have hmag : l.magnitude = 0 := l.magnitude_eq_zero_iff.mpr hz
  have hround : r.round 0 ≠ 10 ^ precision := by
    have hr : r.round 0 = 0 := by exact_mod_cast r.round_natCast 0
    rw [hr]
    positivity
  constructor
  · intro ho
    by_contra hw
    rw [fit_of_not_wide h r l (by omega), hmag, zero_mul, if_neg hround] at ho
    split_ifs at ho
  · intro hw
    exact fit_status_of_wide h r l (by omega)

/-- An overflow means that the number is too large, but for zeros whose exponent asks for more
zeros before the dot than the type has digits there. -/
theorem read_overflow_sound_iff (h : t.Admits precision scale) (r : Rounding) (l : Literal)
    (he : l.ExponentFits) {u v : Bytes} (hu : allBlank u = true) (hv : allBlank v = true)
    (hlen : (u ++ l.text ++ v).length < 2 ^ 31 - 256) :
    ∃ run, Checked.read t precision scale r (u ++ l.text ++ v) = .ok run ∧
      run.outcome = Decimal.read t precision scale r (u ++ l.text ++ v) ∧
      ((run.outcome.status = .overflow →
          (10 : ℚ) ^ (precision - scale) ≤ r.toScale scale l.magnitude) ↔
        (∃ d ∈ l.mantissa.digits, d ≠ 0) ∨ -l.scale ≤ precision - scale) := by
  obtain ⟨unscaled, hread, -⟩ := Checked.read_eq t precision scale r hlen
  refine ⟨_, hread, rfl, ?_⟩
  dsimp only
  rw [read_literal h r l he hu hv, ← Mantissa.unscaled_ne_zero_iff l.wellFormed]
  by_cases hz : l.mantissa.unscaled = 0
  · have hmag : l.magnitude = 0 := l.magnitude_eq_zero_iff.mpr hz
    have hpow : ¬(10 : ℚ) ^ (precision - scale) ≤ 0 := not_le.mpr (by positivity)
    rw [fit_status_of_zero h r l hz, hmag, toScale_zero, or_iff_right (not_not.mpr hz),
      ← not_lt (b := -l.scale)]
    exact ⟨fun ho hw => hpow (ho hw), fun hw ho => absurd ho hw⟩
  · refine ⟨fun _ => Or.inl hz, fun _ ho => ?_⟩
    rw [fit_status h r l hz] at ho
    refine le_toScale_of_overflows h ?_
    by_contra hno
    rw [if_neg hno] at ho
    split_ifs at ho

def shiftedZero : Literal where
  sign := none
  mantissa := ⟨[0], [], false⟩
  exponent := some ⟨false, none, [2], by decide, by decide⟩
  wellFormed := by decide
  present := rfl

theorem read_overflow_sound_shiftedZero :
    ([] ++ shiftedZero.text ++ []).length < 2 ^ 31 - 256 ∧
      ∃ run, Checked.read .word32 5 2 .halfUp ([] ++ shiftedZero.text ++ []) = .ok run ∧
        ((run.outcome.status = .overflow →
            (10 : ℚ) ^ (5 - 2) ≤ Rounding.halfUp.toScale 2 shiftedZero.magnitude) ↔
          (∃ d ∈ shiftedZero.mantissa.digits, d ≠ 0) ∨ -shiftedZero.scale ≤ 5 - 2) := by
  have hlen : ([] ++ shiftedZero.text ++ []).length < 2 ^ 31 - 256 := by decide
  have hadm : Storage.word32.Admits 5 2 := by decide
  obtain ⟨run, hrun, -, hiff⟩ :=
    read_overflow_sound_iff hadm .halfUp shiftedZero (by decide) rfl rfl hlen
  exact ⟨hlen, run, hrun, hiff⟩

theorem not_overflow_sound :
    ¬∀ (t : Storage) (precision scale : ℕ), t.Admits precision scale →
      ∀ (r : Rounding) (l : Literal), l.ExponentFits →
        ∀ u v : Bytes, allBlank u = true → allBlank v = true →
          (Decimal.read t precision scale r (u ++ l.text ++ v)).status = .overflow →
            (10 : ℚ) ^ (precision - scale) ≤ r.toScale scale l.magnitude := by
  intro hall
  have hzero : shiftedZero.magnitude = 0 := shiftedZero.magnitude_eq_zero_iff.mpr rfl
  have h := hall .word32 1 0 (by decide) .truncate shiftedZero (by decide) [] [] rfl rfl (by decide)
  rw [hzero, toScale_zero] at h
  norm_num at h

end Decimal

end SqlCast
