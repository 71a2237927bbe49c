import SqlCast.Proofs.Floating.Quotient
import SqlCast.Proofs.Floating.Reader

namespace SqlCast.Floating

open Text Binary

lemma read_literal {f : Format} (l : Literal) {v : Finite f}
    (hv : magnitude? f (l.mantissa.text ++ l.exponentText) = some (.finite false v)) :
    read f l.text = ⟨.finite l.negative v, .success⟩ := by
  have hread := read_padded f l (u := []) (v := []) rfl (by rwa [List.append_nil])
  rw [signed_finite, List.nil_append, List.append_nil] at hread
  exact hread

def zeroExponent : Exponent := ⟨false, none, [0], by decide, by decide⟩

lemma text_zeroExponent (l : Literal) (h : l.exponent = none) :
    { l with exponent := some zeroExponent }.text = l.text ++ [101, 48] := by
  simp only [Literal.text, Literal.exponentText, h, Option.elim_some, Option.elim_none, List.append_nil,
    List.append_assoc]
  rfl

structure Short (l : Literal) : Prop where
  exponent : l.exponent = none
  hasDigit : l.mantissa.hasDigit = true
  significant : l.mantissa.significant.length ≤ 15
  fraction : l.mantissa.fraction.length ≤ 22

instance (l : Literal) : Decidable (Short l) :=
  decidable_of_iff (l.exponent.isNone = true ∧ l.mantissa.hasDigit = true ∧
      l.mantissa.significant.length ≤ 15 ∧ l.mantissa.fraction.length ≤ 22)
    ⟨fun ⟨he, hd, hs, hf⟩ => ⟨Option.isNone_iff_eq_none.mp he, hd, hs, hf⟩,
      fun ⟨he, hd, hs, hf⟩ => ⟨Option.isNone_iff_eq_none.mpr he, hd, hs, hf⟩⟩

variable {l : Literal}

namespace Short

variable (h : Short l) {q v c : Finite .double}

include h

lemma held : Plain.Held l.mantissa where
  whole := (Plain.wholeValue_lt_of_short l.wellFormed h.significant).le.trans (by norm_num)
  significant := h.significant.trans (by norm_num)
  length := h.fraction
  remainder := (Plain.fractionDigits_lt_of_short l.wellFormed h.significant).le.trans (by norm_num)

lemma read_text (hq : Nearest .double (l.mantissa.fractionValue * Format.double.one) q.quanta)
    (hv : Nearest .double ((l.mantissa.wholeValue + q.toRat) * Format.double.one) v.quanta) :
    read .double l.text = ⟨.finite l.negative v, .success⟩ := by
  refine read_literal l ?_
  have hp : magnitude? .double (l.mantissa.text ++ []) = some (Plain.value .double l.mantissa) :=
    magnitude?_plain .double l.wellFormed l.present rfl
  rw [Literal.exponentText, h.exponent, Option.elim_none, hp,
    h.held.value_eq l.wellFormed (round_eq l.mantissa.fractionValue_nonneg hq),
    round_eq (add_nonneg (Nat.cast_nonneg _) q.toRat_nonneg) hv]

lemma read_zeroExponent (hc : Nearest .double (l.magnitude * Format.double.one) c.quanta) :
    read .double (l.text ++ [101, 48]) = ⟨.finite l.negative c, .success⟩ := by
  rw [← text_zeroExponent l h.exponent]
  refine read_literal { l with exponent := some zeroExponent } ?_
  have hp := magnitude?_scientific .double l.wellFormed h.hasDigit zeroExponent (v := []) rfl
  have hscan : Scientific.scanExponent zeroExponent.text = (0, []) := by decide
  rw [List.append_nil] at hp
  rw [Literal.magnitude, Literal.scale, Literal.exponentValue, h.exponent, Option.elim_none,
    Mantissa.scale, sub_zero] at hc
  rw [Literal.exponentText, Option.elim_some, hp, scientific, hscan]
  exact congrArg some (ofDecimal_eq (by rwa [zero_sub]) c.representable.1 false)

end Short

/-- The digits are read as the value nearest to the whole part plus the value nearest to the fraction.
With a zero exponent the value nearest to the literal itself is read; the two differ just where that
sum is halfway between them while the literal is closer to the second. -/
theorem read_short (h : Short l) :
    ∃ q v c : Finite .double,
      q.IsNearest l.mantissa.fractionValue ∧
      v.IsNearest (l.mantissa.wholeValue + q.toRat) ∧
      c.IsNearest l.magnitude ∧
      read .double l.text = ⟨.finite l.negative v, .success⟩ ∧
      read .double (l.text ++ [101, 48]) = ⟨.finite l.negative c, .success⟩ ∧
      (v.IsNearest l.magnitude ↔ v = c) ∧
      (v ≠ c ↔
        |l.mantissa.wholeValue + q.toRat - c.toRat| = |l.mantissa.wholeValue + q.toRat - v.toRat| ∧
          |l.magnitude - c.toRat| < |l.magnitude - v.toRat|) := by
  have hmag := l.magnitude_of_plain h.exponent
  have hwhole := Plain.wholeValue_lt_of_short l.wellFormed h.significant
  have hwhole0 : (0 : ℚ) ≤ l.mantissa.wholeValue := Nat.cast_nonneg _
  have hwhole1 : (l.mantissa.wholeValue : ℚ) + 1 ≤ (2 ^ Format.double.precision : ℕ) := by
    have hle : l.mantissa.wholeValue + 1 ≤ 2 ^ Format.double.precision := hwhole.trans_le (by decide)
    exact_mod_cast hle
  have hx0 := l.mantissa.fractionValue_nonneg
  have hx1 := l.wellFormed.fractionValue_lt_one.le
  obtain ⟨q, hq⟩ := exists_finite_nearest (f := .double) hx0 (hx1.trans (by linarith))
  have hq0 := q.toRat_nonneg
  have hq1 := Finite.toRat_le_one hq hx1
  obtain ⟨v, hv⟩ := exists_finite_nearest (f := .double) (add_nonneg hwhole0 hq0) (by linarith)
  obtain ⟨c, hc⟩ := exists_finite_nearest (f := .double) (x := l.magnitude) (by linarith) (by linarith)
  have hnearest := Finite.isNearest_of_nearest hc
  refine ⟨q, v, c, Finite.isNearest_of_nearest hq, Finite.isNearest_of_nearest hv, hnearest,
    h.read_text hq hv, h.read_zeroExponent hc, ?_, ?_⟩
  · constructor
    · intro hv
      exact hv.unique (by linarith) (by linarith) hnearest
    · rintro rfl
      exact hnearest
  · rw [hmag] at hc ⊢
    exact Finite.ne_iff_tie (hwhole.trans (by decide)) hx0 hx1 hq hv hc

def tiedSum : Literal where
  sign := none
  mantissa := ⟨[1], [1, 4], true⟩
  exponent := none
  wellFormed := by decide
  present := rfl

theorem read_short_tiedSum :
    Short tiedSum ∧ ∃ q v c : Finite .double,
      q.IsNearest (14 / 100) ∧ v.IsNearest (1 + q.toRat) ∧ c.IsNearest (114 / 100) ∧
      read .double tiedSum.text = ⟨.finite false v, .success⟩ ∧
      read .double (tiedSum.text ++ [101, 48]) = ⟨.finite false c, .success⟩ ∧
      (v.IsNearest (114 / 100) ↔ v = c) ∧
      (v ≠ c ↔ |1 + q.toRat - c.toRat| = |1 + q.toRat - v.toRat| ∧
        |114 / 100 - c.toRat| < |114 / 100 - v.toRat|) := by
  have hshort : Short tiedSum := by decide
  obtain ⟨q, v, c, hq, hv, hc, hread, hzero, hiff, hne⟩ := read_short hshort
  have hfraction : tiedSum.mantissa.fractionValue = 14 / 100 := by decide +kernel
  have hwhole : (tiedSum.mantissa.wholeValue : ℚ) = 1 := by decide +kernel
  have hmag : tiedSum.magnitude = 114 / 100 := by decide +kernel
  rw [hfraction] at hq
  rw [hwhole] at hv hne
  rw [hmag] at hc hiff hne
  exact ⟨hshort, q, v, c, hq, hv, hc, hread, hzero, hiff, hne⟩

def unitBinade (m : ℕ) (h : m < 2 ^ Format.double.precision) : Finite .double where
  quanta := m * Nat.pow 2 1022
  representable := by
    refine ⟨?_, m, 1022, h, rfl⟩
    exact (Nat.mul_lt_mul_of_pos_right h (by decide +kernel)).trans (by decide +kernel)

theorem not_read_nearest :
    ¬∀ l : Literal, Short l → ∃ c : Finite .double,
      c.IsNearest l.magnitude ∧ read .double l.text = ⟨.finite l.negative c, .success⟩ := by
  intro hall
  obtain ⟨c, hc, hread⟩ := hall tiedSum (by decide)
  have hupper : read .double tiedSum.text =
      ⟨.finite tiedSum.negative (unitBinade 0x123d70a3d70a3e (by decide)), .success⟩ := by
    decide +kernel
  obtain rfl : unitBinade 0x123d70a3d70a3e (by decide) = c := by simpa using hupper.symm.trans hread
  exact absurd (hc.le (unitBinade 0x123d70a3d70a3d (by decide))) (by decide +kernel)

end SqlCast.Floating
