import SqlCast.Proofs.Decimal.Reading

/-! Texts without digit and dot before the exponent. No number stands there, yet the exponent is
read and its size decides the status. -/

namespace SqlCast

namespace Text.Mantissa

lemma scan_of_marker {body : Bytes} (hb : ∀ c ∈ body.head?, isMarker c = true) :
    scan body = (empty, body) := by
  apply scan_eq_empty
  intro c hc
  rcases isMarker_iff.mp (hb c hc) with rfl | rfl <;> decide

lemma scale_empty (exponent : ℤ) : empty.scale exponent = -exponent := by
  rw [scale, empty, List.length_nil]
  omega

end Text.Mantissa

namespace Decimal

open Text

lemma scaleUp?_zero (t : Storage) (shift : ℕ) : (scaleUp? t 0 shift).getD 0 = 0 := by
  rw [scaleUp?]
  cases t.powerOfTen? shift with
  | none => rfl
  | some p =>
    rw [Option.bind_some]
    split_ifs
    · exact Nat.zero_mul p
    · rfl

lemma placement_value_empty (t : Storage) (ty : DecimalType) (exponent : ℤ) :
    (placement t ty .empty exponent).value = 0 := by
  have hkept : keptValue ty .empty = 0 := keptValue_of_le Mantissa.wellFormed_empty (Nat.zero_le _)
  rw [placement, place, hkept]
  split_ifs
  · simp only [scaleUp?_zero]
  · rfl

lemma fit_empty {t : Storage} {ty : DecimalType} (hty : ty.fits t) (r : Rounding) (exponent : ℤ) :
    fit t ty r .empty exponent =
      ⟨0, if (ty.precision : ℤ) - ty.scale < exponent then .overflow
        else if exponent < -ty.scale then .underflow
        else .failure⟩ := by
  have hscale := Mantissa.scale_empty exponent
  have hlen : Mantissa.empty.significant.length = 0 := rfl
  rcases fit_cases r hty Mantissa.wellFormed_empty with ⟨hw, he⟩ | ⟨hw, hexcess, he⟩ |
    ⟨-, -, hp, -⟩ | ⟨hw, hroom, -, he⟩
  · rw [he, if_pos (by omega), placement_value_empty]
  · have hdrop :
        r.drop (Mantissa.empty.scale exponent - ty.scale).toNat Mantissa.empty.unscaled = 0 :=
      r.drop_zero (by omega)
    have hpow : 0 ≠ 10 ^ ty.precision := (by positivity : 0 < 10 ^ ty.precision).ne
    rw [he, hdrop, if_neg hpow, if_neg (by omega), if_pos (by omega)]
  · cases hp
  · rw [he, if_neg (by omega), if_neg (by omega)]

def statusOfExponent (precision scale : ℕ) (rest : Bytes) : Option ℤ → Status
  | none => .failure
  | some e =>
      if e < -128 then .underflow
      else if 127 < e then .overflow
      else if allBlank rest then
        if (precision : ℤ) - scale < e then .overflow
        else if e < -scale then .underflow
        else .failure
      else .failure

section

variable {t : Storage} {precision scale : ℕ} (h : t.Admits precision scale) (r : Rounding)
  {s : Bytes}

include h

lemma read_without_mantissa_eq (hb : ∀ c ∈ (splitSign (trim s)).2.head?, isMarker c = true) :
    Decimal.read t precision scale r s =
      ⟨⟨0⟩, statusOfExponent precision scale (Integer.afterLeading (splitSign (trim s)).2.tail)
        (Integer.leading? (splitSign (trim s)).2.tail)⟩ := by
  rw [h.read_eq, readFitting]
  generalize splitSign (trim s) = p at hb ⊢
  obtain ⟨negative, body⟩ := p
  simp only at hb ⊢
  rw [Mantissa.scan_of_marker hb]
  cases body with
  | nil =>
    have hsp := h.scale_le
    have hfit : fit t h.type r .empty 0 = ⟨0, .failure⟩ := by
      rw [fit_empty h.fits, if_neg, if_neg]
      · omega
      · exact not_lt.mpr (by rw [sub_nonneg]; exact_mod_cast hsp)
    simp only [readExponent, if_true, hfit, signed_zero]
    rfl
  | cons c rest =>
    rw [readExponent_cons (hb c rfl), List.tail_cons]
    simp only [fit_empty h.fits, signed_zero]
    cases Integer.leading? rest with
    | none => rfl
    | some e =>
      rw [outcomeOf_int8, statusOfExponent]
      by_cases hlow : e < -128
      · rw [if_pos hlow, if_pos hlow]
        rfl
      · rw [if_neg hlow, if_neg hlow]
        by_cases hhigh : 127 < e
        · rw [if_pos hhigh, if_pos hhigh]
          rfl
        · rw [if_neg hhigh, if_neg hhigh]
          cases allBlank (Integer.afterLeading rest) <;> rfl

lemma statusOfExponent_eq_failure_iff (rest : Bytes) (e : ℤ) :
    statusOfExponent precision scale rest (some e) = .failure ↔
      (-scale ≤ e ∧ e ≤ precision - scale) ∨ (-128 ≤ e ∧ e ≤ 127 ∧ allBlank rest = false) := by
  have hp : precision ≤ 38 := h.type.precision_le
  have hsp := h.scale_le
  rw [statusOfExponent]
  cases allBlank rest with
  | true =>
    simp only [if_true, Bool.true_eq_false, and_false, or_false]
    split_ifs <;> simp only [false_iff, true_iff] <;> omega
  | false =>
    simp only [Bool.false_eq_true, if_false, and_true]
    split_ifs <;> simp only [false_iff, true_iff] <;> omega

/-- With no mantissa there is no number, but the text is reported malformed only where its exponent
is too, or is one that the type could have taken. -/
theorem read_without_mantissa (hb : ∀ c ∈ (splitSign (trim s)).2.head?, isMarker c = true) :
    (Decimal.read t precision scale r s).value = ⟨0⟩ ∧
      ((Decimal.read t precision scale r s).status = .failure ↔
        ∀ e, Integer.leading? (splitSign (trim s)).2.tail = some e →
          (-scale ≤ e ∧ e ≤ precision - scale) ∨
            (-128 ≤ e ∧ e ≤ 127 ∧
              allBlank (Integer.afterLeading (splitSign (trim s)).2.tail) = false)) := by
  rw [read_without_mantissa_eq h r hb]
  refine ⟨rfl, ?_⟩
  cases Integer.leading? (splitSign (trim s)).2.tail with
  | none => simp [statusOfExponent]
  | some e => simp only [statusOfExponent_eq_failure_iff h, Option.some.injEq, forall_eq']

end

def bareExponent : Bytes := [101, 53]

lemma isMarker_head_bareExponent :
    ∀ c ∈ (splitSign (trim bareExponent)).2.head?, isMarker c = true := by
  intro c hc
  cases hc
  rfl

theorem read_without_mantissa_in_range :
    (Decimal.read .word32 9 2 .truncate bareExponent).status = .failure := by
  refine (read_without_mantissa (by decide) .truncate isMarker_head_bareExponent).2.mpr ?_
  intro e he
  cases he
  decide

theorem not_failure_without_mantissa :
    ¬∀ (t : Storage) (precision scale : ℕ), t.Admits precision scale →
      ∀ (r : Rounding) (s : Bytes), (∀ c ∈ (splitSign (trim s)).2.head?, isMarker c = true) →
        Decimal.read t precision scale r s = ⟨⟨0⟩, .failure⟩ := by
  intro hall
  have h := hall .word32 1 0 (by decide) .truncate bareExponent isMarker_head_bareExponent
  exact absurd (congrArg Outcome.status h) (by decide)

end Decimal

end SqlCast
