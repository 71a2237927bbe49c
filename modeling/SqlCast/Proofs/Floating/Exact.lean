import SqlCast.Proofs.Floating.Short

namespace SqlCast.Floating

open Text Binary

theorem read_exact {l : Literal} (he : l.exponent = none) (h : Plain.Held l.mantissa) {v : Finite .double}
    (hv : v.toRat = l.magnitude) : read .double l.text = ⟨.finite l.negative v, .success⟩ := by
  rw [l.magnitude_of_plain he] at hv
  obtain ⟨q, hq⟩ :=
    Finite.exists_fraction l.mantissa.fractionValue_nonneg l.wellFormed.fractionValue_lt_one hv
  have hquotient : round .double l.mantissa.fractionValue = .finite false q := by rw [← hq, round_toRat]
  have hvalue : Plain.value .double l.mantissa = .finite false v := by
    rw [h.value_eq l.wellFormed hquotient, hq, ← hv, round_toRat]
  refine read_literal l ?_
  rw [Literal.exponentText, he, Option.elim_none, ← hvalue]
  exact magnitude?_plain .double l.wellFormed l.present rfl

def belowPower : Literal where
  sign := some .minus
  mantissa := ⟨[0, 0, 1, 4, 0, 7, 3, 7, 4, 8, 8, 3, 5, 5, 3, 2, 7], [8, 7, 5], true⟩
  exponent := none
  wellFormed := by decide
  present := rfl

def belowPowerValue : Finite .double where
  quanta := (2 ^ 50 - 1) * Nat.pow 2 1071
  representable := ⟨by decide +kernel, 2 ^ 50 - 1, 1071, by decide, rfl⟩

theorem read_exact_belowPower :
    belowPower.exponent = none ∧ Plain.Held belowPower.mantissa ∧
      belowPowerValue.toRat = belowPower.magnitude ∧
      read .double belowPower.text = ⟨.finite true belowPowerValue, .success⟩ := by
  have h : Plain.Held belowPower.mantissa := ⟨by decide, by decide, by decide, by decide⟩
  have hv : belowPowerValue.toRat = belowPower.magnitude := by decide +kernel
  exact ⟨rfl, h, hv, read_exact rfl h hv⟩

end SqlCast.Floating
