import SqlCast.Proofs.Floating.Accumulation

namespace SqlCast.Floating.Plain

open Text

section Digits

variable (whole ds : List ℕ)

lemma takenDigits_eq_or :
    takenDigits whole ds = ds ∨
      maxSignificant ≤ ((whole ++ takenDigits whole ds).dropWhile (· == 0)).length := by
  induction ds using List.reverseRecOn with
  | nil => exact Or.inl List.take_nil
  | append_singleton ds d ih =>
    rcases le_or_gt ((whole ++ (ds ++ [d])).dropWhile (· == 0)).length maxSignificant with hle | hlt
    · exact Or.inl (takenDigits_of_le hle)
    · rw [takenDigits_append_of_lt hlt]
      refine Or.inr (ih.elim (fun hall => ?_) id)
      have hcount := count_significant (whole ++ ds) d
      rw [List.append_assoc, Accumulator.count] at hcount
      rw [hall]
      split_ifs at hcount <;> omega

lemma takenDigits_eq_nil_or :
    takenDigits whole ds = [] ∨
      ((whole ++ takenDigits whole ds).dropWhile (· == 0)).length ≤ maxSignificant := by
  induction ds using List.reverseRecOn with
  | nil => exact Or.inl List.take_nil
  | append_singleton ds d ih =>
    rcases le_or_gt ((whole ++ (ds ++ [d])).dropWhile (· == 0)).length maxSignificant with hle | hlt
    · exact Or.inr (by rwa [takenDigits_of_le hle])
    · rwa [takenDigits_append_of_lt hlt]

end Digits

lemma kept_eq_or (m : Mantissa) : kept m = m ∨ 10 ^ 17 ≤ (kept m).unscaled := by
  refine (takenDigits_eq_or m.whole m.fraction).imp (fun h => by rw [kept, h]) fun h => ?_
  obtain ⟨k, hk⟩ : ∃ k, (kept m).significant.length = k + 1 :=
    Nat.exists_eq_add_one_of_ne_zero (by have : 18 ≤ (kept m).significant.length := h; omega)
  refine le_trans (Nat.pow_le_pow_right (by norm_num) ?_) (Mantissa.pow_le_unscaled hk)
  have hmany : 18 ≤ (kept m).significant.length := h
  omega

section

variable {m : Mantissa} (hm : m.WellFormed)

include hm

lemma wellFormed_kept : (kept m).WellFormed where
  digits_lt := by
    intro d hd
    rcases List.mem_append.mp hd with hw | hf
    · exact hm.whole_lt d hw
    · exact hm.fraction_lt d (List.mem_of_mem_take hf)
  fraction_eq_nil := by
    intro hd
    change m.fraction.take _ = []
    rw [hm.fraction_eq_nil hd, List.take_nil]

lemma unscaled_kept_lt (h : (kept m).fraction ≠ []) : (kept m).unscaled < 10 ^ 18 :=
  (Mantissa.unscaled_lt (wellFormed_kept hm)).trans_le
    (Nat.pow_le_pow_right (by norm_num) ((takenDigits_eq_nil_or m.whole m.fraction).resolve_left h))

lemma remainder_bounds :
    (ofDigits 10 (kept m).fraction : ℚ) ≤ m.fractionValue * 10 ^ (kept m).fraction.length ∧
      m.fractionValue * 10 ^ (kept m).fraction.length < ofDigits 10 (kept m).fraction + 1 := by
  obtain ⟨rest, hrest⟩ : ∃ rest, (kept m).fraction ++ rest = m.fraction :=
    ⟨_, List.take_append_drop _ m.fraction⟩
  have hlt : ofDigits 10 rest < 10 ^ rest.length :=
    ofDigits_lt (by norm_num) fun d hd => hm.fraction_lt d (hrest ▸ List.mem_append_right _ hd)
  have hvalue : m.fractionValue * 10 ^ (kept m).fraction.length =
      ofDigits 10 (kept m).fraction + ofDigits 10 rest / 10 ^ rest.length := by
    rw [Mantissa.fractionValue, ← hrest, ofDigits_append, List.length_append, pow_add]
    push_cast
    field_simp
  have hrest1 : (ofDigits 10 rest : ℚ) / 10 ^ rest.length < 1 := by
    rw [div_lt_one (by positivity)]
    exact_mod_cast hlt
  rw [hvalue]
  exact ⟨le_add_of_nonneg_right (by positivity), add_lt_add_right hrest1 _⟩

lemma fractionValue_kept_le : (kept m).fractionValue ≤ m.fractionValue := by
  rw [Mantissa.fractionValue, div_le_iff₀ (by positivity)]
  exact (remainder_bounds hm).1

lemma magnitude_kept_le : (kept m).magnitude ≤ m.magnitude :=
  add_le_add_right (fractionValue_kept_le hm) _

lemma magnitude_le_kept : m.magnitude ≤ (kept m).magnitude * (1 + 1 / 10 ^ 17) := by
  have hpow : (0 : ℚ) < 10 ^ (kept m).fraction.length := by positivity
  rcases kept_eq_or m with hall | hmany
  · rw [hall]
    exact le_mul_of_one_le_right m.magnitude_nonneg (by norm_num)
  · have hmany : (10 : ℚ) ^ 17 ≤ (kept m).magnitude * 10 ^ (kept m).fraction.length := by
      rw [Mantissa.magnitude_mul]
      exact_mod_cast hmany
    refine le_of_mul_le_mul_right ?_ hpow
    have hcut : m.magnitude * 10 ^ (kept m).fraction.length ≤
        (kept m).magnitude * 10 ^ (kept m).fraction.length + 1 := by
      have hfraction := (remainder_bounds hm).2.le
      rw [Mantissa.magnitude_mul, Mantissa.unscaled_eq, Mantissa.magnitude, add_mul]
      push_cast
      change _ ≤ (m.wholeValue : ℚ) * _ + _ + 1
      linarith
    calc m.magnitude * 10 ^ (kept m).fraction.length
        ≤ (kept m).magnitude * 10 ^ (kept m).fraction.length + 1 := hcut
      _ ≤ (kept m).magnitude * (1 + 1 / 10 ^ 17) * 10 ^ (kept m).fraction.length := by
        have hone : 1 ≤ (kept m).magnitude * 10 ^ (kept m).fraction.length * (1 / 10 ^ 17) := by
          rw [mul_one_div, one_le_div (by norm_num)]
          exact hmany
        linarith

end

section

variable {a b : Mantissa} (ha : a.WellFormed) (hb : b.WellFormed)
  (hle : a.fractionValue ≤ b.fractionValue)

include ha hb hle

lemma remainder_le (hk : (kept a).fraction.length ≤ (kept b).fraction.length) :
    ofDigits 10 (kept a).fraction * 10 ^ ((kept b).fraction.length - (kept a).fraction.length) ≤
      ofDigits 10 (kept b).fraction := by
  obtain ⟨k, hk⟩ := Nat.exists_eq_add_of_le hk
  have hlow := (remainder_bounds ha).1
  have hhigh := (remainder_bounds hb).2
  rw [hk, Nat.add_sub_cancel_left]
  rw [hk, pow_add] at hhigh
  have hpow : (0 : ℚ) < 10 ^ k := by positivity
  have hlt : (ofDigits 10 (kept a).fraction : ℚ) * 10 ^ k < ofDigits 10 (kept b).fraction + 1 := by
    calc (ofDigits 10 (kept a).fraction : ℚ) * 10 ^ k
        ≤ a.fractionValue * 10 ^ (kept a).fraction.length * 10 ^ k := mul_le_mul_of_nonneg_right hlow hpow.le
      _ ≤ b.fractionValue * 10 ^ (kept a).fraction.length * 10 ^ k := by gcongr
      _ < ofDigits 10 (kept b).fraction + 1 := by rwa [mul_assoc]
  exact Nat.le_of_lt_succ (by exact_mod_cast hlt)

lemma fractionValue_kept_mono (hwhole : a.wholeValue = b.wholeValue) :
    (kept a).fractionValue ≤ (kept b).fractionValue := by
  rcases kept_eq_or b with hall | hmany
  · rw [hall]
    exact (fractionValue_kept_le ha).trans hle
  · rcases le_or_gt (kept a).fraction.length (kept b).fraction.length with hk | hk
    · have hrem := remainder_le ha hb hle hk
      obtain ⟨k, hk⟩ := Nat.exists_eq_add_of_le hk
      rw [hk, Nat.add_sub_cancel_left] at hrem
      rw [Mantissa.fractionValue, Mantissa.fractionValue, hk, pow_add,
        div_le_div_iff₀ (by positivity) (by positivity)]
      have hrem : (ofDigits 10 (kept a).fraction : ℚ) * 10 ^ k ≤ ofDigits 10 (kept b).fraction := by
        exact_mod_cast hrem
      calc (ofDigits 10 (kept a).fraction : ℚ) * (10 ^ (kept a).fraction.length * 10 ^ k)
          = ofDigits 10 (kept a).fraction * 10 ^ k * 10 ^ (kept a).fraction.length := by ring
        _ ≤ ofDigits 10 (kept b).fraction * 10 ^ (kept a).fraction.length :=
          mul_le_mul_of_nonneg_right hrem (by positivity)
    · -- The cut comes earlier in the literal with more digits before it, so this one is the larger.
      have hfew : (kept a).unscaled < 10 ^ 18 :=
        unscaled_kept_lt ha (List.ne_nil_of_length_pos (by omega))
      have hmag : (kept a).magnitude ≤ (kept b).magnitude := by
        have hsmall : (kept a).magnitude * 10 ^ (kept a).fraction.length < 10 ^ 18 := by
          rw [Mantissa.magnitude_mul]
          exact_mod_cast hfew
        have hlarge : (10 : ℚ) ^ 17 ≤ (kept b).magnitude * 10 ^ (kept b).fraction.length := by
          rw [Mantissa.magnitude_mul]
          exact_mod_cast hmany
        have hstep : (kept b).magnitude * 10 ^ ((kept b).fraction.length + 1) ≤
            (kept b).magnitude * 10 ^ (kept a).fraction.length :=
          mul_le_mul_of_nonneg_left (pow_le_pow_right₀ (by norm_num) hk) (Mantissa.magnitude_nonneg _)
        refine le_of_mul_le_mul_right ?_ (by positivity : (0 : ℚ) < 10 ^ (kept a).fraction.length)
        rw [pow_succ] at hstep
        linarith
      have hkept : (kept a).wholeValue = (kept b).wholeValue := hwhole
      rw [Mantissa.magnitude, Mantissa.magnitude, hkept] at hmag
      exact le_of_add_le_add_left hmag

end

end SqlCast.Floating.Plain
