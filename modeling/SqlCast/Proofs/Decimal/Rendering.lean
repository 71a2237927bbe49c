import SqlCast.Proofs.Decimal.Reading

namespace SqlCast.Decimal

open Text

section Padding

variable (scale n : ℕ)

lemma paddedDigits_lt : ∀ d ∈ paddedDigits scale n, d < 10 := by
  intro d hd
  rcases List.mem_append.mp hd with hz | hn
  · rw [List.eq_of_mem_replicate hz]
    norm_num
  · exact digitsOf_lt (by norm_num) n d hn

lemma ofDigits_paddedDigits : ofDigits 10 (paddedDigits scale n) = n := by
  rw [paddedDigits, ofDigits_replicate_zero_append, ofDigits_digitsOf]

lemma lt_length_paddedDigits : scale < (paddedDigits scale n).length := by
  rw [paddedDigits, List.length_append, List.length_replicate]
  omega

def paddedMantissa : Mantissa :=
  let ds := paddedDigits scale n
  ⟨ds.take (ds.length - scale), ds.drop (ds.length - scale), scale != 0⟩

lemma digits_paddedMantissa : (paddedMantissa scale n).digits = paddedDigits scale n :=
  List.take_append_drop _ _

lemma length_fraction_paddedMantissa : (paddedMantissa scale n).fraction.length = scale := by
  have hlt := lt_length_paddedDigits scale n
  rw [paddedMantissa, List.length_drop]
  omega

lemma wellFormed_paddedMantissa : (paddedMantissa scale n).WellFormed := by
  refine ⟨?_, ?_⟩
  · rw [digits_paddedMantissa]
    exact paddedDigits_lt scale n
  · intro hs
    have hz : scale = 0 := by simpa [paddedMantissa] using hs
    exact List.eq_nil_of_length_eq_zero ((length_fraction_paddedMantissa scale n).trans hz)

lemma present_paddedMantissa : (paddedMantissa scale n).present = true := by
  have hlt := lt_length_paddedDigits scale n
  rw [Mantissa.present, Mantissa.hasDigit, digits_paddedMantissa]
  cases hds : paddedDigits scale n with
  | nil => simp [hds] at hlt
  | cons d ds => rfl

lemma unscaled_paddedMantissa : (paddedMantissa scale n).unscaled = n := by
  rw [Mantissa.unscaled, digits_paddedMantissa, ofDigits_paddedDigits]

end Padding

variable (scale : ℕ) (x : Decimal)

def literal : Literal where
  sign := if x.unscaled < 0 then some .minus else none
  mantissa := paddedMantissa scale x.unscaled.natAbs
  exponent := none
  wellFormed := wellFormed_paddedMantissa scale _
  present := present_paddedMantissa scale _

lemma render_eq_text : x.render scale = (literal scale x).text := by
  have hsign : (if x.unscaled < 0 then [45] else []) = signText (literal scale x).sign := by
    rw [literal]
    split_ifs <;> rfl
  have hmantissa : (literal scale x).mantissa.text =
      ((paddedDigits scale x.unscaled.natAbs).map digitByte).take
          ((paddedDigits scale x.unscaled.natAbs).length - scale) ++
        if scale = 0 then []
        else 46 :: ((paddedDigits scale x.unscaled.natAbs).map digitByte).drop
          ((paddedDigits scale x.unscaled.natAbs).length - scale) := by
    simp only [literal, Mantissa.text, paddedMantissa, List.map_take, List.map_drop]
    cases scale <;> rfl
  have hexponent : (literal scale x).exponentText = [] := rfl
  rw [Literal.text, hmantissa, hexponent, ← hsign, List.append_nil, render, List.append_assoc,
    List.length_map]

lemma scale_literal : (literal scale x).scale = scale := by
  rw [(literal scale x).scale_of_plain rfl]
  exact congrArg Nat.cast (length_fraction_paddedMantissa scale _)

lemma negative_literal : (literal scale x).negative = decide (x.unscaled < 0) := by
  rw [Literal.negative, literal]
  split_ifs with hn <;> simp [isMinus, hn]

lemma signed_literal : signed (literal scale x).negative x.unscaled.natAbs = x := by
  rw [negative_literal]
  obtain ⟨n⟩ := x
  by_cases hn : n < 0
  · rw [signed, decide_eq_true hn, if_pos rfl, Int.ofNat_natAbs_of_nonpos hn.le, neg_neg]
  · rw [signed, decide_eq_false hn, if_neg Bool.false_ne_true, Int.natAbs_of_nonneg (not_lt.mp hn)]

lemma exponentFits_literal : (literal scale x).ExponentFits := by
  change -128 ≤ (0 : ℤ) ∧ (0 : ℤ) ≤ 127
  norm_num

variable {t : Storage} {precision : ℕ} {scale} {x}

lemma read_literal_eq (h : t.Admits precision scale) (r : Rounding)
    (hx : x.unscaled.natAbs < 10 ^ precision) :
    Decimal.read t precision scale r (x.render scale) = ⟨x, .success⟩ := by
  have hs := scale_literal scale x
  have hread := read_literal h r (literal scale x) (exponentFits_literal scale x)
    (rfl : allBlank [] = true) (rfl : allBlank [] = true)
  have hlen : (literal scale x).mantissa.significant.length ≤ precision := by
    apply Mantissa.length_significant_le
    rw [literal, unscaled_paddedMantissa]
    exact hx
  rw [List.nil_append, List.append_nil, ← render_eq_text,
    fit_of_not_wide h r (literal scale x) (by omega), if_pos hs.le,
    (literal scale x).round_of_room r hs.le, hs, sub_self, Int.toNat_zero, pow_zero, Nat.mul_one] at hread
  rw [hread, literal, unscaled_paddedMantissa]
  exact congrArg (Outcome.mk · Status.success) (signed_literal scale x)

theorem read_render (h : t.Admits precision scale) :
    (∀ (r : Rounding) (x : Decimal), x.unscaled.natAbs < 10 ^ precision →
        Decimal.read t precision scale r (x.render scale) = ⟨x, .success⟩) ∧
      ∀ (r : Rounding) (s : Bytes),
        ((Decimal.read t precision scale r s).status = .success ∨
            (Decimal.read t precision scale r s).status = .underflow) →
          (Decimal.read t precision scale r s).value.unscaled.natAbs < 10 ^ precision ∧
            ∀ r' : Rounding,
              Decimal.read t precision scale r'
                  ((Decimal.read t precision scale r s).value.render scale) =
                ⟨(Decimal.read t precision scale r s).value, .success⟩ := by
  refine ⟨fun r x hx => read_literal_eq h r hx, fun r s hs => ?_⟩
  have hlt := natAbs_read_lt hs
  exact ⟨hlt, fun r' => read_literal_eq h r' hlt⟩

def almostHundred : Bytes := [57, 57, 46, 57, 52]

theorem read_render_almostHundred :
    Decimal.read .word32 3 3 .truncate (Decimal.render 3 ⟨-5⟩) = ⟨⟨-5⟩, .success⟩ ∧
      (Decimal.read .word32 3 1 .halfUp almostHundred).status = .underflow ∧
      Decimal.read .word32 3 1 .truncate
          ((Decimal.read .word32 3 1 .halfUp almostHundred).value.render 1) =
        ⟨(Decimal.read .word32 3 1 .halfUp almostHundred).value, .success⟩ := by
  have hstatus : (Decimal.read .word32 3 1 .halfUp almostHundred).status = .underflow := by decide
  refine ⟨(read_render (by decide)).1 .truncate ⟨-5⟩ (by decide), hstatus, ?_⟩
  exact ((read_render (by decide)).2 .halfUp almostHundred (Or.inr hstatus)).2 .truncate

end SqlCast.Decimal
