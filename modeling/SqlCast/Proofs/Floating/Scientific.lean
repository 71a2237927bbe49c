import SqlCast.Proofs.Binary.Range
import SqlCast.Proofs.Floating.Reader

/-! Literals with an exponent: the number that is rounded, and when it is the number written. -/

namespace SqlCast.Floating

open Text Binary

namespace Scientific

variable {ds : List ℕ}

lemma exponentOfDigits_append_singleton (ds : List ℕ) (d : ℕ) :
    exponentOfDigits (ds ++ [d]) =
      if exponentOfDigits ds < exponentBound then exponentOfDigits ds * 10 + d else exponentOfDigits ds := by
  rw [exponentOfDigits, List.foldl_append]
  rfl

lemma exponentOfDigits_eq (h : ofDigits 10 ds < 10 * exponentBound) :
    exponentOfDigits ds = ofDigits 10 ds := by
  induction ds using List.reverseRecOn with
  | nil => rfl
  | append_singleton ds d ih =>
    rw [ofDigits_append_singleton] at h
    have hlt : ofDigits 10 ds < exponentBound := by omega
    rw [exponentOfDigits_append_singleton, ih (by omega), if_pos hlt, ofDigits_append_singleton]

lemma exponentOfDigits_lt (h : ∀ d ∈ ds, d < 10) : exponentOfDigits ds < 10 * exponentBound := by
  induction ds using List.reverseRecOn with
  | nil => decide
  | append_singleton ds d ih =>
    have hd := h d (List.mem_append_right _ List.mem_cons_self)
    have hprefix := ih fun c hc => h c (List.mem_append_left _ hc)
    rw [exponentOfDigits_append_singleton]
    split_ifs <;> omega

end Scientific

def counted (e : Exponent) : ℤ :=
  if isMinus e.sign then -(Scientific.exponentOfDigits e.digits : ℤ) else Scientific.exponentOfDigits e.digits

lemma counted_eq_value_iff (e : Exponent) :
    counted e = e.value ↔ e.value.natAbs < 10 * Scientific.exponentBound := by
  have hlt := Scientific.exponentOfDigits_lt e.digits_lt
  have hcounted : counted e = e.value ↔ Scientific.exponentOfDigits e.digits = ofDigits 10 e.digits := by
    rw [counted, Exponent.value]
    split_ifs <;> omega
  have habs : e.value.natAbs = ofDigits 10 e.digits := by
    rw [Exponent.value]
    split_ifs <;> omega
  rw [hcounted, habs]
  constructor
  · intro heq
    rwa [← heq]
  · exact Scientific.exponentOfDigits_eq

def countedMagnitude (l : Literal) : ℚ :=
  l.mantissa.unscaled * 10 ^ (l.exponent.elim 0 counted - l.mantissa.fraction.length)

lemma signed_ofDecimal (f : Format) (negative : Bool) (n : ℕ) (e : ℤ) :
    signed negative (ofDecimal f false n e) = ofDecimal f negative n e := by
  cases negative with
  | false => rfl
  | true =>
    unfold ofDecimal ofRatio
    split_ifs <;> rfl

lemma isInfinite_ofDecimal (f : Format) (negative : Bool) (n : ℕ) (e : ℤ) :
    (ofDecimal f false n e).isInfinite = (ofDecimal f negative n e).isInfinite := by
  unfold ofDecimal ofRatio
  split_ifs <;> rfl

variable (f : Format)

section

variable (l : Literal) {e : Exponent} (he : l.exponent = some e) (hd : l.mantissa.hasDigit = true)
  {u v : Bytes} (hu : allBlank u = true) (hv : allBlank v = true)

include he hd hu hv

lemma read_exponent :
    read f (u ++ l.text ++ v) =
      ⟨ofDecimal f l.negative l.mantissa.unscaled (counted e - l.mantissa.fraction.length),
        if (ofDecimal f l.negative l.mantissa.unscaled
          (counted e - l.mantissa.fraction.length)).isInfinite then .overflow else .success⟩ := by
  have hx := magnitude?_scientific f l.wellFormed hd e hv
  rw [scientific, scanExponent_text e hv, ← counted] at hx
  have htext : l.exponentText = e.text := by rw [Literal.exponentText, he, Option.elim_some]
  rw [read_padded f l hu (by rw [htext, hx]), signed_ofDecimal, isInfinite_ofDecimal f l.negative]

lemma rounds_counted : Rounds f l.negative (countedMagnitude l) (read f (u ++ l.text ++ v)) := by
  rw [read_exponent f l he hd hu hv, countedMagnitude, he, Option.elim_some]
  exact rounds_ofDecimal f l.negative _ _

lemma rounds_magnitude_iff :
    Rounds f l.negative l.magnitude (read f (u ++ l.text ++ v)) ↔
      e.value.natAbs < 10 * Scientific.exponentBound ∨ l.mantissa.unscaled = 0 ∨
      f.overflowThreshold ≤ countedMagnitude l ∧ f.overflowThreshold ≤ l.magnitude ∨
      countedMagnitude l ≤ f.underflowThreshold ∧ l.magnitude ≤ f.underflowThreshold := by
  have hrounds := rounds_counted f l he hd hu hv
  have hscale : -l.scale = e.value - l.mantissa.fraction.length := by
    rw [Literal.scale, Literal.exponentValue, he, Option.elim_some, Mantissa.scale, neg_sub]
  rw [countedMagnitude, he, Option.elim_some] at hrounds ⊢
  rw [Literal.magnitude, hscale, hrounds.zpow_iff, sub_left_inj, counted_eq_value_iff]

end

/-- The number that is rounded, straight to the format, is the number written wherever the exponent
is counted in full; elsewhere the two still round alike just where both are zero, both out of range
or both too small. -/
theorem read_scientific (l : Literal) {e : Exponent} (he : l.exponent = some e)
    (hd : l.mantissa.hasDigit = true) {u v : Bytes} (hu : allBlank u = true) (hv : allBlank v = true) :
    Rounds f l.negative (countedMagnitude l) (read f (u ++ l.text ++ v)) ∧
      (Rounds f l.negative l.magnitude (read f (u ++ l.text ++ v)) ↔
        e.value.natAbs < 10 * Scientific.exponentBound ∨ l.mantissa.unscaled = 0 ∨
        f.overflowThreshold ≤ countedMagnitude l ∧ f.overflowThreshold ≤ l.magnitude ∨
        countedMagnitude l ≤ f.underflowThreshold ∧ l.magnitude ≤ f.underflowThreshold) :=
  ⟨rounds_counted f l he hd hu hv, rounds_magnitude_iff f l he hd hu hv⟩

def farExponent : Exponent := ⟨false, none, [6, 5, 5, 3, 6, 0], by decide, by decide⟩

def farPower : Literal where
  sign := some .minus
  mantissa := ⟨[1], [], false⟩
  exponent := some farExponent
  wellFormed := by decide
  present := rfl

lemma counted_farExponent : counted farExponent = 65536 := by decide

lemma value_farExponent : farExponent.value = 655360 := by decide

lemma overflowThreshold_single_le : Format.single.overflowThreshold ≤ (10 : ℚ) ^ 39 := by
  norm_num [Format.overflowThreshold, Format.precision, Format.maxExponent]

theorem read_scientific_farPower :
    farPower.exponent = some farExponent ∧ farPower.mantissa.hasDigit = true ∧
      allBlank [32, 9] = true ∧ allBlank [10] = true ∧
      Rounds .single true (10 ^ (65536 : ℤ)) (read .single ([32, 9] ++ farPower.text ++ [10])) ∧
      Rounds .single true (10 ^ (655360 : ℤ)) (read .single ([32, 9] ++ farPower.text ++ [10])) := by
  have hu : allBlank [32, 9] = true := by decide
  have hv : allBlank [10] = true := by decide
  obtain ⟨hread, hiff⟩ := read_scientific .single farPower (e := farExponent) rfl rfl hu hv
  have hone : farPower.mantissa.unscaled = 1 := rfl
  have hcounted : countedMagnitude farPower = 10 ^ (65536 : ℤ) := by
    change (farPower.mantissa.unscaled : ℚ) * 10 ^ (counted farExponent - (0 : ℕ)) = _
    rw [hone, counted_farExponent, Nat.cast_one, one_mul, Nat.cast_zero, sub_zero]
  have hwritten : farPower.magnitude = 10 ^ (655360 : ℤ) := by
    change (farPower.mantissa.unscaled : ℚ) * 10 ^ (-(((0 : ℕ) : ℤ) - farExponent.value)) = _
    rw [hone, value_farExponent, Nat.cast_one, one_mul, Nat.cast_zero, zero_sub, neg_neg]
  rw [hcounted] at hread hiff
  rw [hwritten] at hiff
  have hover : ∀ k : ℤ, 39 ≤ k → Format.single.overflowThreshold ≤ (10 : ℚ) ^ k := fun k hk =>
    overflowThreshold_single_le.trans (zpow_le_zpow_right₀ (by norm_num) hk)
  exact ⟨rfl, rfl, hu, hv, hread,
    hiff.mpr (Or.inr (Or.inr (Or.inl ⟨hover _ (by norm_num), hover _ (by norm_num)⟩)))⟩

def deepOne (k : ℕ) : Mantissa := ⟨[0], List.replicate k 0 ++ [1], true⟩

lemma wellFormed_deepOne (k : ℕ) : (deepOne k).WellFormed := by
  refine ⟨fun d hd => ?_, fun h => by cases h⟩
  simp only [deepOne, Mantissa.digits, List.mem_append, List.mem_singleton, List.mem_replicate] at hd
  omega

lemma unscaled_deepOne (k : ℕ) : (deepOne k).unscaled = 1 := by
  rw [Mantissa.unscaled, Mantissa.digits, deepOne, List.singleton_append, ofDigits_cons, Nat.zero_mul,
    Nat.zero_add, ofDigits_replicate_zero_append]
  rfl

lemma length_fraction_deepOne (k : ℕ) : (deepOne k).fraction.length = k + 1 := by
  rw [deepOne, List.length_append, List.length_replicate, List.length_singleton]

def deepLiteral : Literal where
  sign := none
  mantissa := deepOne 65535
  exponent := some farExponent
  wellFormed := wellFormed_deepOne 65535
  present := rfl

theorem not_read_rounds :
    ¬∀ (l : Literal) (e : Exponent), l.exponent = some e → l.mantissa.hasDigit = true →
      Rounds .double l.negative l.magnitude (read .double l.text) := by
  intro hall
  have hread := hall deepLiteral farExponent rfl rfl
  have hiff := rounds_magnitude_iff .double deepLiteral (e := farExponent) rfl rfl (u := []) (v := []) rfl rfl
  have hone : deepLiteral.mantissa.unscaled = 1 := unscaled_deepOne 65535
  have hlength : deepLiteral.mantissa.fraction.length = 65535 + 1 := length_fraction_deepOne 65535
  have hcounted : countedMagnitude deepLiteral = 1 := by
    have hexponent : deepLiteral.exponent.elim 0 counted = 65536 := counted_farExponent
    rw [countedMagnitude, hone, hlength, hexponent]
    norm_num
  rw [List.nil_append, List.append_nil, hcounted, hone, value_farExponent] at hiff
  rcases hiff.mp hread with hvalue | hzero | ⟨hover, -⟩ | ⟨hunder, -⟩
  · exact absurd hvalue (by decide)
  · exact absurd hzero (by decide)
  · exact absurd hover (not_le.mpr Format.double.one_lt_overflowThreshold)
  · exact absurd hunder (not_le.mpr Format.double.underflowThreshold_lt_one)

end SqlCast.Floating
