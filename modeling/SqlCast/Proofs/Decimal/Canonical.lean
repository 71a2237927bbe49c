import SqlCast.Proofs.Decimal.Rendering

namespace SqlCast

namespace Text

namespace Literal

/-- No exponent and no plus, at least one whole digit without a zero to spare in front, exactly `scale`
digits after the dot, and a dot only where such digits follow. -/
structure Canonical (scale : ℕ) (l : Literal) : Prop where
  exponent_eq_none : l.exponent = none
  sign_ne_plus : l.sign ≠ some .plus
  whole_ne_nil : l.mantissa.whole ≠ []
  whole_eq_zero : l.mantissa.whole.head? = some 0 → l.mantissa.whole = [0]
  length_fraction : l.mantissa.fraction.length = scale
  dotted_iff : l.mantissa.dotted = true ↔ 0 < scale

lemma value_eq_of_text_eq {l l' : Literal} (h : l.exponent = none) (ht : l'.text = l.text) :
    l'.value = l.value := by
  obtain ⟨hneg, hm, he⟩ := eq_of_text_eq h ht
  rw [value, value, magnitude, magnitude, l.scale_of_plain h, l'.scale_of_plain he, hneg, hm]

namespace Canonical

variable {scale : ℕ} {l l' : Literal}

lemma unscaled_div_mod (h : l.Canonical scale) :
    l.mantissa.unscaled / 10 ^ scale = l.mantissa.wholeValue ∧
      l.mantissa.unscaled % 10 ^ scale = ofDigits 10 l.mantissa.fraction := by
  have hlt := ofDigits_lt (by norm_num) l.wellFormed.fraction_lt
  have hsplit := l.mantissa.unscaled_eq
  rw [h.length_fraction] at hlt hsplit
  exact (Nat.div_mod_unique (by positivity)).mpr ⟨by rw [hsplit]; ring, hlt⟩

lemma whole_eq (h : l.Canonical scale) :
    l.mantissa.whole = digitsOf 10 (l.mantissa.unscaled / 10 ^ scale) := by
  rw [h.unscaled_div_mod.1]
  exact (digitsOf_ofDigits (by norm_num) l.wellFormed.whole_lt h.whole_ne_nil h.whole_eq_zero).symm

lemma mantissa_eq (h : l.Canonical scale) (h' : l'.Canonical scale)
    (hu : l.mantissa.unscaled = l'.mantissa.unscaled) : l.mantissa = l'.mantissa := by
  have hwhole : l.mantissa.whole = l'.mantissa.whole := by rw [h.whole_eq, h'.whole_eq, hu]
  have hfraction : l.mantissa.fraction = l'.mantissa.fraction := by
    apply (ofDigits_inj (by norm_num) l.wellFormed.fraction_lt l'.wellFormed.fraction_lt
      (h.length_fraction.trans h'.length_fraction.symm)).mp
    rw [← h.unscaled_div_mod.2, ← h'.unscaled_div_mod.2, hu]
  have hdotted : l.mantissa.dotted = l'.mantissa.dotted :=
    Bool.eq_iff_iff.mpr (h.dotted_iff.trans h'.dotted_iff.symm)
  cases hm : l.mantissa
  cases hm' : l'.mantissa
  simp_all

lemma sign_eq (h : l.Canonical scale) :
    l.sign = if l.negative then some .minus else none := by
  rw [negative]
  rcases hs : l.sign with _ | _ | _
  · rfl
  · exact absurd hs h.sign_ne_plus
  · rfl

lemma magnitude_eq (h : l.Canonical scale) : l.magnitude = l.mantissa.unscaled / 10 ^ scale := by
  apply l.magnitude_of_scale
  rw [l.scale_of_plain h.exponent_eq_none, h.length_fraction]

lemma text_eq (h : l.Canonical scale) (h' : l'.Canonical scale) (hneg : l.negative = l'.negative)
    (hv : l.value = l'.value) : l.text = l'.text := by
  have hmagnitude : l.magnitude = l'.magnitude := by
    rw [value, value, hneg] at hv
    split_ifs at hv
    · exact neg_inj.mp hv
    · exact hv
  have hunscaled : l.mantissa.unscaled = l'.mantissa.unscaled := by
    rw [h.magnitude_eq, h'.magnitude_eq, div_left_inj' (by positivity)] at hmagnitude
    exact_mod_cast hmagnitude
  rw [text, text, h.sign_eq, h'.sign_eq, hneg, h.mantissa_eq h' hunscaled,
    l.exponentText_eq_nil_iff.mpr h.exponent_eq_none, l'.exponentText_eq_nil_iff.mpr h'.exponent_eq_none]

end Canonical

end Literal

def Denotes (s : Bytes) (q : ℚ) : Prop := ∃ l : Literal, l.text = s ∧ l.value = q

lemma Literal.denotes_text_iff {l : Literal} (h : l.exponent = none) {q : ℚ} :
    Denotes l.text q ↔ q = l.value := by
  constructor
  · rintro ⟨l', ht, rfl⟩
    exact Literal.value_eq_of_text_eq h ht
  · rintro rfl
    exact ⟨l, rfl, rfl⟩

def Below (s t : Bytes) : Prop := ∃ q r : ℚ, Denotes s q ∧ Denotes t r ∧ q < r

end Text

namespace Decimal

open Text

variable (scale : ℕ) (x y : Decimal)

lemma paddedDigits_cases (n : ℕ) :
    (paddedDigits scale n).length = scale + 1 ∨
      paddedDigits scale n = digitsOf 10 n ∧ scale + 1 < (digitsOf 10 n).length := by
  rw [paddedDigits, List.length_append, List.length_replicate]
  by_cases hlen : (digitsOf 10 n).length ≤ scale + 1
  · left
    omega
  · right
    rw [Nat.sub_eq_zero_of_le (by omega)]
    exact ⟨rfl, by omega⟩

lemma whole_paddedMantissa_eq_zero {n : ℕ} (h : (paddedMantissa scale n).whole.head? = some 0) :
    (paddedMantissa scale n).whole = [0] := by
  rcases paddedDigits_cases scale n with hlen | ⟨hds, hlen⟩
  · have hone : (paddedMantissa scale n).whole.length = 1 := by simp [paddedMantissa, hlen]
    obtain ⟨d, hd⟩ := List.length_eq_one_iff.mp hone
    rw [hd] at h ⊢
    simpa using h
  · have hn : n ≠ 0 := by
      rintro rfl
      simp [digitsOf_of_lt] at hlen
    have hhead : (digitsOf 10 n).head? = some 0 := by
      rw [← hds, ← h, paddedMantissa, List.head?_take, if_neg]
      rw [hds]
      omega
    exact absurd rfl (head_digitsOf_ne_zero hn 0 hhead)

lemma canonical_literal : (literal scale x).Canonical scale where
  exponent_eq_none := rfl
  sign_ne_plus := by
    rw [literal]
    split_ifs <;> simp
  whole_ne_nil := by
    have hlt := lt_length_paddedDigits scale x.unscaled.natAbs
    rw [← List.length_pos_iff]
    simp only [literal, paddedMantissa, List.length_take]
    omega
  whole_eq_zero := whole_paddedMantissa_eq_zero scale
  length_fraction := length_fraction_paddedMantissa scale _
  dotted_iff := by simp [literal, paddedMantissa, Nat.pos_iff_ne_zero]

lemma value_literal : (literal scale x).value = x.unscaled / 10 ^ scale := by
  have hm : (literal scale x).magnitude = x.unscaled.natAbs / 10 ^ scale := by
    rw [(literal scale x).magnitude_of_scale (scale_literal scale x), literal, unscaled_paddedMantissa]
  rw [Literal.value, hm, negative_literal]
  by_cases hn : x.unscaled < 0
  · rw [if_pos (decide_eq_true hn), ← neg_div, ← Int.cast_natCast, ← Int.cast_neg,
      Int.ofNat_natAbs_of_nonpos hn.le, neg_neg]
  · rw [if_neg (by simpa using hn), ← Int.cast_natCast, Int.natAbs_of_nonneg (not_lt.mp hn)]

lemma render_denotes_iff (q : ℚ) : Denotes (x.render scale) q ↔ q = x.unscaled / 10 ^ scale := by
  rw [render_eq_text, Literal.denotes_text_iff rfl, value_literal]

lemma render_eq_iff_canonical (s : Bytes) :
    x.render scale = s ↔ ∃ l : Literal, l.text = s ∧ l.Canonical scale ∧
      (l.negative = true ↔ x.unscaled < 0) ∧ l.value = x.unscaled / 10 ^ scale := by
  have hcanonical := canonical_literal scale x
  rw [render_eq_text]
  constructor
  · intro hs
    exact ⟨literal scale x, hs, hcanonical, by simp [negative_literal], value_literal scale x⟩
  · rintro ⟨l, rfl, hl, hneg, hv⟩
    apply hcanonical.text_eq hl
    · rw [negative_literal, Bool.eq_iff_iff, hneg, decide_eq_true_iff]
    · rw [value_literal, hv]

lemma render_inj : x.render scale = y.render scale ↔ x = y := by
  constructor
  · intro h
    have hx := (render_denotes_iff scale x _).mpr rfl
    rw [h, render_denotes_iff, div_left_inj' (by positivity)] at hx
    obtain ⟨n⟩ := x
    exact congrArg Decimal.mk (by exact_mod_cast hx)
  · rintro rfl
    rfl

lemma render_below_iff : Below (x.render scale) (y.render scale) ↔ compare x y = .lt := by
  have hcompare : compare x y = .lt ↔ x.unscaled < y.unscaled := by
    change compare x.unscaled y.unscaled = .lt ↔ _
    exact compare_lt_iff_lt
  have hlt : (x.unscaled / 10 ^ scale : ℚ) < y.unscaled / 10 ^ scale ↔ x.unscaled < y.unscaled := by
    rw [div_lt_div_iff_of_pos_right (by positivity), Int.cast_lt]
  rw [hcompare, ← hlt]
  simp [Below, render_denotes_iff]

theorem render_canonical :
    (∀ s : Bytes, x.render scale = s ↔ ∃ l : Literal, l.text = s ∧ l.Canonical scale ∧
        (l.negative = true ↔ x.unscaled < 0) ∧ l.value = x.unscaled / 10 ^ scale) ∧
      (∀ q : ℚ, Denotes (x.render scale) q ↔ q = x.unscaled / 10 ^ scale) ∧
      (x.render scale = y.render scale ↔ x = y) ∧
      (Below (x.render scale) (y.render scale) ↔ compare x y = .lt) :=
  ⟨render_eq_iff_canonical scale x, render_denotes_iff scale x, render_inj scale x y,
    render_below_iff scale x y⟩

example : render 2 ⟨-5⟩ = [45, 48, 46, 48, 53] := by cbv

end Decimal

end SqlCast
