import SqlCast.Proofs.Decimal.Exponent
import SqlCast.Proofs.Decimal.Fitting
import SqlCast.Proofs.Decimal.Magnitude

/-! What a decimal literal is read as: the exact value of the rational number it denotes, and the
status that its size and its fraction digits call for. -/

namespace SqlCast.Decimal

open Text

section Signed

variable (negative : Bool)

lemma signed_zero : signed negative 0 = ⟨0⟩ := by
  cases negative <;> rfl

lemma natAbs_signed (n : ℕ) : (signed negative n).unscaled.natAbs = n := by
  cases negative with
  | true => exact (Int.natAbs_neg _).trans (Int.natAbs_natCast n)
  | false => exact Int.natAbs_natCast n

lemma signed_mul_nonneg (m n : ℕ) :
    0 ≤ (signed negative m).unscaled * (signed negative n).unscaled := by
  cases negative with
  | true =>
    change (0 : ℤ) ≤ -(m : ℤ) * -(n : ℤ)
    rw [neg_mul_neg]
    positivity
  | false =>
    change (0 : ℤ) ≤ (m : ℤ) * n
    positivity

lemma signed_mul (n k : ℕ) :
    signed negative (n * k) = ⟨(signed negative n).unscaled * k⟩ := by
  cases negative with
  | true => exact congrArg Decimal.mk (by push_cast; exact (neg_mul _ _).symm)
  | false => exact congrArg Decimal.mk (by push_cast; rfl)

end Signed

structure Storage.Admits (t : Storage) (precision scale : ℕ) : Prop where
  precision_pos : 1 ≤ precision
  precision_le : precision ≤ t.maxPrecision
  scale_le : scale ≤ precision

instance (t : Storage) (precision scale : ℕ) : Decidable (t.Admits precision scale) :=
  decidable_of_iff (1 ≤ precision ∧ precision ≤ t.maxPrecision ∧ scale ≤ precision)
    ⟨fun ⟨hpos, hp, hs⟩ => ⟨hpos, hp, hs⟩, fun ⟨hpos, hp, hs⟩ => ⟨hpos, hp, hs⟩⟩

namespace Storage

variable {t : Storage} {precision scale : ℕ}

lemma maxPrecision_le (t : Storage) : t.maxPrecision ≤ word128.maxPrecision := by
  cases t <;> decide

def Admits.type (h : t.Admits precision scale) : DecimalType where
  precision := precision
  scale := scale
  precision_pos := h.precision_pos
  precision_le := h.precision_le.trans t.maxPrecision_le
  scale_le := h.scale_le

lemma Admits.fits (h : t.Admits precision scale) : h.type.fits t = true :=
  decide_eq_true h.precision_le

lemma Admits.read_eq (h : t.Admits precision scale) (r : Rounding) (s : Bytes) :
    Decimal.read t precision scale r s = readFitting t h.type r s := by
  have hof : DecimalType.of precision scale = .ok h.type :=
    dif_pos ⟨h.precision_pos, h.type.precision_le, h.scale_le⟩
  rw [Decimal.read, hof]
  exact if_pos h.fits

end Storage

variable {t : Storage} {precision scale : ℕ}

lemma read_of_not_admits (h : ¬t.Admits precision scale) (r : Rounding) (s : Bytes) :
    Decimal.read t precision scale r s = ⟨⟨0⟩, .failure⟩ := by
  rw [Decimal.read, DecimalType.of]
  split_ifs with hty
  · obtain ⟨hpos, -, hs⟩ := hty
    have hfits : ¬precision ≤ t.maxPrecision := fun hp => h ⟨hpos, hp, hs⟩
    exact if_neg (by simpa [DecimalType.fits] using hfits)
  · rfl

lemma read_cases (s : Bytes) :
    (∃ status : Status, status ≠ .success ∧
      ∀ {t : Storage} {precision scale : ℕ}, t.Admits precision scale → ∀ r : Rounding,
        Decimal.read t precision scale r s = ⟨⟨0⟩, status⟩) ∨
    ∃ (negative : Bool) (m : Mantissa) (exponent : ℤ), m.WellFormed ∧
      ∀ {t : Storage} {precision scale : ℕ} (h : t.Admits precision scale) (r : Rounding),
        Decimal.read t precision scale r s =
          ⟨signed negative (fit t h.type r m exponent).value,
            (fit t h.type r m exponent).status⟩ := by
  let body := (splitSign (trim s)).2
  let e := readExponent (Mantissa.scan body).2
  by_cases he : e.status = .success
  · refine Or.inr ⟨(splitSign (trim s)).1, (Mantissa.scan body).1, e.value,
      Mantissa.wellFormed_scan body, fun h r => ?_⟩
    rw [h.read_eq]
    exact if_pos he
  · refine Or.inl ⟨exponentStatus e, ?_, fun h r => ?_⟩
    · rw [exponentStatus]
      split_ifs
      · simp
      · exact he
    · rw [h.read_eq]
      exact if_neg he

lemma natAbs_read_lt {r : Rounding} {s : Bytes}
    (hs : (Decimal.read t precision scale r s).status = .success ∨
      (Decimal.read t precision scale r s).status = .underflow) :
    (Decimal.read t precision scale r s).value.unscaled.natAbs < 10 ^ precision := by
  by_cases h : t.Admits precision scale
  · rcases read_cases s with ⟨status, -, hread⟩ | ⟨negative, m, exponent, hm, hread⟩
    · rw [hread h]
      exact (by positivity : 0 < 10 ^ precision)
    · rw [hread h] at hs ⊢
      rw [natAbs_signed]
      exact fit_value_lt r h.fits hm hs
  · rw [read_of_not_admits h]
    exact (by positivity : 0 < 10 ^ precision)

lemma read_literal (h : t.Admits precision scale) (r : Rounding) (l : Literal)
    (he : l.ExponentFits) {u v : Bytes} (hu : allBlank u = true) (hv : allBlank v = true) :
    Decimal.read t precision scale r (u ++ l.text ++ v) =
      ⟨signed l.negative (fit t h.type r l.mantissa l.exponentValue).value,
        (fit t h.type r l.mantissa l.exponentValue).status⟩ := by
  rw [h.read_eq, readFitting, l.trim_text hu hv, l.splitSign_text]
  simp only [l.scan_mantissa, l.readExponent_exponentText he, if_true]

section Fit

variable (h : t.Admits precision scale) (r : Rounding) (l : Literal)

lemma fit_status_of_wide
    (hw : (precision : ℤ) - scale < l.mantissa.significant.length - l.scale) :
    (fit t h.type r l.mantissa l.exponentValue).status = .overflow := by
  rw [fit_of_wide r hw]

lemma fit_of_not_wide (hw : l.mantissa.significant.length - l.scale ≤ precision - scale) :
    fit t h.type r l.mantissa l.exponentValue =
      ⟨r.round (l.magnitude * 10 ^ scale),
        if l.scale ≤ scale then .success
        else if r.round (l.magnitude * 10 ^ scale) = 10 ^ precision then .overflow
        else .underflow⟩ := by
  by_cases hs : l.scale ≤ scale
  · rw [if_pos hs, l.round_of_room r hs]
    exact fit_of_room r h.fits l.wellFormed l.present hw hs
  · rw [if_neg hs, l.round_of_excess r (not_le.mp hs)]
    exact fit_of_excess r h.fits l.wellFormed hw (not_le.mp hs)

include h in
lemma wide_iff_pow_le (hn : l.mantissa.unscaled ≠ 0) :
    (precision : ℤ) - scale < l.mantissa.significant.length - l.scale ↔
      (10 : ℚ) ^ (precision - scale) ≤ l.magnitude := by
  rw [l.pow_le_magnitude_iff hn, Nat.cast_sub h.scale_le]

include h in
lemma pow_le_mul_pow_iff (x : ℚ) :
    (10 : ℚ) ^ (precision - scale) ≤ x ↔ (10 : ℚ) ^ precision ≤ x * 10 ^ scale := by
  rw [← mul_le_mul_iff_left₀ (by positivity : (0 : ℚ) < 10 ^ scale), ← pow_add,
    Nat.sub_add_cancel h.scale_le]

end Fit

theorem read_value_eq_round (h : t.Admits precision scale) (r : Rounding) (l : Literal)
    (he : l.ExponentFits) {u v : Bytes} (hu : allBlank u = true) (hv : allBlank v = true)
    (hs : (Decimal.read t precision scale r (u ++ l.text ++ v)).status = .success ∨
      (Decimal.read t precision scale r (u ++ l.text ++ v)).status = .underflow) :
    (Decimal.read t precision scale r (u ++ l.text ++ v)).value.unscaled =
      if l.negative then -(r.round (l.magnitude * 10 ^ scale) : ℤ)
      else r.round (l.magnitude * 10 ^ scale) := by
  rw [read_literal h r l he hu hv] at hs ⊢
  by_cases hw : (precision : ℤ) - scale < l.mantissa.significant.length - l.scale
  · rw [fit_status_of_wide h r l hw] at hs
    simp at hs
  · rw [fit_of_not_wide h r l (not_lt.mp hw), signed]

def longFraction : Literal where
  sign := some .minus
  mantissa := ⟨[0, 1, 2, 3], [4, 5, 6, 7], true⟩
  exponent := some ⟨false, none, [1], by decide, by decide⟩
  wellFormed := by decide
  present := rfl

theorem read_value_longFraction :
    (Decimal.read .word32 6 2 .halfUp ([32] ++ longFraction.text ++ [9])).status = .underflow ∧
      (Decimal.read .word32 6 2 .halfUp ([32] ++ longFraction.text ++ [9])).value.unscaled =
        -(Rounding.halfUp.round (longFraction.magnitude * 10 ^ 2) : ℤ) :=
  ⟨by decide, read_value_eq_round (by decide) .halfUp longFraction (by decide) rfl rfl
    (Or.inr (by decide))⟩

def Overflows (precision scale : ℕ) (r : Rounding) (l : Literal) : Prop :=
  (10 : ℚ) ^ (precision - scale) ≤ l.magnitude ∨
    r = .halfUp ∧ scale < l.scale ∧ r.round (l.magnitude * 10 ^ scale) = 10 ^ precision

instance (precision scale : ℕ) (r : Rounding) (l : Literal) :
    Decidable (Overflows precision scale r l) :=
  inferInstanceAs (Decidable (_ ∨ _))

lemma truncate_round_lt {x : ℚ} (hx : 0 ≤ x) {p : ℕ} (hp : x < 10 ^ p) :
    Rounding.truncate.round x < 10 ^ p := by
  rw [Rounding.round, Nat.floor_lt hx]
  exact_mod_cast hp

lemma overflows_iff_of_excess (h : t.Admits precision scale) {r : Rounding} {l : Literal}
    (hw : ¬(10 : ℚ) ^ (precision - scale) ≤ l.magnitude) (hs : scale < l.scale) :
    Overflows precision scale r l ↔ r.round (l.magnitude * 10 ^ scale) = 10 ^ precision := by
  constructor
  · rintro (hl | ⟨-, -, hr⟩)
    · exact absurd hl hw
    · exact hr
  · intro hr
    refine Or.inr ⟨?_, hs, hr⟩
    cases r with
    | halfUp => rfl
    | truncate =>
      rw [pow_le_mul_pow_iff h, not_le] at hw
      have hx : 0 ≤ l.magnitude * 10 ^ scale := mul_nonneg l.magnitude_nonneg (by positivity)
      exact absurd hr (truncate_round_lt hx hw).ne

lemma fit_status (h : t.Admits precision scale) (r : Rounding) (l : Literal)
    (hn : l.mantissa.unscaled ≠ 0) :
    (fit t h.type r l.mantissa l.exponentValue).status =
      if Overflows precision scale r l then .overflow
      else if scale < l.scale then .underflow
      else .success := by
  have hiff := wide_iff_pow_le h l hn
  by_cases hw : (precision : ℤ) - scale < l.mantissa.significant.length - l.scale
  · have ho : Overflows precision scale r l := Or.inl (hiff.mp hw)
    rw [fit_status_of_wide h r l hw, if_pos ho]
  · rw [fit_of_not_wide h r l (not_lt.mp hw)]
    rw [hiff] at hw
    by_cases hs : scale < l.scale
    · simp only [if_neg (not_le.mpr hs), if_pos hs, overflows_iff_of_excess h hw hs]
    · have hno : ¬Overflows precision scale r l := by
        rintro (hl | ⟨-, hl, -⟩)
        · exact hw hl
        · exact hs hl
      rw [if_pos (not_lt.mp hs), if_neg hno, if_neg hs]

theorem read_status_of_nonzero (h : t.Admits precision scale) (r : Rounding) (l : Literal)
    (he : l.ExponentFits) (hn : ∃ d ∈ l.mantissa.digits, d ≠ 0) {u v : Bytes}
    (hu : allBlank u = true) (hv : allBlank v = true) :
    (Decimal.read t precision scale r (u ++ l.text ++ v)).status =
      if Overflows precision scale r l then .overflow
      else if scale < l.scale then .underflow
      else .success := by
  rw [read_literal h r l he hu hv]
  exact fit_status h r l ((Mantissa.unscaled_ne_zero_iff l.wellFormed).mpr hn)

theorem read_status_longFraction :
    (∃ d ∈ longFraction.mantissa.digits, d ≠ 0) ∧
      (Decimal.read .word64 5 2 .truncate ([] ++ longFraction.text ++ [])).status =
        if Overflows 5 2 .truncate longFraction then .overflow
        else if 2 < longFraction.scale then .underflow
        else .success :=
  ⟨by decide, read_status_of_nonzero (by decide) .truncate longFraction (by decide) (by decide) rfl
    rfl⟩

end SqlCast.Decimal
