import SqlCast.Proofs.Floating.Order
import SqlCast.Proofs.Text.Magnitude

/-! Plain literals that are read as zero: besides zero itself, those so small that the power of ten
under the digits taken from their fraction is infinite. -/

namespace SqlCast

namespace Binary

lemma isZero_ofNat_zero (f : Format) : (ofNat f 0).isZero = true := by
  obtain ⟨z, hq, hz⟩ := zero_eq f
  simp [ofNat_zero, hz, isZero, hq]

lemma Approx.isZero_eq_false {f : Format} {k : ℕ} {x : Binary f} {y : ℚ} (h : Approx f k x y)
    (hy : 0 < y) : x.isZero = false := by
  cases h with
  | ofInfinity => rfl
  | @ofFinite v _ h =>
    apply beq_false_of_ne
    intro hq
    have hle := h.2
    simp only [Finite.toRat, hq, Nat.cast_zero, zero_div, zero_mul] at hle
    exact hle.not_gt hy

end Binary

namespace Floating

open Text Binary

lemma isZero_signed {f : Format} (negative : Bool) (x : Binary f) :
    (signed negative x).isZero = x.isZero := by
  cases negative with
  | false => rfl
  | true => cases x <;> rfl

namespace Plain

variable {m : Mantissa}

def Vanishing (m : Mantissa) : Prop := m.magnitude = 0 ∨ 308 < (kept m).fraction.length

lemma length_kept (m : Mantissa) :
    (kept m).fraction.length =
      min ((m.digits.takeWhile (· == 0)).length + maxSignificant - m.whole.length) m.fraction.length :=
  List.length_take

lemma isZero_value_iff (hm : m.WellFormed) : (value .double m).isZero = true ↔ Vanishing m := by
  constructor
  · intro hzero
    by_contra hne
    obtain ⟨hne, hshort⟩ := not_or.mp hne
    have hpos : 0 < m.magnitude := lt_of_le_of_ne m.magnitude_nonneg (Ne.symm hne)
    have happrox := approx_value hm (not_lt.mp hshort)
    rw [happrox.isZero_eq_false hpos] at hzero
    cases hzero
  · intro h
    have hvalue : value .double m = .ofNat .double 0 :=
      h.elim (value_of_magnitude_eq_zero hm) (value_of_lt_length hm)
    rw [hvalue]
    exact isZero_ofNat_zero _

lemma lt_length_kept_iff {l : Literal} (he : l.exponent = none) :
    308 < (kept l.mantissa).fraction.length ↔
      l.magnitude < 1 / 10 ^ 291 ∧ 308 < l.mantissa.fraction.length := by
  have hzeros := length_zeros_add l.mantissa.digits
  have hdigits : l.mantissa.digits.length = l.mantissa.whole.length + l.mantissa.fraction.length :=
    List.length_append
  have hsignificant :
      l.mantissa.significant.length = (l.mantissa.digits.dropWhile (· == 0)).length := rfl
  have hmax : maxSignificant = 18 := rfl
  have hscale := l.scale_of_plain he
  rw [length_kept, lt_min_iff]
  apply and_congr_left
  intro hlong
  rw [lt_div_iff₀ (by positivity), l.magnitude_mul_lt_one_iff (by omega), hscale]
  omega

end Plain

section

variable {l : Literal} (he : l.exponent = none)

include he

lemma isZero_read_iff :
    (read .double l.text).value.isZero = true ↔
      l.magnitude = 0 ∨ l.magnitude < 1 / 10 ^ 291 ∧ 308 < l.mantissa.fraction.length := by
  rw [read_plain .double he, isZero_signed, Plain.isZero_value_iff l.wellFormed, Plain.Vanishing,
    Plain.lt_length_kept_iff he, l.magnitude_of_plain he, Mantissa.magnitude]

/-- A plain literal in the normal range is not read as zero, unless it is below `10 ^ -291` and has more
than 308 fraction digits. -/
theorem read_normal_ne_zero_iff (hl : l.text.length < 2 ^ 32) (hx : 1 / 2 ^ 1022 ≤ l.magnitude) :
    Checked.read .double l.text = .ok (read .double l.text) ∧
      ((read .double l.text).value.isZero = false ↔
        1 / 10 ^ 291 ≤ l.magnitude ∨ l.mantissa.fraction.length ≤ 308) := by
  refine ⟨Checked.read_eq .double hl, ?_⟩
  have hpos : 0 < l.magnitude := lt_of_lt_of_le (by positivity) hx
  rw [← not_iff_not, Bool.not_eq_false, isZero_read_iff he, or_iff_right hpos.ne', not_or, not_le, not_le]

end

def firstKept : Literal where
  sign := some .minus
  mantissa := ⟨[0], List.replicate 290 0 ++ 1 :: List.replicate 30 0, true⟩
  exponent := none
  wellFormed := by decide +kernel
  present := rfl

theorem read_normal_ne_zero_firstKept :
    firstKept.exponent = none ∧ firstKept.text.length < 2 ^ 32 ∧ 1 / 2 ^ 1022 ≤ firstKept.magnitude ∧
      (read .double firstKept.text).value.isZero = false := by
  have hl : firstKept.text.length < 2 ^ 32 := by decide +kernel
  have hx : 1 / 2 ^ 1022 ≤ firstKept.magnitude := by decide +kernel
  have hlow : 1 / 10 ^ 291 ≤ firstKept.magnitude := by decide +kernel
  obtain ⟨-, hiff⟩ := read_normal_ne_zero_iff (l := firstKept) rfl hl hx
  exact ⟨rfl, hl, hx, hiff.mpr (Or.inl hlow)⟩

def paddedThree : Literal where
  sign := none
  mantissa := ⟨[0], List.replicate 307 0 ++ [3, 0], true⟩
  exponent := none
  wellFormed := by decide +kernel
  present := rfl

theorem not_read_normal_ne_zero :
    ¬∀ l : Literal, l.exponent = none → 1 / 2 ^ 1022 ≤ l.magnitude →
      (read .double l.text).value.isZero = false := by
  intro hall
  have hx : 1 / 2 ^ 1022 ≤ paddedThree.magnitude := by decide +kernel
  have hsmall : paddedThree.magnitude < 1 / 10 ^ 291 := by decide +kernel
  have hzero := (isZero_read_iff (l := paddedThree) rfl).mpr (Or.inr ⟨hsmall, by decide +kernel⟩)
  rw [hall paddedThree rfl hx] at hzero
  cases hzero

end Floating

end SqlCast
