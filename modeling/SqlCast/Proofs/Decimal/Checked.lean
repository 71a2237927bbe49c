import SqlCast.Proofs.Decimal.Progress
import SqlCast.Proofs.Decimal.Reading
import SqlCast.Proofs.Text.Token

/-! The checked reader never faults: fitting the digits and the exponent of a text stays within the
word and the counters, and comes to what the reader without checks comes to. -/

namespace SqlCast.Decimal

open Text

namespace Checked

variable {t : Storage} {ty : DecimalType} {m : Mantissa} (r : Rounding)

structure Bounded (m : Mantissa) (exponent : ℤ) : Prop where
  wellFormed : m.WellFormed
  length_lt : m.digits.length < 2 ^ 31 - 256
  le_exponent : -128 ≤ exponent
  exponent_le : exponent ≤ 127

lemma scaleUp?_natCast (value shift : ℕ) :
    Checked.scaleUp? t value shift = (Decimal.scaleUp? t value shift).map Nat.cast := by
  rw [Checked.scaleUp?, Decimal.scaleUp?]
  cases t.powerOfTen? shift with
  | none => rfl
  | some p =>
    have hiff : t.contains ((value : ℤ) * p) = true ↔ (value : ℤ) * p ≤ t.max := by
      constructor
      · intro hc
        exact of_decide_eq_true ((Bool.and_eq_true _ _).mp hc).2
      · intro hle
        apply Storage.contains_of_natAbs_le
        rwa [← Nat.cast_mul, Int.natAbs_natCast, Nat.cast_mul]
    simp only [Option.bind_some, hiff]
    split <;> rfl

lemma scaleDown_natCast {value shift : ℕ} (hs : 0 < shift) (hv : (value : ℤ) ≤ t.max) :
    Checked.scaleDown t r value shift = .ok (Decimal.scaleDown t r value shift : ℤ) := by
  rw [Checked.scaleDown, Decimal.scaleDown, assert_eq (by omega), ok_bind,
    Storage.powerOfTen?_natCast]
  by_cases hshift : shift ≤ t.maxPrecision
  · obtain ⟨p, hp⟩ : ∃ p, p = 10 ^ shift := ⟨_, rfl⟩
    have hten : 10 ≤ p := hp ▸ Nat.le_self_pow hs.ne' 10
    have hdiv : value / p ≤ value / 10 := Nat.div_le_div_left hten (by norm_num)
    have hmod : value % p ≤ value := Nat.mod_le _ _
    have hquotient : word t ((value : ℤ).tdiv p) = .ok ((value / p : ℕ) : ℤ) :=
      word_natCast (by omega)
    have hremainder : word t ((value : ℤ).tmod p) = .ok ((value % p : ℕ) : ℤ) :=
      word_natCast (by omega)
    have hsize : word t (((value % p : ℕ) : ℤ).natAbs : ℤ) = .ok ((value % p : ℕ) : ℤ) :=
      word_natCast (by omega)
    simp only [if_pos hshift, ← hp, hquotient, hremainder, hsize, ok_bind, Nat.cast_le]
    split
    · rename_i hup
      have hhalf : 10 / 2 ≤ p / 2 := Nat.div_le_div_right hten
      have hrest : p / 2 ≤ value % p := hup.2
      have hpos : (0 : ℤ) < value := by omega
      have hcarry : ((value / p + 1 : ℕ) : ℤ) ≤ t.max := by omega
      rw [if_pos hpos]
      exact word_natCast hcarry
    · rfl
  · simp only [if_neg hshift]
    rfl

lemma fillsPrecision_natCast (n : ℕ) :
    fillsPrecision t ty n = true ↔ t.powerOfTen? ty.precision = some n := by
  rw [fillsPrecision]
  cases t.powerOfTen? ty.precision with
  | none => simp
  | some p => simp [eq_comm]

lemma negate_natCast (negative : Bool) {n : ℕ} (h : (n : ℤ) ≤ t.max) :
    negate t negative n = .ok (signed negative n).unscaled := by
  cases negative with
  | true =>
    apply word_eq
    rwa [Int.natAbs_neg, Int.natAbs_natCast]
  | false => rfl

section Placed

variable {p : Decimal.Placement} (unscaled : Bool)

def placed (p : Decimal.Placement) (unscaled : Bool) : Placement where
  value := p.value
  precision := p.precision
  scale := p.scale
  unscaled := unscaled

@[simp] lemma value_placed : (placed p unscaled).value = p.value := rfl
@[simp] lemma precision_placed : (placed p unscaled).precision = p.precision := rfl
@[simp] lemma scale_placed : (placed p unscaled).scale = p.scale := rfl

lemma shorten_after (hty : ty.fits t) (hm : m.WellFormed) (hv : p.value = keptValue ty m)
    (hs : ty.scale < p.scale) (hw : m.significant.length ≤ ty.wholeDigits + p.scale)
    (hl : p.scale < 2 ^ 31) :
    Checked.shorten t ty r (.after ty r m) (droppedDigits ty m) (placed p unscaled) =
      .ok ⟨(Decimal.shorten t ty r m p).value, (Decimal.shorten t ty r m p).status⟩ := by
  have hsp := ty.scale_le
  have hlt : keptValue ty m < 10 ^ ty.precision := keptValue_lt hm
  have hdropped : droppedDigits ty m + ty.scale ≤ p.scale := by
    rw [DecimalType.wholeDigits] at hw
    rw [droppedDigits]
    omega
  rw [Checked.shorten, Decimal.shorten, scale_placed, counter_sub (by omega) hl, ok_bind,
    counter_sub (by omega) (by omega), ok_bind, value_placed]
  by_cases hpos : 0 < p.scale - droppedDigits ty m - ty.scale
  · rw [if_pos (Int.natCast_pos.mpr hpos), if_pos hpos, scaleDown_natCast r hpos, ok_bind]
    · rfl
    · rw [hv]
      exact natCast_le_max hty hlt.le
  · have hround : roundUp t (firstDropped ty r m) p.value =
        .ok ((if 5 ≤ firstDropped ty r m then p.value + 1 else p.value : ℕ) : ℤ) := by
      rw [hv, roundUp]
      split
      · have hcarry : ((keptValue ty m + 1 : ℕ) : ℤ) ≤ t.max := natCast_le_max hty hlt
        exact word_natCast hcarry
      · rfl
    rw [if_neg (Int.natCast_pos.not.mpr hpos), if_neg hpos, assert_eq (by omega), ok_bind,
      Progress.firstDropped_after, hround, ok_bind]
    simp only [fillsPrecision_natCast]
    rfl

lemma extend_after (hty : ty.fits t) (hs : p.scale ≤ ty.scale) (hd : droppedDigits ty m = 0)
    (hlt : Decimal.extend t p.value (ty.scale - p.scale) ≤ 10 ^ ty.precision) :
    Checked.extend t ty (droppedDigits ty m) (placed p unscaled) =
      .ok ⟨(Decimal.extend t p.value (ty.scale - p.scale) : ℤ), .success⟩ := by
  have hp : ty.precision ≤ t.maxPrecision := of_decide_eq_true hty
  have hsp := ty.scale_le
  have hsmall : ty.precision ≤ 38 := ty.precision_le
  rw [extend_eq (by omega)] at hlt ⊢
  by_cases hroom : p.scale < ty.scale
  · have hproduct : word t ((p.value : ℤ) * (10 ^ (ty.scale - p.scale) : ℕ)) =
        .ok ((p.value * 10 ^ (ty.scale - p.scale) : ℕ) : ℤ) := by
      rw [← Nat.cast_mul]
      exact word_natCast (natCast_le_max hty hlt)
    have hpow : t.powerOfTen? ((ty.scale - p.scale : ℕ) : ℤ) = some (10 ^ (ty.scale - p.scale)) :=
      if_pos (by omega)
    rw [Checked.extend, scale_placed, if_pos (Nat.cast_lt.mpr hroom), assert_eq (by omega), ok_bind,
      counter_sub hs (by omega), ok_bind, hpow]
    dsimp only
    rw [value_placed, hproduct, ok_bind]
    rfl
  · have heq : ty.scale - p.scale = 0 := by omega
    rw [Checked.extend]
    simp [hroom, heq]

end Placed

section Bounded

variable {exponent : ℤ} (hty : ty.fits t) (hb : Bounded m exponent)

include hb

lemma precision_placement_lt : (placement t ty m exponent).precision < 2 ^ 31 := by
  obtain ⟨-, hl, he, he'⟩ := hb
  have hsig := Mantissa.length_significant_le_digits m
  have hfrac := Mantissa.length_fraction_le_digits m
  rw [placement, Decimal.place]
  split
  · dsimp only
    omega
  · apply Nat.max_lt.mpr
    constructor <;> omega

lemma place_of_scale (h : exponent ≤ m.fraction.length) :
    Checked.place t (.after ty r m) exponent = .ok (placed (placement t ty m exponent) false) := by
  obtain ⟨-, hl, he, he'⟩ := hb
  have hfrac := Mantissa.length_fraction_le_digits m
  have hscale : counter ((m.fraction.length : ℤ) - exponent) =
      .ok ((m.fraction.length - exponent).toNat : ℤ) := by
    rw [counter_eq (by omega) (by omega), Int.toNat_of_nonneg (by omega)]
  rw [Checked.place, placement, Decimal.place, Progress.afterDot_after, if_neg (not_lt.mpr h),
    if_neg (not_lt.mpr h), hscale, ok_bind, Progress.total_after, ← Nat.cast_max]
  rfl

lemma place_of_shift {shift : ℕ} (h : exponent - m.fraction.length = shift) (hpos : 0 < shift) :
    Checked.place t (.after ty r m) exponent =
      .ok (placed (placement t ty m exponent)
        (Decimal.scaleUp? t (keptValue ty m) shift).isNone) := by
  obtain ⟨-, hl, he, he'⟩ := hb
  have hsig := Mantissa.length_significant_le_digits m
  have hcount : counter (shift : ℤ) = .ok (shift : ℤ) := counter_natCast (by omega)
  have htotal : counter ((m.significant.length : ℤ) + shift) =
      .ok ((m.significant.length + shift : ℕ) : ℤ) := counter_natCast (by omega)
  rw [Checked.place, placement, Decimal.place, Progress.afterDot_after, if_pos (by omega),
    if_pos (by omega), h, hcount, ok_bind, Progress.total_after, htotal, ok_bind,
    Progress.value_after, scaleUp?_natCast, Int.toNat_natCast]
  dsimp only
  cases Decimal.scaleUp? t (keptValue ty m) shift <;> rfl

include hty

lemma place_after :
    ∃ unscaled,
      Checked.place t (.after ty r m) exponent =
        .ok (placed (placement t ty m exponent) unscaled) ∧
      (unscaled = true →
        (ty.precision : ℤ) - ty.scale < m.significant.length - m.scale exponent) := by
  rcases le_or_gt exponent m.fraction.length with h | h
  · exact ⟨false, place_of_scale r hb h, by simp⟩
  · obtain ⟨shift, hshift⟩ : ∃ shift : ℕ, exponent - m.fraction.length = shift :=
      ⟨_, (Int.toNat_of_nonneg (by omega)).symm⟩
    refine ⟨_, place_of_shift r hb hshift (by omega), fun hnone => ?_⟩
    by_contra hw
    have hroom : m.significant.length + shift ≤ ty.precision := by
      rw [Mantissa.scale] at hw
      omega
    simp [scaleUp?_keptValue hty hb.wellFormed hroom] at hnone

lemma fit_after (unscaled : Bool) :
    Checked.fit t ty r (.after ty r m) (droppedDigits ty m)
        (placed (placement t ty m exponent) unscaled) =
      .ok ⟨(Decimal.fit t ty r m exponent).value, (Decimal.fit t ty r m exponent).status⟩ := by
  have hm := hb.wellFormed
  have hsp := ty.scale_le
  have hscale := placement_scale_le_precision t ty m exponent
  have hsig := length_significant_le_precision t ty m exponent
  have hprec : (placement t ty m exponent).precision < 2 ^ 31 := precision_placement_lt hb
  have hsmall : ty.precision ≤ 38 := ty.precision_le
  have hroom : counter ((ty.precision : ℤ) - ty.scale) = .ok (ty.wholeDigits : ℤ) :=
    counter_sub hsp (by omega)
  rw [Checked.fit, precision_placed, scale_placed, counter_sub hscale hprec, ok_bind, hroom, ok_bind]
  by_cases hwide : ty.wholeDigits <
      (placement t ty m exponent).precision - (placement t ty m exponent).scale
  · rw [if_pos (Nat.cast_lt.mpr hwide), Decimal.fit, if_pos hwide]
    rfl
  · rw [if_neg (Nat.cast_lt.not.mpr hwide)]
    by_cases hexcess : ty.scale < (placement t ty m exponent).scale
    · have hneg := excess_iff.mp hexcess
      rw [if_pos (Nat.cast_lt.mpr hexcess), Decimal.fit, if_neg hwide, if_pos hexcess]
      exact shorten_after r unscaled hty hm (placement_value (by omega)) hexcess (by omega)
        (by omega)
    · rw [if_neg (Nat.cast_lt.not.mpr hexcess), Progress.hasDigit_after, Progress.dotted_after]
      cases habsent : (!m.hasDigit && !m.dotted) with
      | true =>
        rw [Decimal.fit, if_neg hwide, if_neg hexcess, habsent]
        rfl
      | false =>
        have hfit : Decimal.fit t ty r m exponent =
            ⟨Decimal.extend t (placement t ty m exponent).value
              (ty.scale - (placement t ty m exponent).scale), .success⟩ := by
          rw [Decimal.fit, if_neg hwide, if_neg hexcess, habsent]
          rfl
        have hlt : (Decimal.fit t ty r m exponent).value < 10 ^ ty.precision :=
          fit_value_lt r hty hm (Or.inl (by rw [hfit]))
        have hdropped : droppedDigits ty m = 0 := by
          rw [DecimalType.wholeDigits] at hwide
          rw [droppedDigits]
          omega
        rw [hfit] at hlt ⊢
        exact extend_after unscaled hty (not_lt.mp hexcess) hdropped hlt.le

lemma finish_after (negative : Bool) :
    ∃ unscaled,
      finish t ty r negative (.after ty r m) exponent =
        .ok ⟨⟨signed negative (Decimal.fit t ty r m exponent).value,
          (Decimal.fit t ty r m exponent).status⟩, unscaled⟩ ∧
      (unscaled = true → (Decimal.fit t ty r m exponent).status = .overflow) := by
  have hsig := (Mantissa.length_significant_le_digits m).trans_lt hb.length_lt
  have hsmall : ty.precision ≤ 38 := ty.precision_le
  have hexcess : counter ((m.significant.length : ℤ) - ty.precision) =
      .ok ((m.significant.length : ℤ) - ty.precision) := counter_eq (by omega) (by omega)
  have hdropped : max ((m.significant.length : ℤ) - ty.precision) 0 = droppedDigits ty m := by
    rw [droppedDigits]
    omega
  obtain ⟨unscaled, hplace, hwide⟩ := place_after r hty hb
  refine ⟨unscaled, ?_, fun hu => ?_⟩
  · rw [finish, Progress.total_after, hexcess, ok_bind, hplace, ok_bind, hdropped,
      fit_after r hty hb unscaled, ok_bind,
      negate_natCast negative (fit_value_le_max r hty hb.wellFormed), ok_bind]
    rfl
  · rw [fit_of_wide r (hwide hu)]

end Bounded

lemma bounded_scan {s : Bytes} (h : s.length < 2 ^ 31 - 256) :
    Bounded (Mantissa.scan s).1 (readExponent (Mantissa.scan s).2).value where
  wellFormed := Mantissa.wellFormed_scan s
  length_lt := (Mantissa.length_digits_scan_le s).trans_lt h
  le_exponent := (readExponent_bounds _).1
  exponent_le := (readExponent_bounds _).2

lemma readFitting_eq (hty : ty.fits t) {s : Bytes} (h : s.length < 2 ^ 31 - 256) :
    ∃ unscaled,
      Checked.readFitting t ty r s = .ok ⟨Decimal.readFitting t ty r s, unscaled⟩ ∧
      (unscaled = true → (Decimal.readFitting t ty r s).status = .overflow) := by
  have hbody : (splitSign (trim s)).2.length < 2 ^ 31 - 256 :=
    ((length_splitSign_le _).trans (length_trim_le s)).trans_lt h
  rw [Checked.readFitting, Decimal.readFitting]
  dsimp only
  rw [Progress.scan_eq r (by omega) hty, ok_bind]
  dsimp only
  by_cases hok : (readExponent (Mantissa.scan (splitSign (trim s)).2).2).status = .success
  · rw [if_pos hok, if_pos hok]
    exact finish_after r hty (bounded_scan hbody) _
  · rw [if_neg hok, if_neg hok]
    exact ⟨false, rfl, by simp⟩

lemma read_eq (t : Storage) (precision scale : ℕ) (r : Rounding) {s : Bytes}
    (h : s.length < 2 ^ 31 - 256) :
    ∃ unscaled,
      Checked.read t precision scale r s = .ok ⟨Decimal.read t precision scale r s, unscaled⟩ ∧
      (unscaled = true → (Decimal.read t precision scale r s).status = .overflow) := by
  rw [Checked.read, Decimal.read]
  cases DecimalType.of precision scale with
  | error _ => exact ⟨false, rfl, by simp⟩
  | ok ty =>
    dsimp only
    rw [DecimalType.read]
    by_cases hty : ty.fits t = true
    · rw [if_pos hty, if_pos hty]
      exact readFitting_eq r hty h
    · rw [if_neg hty, if_neg hty]
      exact ⟨false, rfl, by simp⟩

/-- No operation leaves the word or the counters, no assumption fails, no power of ten is missing,
and a value left unscaled is never returned as anything but an overflow. -/
theorem read_without_fault (t : Storage) (precision scale : ℕ) (r : Rounding) {s : Bytes}
    (h : s.length < 2 ^ 31 - 256) :
    ∃ run, Checked.read t precision scale r s = .ok run ∧
      run.outcome = Decimal.read t precision scale r s ∧
      (run.unscaled = true → run.outcome.status = .overflow) := by
  obtain ⟨unscaled, hread, hover⟩ := read_eq t precision scale r h
  exact ⟨_, hread, rfl, hover⟩

def farWhole : Bytes := [53, 101, 51, 48]

theorem read_without_fault_farWhole :
    farWhole.length < 2 ^ 31 - 256 ∧
      ∃ run, Checked.read .word32 9 0 .halfUp farWhole = .ok run ∧ run.unscaled = true ∧
        run.outcome.status = .overflow := by
  have hlen : farWhole.length < 2 ^ 31 - 256 := by decide
  have hread : Checked.read .word32 9 0 .halfUp farWhole = .ok ⟨⟨⟨5⟩, .overflow⟩, true⟩ := by decide
  obtain ⟨run, hrun, -, hover⟩ := read_without_fault .word32 9 0 .halfUp hlen
  obtain rfl : run = ⟨⟨⟨5⟩, .overflow⟩, true⟩ := Except.ok.inj (hrun.symm.trans hread)
  exact ⟨hlen, _, hrun, rfl, hover rfl⟩

end Checked

end SqlCast.Decimal
