import SqlCast.Binary.Arithmetic
import SqlCast.Proofs.Binary.Nearest

namespace SqlCast.Binary

variable {f : Format}

lemma roundQuanta_congr {num den num' den' : ℕ} (hd : 0 < den) (hd' : 0 < den')
    (h : (num / den : ℚ) = num' / den') : roundQuanta f num den = roundQuanta f num' den' := by
  have hn := nearest_roundQuanta f num hd
  rw [h] at hn
  exact hn.unique (nearest_roundQuanta f num' hd')

lemma ofRatio_congr {num den num' den' : ℕ} (hd : 0 < den) (hd' : 0 < den')
    (h : (num / den : ℚ) = num' / den') (s : Bool) : ofRatio f s num den = ofRatio f s num' den' := by
  simp only [ofRatio, roundQuanta_congr hd hd' h]

lemma ofRatio_eq {num den n : ℕ} (hd : 0 < den) (h : Nearest f (num / den) n) (hn : n < f.ceiling)
    (s : Bool) : ofRatio f s num den = finite s ⟨n, hn, h.precise⟩ := by
  have hround : roundQuanta f num den = n := (nearest_roundQuanta f num hd).unique h
  simp only [ofRatio, hround, dif_pos hn]

lemma Format.one_pos (f : Format) : 0 < f.one := Nat.two_pow_pos _

lemma Format.cast_one_pos (f : Format) : (0 : ℚ) < f.one := Nat.cast_pos.mpr f.one_pos

lemma Format.one_ne_zero (f : Format) : (f.one : ℚ) ≠ 0 := f.cast_one_pos.ne'

namespace Finite

lemma eq_iff {v w : Finite f} : v = w ↔ v.quanta = w.quanta := by
  cases v
  cases w
  exact (mk.injEq ..).to_iff

def toRat (v : Finite f) : ℚ := v.quanta / f.one

structure IsNearest (v : Finite f) (x : ℚ) : Prop where
  le : ∀ w : Finite f, |x - v.toRat| ≤ |x - w.toRat|
  even : ∀ w : Finite f, w ≠ v → |x - v.toRat| = |x - w.toRat| → Even (significand f v.quanta)

lemma toRat_mul_one (v : Finite f) : v.toRat * f.one = v.quanta :=
  div_mul_cancel₀ _ f.one_ne_zero

lemma abs_sub_toRat (v : Finite f) (x : ℚ) : |x * f.one - v.quanta| = |x - v.toRat| * f.one := by
  have hone := f.cast_one_pos
  rw [← abs_of_pos hone, ← abs_mul, abs_of_pos hone, sub_mul, v.toRat_mul_one]

lemma isNearest_of_nearest {v : Finite f} {x : ℚ} (h : Nearest f (x * f.one) v.quanta) :
    v.IsNearest x := by
  have hone := f.cast_one_pos
  constructor
  · intro w
    have hle := h.le w.quanta w.representable.2
    rw [v.abs_sub_toRat, w.abs_sub_toRat] at hle
    exact le_of_mul_le_mul_right hle hone
  · intro w hw he
    refine h.even w.quanta w.representable.2 (fun hq => hw (eq_iff.mpr hq)) ?_
    rw [v.abs_sub_toRat, w.abs_sub_toRat, he]

end Finite

lemma exists_ofDecimal_eq (f : Format) (s : Bool) (n : ℕ) (e : ℤ) :
    ∃ num den : ℕ, 0 < den ∧ (num / den : ℚ) = n * (10 : ℚ) ^ e * f.one ∧
      ofDecimal f s n e = ofRatio f s num den := by
  rw [ofDecimal]
  split_ifs with he
  · refine ⟨n * Nat.pow 10 e.toNat * f.one, 1, Nat.one_pos, ?_, rfl⟩
    obtain ⟨k, rfl⟩ := Int.eq_ofNat_of_zero_le he
    simp
  · refine ⟨n * f.one, Nat.pow 10 e.natAbs, Nat.pow_pos (by norm_num), ?_, rfl⟩
    obtain ⟨k, rfl⟩ : ∃ k : ℕ, e = -(k : ℤ) := ⟨e.natAbs, by omega⟩
    rw [zpow_neg, zpow_natCast, ← div_eq_mul_inv, div_mul_eq_mul_div]
    simp

lemma ofDecimal_eq {n q : ℕ} {e : ℤ} (h : Nearest f (n * (10 : ℚ) ^ e * f.one) q) (hq : q < f.ceiling)
    (s : Bool) : ofDecimal f s n e = finite s ⟨q, hq, h.precise⟩ := by
  obtain ⟨num, den, hden, hx, heq⟩ := exists_ofDecimal_eq f s n e
  rw [heq]
  exact ofRatio_eq hden (hx ▸ h) hq s

def Whole (f : Format) (n : ℕ) : Prop := Representable f (n * f.one)

lemma precise_whole {n : ℕ} (h : n ≤ 2 ^ f.precision) : Precise f (n * f.one) :=
  precise_mul_two_pow h f.quantumExponent

lemma whole_of_le {n : ℕ} (h : n ≤ 2 ^ f.precision) : Whole f n := by
  refine representable_of_precise (precise_whole h) ?_
  calc n * f.one ≤ 2 ^ f.precision * 2 ^ f.quantumExponent := Nat.mul_le_mul_right _ h
    _ = 2 ^ (f.precision + f.quantumExponent) := (pow_add 2 _ _).symm
    _ < 2 ^ (f.maxExponent + 1 + f.quantumExponent) := by
      refine Nat.pow_lt_pow_right (by norm_num) (Nat.add_lt_add_right ?_ _)
      cases f <;> decide

lemma exists_finite_nearest {x : ℚ} (hx : 0 ≤ x) (hle : x ≤ (2 ^ f.precision : ℕ)) :
    ∃ v : Finite f, Nearest f (x * f.one) v.quanta := by
  have hone := f.cast_one_pos
  obtain ⟨n, hn⟩ := exists_nearest f (mul_nonneg hx hone.le)
  have hlim : x * f.one ≤ (2 ^ f.precision * f.one : ℕ) := by
    rw [Nat.cast_mul]
    exact mul_le_mul_of_nonneg_right hle hone.le
  have hlt : n < f.ceiling :=
    (hn.mono hlim (Nearest.of_precise (precise_whole le_rfl))).trans_lt (whole_of_le le_rfl).1
  exact ⟨⟨n, hlt, hn.precise⟩, hn⟩

lemma Nearest.le_one {x : ℚ} {n : ℕ} (h : Nearest f x n) (hx : x ≤ f.one) : n ≤ f.one := by
  have hone := Nearest.of_precise (precise_whole f.one_lt_two_pow_precision.le)
  rw [Nat.one_mul] at hone
  exact h.mono hx hone

namespace Finite

lemma toRat_nonneg (v : Finite f) : 0 ≤ v.toRat := div_nonneg (Nat.cast_nonneg _) (Nat.cast_nonneg _)

lemma toRat_le_one {v : Finite f} {x : ℚ} (h : Nearest f (x * f.one) v.quanta) (hx : x ≤ 1) :
    v.toRat ≤ 1 := by
  have hle : (v.quanta : ℚ) ≤ f.one :=
    Nat.cast_le.mpr (h.le_one (mul_le_of_le_one_left (Nat.cast_nonneg _) hx))
  exact div_le_one_of_le₀ hle (Nat.cast_nonneg _)

lemma exists_fraction {v : Finite f} {n : ℕ} {x : ℚ} (hx0 : 0 ≤ x) (hx1 : x < 1) (hv : v.toRat = n + x) :
    ∃ w : Finite f, w.toRat = x := by
  have hone := f.cast_one_pos
  have hquanta : (v.quanta : ℚ) = (n * f.one : ℕ) + x * f.one := by
    rw [← v.toRat_mul_one, hv, add_mul, Nat.cast_mul]
  have hle : n * f.one ≤ v.quanta := by
    have hcast : ((n * f.one : ℕ) : ℚ) ≤ v.quanta :=
      hquanta ▸ le_add_of_nonneg_right (mul_nonneg hx0 hone.le)
    exact_mod_cast hcast
  obtain ⟨r, hr⟩ := Nat.exists_eq_add_of_le hle
  have hrest : (r : ℚ) = x * f.one := by
    rw [hr, Nat.cast_add] at hquanta
    exact add_left_cancel hquanta
  have hlt : r < f.one := by
    have hcast : (r : ℚ) < f.one := hrest ▸ mul_lt_of_lt_one_left hone hx1
    exact_mod_cast hcast
  have hprecise : Precise f v.quanta := v.representable.2
  have hmod : v.quanta % 2 ^ f.quantumExponent = r := by
    rw [hr, mul_comm n]
    exact (Nat.mul_add_mod _ n r).trans (Nat.mod_eq_of_lt hlt)
  have hrep : Representable f r :=
    representable_of_precise (hmod ▸ hprecise.mod_two_pow _) (by have hv := v.representable.1; omega)
  refine ⟨⟨r, hrep⟩, ?_⟩
  rw [toRat, hrest, mul_div_cancel_right₀ _ hone.ne']

namespace IsNearest

variable {v w : Finite f} {x : ℚ}

lemma nearest_of_finite (hw : Nearest f (x * f.one) w.quanta) (h : v.IsNearest x) :
    Nearest f (x * f.one) v.quanta := by
  have heq : |x - v.toRat| = |x - w.toRat| := le_antisymm (h.le w) ((isNearest_of_nearest hw).le v)
  refine ⟨v.representable.2, fun k hk => ?_, fun k hk hne he => ?_⟩
  · rw [v.abs_sub_toRat, heq, ← w.abs_sub_toRat]
    exact hw.le k hk
  · by_cases hvw : w = v
    · subst hvw
      exact hw.even k hk hne he
    · exact h.even w hvw heq

variable (hx : 0 ≤ x) (hle : x ≤ (2 ^ f.precision : ℕ))

include hx hle

lemma nearest (h : v.IsNearest x) : Nearest f (x * f.one) v.quanta := by
  obtain ⟨w, hw⟩ := exists_finite_nearest hx hle
  exact h.nearest_of_finite hw

lemma unique (hv : v.IsNearest x) (hw : w.IsNearest x) : v = w :=
  eq_iff.mpr ((hv.nearest hx hle).unique (hw.nearest hx hle))

end IsNearest

end Finite

variable {a b : ℕ}

lemma ofNat_eq (ha : Whole f a) : ofNat f a = finite false ⟨a * f.one, ha⟩ := by
  refine ofRatio_eq Nat.one_pos ?_ ha.1 false
  rw [Nat.cast_one, div_one]
  exact Nearest.of_precise ha.2

lemma ofNat_zero (f : Format) : ofNat f 0 = zero := by
  rw [ofNat, Nat.zero_mul]
  rfl

lemma zero_eq (f : Format) : ∃ z : Finite f, z.quanta = 0 ∧ zero = finite false z := by
  rw [← ofNat_zero, ofNat_eq (whole_of_le (Nat.zero_le _))]
  exact ⟨_, Nat.zero_mul f.one, rfl⟩

lemma ofNat_add (ha : Whole f a) (hb : Whole f b) : ofNat f a + ofNat f b = ofNat f (a + b) := by
  rw [ofNat_eq ha, ofNat_eq hb, ofNat, Nat.add_mul]
  rfl

lemma ofNat_mul (ha : Whole f a) (hb : Whole f b) : ofNat f a * ofNat f b = ofNat f (a * b) := by
  have hone := f.one_ne_zero
  rw [ofNat_eq ha, ofNat_eq hb]
  refine ofRatio_congr f.one_pos Nat.one_pos ?_ false
  push_cast
  field_simp

lemma convert_self (s : Bool) (v : Finite f) : (finite s v).convert f = finite s v := by
  refine ofRatio_eq f.one_pos ?_ v.representable.1 s
  rw [Nat.cast_mul, mul_div_cancel_right₀ _ f.one_ne_zero]
  exact Nearest.of_precise v.representable.2

end SqlCast.Binary
