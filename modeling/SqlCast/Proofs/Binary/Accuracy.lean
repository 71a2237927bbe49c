import Mathlib.Algebra.Order.Floor.Semifield
import Mathlib.Data.Rat.Floor
import SqlCast.Proofs.Binary.Order

namespace SqlCast.Binary

variable {f : Format}

namespace Format

/-- A factor that bounds, on either side, what one rounding in the normal range does. -/
def slack (f : Format) : ℚ := 1 + 2 / 2 ^ f.precision

lemma one_le_slack (f : Format) : 1 ≤ f.slack :=
  le_add_of_nonneg_right (by positivity)

lemma slack_pos (f : Format) : 0 < f.slack := zero_lt_one.trans_le f.one_le_slack

end Format

section Distance

variable {x : ℚ} {n j : ℕ}

lemma Nearest.abs_sub_le_half (hn : Nearest f x n) (hx : 0 ≤ x) :
    |x - n| ≤ 2 ^ excessBits f ⌊x⌋₊ / 2 := by
  obtain ⟨e, he⟩ : ∃ e, e = excessBits f ⌊x⌋₊ := ⟨_, rfl⟩
  obtain ⟨k, hk⟩ : ∃ k, k = significand f ⌊x⌋₊ := ⟨_, rfl⟩
  have hlt : k < 2 ^ f.precision := hk ▸ significand_lt f _
  have hlow : (k * 2 ^ e : ℕ) ≤ x := by
    refine le_trans ?_ (Nat.floor_le hx)
    rw [hk, he, Nat.cast_le]
    exact Nat.div_mul_le_self _ _
  have hhigh : x ≤ ((k + 1) * 2 ^ e : ℕ) := by
    refine (Nat.lt_floor_add_one x).le.trans ?_
    rw [hk, he]
    exact_mod_cast Nat.lt_mul_of_div_lt (Nat.lt_succ_self (significand f ⌊x⌋₊)) (by positivity)
  have hle := hn.le _ (precise_mul_two_pow hlt.le e)
  have hle' := hn.le _ (precise_mul_two_pow hlt e)
  rw [abs_of_nonneg (sub_nonneg.mpr hlow)] at hle
  rw [abs_of_nonpos (sub_nonpos.mpr hhigh)] at hle'
  rw [← he]
  push_cast at hle hle'
  linarith

lemma Nearest.abs_sub_le (hn : Nearest f x n) (hj : j + 1 ≤ f.precision) (hx : 2 ^ j ≤ x) :
    |x - n| ≤ x / 2 ^ (j + 1) := by
  have hpos : 0 ≤ x := le_trans (by positivity) hx
  refine (hn.abs_sub_le_half hpos).trans ?_
  rw [div_le_div_iff₀ (by norm_num) (by positivity)]
  rcases Nat.eq_zero_or_pos (excessBits f ⌊x⌋₊) with he | he
  · rw [he, pow_zero, one_mul, pow_succ]
    exact mul_le_mul_of_nonneg_right hx (by norm_num)
  · obtain ⟨e, he⟩ := Nat.exists_eq_add_one_of_ne_zero he.ne'
    have hlow := two_pow_le_of_excessBits (f := f) (n := ⌊x⌋₊) (by omega)
    rw [he] at hlow ⊢
    have hlow : (2 : ℚ) ^ (f.precision - 1 + (e + 1)) ≤ x :=
      le_trans (by exact_mod_cast hlow) (Nat.floor_le hpos)
    calc (2 : ℚ) ^ (e + 1) * 2 ^ (j + 1) ≤ 2 ^ (e + 1) * 2 ^ (f.precision - 1 + 1) := by
          refine mul_le_mul_of_nonneg_left (pow_le_pow_right₀ (by norm_num) (by omega)) (by positivity)
      _ = 2 ^ (f.precision - 1 + (e + 1)) * 2 := by ring
      _ ≤ x * 2 := mul_le_mul_of_nonneg_right hlow (by norm_num)

end Distance

def Close (f : Format) (k : ℕ) (x y : ℚ) : Prop := x ≤ y * f.slack ^ k ∧ y ≤ x * f.slack ^ k

namespace Close

variable {k l : ℕ} {x y z x' y' c d : ℚ}

lemma refl (f : Format) (x : ℚ) : Close f 0 x x := by
  rw [Close, pow_zero, mul_one]
  exact ⟨le_rfl, le_rfl⟩

lemma trans (h : Close f k x y) (h' : Close f l y z) : Close f (k + l) x z := by
  have hk : 0 ≤ f.slack ^ k := pow_nonneg f.slack_pos.le k
  have hl : 0 ≤ f.slack ^ l := pow_nonneg f.slack_pos.le l
  constructor
  · calc x ≤ y * f.slack ^ k := h.1
      _ ≤ z * f.slack ^ l * f.slack ^ k := mul_le_mul_of_nonneg_right h'.1 hk
      _ = z * f.slack ^ (k + l) := by ring
  · calc z ≤ y * f.slack ^ l := h'.2
      _ ≤ x * f.slack ^ k * f.slack ^ l := mul_le_mul_of_nonneg_right h.2 hl
      _ = x * f.slack ^ (k + l) := by ring

lemma mono (h : Close f k x y) (hx : 0 ≤ x) (hy : 0 ≤ y) (hkl : k ≤ l) : Close f l x y := by
  have hpow := pow_le_pow_right₀ f.one_le_slack hkl
  exact ⟨h.1.trans (mul_le_mul_of_nonneg_left hpow hy), h.2.trans (mul_le_mul_of_nonneg_left hpow hx)⟩

lemma add (h : Close f k x y) (h' : Close f k x' y') : Close f k (x + x') (y + y') := by
  rw [Close, add_mul, add_mul]
  exact ⟨add_le_add h.1 h'.1, add_le_add h.2 h'.2⟩

lemma mul_right (h : Close f k x y) (hc : 0 ≤ c) : Close f k (x * c) (y * c) := by
  rw [Close, mul_right_comm, mul_right_comm x]
  exact ⟨mul_le_mul_of_nonneg_right h.1 hc, mul_le_mul_of_nonneg_right h.2 hc⟩

lemma mul_left (h : Close f k x y) (hc : 0 ≤ c) : Close f k (c * x) (c * y) := by
  rw [mul_comm c, mul_comm c]
  exact h.mul_right hc

lemma inv (h : Close f k x y) (hx : 0 < x) (hy : 0 < y) : Close f k x⁻¹ y⁻¹ := by
  constructor
  · rw [← div_eq_inv_mul, le_div_iff₀ hy, inv_mul_le_iff₀ hx]
    exact h.2
  · rw [← div_eq_inv_mul, le_div_iff₀ hx, inv_mul_le_iff₀ hy]
    exact h.1

lemma div (h : Close f k x y) (h' : Close f l c d) (hy : 0 ≤ y) (hc : 0 < c) (hd : 0 < d) :
    Close f (k + l) (x / c) (y / d) := by
  rw [div_eq_mul_inv, div_eq_mul_inv]
  exact (h.mul_right (inv_nonneg.mpr hc.le)).trans ((h'.inv hc hd).mul_left hy)

end Close

section Rounding

variable {x y z : ℚ} {n k : ℕ}

lemma Nearest.close {i j : ℕ} (hn : Nearest f x n) (hj : f.precision = j + 1 + i) (hx : 2 ^ j ≤ x) :
    Close f (2 ^ i) n x := by
  have hdist := hn.abs_sub_le (j := j) (by omega) hx
  obtain ⟨u, hu⟩ : ∃ u : ℚ, u = 1 / 2 ^ (j + 1) := ⟨_, rfl⟩
  rw [abs_le, div_eq_mul_one_div, ← hu] at hdist
  have hx0 : 0 ≤ x := le_trans (by positivity) hx
  have hn0 : (0 : ℚ) ≤ n := Nat.cast_nonneg n
  have hu0 : 0 ≤ u := by rw [hu]; positivity
  have hu1 : 2 * u ≤ 1 := by
    have hpow : (1 : ℚ) ≤ 2 ^ j := one_le_pow₀ (by norm_num)
    rw [hu, pow_succ, mul_one_div, div_le_one (by positivity)]
    linarith
  have hslack : 1 + 2 * u ≤ f.slack ^ 2 ^ i := by
    have hstep : (0 : ℚ) ≤ 2 / 2 ^ f.precision := by positivity
    have heq : 2 * u = (2 ^ i : ℕ) * (2 / (2 : ℚ) ^ f.precision) := by
      rw [hu, hj, pow_add _ _ i]
      push_cast
      field_simp
    rw [heq]
    exact one_add_mul_le_pow (by linarith) (2 ^ i)
  constructor
  · refine le_trans ?_ (mul_le_mul_of_nonneg_left hslack hx0)
    nlinarith
  · refine le_trans ?_ (mul_le_mul_of_nonneg_left hslack hn0)
    nlinarith [mul_nonneg hx0 hu0]

lemma close_of_nearest {i j : ℕ} {v : Finite f} (hv : Nearest f (z * f.one) v.quanta)
    (hj : f.precision = j + 1 + i) (hz : (∃ m : ℕ, z * f.one = m) ∨ 2 ^ j ≤ z * f.one) :
    Close f (2 ^ i) v.toRat z := by
  have hone := f.cast_one_pos
  have hclose : Close f (2 ^ i) v.quanta (z * f.one) := by
    rcases lt_or_ge (z * f.one) (2 ^ j) with hlt | hge
    · obtain ⟨m, hm⟩ := hz.resolve_right (not_le.mpr hlt)
      have hprecise : Precise f m := by
        refine ⟨m, 0, ?_, by rw [pow_zero, mul_one]⟩
        have hm' : m < 2 ^ j := by
          rw [hm] at hlt
          exact_mod_cast hlt
        exact hm'.trans_le (Nat.pow_le_pow_right (by norm_num) (by omega))
      rw [hm] at hv ⊢
      rw [hv.unique (Nearest.of_precise hprecise)]
      exact (Close.refl f m).mono (Nat.cast_nonneg m) (Nat.cast_nonneg m) (Nat.zero_le _)
    · exact hv.close hj hge
  have hdiv := hclose.mul_right (inv_nonneg.mpr hone.le)
  rwa [mul_inv_cancel_right₀ hone.ne', ← div_eq_mul_inv] at hdiv

end Rounding

/-- An unsigned value that is at most `k` roundings away from `y`; an infinity is where that reaches
out of range. -/
inductive Approx (f : Format) (k : ℕ) : Binary f → ℚ → Prop
  | ofFinite {v : Finite f} {y : ℚ} (h : Close f k v.toRat y) : Approx f k (finite false v) y
  | ofInfinity {y : ℚ} (h : f.overflowThreshold ≤ y * f.slack ^ k) : Approx f k (infinity false) y

namespace Approx

variable {x x' : Binary f} {y y' z : ℚ} {k l : ℕ}

lemma unsigned (h : Approx f k x y) : Unsigned x := by
  cases h with
  | ofFinite => exact .ofFinite _
  | ofInfinity => exact .ofInfinity

lemma mono (h : Approx f k x y) (hy : 0 ≤ y) (hkl : k ≤ l) : Approx f l x y := by
  cases h with
  | ofFinite h => exact .ofFinite (h.mono (Finite.toRat_nonneg _) hy hkl)
  | ofInfinity h =>
    exact .ofInfinity (h.trans (mul_le_mul_of_nonneg_left (pow_le_pow_right₀ f.one_le_slack hkl) hy))

lemma trans (h : Approx f k x y) (h' : Close f l y z) : Approx f (k + l) x z := by
  cases h with
  | ofFinite h => exact .ofFinite (h.trans h')
  | ofInfinity h =>
    refine .ofInfinity (h.trans ?_)
    rw [add_comm, pow_add, ← mul_assoc]
    exact mul_le_mul_of_nonneg_right h'.1 (pow_nonneg f.slack_pos.le k)

end Approx

section

variable {i j k m : ℕ} {y z : ℚ} (hz : 0 ≤ z) (hy : 0 ≤ y) (h : Close f k z y)

include hz hy h

lemma approx_round (hj : f.precision = j + 1 + i) (hexact : (∃ m : ℕ, z * f.one = m) ∨ 2 ^ j ≤ z * f.one) :
    Approx f (k + 2 ^ i) (round f z) y := by
  rcases lt_or_ge z f.overflowThreshold with hlt | hge
  · obtain ⟨v, hv, hround⟩ := exists_round_eq hz hlt
    rw [hround, add_comm]
    exact .ofFinite ((close_of_nearest hv hj hexact).trans h)
  · rw [round_of_le hz hge]
    exact .ofInfinity ((hge.trans h.1).trans
      (mul_le_mul_of_nonneg_left (pow_le_pow_right₀ f.one_le_slack (Nat.le_add_right k _)) hy))

lemma approx_round_quanta (hm : z * f.one = m) : Approx f (k + 1) (round f z) y :=
  approx_round hz hy h (i := 0) (Nat.sub_add_cancel ((Nat.le_succ 1).trans f.two_le_precision)).symm
    (Or.inl ⟨m, hm⟩)

end

namespace Approx

variable {x x' : Binary f} {y y' : ℚ} {k l : ℕ} (hy : 0 ≤ y)

include hy

lemma add (h : Approx f k x y) (h' : Approx f k x' y') (hy' : 0 ≤ y') :
    Approx f (k + 1) (x + x') (y + y') := by
  have hslack : f.slack ^ k ≤ f.slack ^ (k + 1) := pow_le_pow_right₀ f.one_le_slack k.le_succ
  have hpos : 0 ≤ f.slack ^ (k + 1) := pow_nonneg f.slack_pos.le _
  cases h with
  | ofInfinity h =>
    rw [infinity_add h'.unsigned]
    refine .ofInfinity (h.trans ?_)
    rw [add_mul]
    exact (mul_le_mul_of_nonneg_left hslack hy).trans (le_add_of_nonneg_right (mul_nonneg hy' hpos))
  | @ofFinite v _ h =>
    cases h' with
    | ofInfinity h' =>
      rw [add_infinity (.ofFinite v)]
      refine .ofInfinity (h'.trans ?_)
      rw [add_mul]
      exact (mul_le_mul_of_nonneg_left hslack hy').trans (le_add_of_nonneg_left (mul_nonneg hy hpos))
    | @ofFinite w _ h' =>
      rw [finite_add]
      refine approx_round_quanta (add_nonneg v.toRat_nonneg w.toRat_nonneg) (add_nonneg hy hy') (h.add h')
        (m := v.quanta + w.quanta) ?_
      rw [add_mul, v.toRat_mul_one, w.toRat_mul_one, Nat.cast_add]

lemma mul_ofNat (h : Approx f k x y) {n : ℕ} (hpos : 0 < n) (hn : Whole f n) :
    Approx f (k + 1) (x * ofNat f n) (y * n) := by
  have hn1 : (1 : ℚ) ≤ n := by exact_mod_cast hpos
  cases h with
  | ofInfinity h =>
    rw [infinity_mul_ofNat hpos hn]
    refine .ofInfinity (h.trans ?_)
    exact mul_le_mul (le_mul_of_one_le_right hy hn1) (pow_le_pow_right₀ f.one_le_slack k.le_succ)
      (pow_nonneg f.slack_pos.le k) (mul_nonneg hy (Nat.cast_nonneg n))
  | @ofFinite v _ h =>
    rw [finite_mul_ofNat v hn]
    refine approx_round_quanta (mul_nonneg v.toRat_nonneg (Nat.cast_nonneg n))
      (mul_nonneg hy (Nat.cast_nonneg n)) (h.mul_right (Nat.cast_nonneg n)) (m := v.quanta * n) ?_
    rw [mul_right_comm, v.toRat_mul_one, Nat.cast_mul]

end Approx

lemma approx_ofNat (f : Format) (n : ℕ) : Approx f 1 (ofNat f n) n := by
  rw [← round_natCast]
  refine approx_round_quanta (Nat.cast_nonneg n) (Nat.cast_nonneg n) (Close.refl f n) (m := n * f.one) ?_
  rw [Nat.cast_mul]

lemma approx_whole {n : ℕ} (hn : Whole f n) : Approx f 0 (ofNat f n) n := by
  rw [ofNat_eq hn]
  refine .ofFinite ?_
  rw [toRat_whole]
  exact Close.refl f n

lemma approx_div {i j k l : ℕ} {v w : Finite f} {y d : ℚ} (h : Close f k v.toRat y)
    (h' : Close f l w.toRat d) (hy : 0 ≤ y) (hd : 0 < d) (hj : f.precision = j + 1 + i)
    (hlow : y = 0 ∨ 2 ^ j * f.slack ^ (k + l) ≤ y / d * f.one) :
    Approx f (k + l + 2 ^ i) (finite false v / finite false w) (y / d) := by
  have hw : 0 < w.toRat := by
    have hpow : 0 < f.slack ^ l := pow_pos f.slack_pos l
    exact (mul_pos_iff_of_pos_right hpow).mp (hd.trans_le h'.2)
  have hq : w.quanta ≠ 0 := by
    rintro hq
    rw [Finite.toRat, hq, Nat.cast_zero, zero_div] at hw
    exact lt_irrefl 0 hw
  have hclose := h.div h' hy hw hd
  rw [finite_div v hq]
  refine approx_round (div_nonneg v.toRat_nonneg hw.le) (div_nonneg hy hd.le) hclose hj ?_
  rcases hlow with rfl | hlow
  · have hv : v.toRat = 0 := by
      have hle := h.1
      rw [zero_mul] at hle
      exact le_antisymm hle v.toRat_nonneg
    exact Or.inl ⟨0, by rw [hv, zero_div, zero_mul, Nat.cast_zero]⟩
  · refine Or.inr (le_of_mul_le_mul_right ?_ (pow_pos f.slack_pos (k + l)))
    calc (2 : ℚ) ^ j * f.slack ^ (k + l) ≤ y / d * f.one := hlow
      _ ≤ v.toRat / w.toRat * f.slack ^ (k + l) * f.one :=
        mul_le_mul_of_nonneg_right hclose.2 (Nat.cast_nonneg _)
      _ = v.toRat / w.toRat * f.one * f.slack ^ (k + l) := by ring

lemma Finite.toRat_lt_overflowThreshold (v : Finite f) : v.toRat < f.overflowThreshold := by
  have hn : Nearest f (v.toRat * f.one) v.quanta := by
    rw [v.toRat_mul_one]
    exact Nearest.of_precise v.representable.2
  exact hn.lt_ceiling_iff.mp v.representable.1

lemma Approx.le {k : ℕ} {x x' : Binary f} {y y' : ℚ} (h : Approx f k x y) (h' : Approx f k x' y')
    (hle : y * f.slack ^ (k + k) ≤ y') : x ≤ x' := by
  have hpow : 0 < f.slack ^ k := pow_pos f.slack_pos k
  have hcross : ∀ v : Finite f, Close f k v.toRat y' → y * f.slack ^ k ≤ v.toRat := by
    intro v hv
    refine le_of_mul_le_mul_right ?_ hpow
    calc y * f.slack ^ k * f.slack ^ k = y * f.slack ^ (k + k) := by ring
      _ ≤ y' := hle
      _ ≤ v.toRat * f.slack ^ k := hv.2
  cases h' with
  | ofInfinity => exact h.unsigned.le_infinity
  | @ofFinite w _ hw =>
    cases h with
    | ofInfinity hover => exact absurd (hover.trans (hcross w hw)) (not_le.mpr w.toRat_lt_overflowThreshold)
    | @ofFinite v _ hv =>
      rw [finite_le_finite, ← Finite.toRat_le_toRat]
      exact hv.1.trans (hcross w hw)

lemma slack_pow_mul_le (f : Format) (k : ℕ) : f.slack ^ k * (1 - k * (2 / 2 ^ f.precision)) ≤ 1 := by
  obtain ⟨u, hu⟩ : ∃ u : ℚ, u = 2 / 2 ^ f.precision := ⟨_, rfl⟩
  rw [Format.slack, ← hu]
  have hu0 : 0 ≤ u := by rw [hu]; positivity
  induction k with
  | zero => simp
  | succ k ih =>
    have hpow : 0 ≤ (1 + u) ^ k := by positivity
    calc (1 + u) ^ (k + 1) * (1 - (k + 1 : ℕ) * u)
        = (1 + u) ^ k * (1 - k * u) - (1 + u) ^ k * ((k + 1) * u ^ 2) := by
          push_cast
          ring
      _ ≤ (1 + u) ^ k * (1 - k * u) := sub_le_self _ (by positivity)
      _ ≤ 1 := ih

end SqlCast.Binary
