import SqlCast.Binary.Arithmetic
import SqlCast.Proofs.Binary.Range

/-! The numerical order, and unsigned arithmetic as one rounding of the exact result: it keeps the
order. -/

namespace SqlCast.Binary

variable {f : Format}

/-- In quanta; the infinities stand at the ends of the range, and both zeros at one place. -/
def rank : Binary f → ℤ
  | nan => 0
  | infinity s => if s then -f.ceiling else f.ceiling
  | finite s v => if s then -v.quanta else v.quanta

def Le (x y : Binary f) : Prop := x ≠ nan ∧ y ≠ nan ∧ x.rank ≤ y.rank

instance : LE (Binary f) := ⟨Le⟩

instance (x y : Binary f) : Decidable (x ≤ y) := inferInstanceAs (Decidable (_ ∧ _))

inductive Unsigned : Binary f → Prop
  | ofFinite (v : Finite f) : Unsigned (finite false v)
  | ofInfinity : Unsigned (infinity false)

lemma finite_le_finite {v w : Finite f} :
    (finite false v : Binary f) ≤ finite false w ↔ v.quanta ≤ w.quanta := by
  constructor
  · intro h
    have hrank := h.2.2
    simpa [rank] using hrank
  · intro h
    exact ⟨nofun, nofun, by simpa [rank] using h⟩

namespace Unsigned

variable {x y z : Binary f}

lemma le_infinity (hx : Unsigned x) : x ≤ infinity false := by
  cases hx with
  | ofFinite v => exact ⟨nofun, nofun, by simpa [rank] using v.representable.1.le⟩
  | ofInfinity => exact ⟨nofun, nofun, le_rfl⟩

lemma le_refl (hx : Unsigned x) : x ≤ x := by
  cases hx with
  | ofFinite v => exact finite_le_finite.mpr le_rfl
  | ofInfinity => exact Unsigned.ofInfinity.le_infinity

lemma eq_infinity (hy : Unsigned y) (h : infinity false ≤ y) : y = infinity false := by
  cases hy with
  | ofFinite v =>
    have hrank : (f.ceiling : ℤ) ≤ v.quanta := h.2.2
    have hlt := v.representable.1
    omega
  | ofInfinity => rfl

lemma le_antisymm (hx : Unsigned x) (hy : Unsigned y) (hxy : x ≤ y) (hyx : y ≤ x) : x = y := by
  cases hx with
  | ofInfinity => exact (hy.eq_infinity hxy).symm
  | ofFinite v =>
    cases hy with
    | ofInfinity => exact (Unsigned.ofFinite v).eq_infinity hyx
    | ofFinite w =>
      have heq : v.quanta = w.quanta :=
        Nat.le_antisymm (finite_le_finite.mp hxy) (finite_le_finite.mp hyx)
      rw [Finite.eq_iff.mpr heq]

end Unsigned

lemma Le.trans {x y z : Binary f} (hxy : x ≤ y) (hyz : y ≤ z) : x ≤ z :=
  ⟨hxy.1, hyz.2.1, hxy.2.2.trans hyz.2.2⟩

def round (f : Format) (x : ℚ) : Binary f := ofRatio f false (x.num.toNat * f.one) x.den

section Round

variable {x y : ℚ} (hx : 0 ≤ x)

include hx

lemma num_div_den : ((x.num.toNat * f.one : ℕ) / x.den : ℚ) = x * f.one := by
  have hnum : ((x.num.toNat : ℕ) : ℚ) = x.num := by
    exact_mod_cast Int.toNat_of_nonneg (Rat.num_nonneg.mpr hx)
  rw [Nat.cast_mul, hnum, mul_div_right_comm, Rat.num_div_den]

lemma ofRatio_eq_round {num den : ℕ} (hd : 0 < den) (h : (num / den : ℚ) = x * f.one) :
    ofRatio f false num den = round f x :=
  ofRatio_congr hd x.den_pos (h.trans (num_div_den hx).symm) false

lemma round_of_le (h : f.overflowThreshold ≤ x) : round f x = infinity false := by
  have hn := nearest_roundQuanta f (x.num.toNat * f.one) x.den_pos
  rw [num_div_den hx] at hn
  exact dif_neg fun hlt => not_lt.mpr h (hn.lt_ceiling_iff.mp hlt)

lemma round_eq {v : Finite f} (hv : Nearest f (x * f.one) v.quanta) : round f x = finite false v :=
  ofRatio_eq x.den_pos (by rwa [num_div_den hx]) v.representable.1 false

lemma exists_round_eq (h : x < f.overflowThreshold) :
    ∃ v : Finite f, Nearest f (x * f.one) v.quanta ∧ round f x = finite false v := by
  obtain ⟨v, hv⟩ := exists_finite_nearest_of_lt hx h
  exact ⟨v, hv, round_eq hx hv⟩

lemma unsigned_round : Unsigned (round f x) := by
  rcases lt_or_ge x f.overflowThreshold with hlt | hge
  · obtain ⟨v, -, hv⟩ := exists_round_eq hx hlt
    exact hv ▸ .ofFinite v
  · exact round_of_le hx hge ▸ .ofInfinity

lemma round_le_round (hxy : x ≤ y) : round f x ≤ round f y := by
  have hy := hx.trans hxy
  rcases lt_or_ge y f.overflowThreshold with hlt | hge
  · obtain ⟨v, hv, hx'⟩ := exists_round_eq hx (hxy.trans_lt hlt)
    obtain ⟨w, hw, hy'⟩ := exists_round_eq hy hlt
    rw [hx', hy', finite_le_finite]
    exact hv.mono (mul_le_mul_of_nonneg_right hxy (Nat.cast_nonneg _)) hw
  · rw [round_of_le hy hge]
    exact (unsigned_round hx).le_infinity

end Round

lemma round_toRat (v : Finite f) : round f v.toRat = finite false v := by
  refine round_eq v.toRat_nonneg ?_
  rw [v.toRat_mul_one]
  exact Nearest.of_precise v.representable.2

lemma round_natCast (f : Format) (n : ℕ) : round f n = ofNat f n := by
  refine (ofRatio_eq_round (Nat.cast_nonneg n) Nat.one_pos ?_).symm
  push_cast
  rw [div_one]

lemma finite_add (v w : Finite f) :
    finite false v + finite false w = round f (v.toRat + w.toRat) := by
  refine ofRatio_eq_round (add_nonneg v.toRat_nonneg w.toRat_nonneg) Nat.one_pos ?_
  rw [add_mul, v.toRat_mul_one, w.toRat_mul_one]
  push_cast
  rw [div_one]

lemma finite_mul (v w : Finite f) :
    finite false v * finite false w = round f (v.toRat * w.toRat) := by
  refine ofRatio_eq_round (mul_nonneg v.toRat_nonneg w.toRat_nonneg) f.one_pos ?_
  have hone := f.one_ne_zero
  rw [Nat.cast_mul, ← v.toRat_mul_one, ← w.toRat_mul_one]
  field_simp

lemma finite_div (v : Finite f) {w : Finite f} (hw : w.quanta ≠ 0) :
    finite false v / finite false w = round f (v.toRat / w.toRat) := by
  have hdiv : finite false v / finite false w = ofRatio f false (v.quanta * f.one) w.quanta := if_neg hw
  rw [hdiv]
  refine ofRatio_eq_round (div_nonneg v.toRat_nonneg w.toRat_nonneg) (Nat.pos_of_ne_zero hw) ?_
  have hone := f.one_ne_zero
  rw [Nat.cast_mul, ← v.toRat_mul_one, ← w.toRat_mul_one, mul_div_mul_right _ _ hone, mul_div_right_comm]

lemma unsigned_ofNat (f : Format) (n : ℕ) : Unsigned (ofNat f n) := by
  rw [← round_natCast]
  exact unsigned_round (Nat.cast_nonneg n)

lemma ofNat_le_ofNat {m n : ℕ} (h : m ≤ n) : ofNat f m ≤ ofNat f n := by
  rw [← round_natCast, ← round_natCast]
  exact round_le_round (Nat.cast_nonneg m) (Nat.cast_le.mpr h)

lemma Finite.toRat_le_toRat {v w : Finite f} : v.toRat ≤ w.toRat ↔ v.quanta ≤ w.quanta := by
  have hone := f.cast_one_pos
  rw [toRat, toRat, div_le_div_iff_of_pos_right hone, Nat.cast_le]

section

variable {x x' y y' : Binary f} (hx : Unsigned x) (hx' : Unsigned x') (hy : Unsigned y) (hy' : Unsigned y')

lemma infinity_add (hy : Unsigned y) : infinity false + y = infinity false := by
  cases hy <;> rfl

lemma add_infinity (hx : Unsigned x) : x + infinity false = infinity false := by
  cases hx <;> rfl

include hx hy

lemma Unsigned.add : Unsigned (x + y) := by
  cases hx with
  | ofInfinity =>
    rw [infinity_add hy]
    exact .ofInfinity
  | ofFinite v =>
    cases hy with
    | ofInfinity => exact .ofInfinity
    | ofFinite w => exact finite_add v w ▸ unsigned_round (add_nonneg v.toRat_nonneg w.toRat_nonneg)

lemma le_add : x ≤ x + y := by
  cases hx with
  | ofInfinity =>
    rw [infinity_add hy]
    exact Unsigned.ofInfinity.le_refl
  | ofFinite v =>
    cases hy with
    | ofInfinity => exact (Unsigned.ofFinite v).le_infinity
    | ofFinite w =>
      rw [finite_add, ← round_toRat]
      exact round_le_round v.toRat_nonneg (le_add_of_nonneg_right w.toRat_nonneg)

include hx' hy'

lemma add_mono (hxx : x ≤ x') (hyy : y ≤ y') : x + y ≤ x' + y' := by
  cases hx' with
  | ofInfinity =>
    rw [infinity_add hy']
    exact (hx.add hy).le_infinity
  | ofFinite v' =>
    cases hy' with
    | ofInfinity => exact (hx.add hy).le_infinity
    | ofFinite w' =>
      cases hx with
      | ofInfinity => exact nomatch (Unsigned.ofFinite v').eq_infinity hxx
      | ofFinite v =>
        cases hy with
        | ofInfinity => exact nomatch (Unsigned.ofFinite w').eq_infinity hyy
        | ofFinite w =>
          rw [finite_add, finite_add]
          exact round_le_round (add_nonneg v.toRat_nonneg w.toRat_nonneg)
            (add_le_add (Finite.toRat_le_toRat.mpr (finite_le_finite.mp hxx))
              (Finite.toRat_le_toRat.mpr (finite_le_finite.mp hyy)))

end

section

variable {x : Binary f} (hx : Unsigned x) {n : ℕ} (hpos : 0 < n) (hn : Whole f n)

lemma toRat_whole (hn : Whole f n) : (⟨n * f.one, hn⟩ : Finite f).toRat = n := by
  rw [Finite.toRat, Nat.cast_mul, mul_div_cancel_right₀ _ f.one_ne_zero]

lemma finite_add_ofNat (v : Finite f) (hn : Whole f n) :
    finite false v + ofNat f n = round f (v.toRat + n) := by
  rw [ofNat_eq hn, finite_add, toRat_whole]

lemma Unsigned.add_ofNat_zero {x : Binary f} (hx : Unsigned x) : x + ofNat f 0 = x := by
  cases hx with
  | ofInfinity => exact infinity_add (unsigned_ofNat f 0)
  | ofFinite v =>
    rw [finite_add_ofNat v (whole_of_le (Nat.zero_le _)), Nat.cast_zero, add_zero, round_toRat]

lemma finite_div_ofNat (v : Finite f) (hpos : 0 < n) (hn : Whole f n) :
    finite false v / ofNat f n = round f (v.toRat / n) := by
  rw [ofNat_eq hn, finite_div v (Nat.mul_pos hpos f.one_pos).ne', toRat_whole]

lemma infinity_mul_ofNat (hpos : 0 < n) (hn : Whole f n) : infinity false * ofNat f n = infinity false := by
  rw [ofNat_eq hn]
  exact if_neg (Nat.mul_pos hpos f.one_pos).ne'

lemma finite_mul_ofNat (v : Finite f) (hn : Whole f n) :
    finite false v * ofNat f n = round f (v.toRat * n) := by
  rw [ofNat_eq hn, finite_mul, toRat_whole]

include hx hpos hn

lemma Unsigned.mul_ofNat : Unsigned (x * ofNat f n) := by
  cases hx with
  | ofInfinity =>
    rw [infinity_mul_ofNat hpos hn]
    exact .ofInfinity
  | ofFinite v =>
    rw [finite_mul_ofNat v hn]
    exact unsigned_round (mul_nonneg v.toRat_nonneg (Nat.cast_nonneg n))

lemma le_mul_ofNat : x ≤ x * ofNat f n := by
  cases hx with
  | ofInfinity =>
    rw [infinity_mul_ofNat hpos hn]
    exact Unsigned.ofInfinity.le_refl
  | ofFinite v =>
    have hone : (1 : ℚ) ≤ n := by exact_mod_cast hpos
    rw [finite_mul_ofNat v hn, ← round_toRat]
    exact round_le_round v.toRat_nonneg (le_mul_of_one_le_right v.toRat_nonneg hone)

end

lemma Unsigned.isZero_of_one_le {x : Binary f} (hx : Unsigned x) (h : ofNat f 1 ≤ x) : x.isZero = false := by
  rw [ofNat_eq (whole_of_le f.one_lt_two_pow_precision.le)] at h
  cases hx with
  | ofInfinity => rfl
  | ofFinite v =>
    have hle : 1 * f.one ≤ v.quanta := finite_le_finite.mp h
    have hpos := f.one_pos
    exact beq_false_of_ne (by omega)

lemma Unsigned.ofNat_zero_le {x : Binary f} (hx : Unsigned x) : ofNat f 0 ≤ x := by
  cases hx with
  | ofInfinity => exact (unsigned_ofNat f 0).le_infinity
  | ofFinite v =>
    rw [← round_natCast, ← round_toRat, Nat.cast_zero]
    exact round_le_round le_rfl v.toRat_nonneg

lemma finite_div_infinity (v : Finite f) : finite false v / infinity false = zero := rfl

lemma unsigned_zero : Unsigned (zero : Binary f) := by
  rw [← ofNat_zero]
  exact unsigned_ofNat f 0

section

variable {d : Binary f} (hd : Unsigned d) (hne : d.isZero = false)

include hd hne

lemma unsigned_div (v : Finite f) : Unsigned (finite false v / d) := by
  cases hd with
  | ofInfinity => exact unsigned_zero
  | ofFinite w =>
    rw [finite_div v (by simpa [isZero] using hne)]
    exact unsigned_round (div_nonneg v.toRat_nonneg w.toRat_nonneg)

lemma div_mono {v w : Finite f} (h : v.quanta ≤ w.quanta) : finite false v / d ≤ finite false w / d := by
  cases hd with
  | ofInfinity => exact unsigned_zero.le_refl
  | ofFinite u =>
    have hu : u.quanta ≠ 0 := by simpa [isZero] using hne
    rw [finite_div v hu, finite_div w hu]
    exact round_le_round (div_nonneg v.toRat_nonneg u.toRat_nonneg)
      (div_le_div_of_nonneg_right (Finite.toRat_le_toRat.mpr h) u.toRat_nonneg)

lemma ofNat_zero_div : ofNat f 0 / d = ofNat f 0 := by
  have hzero : ofNat f 0 = finite false ⟨0 * f.one, whole_of_le (Nat.zero_le _)⟩ := ofNat_eq _
  cases hd with
  | ofInfinity => rw [hzero, finite_div_infinity, ← ofNat_zero, hzero]
  | ofFinite w =>
    rw [hzero, finite_div _ (by simpa [isZero] using hne), toRat_whole, Nat.cast_zero, zero_div,
      ← Nat.cast_zero, round_natCast, hzero]

lemma div_le_ofNat_one {v : Finite f} (h : finite false v ≤ d) : finite false v / d ≤ ofNat f 1 := by
  cases hd with
  | ofInfinity =>
    rw [finite_div_infinity, ← ofNat_zero]
    exact ofNat_le_ofNat (Nat.zero_le 1)
  | ofFinite w =>
    rw [finite_div v (by simpa [isZero] using hne), ← round_natCast, Nat.cast_one]
    exact round_le_round (div_nonneg v.toRat_nonneg w.toRat_nonneg)
      (div_le_one_of_le₀ (Finite.toRat_le_toRat.mpr (finite_le_finite.mp h)) w.toRat_nonneg)

end

lemma unsigned_ofRatio (f : Format) (num den : ℕ) : Unsigned (ofRatio f false num den) := by
  rw [ofRatio]
  split_ifs
  · exact .ofFinite _
  · exact .ofInfinity

lemma unsigned_ofDecimal (f : Format) (n : ℕ) (e : ℤ) : Unsigned (ofDecimal f false n e) := by
  rw [ofDecimal]
  split_ifs
  · exact unsigned_ofRatio f _ _
  · exact unsigned_ofRatio f _ _

lemma Unsigned.convert {x : Binary f} (hx : Unsigned x) (g : Format) : Unsigned (x.convert g) := by
  cases hx with
  | ofInfinity => exact .ofInfinity
  | ofFinite v => exact unsigned_ofRatio g _ _

lemma Unsigned.convert_self {x : Binary f} (hx : Unsigned x) : x.convert f = x := by
  cases hx with
  | ofInfinity => rfl
  | ofFinite v => exact Binary.convert_self false v

end SqlCast.Binary
