import SqlCast.Proofs.Binary.Exact

/-! Rounding a proper fraction before it is added to a whole number: the sum is rounded as it would
be from the exact fraction, except where the rounded fraction lands on a midpoint. -/

namespace SqlCast.Binary

variable {f : Format} {w : ℕ} {x : ℚ}

section

variable {q v c : ℕ}

lemma le_quantumExponent_add_one (f : Format) (hw : 0 < w) :
    f.quantumExponent + 1 ≤ f.precision + excessBits f (w * f.one) := by
  have hle : f.one ≤ w * f.one := Nat.le_mul_of_pos_left _ hw
  have hlt := hle.trans_lt (lt_two_pow_excessBits f (w * f.one))
  exact (Nat.pow_lt_pow_iff_right (by norm_num)).mp hlt

lemma exists_midpoint (hpos : 0 < w) (hw : w ≤ 2 ^ f.precision) (hv : Precise f v) (hc : Precise f c)
    (hlv : w * f.one ≤ v) (hlc : w * f.one ≤ c) (hsum : v + c ≤ 2 * ((w + 1) * f.one)) :
    ∃ m, Precise f m ∧ v + c = 2 * (w * f.one + m) := by
  have hexp := le_quantumExponent_add_one f hpos
  have hle := f.precision_le_quantumExponent
  obtain ⟨e, he⟩ := Nat.exists_eq_add_one_of_ne_zero
    (show excessBits f (w * f.one) ≠ 0 by omega)
  have hlow : 2 ^ (f.precision - 1 + (e + 1)) ≤ w * f.one := by
    rw [← he]
    exact two_pow_le_of_excessBits (by omega)
  obtain ⟨a, ha⟩ := (precise_whole hw).two_pow_dvd hlow
  obtain ⟨i, rfl⟩ := hv.two_pow_dvd (hlow.trans hlv)
  obtain ⟨j, rfl⟩ := hc.two_pow_dvd (hlow.trans hlc)
  rw [ha] at hlv hlc
  have hi : a ≤ i := Nat.le_of_mul_le_mul_left hlv (by positivity)
  have hj : a ≤ j := Nat.le_of_mul_le_mul_left hlc (by positivity)
  obtain ⟨k, rfl⟩ := Nat.exists_eq_add_of_le hi
  obtain ⟨l, rfl⟩ := Nat.exists_eq_add_of_le hj
  have hk : k + l ≤ 2 ^ f.precision := by
    have hmul : 2 ^ (e + 1) * (k + l) ≤ 2 * f.one := by
      rw [Nat.add_mul, ha] at hsum
      linarith
    have hone : 2 * f.one ≤ 2 ^ (e + 1) * 2 ^ f.precision := by
      rw [← pow_add, Format.one, Nat.pow_eq, ← pow_succ']
      exact Nat.pow_le_pow_right (by norm_num) (by omega)
    exact Nat.le_of_mul_le_mul_left (hmul.trans hone) (by positivity)
  refine ⟨(k + l) * 2 ^ e, precise_mul_two_pow hk e, ?_⟩
  rw [ha]
  ring

lemma Nearest.eq_midpoint {y : ℚ} {m : ℕ} (hq : Nearest f x q) (hv : Nearest f (y + q) v)
    (hc : Nearest f (y + x) c) (hm : Precise f m) (hsum : (v + c : ℚ) = 2 * (y + m)) (hne : v ≠ c) :
    q = m := by
  -- The sums fall on different sides of the midpoint, and rounding cannot carry a fraction past `m`.
  have hmid : Nearest f m m := Nearest.of_precise hm
  rcases Nat.lt_or_gt_of_ne hne with hlt | hlt
  · have hlt : (v : ℚ) < c := by exact_mod_cast hlt
    have hqm := (abs_sub_left_le_iff hlt).mp (hv.le c hc.precise)
    have hmx := (abs_sub_right_le_iff hlt).mp (hc.le v hv.precise)
    have hqm : (q : ℚ) ≤ m := by linarith
    exact le_antisymm (by exact_mod_cast hqm) (hmid.mono (by linarith) hq)
  · have hlt : (c : ℚ) < v := by exact_mod_cast hlt
    have hqm := (abs_sub_right_le_iff hlt).mp (hv.le c hc.precise)
    have hmx := (abs_sub_left_le_iff hlt).mp (hc.le v hv.precise)
    have hqm : (m : ℚ) ≤ q := by linarith
    exact le_antisymm (hq.mono (by linarith) hmid) (by exact_mod_cast hqm)

variable (hw : w < 2 ^ f.precision)

include hw

lemma Nearest.bounds (hx0 : 0 ≤ x) (hx1 : x ≤ f.one) (hv : Nearest f ((w * f.one : ℕ) + x) v) :
    w * f.one ≤ v ∧ v ≤ (w + 1) * f.one := by
  constructor
  · refine (Nearest.of_precise (precise_whole hw.le)).mono ?_ hv
    linarith
  · refine hv.mono ?_ (Nearest.of_precise (precise_whole hw))
    rw [Nat.succ_mul]
    push_cast
    linarith

lemma Nearest.ne_iff_tie (hx0 : 0 ≤ x) (hx1 : x ≤ f.one) (hq : Nearest f x q)
    (hv : Nearest f ((w * f.one : ℕ) + q) v) (hc : Nearest f ((w * f.one : ℕ) + x) c) :
    v ≠ c ↔ |((w * f.one : ℕ) + q : ℚ) - c| = |((w * f.one : ℕ) + q : ℚ) - v| ∧
      |((w * f.one : ℕ) + x : ℚ) - c| < |((w * f.one : ℕ) + x : ℚ) - v| := by
  constructor
  · intro hne
    have hq0 : (0 : ℚ) ≤ q := Nat.cast_nonneg q
    have hq1 : (q : ℚ) ≤ f.one := Nat.cast_le.mpr (hq.le_one hx1)
    have hpos : 0 < w := by
      rcases Nat.eq_zero_or_pos w with rfl | hpos
      · rw [Nat.zero_mul, Nat.cast_zero, zero_add] at hv hc
        exact absurd ((hv.unique (Nearest.of_precise hq.precise)).trans (hq.unique hc)) hne
      · exact hpos
    obtain ⟨hv0, hv1⟩ := Nearest.bounds hw hq0 hq1 hv
    obtain ⟨hc0, hc1⟩ := Nearest.bounds hw hx0 hx1 hc
    obtain ⟨m, hm, hsum⟩ := exists_midpoint hpos hw.le hv.precise hc.precise hv0 hc0 (by omega)
    have hsum : (v + c : ℚ) = 2 * ((w * f.one : ℕ) + m) := by exact_mod_cast hsum
    have hqm : q = m := hq.eq_midpoint hv hc hm hsum hne
    subst hqm
    constructor
    · refine abs_eq_abs.mpr (Or.inr ?_)
      linarith
    · refine lt_of_le_of_ne (hc.le v hv.precise) fun heq => hne ?_
      rcases abs_eq_abs.mp heq with h | h
      · have hcast : (v : ℚ) = c := by linarith
        exact_mod_cast hcast
      · obtain rfl : x = q := by linarith
        exact hv.unique hc
  · rintro ⟨-, hlt⟩ rfl
    exact lt_irrefl _ hlt

end

theorem Finite.ne_iff_tie {q v c : Finite f} (hw : w < 2 ^ f.precision) (hx0 : 0 ≤ x) (hx1 : x ≤ 1)
    (hq : Nearest f (x * f.one) q.quanta) (hv : Nearest f ((w + q.toRat) * f.one) v.quanta)
    (hc : Nearest f ((w + x) * f.one) c.quanta) :
    v ≠ c ↔ |w + q.toRat - c.toRat| = |w + q.toRat - v.toRat| ∧
      |w + x - c.toRat| < |w + x - v.toRat| := by
  have hone := f.cast_one_pos
  have hsum : ∀ y : ℚ, ((w * f.one : ℕ) : ℚ) + y * f.one = (w + y) * f.one := by
    intro y
    rw [Nat.cast_mul, add_mul]
  have hquanta : ((w * f.one : ℕ) : ℚ) + q.quanta = (w + q.toRat) * f.one := by
    rw [← q.toRat_mul_one, hsum]
  rw [Ne, Finite.eq_iff, ← Ne, Nearest.ne_iff_tie hw (mul_nonneg hx0 hone.le)
    (mul_le_of_le_one_left hone.le hx1) hq (hquanta ▸ hv) (hsum x ▸ hc), hquanta, hsum, c.abs_sub_toRat,
    v.abs_sub_toRat, c.abs_sub_toRat, v.abs_sub_toRat, mul_left_inj' hone.ne', mul_lt_mul_iff_left₀ hone]

end SqlCast.Binary
