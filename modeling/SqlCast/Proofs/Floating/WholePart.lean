import SqlCast.Proofs.Binary.Whole
import SqlCast.Proofs.Floating.Accumulation

namespace SqlCast.Floating.Plain

open Text Binary

def wholeNumber (n : ℕ) : Binary .double := wholeOf (digitsOf 10 n)

lemma unsigned_wholeOf (ds : List ℕ) : Unsigned (wholeOf ds) := by
  induction ds using List.reverseRecOn with
  | nil =>
    rw [wholeOf_nil]
    exact unsigned_zero
  | append_singleton ds d ih =>
    rw [wholeOf_append_singleton]
    exact (ih.mul_ofNat (by norm_num) whole_ten).add (unsigned_ofNat _ d)

lemma wholeNumber_eq {n : ℕ} (h : n ≤ 2 ^ Format.double.precision) : wholeNumber n = .ofNat .double n := by
  have hdigits := ofDigits_digitsOf 10 n
  rw [wholeNumber, wholeOf_eq (hdigits.le.trans h), hdigits]

lemma wholeNumber_step (p : ℕ) {d : ℕ} (hd : d < 10) :
    wholeNumber (p * 10 + d) = wholeNumber p * .ofNat .double 10 + .ofNat .double d := by
  rcases Nat.eq_zero_or_pos p with rfl | hp
  · have hzero : Whole .double 0 := whole_of_le (Nat.zero_le _)
    have hdigit : Whole .double d := whole_of_lt (by omega)
    rw [Nat.zero_mul, Nat.zero_add, wholeNumber_eq (hd.le.trans (by decide)), wholeNumber_eq (Nat.zero_le _),
      ofNat_mul hzero whole_ten, Nat.zero_mul, ofNat_add hzero hdigit, Nat.zero_add]
  · rw [wholeNumber, digitsOf_mul_add (by norm_num) hp hd, wholeOf_append_singleton, wholeNumber]

lemma wholeOf_eq_wholeNumber {ds : List ℕ} (h : ∀ d ∈ ds, d < 10) :
    wholeOf ds = wholeNumber (ofDigits 10 ds) := by
  induction ds using List.reverseRecOn with
  | nil => rw [wholeOf_nil, ofDigits_nil, wholeNumber_eq (Nat.zero_le _), ofNat_zero]
  | append_singleton ds d ih =>
    rw [wholeOf_append_singleton, ih fun c hc => h c (List.mem_append_left _ hc),
      ofDigits_append_singleton,
      wholeNumber_step _ (h d (List.mem_append_right _ List.mem_cons_self))]

lemma unsigned_wholeNumber (n : ℕ) : Unsigned (wholeNumber n) := unsigned_wholeOf _

section Monotone

variable {n : ℕ}

lemma ofNat_add_nine_le_of {j : ℕ} (hj : 53 + j ≤ 1023) (hlow : 2 ^ (52 + j) ≤ n) (hlt : n < 2 ^ (53 + j))
    (h : roundHalfEven n (2 ^ j) * 2 ^ j ≤ n + 1 ∨
      roundHalfEven n (2 ^ j) * 2 ^ j + 9 < 2 ^ (53 + j) ∧ n + 10 < 2 ^ (53 + j) ∧
        roundHalfEven (roundHalfEven n (2 ^ j) * 2 ^ j + 9) (2 ^ j) ≤ roundHalfEven (n + 10) (2 ^ j)) :
    Binary.ofNat .double n + .ofNat .double 9 ≤ .ofNat .double (n + 10) := by
  obtain ⟨c, hc⟩ : ∃ c, c = roundHalfEven n (2 ^ j) * 2 ^ j := ⟨_, rfl⟩
  have hwhole : Whole .double c := by
    rw [hc]
    exact whole_rounded (f := .double) hlt hj
  have hround : Binary.ofNat .double n = .ofNat .double c := by
    rw [hc]
    exact ofNat_eq_rounded (f := .double) hlt hlow
  rw [← hc] at h
  rw [hround, ofNat_add hwhole (whole_of_lt (by norm_num))]
  rcases le_or_gt c (n + 1) with hle | hgt
  · exact ofNat_le_ofNat (by omega)
  · obtain ⟨hc9, hn10, hle⟩ := h.resolve_left (not_le.mpr hgt)
    rw [ofNat_eq_rounded (f := .double) hc9 (hlow.trans (by omega)),
      ofNat_eq_rounded (f := .double) hn10 (hlow.trans (by omega))]
    exact ofNat_le_ofNat (Nat.mul_le_mul_right _ hle)

lemma ofNat_add_nine_le (hten : n % 10 = 0) (hlt : n + 10 < 2 ^ 56) :
    Binary.ofNat .double n + .ofNat .double 9 ≤ .ofNat .double (n + 10) := by
  rcases lt_or_ge n (2 ^ 53) with h53 | h53
  · rw [ofNat_add (whole_of_le h53.le) (whole_of_lt (by norm_num))]
    exact ofNat_le_ofNat (by omega)
  rcases lt_or_ge n (2 ^ 54) with h54 | h54
  · have hbounds := roundHalfEven_bounds n (by norm_num : 0 < 2 ^ 1)
    exact ofNat_add_nine_le_of (j := 1) (by norm_num) h53 h54 (Or.inl (by omega))
  rcases lt_or_ge n (2 ^ 55) with h55 | h55
  · have hbounds := roundHalfEven_bounds n (by norm_num : 0 < 2 ^ 2)
    refine ofNat_add_nine_le_of (j := 2) (by norm_num) h54 h55 (or_iff_not_imp_left.mpr fun hup => ?_)
    have hsum := roundHalfEven_bounds (roundHalfEven n (2 ^ 2) * 2 ^ 2 + 9) (by norm_num : 0 < 2 ^ 2)
    have hten' := roundHalfEven_bounds (n + 10) (by norm_num : 0 < 2 ^ 2)
    omega
  · have hbounds := roundHalfEven_bounds n (by norm_num : 0 < 2 ^ 3)
    refine ofNat_add_nine_le_of (j := 3) (by norm_num) h55 (by omega)
      (or_iff_not_imp_left.mpr fun hup => ?_)
    have hsum := roundHalfEven_bounds (roundHalfEven n (2 ^ 3) * 2 ^ 3 + 9) (by norm_num : 0 < 2 ^ 3)
    have hten' := roundHalfEven_bounds (n + 10) (by norm_num : 0 < 2 ^ 3)
    omega

lemma wholeNumber_le_succ (h : n + 1 < 2 ^ 56) : wholeNumber n ≤ wholeNumber (n + 1) := by
  obtain ⟨p, d, hd, rfl⟩ : ∃ p d, d < 10 ∧ n = p * 10 + d := ⟨n / 10, n % 10, by omega, by omega⟩
  have hp : p + 1 ≤ 2 ^ Format.double.precision := by
    have hle : p + 1 ≤ 2 ^ 53 := by omega
    exact hle
  have hproduct : ∀ q ≤ p + 1, wholeNumber q * .ofNat .double 10 = .ofNat .double (q * 10) := fun q hq => by
    rw [wholeNumber_eq (hq.trans hp), ofNat_mul (whole_of_le (hq.trans hp)) whole_ten]
  rcases Nat.lt_or_ge d 9 with hlt | hge
  · rw [add_assoc, wholeNumber_step p hd, wholeNumber_step p (by omega : d + 1 < 10)]
    have hmul := (unsigned_wholeNumber p).mul_ofNat (by norm_num) whole_ten
    exact add_mono hmul hmul (unsigned_ofNat _ _) (unsigned_ofNat _ _) hmul.le_refl
      (ofNat_le_ofNat (Nat.le_succ d))
  · obtain rfl : d = 9 := by omega
    rw [show p * 10 + 9 + 1 = (p + 1) * 10 + 0 by ring, wholeNumber_step p hd,
      wholeNumber_step (p + 1) (by norm_num), hproduct p (Nat.le_succ p), hproduct (p + 1) le_rfl,
      (unsigned_ofNat _ _).add_ofNat_zero, Nat.succ_mul]
    exact ofNat_add_nine_le (by omega) (by omega)

lemma wholeNumber_mono {m : ℕ} (hle : m ≤ n) (hlt : n < 2 ^ 56) : wholeNumber m ≤ wholeNumber n := by
  induction n, hle using Nat.le_induction with
  | base => exact (unsigned_wholeNumber m).le_refl
  | succ n _ ih => exact Le.trans (ih (by omega)) (wholeNumber_le_succ hlt)

end Monotone

end SqlCast.Floating.Plain
