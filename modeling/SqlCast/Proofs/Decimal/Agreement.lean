import SqlCast.Proofs.Decimal.Reading

/-! Two readings of one text: in two words, with digits cut off and rounded off, for a type and for
a wider one. Both fit the same mantissa and exponent. -/

namespace SqlCast.Decimal

open Text

section Fit

variable {t t' : Storage} {ty ty' : DecimalType} {m : Mantissa} {exponent : ℤ}

lemma fit_of_storage (hty : ty.fits t) (hty' : ty.fits t') (hm : m.WellFormed) (r : Rounding) :
    (fit t ty r m exponent).status = (fit t' ty r m exponent).status ∧
      ((fit t ty r m exponent).status ≠ .overflow →
        fit t ty r m exponent = fit t' ty r m exponent) := by
  rcases fit_cases r hty hm with ⟨hw, he⟩ | ⟨hw, hexcess, he⟩ | ⟨hw, hroom, hp, he⟩ |
    ⟨hw, hroom, hp, he⟩
  · rw [he, fit_of_wide r hw]
    exact ⟨rfl, fun ho => absurd rfl ho⟩
  · rw [he, fit_of_excess r hty' hm hw hexcess]
    exact ⟨rfl, fun _ => rfl⟩
  · rw [he, fit_of_room r hty' hm hp hw hroom]
    exact ⟨rfl, fun _ => rfl⟩
  · rw [he, fit_of_absent r hp hw hroom]
    exact ⟨rfl, fun _ => rfl⟩

lemma fit_halfUp (hty : ty.fits t) (hm : m.WellFormed) :
    fit t ty .halfUp m exponent = fit t ty .truncate m exponent ∨
      (fit t ty .truncate m exponent).status = .underflow ∧
        fit t ty .halfUp m exponent =
          ⟨(fit t ty .truncate m exponent).value + 1,
            if (fit t ty .truncate m exponent).value + 1 = 10 ^ ty.precision then .overflow
            else .underflow⟩ := by
  rcases fit_cases .truncate hty hm with ⟨hw, he⟩ | ⟨hw, hexcess, he⟩ | ⟨hw, hroom, hp, he⟩ |
    ⟨hw, hroom, hp, he⟩
  · rw [he, fit_of_wide .halfUp hw]
    exact Or.inl rfl
  · have hlt := Rounding.truncate_drop_lt_pow (unscaled_lt_of_not_wide hm hw)
    rw [he, if_neg hlt.ne, fit_of_excess .halfUp hty hm hw hexcess]
    rcases Rounding.halfUp_drop_eq_or (by omega : 0 < (m.scale exponent - ty.scale).toNat)
      m.unscaled with hd | hd
    · rw [hd, if_neg hlt.ne]
      exact Or.inl rfl
    · rw [hd]
      exact Or.inr ⟨rfl, rfl⟩
  · rw [he, fit_of_room .halfUp hty hm hp hw hroom]
    exact Or.inl rfl
  · rw [he, fit_of_absent .halfUp hp hw hroom]
    exact Or.inl rfl

lemma fit_of_wider (hty : ty.fits t) (hty' : ty'.fits t') (hm : m.WellFormed)
    (hscale : ty.scale ≤ ty'.scale) (hwhole : ty.wholeDigits ≤ ty'.wholeDigits) {r : Rounding}
    (hs : (fit t ty r m exponent).status = .success) (r' : Rounding) :
    fit t' ty' r' m exponent =
      ⟨(fit t ty r m exponent).value * 10 ^ (ty'.scale - ty.scale), .success⟩ := by
  obtain ⟨hw, hroom, hp⟩ := room_of_success r hty hm hs
  have hsp := ty.scale_le
  have hsp' := ty'.scale_le
  rw [DecimalType.wholeDigits, DecimalType.wholeDigits] at hwhole
  have hshift : (ty'.scale - m.scale exponent).toNat =
      (ty.scale - m.scale exponent).toNat + (ty'.scale - ty.scale) := by omega
  rw [fit_of_room r hty hm hp hw hroom, fit_of_room r' hty' hm hp (by omega) (by omega), hshift,
    pow_add, Nat.mul_assoc]

end Fit

variable {t t' : Storage} {precision scale precision' scale' : ℕ}

theorem read_independent_of_storage (h : t.Admits precision scale) (h' : t'.Admits precision scale)
    (r : Rounding) (s : Bytes) :
    (Decimal.read t precision scale r s).status = (Decimal.read t' precision scale r s).status ∧
      ((Decimal.read t precision scale r s).status ≠ .overflow →
        (Decimal.read t precision scale r s).value = (Decimal.read t' precision scale r s).value) := by
  rcases read_cases s with ⟨status, -, hread⟩ | ⟨negative, m, exponent, hm, hread⟩
  · rw [hread h, hread h']
    exact ⟨rfl, fun _ => rfl⟩
  · rw [hread h, hread h']
    obtain ⟨hstatus, hsame⟩ := fit_of_storage h.fits h'.fits hm r
    exact ⟨hstatus, fun hs => congrArg (fun o => signed negative o.value) (hsame hs)⟩

def farFraction : Bytes := [49, 50, 51, 52, 53, 54, 55, 56, 57, 101, 45, 50, 48]

theorem read_independent_farFraction :
    Storage.word32.powerOfTen? 18 = none ∧ Storage.word128.powerOfTen? 18 = some (10 ^ 18) ∧
      (Decimal.read .word32 9 2 .halfUp farFraction).status ≠ .overflow ∧
      (Decimal.read .word32 9 2 .halfUp farFraction).value =
        (Decimal.read .word128 9 2 .halfUp farFraction).value := by
  have hs : (Decimal.read .word32 9 2 .halfUp farFraction).status ≠ .overflow := by decide
  exact ⟨rfl, rfl, hs,
    (read_independent_of_storage (by decide) (by decide) .halfUp farFraction).2 hs⟩

lemma read_halfUp (t : Storage) (precision scale : ℕ) (s : Bytes) :
    Decimal.read t precision scale .halfUp s = Decimal.read t precision scale .truncate s ∨
      ∃ negative n, Decimal.read t precision scale .truncate s = ⟨signed negative n, .underflow⟩ ∧
        Decimal.read t precision scale .halfUp s =
          ⟨signed negative (n + 1), if n + 1 = 10 ^ precision then .overflow else .underflow⟩ := by
  by_cases h : t.Admits precision scale
  · rcases read_cases s with ⟨status, -, hread⟩ | ⟨negative, m, exponent, hm, hread⟩
    · exact Or.inl ((hread h .halfUp).trans (hread h .truncate).symm)
    · rw [hread h, hread h]
      rcases fit_halfUp h.fits hm with he | ⟨hs, he⟩
      · exact Or.inl (by rw [he])
      · exact Or.inr ⟨negative, _, by rw [hs], by rw [he]; rfl⟩
  · rw [read_of_not_admits h, read_of_not_admits h]
    exact Or.inl rfl

/-- Rounding off instead of cutting off never turns a sign around and adds at most one unit. It
changes the status only where that unit fills the precision. -/
theorem read_truncate_halfUp (t : Storage) (precision scale : ℕ) (s : Bytes) :
    let cut := Decimal.read t precision scale .truncate s
    let rounded := Decimal.read t precision scale .halfUp s
    (rounded.value.unscaled.natAbs = cut.value.unscaled.natAbs ∨
        rounded.value.unscaled.natAbs = cut.value.unscaled.natAbs + 1) ∧
      0 ≤ cut.value.unscaled * rounded.value.unscaled ∧
      (cut.status ≠ rounded.status ↔
        cut.status = .underflow ∧ rounded.value.unscaled.natAbs = 10 ^ precision) ∧
      (cut.status ≠ rounded.status →
        cut.value.unscaled.natAbs = 10 ^ precision - 1 ∧ rounded.status = .overflow) ∧
      (cut.status ≠ .underflow → cut.value = rounded.value) := by
  dsimp only
  rcases read_halfUp t precision scale s with he | ⟨negative, n, hcut, hrounded⟩
  · rw [he]
    refine ⟨Or.inl rfl, mul_self_nonneg _, iff_of_false (fun hne => hne rfl) ?_,
      fun hne => absurd rfl hne, fun _ => rfl⟩
    rintro ⟨hs, hp⟩
    exact (natAbs_read_lt (Or.inr hs)).ne hp
  · rw [hcut, hrounded]
    dsimp only
    rw [natAbs_signed, natAbs_signed]
    refine ⟨Or.inr rfl, signed_mul_nonneg negative n (n + 1), ?_⟩
    by_cases hp : n + 1 = 10 ^ precision
    · rw [if_pos hp]
      exact ⟨iff_of_true (by simp) ⟨rfl, hp⟩, fun _ => ⟨by omega, rfl⟩, fun hne => absurd rfl hne⟩
    · rw [if_neg hp]
      exact ⟨iff_of_false (by simp) fun h => hp h.2, fun hne => absurd rfl hne,
        fun hne => absurd rfl hne⟩

def shortOfHundred : Bytes := [45, 57, 57, 46, 57, 54]

theorem read_truncate_halfUp_carry :
    Decimal.read .word32 3 1 .truncate shortOfHundred = ⟨⟨-999⟩, .underflow⟩ ∧
      Decimal.read .word32 3 1 .halfUp shortOfHundred = ⟨⟨-1000⟩, .overflow⟩ ∧
      (Decimal.read .word32 3 1 .truncate shortOfHundred).value.unscaled.natAbs = 10 ^ 3 - 1 := by
  have hcut : Decimal.read .word32 3 1 .truncate shortOfHundred = ⟨⟨-999⟩, .underflow⟩ := by decide
  have hrounded : Decimal.read .word32 3 1 .halfUp shortOfHundred = ⟨⟨-1000⟩, .overflow⟩ := by decide
  have hne : (Decimal.read .word32 3 1 .truncate shortOfHundred).status ≠
      (Decimal.read .word32 3 1 .halfUp shortOfHundred).status := by
    rw [hcut, hrounded]
    simp
  exact ⟨hcut, hrounded, ((read_truncate_halfUp .word32 3 1 shortOfHundred).2.2.2.1 hne).1⟩

theorem read_widened (h : t.Admits precision scale) (h' : t'.Admits precision' scale')
    (hscale : scale ≤ scale') (hwhole : precision - scale ≤ precision' - scale') (r r' : Rounding)
    {s : Bytes} {x : Decimal} (hs : Decimal.read t precision scale r s = ⟨x, .success⟩) :
    Decimal.read t' precision' scale' r' s = ⟨⟨x.unscaled * 10 ^ (scale' - scale)⟩, .success⟩ := by
  rcases read_cases s with ⟨status, hne, hread⟩ | ⟨negative, m, exponent, hm, hread⟩
  · rw [hread h] at hs
    exact absurd (congrArg Outcome.status hs) hne
  · rw [hread h] at hs
    obtain ⟨rfl, hstatus⟩ := Outcome.mk.inj hs
    have hfit := fit_of_wider h.fits h'.fits hm hscale hwhole hstatus r'
    rw [hread h', hfit, signed_mul]
    push_cast
    rfl

theorem read_widened_longFraction :
    Decimal.read .word32 7 3 .truncate longFraction.text = ⟨⟨-1234567⟩, .success⟩ ∧
      Decimal.read .word128 20 5 .halfUp longFraction.text =
        ⟨⟨-1234567 * 10 ^ (5 - 3)⟩, .success⟩ := by
  have hs : Decimal.read .word32 7 3 .truncate longFraction.text = ⟨⟨-1234567⟩, .success⟩ := by
    decide
  exact ⟨hs, read_widened (by decide) (by decide) (by decide) (by decide) .truncate .halfUp hs⟩

end SqlCast.Decimal
