import SqlCast.Decimal.Checked
import SqlCast.Proofs.Decimal.Fitting
import SqlCast.Proofs.Text.Resuming

/-! The checked reader on the digits of a text: after each byte it knows what the digits so far
determine, and no step on the way is a fault. -/

namespace SqlCast.Decimal

open Text

lemma Storage.contains_of_natAbs_le {t : Storage} {n : ℤ} (h : (n.natAbs : ℤ) ≤ t.max) :
    t.contains n = true := by
  have hmin : t.min = -t.max - 1 := by
    rw [Storage.min, Storage.max]
    ring
  simp only [Storage.contains, Bool.and_eq_true, decide_eq_true_eq]
  omega

section Keeping

variable {ty : DecimalType} {m : Mantissa} {d : ℕ} (r : Rounding)

lemma keptValue_push_of_lt (hs : (m.push d).significant = m.significant ++ [d])
    (h : m.significant.length < ty.precision) :
    keptValue ty (m.push d) = keptValue ty m * 10 + d := by
  rw [keptValue, hs, List.take_of_length_le (by simpa using h), keptValue,
    List.take_of_length_le h.le]
  exact ofDigits_append_singleton 10 _ d

lemma keptValue_push_of_le (hs : (m.push d).significant = m.significant ++ [d])
    (h : ty.precision ≤ m.significant.length) :
    keptValue ty (m.push d) = keptValue ty m := by
  rw [keptValue, hs, List.take_append_of_le_length h, keptValue]

lemma firstDropped_push (hs : (m.push d).significant = m.significant ++ [d]) :
    firstDropped ty r (m.push d) =
      if r = .halfUp ∧ m.significant.length = ty.precision then d else firstDropped ty r m := by
  cases r with
  | truncate => simp [firstDropped]
  | halfUp =>
    rcases lt_trichotomy m.significant.length ty.precision with h | h | h
    · simp [firstDropped, hs, h.ne, h.le, List.getElem?_eq_none, Nat.succ_le_of_lt h]
    · simp [firstDropped, hs, h]
    · simp [firstDropped, hs, h.ne', List.getElem?_append_left h]

end Keeping

namespace Checked

lemma ok_bind {α β : Type} (a : α) (f : α → Except Fault β) : (Except.ok a >>= f) = f a := rfl

lemma word_eq {t : Storage} {n : ℤ} (h : (n.natAbs : ℤ) ≤ t.max) : word t n = .ok n :=
  if_pos (Storage.contains_of_natAbs_le h)

lemma word_natCast {t : Storage} {n : ℕ} (h : (n : ℤ) ≤ t.max) : word t n = .ok (n : ℤ) :=
  word_eq h

lemma counter_eq {n : ℤ} (hl : -2 ^ 31 ≤ n) (hu : n < 2 ^ 31) : counter n = .ok n := by
  have hlimit : (counterLimit : ℤ) = 2 ^ 31 := by norm_num [counterLimit]
  rw [← hlimit] at hl hu
  exact if_pos ⟨hl, hu⟩

lemma counter_natCast {n : ℕ} (h : n < 2 ^ 31) : counter n = .ok (n : ℤ) :=
  counter_eq (by omega) (by omega)

lemma counter_sub {a b : ℕ} (h : b ≤ a) (ha : a < 2 ^ 31) :
    counter ((a : ℤ) - b) = .ok ((a - b : ℕ) : ℤ) := by
  rw [← Nat.cast_sub h]
  exact counter_natCast (by omega)

lemma assert_eq {holds : Prop} [Decidable holds] (h : holds) : assert holds = .ok () :=
  if_pos (decide_eq_true h)

namespace Progress

variable {t : Storage} {ty : DecimalType} (r : Rounding) {m : Mantissa} {d : ℕ}

def after (ty : DecimalType) (r : Rounding) (m : Mantissa) : Progress where
  value := keptValue ty m
  total := m.significant.length
  afterDot := m.fraction.length
  firstDropped := Decimal.firstDropped ty r m
  hasDigit := m.hasDigit
  dotted := m.dotted

@[simp] lemma value_after : (after ty r m).value = keptValue ty m := rfl
@[simp] lemma total_after : (after ty r m).total = m.significant.length := rfl
@[simp] lemma afterDot_after : (after ty r m).afterDot = m.fraction.length := rfl
@[simp] lemma firstDropped_after :
    (after ty r m).firstDropped = Decimal.firstDropped ty r m := rfl
@[simp] lemma hasDigit_after : (after ty r m).hasDigit = m.hasDigit := rfl
@[simp] lemma dotted_after : (after ty r m).dotted = m.dotted := rfl

lemma start_eq_after (ty : DecimalType) : start = after ty r Mantissa.empty := by
  cases r <;> simp [start, after, keptValue, Decimal.firstDropped, Mantissa.significant,
    Mantissa.digits, Mantissa.hasDigit, Mantissa.empty]

lemma keep_after (hty : ty.fits t) (hm : m.WellFormed) (hd : d < 10)
    (hs : m.significant ≠ [] ∨ d ≠ 0) :
    (after ty r m).keep t ty r d =
      .ok { after ty r m with
        value := keptValue ty (m.push d)
        firstDropped := Decimal.firstDropped ty r (m.push d) } := by
  have hpush := Mantissa.significant_push hm hs
  have hfirst : Decimal.firstDropped ty r (m.push d) = _ := firstDropped_push r hpush
  rw [keep, total_after, value_after]
  by_cases hlt : m.significant.length < ty.precision
  · have hkept : keptValue ty (m.push d) = keptValue ty m * 10 + d := keptValue_push_of_lt hpush hlt
    have hmax : ((keptValue ty m * 10 + d : ℕ) : ℤ) ≤ t.max := by
      rw [← hkept]
      exact natCast_le_max hty (keptValue_lt (hm.push hd)).le
    have hle : ((keptValue ty m * 10 : ℕ) : ℤ) ≤ t.max := by omega
    have hshift : word t ((keptValue ty m : ℤ) * Storage.ten) =
        .ok ((keptValue ty m * 10 : ℕ) : ℤ) := word_natCast hle
    have hadd : word t (((keptValue ty m * 10 : ℕ) : ℤ) + d) =
        .ok ((keptValue ty m * 10 + d : ℕ) : ℤ) := word_natCast hmax
    rw [if_pos (Nat.cast_lt.mpr hlt), hshift, ok_bind, hadd, ok_bind, hkept, hfirst,
      if_neg fun h => hlt.ne h.2]
    rfl
  · have hkept : keptValue ty (m.push d) = keptValue ty m :=
      keptValue_push_of_le hpush (not_lt.mp hlt)
    rw [if_neg (Nat.cast_lt.not.mpr hlt)]
    simp only [hkept, hfirst, Nat.cast_inj]
    split <;> rfl

lemma countPlace_eq {p : Progress} (hplace : p.afterDot = m.fraction.length)
    (hdot : p.dotted = m.dotted) (hl : m.digits.length + 1 < 2 ^ 31) (d : ℕ) :
    p.countPlace = .ok { p with afterDot := (m.push d).fraction.length, hasDigit := true } := by
  have hf := Mantissa.length_fraction_le_digits m
  have hcount : counter (p.afterDot + if p.dotted then 1 else 0) =
      .ok ((m.push d).fraction.length : ℤ) := by
    rw [hplace, hdot, Mantissa.length_fraction_push, Nat.cast_add, Nat.cast_ite, Nat.cast_one,
      Nat.cast_zero]
    apply counter_eq <;> split <;> omega
  rw [countPlace, hcount, ok_bind]
  rfl

lemma hasDigit_push (hm : m.WellFormed) (d : ℕ) : (m.push d).hasDigit = true := by
  simp [Mantissa.hasDigit, Mantissa.digits_push hm]

lemma takeDigit_after (hty : ty.fits t) (hm : m.WellFormed) (hd : d < 10)
    (hs : m.significant ≠ [] ∨ d ≠ 0) (hl : m.digits.length + 1 < 2 ^ 31) :
    (after ty r m).takeDigit t ty r d = .ok (after ty r (m.push d)) := by
  have hsig := Mantissa.length_significant_le_digits m
  have htotal : counter ((after ty r m).total + 1) = .ok ((m.push d).significant.length : ℤ) := by
    rw [Mantissa.significant_push hm hs, List.length_append, List.length_singleton, Nat.cast_succ]
    change counter ((m.significant.length : ℤ) + 1) = _
    apply counter_eq <;> omega
  rw [takeDigit, keep_after r hty hm hd hs, ok_bind]
  dsimp only
  rw [htotal, ok_bind, countPlace_eq (m := m) rfl rfl hl d]
  simp [after, hasDigit_push hm]

lemma countPlace_after (hm : m.WellFormed) (hs : m.significant = [])
    (hl : m.digits.length + 1 < 2 ^ 31) :
    (after ty r m).countPlace = .ok (after ty r (m.push 0)) := by
  have hpush : (m.push 0).significant = m.significant :=
    (Mantissa.significant_push_zero hm hs).trans hs.symm
  rw [countPlace_eq (m := m) rfl rfl hl 0]
  simp [after, hasDigit_push hm, keptValue, Decimal.firstDropped, hpush]

section Text

variable {text s : Bytes} (ty) (hl : text.length < 2 ^ 31)

include hl

lemma skipZeros_after (h : m.Reached text s) (hs : m.significant = []) :
    ∃ m' s', (after ty r m).skipZeros s = .ok (after ty r m', s') ∧ m'.Reached text s' ∧
      m'.significant = [] ∧ m'.dotted = m.dotted ∧ ∀ c ∈ s'.head?, c ≠ 48 := by
  induction s generalizing m with
  | nil => exact ⟨m, [], rfl, h, hs, rfl, by simp⟩
  | cons c s ih =>
    by_cases hc : c = 48
    · subst hc
      have hlen := h.length_digits_lt
      obtain ⟨m', s', hskip, hreach, hs', hdot, hhead⟩ :=
        ih (h.digit rfl) (Mantissa.significant_push_zero h.wellFormed hs)
      refine ⟨m', s', ?_, hreach, hs', hdot.trans Mantissa.dotted_push, hhead⟩
      rw [skipZeros, if_pos rfl, countPlace_after r h.wellFormed hs (by omega), ok_bind]
      exact hskip
    · exact ⟨m, c :: s, if_neg hc, h, hs, rfl, by simpa using hc⟩

lemma skipLeading_after :
    ∃ m s, skipLeading text = .ok (after ty r m, s) ∧ m.Reached text s ∧
      ∀ c ∈ s.head?, c ≠ 48 ∧ (c = 46 → m.dotted = true) := by
  obtain ⟨m, s, hskip, hreach, hs, hdot, hhead⟩ :=
    skipZeros_after ty r hl (Mantissa.Reached.start text) rfl
  rw [skipLeading, start_eq_after r ty, hskip, ok_bind]
  dsimp only
  split
  · obtain ⟨m', s', hskip', hreach', -, hdot', hhead'⟩ :=
      skipZeros_after ty r hl (hreach.dot hdot) hs
    exact ⟨m', s', hskip', hreach', fun c hc => ⟨hhead' c hc, fun _ => hdot'⟩⟩
  · rename_i hne
    refine ⟨m, s, rfl, hreach, fun c hc => ⟨hhead c hc, ?_⟩⟩
    rintro rfl
    obtain ⟨s', rfl⟩ := List.head?_eq_some_iff.mp hc
    exact absurd rfl (hne s')

variable {ty}

lemma takeDigits_after (hty : ty.fits t) (h : m.Reached text s)
    (hlead : m.significant = [] → ∀ c ∈ s.head?, c ≠ 48 ∧ (c = 46 → m.dotted = true)) :
    (after ty r m).takeDigits t ty r s =
      .ok (after ty r (Mantissa.scan text).1, (Mantissa.scan text).2) := by
  induction s generalizing m with
  | nil =>
    rw [← h.resume_eq]
    rfl
  | cons c s ih =>
    have hlen := h.length_digits_lt
    by_cases hc : isDigit c = true
    · have hs : m.significant ≠ [] ∨ digitValue c ≠ 0 := by
        by_contra hzero
        obtain ⟨hs, hz⟩ := not_or.mp hzero
        apply (hlead (not_not.mp hs) c rfl).1
        rw [← digitByte_digitValue hc, not_not.mp hz]
        rfl
      have hne : (m.push (digitValue c)).significant ≠ [] := by
        simp [Mantissa.significant_push h.wellFormed hs]
      rw [takeDigits, if_pos hc,
        takeDigit_after r hty h.wellFormed (of_decide_eq_true hc) hs (by omega), ok_bind]
      exact ih (h.digit hc) fun hnil => absurd hnil hne
    · by_cases hdot : c = 46 ∧ m.dotted = false
      · obtain ⟨rfl, hdot⟩ := hdot
        have hne : m.point.significant ≠ [] := fun hnil => by
          simpa [hdot] using (hlead hnil 46 rfl).2
        rw [takeDigits, if_neg hc, if_pos ⟨rfl, hdot⟩]
        exact ih (h.dot hdot) fun hnil => absurd hnil hne
      · have hstop : m.resume (c :: s) = (m, c :: s) := (if_neg hc).trans (if_neg hdot)
        rw [← h.resume_eq, hstop]
        exact (if_neg hc).trans (if_neg hdot)

lemma scan_eq (hty : ty.fits t) :
    Progress.scan t ty r text =
      .ok (after ty r (Mantissa.scan text).1, (Mantissa.scan text).2) := by
  obtain ⟨m, s, hskip, hreach, hlead⟩ := skipLeading_after ty r hl
  rw [Progress.scan, hskip, ok_bind]
  exact takeDigits_after r hl hty hreach fun _ => hlead

end Text

end Progress

end Checked

end SqlCast.Decimal
