import SqlCast.Integer.Radix
import SqlCast.Proofs.Integer.Saturation

namespace SqlCast

namespace Text

variable {c : UInt8}

lemma not_digitOf_of_blank {base : ℕ} (hb : base ≤ 36) (hc : isBlank c = true) :
    isDigitOf base c = false := by
  rw [isDigitOf, digitValue_of_blank hc]
  exact decide_eq_false (not_lt.mpr hb)

def Alphanumeric (c : UInt8) : Prop := 48 ≤ c ∧ c ≤ 57 ∨ 65 ≤ c ∧ c ≤ 90 ∨ 97 ≤ c ∧ c ≤ 122

instance (c : UInt8) : Decidable (Alphanumeric c) := inferInstanceAs (Decidable (_ ∨ _))

lemma isAlphanumeric_iff : isAlphanumeric c = true ↔ Alphanumeric c := by
  rw [isAlphanumeric, isDigitOf, decide_eq_true_iff]
  simp only [digitValue, Alphanumeric, UInt8.le_iff_toNat_le, Bool.and_eq_true, decide_eq_true_eq,
    UInt8.reduceToNat]
  split_ifs <;> omega

end Text

namespace Integer.Radix

open Text

def Ends (rest : Bytes) : Prop :=
  rest = [] ∨ (∃ c ∈ rest.head?, Alphanumeric c) ∨ ∀ c ∈ rest, isBlank c = true

lemma mayFollow_iff (rest : Bytes) : mayFollow rest = true ↔ Ends rest := by
  cases rest with
  | nil => simp [mayFollow, Ends]
  | cons c s => simp [mayFollow, Ends, isAlphanumeric_iff, allBlank]

instance (rest : Bytes) : Decidable (Ends rest) := decidable_of_iff _ (mayFollow_iff rest)

variable (w : Width) {base : ℕ}

lemma readUnpadded_of_not_base (hb : ¬(2 ≤ base ∧ base ≤ 36)) (s : Bytes) :
    readUnpadded w base s = ⟨0, .failure⟩ := by
  have hbase : isBase base = false := by simpa [isBase] using hb
  simp only [readUnpadded, hbase, Bool.not_false, if_true]

lemma read_of_not_base (hb : ¬(2 ≤ base ∧ base ≤ 36)) (s : Bytes) :
    read w base s = ⟨0, .failure⟩ := by
  simp only [read, Outcome.retrying, readUnpadded_of_not_base w hb, ite_self]

def capped (base : ℕ) (negative : Bool) (body : Bytes) : Outcome w.Value :=
  let run := body.takeWhile (isDigitOf base)
  if run = [] then ⟨0, .failure⟩
  else if w.limit negative < valueOf base run then ⟨w.bound negative, .overflow⟩
  else if Ends (body.dropWhile (isDigitOf base)) then
    ⟨w.ofMagnitude (valueOf base run) negative, .success⟩
  else ⟨0, .failure⟩

section

variable (hb : 2 ≤ base ∧ base ≤ 36)

include hb

lemma readUnpadded_eq_capped (s : Bytes) :
    readUnpadded w base s = capped w base (splitSign s).1 (splitSign s).2 := by
  have hbase : isBase base = true := by simpa [isBase] using hb
  simp only [readUnpadded, capped, hbase, accumulate?_digits w _ _ hb, ← mayFollow_iff]
  by_cases hover : w.limit (splitSign s).1 <
      valueOf base ((splitSign s).2.takeWhile (isDigitOf base))
  · have hrun : (splitSign s).2.takeWhile (isDigitOf base) ≠ [] := by
      intro hrun
      simp [hrun, valueOf] at hover
    rw [if_neg (Nat.not_le.mpr hover), if_neg hrun, if_pos hover]
    rfl
  · rw [if_pos (Nat.not_lt.mp hover), if_neg hover]
    by_cases hrun : (splitSign s).2.takeWhile (isDigitOf base) = []
    · simp [hrun]
    · cases mayFollow ((splitSign s).2.dropWhile (isDigitOf base)) <;> simp [hrun]

lemma readUnpadded_of_blank {c : UInt8} (hc : isBlank c = true) (s : Bytes) :
    readUnpadded w base (c :: s) = ⟨0, .failure⟩ := by
  have hrun : (splitSign (c :: s)).2.takeWhile (isDigitOf base) = [] := by
    rw [splitSign_of_blank hc]
    exact List.takeWhile_cons_of_neg (by simp [not_digitOf_of_blank hb.2 hc])
  rw [readUnpadded_eq_capped w hb, capped, if_pos hrun]

lemma read_eq (s : Bytes) : read w base s = readUnpadded w base (dropBlanks s) := by
  refine Outcome.retrying_eq ?_ s
  intro c s hc
  rw [readUnpadded_of_blank w hb hc]
  simp

end

lemma toInt_capped (base : ℕ) (negative : Bool) (body : Bytes) :
    let run := body.takeWhile (isDigitOf base)
    let n : ℤ := if negative then -(valueOf base run : ℤ) else valueOf base run
    (⟨(capped w base negative body).value.toInt, (capped w base negative body).status⟩ : Outcome ℤ) =
      if run = [] then ⟨0, .failure⟩
      else if n < w.least then ⟨w.least, .overflow⟩
      else if w.greatest < n then ⟨w.greatest, .overflow⟩
      else if Ends (body.dropWhile (isDigitOf base)) then ⟨n, .success⟩
      else ⟨0, .failure⟩ := by
  intro run n
  have hzero : (0 : w.Value).toInt = 0 := BitVec.toInt_zero
  simp only [capped, n, w.ite_signed]
  by_cases hrun : run = []
  · simp only [if_pos hrun, run, hzero]
  · by_cases hover : w.limit negative < valueOf base run
    · simp only [if_neg hrun, if_pos hover, run, Width.toInt_bound]
      cases negative <;> rfl
    · have hn := w.toInt_ofMagnitude negative (not_lt.mp hover)
      by_cases hends : Ends (body.dropWhile (isDigitOf base))
      · simp only [if_neg hrun, if_neg hover, if_pos hends, run, hn]
      · simp only [if_neg hrun, if_neg hover, if_neg hends, run, hzero]

theorem read_base_exact_or_saturating (base : ℕ) (s : Bytes) :
    let negative := (splitSign (dropBlanks s)).1
    let body := (splitSign (dropBlanks s)).2
    let run := body.takeWhile (isDigitOf base)
    let n : ℤ := if negative then -(valueOf base run : ℤ) else valueOf base run
    (⟨(read w base s).value.toInt, (read w base s).status⟩ : Outcome ℤ) =
      if ¬(2 ≤ base ∧ base ≤ 36) then ⟨0, .failure⟩
      else if run = [] then ⟨0, .failure⟩
      else if n < -2 ^ (w.bits - 1) then ⟨-2 ^ (w.bits - 1), .overflow⟩
      else if 2 ^ (w.bits - 1) - 1 < n then ⟨2 ^ (w.bits - 1) - 1, .overflow⟩
      else if Ends (body.dropWhile (isDigitOf base)) then ⟨n, .success⟩
      else ⟨0, .failure⟩ := by
  intro negative body run n
  by_cases hb : 2 ≤ base ∧ base ≤ 36
  · rw [if_neg (not_not.mpr hb), read_eq w hb, readUnpadded_eq_capped w hb, toInt_capped]
    simp only [← w.least_eq, ← w.greatest_eq]
    rfl
  · rw [if_pos hb, read_of_not_base w hb]
    simp

end Integer.Radix

end SqlCast
