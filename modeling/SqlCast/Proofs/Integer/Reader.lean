import Mathlib.Data.List.TakeWhile
import SqlCast.Integer.Reader
import SqlCast.Proofs.Integer.Accumulation
import SqlCast.Proofs.Integer.Width

namespace SqlCast.Integer

open Text

def capped (w : Width) (negative : Bool) (body : Bytes) : Outcome w.Value :=
  let run := body.takeWhile isDigit
  if run.isEmpty then ⟨0, .failure⟩
  else if w.limit negative < valueOf 10 run then ⟨w.bound negative, .overflow⟩
  else if allBlank (body.dropWhile isDigit) then ⟨w.ofMagnitude (valueOf 10 run) negative, .success⟩
  else ⟨0, .failure⟩

variable (w : Width) (negative : Bool) (body : Bytes)

lemma accumulate?_digits {base : ℕ} (hb : 2 ≤ base ∧ base ≤ 36) :
    accumulate? (w.limit negative) base ((body.takeWhile (isDigitOf base)).map digitValue) =
      if valueOf base (body.takeWhile (isDigitOf base)) ≤ w.limit negative then
        some (valueOf base (body.takeWhile (isDigitOf base))) else none :=
  accumulate?_eq (by omega) (le_trans (by omega) (w.le_limit negative))
    (digitValue_lt_of_mem_run base body)

lemma accumulate?_run :
    accumulate? (w.limit negative) 10 ((body.takeWhile isDigit).map digitValue) =
      if valueOf 10 (body.takeWhile isDigit) ≤ w.limit negative then
        some (valueOf 10 (body.takeWhile isDigit)) else none :=
  accumulate?_digits w negative body (by norm_num)

lemma readChecked_eq_capped : readChecked w negative body = capped w negative body := by
  simp only [readChecked, capped, accumulate?_run]
  by_cases hover : w.limit negative < valueOf 10 (body.takeWhile isDigit)
  · have hrun : (body.takeWhile isDigit).isEmpty = false := by
      by_contra hempty
      rw [Bool.not_eq_false, List.isEmpty_iff] at hempty
      simp [hempty, valueOf] at hover
    rw [if_neg (Nat.not_le.mpr hover), if_pos hover, hrun]
    rfl
  · rw [if_pos (Nat.not_lt.mp hover), if_neg hover]
    cases (body.takeWhile isDigit).isEmpty <;> cases allBlank (body.dropWhile isDigit) <;> rfl

lemma valueOf_run_le_limit (h : body.length < w.maxDigits) :
    valueOf 10 (body.takeWhile isDigit) ≤ w.limit negative := by
  have hlen : (body.takeWhile isDigit).length ≤ w.maxDigits - 1 := by
    have := (List.takeWhile_sublist isDigit (l := body)).length_le
    omega
  have hlt := ofDigits_lt (by norm_num : 1 < 10) (digitValue_lt_of_mem_run 10 body)
  rw [List.length_map] at hlt
  calc valueOf 10 (body.takeWhile isDigit) ≤ 10 ^ (body.takeWhile isDigit).length := hlt.le
    _ ≤ 10 ^ (w.maxDigits - 1) := Nat.pow_le_pow_right (by norm_num) hlen
    _ ≤ w.limit negative := w.pow_maxDigits_le_limit negative

lemma readShort_eq_capped (h : body.length < w.maxDigits) :
    readShort w negative body = capped w negative body := by
  have hle := valueOf_run_le_limit w negative body h
  simp only [readShort, capped, if_neg (Nat.not_lt.mpr hle)]
  cases (body.takeWhile isDigit).isEmpty <;> cases allBlank (body.dropWhile isDigit) <;> rfl

lemma readUnpadded_eq_capped (s : Bytes) :
    readUnpadded w s = capped w (splitSign s).1 (splitSign s).2 := by
  simp only [readUnpadded]
  split_ifs with h
  · exact readShort_eq_capped w _ _ h
  · exact readChecked_eq_capped w _ _

def leading? (s : Bytes) : Option ℤ :=
  let run := (splitSign s).2.takeWhile isDigit
  if run.isEmpty then none
  else some (if (splitSign s).1 then -(valueOf 10 run : ℤ) else valueOf 10 run)

def afterLeading (s : Bytes) : Bytes := (splitSign s).2.dropWhile isDigit

def outcomeOf (w : Width) (rest : Bytes) : Option ℤ → Outcome ℤ
  | none => ⟨0, .failure⟩
  | some n =>
      if n < w.least then ⟨w.least, .overflow⟩
      else if w.greatest < n then ⟨w.greatest, .overflow⟩
      else if allBlank rest then ⟨n, .success⟩
      else ⟨0, .failure⟩

lemma outcomeOf_signed (rest : Bytes) (n : ℕ) :
    outcomeOf w rest (some (if negative then -(n : ℤ) else n)) =
      if w.limit negative < n then ⟨if negative then w.least else w.greatest, .overflow⟩
      else if allBlank rest then ⟨if negative then -(n : ℤ) else n, .success⟩
      else ⟨0, .failure⟩ := by
  rw [outcomeOf, w.ite_signed]
  cases negative <;> rfl

theorem toInt_readUnpadded (s : Bytes) :
    (⟨(readUnpadded w s).value.toInt, (readUnpadded w s).status⟩ : Outcome ℤ) =
      outcomeOf w (afterLeading s) (leading? s) := by
  rw [readUnpadded_eq_capped, capped, leading?]
  cases ((splitSign s).2.takeWhile isDigit).isEmpty with
  | true => simp [outcomeOf]
  | false =>
    simp only [Bool.false_eq_true, if_false, outcomeOf_signed, afterLeading]
    by_cases hover : w.limit (splitSign s).1 < valueOf 10 ((splitSign s).2.takeWhile isDigit)
    · rw [if_pos hover, if_pos hover, Width.toInt_bound]
    · rw [if_neg hover, if_neg hover]
      cases allBlank ((splitSign s).2.dropWhile isDigit) with
      | true => simp [Width.toInt_ofMagnitude w _ (Nat.not_lt.mp hover)]
      | false => simp

end SqlCast.Integer
