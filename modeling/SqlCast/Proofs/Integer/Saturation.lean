import SqlCast.Proofs.Integer.Reader
import SqlCast.Proofs.Text.Padding

namespace SqlCast.Integer

open Text

variable (w : Width)

lemma readUnpadded_of_blank {c : UInt8} (hc : isBlank c = true) (s : Bytes) :
    readUnpadded w (c :: s) = ⟨0, .failure⟩ := by
  rw [readUnpadded_eq_capped, splitSign_of_blank hc, capped, (endsRun_of_blank hc s).takeWhile]
  rfl

lemma read_eq (s : Bytes) : read w s = readUnpadded w (dropBlanks s) := by
  refine Outcome.retrying_eq ?_ s
  intro c s hc
  rw [readUnpadded_of_blank w hc]
  simp

theorem read_exact_or_saturating (s : Bytes) :
    let negative := (splitSign (dropBlanks s)).1
    let body := (splitSign (dropBlanks s)).2
    let run := body.takeWhile isDigit
    let n : ℤ := if negative then -(valueOf 10 run : ℤ) else valueOf 10 run
    (⟨(read w s).value.toInt, (read w s).status⟩ : Outcome ℤ) =
      if run = [] then ⟨0, .failure⟩
      else if n < -2 ^ (w.bits - 1) then ⟨-2 ^ (w.bits - 1), .overflow⟩
      else if 2 ^ (w.bits - 1) - 1 < n then ⟨2 ^ (w.bits - 1) - 1, .overflow⟩
      else if allBlank (body.dropWhile isDigit) then ⟨n, .success⟩
      else ⟨0, .failure⟩ := by
  intro negative body run n
  rw [read_eq, toInt_readUnpadded, leading?]
  change outcomeOf w _ (if run.isEmpty then none else some n) = _
  simp only [← w.least_eq, ← w.greatest_eq]
  by_cases hrun : run = []
  · rw [if_pos hrun, List.isEmpty_iff.mpr hrun]
    rfl
  · rw [if_neg hrun, if_neg (by simpa using hrun)]
    rfl

end SqlCast.Integer
