import SqlCast.Proofs.Text.Blank
import SqlCast.Proofs.Text.Digit
import SqlCast.Status
import SqlCast.Text.Token

/-! Leading blanks: no number starts with one, and a reader that retries never sees them. -/

namespace SqlCast

namespace Text

variable {c : UInt8}

lemma digitValue_of_blank (hc : isBlank c = true) : digitValue c = 36 := by
  rw [isBlank] at hc
  rw [digitValue]
  grind

lemma not_digit_of_blank (hc : isBlank c = true) : isDigit c = false := by
  rw [isDigit, isDigitOf, digitValue_of_blank hc]
  rfl

lemma splitSign_of_blank (hc : isBlank c = true) (s : Bytes) : splitSign (c :: s) = (false, c :: s) := by
  unfold splitSign
  split
  · simp_all [isBlank]
  · simp_all [isBlank]
  · rfl

lemma endsRun_of_blank (hc : isBlank c = true) (s : Bytes) : EndsRun (c :: s) := by
  intro d hd
  obtain rfl : c = d := by simpa using hd
  exact not_digit_of_blank hc

section

variable {v : Bytes} (hv : allBlank v = true)

include hv

lemma blank_of_mem_head? : ∀ c ∈ v.head?, isBlank c = true :=
  fun c hc => List.all_eq_true.mp hv c (List.mem_of_head? hc)

lemma endsRun_of_allBlank : EndsRun v :=
  fun c hc => not_digit_of_blank (blank_of_mem_head? hv c hc)

lemma head?_ne_of_allBlank {d : UInt8} (hd : isBlank d = false) : ∀ c ∈ v.head?, c ≠ d := by
  rintro c hc rfl
  rw [blank_of_mem_head? hv c hc] at hd
  cases hd

end

end Text

namespace Outcome

open Text

variable {α : Type} {read : Bytes → Outcome α}

lemma retrying_eq (h : ∀ c s, isBlank c = true → (read (c :: s)).status ≠ .success) (s : Bytes) :
    retrying read s = read (dropBlanks s) := by
  rw [dropBlanks_eq_drop, retrying]
  split_ifs with hfirst
  · rcases hfirst with hs | hz
    · cases s with
      | nil => rfl
      | cons c s =>
        have hc : ¬isBlank c = true := fun hc => h c s hc hs
        rw [leadingBlanks, List.takeWhile_cons_of_neg hc]
        rfl
    · rw [hz, List.drop_zero]
  · rfl

end Outcome

end SqlCast
