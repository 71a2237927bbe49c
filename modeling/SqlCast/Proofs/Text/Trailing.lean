import SqlCast.Proofs.Text.Mantissa
import SqlCast.Proofs.Text.Padding
import SqlCast.Proofs.Text.Token

/-! Trailing blanks: every scan stops before them, so they only lengthen what it leaves. -/

namespace SqlCast.Text

def blanks : Bytes := [32, 9, 10, 11, 12, 13]

lemma isBlank_iff {c : UInt8} : isBlank c = true ↔ c ∈ blanks := by
  simp only [isBlank, blanks, Bool.or_eq_true, beq_iff_eq, Bool.and_eq_true, decide_eq_true_eq,
    UInt8.le_iff_toNat_le, ← UInt8.toNat_inj, List.mem_cons, List.not_mem_nil, or_false,
    UInt8.reduceToNat]
  omega

lemma allBlank_iff {v : Bytes} : allBlank v = true ↔ ∀ c ∈ v, c ∈ blanks := by
  simp [allBlank, isBlank_iff]

lemma lowercase_of_blank {c : UInt8} (hc : isBlank c = true) : lowercase c = c := by
  rw [isBlank] at hc
  rw [lowercase]
  grind

section

variable {v : Bytes} (hv : allBlank v = true)

include hv

lemma allBlank_append (s : Bytes) : allBlank (s ++ v) = allBlank s := by
  rw [allBlank, allBlank, List.all_append, ← allBlank, ← allBlank, hv, Bool.and_true]

section

variable {p : UInt8 → Bool} (hp : ∀ c, isBlank c = true → p c = false)

include hp

lemma takeWhile_append_blanks (s : Bytes) : (s ++ v).takeWhile p = s.takeWhile p := by
  induction s with
  | nil =>
    cases v with
    | nil => rfl
    | cons c v => simp [hp c (blank_of_mem_head? hv c rfl)]
  | cons c s ih => simp only [List.cons_append, List.takeWhile_cons, ih]

lemma dropWhile_append_blanks (s : Bytes) : (s ++ v).dropWhile p = s.dropWhile p ++ v := by
  induction s with
  | nil =>
    cases v with
    | nil => rfl
    | cons c v => simp [hp c (blank_of_mem_head? hv c rfl)]
  | cons c s ih =>
    simp only [List.cons_append, List.dropWhile_cons, ih]
    split <;> rfl

end

lemma splitSign_append_blanks (s : Bytes) :
    splitSign (s ++ v) = ((splitSign s).1, (splitSign s).2 ++ v) := by
  cases s with
  | nil =>
    cases v with
    | nil => rfl
    | cons c v => exact splitSign_of_blank (blank_of_mem_head? hv c rfl) v
  | cons c s =>
    by_cases hminus : c = 45
    · subst hminus
      rfl
    · by_cases hplus : c = 43
      · subst hplus
        rfl
      · simp [splitSign, hminus, hplus]

lemma dropToken?_append_blanks {word : Bytes} (hw : word.any isBlank = false) (s : Bytes) :
    dropToken? word (s ++ v) = (dropToken? word s).map (· ++ v) := by
  induction word generalizing s with
  | nil => rfl
  | cons t word ih =>
    obtain ⟨ht, hword⟩ := Bool.or_eq_false_iff.mp (List.any_cons.symm.trans hw)
    cases s with
    | nil =>
      cases v with
      | nil => rfl
      | cons c v =>
        have hc := blank_of_mem_head? hv c rfl
        apply dropToken?_of_head_ne
        rw [lowercase_of_blank hc]
        rintro rfl
        rw [ht] at hc
        cases hc
    | cons c s =>
      simp only [List.cons_append, dropToken?, ih hword]
      split <;> rfl

lemma isToken_append_blanks {word : Bytes} (hw : word.any isBlank = false) (s : Bytes) :
    isToken word (s ++ v) = isToken word s := by
  simp only [isToken, dropToken?_append_blanks hv hw, Option.any_map,
    allBlank_append hv]

lemma Mantissa.scan_append_blanks (s : Bytes) :
    Mantissa.scan (s ++ v) = ((Mantissa.scan s).1, (Mantissa.scan s).2 ++ v) := by
  have hdigit : ∀ c, isBlank c = true → isDigit c = false := fun c hc => not_digit_of_blank hc
  have htake := takeWhile_append_blanks hv hdigit
  have hdrop := dropWhile_append_blanks hv hdigit
  simp only [Mantissa.scan, htake, hdrop]
  cases s.dropWhile isDigit with
  | nil =>
    have hdot := head?_ne_of_allBlank hv (d := 46) rfl
    cases v with
    | nil => rfl
    | cons c v => simp [hdot c rfl]
  | cons c r =>
    by_cases hdot : c = 46
    · subst hdot
      simp only [List.cons_append, htake, hdrop]
    · simp [hdot]

end

end SqlCast.Text
