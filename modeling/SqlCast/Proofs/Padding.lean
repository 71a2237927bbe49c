import SqlCast.Boolean
import SqlCast.Proofs.Decimal.Reading
import SqlCast.Proofs.Floating.Reader
import SqlCast.Proofs.Integer.Radix
import SqlCast.Proofs.Text.Trailing

/-! Blanks around a text change nothing about what it is read as. -/

namespace SqlCast

open Text

lemma Outcome.padded_of_trailing {α : Type} {read readUnpadded : Bytes → Outcome α}
    (hread : ∀ s, read s = readUnpadded (dropBlanks s)) {u v : Bytes}
    (htrailing : ∀ s, readUnpadded (s ++ v) = readUnpadded s) (hu : allBlank u = true)
    (hv : allBlank v = true) (s : Bytes) : read (u ++ s ++ v) = read s := by
  rw [hread, hread, List.append_assoc, dropBlanks_append_left hu, dropBlanks_append_right hv]
  split
  · rename_i hs
    rw [List.isEmpty_iff.mp hs]
  · apply htrailing

section

variable {u v : Bytes} (hu : allBlank u = true) (hv : allBlank v = true)

namespace Integer

variable (w : Width)

include hv in
lemma readUnpadded_append_blanks (s : Bytes) : readUnpadded w (s ++ v) = readUnpadded w s := by
  have hdigit : ∀ c, isBlank c = true → isDigit c = false := fun c hc => not_digit_of_blank hc
  simp only [readUnpadded_eq_capped, splitSign_append_blanks hv, capped,
    takeWhile_append_blanks hv hdigit, dropWhile_append_blanks hv hdigit, allBlank_append hv]

include hu hv in
lemma read_blanks (s : Bytes) : read w (u ++ s ++ v) = read w s := by
  apply Outcome.padded_of_trailing (read_eq w) _ hu hv
  exact readUnpadded_append_blanks hv w

namespace Radix

variable (base : ℕ)

include hv in
lemma mayFollow_append_blanks (rest : Bytes) : mayFollow (rest ++ v) = mayFollow rest := by
  cases rest with
  | nil =>
    cases v with
    | nil => rfl
    | cons c v => simp [mayFollow, hv]
  | cons c rest =>
    have hall : allBlank (c :: (rest ++ v)) = allBlank (c :: rest) := allBlank_append hv (c :: rest)
    simp only [List.cons_append, mayFollow, hall]

include hv in
lemma readUnpadded_append_blanks (hb : base ≤ 36) (s : Bytes) :
    readUnpadded w base (s ++ v) = readUnpadded w base s := by
  have hdigit : ∀ c, isBlank c = true → isDigitOf base c = false :=
    fun c hc => not_digitOf_of_blank hb hc
  simp only [readUnpadded, splitSign_append_blanks hv, takeWhile_append_blanks hv hdigit,
    dropWhile_append_blanks hv hdigit, mayFollow_append_blanks hv]

include hu hv in
lemma read_blanks (s : Bytes) : read w base (u ++ s ++ v) = read w base s := by
  by_cases hb : 2 ≤ base ∧ base ≤ 36
  · apply Outcome.padded_of_trailing (read_eq w hb) _ hu hv
    exact readUnpadded_append_blanks hv w base hb.2
  · rw [read_of_not_base w hb, read_of_not_base w hb]

end Radix

end Integer

namespace Floating

variable (f : Binary.Format)

section

include hv

lemma scanExponent_append_blanks {rest : Bytes} (hr : startsExponent rest = true) :
    Scientific.scanExponent (rest ++ v) =
      ((Scientific.scanExponent rest).1, (Scientific.scanExponent rest).2 ++ v) := by
  have hdigit : ∀ c, isBlank c = true → isDigit c = false := fun c hc => not_digit_of_blank hc
  obtain ⟨c, s, rfl, -⟩ := startsExponent_iff.mp hr
  simp only [List.cons_append, Scientific.scanExponent, splitSign_append_blanks hv,
    takeWhile_append_blanks hv hdigit, dropWhile_append_blanks hv hdigit]
  split <;> rfl

lemma startsExponent_append_blanks (rest : Bytes) :
    startsExponent (rest ++ v) = startsExponent rest := by
  cases rest with
  | nil => exact startsExponent_of_allBlank hv
  | cons c rest => rfl

lemma magnitude?_append_blanks (s : Bytes) : magnitude? f (s ++ v) = magnitude? f s := by
  simp only [magnitude?_eq, Mantissa.scan_append_blanks hv, startsExponent_append_blanks hv,
    allBlank_append hv, scientific]
  split
  · rename_i hr
    simp only [scanExponent_append_blanks hv hr, allBlank_append hv]
  · rfl

lemma readUnpadded_append_blanks (s : Bytes) : readUnpadded f (s ++ v) = readUnpadded f s := by
  have hinf : Scientific.infToken.any isBlank = false := rfl
  have hinfinity : Scientific.infinityToken.any isBlank = false := rfl
  have hnan : Scientific.nanToken.any isBlank = false := rfl
  simp only [readUnpadded, splitSign_append_blanks hv, isInfinityWord, isNanWord,
    isToken_append_blanks hv hinf, isToken_append_blanks hv hinfinity, isToken_append_blanks hv hnan,
    magnitude?_append_blanks hv]
  rfl

end

include hu hv in
lemma read_blanks (s : Bytes) : read f (u ++ s ++ v) = read f s := by
  apply Outcome.padded_of_trailing (read_eq f) _ hu hv
  exact readUnpadded_append_blanks hv f

end Floating

namespace Boolean

lemma readUnpadded_of_blank {c : UInt8} (hc : isBlank c = true) (s : Bytes) :
    readUnpadded (c :: s) = ⟨false, .failure⟩ := by
  have hhead : lowercase c ≠ 116 ∧ lowercase c ≠ 102 := by
    rw [lowercase_of_blank hc]
    constructor <;> rintro rfl <;> cases hc
  have htrue : dropToken? trueToken (c :: s) = none := dropToken?_of_head_ne hhead.1 _ _
  have hfalse : dropToken? falseToken (c :: s) = none := dropToken?_of_head_ne hhead.2 _ _
  rw [readUnpadded, isToken, isToken, htrue, hfalse]
  rfl

lemma read_eq (s : Bytes) : read s = readUnpadded (dropBlanks s) := by
  refine Outcome.retrying_eq ?_ s
  intro c s hc
  rw [readUnpadded_of_blank hc]
  simp

include hu hv in
lemma read_blanks (s : Bytes) : read (u ++ s ++ v) = read s := by
  have htrue : trueToken.any isBlank = false := rfl
  have hfalse : falseToken.any isBlank = false := rfl
  apply Outcome.padded_of_trailing read_eq _ hu hv
  intro s
  simp only [readUnpadded, isToken_append_blanks hv htrue, isToken_append_blanks hv hfalse]

end Boolean

namespace Decimal

include hu hv in
lemma read_blanks (t : Storage) (precision scale : ℕ) (r : Rounding) (s : Bytes) :
    Decimal.read t precision scale r (u ++ s ++ v) = Decimal.read t precision scale r s := by
  by_cases h : t.Admits precision scale
  · simp only [h.read_eq, readFitting, trim_padded hu hv]
  · rw [read_of_not_admits h, read_of_not_admits h]

end Decimal

end

theorem read_between_blanks {u v : Bytes} (hu : ∀ c ∈ u, c ∈ blanks) (hv : ∀ c ∈ v, c ∈ blanks)
    (s : Bytes) :
    (∀ w, Integer.read w (u ++ s ++ v) = Integer.read w s) ∧
      (∀ w base, Integer.Radix.read w base (u ++ s ++ v) = Integer.Radix.read w base s) ∧
      (∀ f, Floating.read f (u ++ s ++ v) = Floating.read f s) ∧
      Boolean.read (u ++ s ++ v) = Boolean.read s ∧
      ∀ t precision scale r,
        Decimal.read t precision scale r (u ++ s ++ v) = Decimal.read t precision scale r s := by
  have hu := allBlank_iff.mpr hu
  have hv := allBlank_iff.mpr hv
  refine ⟨?_, ?_, ?_, ?_, ?_⟩
  · intro w
    exact Integer.read_blanks hu hv w s
  · intro w base
    exact Integer.Radix.read_blanks hu hv w base s
  · intro f
    exact Floating.read_blanks hu hv f s
  · exact Boolean.read_blanks hu hv s
  · intro t precision scale r
    exact Decimal.read_blanks hu hv t precision scale r s

def twoNines : Bytes := [57, 57]

theorem read_between_blanks_twoNines :
    (∀ c ∈ ([9, 32] : Bytes), c ∈ blanks) ∧ (∀ c ∈ ([11, 13] : Bytes), c ∈ blanks) ∧
      Integer.read .int8 ([9, 32] ++ twoNines ++ [11, 13]) = Integer.read .int8 twoNines := by
  have hu : ∀ c ∈ ([9, 32] : Bytes), c ∈ blanks := by simp [blanks]
  have hv : ∀ c ∈ ([11, 13] : Bytes), c ∈ blanks := by simp [blanks]
  exact ⟨hu, hv, (read_between_blanks hu hv twoNines).1 .int8⟩

end SqlCast
