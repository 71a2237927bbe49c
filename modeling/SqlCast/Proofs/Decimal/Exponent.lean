import SqlCast.Decimal.Reader
import SqlCast.Proofs.Integer.Reader
import SqlCast.Proofs.Text.Literal

namespace SqlCast

namespace Integer

open Text

variable (sign : Option Sign) {ds : List ℕ} (h : ∀ d ∈ ds, d < 10)

include h

lemma splitSign_digits :
    splitSign (signText sign ++ ds.map digitByte) = (isMinus sign, ds.map digitByte) := by
  simpa using @Text.splitSign_digits sign ds h [] (by simp)

lemma leading?_digits (hne : ds ≠ []) :
    leading? (signText sign ++ ds.map digitByte) =
      some (if isMinus sign then -(ofDigits 10 ds : ℤ) else ofDigits 10 ds) := by
  have hrun : (ds.map digitByte).takeWhile isDigit = ds.map digitByte :=
    List.takeWhile_eq_self_iff.mpr (isDigit_of_mem_map_digitByte h)
  have hempty : (ds.map digitByte).isEmpty = false := by simpa using hne
  simp only [leading?, splitSign_digits sign h, hrun, hempty, Bool.false_eq_true, if_false, valueOf,
    map_digitValue_map_digitByte (by norm_num) h]

lemma afterLeading_digits : afterLeading (signText sign ++ ds.map digitByte) = [] := by
  rw [afterLeading, splitSign_digits sign h]
  exact List.dropWhile_eq_nil_iff.mpr (isDigit_of_mem_map_digitByte h)

end Integer

namespace Decimal

open Text

lemma readExponent_cons {c : UInt8} (hc : isMarker c = true) (s : Bytes) :
    readExponent (c :: s) =
      Integer.outcomeOf .int8 (Integer.afterLeading s) (Integer.leading? s) := by
  rw [← Integer.toInt_readUnpadded, readExponent, if_pos hc]

lemma readExponent_bounds (s : Bytes) :
    -128 ≤ (readExponent s).value ∧ (readExponent s).value ≤ 127 := by
  cases s with
  | nil => simp [readExponent]
  | cons c s =>
    rw [readExponent]
    split
    · exact ⟨BitVec.le_toInt (Integer.readUnpadded .int8 s).value,
        Int.le_of_lt_add_one BitVec.toInt_lt⟩
    · simp

lemma outcomeOf_int8 (rest : Bytes) (e : ℤ) :
    Integer.outcomeOf .int8 rest (some e) =
      if e < -128 then ⟨-128, .overflow⟩
      else if 127 < e then ⟨127, .overflow⟩
      else if allBlank rest then ⟨e, .success⟩
      else ⟨0, .failure⟩ := rfl

lemma readExponent_text_eq (e : Exponent) :
    readExponent e.text = Integer.outcomeOf .int8 [] (some e.value) := by
  rw [Exponent.text, readExponent_cons e.isMarker_marker,
    Integer.leading?_digits e.sign e.digits_lt e.digits_ne_nil,
    Integer.afterLeading_digits e.sign e.digits_lt, Exponent.value]

lemma readExponent_text (e : Exponent) (h : -128 ≤ e.value ∧ e.value ≤ 127) :
    readExponent e.text = ⟨e.value, .success⟩ := by
  have hmin : ¬e.value < Integer.Width.int8.least := not_lt.mpr h.1
  have hmax : ¬Integer.Width.int8.greatest < e.value := not_lt.mpr h.2
  rw [readExponent_text_eq, Integer.outcomeOf, if_neg hmin, if_neg hmax]
  rfl

lemma readExponent_text_of_lt (e : Exponent) (h : e.value < -128) :
    readExponent e.text = ⟨-128, .overflow⟩ := by
  rw [readExponent_text_eq, outcomeOf_int8, if_pos h]

lemma readExponent_text_of_gt (e : Exponent) (h : 127 < e.value) :
    readExponent e.text = ⟨127, .overflow⟩ := by
  rw [readExponent_text_eq, outcomeOf_int8, if_neg (by omega), if_pos h]

end Decimal

namespace Text.Literal

open Decimal

def ExponentFits (l : Literal) : Prop := -128 ≤ l.exponentValue ∧ l.exponentValue ≤ 127

instance (l : Literal) : Decidable l.ExponentFits := inferInstanceAs (Decidable (_ ∧ _))

lemma readExponent_exponentText (l : Literal) (h : l.ExponentFits) :
    readExponent l.exponentText = ⟨l.exponentValue, .success⟩ := by
  rw [ExponentFits, exponentValue] at h
  rw [exponentText, exponentValue]
  cases he : l.exponent with
  | none => rfl
  | some e =>
    rw [he] at h
    exact readExponent_text e h

lemma readExponent_of_lt (l : Literal) (h : l.exponentValue < -128) :
    readExponent l.exponentText = ⟨-128, .overflow⟩ := by
  rw [exponentValue] at h
  rw [exponentText]
  cases he : l.exponent with
  | none =>
    rw [he] at h
    exact absurd h (by decide)
  | some e =>
    rw [he] at h
    exact readExponent_text_of_lt e h

lemma readExponent_of_gt (l : Literal) (h : 127 < l.exponentValue) :
    readExponent l.exponentText = ⟨127, .overflow⟩ := by
  rw [exponentValue] at h
  rw [exponentText]
  cases he : l.exponent with
  | none =>
    rw [he] at h
    exact absurd h (by decide)
  | some e =>
    rw [he] at h
    exact readExponent_text_of_gt e h

end Text.Literal

end SqlCast
