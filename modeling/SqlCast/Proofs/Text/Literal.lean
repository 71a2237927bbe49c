import Mathlib.Algebra.Order.Field.Basic
import Mathlib.Algebra.Order.Field.Rat
import Mathlib.Tactic.FieldSimp
import SqlCast.Proofs.Text.Blank
import SqlCast.Proofs.Text.Mantissa

namespace SqlCast.Text

inductive Sign
  | plus
  | minus
  deriving DecidableEq, Repr

def Sign.byte : Sign → UInt8
  | plus => 43
  | minus => 45

def signText (s : Option Sign) : Bytes := (s.map Sign.byte).toList

def isMinus (s : Option Sign) : Bool := s == some .minus

structure Exponent where
  capital : Bool
  sign : Option Sign
  digits : List ℕ
  digits_ne_nil : digits ≠ []
  digits_lt : ∀ d ∈ digits, d < 10

namespace Exponent

def marker (e : Exponent) : UInt8 := if e.capital then 69 else 101

def text (e : Exponent) : Bytes := e.marker :: (signText e.sign ++ e.digits.map digitByte)

def value (e : Exponent) : ℤ :=
  if isMinus e.sign then -(ofDigits 10 e.digits : ℤ) else ofDigits 10 e.digits

end Exponent

namespace Mantissa

def wholeValue (m : Mantissa) : ℕ := ofDigits 10 m.whole

def fractionValue (m : Mantissa) : ℚ := ofDigits 10 m.fraction / 10 ^ m.fraction.length

def magnitude (m : Mantissa) : ℚ := m.wholeValue + m.fractionValue

lemma unscaled_eq (m : Mantissa) :
    m.unscaled = m.wholeValue * 10 ^ m.fraction.length + ofDigits 10 m.fraction :=
  ofDigits_append 10 m.whole m.fraction

lemma magnitude_mul (m : Mantissa) : m.magnitude * 10 ^ m.fraction.length = m.unscaled := by
  rw [magnitude, fractionValue, unscaled_eq, add_mul, div_mul_cancel₀ _ (by positivity)]
  push_cast
  rfl

lemma fractionValue_nonneg (m : Mantissa) : 0 ≤ m.fractionValue := by
  rw [fractionValue]
  positivity

lemma WellFormed.fractionValue_lt_one {m : Mantissa} (h : m.WellFormed) : m.fractionValue < 1 := by
  rw [fractionValue, div_lt_one (by positivity)]
  exact_mod_cast ofDigits_lt (by norm_num) h.fraction_lt

lemma magnitude_nonneg (m : Mantissa) : 0 ≤ m.magnitude :=
  add_nonneg (Nat.cast_nonneg _) m.fractionValue_nonneg

end Mantissa

structure Literal where
  sign : Option Sign
  mantissa : Mantissa
  exponent : Option Exponent
  wellFormed : mantissa.WellFormed
  present : mantissa.present = true

namespace Literal

def negative (l : Literal) : Bool := isMinus l.sign

def exponentText (l : Literal) : Bytes := l.exponent.elim [] Exponent.text

def exponentValue (l : Literal) : ℤ := l.exponent.elim 0 Exponent.value

def text (l : Literal) : Bytes := signText l.sign ++ (l.mantissa.text ++ l.exponentText)

def scale (l : Literal) : ℤ := l.mantissa.scale l.exponentValue

def magnitude (l : Literal) : ℚ := l.mantissa.unscaled * 10 ^ (-l.scale)

def value (l : Literal) : ℚ := if l.negative then -l.magnitude else l.magnitude

end Literal

lemma isMarker_iff {c : UInt8} : isMarker c = true ↔ c = 69 ∨ c = 101 := by
  rw [isMarker, lowercase]
  grind

lemma splitSign_signText (s : Option Sign) {body : Bytes}
    (hb : ∀ c ∈ body.head?, c ≠ 45 ∧ c ≠ 43) : splitSign (signText s ++ body) = (isMinus s, body) := by
  cases s with
  | none =>
    change splitSign body = (false, body)
    unfold splitSign
    split
    · exact absurd rfl (hb _ rfl).1
    · exact absurd rfl (hb _ rfl).2
    · rfl
  | some s => cases s <;> rfl

lemma splitSign_digits (s : Option Sign) {ds : List ℕ} (h : ∀ d ∈ ds, d < 10) {rest : Bytes}
    (hr : ∀ c ∈ rest.head?, c ≠ 45 ∧ c ≠ 43) :
    splitSign (signText s ++ (ds.map digitByte ++ rest)) = (isMinus s, ds.map digitByte ++ rest) := by
  apply splitSign_signText
  intro c hc
  cases ds with
  | nil => exact hr c hc
  | cons d ds =>
    obtain rfl : digitByte d = c := by simpa using hc
    exact (plain_digitByte d (h d List.mem_cons_self)).2

lemma exists_signText (s : Bytes) :
    ∃ sign, isMinus sign = (splitSign s).1 ∧ signText sign ++ (splitSign s).2 = s := by
  unfold splitSign
  split
  · exact ⟨some .minus, rfl, rfl⟩
  · exact ⟨some .plus, rfl, rfl⟩
  · exact ⟨none, rfl, rfl⟩

lemma not_blank_of_mem_signText (s : Option Sign) : ∀ c ∈ signText s, isBlank c = false := by
  cases s with
  | none => simp [signText]
  | some s => cases s <;> simp [signText] <;> decide

lemma dropBlanks_signText {u body : Bytes} (hu : allBlank u = true) (sign : Option Sign)
    (hb : ∀ c ∈ body.head?, isBlank c = false) :
    dropBlanks (u ++ (signText sign ++ body)) = signText sign ++ body := by
  rw [dropBlanks_append_left hu]
  apply dropBlanks_of_head
  intro c hc
  rw [List.head?_append] at hc
  cases hs : (signText sign).head? with
  | none =>
    rw [hs, Option.none_or] at hc
    exact hb c hc
  | some d =>
    obtain rfl : d = c := by simpa [hs] using hc
    exact not_blank_of_mem_signText sign d (List.mem_of_head? hs)

namespace Exponent

variable (e : Exponent)

lemma marker_cases : e.marker = 69 ∨ e.marker = 101 := by
  unfold marker
  split
  · exact Or.inl rfl
  · exact Or.inr rfl

lemma isMarker_marker : isMarker e.marker = true := by
  rcases e.marker_cases with h | h <;> rw [h] <;> rfl

lemma head_text (rest : Bytes) : ∀ c ∈ (e.text ++ rest).head?, isDigit c = false ∧ c ≠ 46 := by
  intro c hc
  obtain rfl : e.marker = c := by simpa [text] using hc
  rcases e.marker_cases with h | h <;> rw [h] <;> decide

lemma not_blank_of_mem_text : ∀ c ∈ e.text, isBlank c = false := by
  intro c hc
  rcases List.mem_cons.mp hc with rfl | hc
  · rcases e.marker_cases with h | h <;> rw [h] <;> rfl
  · rcases List.mem_append.mp hc with hs | hd
    · exact not_blank_of_mem_signText e.sign c hs
    · exact (plain_of_mem_map_digitByte e.digits_lt c hd).1

end Exponent

namespace Literal

variable (l : Literal)

lemma head_exponentText : ∀ c ∈ l.exponentText.head?, isDigit c = false ∧ c ≠ 46 := by
  intro c hc
  cases he : l.exponent with
  | none => simp [exponentText, he] at hc
  | some e => exact e.head_text [] c (by simpa [exponentText, he] using hc)

lemma scan_mantissa : Mantissa.scan (l.mantissa.text ++ l.exponentText) = (l.mantissa, l.exponentText) :=
  Mantissa.scan_text l.wellFormed (fun c hc => (l.head_exponentText c hc).1)
    (fun c hc => (l.head_exponentText c hc).2)

lemma splitSign_text_append (rest : Bytes) :
    splitSign (l.text ++ rest) = (l.negative, l.mantissa.text ++ (l.exponentText ++ rest)) := by
  rw [text, List.append_assoc, List.append_assoc]
  refine splitSign_signText l.sign ?_
  intro c hc
  obtain ⟨d, ds, ht⟩ := List.exists_cons_of_ne_nil (Mantissa.text_ne_nil l.wellFormed l.present)
  obtain rfl : d = c := by simpa [ht] using hc
  exact (Mantissa.plain_of_mem_text l.wellFormed d (by simp [ht])).2

lemma splitSign_text : splitSign l.text = (l.negative, l.mantissa.text ++ l.exponentText) := by
  simpa using l.splitSign_text_append []

lemma not_blank_of_mem_text : ∀ c ∈ l.text, isBlank c = false := by
  intro c hc
  rcases List.mem_append.mp hc with hs | hc
  · exact not_blank_of_mem_signText l.sign c hs
  · rcases List.mem_append.mp hc with hm | he
    · exact (Mantissa.plain_of_mem_text l.wellFormed c hm).1
    · cases hx : l.exponent with
      | none => simp [exponentText, hx] at he
      | some e => exact e.not_blank_of_mem_text c (by simpa [exponentText, hx] using he)

lemma text_ne_nil : l.text ≠ [] := by
  intro h
  have hm := (List.append_eq_nil_iff.mp (List.append_eq_nil_iff.mp h).2).1
  exact Mantissa.text_ne_nil l.wellFormed l.present hm

lemma trim_text {u v : Bytes} (hu : allBlank u = true) (hv : allBlank v = true) :
    trim (u ++ l.text ++ v) = l.text := by
  rw [trim_padded hu hv, trim_eq_self l.not_blank_of_mem_text]

lemma dropBlanks_text {u : Bytes} (hu : allBlank u = true) (v : Bytes) :
    dropBlanks (u ++ l.text ++ v) = l.text ++ v := by
  obtain ⟨c, t, ht⟩ := List.exists_cons_of_ne_nil l.text_ne_nil
  have hc := l.not_blank_of_mem_text c (ht ▸ List.mem_cons_self)
  rw [List.append_assoc, dropBlanks_append_left hu, ht]
  exact List.dropWhile_cons_of_neg (by simp [hc])

lemma exponentText_eq_nil_iff : l.exponentText = [] ↔ l.exponent = none := by
  cases h : l.exponent <;> simp [exponentText, h, Exponent.text]

variable {l} in
lemma eq_of_text_eq {l' : Literal} (h : l.exponent = none) (ht : l'.text = l.text) :
    l'.negative = l.negative ∧ l'.mantissa = l.mantissa ∧ l'.exponent = none := by
  have hsplit := l'.splitSign_text
  rw [ht, l.splitSign_text] at hsplit
  obtain ⟨hneg, hbody⟩ := Prod.mk.inj hsplit
  have hscan := l'.scan_mantissa
  rw [← hbody, l.scan_mantissa] at hscan
  obtain ⟨hm, he⟩ := Prod.mk.inj hscan
  rw [l.exponentText_eq_nil_iff.mpr h] at he
  exact ⟨hneg.symm, hm.symm, l'.exponentText_eq_nil_iff.mp he.symm⟩

lemma scale_of_plain (h : l.exponent = none) : l.scale = l.mantissa.fraction.length := by
  rw [scale, exponentValue, h, Option.elim_none, Mantissa.scale, sub_zero]

lemma magnitude_of_scale {s : ℕ} (h : l.scale = s) : l.magnitude = l.mantissa.unscaled / 10 ^ s := by
  rw [magnitude, h, zpow_neg, zpow_natCast, div_eq_mul_inv]

lemma magnitude_of_plain (h : l.exponent = none) :
    l.magnitude = l.mantissa.wholeValue + l.mantissa.fractionValue := by
  rw [l.magnitude_of_scale (l.scale_of_plain h), ← l.mantissa.magnitude_mul,
    mul_div_cancel_right₀ _ (by positivity), Mantissa.magnitude]

end Literal

end SqlCast.Text
