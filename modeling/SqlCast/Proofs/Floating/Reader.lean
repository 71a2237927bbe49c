import SqlCast.Floating.Reader
import SqlCast.Proofs.Text.Literal
import SqlCast.Proofs.Text.Padding
import SqlCast.Proofs.Text.Token

namespace SqlCast.Floating

open Text

def Neutral (c : UInt8) : Prop := (c ≠ 45 ∧ c ≠ 43) ∧ lowercase c ≠ 105 ∧ lowercase c ≠ 110

instance (c : UInt8) : Decidable (Neutral c) := inferInstanceAs (Decidable (_ ∧ _))

lemma neutral_digitByte : ∀ d < 10, Neutral (digitByte d) := by decide

lemma neutral_of_isMarker {c : UInt8} (hc : isMarker c = true) : Neutral c := by
  rcases isMarker_iff.mp hc with rfl | rfl <;> decide

lemma neutral_of_isBlank {c : UInt8} (hc : isBlank c = true) : Neutral c := by
  rw [isBlank] at hc
  rw [Neutral, lowercase]
  grind

lemma neutral_of_mem_text {m : Mantissa} (hm : m.WellFormed) : ∀ c ∈ m.text, Neutral c := by
  intro c hc
  rcases List.mem_append.mp hc with hw | hf
  · obtain ⟨d, hd, rfl⟩ := List.mem_map.mp hw
    exact neutral_digitByte d (hm.whole_lt d hd)
  · split at hf
    · rcases List.mem_cons.mp hf with rfl | hf
      · decide
      · obtain ⟨d, hd, rfl⟩ := List.mem_map.mp hf
        exact neutral_digitByte d (hm.fraction_lt d hd)
    · simp at hf

lemma startsExponent_iff {rest : Bytes} :
    startsExponent rest = true ↔ ∃ c s, rest = c :: s ∧ isMarker c = true := by
  cases rest with
  | nil => simp [startsExponent]
  | cons c s => simp [startsExponent]

lemma neutral_head {s : Bytes} (h : startsExponent (Mantissa.scan s).2 = true) :
    ∃ c t, s = c :: t ∧ Neutral c := by
  obtain ⟨c, rest, hrest, hc⟩ := startsExponent_iff.mp h
  have hs := Mantissa.text_append_scan s
  rw [hrest] at hs
  cases ht : (Mantissa.scan s).1.text with
  | nil =>
    rw [ht, List.nil_append] at hs
    exact ⟨c, rest, hs.symm, neutral_of_isMarker hc⟩
  | cons d t =>
    rw [ht, List.cons_append] at hs
    exact ⟨d, t ++ c :: rest, hs.symm,
      neutral_of_mem_text (Mantissa.wellFormed_scan s) d (ht ▸ List.mem_cons_self)⟩

def WordFree (body : Bytes) : Prop := isInfinityWord body = false ∧ isNanWord body = false

namespace Neutral

variable {c : UInt8} (hc : Neutral c) (s : Bytes)

include hc

lemma splitSign_cons : splitSign (c :: s) = (false, c :: s) := by
  refine splitSign_signText none ?_
  intro d hd
  obtain rfl : c = d := by simpa using hd
  exact hc.1

lemma readWord?_cons (f : Binary.Format) (negative : Bool) :
    Scientific.readWord? f negative (c :: s) = none := by
  have hnan : dropToken? Scientific.nanToken (c :: s) = none := dropToken?_of_head_ne hc.2.2 _ _
  have hinfinity : dropToken? Scientific.infinityToken (c :: s) = none :=
    dropToken?_of_head_ne hc.2.1 _ _
  have hinf : dropToken? Scientific.infToken (c :: s) = none := dropToken?_of_head_ne hc.2.1 _ _
  simp only [Scientific.readWord?, hnan, hinfinity, hinf, Option.map_none]

lemma wordFree_cons : WordFree (c :: s) := by
  have hnan : dropToken? Scientific.nanToken (c :: s) = none := dropToken?_of_head_ne hc.2.2 _ _
  have hinfinity : dropToken? Scientific.infinityToken (c :: s) = none :=
    dropToken?_of_head_ne hc.2.1 _ _
  have hinf : dropToken? Scientific.infToken (c :: s) = none := dropToken?_of_head_ne hc.2.1 _ _
  rw [WordFree, isInfinityWord, isNanWord, isToken, isToken, isToken, hinfinity, hinf, hnan]
  exact ⟨rfl, rfl⟩

end Neutral

variable (f : Binary.Format)

def scientific (m : Mantissa) (rest : Bytes) : Binary f :=
  Binary.ofDecimal f false m.unscaled ((Scientific.scanExponent rest).1 - m.fraction.length)

lemma read?_of_startsExponent {s : Bytes} (h : startsExponent (Mantissa.scan s).2 = true) :
    Scientific.read? f s =
      if (Mantissa.scan s).1.hasDigit then
        some (scientific f (Mantissa.scan s).1 (Mantissa.scan s).2,
          (Scientific.scanExponent (Mantissa.scan s).2).2)
      else none := by
  obtain ⟨c, t, rfl, hc⟩ := neutral_head h
  simp only [Scientific.read?, hc.splitSign_cons, hc.readWord?_cons]
  rfl

lemma magnitude?_eq (s : Bytes) :
    magnitude? f s =
      let m := (Mantissa.scan s).1
      let rest := (Mantissa.scan s).2
      if startsExponent rest then
        if m.hasDigit && allBlank (Scientific.scanExponent rest).2 then some (scientific f m rest)
        else none
      else if m.present && allBlank rest then some (Plain.value f m)
      else none := by
  rw [magnitude?]
  cases he : startsExponent (Mantissa.scan s).2 with
  | true =>
    simp only [if_true, read?_of_startsExponent f he, he]
    cases (Mantissa.scan s).1.hasDigit with
    | true => simp
    | false => simp
  | false =>
    simp only [he]
    rfl

lemma startsExponent_of_allBlank {v : Bytes} (hv : allBlank v = true) : startsExponent v = false := by
  by_contra hne
  obtain ⟨c, t, rfl, hc⟩ := startsExponent_iff.mp ((Bool.not_eq_false _).mp hne)
  have hb := blank_of_mem_head? hv c rfl
  rcases isMarker_iff.mp hc with rfl | rfl <;> cases hb

lemma magnitude?_plain {m : Mantissa} (hm : m.WellFormed) (hp : m.present = true) {v : Bytes}
    (hv : allBlank v = true) : magnitude? f (m.text ++ v) = some (Plain.value f m) := by
  have hscan : Mantissa.scan (m.text ++ v) = (m, v) :=
    Mantissa.scan_text hm (endsRun_of_allBlank hv) (head?_ne_of_allBlank hv rfl)
  have he : startsExponent v = false := startsExponent_of_allBlank hv
  simp only [magnitude?_eq, hscan, he, hp, hv]
  rfl

lemma scanExponent_text (e : Exponent) {v : Bytes} (hv : allBlank v = true) :
    Scientific.scanExponent (e.text ++ v) =
      (if isMinus e.sign then -(Scientific.exponentOfDigits e.digits : ℤ)
        else Scientific.exponentOfDigits e.digits, v) := by
  have hr : ∀ c ∈ v.head?, c ≠ 45 ∧ c ≠ 43 := fun c hc =>
    ⟨head?_ne_of_allBlank hv rfl c hc, head?_ne_of_allBlank hv rfl c hc⟩
  have hrun : EndsRun v := endsRun_of_allBlank hv
  have hne : (e.digits.map digitByte).isEmpty = false := by simpa using e.digits_ne_nil
  rw [Exponent.text, List.cons_append, List.append_assoc, Scientific.scanExponent]
  simp only [splitSign_digits e.sign e.digits_lt hr, takeWhile_digits e.digits_lt hrun,
    dropWhile_digits e.digits_lt hrun, e.isMarker_marker, hne, Bool.not_false, Bool.and_self, if_true,
    map_digitValue_map_digitByte (by norm_num) e.digits_lt]

lemma magnitude?_scientific {m : Mantissa} (hm : m.WellFormed) (hd : m.hasDigit = true) (e : Exponent)
    {v : Bytes} (hv : allBlank v = true) :
    magnitude? f (m.text ++ (e.text ++ v)) = some (scientific f m (e.text ++ v)) := by
  have hscan : Mantissa.scan (m.text ++ (e.text ++ v)) = (m, e.text ++ v) :=
    Mantissa.scan_text hm (fun c hc => (e.head_text v c hc).1) fun c hc => (e.head_text v c hc).2
  have he : startsExponent (e.text ++ v) = true := startsExponent_iff.mpr ⟨_, _, rfl, e.isMarker_marker⟩
  simp only [magnitude?_eq, hscan, he, hd, scanExponent_text e hv, hv]
  rfl

section

variable {s : Bytes}

lemma status_readUnpadded_of_word (h : ¬WordFree (splitSign s).2) :
    (readUnpadded f s).status = .success := by
  simp only [readUnpadded]
  split_ifs with hi hn
  · rfl
  · rfl
  · exact absurd ⟨eq_false_of_ne_true hi, eq_false_of_ne_true hn⟩ h

lemma readUnpadded_of_none (h : WordFree (splitSign s).2) (hx : magnitude? f (splitSign s).2 = none) :
    readUnpadded f s = ⟨.zero, .failure⟩ := by
  simp only [readUnpadded, h.1, h.2, hx]
  rfl

lemma readUnpadded_of_some (h : WordFree (splitSign s).2) {x : Binary f}
    (hx : magnitude? f (splitSign s).2 = some x) :
    readUnpadded f s =
      ⟨signed (splitSign s).1 x, if x.isInfinite then .overflow else .success⟩ := by
  simp only [readUnpadded, h.1, h.2, hx]
  rfl

end

lemma readUnpadded_of_blank {c : UInt8} (hc : isBlank c = true) (s : Bytes) :
    readUnpadded f (c :: s) = ⟨.zero, .failure⟩ := by
  have hsplit := splitSign_of_blank hc s
  have hscan : Mantissa.scan (c :: s) = (.empty, c :: s) := by
    apply Mantissa.scan_eq_empty
    intro d hd
    obtain rfl : c = d := by simpa using hd
    exact ⟨not_digit_of_blank hc, fun h => by rw [h] at hc; cases hc⟩
  apply readUnpadded_of_none
  · rw [hsplit]
    exact (neutral_of_isBlank hc).wordFree_cons s
  · have he : startsExponent (c :: s) = false := by
      rw [startsExponent]
      by_contra hm
      rcases isMarker_iff.mp ((Bool.not_eq_false _).mp hm) with rfl | rfl <;> cases hc
    simp only [hsplit, magnitude?_eq, hscan, he]
    rfl

lemma read_eq (s : Bytes) : read f s = readUnpadded f (dropBlanks s) := by
  refine Outcome.retrying_eq ?_ s
  intro c s hc
  rw [readUnpadded_of_blank f hc]
  simp

lemma signed_finite {f : Binary.Format} (negative : Bool) (v : Binary.Finite f) :
    signed negative (.finite false v) = .finite negative v := by
  cases negative <;> rfl

lemma wordFree_literal (l : Literal) (rest : Bytes) : WordFree (splitSign (l.text ++ rest)).2 := by
  obtain ⟨c, t, ht⟩ := List.exists_cons_of_ne_nil (Mantissa.text_ne_nil l.wellFormed l.present)
  have hc := neutral_of_mem_text l.wellFormed c (ht ▸ List.mem_cons_self)
  rw [l.splitSign_text_append, ht, List.cons_append]
  exact hc.wordFree_cons _

lemma read_padded (l : Literal) {u v : Bytes} (hu : allBlank u = true) {x : Binary f}
    (hx : magnitude? f (l.mantissa.text ++ (l.exponentText ++ v)) = some x) :
    read f (u ++ l.text ++ v) =
      ⟨signed l.negative x, if x.isInfinite then .overflow else .success⟩ := by
  have hx : magnitude? f (splitSign (l.text ++ v)).2 = some x := by rwa [l.splitSign_text_append]
  rw [read_eq, l.dropBlanks_text hu v, readUnpadded_of_some f (wordFree_literal l v) hx,
    l.splitSign_text_append]

lemma read_plain {l : Literal} (he : l.exponent = none) :
    read f l.text =
      ⟨signed l.negative (Plain.value f l.mantissa),
        if (Plain.value f l.mantissa).isInfinite then .overflow else .success⟩ := by
  have htext : l.exponentText = [] := by rw [Literal.exponentText, he, Option.elim_none]
  have hx := magnitude?_plain f l.wellFormed l.present (v := []) rfl
  have hread := read_padded f l (u := []) (v := []) rfl (by rwa [htext])
  rwa [List.nil_append, List.append_nil] at hread

end SqlCast.Floating
