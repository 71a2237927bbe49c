import SqlCast.Proofs.Binary.Exact
import SqlCast.Proofs.Floating.Reader

namespace SqlCast.Floating

open Text

def words : List Bytes := [Scientific.infToken, Scientific.infinityToken, Scientific.nanToken]

/-- What may stand between the sign and the blanks at the end. A lone dot is a mantissa, but takes
no exponent. -/
inductive Numeral : Bytes → Prop
  | word {t : Bytes} (ht : t.map lowercase ∈ words) : Numeral t
  | plain {m : Mantissa} (hm : m.WellFormed) (hp : m.present = true) : Numeral m.text
  | scientific {m : Mantissa} (hm : m.WellFormed) (hd : m.hasDigit = true) (e : Exponent) :
      Numeral (m.text ++ e.text)

variable (f : Binary.Format)

lemma not_wordFree_iff (s : Bytes) :
    ¬WordFree s ↔ ∃ t v : Bytes, t.map lowercase ∈ words ∧ allBlank v = true ∧ t ++ v = s := by
  rw [WordFree, isInfinityWord, isNanWord, not_and_or, Bool.not_eq_false, Bool.not_eq_false,
    Bool.or_eq_true, isToken_iff, isToken_iff, isToken_iff]
  simp only [words, List.mem_cons, List.not_mem_nil, or_false]
  constructor
  · rintro ((⟨t, v, ht, hv, hs⟩ | ⟨t, v, ht, hv, hs⟩) | ⟨t, v, ht, hv, hs⟩)
    · exact ⟨t, v, Or.inl ht, hv, hs⟩
    · exact ⟨t, v, Or.inr (Or.inl ht), hv, hs⟩
    · exact ⟨t, v, Or.inr (Or.inr ht), hv, hs⟩
  · rintro ⟨t, v, ht | ht | ht, hv, hs⟩
    · exact Or.inl (Or.inl ⟨t, v, ht, hv, hs⟩)
    · exact Or.inl (Or.inr ⟨t, v, ht, hv, hs⟩)
    · exact Or.inr ⟨t, v, ht, hv, hs⟩

lemma scanExponent_cons {c : UInt8} (hc : isMarker c = true) (s : Bytes) :
    (Scientific.scanExponent (c :: s)).2 =
      if (splitSign s).2.takeWhile isDigit = [] then c :: s else (splitSign s).2.dropWhile isDigit := by
  simp only [Scientific.scanExponent, hc, Bool.true_and]
  cases (splitSign s).2.takeWhile isDigit with
  | nil => rfl
  | cons d ds => rfl

lemma exists_exponent {c : UInt8} (hc : isMarker c = true) {s : Bytes}
    (hv : allBlank (Scientific.scanExponent (c :: s)).2 = true) :
    ∃ e : Exponent, e.text ++ (Scientific.scanExponent (c :: s)).2 = c :: s := by
  rw [scanExponent_cons hc] at hv ⊢
  obtain ⟨sign, -, hs⟩ := exists_signText s
  have hrun : ∀ d ∈ (splitSign s).2.takeWhile isDigit, isDigit d = true :=
    fun d hd => List.mem_takeWhile_imp hd
  have hlt := digitValue_lt_of_mem_run 10 (splitSign s).2
  split_ifs at hv ⊢ with hnil
  · -- A marker without digits stays in the rest, and is no blank.
    have hb := blank_of_mem_head? hv c rfl
    rcases isMarker_iff.mp hc with rfl | rfl <;> cases hb
  · refine ⟨⟨c == 69, sign, ((splitSign s).2.takeWhile isDigit).map digitValue, by simpa using hnil,
      hlt⟩, ?_⟩
    have hmarker : (if (c == 69) = true then 69 else 101) = c := by
      rcases isMarker_iff.mp hc with rfl | rfl <;> rfl
    simp only [Exponent.text, Exponent.marker, hmarker, map_digitByte_map_digitValue hrun,
      List.cons_append, List.append_assoc, List.takeWhile_append_dropWhile, hs]

lemma isSome_magnitude?_iff (s : Bytes) :
    (magnitude? f s).isSome = true ↔
      ∃ t v : Bytes, (∃ m : Mantissa, m.WellFormed ∧ (m.present = true ∧ t = m.text ∨
        m.hasDigit = true ∧ ∃ e : Exponent, t = m.text ++ e.text)) ∧ allBlank v = true ∧ t ++ v = s := by
  constructor
  · intro h
    have hs := Mantissa.text_append_scan s
    have hm := Mantissa.wellFormed_scan s
    rw [magnitude?_eq] at h
    cases he : startsExponent (Mantissa.scan s).2 with
    | true =>
      simp only [he, if_true, Option.isSome_ite, Bool.and_eq_true] at h
      obtain ⟨c, r, hr, hc⟩ := startsExponent_iff.mp he
      rw [hr] at h hs
      obtain ⟨e, he⟩ := exists_exponent hc h.2
      exact ⟨_, _, ⟨_, hm, Or.inr ⟨h.1, e, rfl⟩⟩, h.2, by rw [List.append_assoc, he, hs]⟩
    | false =>
      simp only [he, Bool.false_eq_true, if_false, Option.isSome_ite, Bool.and_eq_true] at h
      exact ⟨_, _, ⟨_, hm, Or.inl ⟨h.1, rfl⟩⟩, h.2, hs⟩
  · rintro ⟨t, v, ⟨m, hm, ⟨hp, rfl⟩ | ⟨hd, e, rfl⟩⟩, hv, rfl⟩
    · rw [magnitude?_plain f hm hp hv]
      rfl
    · rw [List.append_assoc, magnitude?_scientific f hm hd e hv]
      rfl

lemma readUnpadded_cases (s : Bytes) :
    (readUnpadded f s).status ≠ .failure ∧
        (¬WordFree (splitSign s).2 ∨ (magnitude? f (splitSign s).2).isSome = true) ∨
      readUnpadded f s = ⟨.zero, .failure⟩ ∧
        WordFree (splitSign s).2 ∧ magnitude? f (splitSign s).2 = none := by
  by_cases hw : WordFree (splitSign s).2
  · cases hx : magnitude? f (splitSign s).2 with
    | none => exact Or.inr ⟨readUnpadded_of_none f hw hx, hw, rfl⟩
    | some x =>
      refine Or.inl ⟨?_, Or.inr rfl⟩
      rw [readUnpadded_of_some f hw hx]
      cases x.isInfinite <;> simp
  · refine Or.inl ⟨?_, Or.inl hw⟩
    rw [status_readUnpadded_of_word f hw]
    simp

lemma numeral_iff (s : Bytes) :
    (∃ t v : Bytes, s = t ++ v ∧ Numeral t ∧ allBlank v = true) ↔
      ¬WordFree s ∨ (magnitude? f s).isSome = true := by
  rw [not_wordFree_iff, isSome_magnitude?_iff]
  constructor
  · rintro ⟨t, v, rfl, ht, hv⟩
    cases ht with
    | word ht => exact Or.inl ⟨t, v, ht, hv, rfl⟩
    | plain hm hp => exact Or.inr ⟨_, v, ⟨_, hm, Or.inl ⟨hp, rfl⟩⟩, hv, rfl⟩
    | scientific hm hd e => exact Or.inr ⟨_, v, ⟨_, hm, Or.inr ⟨hd, e, rfl⟩⟩, hv, rfl⟩
  · rintro (⟨t, v, ht, hv, rfl⟩ | ⟨t, v, ⟨m, hm, ⟨hp, rfl⟩ | ⟨hd, e, rfl⟩⟩, hv, rfl⟩)
    · exact ⟨t, v, rfl, .word ht, hv⟩
    · exact ⟨_, v, rfl, .plain hm hp, hv⟩
    · exact ⟨_, v, rfl, .scientific hm hd e, hv⟩

theorem read_accepts_iff_numeral (s : Bytes) :
    ((read f s).status ≠ .failure ↔
        ∃ t v : Bytes, (splitSign (dropBlanks s)).2 = t ++ v ∧ Numeral t ∧ allBlank v = true) ∧
      ((read f s).status = .failure →
        ∃ z : Binary.Finite f, z.quanta = 0 ∧ (read f s).value = .finite false z) := by
  rw [read_eq, numeral_iff f]
  rcases readUnpadded_cases f (dropBlanks s) with ⟨hs, hn⟩ | ⟨hs, hw, hx⟩
  · exact ⟨iff_of_true hs hn, fun h => absurd h hs⟩
  · rw [hs, hx]
    refine ⟨iff_of_false (not_not.mpr rfl) ?_, fun _ => Binary.zero_eq f⟩
    rintro (hn | hn)
    · exact hn hw
    · cases hn

end SqlCast.Floating
