import SqlCast.Proofs.Floating.Quotient
import SqlCast.Proofs.Floating.Reader
import SqlCast.Proofs.Text.Trailing

/-! Special values: a NaN is only read from its word, and an infinity that is no word is an
overflow. -/

namespace SqlCast

namespace Text

def SpellsWord (word s : Bytes) : Prop :=
  ∃ (u : Bytes) (sign : Option Sign) (t v : Bytes), allBlank u = true ∧ t.map lowercase = word ∧
    allBlank v = true ∧ u ++ (signText sign ++ (t ++ v)) = s

def Lettered (w : UInt8) : Prop := isBlank w = false ∧ w ≠ 45 ∧ w ≠ 43

instance (w : UInt8) : Decidable (Lettered w) := inferInstanceAs (Decidable (_ ∧ _))

lemma lettered_of_lowercase {c : UInt8} (h : Lettered (lowercase c)) : Lettered c := by
  refine ⟨?_, ?_, ?_⟩
  · by_contra hb
    have hb := (Bool.not_eq_false _).mp hb
    rw [Lettered, lowercase_of_blank hb, hb] at h
    exact nomatch h.1
  · rintro rfl
    exact h.2.1 rfl
  · rintro rfl
    exact h.2.2 rfl

lemma spellsWord_iff {word : Bytes} {w : UInt8} (hword : word.head? = some w) (hw : Lettered w) (s : Bytes) :
    SpellsWord word s ↔ isToken word (splitSign (dropBlanks s)).2 = true := by
  rw [isToken_iff]
  constructor
  · rintro ⟨u, sign, t, v, hu, ht, hv, rfl⟩
    rw [← ht, List.head?_map, Option.map_eq_some_iff] at hword
    obtain ⟨c, hc, rfl⟩ := hword
    have hhead : ∀ d ∈ (t ++ v).head?, Lettered d := by
      rw [List.head?_append, hc]
      rintro d ⟨⟩
      exact lettered_of_lowercase hw
    refine ⟨t, v, ht, hv, ?_⟩
    rw [dropBlanks_signText hu sign fun d hd => (hhead d hd).1,
      splitSign_signText sign fun d hd => (hhead d hd).2]
  · rintro ⟨t, v, ht, hv, h⟩
    obtain ⟨sign, -, hs⟩ := exists_signText (dropBlanks s)
    refine ⟨s.takeWhile isBlank, sign, t, v, ?_, ht, hv, ?_⟩
    · exact List.all_eq_true.mpr fun c hc => List.mem_takeWhile_imp hc
    · rw [h, hs]
      exact List.takeWhile_append_dropWhile

end Text

namespace Floating

open Text Binary

def SpellsNan (s : Bytes) : Prop := SpellsWord Scientific.nanToken s

def SpellsInfinity (s : Bytes) : Prop :=
  SpellsWord Scientific.infToken s ∨ SpellsWord Scientific.infinityToken s

lemma spellsNan_iff (s : Bytes) : SpellsNan s ↔ isNanWord (splitSign (dropBlanks s)).2 = true :=
  spellsWord_iff (w := 110) rfl (by decide) s

lemma spellsInfinity_iff (s : Bytes) :
    SpellsInfinity s ↔ isInfinityWord (splitSign (dropBlanks s)).2 = true := by
  rw [isInfinityWord, Bool.or_eq_true]
  exact or_congr (spellsWord_iff (w := 105) rfl (by decide) s) (spellsWord_iff (w := 105) rfl (by decide) s)

lemma isNanWord_of_isInfinityWord {body : Bytes} (h : isInfinityWord body = true) :
    isNanWord body = false := by
  cases body with
  | nil => rfl
  | cons c body =>
    by_cases hc : lowercase c = 110
    · have hinf : dropToken? Scientific.infToken (c :: body) = none :=
        dropToken?_of_head_ne (by rw [hc]; decide) _ _
      have hinfinity : dropToken? Scientific.infinityToken (c :: body) = none :=
        dropToken?_of_head_ne (by rw [hc]; decide) _ _
      rw [isInfinityWord, isToken, isToken, hinf, hinfinity] at h
      cases h
    · have hnan : dropToken? Scientific.nanToken (c :: body) = none := dropToken?_of_head_ne hc _ _
      rw [isNanWord, isToken, hnan]
      rfl

section

variable {f : Format} (negative : Bool)

lemma signed_infinity : signed negative (.infinity false : Binary f) = .infinity negative := by
  cases negative <;> rfl

lemma unsigned_of_magnitude? {s : Bytes} {x : Binary f} (h : magnitude? f s = some x) : Unsigned x := by
  rw [magnitude?_eq] at h
  dsimp only at h
  split_ifs at h with he hd hp
  · obtain rfl := Option.some.inj h
    exact unsigned_ofDecimal f _ _
  · obtain rfl := Option.some.inj h
    exact Plain.unsigned_value (Mantissa.wellFormed_scan s) f

end

variable (f : Format)

inductive Reads (negative : Bool) (body : Bytes) : Outcome (Binary f) → Prop
  | infinity (hi : isInfinityWord body = true) : Reads negative body ⟨.infinity negative, .success⟩
  | nan (hn : isNanWord body = true) : Reads negative body ⟨.nan, .success⟩
  | failure (hw : WordFree body) : Reads negative body ⟨.zero, .failure⟩
  | finite (hw : WordFree body) (v : Finite f) : Reads negative body ⟨.finite negative v, .success⟩
  | overflow (hw : WordFree body) : Reads negative body ⟨.infinity negative, .overflow⟩

lemma reads_readUnpadded (s : Bytes) : Reads f (splitSign s).1 (splitSign s).2 (readUnpadded f s) := by
  by_cases hw : WordFree (splitSign s).2
  · cases hx : magnitude? f (splitSign s).2 with
    | none =>
      rw [readUnpadded_of_none f hw hx]
      exact .failure hw
    | some x =>
      rw [readUnpadded_of_some f hw hx]
      cases unsigned_of_magnitude? hx with
      | ofFinite v =>
        rw [signed_finite]
        exact .finite hw v
      | ofInfinity =>
        rw [signed_infinity]
        exact .overflow hw
  · simp only [readUnpadded]
    split_ifs with hi hn
    · exact .infinity hi
    · exact .nan hn
    · exact absurd ⟨eq_false_of_ne_true hi, eq_false_of_ne_true hn⟩ hw

/-- A NaN is read from its word alone and an infinity with success from one of its two words; every
other infinity is an overflow, and every overflow an infinity. The sign is that of the text. -/
theorem read_special (s : Bytes) :
    ((read f s).value = .nan ↔ SpellsNan s) ∧
      ((read f s).value.isInfinite = true ∧ (read f s).status = .success ↔ SpellsInfinity s) ∧
      ((read f s).status = .overflow ↔ (read f s).value.isInfinite = true ∧ ¬SpellsInfinity s) ∧
      ((read f s).value.isInfinite = true ↔
        (read f s).value = .infinity (splitSign (dropBlanks s)).1) := by
  have h := reads_readUnpadded f (dropBlanks s)
  rw [spellsNan_iff, spellsInfinity_iff, read_eq]
  generalize splitSign (dropBlanks s) = split, readUnpadded f (dropBlanks s) = o at h ⊢
  cases h with
  | infinity hi => simp [isInfinite, hi, isNanWord_of_isInfinityWord hi]
  | nan hn =>
    have hi : isInfinityWord split.2 = false :=
      eq_false_of_ne_true fun hi => by simp [isNanWord_of_isInfinityWord hi] at hn
    simp [isInfinite, hn, hi]
  | failure hw =>
    obtain ⟨z, -, hz⟩ := zero_eq f
    simp [isInfinite, hw.1, hw.2, hz]
  | finite hw v => simp [isInfinite, hw.1, hw.2]
  | overflow hw => simp [isInfinite, hw.1, hw.2]

end Floating

end SqlCast
