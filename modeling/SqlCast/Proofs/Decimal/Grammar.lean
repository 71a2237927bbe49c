import SqlCast.Proofs.Decimal.Reading

/-! The texts that are decimal literals, where there is a mantissa at all: the digits and dots before
the exponent marker and the integer after it decide, whatever the type. -/

namespace SqlCast

namespace Text

def DigitsAndDot (s : Bytes) : Prop := (∀ c ∈ s, isDigit c = true ∨ c = 46) ∧ s.count 46 ≤ 1

instance (s : Bytes) : Decidable (DigitsAndDot s) := inferInstanceAs (Decidable (_ ∧ _))

def beforeMarker (s : Bytes) : Bytes := s.takeWhile (!isMarker ·)

def afterMarker? (s : Bytes) : Option Bytes := (s.dropWhile (!isMarker ·)).tail?

def SignedDigits (s : Bytes) : Prop :=
  (splitSign s).2 ≠ [] ∧ ∀ c ∈ (splitSign s).2, isDigit c = true

lemma count_dot_eq_zero {ds : List ℕ} (h : ∀ d ∈ ds, d < 10) : (ds.map digitByte).count 46 = 0 := by
  refine List.count_eq_zero.mpr fun hm => ?_
  have hd := isDigit_of_mem_map_digitByte h 46 hm
  cases hd

lemma not_marker_of_digitsAndDot {s : Bytes} (h : DigitsAndDot s) : ∀ c ∈ s, isMarker c = false := by
  intro c hc
  by_contra hm
  rw [Bool.not_eq_false] at hm
  rcases isMarker_iff.mp hm with rfl | rfl <;> rcases h.1 _ hc with hd | hd <;> cases hd

lemma beforeMarker_append {s rest : Bytes} (hs : ∀ c ∈ s, isMarker c = false)
    (hr : ∀ c ∈ rest.head?, isMarker c = true) : beforeMarker (s ++ rest) = s := by
  have hp : ∀ c ∈ s, (!isMarker c) = true := fun c hc => by rw [hs c hc]; rfl
  rw [beforeMarker, List.takeWhile_append_of_pos hp]
  cases rest with
  | nil => exact List.append_nil s
  | cons c rest => rw [List.takeWhile_cons_of_neg (by simp [hr c rfl]), List.append_nil]

lemma head_dropWhile_marker (s : Bytes) :
    ∀ c ∈ (s.dropWhile (!isMarker ·)).head?, isMarker c = true := by
  intro c hc
  have hd := List.head?_dropWhile_not (!isMarker ·) s
  rw [Option.mem_def.mp hc] at hd
  simpa using hd

namespace Mantissa

lemma digitsAndDot_text {m : Mantissa} (h : m.WellFormed) : DigitsAndDot m.text := by
  have hw := isDigit_of_mem_map_digitByte h.whole_lt
  have hf := isDigit_of_mem_map_digitByte h.fraction_lt
  rw [text]
  constructor
  · intro c hc
    rcases List.mem_append.mp hc with hc | hc
    · exact Or.inl (hw c hc)
    · split_ifs at hc
      · rcases List.mem_cons.mp hc with rfl | hc
        · exact Or.inr rfl
        · exact Or.inl (hf c hc)
      · cases hc
  · rw [List.count_append, count_dot_eq_zero h.whole_lt]
    split_ifs
    · rw [List.count_cons_self, count_dot_eq_zero h.fraction_lt]
    · exact Nat.zero_le _

lemma head_scan (s : Bytes) :
    ∀ c ∈ (scan s).2.head?, isDigit c = false ∧ (c = 46 → (scan s).1.dotted = true) := by
  unfold scan
  dsimp only
  split
  · exact fun c hc => ⟨endsRun_dropWhile _ c hc, fun _ => rfl⟩
  · rename_i hne
    refine fun c hc => ⟨endsRun_dropWhile s c hc, ?_⟩
    rintro rfl
    obtain ⟨r, hr⟩ := List.head?_eq_some_iff.mp hc
    exact (hne r hr).elim

lemma scan_of_digitsAndDot {s : Bytes} (h : DigitsAndDot s) : (scan s).2 = [] := by
  have hs := text_append_scan s
  cases hr : (scan s).2 with
  | nil => rfl
  | cons c r =>
    obtain ⟨hd, hdot⟩ := head_scan s c (by rw [hr]; rfl)
    rw [hr] at hs
    obtain rfl : c = 46 := by
      refine (h.1 c (hs ▸ by simp)).resolve_left ?_
      rw [hd]
      exact Bool.false_ne_true
    have hcount := h.2
    rw [← hs, text, if_pos (hdot rfl), List.append_assoc, List.cons_append, List.count_append,
      List.count_cons_self, List.count_append, List.count_cons_self] at hcount
    omega

lemma text_scan_of_digitsAndDot {s : Bytes} (h : DigitsAndDot s) : (scan s).1.text = s := by
  have hs := text_append_scan s
  rwa [scan_of_digitsAndDot h, List.append_nil] at hs

lemma present_scan_of_digitsAndDot {s : Bytes} (h : DigitsAndDot s) (hne : s ≠ []) :
    (scan s).1.present = true := by
  by_contra hp
  have hd : (scan s).1.hasDigit = false ∧ (scan s).1.dotted = false := by
    simpa [present] using hp
  have ht := text_scan_of_digitsAndDot h
  have hw : (scan s).1.whole = [] ∧ (scan s).1.fraction = [] := by
    simpa [hasDigit, digits] using hd.1
  rw [text, hd.2, hw.1] at ht
  exact hne ht.symm

end Mantissa

section

variable {s : Bytes}

lemma scan_of_beforeMarker (h : DigitsAndDot (beforeMarker s)) :
    Mantissa.scan s = ((Mantissa.scan (beforeMarker s)).1, s.dropWhile (!isMarker ·)) := by
  have hhead : ∀ c ∈ (s.dropWhile (!isMarker ·)).head?, isDigit c = false ∧ c ≠ 46 := by
    intro c hc
    rcases isMarker_iff.mp (head_dropWhile_marker s c hc) with rfl | rfl <;> decide
  have hscan := Mantissa.scan_text (Mantissa.wellFormed_scan (beforeMarker s))
    (fun c hc => (hhead c hc).1) fun c hc => (hhead c hc).2
  rwa [Mantissa.text_scan_of_digitsAndDot h, beforeMarker, List.takeWhile_append_dropWhile] at hscan

lemma exists_marker {e : Bytes} (he : afterMarker? s = some e) :
    ∃ c, isMarker c = true ∧ s.dropWhile (!isMarker ·) = c :: e := by
  cases hs : s.dropWhile (!isMarker ·) with
  | nil => simp [afterMarker?, hs] at he
  | cons c r =>
    obtain rfl : r = e := by simpa [afterMarker?, hs] using he
    exact ⟨c, head_dropWhile_marker s c (by rw [hs]; rfl), rfl⟩

lemma dropWhile_of_afterMarker?_eq_none (h : afterMarker? s = none) :
    s.dropWhile (!isMarker ·) = [] := by
  cases hs : s.dropWhile (!isMarker ·) with
  | nil => rfl
  | cons c r => simp [afterMarker?, hs] at h

lemma signedDigits_iff :
    SignedDigits s ↔ (Integer.leading? s).isSome = true ∧ Integer.afterLeading s = [] := by
  have hsplit : (splitSign s).2.takeWhile isDigit ++ Integer.afterLeading s = (splitSign s).2 :=
    List.takeWhile_append_dropWhile
  rw [SignedDigits, Integer.leading?, Integer.afterLeading, List.dropWhile_eq_nil_iff]
  refine and_congr_left fun hall => ?_
  rw [List.takeWhile_eq_self_iff.mpr hall]
  cases (splitSign s).2 <;> simp

lemma splitSign_suffix (s : Bytes) : (splitSign s).2 <:+ s := by
  obtain ⟨sign, -, hs⟩ := exists_signText s
  exact ⟨_, hs⟩

lemma afterLeading_suffix {e : Bytes} (he : afterMarker? s = some e) :
    Integer.afterLeading e <:+ s := by
  obtain ⟨c, -, htail⟩ := exists_marker he
  calc Integer.afterLeading e <:+ (splitSign e).2 := List.dropWhile_suffix _
    _ <:+ e := splitSign_suffix e
    _ <:+ c :: e := List.suffix_cons c e
    _ <:+ s := htail ▸ List.dropWhile_suffix _

lemma exists_head_scan (h : ¬DigitsAndDot (beforeMarker s)) :
    ∃ c r, (Mantissa.scan s).2 = c :: r ∧ isMarker c = false := by
  have hs := Mantissa.text_append_scan s
  have hm := Mantissa.digitsAndDot_text (Mantissa.wellFormed_scan s)
  by_contra hno
  have hhead : ∀ c ∈ (Mantissa.scan s).2.head?, isMarker c = true := by
    intro c hc
    obtain ⟨r, hr⟩ := List.head?_eq_some_iff.mp hc
    by_contra hc
    exact hno ⟨c, r, hr, eq_false_of_ne_true hc⟩
  refine h ?_
  rw [← hs, beforeMarker_append (not_marker_of_digitsAndDot hm) hhead]
  exact hm

end

end Text

namespace Decimal

open Text

variable {t : Storage} {precision scale : ℕ}

lemma shorten_status_ne_failure (t : Storage) (ty : DecimalType) (r : Rounding) (m : Mantissa)
    (p : Placement) : (shorten t ty r m p).status ≠ .failure := by
  simp only [shorten]
  split_ifs <;> simp

lemma fit_of_failure {ty : DecimalType} {r : Rounding} {m : Mantissa} {exponent : ℤ}
    (hs : (fit t ty r m exponent).status = .failure) :
    m.present = false ∧ (fit t ty r m exponent).value = 0 := by
  simp only [fit] at hs ⊢
  split_ifs at hs ⊢ with hwide hexcess habsent
  · exact absurd hs (shorten_status_ne_failure t ty r m _)
  · rw [← Bool.not_or, Bool.not_eq_true'] at habsent
    exact ⟨habsent, rfl⟩

lemma readFitting_value_of_failure {ty : DecimalType} {r : Rounding} {s : Bytes}
    (hs : (readFitting t ty r s).status = .failure) : (readFitting t ty r s).value = ⟨0⟩ := by
  simp only [readFitting] at hs ⊢
  split_ifs at hs ⊢
  · simp only [(fit_of_failure hs).2]
    cases (splitSign (trim s)).1 <;> rfl
  · rfl

lemma readFitting_of_bad_mantissa (t : Storage) (ty : DecimalType) (r : Rounding) {s : Bytes}
    (h : ¬DigitsAndDot (beforeMarker (splitSign (trim s)).2)) :
    readFitting t ty r s = ⟨⟨0⟩, .failure⟩ := by
  obtain ⟨c, rest, hrest, hc⟩ := exists_head_scan h
  have he : readExponent (c :: rest) = ⟨0, .failure⟩ := by
    rw [readExponent, hc]
    rfl
  simp only [readFitting, hrest, he]
  rfl

section

variable (t) (ty : DecimalType) (r : Rounding) {s : Bytes}
  (h : DigitsAndDot (beforeMarker (splitSign (trim s)).2))

include h

lemma readFitting_of_mantissa :
    readFitting t ty r s =
      let m := (Mantissa.scan (beforeMarker (splitSign (trim s)).2)).1
      let e := readExponent ((splitSign (trim s)).2.dropWhile (!isMarker ·))
      if e.status = .success then
        ⟨signed (splitSign (trim s)).1 (fit t ty r m e.value).value, (fit t ty r m e.value).status⟩
      else ⟨⟨0⟩, exponentStatus e⟩ := by
  simp only [readFitting, scan_of_beforeMarker h]

lemma readFitting_of_unfit_exponent {e : Bytes} (he : afterMarker? (splitSign (trim s)).2 = some e)
    {n : ℤ} (hn : Integer.leading? e = some n) :
    (127 < n → readFitting t ty r s = ⟨⟨0⟩, .overflow⟩) ∧
      (n < -128 → readFitting t ty r s = ⟨⟨0⟩, .underflow⟩) := by
  obtain ⟨c, hc, htail⟩ := exists_marker he
  simp only [readFitting_of_mantissa t ty r h, htail, readExponent_cons hc, hn, outcomeOf_int8]
  constructor
  · intro hhigh
    have hlow : ¬n < -128 := by omega
    simp only [if_neg hlow, if_pos hhigh]
    rfl
  · intro hlow
    simp only [if_pos hlow]
    rfl

lemma readFitting_status_eq_failure_iff (hne : beforeMarker (splitSign (trim s)).2 ≠ []) :
    (readFitting t ty r s).status = .failure ↔
      ∃ e, afterMarker? (splitSign (trim s)).2 = some e ∧ ¬SignedDigits e ∧
        ∀ n, Integer.leading? e = some n → -128 ≤ n ∧ n ≤ 127 := by
  have hfit : ∀ e, (fit t ty r (Mantissa.scan (beforeMarker (splitSign (trim s)).2)).1 e).status ≠
      .failure := by
    intro e hs
    have hp := Mantissa.present_scan_of_digitsAndDot h hne
    rw [(fit_of_failure hs).1] at hp
    cases hp
  cases he : afterMarker? (splitSign (trim s)).2 with
  | none =>
    have htail := dropWhile_of_afterMarker?_eq_none he
    simpa [readFitting_of_mantissa t ty r h, htail, readExponent] using hfit 0
  | some e =>
    obtain ⟨c, hc, htail⟩ := exists_marker he
    have hblank : allBlank (Integer.afterLeading e) = true ↔ Integer.afterLeading e = [] :=
      ⟨eq_nil_of_suffix_trim ((afterLeading_suffix he).trans (splitSign_suffix (trim s))),
        fun hnil => by rw [hnil]; rfl⟩
    simp only [Option.some.injEq, exists_eq_left', signedDigits_iff, ← hblank]
    cases hn : Integer.leading? e with
    | none =>
      simp [readFitting_of_mantissa t ty r h, htail, readExponent_cons hc, hn, Integer.outcomeOf,
        exponentStatus]
    | some n =>
      by_cases hin : -128 ≤ n ∧ n ≤ 127
      · have hlow : ¬n < -128 := by omega
        have hhigh : ¬127 < n := by omega
        simp only [readFitting_of_mantissa t ty r h, htail, readExponent_cons hc, hn, outcomeOf_int8,
          if_neg hlow, if_neg hhigh]
        cases allBlank (Integer.afterLeading e) with
        | true => simpa using hfit n
        | false => simpa [exponentStatus] using hin
      · refine iff_of_false ?_ fun hr => hin (hr.2 n rfl)
        have hunfit := readFitting_of_unfit_exponent t ty r h he hn
        by_cases hlow : n < -128
        · rw [hunfit.2 hlow]
          simp
        · rw [hunfit.1 (by omega)]
          simp

end

/-- The mantissa and the exponent alone decide whether a text with a mantissa is a number. -/
theorem read_accepts_iff_literal (t : Storage) (precision scale : ℕ) (r : Rounding) (s : Bytes) :
    let body := (splitSign (trim s)).2
    let result := Decimal.read t precision scale r s
    (t.Admits precision scale → beforeMarker body ≠ [] →
      (result.status = .failure ↔
        ¬DigitsAndDot (beforeMarker body) ∨
          ∃ e, afterMarker? body = some e ∧ ¬SignedDigits e ∧
            ∀ n, Integer.leading? e = some n → -128 ≤ n ∧ n ≤ 127) ∧
      (DigitsAndDot (beforeMarker body) →
        ∀ e n, afterMarker? body = some e → Integer.leading? e = some n →
          (127 < n → result = ⟨⟨0⟩, .overflow⟩) ∧ (n < -128 → result = ⟨⟨0⟩, .underflow⟩))) ∧
    (result.status = .failure → result.value = ⟨0⟩) ∧
    (¬t.Admits precision scale → result = ⟨⟨0⟩, .failure⟩) := by
  intro body result
  by_cases hadm : t.Admits precision scale
  · have hread : result = readFitting t hadm.type r s := hadm.read_eq r s
    rw [hread]
    refine ⟨fun _ hne => ⟨?_, fun hm e n he hn => readFitting_of_unfit_exponent t _ r hm he hn⟩,
      readFitting_value_of_failure, fun hno => absurd hadm hno⟩
    by_cases hm : DigitsAndDot (beforeMarker body)
    · rw [readFitting_status_eq_failure_iff t _ r hm hne, or_iff_right (not_not.mpr hm)]
    · rw [readFitting_of_bad_mantissa t _ r hm]
      exact iff_of_true rfl (Or.inl hm)
  · have hread : result = ⟨⟨0⟩, .failure⟩ := read_of_not_admits hadm r s
    rw [hread]
    exact ⟨fun h => absurd h hadm, fun _ => rfl, fun _ => rfl⟩

def tinyExponent : Bytes := [49, 46, 53, 101, 45, 50, 48, 48]

theorem read_accepts_tinyExponent :
    Storage.word64.Admits 5 2 ∧ beforeMarker (splitSign (trim tinyExponent)).2 ≠ [] ∧
      (Decimal.read .word64 5 2 .halfUp tinyExponent).status ≠ .failure ∧
      Decimal.read .word64 5 2 .halfUp tinyExponent = ⟨⟨0⟩, .underflow⟩ := by
  have hadm : Storage.word64.Admits 5 2 := by decide
  have hne : beforeMarker (splitSign (trim tinyExponent)).2 ≠ [] := by decide
  have hm : DigitsAndDot (beforeMarker (splitSign (trim tinyExponent)).2) := by decide +kernel
  obtain ⟨haccept, -⟩ := read_accepts_iff_literal .word64 5 2 .halfUp tinyExponent
  have hread := ((haccept hadm hne).2 hm [45, 50, 48, 48] (-200) rfl rfl).2 (by norm_num)
  exact ⟨hadm, hne, by rw [hread]; simp, hread⟩

end Decimal

end SqlCast
