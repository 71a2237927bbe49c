import SqlCast.Proofs.Integer.Radix

/-! Base ten among the bases: the two readers part only at a number cut off by a letter. -/

namespace SqlCast

namespace Text

variable {c : UInt8} {rest : Bytes}

def Letter (c : UInt8) : Prop := 65 ≤ c ∧ c ≤ 90 ∨ 97 ≤ c ∧ c ≤ 122

instance (c : UInt8) : Decidable (Letter c) := inferInstanceAs (Decidable (_ ∨ _))

lemma isDigit_iff : isDigit c = true ↔ 48 ≤ c ∧ c ≤ 57 := by
  rw [isDigit, isDigitOf, decide_eq_true_iff]
  simp only [digitValue, UInt8.le_iff_toNat_le, Bool.and_eq_true, decide_eq_true_eq,
    UInt8.reduceToNat]
  split_ifs <;> omega

lemma alphanumeric_iff : Alphanumeric c ↔ isDigit c = true ∨ Letter c := by
  rw [isDigit_iff, Letter, Alphanumeric]

lemma not_blank_of_letter (hc : Letter c) : isBlank c = false := by
  by_contra hb
  have hv := digitValue_of_blank ((Bool.not_eq_false _).mp hb)
  have ha := isAlphanumeric_iff.mpr (alphanumeric_iff.mpr (Or.inr hc))
  rw [isAlphanumeric, isDigitOf, hv] at ha
  cases ha

def StartsWithLetter (rest : Bytes) : Prop := ∃ c ∈ rest.head?, Letter c

lemma not_allBlank_of_startsWithLetter (h : StartsWithLetter rest) : allBlank rest = false := by
  obtain ⟨c, hc, hl⟩ := h
  by_contra hb
  have hblank := blank_of_mem_head? ((Bool.not_eq_false _).mp hb) c hc
  rw [not_blank_of_letter hl] at hblank
  cases hblank

end Text

namespace Integer

open Text

namespace Radix

lemma ends_iff {rest : Bytes} (hr : EndsRun rest) :
    Ends rest ↔ allBlank rest = true ∨ StartsWithLetter rest := by
  have hhead : (∃ c ∈ rest.head?, Alphanumeric c) ↔ StartsWithLetter rest := by
    constructor
    · rintro ⟨c, hc, ha⟩
      refine ⟨c, hc, (alphanumeric_iff.mp ha).resolve_left ?_⟩
      rw [hr c hc]
      exact Bool.false_ne_true
    · rintro ⟨c, hc, hl⟩
      exact ⟨c, hc, alphanumeric_iff.mpr (Or.inr hl)⟩
  have hall : allBlank rest = true ↔ ∀ c ∈ rest, isBlank c = true := List.all_eq_true
  rw [Ends, hhead, hall]
  constructor
  · rintro (rfl | hl | hb)
    · exact Or.inl (by simp)
    · exact Or.inr hl
    · exact Or.inl hb
  · rintro (hb | hl)
    · exact Or.inr (Or.inr hb)
    · exact Or.inr (Or.inl hl)

end Radix

variable (w : Width)

lemma Width.signed_mem_iff (negative : Bool) (n : ℕ) :
    (-2 ^ (w.bits - 1) ≤ (if negative then -(n : ℤ) else n) ∧
        (if negative then -(n : ℤ) else n) ≤ 2 ^ (w.bits - 1) - 1) ↔ n ≤ w.limit negative := by
  rw [← w.least_eq, ← w.greatest_eq, Width.least, Width.greatest]
  have hlimit : 127 ≤ w.limit false ∧ 127 ≤ w.limit true := ⟨w.le_limit false, w.le_limit true⟩
  cases negative with
  | false => simp only [Bool.false_eq_true, if_false]; omega
  | true => simp only [if_true]; omega

def CutByLetter (n : ℤ) (s : Bytes) : Prop :=
  leading? s = some n ∧ (-2 ^ (w.bits - 1) ≤ n ∧ n ≤ 2 ^ (w.bits - 1) - 1) ∧
    StartsWithLetter (afterLeading s)

instance (n : ℤ) (s : Bytes) : Decidable (CutByLetter w n s) :=
  inferInstanceAs (Decidable (_ ∧ _ ∧ ∃ c ∈ _, _))

section

variable {w : Width} {n : ℤ} {s : Bytes}

lemma CutByLetter.exists_run (h : CutByLetter w n s) :
    (splitSign s).2.takeWhile isDigit ≠ [] ∧
      n = (if (splitSign s).1 then -(valueOf 10 ((splitSign s).2.takeWhile isDigit) : ℤ)
        else valueOf 10 ((splitSign s).2.takeWhile isDigit)) ∧
      valueOf 10 ((splitSign s).2.takeWhile isDigit) ≤ w.limit (splitSign s).1 := by
  obtain ⟨hn, hin, -⟩ := h
  by_cases hrun : (splitSign s).2.takeWhile isDigit = []
  · simp [leading?, hrun] at hn
  · rw [leading?, if_neg (by simpa using hrun)] at hn
    obtain rfl := Option.some.inj hn
    exact ⟨hrun, rfl, (w.signed_mem_iff _ _).mp hin⟩

lemma exists_cutByLetter (hrun : (splitSign s).2.takeWhile isDigit ≠ [])
    (hle : valueOf 10 ((splitSign s).2.takeWhile isDigit) ≤ w.limit (splitSign s).1)
    (hl : StartsWithLetter (afterLeading s)) : ∃ n, CutByLetter w n s := by
  refine ⟨_, ?_, (w.signed_mem_iff _ _).mpr hle, hl⟩
  rw [leading?, if_neg (by simpa using hrun)]

end

lemma ends_afterLeading_iff (s : Bytes) :
    Radix.Ends (afterLeading s) ↔
      allBlank (afterLeading s) = true ∨ StartsWithLetter (afterLeading s) :=
  Radix.ends_iff (endsRun_dropWhile _)

lemma readUnpadded_base_ten (s : Bytes) :
    Radix.readUnpadded w 10 s =
      let run := (splitSign s).2.takeWhile isDigit
      if run = [] then ⟨0, .failure⟩
      else if w.limit (splitSign s).1 < valueOf 10 run then
        ⟨w.bound (splitSign s).1, .overflow⟩
      else if Radix.Ends (afterLeading s) then
        ⟨w.ofMagnitude (valueOf 10 run) (splitSign s).1, .success⟩
      else ⟨0, .failure⟩ :=
  Radix.readUnpadded_eq_capped w (by norm_num) s

lemma readUnpadded_ten (s : Bytes) :
    readUnpadded w s =
      let run := (splitSign s).2.takeWhile isDigit
      if run = [] then ⟨0, .failure⟩
      else if w.limit (splitSign s).1 < valueOf 10 run then
        ⟨w.bound (splitSign s).1, .overflow⟩
      else if allBlank (afterLeading s) then
        ⟨w.ofMagnitude (valueOf 10 run) (splitSign s).1, .success⟩
      else ⟨0, .failure⟩ := by
  rw [readUnpadded_eq_capped, capped]
  exact if_congr List.isEmpty_iff rfl rfl

lemma CutByLetter.readUnpadded {n : ℤ} {s : Bytes} (h : CutByLetter w n s) :
    Integer.readUnpadded w s = ⟨0, .failure⟩ ∧
      (Radix.readUnpadded w 10 s).status = .success ∧
      (Radix.readUnpadded w 10 s).value.toInt = n := by
  obtain ⟨hrun, rfl, hle⟩ := h.exists_run
  have hl : StartsWithLetter (afterLeading s) := h.2.2
  have hends := (ends_afterLeading_iff s).mpr (Or.inr hl)
  have hblank := ne_true_of_eq_false (not_allBlank_of_startsWithLetter hl)
  have hover := not_lt.mpr hle
  have hten := readUnpadded_ten w s
  have hbase := readUnpadded_base_ten w s
  simp only [if_neg hrun, if_neg hover, if_neg hblank] at hten
  simp only [if_neg hrun, if_neg hover] at hbase
  rw [if_pos hends] at hbase
  rw [hbase]
  exact ⟨hten, rfl, w.toInt_ofMagnitude _ hle⟩

lemma readUnpadded_eq_base_ten {s : Bytes} (h : ¬∃ n, CutByLetter w n s) :
    Integer.readUnpadded w s = Radix.readUnpadded w 10 s := by
  rw [readUnpadded_ten, readUnpadded_base_ten]
  by_cases hrun : (splitSign s).2.takeWhile isDigit = []
  · simp only [if_pos hrun]
  · by_cases hover : w.limit (splitSign s).1 < valueOf 10 ((splitSign s).2.takeWhile isDigit)
    · simp only [if_neg hrun, if_pos hover]
    · have hl : ¬StartsWithLetter (afterLeading s) :=
        fun hl => h (exists_cutByLetter hrun (not_lt.mp hover) hl)
      simp only [if_neg hrun, if_neg hover, ends_afterLeading_iff, hl, or_false]

/-- The reader of base ten and the reader of any base agree unless a letter cuts a number off: the
one then sees no number, the other the number before the letter. -/
theorem read_eq_read_base_ten_iff (s : Bytes) :
    (Integer.read w s = Radix.read w 10 s ↔ ¬∃ n, CutByLetter w n (dropBlanks s)) ∧
      ∀ n, CutByLetter w n (dropBlanks s) →
        Integer.read w s = ⟨0, .failure⟩ ∧
          (⟨(Radix.read w 10 s).value.toInt, (Radix.read w 10 s).status⟩ : Outcome ℤ) =
            ⟨n, .success⟩ := by
  rw [read_eq, Radix.read_eq w (by norm_num)]
  refine ⟨⟨?_, readUnpadded_eq_base_ten w⟩, ?_⟩
  · rintro heq ⟨n, hn⟩
    obtain ⟨hten, hbase, -⟩ := hn.readUnpadded
    rw [hten] at heq
    rw [← heq] at hbase
    cases hbase
  · intro n hn
    obtain ⟨hten, hbase, hvalue⟩ := hn.readUnpadded
    exact ⟨hten, by rw [hbase, hvalue]⟩

/-- Written ` -128a`. -/
def cutNumber : Bytes := [32, 45, 49, 50, 56, 97]

theorem read_base_ten_cutNumber :
    CutByLetter .int8 (-128) (dropBlanks cutNumber) ∧
      Integer.read .int8 cutNumber = ⟨0, .failure⟩ ∧
      (⟨(Radix.read .int8 10 cutNumber).value.toInt, (Radix.read .int8 10 cutNumber).status⟩ :
        Outcome ℤ) = ⟨-128, .success⟩ :=
  ⟨by decide, (read_eq_read_base_ten_iff .int8 cutNumber).2 (-128) (by decide)⟩

end Integer

end SqlCast
