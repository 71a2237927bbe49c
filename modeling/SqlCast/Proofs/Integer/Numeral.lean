import SqlCast.Proofs.Integer.Radix
import SqlCast.Proofs.Text.Literal

namespace SqlCast

namespace Text

def Writes (base : ℕ) (n : ℤ) (s : Bytes) : Prop :=
  ∃ (sign : Option Sign) (zeros : ℕ) (t : Bytes), isMinus sign = decide (n < 0) ∧
    t.map lowercase = (List.replicate zeros 0 ++ digitsOf base n.natAbs).map digitByte ∧
    signText sign ++ t = s

lemma digitValue_lowercase (c : UInt8) : digitValue (lowercase c) = digitValue c := by
  rw [lowercase]
  split
  · rename_i hc
    simp only [UInt8.le_iff_toNat_le, Bool.and_eq_true, decide_eq_true_eq, UInt8.reduceToNat] at hc
    have hadd : (c + 32).toNat = c.toNat + 32 := by
      simp only [UInt8.toNat_add, UInt8.reduceToNat]
      omega
    simp only [digitValue, UInt8.le_iff_toNat_le, Bool.and_eq_true, decide_eq_true_eq, UInt8.reduceToNat, hadd]
    split_ifs <;> omega
  · rfl

lemma map_digitValue_of_lowercase {base : ℕ} {ds : List ℕ} {t : Bytes} (hb : base ≤ 36)
    (hds : ∀ d ∈ ds, d < base) (h : t.map lowercase = ds.map digitByte) : t.map digitValue = ds := by
  have hcase : t.map digitValue = (t.map lowercase).map digitValue := by
    simp [digitValue_lowercase]
  rw [hcase, h, map_digitValue_map_digitByte hb hds]

lemma plain_of_digitValue_lt {c : UInt8} (h : digitValue c < 36) : Plain c := by
  refine ⟨?_, ?_, ?_⟩
  · by_contra hc
    rw [digitValue_of_blank ((Bool.not_eq_false _).mp hc)] at h
    exact lt_irrefl 36 h
  · rintro rfl
    exact absurd h (by decide)
  · rintro rfl
    exact absurd h (by decide)

lemma Writes.scan {base : ℕ} (hb : 2 ≤ base ∧ base ≤ 36) {n : ℤ} {s : Bytes} (h : Writes base n s) :
    dropBlanks s = s ∧ (splitSign s).1 = decide (n < 0) ∧
      (splitSign s).2 ≠ [] ∧
      (splitSign s).2.takeWhile (isDigitOf base) = (splitSign s).2 ∧
      (splitSign s).2.dropWhile (isDigitOf base) = [] ∧
      valueOf base (splitSign s).2 = n.natAbs := by
  obtain ⟨sign, zeros, t, hsign, ht, rfl⟩ := h
  have hds : ∀ d ∈ List.replicate zeros 0 ++ digitsOf base n.natAbs, d < base := by
    intro d hd
    rcases List.mem_append.mp hd with hz | hn
    · rw [List.eq_of_mem_replicate hz]
      omega
    · exact digitsOf_lt (by omega) _ d hn
  have hvalues := map_digitValue_of_lowercase hb.2 hds ht
  have hdigit : ∀ c ∈ t, digitValue c < base := by
    intro c hc
    apply hds
    rw [← hvalues]
    exact List.mem_map_of_mem hc
  have hhead : ∀ c ∈ t.head?, Plain c :=
    fun c hc => plain_of_digitValue_lt ((hdigit c (List.mem_of_head? hc)).trans_le hb.2)
  have hblank := dropBlanks_signText (rfl : allBlank [] = true) sign fun c hc => (hhead c hc).1
  have hrun : ∀ c ∈ t, isDigitOf base c = true := fun c hc => decide_eq_true (hdigit c hc)
  rw [splitSign_signText sign fun c hc => (hhead c hc).2]
  refine ⟨hblank, hsign, ?_, List.takeWhile_eq_self_iff.mpr hrun, List.dropWhile_eq_nil_iff.mpr hrun, ?_⟩
  · rintro rfl
    have hnil := hvalues
    simp [digitsOf_ne_nil] at hnil
  · rw [valueOf, hvalues, ofDigits_replicate_zero_append, ofDigits_digitsOf]

end Text

namespace Integer

open Text

theorem read_numeral (w : Width) {base : ℕ} (hb : 2 ≤ base ∧ base ≤ 36) (v : w.Value) {s : Bytes}
    (h : Writes base v.toInt s) :
    Radix.read w base s = ⟨v, .success⟩ ∧ (base = 10 → Integer.read w s = ⟨v, .success⟩) := by
  obtain ⟨hblank, hsign, hne, hrun, hrest, hvalue⟩ := h.scan hb
  have hle := Width.natAbs_toInt_le_limit v
  have hv := Width.ofMagnitude_toInt v
  refine ⟨?_, ?_⟩
  · rw [Radix.read_eq w hb, hblank, Radix.readUnpadded_eq_capped w hb, Radix.capped]
    simp only [hrun, hrest, if_neg hne, hvalue, hsign, if_neg (not_lt.mpr hle), hv]
    exact if_pos (Or.inl rfl)
  · rintro rfl
    have hten : isDigit = isDigitOf 10 := rfl
    rw [Integer.read_eq, hblank, readUnpadded_eq_capped, capped]
    simp only [hten, hrun, hrest, hvalue, hsign, if_neg (not_lt.mpr hle), hv]
    rw [if_neg (by simpa using hne)]
    rfl

/-- Written `-00ZiK0zk`. -/
def mixedCase : Bytes := [45, 48, 48, 90, 105, 75, 48, 122, 107]

lemma writes_mixedCase : Writes 36 (BitVec.intMin 32).toInt mixedCase := by
  refine ⟨some .minus, 2, mixedCase.drop 1, by decide, ?_, rfl⟩
  have hdigits : digitsOf 36 (BitVec.intMin 32).toInt.natAbs = [35, 18, 20, 0, 35, 20] := by
    change digitsOf 36 2147483648 = _
    simp [digitsOf]
  rw [hdigits]
  decide

def plusGreatest : Bytes := [43, 48, 49, 50, 55]

lemma writes_plusGreatest : Writes 10 (BitVec.intMax 8).toInt plusGreatest := by
  refine ⟨some .plus, 1, plusGreatest.drop 1, by decide, ?_, rfl⟩
  have hdigits : digitsOf 10 (BitVec.intMax 8).toInt.natAbs = [1, 2, 7] := by
    change digitsOf 10 127 = _
    simp [digitsOf]
  rw [hdigits]
  decide

theorem read_numeral_mixedCase :
    Radix.read .int32 36 mixedCase = ⟨BitVec.intMin 32, .success⟩ ∧
      Radix.read .int8 10 plusGreatest = ⟨BitVec.intMax 8, .success⟩ ∧
      Integer.read .int8 plusGreatest = ⟨BitVec.intMax 8, .success⟩ := by
  have hten := read_numeral .int8 (by norm_num) (BitVec.intMax 8) writes_plusGreatest
  exact ⟨(read_numeral .int32 (by norm_num) (BitVec.intMin 32) writes_mixedCase).1, hten.1, hten.2 rfl⟩

end Integer

end SqlCast
