import Mathlib.Data.List.TakeWhile
import SqlCast.Proofs.Text.Digit
import SqlCast.Text.Mantissa

namespace SqlCast.Text.Mantissa

structure WellFormed (m : Mantissa) : Prop where
  digits_lt : ∀ d ∈ m.digits, d < 10
  fraction_eq_nil : m.dotted = false → m.fraction = []

instance (m : Mantissa) : Decidable m.WellFormed :=
  decidable_of_iff ((∀ d ∈ m.digits, d < 10) ∧ (m.dotted = false → m.fraction = []))
    ⟨fun ⟨hd, hf⟩ => ⟨hd, hf⟩, fun ⟨hd, hf⟩ => ⟨hd, hf⟩⟩

def present (m : Mantissa) : Bool := m.hasDigit || m.dotted

def text (m : Mantissa) : Bytes :=
  m.whole.map digitByte ++ if m.dotted then 46 :: m.fraction.map digitByte else []

def scale (m : Mantissa) (exponent : ℤ) : ℤ := m.fraction.length - exponent

variable {m : Mantissa}

lemma WellFormed.whole_lt (h : m.WellFormed) : ∀ d ∈ m.whole, d < 10 :=
  fun d hd => h.digits_lt d (List.mem_append_left _ hd)

lemma WellFormed.fraction_lt (h : m.WellFormed) : ∀ d ∈ m.fraction, d < 10 :=
  fun d hd => h.digits_lt d (List.mem_append_right _ hd)

lemma plain_of_mem_text (h : m.WellFormed) : ∀ c ∈ m.text, Plain c := by
  intro c hc
  rcases List.mem_append.mp hc with hw | hf
  · exact plain_of_mem_map_digitByte h.whole_lt c hw
  · split at hf
    · rcases List.mem_cons.mp hf with rfl | hf
      · exact ⟨rfl, by decide, by decide⟩
      · exact plain_of_mem_map_digitByte h.fraction_lt c hf
    · simp at hf

lemma text_ne_nil (h : m.WellFormed) (hp : m.present = true) : m.text ≠ [] := by
  intro ht
  obtain ⟨hw, hd⟩ := List.append_eq_nil_iff.mp ht
  have hdot : m.dotted = false := by
    by_contra hdot
    simp [hdot] at hd
  have hf := h.fraction_eq_nil hdot
  simp only [List.map_eq_nil_iff] at hw
  simp [present, hasDigit, digits, hw, hf, hdot] at hp

lemma text_eq_nil (hp : m.present = false) : m.text = [] := by
  obtain ⟨hdigit, hdot⟩ : m.hasDigit = false ∧ m.dotted = false := by simpa [present] using hp
  have hdigits : m.digits = [] := by simpa [hasDigit] using hdigit
  obtain ⟨hwhole, -⟩ := List.append_eq_nil_iff.mp hdigits
  simp [text, hwhole, hdot]

lemma scan_text (h : m.WellFormed) {rest : Bytes} (hr : EndsRun rest)
    (hdot : ∀ c ∈ rest.head?, c ≠ 46) : scan (m.text ++ rest) = (m, rest) := by
  have hw := h.whole_lt
  have hf := h.fraction_lt
  have hnil := h.fraction_eq_nil
  obtain ⟨whole, fraction, dotted⟩ := m
  cases dotted with
  | true =>
    have hpoint : EndsRun (46 :: (fraction.map digitByte ++ rest)) := by
      intro c hc
      obtain rfl : 46 = c := by simpa using hc
      rfl
    simp only [text, if_true, List.append_assoc, List.cons_append, scan, takeWhile_digits hw hpoint,
      dropWhile_digits hw hpoint, takeWhile_digits hf hr, dropWhile_digits hf hr,
      map_digitValue_map_digitByte (by norm_num) hw, map_digitValue_map_digitByte (by norm_num) hf]
  | false =>
    obtain rfl : fraction = [] := hnil rfl
    simp only [text, Bool.false_eq_true, if_false, List.append_nil, scan, takeWhile_digits hw hr,
      dropWhile_digits hw hr, map_digitValue_map_digitByte (by norm_num) hw]
    split
    · exact absurd rfl (hdot _ rfl)
    · rfl

def empty : Mantissa := ⟨[], [], false⟩

lemma wellFormed_empty : empty.WellFormed := by decide

lemma scan_eq_empty {s : Bytes} (h : ∀ c ∈ s.head?, isDigit c = false ∧ c ≠ 46) :
    scan s = (empty, s) :=
  scan_text wellFormed_empty (fun c hc => (h c hc).1) fun c hc => (h c hc).2

lemma wellFormed_scan (s : Bytes) : (scan s).1.WellFormed := by
  have hw := digitValue_lt_of_mem_run 10 s
  unfold scan
  dsimp only
  split
  · rename_i r _
    exact ⟨fun d hd => (List.mem_append.mp hd).elim (hw d) (digitValue_lt_of_mem_run 10 r d), by simp⟩
  · exact ⟨fun d hd => (List.mem_append.mp hd).elim (hw d) (by simp), fun _ => rfl⟩

lemma text_append_scan (s : Bytes) : (scan s).1.text ++ (scan s).2 = s := by
  have hrun : ∀ r : Bytes, ((r.takeWhile isDigit).map digitValue).map digitByte = r.takeWhile isDigit :=
    fun r => map_digitByte_map_digitValue fun c hc => List.mem_takeWhile_imp hc
  unfold scan
  dsimp only
  split
  · rename_i r hr
    simp only [text, hrun, if_true, List.append_assoc, List.cons_append, List.takeWhile_append_dropWhile]
    rw [← hr, List.takeWhile_append_dropWhile]
  · simp only [text, hrun, Bool.false_eq_true, if_false, List.append_nil,
      List.takeWhile_append_dropWhile]

lemma length_significant_le_digits (m : Mantissa) : m.significant.length ≤ m.digits.length :=
  List.length_dropWhile_le _ _

lemma length_fraction_le_digits (m : Mantissa) : m.fraction.length ≤ m.digits.length := by
  simp [digits]

lemma ofDigits_significant (m : Mantissa) : ofDigits 10 m.significant = m.unscaled :=
  ofDigits_dropWhile_zero 10 m.digits

lemma WellFormed.significant_lt (h : m.WellFormed) : ∀ d ∈ m.significant, d < 10 :=
  fun d hd => h.digits_lt d ((List.dropWhile_sublist _).mem hd)

lemma unscaled_lt (h : m.WellFormed) : m.unscaled < 10 ^ m.significant.length := by
  rw [← ofDigits_significant]
  exact ofDigits_lt (by norm_num) h.significant_lt

lemma head_significant_ne_zero {d : ℕ} {ds : List ℕ} (h : m.significant = d :: ds) : d ≠ 0 := by
  have hd := List.head?_dropWhile_not (· == 0) m.digits
  rw [show m.digits.dropWhile (· == 0) = d :: ds from h] at hd
  simpa using hd

lemma pow_le_unscaled {k : ℕ} (h : m.significant.length = k + 1) : 10 ^ k ≤ m.unscaled := by
  rw [← ofDigits_significant]
  obtain ⟨d, ds, hs⟩ := List.exists_cons_of_length_eq_add_one h
  rw [hs] at h ⊢
  obtain rfl : ds.length = k := by simpa using h
  exact pow_le_ofDigits_cons (head_significant_ne_zero hs)

lemma length_significant_le {k : ℕ} (h : m.unscaled < 10 ^ k) : m.significant.length ≤ k := by
  cases hl : m.significant.length with
  | zero => exact Nat.zero_le k
  | succ j => exact (Nat.pow_lt_pow_iff_right (by norm_num)).mp ((pow_le_unscaled hl).trans_lt h)

lemma unscaled_eq_zero_iff (h : m.WellFormed) : m.unscaled = 0 ↔ m.significant.length = 0 := by
  constructor
  · intro hz
    by_contra hn
    obtain ⟨k, hk⟩ := Nat.exists_eq_add_one_of_ne_zero hn
    have := pow_le_unscaled hk
    have : 0 < 10 ^ k := by positivity
    omega
  · intro hn
    simpa [hn] using unscaled_lt h

lemma unscaled_ne_zero_iff (h : m.WellFormed) : m.unscaled ≠ 0 ↔ ∃ d ∈ m.digits, d ≠ 0 := by
  rw [Ne, unscaled_eq_zero_iff h, List.length_eq_zero_iff, significant, List.dropWhile_eq_nil_iff]
  simp

end SqlCast.Text.Mantissa
