import Mathlib.Data.List.TakeWhile
import Mathlib.Data.Nat.Digits.Lemmas
import SqlCast.Text.Digit

namespace SqlCast.Text

variable {base : ℕ} {ds : List ℕ}

lemma ofDigits_eq_reverse (base : ℕ) (ds : List ℕ) :
    ofDigits base ds = Nat.ofDigits base ds.reverse := by
  induction ds using List.reverseRecOn with
  | nil => rfl
  | append_singleton ds d ih =>
    rw [ofDigits_append_singleton, ih, List.reverse_append, List.reverse_singleton,
      List.singleton_append, Nat.ofDigits_cons]
    ring

lemma ofDigits_append (base : ℕ) (ds es : List ℕ) :
    ofDigits base (ds ++ es) = ofDigits base ds * base ^ es.length + ofDigits base es := by
  rw [ofDigits_eq_reverse, ofDigits_eq_reverse, ofDigits_eq_reverse, List.reverse_append,
    Nat.ofDigits_append, List.length_reverse]
  ring

lemma ofDigits_cons (base d : ℕ) (ds : List ℕ) :
    ofDigits base (d :: ds) = d * base ^ ds.length + ofDigits base ds := by
  have hd : ofDigits base [d] = d := by
    rw [ofDigits, List.foldl_cons, List.foldl_nil, Nat.zero_mul, Nat.zero_add]
  rw [← List.singleton_append, ofDigits_append, hd]

lemma ofDigits_lt (hb : 1 < base) (h : ∀ d ∈ ds, d < base) :
    ofDigits base ds < base ^ ds.length := by
  rw [ofDigits_eq_reverse, ← List.length_reverse]
  exact Nat.ofDigits_lt_base_pow_length hb (by simpa using h)

lemma pow_le_ofDigits_cons {d : ℕ} (hd : d ≠ 0) :
    base ^ ds.length ≤ ofDigits base (d :: ds) := by
  rw [ofDigits_cons]
  exact Nat.le_add_right_of_le (Nat.le_mul_of_pos_left _ (Nat.pos_of_ne_zero hd))

lemma ofDigits_take (hb : 0 < base) (h : ∀ d ∈ ds, d < base) (k : ℕ) :
    ofDigits base (ds.take k) = ofDigits base ds / base ^ (ds.length - k) := by
  have hr : ∀ d ∈ ds.reverse, d < base := by simpa using h
  rw [ofDigits_eq_reverse, ofDigits_eq_reverse, List.reverse_take,
    Nat.ofDigits_div_pow_eq_ofDigits_drop _ hb _ hr]

lemma ofDigits_dropWhile_zero (base : ℕ) (ds : List ℕ) :
    ofDigits base (ds.dropWhile (· == 0)) = ofDigits base ds := by
  induction ds with
  | nil => rfl
  | cons d ds ih =>
    by_cases hd : d = 0
    · subst hd
      rw [List.dropWhile_cons_of_pos (by rfl), ih, ofDigits_cons, Nat.zero_mul, Nat.zero_add]
    · rw [List.dropWhile_cons_of_neg (by simpa using hd)]

lemma digitsOf_lt (hb : 1 < base) (n : ℕ) : ∀ d ∈ digitsOf base n, d < base := by
  fun_induction digitsOf base n with
  | case1 n h => simpa using h.resolve_right (by omega)
  | case2 n h ih =>
    intro d hd
    rcases List.mem_append.mp hd with hd | hd
    · exact ih d hd
    · obtain rfl : d = n % base := by simpa using hd
      exact Nat.mod_lt n (by omega)

lemma digitsOf_ne_nil (base n : ℕ) : digitsOf base n ≠ [] := by
  rw [digitsOf]
  split <;> simp

lemma head_digitsOf_ne_zero {base n : ℕ} (hn : n ≠ 0) : ∀ d ∈ (digitsOf base n).head?, d ≠ 0 := by
  fun_induction digitsOf base n with
  | case1 n h => simpa using hn
  | case2 n h ih =>
    have hq : n / base ≠ 0 := by
      have : 0 < n / base := Nat.div_pos (by omega) (by omega)
      omega
    intro d hd
    rw [List.head?_append_of_ne_nil _ (digitsOf_ne_nil base _)] at hd
    exact ih hq d hd

lemma digitsOf_of_lt {n : ℕ} (h : n < base) : digitsOf base n = [n] := by
  rw [digitsOf, dif_pos (Or.inl h)]

lemma digitsOf_mul_add {p d : ℕ} (hb : 1 < base) (hp : 0 < p) (hd : d < base) :
    digitsOf base (p * base + d) = digitsOf base p ++ [d] := by
  have hlow : base ≤ p * base := Nat.le_mul_of_pos_left base hp
  have hdiv : (p * base + d) / base = p := by
    rw [mul_comm, Nat.mul_add_div (by omega), Nat.div_eq_of_lt hd, Nat.add_zero]
  have hmod : (p * base + d) % base = d := by
    rw [mul_comm, Nat.mul_add_mod, Nat.mod_eq_of_lt hd]
  rw [digitsOf, dif_neg (by omega), hdiv, hmod]

lemma digitsOf_ofDigits (hb : 1 < base) (hlt : ∀ d ∈ ds, d < base) (hne : ds ≠ [])
    (hz : ds.head? = some 0 → ds = [0]) : digitsOf base (ofDigits base ds) = ds := by
  induction ds using List.reverseRecOn with
  | nil => exact absurd rfl hne
  | append_singleton ds d ih =>
    have hd : d < base := hlt d (by simp)
    rw [ofDigits_append_singleton]
    cases ds with
    | nil => simp [digitsOf_of_lt hd]
    | cons e es =>
      have he : e ≠ 0 := by
        rintro rfl
        simpa using hz rfl
      have hpos : 0 < ofDigits base (e :: es) :=
        lt_of_lt_of_le (by positivity) (pow_le_ofDigits_cons he)
      have hinit := ih (fun c hc => hlt c (List.mem_append_left _ hc)) (List.cons_ne_nil e es)
        fun h => absurd (Option.some.inj h) he
      rw [digitsOf_mul_add hb hpos hd, hinit]

lemma ofDigits_inj {es : List ℕ} (hb : 1 < base) (hds : ∀ d ∈ ds, d < base) (hes : ∀ d ∈ es, d < base)
    (hlen : ds.length = es.length) : ofDigits base ds = ofDigits base es ↔ ds = es := by
  constructor
  · intro h
    rw [ofDigits_eq_reverse, ofDigits_eq_reverse] at h
    apply List.reverse_injective
    exact Nat.ofDigits_inj_of_len_eq hb (by simpa using hlen) (by simpa using hds) (by simpa using hes) h
  · rintro rfl
    rfl

lemma ofDigits_replicate_zero_append (base k : ℕ) (ds : List ℕ) :
    ofDigits base (List.replicate k 0 ++ ds) = ofDigits base ds := by
  induction k with
  | zero => rfl
  | succ k ih => rw [List.replicate_succ, List.cons_append, ofDigits_cons, ih, Nat.zero_mul, Nat.zero_add]

lemma digitValue_digitByte : ∀ d < 36, digitValue (digitByte d) = d := by decide

lemma isDigit_digitByte : ∀ d < 10, isDigit (digitByte d) = true := by decide

def Plain (c : UInt8) : Prop := isBlank c = false ∧ c ≠ 45 ∧ c ≠ 43

lemma plain_digitByte : ∀ d < 10, Plain (digitByte d) := by
  unfold Plain
  decide

lemma map_digitValue_map_digitByte (hb : base ≤ 36) (h : ∀ d ∈ ds, d < base) :
    (ds.map digitByte).map digitValue = ds := by
  rw [List.map_map]
  exact (List.map_congr_left fun d hd => digitValue_digitByte d ((h d hd).trans_le hb)).trans (List.map_id' ds)

lemma plain_of_mem_map_digitByte (h : ∀ d ∈ ds, d < 10) : ∀ c ∈ ds.map digitByte, Plain c := by
  intro c hc
  obtain ⟨d, hd, rfl⟩ := List.mem_map.mp hc
  exact plain_digitByte d (h d hd)

lemma digitByte_digitValue {c : UInt8} (h : isDigit c = true) : digitByte (digitValue c) = c := by
  have hlt : digitValue c < 10 := of_decide_eq_true h
  have hc : digitValue c = c.toNat - 48 ∧ 48 ≤ c.toNat := by
    simp only [digitValue, UInt8.le_iff_toNat_le, Bool.and_eq_true, decide_eq_true_eq,
      UInt8.reduceToNat] at hlt ⊢
    split_ifs at hlt ⊢ <;> omega
  rw [digitByte, if_pos hlt, hc.1, Nat.sub_add_cancel hc.2]
  exact UInt8.ofNat_toNat

lemma map_digitByte_map_digitValue {run : Bytes} (h : ∀ c ∈ run, isDigit c = true) :
    (run.map digitValue).map digitByte = run := by
  rw [List.map_map]
  exact (List.map_congr_left fun c hc => digitByte_digitValue (h c hc)).trans (List.map_id' run)

lemma digitValue_lt_of_mem_run (base : ℕ) (s : Bytes) :
    ∀ d ∈ (s.takeWhile (isDigitOf base)).map digitValue, d < base := by
  intro d hd
  obtain ⟨c, hc, rfl⟩ := List.mem_map.mp hd
  have hc := List.mem_takeWhile_imp hc
  exact of_decide_eq_true hc

lemma isDigit_of_mem_map_digitByte (h : ∀ d ∈ ds, d < 10) :
    ∀ c ∈ ds.map digitByte, isDigit c = true := by
  intro c hc
  obtain ⟨d, hd, rfl⟩ := List.mem_map.mp hc
  exact isDigit_digitByte d (h d hd)

def EndsRun (rest : Bytes) : Prop := ∀ c ∈ rest.head?, isDigit c = false

lemma EndsRun.takeWhile {rest : Bytes} (h : EndsRun rest) : rest.takeWhile isDigit = [] := by
  cases rest with
  | nil => rfl
  | cons c rest => exact List.takeWhile_cons_of_neg (by simp [h c rfl])

lemma EndsRun.dropWhile {rest : Bytes} (h : EndsRun rest) : rest.dropWhile isDigit = rest := by
  cases rest with
  | nil => rfl
  | cons c rest => exact List.dropWhile_cons_of_neg (by simp [h c rfl])

lemma endsRun_dropWhile (s : Bytes) : EndsRun (s.dropWhile isDigit) := by
  intro c hc
  have hd := List.head?_dropWhile_not isDigit s
  rw [Option.mem_def.mp hc] at hd
  simpa using hd

lemma takeWhile_digits {rest : Bytes} (h : ∀ d ∈ ds, d < 10) (hr : EndsRun rest) :
    (ds.map digitByte ++ rest).takeWhile isDigit = ds.map digitByte := by
  rw [List.takeWhile_append_of_pos (isDigit_of_mem_map_digitByte h), hr.takeWhile, List.append_nil]

lemma dropWhile_digits {rest : Bytes} (h : ∀ d ∈ ds, d < 10) (hr : EndsRun rest) :
    (ds.map digitByte ++ rest).dropWhile isDigit = rest := by
  rw [List.dropWhile_append_of_pos (isDigit_of_mem_map_digitByte h), hr.dropWhile]

end SqlCast.Text
