import SqlCast.Integer.Checked
import SqlCast.Proofs.Integer.Radix

/-! What a reading of an integer holds from digit to digit. One digit keeps the number within the limit,
with the value of the digits before it on record, or ends the reading. -/

namespace SqlCast.Integer

open Text

section Digits

variable {base : ℕ} {c : UInt8} {pre s : Bytes} (hpre : ∀ c ∈ pre, isDigitOf base c = true)

@[simp] lemma valueOf_append_singleton (base : ℕ) (pre : Bytes) (c : UInt8) :
    valueOf base (pre ++ [c]) = valueOf base pre * base + digitValue c := by
  simp [valueOf]

lemma ne_nil_of_lt_valueOf {k : ℕ} (h : k < valueOf base pre) : pre ≠ [] := by
  rintro rfl
  exact Nat.not_lt_zero k h

lemma valueOf_le_of_isPrefix (hb : 0 < base) (h : pre <+: s) : valueOf base pre ≤ valueOf base s := by
  obtain ⟨v, rfl⟩ := h
  rw [valueOf, valueOf, List.map_append, ofDigits_append]
  exact Nat.le_add_right_of_le (Nat.le_mul_of_pos_right _ (by positivity))

include hpre

lemma isPrefix_run (s : Bytes) : pre <+: (pre ++ s).takeWhile (isDigitOf base) :=
  ⟨_, (List.takeWhile_append_of_pos hpre).symm⟩

lemma takeWhile_run (hs : ∀ c ∈ s.head?, isDigitOf base c = false) :
    (pre ++ s).takeWhile (isDigitOf base) = pre := by
  rw [List.takeWhile_append_of_pos hpre]
  cases s with
  | nil => simp
  | cons c s => simp [hs c rfl]

lemma dropWhile_run (hs : ∀ c ∈ s.head?, isDigitOf base c = false) :
    (pre ++ s).dropWhile (isDigitOf base) = s := by
  rw [List.dropWhile_append_of_pos hpre]
  cases s with
  | nil => rfl
  | cons c s => simp [hs c rfl]

lemma digits_append_singleton (hc : isDigitOf base c = true) :
    ∀ d ∈ pre ++ [c], isDigitOf base d = true := by
  intro d hd
  rcases List.mem_append.mp hd with hd | hd
  · exact hpre d hd
  · obtain rfl : d = c := by simpa using hd
    exact hc

end Digits

namespace Checked

lemma word_eq {n : ℕ} (h : n < 2 ^ 64) : word n = pure n := if_pos h

lemma difference_eq {m n : ℕ} (h : n ≤ m) : difference m n = pure (m - n) := if_pos h

lemma append_eq {base n d : ℕ} (h : n * base + d < 2 ^ 64) : append base n d = pure (n * base + d) := by
  rw [append, word_eq (by omega), pure_bind, word_eq h]

lemma push?_eq {limit base d : ℕ} (hb : 0 < base) (hl : base ≤ limit) (hw : limit < 2 ^ 64)
    (hd : d < base) (n : ℕ) : Checked.push? limit base n d = pure (Integer.push? limit base n d) := by
  have hq : 0 < limit / base := Nat.div_pos hl hb
  have hroom : (if d > limit % base then 1 else 0) ≤ limit / base := by split <;> omega
  rw [Checked.push?, difference_eq hroom, pure_bind, Integer.push?]
  by_cases hguard : n > limit / base - (if d > limit % base then 1 else 0)
  · rw [if_pos hguard, if_pos hguard]
  · have hle : n * base + d ≤ limit := by rwa [guard_iff hb hl hd, Nat.not_lt] at hguard
    rw [if_neg hguard, if_neg hguard, append_eq (hle.trans_lt hw)]
    rfl

variable {w : Width} {negative : Bool}

lemma limit_lt (w : Width) (negative : Bool) : w.limit negative < 2 ^ 64 := by
  cases w <;> cases negative <;> decide

lemma limit_eq (w : Width) (negative : Bool) : Checked.limit w negative = pure (w.limit negative) := by
  have hlt := limit_lt w negative
  cases negative with
  | false => rfl
  | true => exact word_eq hlt

structure Run.Within (negative : Bool) (r : Run w) : Prop where
  held_le : ∀ n ∈ r.held, n ≤ w.limit negative
  magnitude_le : ∀ c ∈ r.conversion, c.magnitude ≤ w.limit c.negative
  toInt_value : ∀ c ∈ r.conversion,
    c.value.toInt = if c.negative then -(c.magnitude : ℤ) else c.magnitude

/-- From the digit at `first` on the value of the digits before it is held, up to the last digit or to
that which passes the limit. What is converted is the value of all the digits, at most the limit. -/
structure Run.Records (base first : ℕ) (negative : Bool) (digits : Bytes) (r : Run w) : Prop where
  held_eq : ∀ k n, r.held[k]? = some n → n = valueOf base (digits.take (first + k))
  length_eq : r.outcome.status ≠ .overflow → first + r.held.length = max first digits.length
  passes : r.outcome.status = .overflow → first + r.held.length ≤ digits.length ∧
    w.limit negative < valueOf base (digits.take (first + r.held.length))
  conversion_eq : r.conversion =
    if r.outcome.status = .failure then none
    else some ⟨min (valueOf base digits) (w.limit negative), negative, r.outcome.value⟩

namespace Run

section Ends

variable {base first : ℕ} {digits : Bytes}

lemma within_failed : (.failed : Run w).Within negative where
  held_le := by simp [failed]
  magnitude_le := by simp [failed]
  toInt_value := by simp [failed]

lemma within_converted (status : Status) {n : ℕ} (h : n ≤ w.limit negative) :
    (.converted status negative n : Run w).Within negative where
  held_le := by simp [converted]
  magnitude_le := by
    rintro c ⟨⟩
    exact h
  toInt_value := by
    rintro c ⟨⟩
    exact w.toInt_ofMagnitude negative h

lemma records_failed (hlen : digits.length ≤ first) :
    (.failed : Run w).Records base first negative digits where
  held_eq := by simp [failed]
  length_eq _ := (max_eq_left hlen).symm
  passes := by simp [failed]
  conversion_eq := rfl

lemma records_success (h : valueOf base digits ≤ w.limit negative) (hlen : digits.length ≤ first) :
    (.converted .success negative (valueOf base digits) : Run w).Records base first negative digits where
  held_eq := by simp [converted]
  length_eq _ := (max_eq_left hlen).symm
  passes := by simp [converted]
  conversion_eq := by
    rw [min_eq_left h]
    rfl

lemma records_overflow (hb : 0 < base) (hlen : first ≤ digits.length)
    (h : w.limit negative < valueOf base (digits.take first)) :
    (.converted .overflow negative (w.limit negative) : Run w).Records base first negative digits where
  held_eq := by simp [converted]
  length_eq := by simp [converted]
  passes _ := ⟨hlen, h⟩
  conversion_eq := by
    have hall := h.trans_le (valueOf_le_of_isPrefix hb (List.take_prefix first digits))
    rw [min_eq_right hall.le]
    rfl

end Ends

lemma Within.holding {r : Run w} (hr : r.Within negative) {n : ℕ} (h : n ≤ w.limit negative) :
    (r.holding n).Within negative where
  held_le := by
    intro k hk
    rcases List.mem_cons.mp hk with rfl | hk
    · exact h
    · exact hr.held_le k hk
  magnitude_le := hr.magnitude_le
  toInt_value := hr.toInt_value

lemma Records.holding {base : ℕ} {digits pre : Bytes} {c : UInt8} {r : Run w}
    (hr : r.Records base (pre.length + 1) negative digits) (hpre : pre ++ [c] <+: digits) :
    (r.holding (valueOf base pre)).Records base pre.length negative digits where
  held_eq := by
    intro k n hn
    cases k with
    | zero =>
      obtain rfl := Option.some.inj hn
      rw [Nat.add_zero, ← List.prefix_iff_eq_take.mp ((List.prefix_append pre [c]).trans hpre)]
    | succ k => rw [hr.held_eq k n hn, Nat.add_right_comm, Nat.add_assoc]
  length_eq := by
    intro hs
    have hlen : pre.length + 1 ≤ digits.length := by simpa using hpre.length_le
    have hcount := hr.length_eq hs
    change pre.length + (r.held.length + 1) = _
    omega
  passes := by
    intro hs
    have hpassed := hr.passes hs
    rwa [Nat.add_right_comm, Nat.add_assoc] at hpassed
  conversion_eq := hr.conversion_eq

end Run

def Reads (base first : ℕ) (negative : Bool) (digits : Bytes) (e : Except Fault (Run w))
    (o : Outcome w.Value) : Prop :=
  ∃ run, e = .ok run ∧ run.outcome = o ∧ run.Within negative ∧ run.Records base first negative digits

section Reads

variable {base first : ℕ} {digits : Bytes}

lemma reads_failed (hlen : digits.length ≤ first) :
    Reads base first negative digits (.ok (.failed : Run w)) ⟨0, .failure⟩ :=
  ⟨_, rfl, rfl, Run.within_failed, Run.records_failed hlen⟩

lemma reads_success (h : valueOf base digits ≤ w.limit negative) (hlen : digits.length ≤ first) :
    Reads base first negative digits (.ok (.converted .success negative (valueOf base digits)))
      ⟨w.ofMagnitude (valueOf base digits) negative, .success⟩ :=
  ⟨_, rfl, rfl, Run.within_converted .success h, Run.records_success h hlen⟩

lemma reads_overflow (hb : 0 < base) (hlen : first ≤ digits.length)
    (h : w.limit negative < valueOf base (digits.take first)) :
    Reads base first negative digits (.ok (.converted .overflow negative (w.limit negative)))
      ⟨w.bound negative, .overflow⟩ :=
  ⟨_, rfl, rfl, Run.within_converted .overflow le_rfl, Run.records_overflow hb hlen h⟩

variable {c : UInt8} {pre : Bytes} {o : Outcome w.Value} (hpre : pre ++ [c] <+: digits)

include hpre

lemma Reads.holding {e : Except Fault (Run w)} (hr : Reads base (pre.length + 1) negative digits e o)
    (h : valueOf base pre ≤ w.limit negative) :
    Reads base pre.length negative digits (Run.holding (valueOf base pre) <$> e) o := by
  obtain ⟨run, rfl, ho, hwithin, hrecords⟩ := hr
  exact ⟨_, rfl, ho, hwithin.holding h, hrecords.holding hpre⟩

lemma reads_takeDigit (hb : 2 ≤ base ∧ base ≤ 36) (hc : isDigitOf base c = true)
    (hle : valueOf base pre ≤ w.limit negative) {next : ℕ → Except Fault (Run w)}
    (hover : w.limit negative < valueOf base (pre ++ [c]) → o = ⟨w.bound negative, .overflow⟩)
    (hnext : valueOf base (pre ++ [c]) ≤ w.limit negative →
      Reads base (pre.length + 1) negative digits (next (valueOf base (pre ++ [c]))) o) :
    Reads base pre.length negative digits
      (takeDigit negative (w.limit negative) base (valueOf base pre) (digitValue c) next) o := by
  have hd : digitValue c < base := of_decide_eq_true hc
  have hl : base ≤ w.limit negative := le_trans (by omega) (w.le_limit negative)
  have hlen : pre.length + 1 ≤ digits.length := by simpa using hpre.length_le
  have htake : digits.take (pre.length + 1) = pre ++ [c] := by
    simpa using (List.prefix_iff_eq_take.mp hpre).symm
  refine Reads.holding hpre ?_ hle
  rw [push?_eq (by omega) hl (limit_lt w negative) hd, pure_bind, Integer.push?_eq (by omega) hl hd,
    ← valueOf_append_singleton]
  split_ifs with hfits
  · exact hnext hfits
  · rw [hover (not_le.mp hfits)]
    refine reads_overflow (by omega) hlen ?_
    rwa [htake, ← not_le]

end Reads

end Checked

end SqlCast.Integer
