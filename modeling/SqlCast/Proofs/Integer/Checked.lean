import SqlCast.Proofs.Integer.Recording

/-! Reading an integer one byte at a time: no operation leaves the word, no number held on the way passes
the limit of its sign, and the shortcut for short texts changes nothing but what a bare sign is. -/

namespace SqlCast.Integer

open Text

namespace Checked

variable {w : Width} {negative : Bool}

section BaseTen

variable {c : UInt8} {pre s : Bytes}

lemma capped_of_endsRun (hs : EndsRun s) : capped w negative s = ⟨0, .failure⟩ := by
  rw [capped, hs.takeWhile]
  rfl

variable (hpre : ∀ c ∈ pre, isDigit c = true)

include hpre

lemma capped_of_ends (hne : pre ≠ []) (hle : valueOf 10 pre ≤ w.limit negative) (hs : EndsRun s) :
    capped w negative (pre ++ s) =
      if allBlank s then ⟨w.ofMagnitude (valueOf 10 pre) negative, .success⟩ else ⟨0, .failure⟩ := by
  have htake : (pre ++ s).takeWhile isDigit = pre := takeWhile_run hpre hs
  have hdrop : (pre ++ s).dropWhile isDigit = s := dropWhile_run hpre hs
  simp only [capped, htake, hdrop, if_neg (not_lt.mpr hle)]
  exact if_neg (by simpa using hne)

lemma capped_of_lt (h : w.limit negative < valueOf 10 pre) (s : Bytes) :
    capped w negative (pre ++ s) = ⟨w.bound negative, .overflow⟩ := by
  have hover : w.limit negative < valueOf 10 ((pre ++ s).takeWhile isDigit) :=
    h.trans_le (valueOf_le_of_isPrefix (by norm_num) (isPrefix_run hpre s))
  have hne := ne_nil_of_lt_valueOf hover
  rw [capped]
  exact (if_neg (by simpa using hne)).trans (if_pos hover)

lemma reads_of_ends (hne : pre ≠ []) (hle : valueOf 10 pre ≤ w.limit negative) (hs : EndsRun s) :
    Reads 10 pre.length negative ((pre ++ s).takeWhile isDigit)
      (if allBlank s then .ok (.converted .success negative (valueOf 10 pre)) else .ok .failed)
      (capped w negative (pre ++ s)) := by
  have hrun : (pre ++ s).takeWhile isDigit = pre := takeWhile_run hpre hs
  rw [capped_of_ends hpre hne hle hs, hrun]
  split
  · exact reads_success hle le_rfl
  · exact reads_failed le_rfl

lemma reads_readLongFrom (hne : pre ++ s ≠ []) (hle : valueOf 10 pre ≤ w.limit negative) :
    Reads 10 pre.length negative ((pre ++ s).takeWhile isDigit)
      (readLongFrom negative (w.limit negative) (!pre.isEmpty) (valueOf 10 pre) s)
      (capped w negative (pre ++ s)) := by
  induction s generalizing pre with
  | nil => exact reads_of_ends hpre (by simpa using hne) hle (by simp [EndsRun])
  | cons c s ih =>
    by_cases hc : isDigit c = true
    · have hpre' : ∀ d ∈ pre ++ [c], isDigit d = true := digits_append_singleton hpre hc
      rw [readLongFrom, if_pos hc, List.append_cons]
      refine reads_takeDigit (isPrefix_run hpre' s) (by norm_num) hc hle ?_ ?_
      · intro hover
        exact capped_of_lt hpre' hover s
      · intro hfits
        have hfound : (!(pre ++ [c]).isEmpty) = true := by simp
        have hrest := ih hpre' (by simp) hfits
        rwa [hfound, List.length_append, List.length_singleton] at hrest
    · have hs : EndsRun (c :: s) := by simpa [EndsRun] using hc
      rw [readLongFrom, if_neg hc]
      cases pre with
      | nil =>
        rw [List.nil_append, capped_of_endsRun hs, hs.takeWhile]
        exact reads_failed le_rfl
      | cons d pre =>
        have hread := reads_of_ends hpre (by simp) hle hs
        generalize allBlank (c :: s) = blank at hread ⊢
        cases blank with
        | true => exact hread
        | false => exact hread

lemma valueOf_le_limit (hlen : pre.length < w.maxDigits) : valueOf 10 pre ≤ w.limit negative := by
  have hle := valueOf_run_le_limit w negative pre hlen
  rwa [List.takeWhile_eq_self_iff.mpr hpre] at hle

lemma reads_readShortFrom (hne : pre ≠ []) (hlen : (pre ++ s).length < w.maxDigits) :
    Reads 10 pre.length negative ((pre ++ s).takeWhile isDigit)
      (readShortFrom negative (valueOf 10 pre) s) (capped w negative (pre ++ s)) := by
  have hle : valueOf 10 pre ≤ w.limit negative :=
    valueOf_le_limit hpre (by rw [List.length_append] at hlen; omega)
  induction s generalizing pre with
  | nil => exact reads_of_ends hpre hne hle (by simp [EndsRun])
  | cons c s ih =>
    by_cases hc : isDigit c = true
    · have hpre' : ∀ d ∈ pre ++ [c], isDigit d = true := digits_append_singleton hpre hc
      rw [List.append_cons] at hlen ⊢
      -- The guard is missing here; that the whole text is short bounds every run of digits in it.
      have hle' : valueOf 10 (pre ++ [c]) ≤ w.limit negative :=
        valueOf_le_limit hpre' (by rw [List.length_append] at hlen; omega)
      have happend : append 10 (valueOf 10 pre) (digitValue c) = pure (valueOf 10 (pre ++ [c])) := by
        rw [valueOf_append_singleton] at hle' ⊢
        exact append_eq (hle'.trans_lt (limit_lt w negative))
      have hrest := ih hpre' (by simp) hlen hle'
      rw [List.length_append, List.length_singleton] at hrest
      rw [readShortFrom, if_pos hc, happend, pure_bind]
      exact hrest.holding (isPrefix_run hpre' s) hle
    · have hs : EndsRun (c :: s) := by simpa [EndsRun] using hc
      rw [readShortFrom, if_neg hc]
      exact reads_of_ends hpre hne hle hs

end BaseTen

lemma reads_readShort {body : Bytes} (hlen : body.length < w.maxDigits) :
    Reads 10 1 negative (body.takeWhile isDigit) (readShort negative body) (capped w negative body) := by
  cases body with
  | nil => exact reads_failed (Nat.zero_le _)
  | cons c s =>
    rw [readShort]
    by_cases hc : isDigit c = true
    · have hvalue : valueOf 10 [c] = digitValue c := by simp [valueOf, ofDigits]
      have hpre : ∀ d ∈ [c], isDigit d = true := by simpa using hc
      rw [if_pos hc, ← hvalue]
      exact reads_readShortFrom hpre (by simp) hlen
    · have hs : EndsRun (c :: s) := by simpa [EndsRun] using hc
      rw [if_neg hc, capped_of_endsRun hs, hs.takeWhile]
      exact reads_failed (Nat.zero_le _)

lemma reads_readLong {body : Bytes} (hne : body ≠ []) :
    Reads 10 0 negative (body.takeWhile isDigit) (readLong negative body) (capped w negative body) := by
  have hpre : ∀ c ∈ ([] : Bytes), isDigit c = true := by simp
  rw [readLong, limit_eq, pure_bind]
  exact reads_readLongFrom hpre hne (Nat.zero_le _)

namespace Radix

variable {base : ℕ} (hb : 2 ≤ base ∧ base ≤ 36) {c : UInt8} {pre s : Bytes}

lemma capped_of_head (hs : ∀ c ∈ s.head?, isDigitOf base c = false) :
    Integer.Radix.capped w base negative s = ⟨0, .failure⟩ := by
  have hpre : ∀ c ∈ ([] : Bytes), isDigitOf base c = true := by simp
  have hrun : s.takeWhile (isDigitOf base) = [] := takeWhile_run hpre hs
  rw [Integer.Radix.capped, if_pos hrun]

variable (hpre : ∀ c ∈ pre, isDigitOf base c = true)

section

include hpre

lemma capped_of_ends (hne : pre ≠ []) (hle : valueOf base pre ≤ w.limit negative)
    (hs : ∀ c ∈ s.head?, isDigitOf base c = false) :
    Integer.Radix.capped w base negative (pre ++ s) =
      if Integer.Radix.mayFollow s then ⟨w.ofMagnitude (valueOf base pre) negative, .success⟩
      else ⟨0, .failure⟩ := by
  simp only [Integer.Radix.capped, takeWhile_run hpre hs, dropWhile_run hpre hs, if_neg hne,
    if_neg (not_lt.mpr hle), Integer.Radix.mayFollow_iff]

lemma reads_finish (hle : valueOf base pre ≤ w.limit negative)
    (hs : ∀ c ∈ s.head?, isDigitOf base c = false) (hends : Integer.Radix.mayFollow s = true) :
    Reads base pre.length negative ((pre ++ s).takeWhile (isDigitOf base))
      (finish negative (!pre.isEmpty) (valueOf base pre))
      (Integer.Radix.capped w base negative (pre ++ s)) := by
  rw [takeWhile_run hpre hs]
  cases pre with
  | nil =>
    rw [List.nil_append, capped_of_head hs]
    exact reads_failed le_rfl
  | cons d pre =>
    rw [capped_of_ends hpre (by simp) hle hs, if_pos hends]
    exact reads_success hle le_rfl

end

include hb

lemma capped_of_lt (hpre : ∀ c ∈ pre, isDigitOf base c = true)
    (h : w.limit negative < valueOf base pre) (s : Bytes) :
    Integer.Radix.capped w base negative (pre ++ s) = ⟨w.bound negative, .overflow⟩ := by
  have hover := h.trans_le (valueOf_le_of_isPrefix (by omega) (isPrefix_run hpre s))
  rw [Integer.Radix.capped, if_neg (ne_nil_of_lt_valueOf hover), if_pos hover]

lemma reads_readFrom (hpre : ∀ c ∈ pre, isDigitOf base c = true)
    (hle : valueOf base pre ≤ w.limit negative) :
    Reads base pre.length negative ((pre ++ s).takeWhile (isDigitOf base))
      (readFrom negative (w.limit negative) base (!pre.isEmpty) (valueOf base pre) s)
      (Integer.Radix.capped w base negative (pre ++ s)) := by
  induction s generalizing pre with
  | nil => exact reads_finish hpre hle (by simp) rfl
  | cons c s ih =>
    rw [readFrom]
    by_cases hc : isAlphanumeric c = true
    · rw [if_pos hc]
      split_ifs with hlarge
      · refine reads_finish hpre hle ?_ ?_
        · simpa [isDigitOf] using hlarge
        · simp [Integer.Radix.mayFollow, hc]
      · have hd : isDigitOf base c = true := decide_eq_true (not_le.mp hlarge)
        have hpre' := digits_append_singleton hpre hd
        rw [List.append_cons]
        refine reads_takeDigit (isPrefix_run hpre' s) hb hd hle ?_ ?_
        · intro hover
          exact capped_of_lt hb hpre' hover s
        · intro hfits
          have hfound : (!(pre ++ [c]).isEmpty) = true := by simp
          have hrest := ih hpre' hfits
          rwa [hfound, List.length_append, List.length_singleton] at hrest
    · have hs : ∀ d ∈ (c :: s).head?, isDigitOf base d = false := by
        have hlarge : 36 ≤ digitValue c := by simpa [isAlphanumeric, isDigitOf] using hc
        simp only [List.head?_cons, Option.mem_some_iff, forall_eq', isDigitOf]
        exact decide_eq_false (by omega)
      rw [if_neg hc, takeWhile_run hpre hs]
      cases pre with
      | nil =>
        rw [List.nil_append, capped_of_head hs]
        exact reads_failed le_rfl
      | cons d pre =>
        have hends : Integer.Radix.mayFollow (c :: s) = allBlank (c :: s) := by
          simp [Integer.Radix.mayFollow, hc]
        rw [capped_of_ends hpre (by simp) hle hs, hends]
        cases allBlank (c :: s) with
        | true => exact reads_success hle le_rfl
        | false => exact reads_failed le_rfl

end Radix

section Reader

variable (w)

def firstHeld (s : Bytes) : ℕ := if (splitSign s).2.length < w.maxDigits then 1 else 0

lemma readUnpadded_nil : Integer.readUnpadded w [] = ⟨0, .failure⟩ := by
  rw [readUnpadded_eq_capped]
  rfl

lemma reads_readUnpadded (s : Bytes) :
    Reads 10 (firstHeld w s) (splitSign s).1 ((splitSign s).2.takeWhile isDigit)
      (readUnpadded w true s) (Integer.readUnpadded w s) := by
  cases s with
  | nil =>
    rw [readUnpadded_nil]
    exact reads_failed (Nat.zero_le _)
  | cons c s =>
    rw [readUnpadded, if_neg (by simp), readUnpadded_eq_capped, firstHeld]
    by_cases hlen : (splitSign (c :: s)).2.length < w.maxDigits
    · simp only [hlen, decide_true, Bool.and_self, if_true]
      exact reads_readShort hlen
    · have hne : (splitSign (c :: s)).2 ≠ [] := by
        intro hnil
        rw [hnil] at hlen
        cases w <;> simp [Width.maxDigits] at hlen
      simp only [hlen, decide_false, Bool.and_false, if_false, Bool.false_eq_true]
      exact reads_readLong hne

variable {s : Bytes}

lemma reads_without_shortcut (hne : (splitSign s).2 ≠ []) :
    Reads 10 0 (splitSign s).1 ((splitSign s).2.takeWhile isDigit) (readUnpadded w false s)
      (Integer.readUnpadded w s) := by
  have hs : s ≠ [] := by
    rintro rfl
    exact hne rfl
  rw [readUnpadded, if_neg (by simpa using hs), readUnpadded_eq_capped]
  exact reads_readLong hne

lemma readUnpadded_bareSign (hs : s ≠ []) (hbare : (splitSign s).2 = []) :
    readUnpadded w false s = .ok (.converted .success (splitSign s).1 0) := by
  rw [readUnpadded, if_neg (by simpa using hs)]
  change readLong _ (splitSign s).2 = _
  rw [hbare, readLong, limit_eq, pure_bind]
  rfl

variable {base : ℕ}

lemma reads_readUnpadded_base (hb : 2 ≤ base ∧ base ≤ 36) (s : Bytes) :
    Reads base 0 (splitSign s).1 ((splitSign s).2.takeWhile (isDigitOf base))
      (Radix.readUnpadded w base s) (Integer.Radix.readUnpadded w base s) := by
  have hbase : Integer.Radix.isBase base = true := by simpa [Integer.Radix.isBase] using hb
  rw [Radix.readUnpadded, Integer.Radix.readUnpadded_eq_capped w hb, hbase]
  cases s with
  | nil =>
    change Reads _ _ _ _ _ (Integer.Radix.capped w base false [])
    rw [Radix.capped_of_head (by simp)]
    exact reads_failed le_rfl
  | cons c s =>
    have hpre : ∀ c ∈ ([] : Bytes), isDigitOf base c = true := by simp
    rw [if_neg (by simp)]
    change Reads _ _ _ _ (Checked.limit w (splitSign (c :: s)).1 >>= _) _
    rw [limit_eq, pure_bind]
    exact Radix.reads_readFrom hb hpre (Nat.zero_le _)

lemma readUnpadded_of_not_base (hb : ¬(2 ≤ base ∧ base ≤ 36)) (s : Bytes) :
    Radix.readUnpadded w base s = .ok .failed := by
  have hbase : Integer.Radix.isBase base = false := by simpa [Integer.Radix.isBase] using hb
  rw [Radix.readUnpadded, hbase]
  rfl

end Reader

lemma Reads.map_outcome {base first : ℕ} {digits : Bytes} {e : Except Fault (Run w)}
    {o : Outcome w.Value} (h : Reads base first negative digits e o) : e.map Run.outcome = .ok o := by
  obtain ⟨run, rfl, rfl, -⟩ := h
  rfl

theorem readUnpadded_without_shortcut_iff (w : Width) (s : Bytes) :
    (readUnpadded w true s).map Run.outcome = .ok (Integer.readUnpadded w s) ∧
      ((readUnpadded w false s).map Run.outcome = (readUnpadded w true s).map Run.outcome ↔
        s = [] ∨ (splitSign s).2 ≠ []) := by
  have hread := (reads_readUnpadded w s).map_outcome
  refine ⟨hread, ⟨?_, ?_⟩⟩
  · intro heq
    by_contra hne
    obtain ⟨hs, hbare⟩ := not_or.mp hne
    have hbare := not_not.mp hbare
    rw [hread, readUnpadded_bareSign w hs hbare, readUnpadded_eq_capped, hbare] at heq
    have hstatus : Status.success = .failure := congrArg Outcome.status (Except.ok.inj heq)
    cases hstatus
  · rintro (rfl | hne)
    · rfl
    · rw [hread]
      exact (reads_without_shortcut w hne).map_outcome

/-- No operation leaves the word, in base ten as in any other base. The number held before a digit is
the value of the digits before it and never passes the limit of the sign, nor does a magnitude that is
turned into a value, which is the signed number and the one returned. -/
theorem readings_within_limits (w : Width) (s : Bytes) :
    (∃ run, readUnpadded w true s = .ok run ∧ run.outcome = Integer.readUnpadded w s ∧
      run.Within (splitSign s).1 ∧
      run.Records 10 (firstHeld w s) (splitSign s).1 ((splitSign s).2.takeWhile isDigit)) ∧
      ∀ base, ∃ run, Radix.readUnpadded w base s = .ok run ∧
        run.outcome = Integer.Radix.readUnpadded w base s ∧ run.Within (splitSign s).1 ∧
        (2 ≤ base ∧ base ≤ 36 →
          run.Records base 0 (splitSign s).1 ((splitSign s).2.takeWhile (isDigitOf base))) := by
  refine ⟨reads_readUnpadded w s, ?_⟩
  intro base
  by_cases hb : 2 ≤ base ∧ base ≤ 36
  · obtain ⟨run, hrun, houtcome, hwithin, hrecords⟩ := reads_readUnpadded_base w hb s
    exact ⟨run, hrun, houtcome, hwithin, fun _ => hrecords⟩
  · refine ⟨_, readUnpadded_of_not_base w hb s, ?_, Run.within_failed, fun h => absurd h hb⟩
    rw [Integer.Radix.readUnpadded_of_not_base w hb]
    rfl

/-- Written `-3k5`; in base 36 the third digit passes the limit. -/
def pastLimit : Bytes := [45, 51, 107, 53]

theorem readings_within_limits_pastLimit :
    ∃ run, Radix.readUnpadded .int8 36 pastLimit = .ok run ∧ run.held = [0, 3, 128] ∧
      run.Records 36 0 true [51, 107, 53] := by
  have hread : Radix.readUnpadded .int8 36 pastLimit =
      .ok ((((Run.converted .overflow true 128).holding 128).holding 3).holding 0) := by decide
  obtain ⟨run, hrun, -, -, hrecords⟩ := (readings_within_limits .int8 pastLimit).2 36
  obtain rfl := Except.ok.inj (hrun.symm.trans hread)
  exact ⟨_, hrun, rfl, hrecords (by decide)⟩

end Checked

end SqlCast.Integer
