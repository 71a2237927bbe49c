import SqlCast.Proofs.Text.Mantissa

namespace SqlCast.Text.Mantissa

variable {m : Mantissa} {d : ℕ}

def push (m : Mantissa) (d : ℕ) : Mantissa :=
  if m.dotted then { m with fraction := m.fraction ++ [d] } else { m with whole := m.whole ++ [d] }

def point (m : Mantissa) : Mantissa := { m with dotted := true }

def resume (m : Mantissa) : Bytes → Mantissa × Bytes
  | [] => (m, [])
  | c :: s =>
    if isDigit c then (m.push (digitValue c)).resume s
    else if c = 46 ∧ m.dotted = false then m.point.resume s
    else (m, c :: s)

@[simp] lemma dotted_push : (m.push d).dotted = m.dotted := by
  unfold push
  split <;> rfl

@[simp] lemma length_fraction_push :
    (m.push d).fraction.length = m.fraction.length + if m.dotted then 1 else 0 := by
  unfold push
  split <;> simp

lemma digits_push (h : m.WellFormed) : (m.push d).digits = m.digits ++ [d] := by
  unfold push
  split
  · simp [digits]
  · simp [digits, h.fraction_eq_nil (Bool.eq_false_of_not_eq_true ‹_›)]

lemma WellFormed.push (h : m.WellFormed) (hd : d < 10) : (m.push d).WellFormed where
  digits_lt := by
    intro e he
    rw [digits_push h] at he
    rcases List.mem_append.mp he with he | he
    · exact h.digits_lt e he
    · obtain rfl : e = d := by simpa using he
      exact hd
  fraction_eq_nil := by
    intro hdot
    rw [dotted_push] at hdot
    simpa [Mantissa.push, hdot] using h.fraction_eq_nil hdot

lemma WellFormed.point (h : m.WellFormed) : m.point.WellFormed where
  digits_lt := h.digits_lt
  fraction_eq_nil := by simp [Mantissa.point]

lemma significant_push (h : m.WellFormed) (hs : m.significant ≠ [] ∨ d ≠ 0) :
    (m.push d).significant = m.significant ++ [d] := by
  unfold significant at hs ⊢
  rw [digits_push h, List.dropWhile_append]
  by_cases hm : m.digits.dropWhile (· == 0) = []
  · have hd : d ≠ 0 := hs.resolve_left (not_not_intro hm)
    simp [hm, hd]
  · simp [hm]

lemma significant_push_zero (h : m.WellFormed) (hs : m.significant = []) :
    (m.push 0).significant = [] := by
  unfold significant at hs ⊢
  rw [digits_push h, List.dropWhile_append]
  simp [hs]

lemma resume_of_dotted (hdot : m.dotted = true) (s : Bytes) :
    m.resume s =
      ({ m with fraction := m.fraction ++ (s.takeWhile isDigit).map digitValue },
        s.dropWhile isDigit) := by
  induction s generalizing m with
  | nil => simp [resume]
  | cons c s ih =>
    by_cases hc : isDigit c = true
    · rw [resume, if_pos hc, ih (by simpa using hdot)]
      simp [push, hdot, hc]
    · rw [resume, if_neg hc, if_neg (by simp [hdot]), List.takeWhile_cons_of_neg hc,
        List.dropWhile_cons_of_neg hc, List.map_nil, List.append_nil]

lemma resume_of_whole (whole : List ℕ) (s : Bytes) :
    resume ⟨whole, [], false⟩ s =
      (⟨whole ++ (scan s).1.whole, (scan s).1.fraction, (scan s).1.dotted⟩, (scan s).2) := by
  induction s generalizing whole with
  | nil => simp [resume, scan]
  | cons c s ih =>
    by_cases hc : isDigit c = true
    · have hscan : scan (c :: s) =
          (⟨digitValue c :: (scan s).1.whole, (scan s).1.fraction, (scan s).1.dotted⟩,
            (scan s).2) := by
        simp only [scan, List.takeWhile_cons_of_pos hc, List.dropWhile_cons_of_pos hc]
        split <;> rfl
      rw [resume, if_pos hc, hscan]
      change resume ⟨whole ++ [digitValue c], [], false⟩ s = _
      simp [ih]
    · by_cases hdot : c = 46
      · subst hdot
        change (point ⟨whole, [], false⟩).resume s = _
        rw [resume_of_dotted rfl]
        simp [point, scan, hc]
      · rw [scan_eq_empty (by simp [hc, hdot])]
        simp [resume, empty, hc, hdot]

lemma scan_eq_resume (s : Bytes) : scan s = empty.resume s := (resume_of_whole [] s).symm

lemma resume_append (m : Mantissa) (s t : Bytes) :
    m.resume (s ++ t) =
      if (m.resume s).2 = [] then (m.resume s).1.resume t
      else ((m.resume s).1, (m.resume s).2 ++ t) := by
  induction s generalizing m with
  | nil => exact (if_pos rfl).symm
  | cons c s ih =>
    rw [List.cons_append]
    by_cases hc : isDigit c = true
    · have hstep : ∀ u, m.resume (c :: u) = (m.push (digitValue c)).resume u := fun u => if_pos hc
      rw [hstep, hstep, ih]
    · by_cases hdot : c = 46 ∧ m.dotted = false
      · have hstep : ∀ u, m.resume (c :: u) = m.point.resume u :=
          fun u => (if_neg hc).trans (if_pos hdot)
        rw [hstep, hstep, ih]
      · have hstop : ∀ u, m.resume (c :: u) = (m, c :: u) :=
          fun u => (if_neg hc).trans (if_neg hdot)
        rw [hstop, hstop]
        exact (if_neg (List.cons_ne_nil c s)).symm

lemma length_digits_scan_le (s : Bytes) : (scan s).1.digits.length ≤ s.length := by
  have hlen := congrArg List.length (text_append_scan s)
  simp only [text, digits, List.length_append, List.length_map] at hlen ⊢
  split_ifs at hlen with hdot
  · simp only [List.length_cons, List.length_map] at hlen
    omega
  · have hf := (wellFormed_scan s).fraction_eq_nil (Bool.eq_false_of_not_eq_true hdot)
    simp only [hf, List.length_nil] at hlen ⊢
    omega

structure Reached (text : Bytes) (m : Mantissa) (s : Bytes) : Prop where
  wellFormed : m.WellFormed
  resume_eq : m.resume s = scan text
  length_le : m.digits.length + s.length ≤ text.length

namespace Reached

variable {text s : Bytes} {c : UInt8}

lemma start (text : Bytes) : Reached text empty text where
  wellFormed := wellFormed_empty
  resume_eq := (scan_eq_resume text).symm
  length_le := by simp [empty, digits]

lemma digit (h : Reached text m (c :: s)) (hc : isDigit c = true) :
    Reached text (m.push (digitValue c)) s where
  wellFormed := h.wellFormed.push (of_decide_eq_true hc)
  resume_eq := by
    rw [← h.resume_eq]
    exact (if_pos hc).symm
  length_le := by
    have hlen := h.length_le
    rw [digits_push h.wellFormed, List.length_append, List.length_singleton]
    rw [List.length_cons] at hlen
    omega

lemma dot (h : Reached text m (46 :: s)) (hdot : m.dotted = false) : Reached text m.point s where
  wellFormed := h.wellFormed.point
  resume_eq := by
    rw [← h.resume_eq]
    exact (if_pos ⟨rfl, hdot⟩).symm
  length_le := by
    have hlen := h.length_le
    rw [List.length_cons] at hlen
    exact le_trans (Nat.add_le_add_left (Nat.le_succ _) _) hlen

lemma length_digits_lt (h : Reached text m (c :: s)) : m.digits.length < text.length :=
  lt_of_lt_of_le (Nat.lt_add_of_pos_right (Nat.zero_lt_succ _)) h.length_le

end Reached

end SqlCast.Text.Mantissa
