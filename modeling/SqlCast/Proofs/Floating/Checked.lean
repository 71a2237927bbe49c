import SqlCast.Floating.Checked
import SqlCast.Proofs.Floating.Quotient
import SqlCast.Proofs.Floating.Reader
import SqlCast.Proofs.Text.Resuming

/-! The digits of a plain literal one byte at a time: after every byte the remainder is the number that the
fraction digits taken so far make, and digits behind the last that counts leave no trace in the result. -/

namespace SqlCast.Floating

open Text

namespace Plain

/-- Of the fraction digits those up to the 18th significant digit of the whole literal. -/
structure Taken (m : Mantissa) (taken : List ℕ) : Prop where
  isPrefix : taken <+: m.fraction
  lt_length_iff : ∀ i < m.fraction.length, i < taken.length ↔
    ((m.whole ++ m.fraction.take (i + 1)).dropWhile (· == 0)).length ≤ 18

structure Full (m : Mantissa) : Prop where
  dotted : m.dotted = true
  le_significant : 18 ≤ m.significant.length

instance (m : Mantissa) : Decidable (Full m) :=
  decidable_of_iff (m.dotted = true ∧ 18 ≤ m.significant.length)
    ⟨fun ⟨hd, hs⟩ => ⟨hd, hs⟩, fun ⟨hd, hs⟩ => ⟨hd, hs⟩⟩

lemma taken_takenDigits (m : Mantissa) : Taken m (takenDigits m.whole m.fraction) where
  isPrefix := List.take_prefix _ _
  lt_length_iff := by
    intro i hi
    have hzeros := length_zeros_add (m.whole ++ m.fraction.take (i + 1))
    rw [← List.take_length_add_append, ← List.take_takeWhile, List.length_take, List.length_take,
      List.length_append] at hzeros
    rw [← List.take_length_add_append, takenDigits, List.length_take, maxSignificant]
    omega

lemma takenDigits_append {whole ds : List ℕ}
    (h : maxSignificant ≤ ((whole ++ ds).dropWhile (· == 0)).length) (es : List ℕ) :
    takenDigits whole (ds ++ es) = takenDigits whole ds := by
  have hlen := length_zeros_add (whole ++ ds)
  have hpos : 0 < maxSignificant := by decide
  rw [List.length_append] at hlen
  rw [takenDigits, takenDigits, ← List.append_assoc, List.takeWhile_append,
    if_neg (by rw [List.length_append]; omega), List.take_append_of_le_length (by omega)]

lemma accumulate_push_of_dotted {m : Mantissa} (hdot : m.dotted = true) (d : ℕ) :
    accumulate (m.push d) = (accumulate m).pushFraction d := by
  rw [Mantissa.push, if_pos hdot, accumulate, accumulate, List.foldl_append, List.foldl_cons,
    List.foldl_nil]

lemma accumulate_push_of_not_dotted {m : Mantissa} (hm : m.WellFormed) (hdot : m.dotted = false)
    (d : ℕ) : accumulate (m.push d) = (accumulate m).pushWhole d := by
  have hnil := hm.fraction_eq_nil hdot
  simp [Mantissa.push, hdot, accumulate, hnil]

lemma accumulate_append {m : Mantissa} (h : Full m) (es : List ℕ) :
    let longer : Mantissa := { m with fraction := m.fraction ++ es }
    accumulate longer = { accumulate m with significant := (accumulate longer).significant } := by
  intro longer
  have hkept : (kept longer).fraction = (kept m).fraction := takenDigits_append h.le_significant es
  rw [accumulate_eq, accumulate_eq, hkept]

end Plain

namespace Checked

open Plain

lemma counter_eq {n : ℕ} (h : n < 2 ^ 32) : counter n = pure n := if_pos h

lemma remainder_eq {n : ℕ} (h : n < 10 ^ 18) : remainder n = pure n :=
  if_pos (h.trans (by decide))

lemma count_eq {n : ℕ} (h : n + 1 < 2 ^ 32) (d : ℕ) : count n d = pure (Accumulator.count n d) := by
  rw [count, Accumulator.count]
  split_ifs with hz
  · rw [hz.2]
    rfl
  · exact counter_eq h

section

variable {a : Accumulator} {d : ℕ} (hs : a.significant + 1 < 2 ^ 32)

include hs

lemma pushWhole_eq : pushWhole a d = pure (a.pushWhole d) := by
  rw [pushWhole, count_eq hs, pure_bind]
  rfl

lemma pushFraction_eq (hr : (a.pushFraction d).remainder < 10 ^ 18) :
    pushFraction a d = pure (a.pushFraction d) := by
  rw [pushFraction, count_eq hs, pure_bind]
  rw [Accumulator.pushFraction] at hr ⊢
  split_ifs at hr ⊢
  · have hr : a.remainder * 10 + d < 10 ^ 18 := hr
    rw [remainder_eq (by omega), pure_bind, remainder_eq hr]
    rfl
  · rfl

end

namespace Progress

def after (m : Mantissa) : Progress := ⟨accumulate m, m.dotted⟩

variable {m : Mantissa} {d : ℕ}

lemma takeDigit_after (hm : m.WellFormed) (hd : d < 10) (hl : m.digits.length + 1 < 2 ^ 32) :
    (after m).takeDigit d = pure (after (m.push d)) := by
  have hcount : (accumulate m).significant + 1 < 2 ^ 32 := by
    have hsig := Mantissa.length_significant_le_digits m
    rw [accumulate_eq]
    change m.significant.length + 1 < 2 ^ 32
    omega
  rw [takeDigit, after, after, Mantissa.dotted_push]
  dsimp only
  cases hdot : m.dotted with
  | true =>
    have hlt : (accumulate (m.push d)).remainder < 10 ^ 18 := by
      rw [accumulate_eq]
      exact remainder_lt (hm.push hd)
    rw [accumulate_push_of_dotted hdot] at hlt ⊢
    rw [if_pos rfl, pushFraction_eq hcount hlt, pure_bind]
  | false =>
    rw [accumulate_push_of_not_dotted hm hdot, if_neg Bool.false_ne_true, pushWhole_eq hcount,
      pure_bind]

structure Gathers (taken : List ℕ) (p : Progress) : Prop where
  remainder_eq : p.accumulator.remainder = ofDigits 10 taken
  remainder_lt : p.accumulator.remainder < 10 ^ 18
  divisor_eq : p.accumulator.divisor = (· * .ofNat .double 10)^[taken.length] (.ofNat .double 1)

lemma gathers_after (hm : m.WellFormed) : Gathers (takenDigits m.whole m.fraction) (after m) := by
  rw [after, accumulate_eq]
  exact ⟨rfl, remainder_lt hm, rfl⟩

structure Follows (m : Mantissa) (s : Bytes) (r : Run) : Prop where
  length_eq : r.before.length + r.rest.length = s.length
  final_eq : r.final = after (m.resume s).1
  rest_eq : r.rest = (m.resume s).2
  state_eq : ∀ k p, r.states[k]? = some p → p = after (m.resume (s.take k)).1

lemma Follows.holding {c : UInt8} {s : Bytes} {n : Mantissa} {r : Run} (h : Follows n s r)
    (hstep : ∀ t, m.resume (c :: t) = n.resume t) : Follows m (c :: s) (r.holding (after m)) where
  length_eq := by
    have hlen := h.length_eq
    simp only [Run.holding, List.length_cons]
    omega
  final_eq := by
    rw [hstep]
    exact h.final_eq
  rest_eq := by
    rw [hstep]
    exact h.rest_eq
  state_eq := by
    intro k p hp
    cases k with
    | zero => exact (Option.some.inj hp).symm
    | succ k =>
      rw [List.take_succ_cons, hstep]
      exact h.state_eq k p hp

lemma follows_stop {s : Bytes} (hstop : m.resume s = (m, s)) : Follows m s ⟨[], after m, s⟩ where
  length_eq := Nat.zero_add _
  final_eq := by rw [hstop]
  rest_eq := by rw [hstop]
  state_eq := by
    intro k p hp
    cases k with
    | zero => exact (Option.some.inj hp).symm
    | succ k => cases hp

lemma scan_after (hm : m.WellFormed) {s : Bytes} (hl : m.digits.length + s.length < 2 ^ 32) :
    ∃ run, (after m).scan s = .ok run ∧ Follows m s run := by
  -- The digits read and the bytes left are together shorter than the counter's range; each byte moves
  -- one from the second to the first, or is the dot and only leaves the second.
  induction s generalizing m with
  | nil => exact ⟨_, rfl, follows_stop rfl⟩
  | cons c s ih =>
    rw [List.length_cons] at hl
    by_cases hc : isDigit c = true
    · have hd : digitValue c < 10 := of_decide_eq_true hc
      have hlen : (m.push (digitValue c)).digits.length + s.length < 2 ^ 32 := by
        rw [Mantissa.digits_push hm, List.length_append, List.length_singleton]
        omega
      obtain ⟨run, hrun, hfollows⟩ := ih (hm.push hd) hlen
      refine ⟨run.holding (after m), ?_, hfollows.holding fun t => if_pos hc⟩
      rw [scan, if_pos hc, takeDigit_after hm hd (by omega), pure_bind, hrun]
      rfl
    · by_cases hdot : c = 46 ∧ m.dotted = false
      · have hlen : m.point.digits.length + s.length < 2 ^ 32 := Nat.lt_of_succ_lt hl
        obtain ⟨run, hrun, hfollows⟩ := ih hm.point hlen
        have hstep : ∀ t, m.resume (c :: t) = m.point.resume t :=
          fun t => (if_neg hc).trans (if_pos hdot)
        refine ⟨run.holding (after m), ?_, hfollows.holding hstep⟩
        rw [scan, if_neg hc]
        refine (if_pos hdot).trans ?_
        change Run.holding (after m) <$> (after m.point).scan s = _
        rw [hrun]
        rfl
      · exact ⟨_, (if_neg hc).trans (if_neg hdot), follows_stop ((if_neg hc).trans (if_neg hdot))⟩

lemma scan_start {s : Bytes} (h : s.length < 2 ^ 32) :
    ∃ run, start.scan s = .ok run ∧ Follows .empty s run :=
  scan_after Mantissa.wellFormed_empty (by simpa [Mantissa.empty, Mantissa.digits] using h)

lemma Follows.length_before {s : Bytes} {r : Run} (h : Follows .empty s r) :
    r.before.length = (Mantissa.scan s).1.text.length := by
  have hlen := congrArg List.length (Mantissa.text_append_scan s)
  have hsum := h.length_eq
  rw [h.rest_eq, ← Mantissa.scan_eq_resume] at hsum
  rw [List.length_append] at hlen
  omega

lemma Follows.not_isEmpty_before {s : Bytes} {r : Run} (h : Follows .empty s r) :
    (!r.before.isEmpty) = (Mantissa.scan s).1.present := by
  have hlen := h.length_before
  cases hp : (Mantissa.scan s).1.present with
  | true =>
    have hpos := List.length_pos_of_ne_nil (Mantissa.text_ne_nil (Mantissa.wellFormed_scan s) hp)
    rw [← hlen] at hpos
    simpa [List.isEmpty_iff] using List.ne_nil_of_length_pos hpos
  | false =>
    rw [Mantissa.text_eq_nil hp, List.length_nil, List.length_eq_zero_iff] at hlen
    rw [hlen]
    rfl

end Progress

section Reader

variable (f : Binary.Format) {s : Bytes} (h : s.length < 2 ^ 32)

include h

lemma magnitude?_eq : magnitude? f s = pure (Floating.magnitude? f s) := by
  obtain ⟨run, hrun, hfollows⟩ := Progress.scan_start h
  have hrest := hfollows.rest_eq
  have hfinal := hfollows.final_eq
  have hpresent := hfollows.not_isEmpty_before
  rw [← Mantissa.scan_eq_resume] at hrest hfinal
  rw [magnitude?, hrun, Floating.magnitude?]
  change (if startsExponent run.rest then _
    else if !run.before.isEmpty && allBlank run.rest then _ else _) = _
  rw [hpresent, hrest, hfinal]
  obtain ⟨m, rest⟩ := Mantissa.scan s
  dsimp only [Mantissa.present]
  split_ifs with hexp hplain
  · rfl
  · exact if_pos hplain
  · exact if_neg hplain

lemma readUnpadded_eq : readUnpadded f s = pure (Floating.readUnpadded f s) := by
  have hbody := (length_splitSign_le s).trans_lt h
  rw [readUnpadded, Floating.readUnpadded]
  rcases hsplit : splitSign s with ⟨negative, body⟩
  rw [hsplit] at hbody
  dsimp only
  split_ifs with hinf hnan
  · rfl
  · rfl
  · rw [magnitude?_eq f hbody, pure_bind]
    cases Floating.magnitude? f body <;> rfl

lemma read_eq : read f s = pure (Floating.read f s) := by
  rw [read, readUnpadded_eq f h, pure_bind, Floating.read, Outcome.retrying]
  split_ifs with hfirst
  · rfl
  · apply readUnpadded_eq
    rw [List.length_drop]
    omega

end Reader

end Checked

section Appended

variable {s v : Bytes}

lemma scan_append_digits (hv : ∀ c ∈ v, isDigit c = true) (hdot : (Mantissa.scan s).1.dotted = true)
    (hend : (Mantissa.scan s).2 = []) :
    Mantissa.scan (s ++ v) =
      ({ (Mantissa.scan s).1 with fraction := (Mantissa.scan s).1.fraction ++ v.map digitValue }, []) := by
  rw [Mantissa.scan_eq_resume] at hdot hend
  rw [Mantissa.scan_eq_resume, Mantissa.scan_eq_resume, Mantissa.resume_append, if_pos hend,
    Mantissa.resume_of_dotted hdot, List.takeWhile_eq_self_iff.mpr hv, List.dropWhile_eq_nil_iff.mpr hv]

lemma accumulate_scan_append (hv : ∀ c ∈ v, isDigit c = true) (hfull : Plain.Full (Mantissa.scan s).1) :
    Plain.accumulate (Mantissa.scan (s ++ v)).1 =
      { Plain.accumulate (Mantissa.scan s).1 with
        significant := (Plain.accumulate (Mantissa.scan (s ++ v)).1).significant } := by
  by_cases hend : (Mantissa.scan s).2 = []
  · rw [scan_append_digits hv hfull.dotted hend]
    exact Plain.accumulate_append hfull _
  · have hsame : (Mantissa.scan (s ++ v)).1 = (Mantissa.scan s).1 := by
      rw [Mantissa.scan_eq_resume] at hend
      rw [Mantissa.scan_eq_resume, Mantissa.resume_append, if_neg hend, Mantissa.scan_eq_resume]
    rw [hsame]

lemma read_scanned (f : Binary.Format) (sign : Option Sign) (hdot : (Mantissa.scan s).1.dotted = true)
    (hend : (Mantissa.scan s).2 = []) :
    read f (signText sign ++ s) =
      ⟨signed (isMinus sign) (Plain.value f (Mantissa.scan s).1),
        if (Plain.value f (Mantissa.scan s).1).isInfinite then .overflow else .success⟩ := by
  have htext := Mantissa.text_append_scan s
  rw [hend, List.append_nil] at htext
  let l : Literal :=
    { sign
      mantissa := (Mantissa.scan s).1
      exponent := none
      wellFormed := Mantissa.wellFormed_scan s
      present := by rw [Mantissa.present, hdot, Bool.or_true] }
  have hl : l.text = signText sign ++ s := by
    change signText sign ++ ((Mantissa.scan s).1.text ++ []) = _
    rw [List.append_nil, htext]
  rw [← hl]
  exact read_plain f rfl

lemma read_append_digits (f : Binary.Format) (sign : Option Sign) (hv : ∀ c ∈ v, isDigit c = true)
    (hfull : Plain.Full (Mantissa.scan s).1) (hend : (Mantissa.scan s).2 = []) :
    read f (signText sign ++ (s ++ v)) = read f (signText sign ++ s) := by
  have hscan := scan_append_digits hv hfull.dotted hend
  have hvalue : Plain.value f (Mantissa.scan (s ++ v)).1 = Plain.value f (Mantissa.scan s).1 := by
    rw [Plain.value, accumulate_scan_append hv hfull]
    rfl
  have hlong := read_scanned (s := s ++ v) f sign (by rw [hscan]; exact hfull.dotted) (by rw [hscan])
  rw [hlong, read_scanned f sign hfull.dotted hend, hvalue]

end Appended

namespace Checked

/-- No counter or remainder leaves its word. After every byte the remainder is the number, below
`10 ^ 18`, of the fraction digits up to the 18th significant digit, and the divisor has one factor of
ten for each. Digits behind a full literal therefore change nothing but the count. -/
theorem fraction_taken_exactly {s : Bytes} (h : s.length < 2 ^ 32) :
    ∃ run, Progress.start.scan s = .ok run ∧
      run.before.length + run.rest.length = s.length ∧
      run.rest = (Mantissa.scan s).2 ∧
      run.final.accumulator = Plain.accumulate (Mantissa.scan s).1 ∧
      (∀ k p, run.states[k]? = some p →
        ∃ taken, Plain.Taken (Mantissa.scan (s.take k)).1 taken ∧ Progress.Gathers taken p) ∧
      (Plain.Full (Mantissa.scan s).1 → ∀ v : Bytes, (∀ c ∈ v, isDigit c = true) →
        (s ++ v).length < 2 ^ 32 →
        (∃ longer, Progress.start.scan (s ++ v) = .ok longer ∧
          longer.final.accumulator =
            { run.final.accumulator with significant := longer.final.accumulator.significant }) ∧
        (run.rest = [] → ∀ f sign,
          Floating.read f (signText sign ++ (s ++ v)) = Floating.read f (signText sign ++ s))) := by
  obtain ⟨run, hrun, hlength, hfinal, hrest, hstate⟩ := Progress.scan_start h
  rw [← Mantissa.scan_eq_resume] at hfinal hrest
  refine ⟨run, hrun, hlength, hrest, congrArg Progress.accumulator hfinal, ?_, ?_⟩
  · intro k p hp
    obtain rfl := hstate k p hp
    rw [← Mantissa.scan_eq_resume]
    exact ⟨_, Plain.taken_takenDigits _, Progress.gathers_after (Mantissa.wellFormed_scan _)⟩
  · intro hfull v hv hlen
    refine ⟨?_, ?_⟩
    · obtain ⟨longer, hlonger, -, hlast, -, -⟩ := Progress.scan_start hlen
      refine ⟨longer, hlonger, ?_⟩
      rw [hlast, hfinal, ← Mantissa.scan_eq_resume]
      exact accumulate_scan_append hv hfull
    · intro hend f sign
      exact read_append_digits f sign hv hfull (hrest ▸ hend)

/-- Written `0.00123456789012345678`; its last digit is the 18th that is significant. -/
def lastCounted : Bytes :=
  [48, 46, 48, 48, 49, 50, 51, 52, 53, 54, 55, 56, 57, 48, 49, 50, 51, 52, 53, 54, 55, 56]

theorem fraction_taken_exactly_lastCounted :
    lastCounted.length < 2 ^ 32 ∧ Plain.Full (Mantissa.scan lastCounted).1 ∧
      (∀ c ∈ ([57, 48] : Bytes), isDigit c = true) ∧ (lastCounted ++ [57, 48]).length < 2 ^ 32 ∧
      ∃ run, Progress.start.scan lastCounted = .ok run ∧ run.rest = [] ∧
        Floating.read .single (signText (some .minus) ++ (lastCounted ++ [57, 48])) =
          Floating.read .single (signText (some .minus) ++ lastCounted) := by
  have hlen : lastCounted.length < 2 ^ 32 := by decide
  have hfull : Plain.Full (Mantissa.scan lastCounted).1 := by decide
  have hv : ∀ c ∈ ([57, 48] : Bytes), isDigit c = true := List.all_eq_true.mp rfl
  have hlong : (lastCounted ++ [57, 48]).length < 2 ^ 32 := by decide
  obtain ⟨run, hrun, -, hrest, -, -, hcut⟩ := fraction_taken_exactly hlen
  have hend : run.rest = [] := hrest.trans (by decide)
  exact ⟨hlen, hfull, hv, hlong, run, hrun, hend,
    (hcut hfull _ hv hlong).2 hend .single (some .minus)⟩

end Checked

end SqlCast.Floating
