import SqlCast.Floating.Plain
import SqlCast.Proofs.Binary.DoubleRounding
import SqlCast.Proofs.Text.Literal

namespace SqlCast.Floating.Plain

open Text Binary

def wholeOf (ds : List ℕ) : Binary .double :=
  ds.foldl (fun x d => x * .ofNat .double 10 + .ofNat .double d) .zero

def powerOf (k : ℕ) : Binary .double := (· * .ofNat .double 10)^[k] (.ofNat .double 1)

def takenDigits (whole fraction : List ℕ) : List ℕ :=
  fraction.take (((whole ++ fraction).takeWhile (· == 0)).length + maxSignificant - whole.length)

def kept (m : Mantissa) : Mantissa := { m with fraction := takenDigits m.whole m.fraction }

lemma wholeOf_nil : wholeOf [] = .zero := by rw [wholeOf, List.foldl_nil]

lemma wholeOf_append_singleton (ds : List ℕ) (d : ℕ) :
    wholeOf (ds ++ [d]) = wholeOf ds * .ofNat .double 10 + .ofNat .double d := by
  rw [wholeOf, List.foldl_append, List.foldl_cons, List.foldl_nil, wholeOf]

lemma powerOf_zero : powerOf 0 = .ofNat .double 1 := by rw [powerOf, Function.iterate_zero_apply]

lemma powerOf_succ (k : ℕ) : powerOf (k + 1) = powerOf k * .ofNat .double 10 :=
  Function.iterate_succ_apply' _ _ _

section Digits

variable {whole ds : List ℕ} {d : ℕ}

lemma length_zeros_add (ds : List ℕ) :
    (ds.takeWhile (· == 0)).length + (ds.dropWhile (· == 0)).length = ds.length := by
  rw [← List.length_append, List.takeWhile_append_dropWhile]

lemma count_significant (ds : List ℕ) (d : ℕ) :
    Accumulator.count (ds.dropWhile (· == 0)).length d = ((ds ++ [d]).dropWhile (· == 0)).length := by
  rw [List.dropWhile_append, Accumulator.count]
  cases ds.dropWhile (· == 0) with
  | nil => by_cases hd : d = 0 <;> simp [hd]
  | cons e es => simp

lemma takenDigits_of_le (h : ((whole ++ ds).dropWhile (· == 0)).length ≤ maxSignificant) :
    takenDigits whole ds = ds := by
  have hlen := length_zeros_add (whole ++ ds)
  rw [List.length_append] at hlen
  exact List.take_of_length_le (by omega)

lemma takenDigits_append_of_lt
    (h : maxSignificant < ((whole ++ (ds ++ [d])).dropWhile (· == 0)).length) :
    takenDigits whole (ds ++ [d]) = takenDigits whole ds := by
  have hlen := length_zeros_add (whole ++ ds)
  have hlen' := length_zeros_add (whole ++ (ds ++ [d]))
  have hcount := count_significant (whole ++ ds) d
  rw [List.append_assoc, Accumulator.count] at hcount
  simp only [List.length_append, List.length_singleton] at hlen hlen'
  have hzeros : ((whole ++ (ds ++ [d])).takeWhile (· == 0)).length =
      ((whole ++ ds).takeWhile (· == 0)).length := by
    split_ifs at hcount <;> omega
  have hmany : maxSignificant ≤ ((whole ++ ds).dropWhile (· == 0)).length := by
    split_ifs at hcount <;> omega
  rw [takenDigits, hzeros]
  exact List.take_append_of_le_length (by omega)

end Digits

namespace Accumulator

lemma foldl_pushWhole (ds : List ℕ) :
    ds.foldl pushWhole start = ⟨(ds.dropWhile (· == 0)).length, wholeOf ds, 0, .ofNat .double 1⟩ := by
  induction ds using List.reverseRecOn with
  | nil => rw [List.foldl_nil, start, wholeOf_nil, List.dropWhile_nil, List.length_nil]
  | append_singleton ds d ih =>
    rw [List.foldl_append, ih, List.foldl_cons, List.foldl_nil, pushWhole, count_significant,
      wholeOf_append_singleton]

lemma foldl_pushFraction (whole : List ℕ) (x : Binary .double) (ds : List ℕ) :
    ds.foldl pushFraction ⟨(whole.dropWhile (· == 0)).length, x, 0, .ofNat .double 1⟩ =
      ⟨((whole ++ ds).dropWhile (· == 0)).length, x, ofDigits 10 (takenDigits whole ds),
        powerOf (takenDigits whole ds).length⟩ := by
  induction ds using List.reverseRecOn with
  | nil =>
    rw [List.foldl_nil, List.append_nil, takenDigits, List.take_nil, ofDigits_nil, List.length_nil,
      powerOf_zero]
  | append_singleton ds d ih =>
    have hcount := count_significant (whole ++ ds) d
    rw [List.append_assoc] at hcount
    rw [List.foldl_append, ih, List.foldl_cons, List.foldl_nil, pushFraction]
    simp only [hcount]
    split_ifs with hs
    · -- While the count is low every digit has been taken.
      have hprefix : ((whole ++ ds).dropWhile (· == 0)).length ≤ maxSignificant := by
        refine le_trans ?_ hs
        rw [← hcount, count]
        split_ifs <;> omega
      rw [takenDigits_of_le hs, takenDigits_of_le hprefix, ofDigits_append_singleton, List.length_append,
        List.length_singleton, powerOf_succ]
    · rw [takenDigits_append_of_lt (not_le.mp hs)]

end Accumulator

lemma accumulate_eq (m : Mantissa) :
    accumulate m = ⟨m.significant.length, wholeOf m.whole, ofDigits 10 (kept m).fraction,
      powerOf (kept m).fraction.length⟩ := by
  rw [accumulate, Accumulator.foldl_pushWhole, Accumulator.foldl_pushFraction, kept,
    Mantissa.significant, Mantissa.digits]

section Exact

lemma whole_of_lt {n : ℕ} (h : n < 10 ^ 15) : Whole .double n :=
  whole_of_le (h.le.trans (by decide))

lemma whole_ten : Whole .double 10 := whole_of_le (by decide)

lemma whole_pow {k : ℕ} (h : k ≤ 22) : Whole .double (10 ^ k) := by
  have hpow : 10 ^ k * Format.double.one = 5 ^ k * 2 ^ (k + Format.double.quantumExponent) := by
    rw [show 10 = 5 * 2 from rfl, mul_pow, mul_assoc, Format.one, Nat.pow_eq, ← pow_add]
  have hfive : 5 ^ k ≤ 2 ^ Format.double.precision :=
    (Nat.pow_le_pow_right (by norm_num) h).trans (by decide)
  refine ⟨?_, ?_⟩
  · calc 10 ^ k * Format.double.one ≤ 10 ^ 22 * Format.double.one :=
          Nat.mul_le_mul_right _ (Nat.pow_le_pow_right (by norm_num) h)
      _ < Format.double.ceiling := by decide +kernel
  · rw [hpow]
    exact precise_mul_two_pow hfive _

lemma wholeOf_eq {ds : List ℕ} (h : ofDigits 10 ds ≤ 2 ^ Format.double.precision) :
    wholeOf ds = .ofNat .double (ofDigits 10 ds) := by
  induction ds using List.reverseRecOn with
  | nil => rw [wholeOf_nil, ofDigits_nil, ofNat_zero]
  | append_singleton ds d ih =>
    rw [ofDigits_append_singleton] at h ⊢
    rw [wholeOf_append_singleton, ih (by omega), ofNat_mul (whole_of_le (by omega)) whole_ten,
      ofNat_add (whole_of_le (by omega)) (whole_of_le (by omega))]

lemma powerOf_eq {k : ℕ} (h : k ≤ 22) : powerOf k = .ofNat .double (10 ^ k) := by
  induction k with
  | zero => rw [powerOf_zero, pow_zero]
  | succ k ih => rw [powerOf_succ, ih (by omega), ofNat_mul (whole_pow (by omega)) whole_ten, pow_succ]

end Exact

section

variable {m : Mantissa} (hm : m.WellFormed) (hs : m.significant.length ≤ 15)

include hm hs

lemma unscaled_lt_of_short : m.unscaled < 10 ^ 15 :=
  (Mantissa.unscaled_lt hm).trans_le (Nat.pow_le_pow_right (by norm_num) hs)

lemma wholeValue_lt_of_short : m.wholeValue < 10 ^ 15 := by
  refine lt_of_le_of_lt ?_ (unscaled_lt_of_short hm hs)
  rw [Mantissa.unscaled, Mantissa.digits, ofDigits_append]
  exact Nat.le_add_right_of_le (Nat.le_mul_of_pos_right _ (by positivity))

lemma fractionDigits_lt_of_short : ofDigits 10 m.fraction < 10 ^ 15 := by
  refine lt_of_le_of_lt ?_ (unscaled_lt_of_short hm hs)
  rw [Mantissa.unscaled, Mantissa.digits, ofDigits_append]
  exact Nat.le_add_left _ _

end

end SqlCast.Floating.Plain
