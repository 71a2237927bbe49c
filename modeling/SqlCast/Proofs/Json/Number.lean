import Mathlib.Tactic.Lemma
import SqlCast.Json.Decoding
import SqlCast.Json.Encoding
import SqlCast.Proofs.Text.Digit

namespace SqlCast

lemma Decimal.Storage.contains_iff (t : Storage) {n : ℤ} :
    t.contains n = true ↔ t.min ≤ n ∧ n ≤ t.max := by
  rw [contains, Bool.and_eq_true, decide_eq_true_iff, decide_eq_true_iff]

namespace Json

open Text Decimal

lemma isDigitChar_digitChar : ∀ d < 10, isDigitChar (digitChar d) = true := by decide

lemma digitOfChar_digitChar : ∀ d < 10, digitOfChar (digitChar d) = d := by decide

lemma digitChar_ne_zero : ∀ d < 10, d ≠ 0 → digitChar d ≠ '0' := by decide

def EndsNumber (rest : List Char) : Prop :=
  ∀ c ∈ rest.head?, isDigitChar c = false ∧ c ≠ '.' ∧ c ≠ 'e' ∧ c ≠ 'E'

lemma isDigitChar_of_mem_natChars {n : ℕ} : ∀ c ∈ natChars n, isDigitChar c = true := by
  intro c hc
  obtain ⟨d, hd, rfl⟩ := List.mem_map.mp hc
  exact isDigitChar_digitChar d (digitsOf_lt (by norm_num) n d hd)

lemma map_digitOfChar_natChars (n : ℕ) : (natChars n).map digitOfChar = digitsOf 10 n := by
  have hlt := digitsOf_lt (by norm_num : 1 < 10) n
  rw [natChars, List.map_map]
  exact (List.map_congr_left fun d hd => digitOfChar_digitChar d (hlt d hd)).trans (List.map_id' _)

lemma exists_natChars_cons (n : ℕ) : ∃ c s, natChars n = c :: s ∧ isDigitChar c = true := by
  have hne : natChars n ≠ [] := by simpa [natChars] using digitsOf_ne_nil 10 n
  obtain ⟨c, s, hs⟩ := List.exists_cons_of_ne_nil hne
  exact ⟨c, s, hs, isDigitChar_of_mem_natChars c (hs ▸ List.mem_cons_self)⟩

lemma natChars_of_head_zero {n : ℕ} (h : (natChars n).head? = some '0') : natChars n = ['0'] := by
  by_cases hn : n = 0
  · rw [hn, natChars, digitsOf, dif_pos (by norm_num)]
    rfl
  · rw [natChars, List.head?_map, Option.map_eq_some_iff] at h
    obtain ⟨d, hd, hz⟩ := h
    have hlt := digitsOf_lt (by norm_num : 1 < 10) n d (List.mem_of_head? hd)
    exact absurd hz (digitChar_ne_zero d hlt (head_digitsOf_ne_zero hn d hd))

namespace NumberToken

lemma value?_of_whole {negative : Bool} {n : ℕ} (hs : negative = true → n ≠ 0 ∧ n ≤ Nat.pow 2 63)
    (hu : negative = false → n ≤ maxSignificand) :
    value? ⟨negative, digitsOf 10 n, none, none⟩ =
      some (.integer (if negative then -(n : ℤ) else n)) := by
  have hint : integer? ⟨negative, digitsOf 10 n, none, none⟩ =
      some (if negative then -(n : ℤ) else n) := by
    simp only [integer?, ofDigits_digitsOf, Option.isSome_none, Bool.or_self, Bool.false_eq_true,
      if_false]
    cases negative with
    | false => simp [hu rfl]
    | true => simp [Nat.pos_of_ne_zero (hs rfl).1, (hs rfl).2]
  rw [value?, hint]

end NumberToken

section

variable {rest : List Char} (hr : EndsNumber rest)

include hr

lemma takeWhile_natChars (n : ℕ) : (natChars n ++ rest).takeWhile isDigitChar = natChars n := by
  rw [List.takeWhile_append_of_pos isDigitChar_of_mem_natChars]
  cases rest with
  | nil => simp
  | cons c rest => simp [(hr c rfl).1]

lemma dropWhile_natChars (n : ℕ) : (natChars n ++ rest).dropWhile isDigitChar = rest := by
  rw [List.dropWhile_append_of_pos isDigitChar_of_mem_natChars]
  cases rest with
  | nil => rfl
  | cons c rest => simp [(hr c rfl).1]

namespace NumberToken

lemma scanWhole_natChars (n : ℕ) :
    scanWhole (natChars n ++ rest) = some (digitsOf 10 n, rest) := by
  obtain ⟨c, s, hs, -⟩ := exists_natChars_cons n
  have hempty : (natChars n).isEmpty = false := by simp [hs]
  have hzero : ((natChars n).head? == some '0' && (natChars n).length != 1) = false := by
    by_contra h
    simp only [Bool.not_eq_false, Bool.and_eq_true, beq_iff_eq, bne_iff_ne, ne_eq] at h
    exact h.2 (by rw [natChars_of_head_zero h.1]; rfl)
  rw [scanWhole, takeWhile_natChars hr, dropWhile_natChars hr, hempty, hzero,
    map_digitOfChar_natChars]
  rfl

lemma scanFraction_of_ends : scanFraction rest = some (none, rest) := by
  unfold scanFraction
  split
  · exact absurd rfl (hr _ rfl).2.1
  · rfl

lemma scanExponent_of_ends : scanExponent rest = some (none, rest) := by
  cases rest with
  | nil => rfl
  | cons c rest =>
    have hc := (hr c rfl).2.2
    rw [scanExponent, if_neg (by simp [hc])]

lemma scan_natChars (negative : Bool) (n : ℕ) :
    scan negative (natChars n ++ rest) = some (⟨negative, digitsOf 10 n, none, none⟩, rest) := by
  simp only [scan, scanWhole_natChars hr, scanFraction_of_ends hr, scanExponent_of_ends hr,
    Option.bind_eq_bind, Option.bind_some, Option.pure_def]

end NumberToken

end

section

variable {c : Char} (hc : isDigitChar c = true)

include hc

lemma ne_of_digit {d : Char} (hd : isDigitChar d = false) : c ≠ d := by
  rintro rfl
  rw [hc] at hd
  cases hd

lemma find?_of_digit (s : List Char) : find? (c :: s) = scanNumber false (c :: s) := by
  rw [find?]
  all_goals exact ne_of_digit hc (by decide)

lemma dropSpace_of_digit (s : List Char) : dropSpace (c :: s) = c :: s := by
  have hspace : isSpace c = false := by
    simp [isSpace, ne_of_digit hc (d := ' ') rfl, ne_of_digit hc (d := '\n') rfl,
      ne_of_digit hc (d := '\t') rfl, ne_of_digit hc (d := '\r') rfl]
  exact List.dropWhile_cons_of_neg (by simp [hspace])

end

lemma exists_intChars_cons (n : ℤ) :
    ∃ c s, intChars n = c :: s ∧ (c = '-' ∨ isDigitChar c = true) := by
  rw [intChars]
  split
  · exact ⟨'-', _, rfl, Or.inl rfl⟩
  · obtain ⟨c, s, hs, hc⟩ := exists_natChars_cons n.natAbs
    exact ⟨c, s, hs, Or.inr hc⟩

lemma dropSpace_intChars (n : ℤ) (rest : List Char) :
    dropSpace (intChars n ++ rest) = intChars n ++ rest := by
  obtain ⟨c, s, hs, rfl | hc⟩ := exists_intChars_cons n
  · rw [hs]
    rfl
  · rw [hs]
    exact dropSpace_of_digit hc (s ++ rest)

section

variable {rest : List Char} (hr : EndsNumber rest)

include hr

lemma scanNumber_natChars {negative : Bool} {n : ℕ}
    (hs : negative = true → n ≠ 0 ∧ n ≤ Nat.pow 2 63) (hu : negative = false → n ≤ maxSignificand) :
    scanNumber negative (natChars n ++ rest) =
      some (.integer (if negative then -(n : ℤ) else n), rest) := by
  simp only [scanNumber, NumberToken.scan_natChars hr, NumberToken.value?_of_whole hs hu,
    Option.bind_eq_bind, Option.bind_some, Option.pure_def]

lemma find?_intChars {n : ℤ} (hl : -Nat.pow 2 63 ≤ n) (hu : n ≤ maxSignificand) :
    find? (intChars n ++ rest) = some (.integer n, rest) := by
  rw [intChars]
  split
  · rename_i hneg
    have hs : true = true → n.natAbs ≠ 0 ∧ n.natAbs ≤ Nat.pow 2 63 := fun _ => by omega
    have hscan := scanNumber_natChars hr hs (by simp)
    have hn : -(n.natAbs : ℤ) = n := by omega
    rw [if_pos rfl, hn] at hscan
    exact hscan
  · rename_i hpos
    have hs : false = false → n.natAbs ≤ maxSignificand := fun _ => by omega
    have hscan := scanNumber_natChars hr (by simp) hs
    have hn : (n.natAbs : ℤ) = n := by omega
    rw [if_neg Bool.false_ne_true, hn] at hscan
    obtain ⟨c, s, hc, hdigit⟩ := exists_natChars_cons n.natAbs
    rw [hc] at hscan ⊢
    exact (find?_of_digit hdigit (s ++ rest)).trans hscan

lemma scanFound_intChars {n : ℤ} (hl : -Nat.pow 2 63 ≤ n) (hu : n ≤ maxSignificand) :
    scanFound (intChars n ++ rest) = .ok (.integer n, rest) := by
  rw [scanFound, dropSpace_intChars, find?_intChars hr hl hu]
  rfl

lemma scanNarrow_intChars {t : Storage} {n : ℤ} (hn : t.contains n = true)
    (hl : -Nat.pow 2 63 ≤ n) (hu : n ≤ maxSignificand) :
    scanNarrow t (intChars n ++ rest) = .ok (⟨n⟩, rest) := by
  rw [scanNarrow, scanFound_intChars hr hl hu]
  exact if_pos hn

lemma scanWide_intChars {t : Storage} {n : ℤ} (hn : t.contains n = true) :
    scanWide t (intChars n ++ rest) = .ok (⟨n⟩, rest) := by
  have hwhole : orMalformed (NumberToken.scanWhole (natChars n.natAbs ++ rest)) =
      .ok (digitsOf 10 n.natAbs, rest) := by
    rw [NumberToken.scanWhole_natChars hr]
    rfl
  rw [scanWide, dropSpace_intChars, intChars]
  by_cases hneg : n < 0
  · have hn' : -(ofDigits 10 (digitsOf 10 n.natAbs) : ℤ) = n := by
      rw [ofDigits_digitsOf]
      omega
    simp only [if_pos hneg, List.cons_append, hwhole]
    change (if t.contains (-(ofDigits 10 (digitsOf 10 n.natAbs) : ℤ)) then _ else _) = _
    rw [hn', if_pos hn]
    rfl
  · have hn' : (ofDigits 10 (digitsOf 10 n.natAbs) : ℤ) = n := by
      rw [ofDigits_digitsOf]
      omega
    rw [if_neg hneg]
    split
    rename_i negative body hsplit
    obtain ⟨c, s, hs, hc⟩ := exists_natChars_cons n.natAbs
    split at hsplit
    · rename_i hminus
      rw [hs] at hminus
      exact absurd (List.cons.inj hminus).1 (ne_of_digit hc rfl)
    · obtain ⟨rfl, rfl⟩ := Prod.mk.inj hsplit
      rw [hwhole]
      change (if t.contains (ofDigits 10 (digitsOf 10 n.natAbs) : ℤ) then _ else _) = _
      rw [hn', if_pos hn]
      rfl

lemma scanDecimal_intChars {t : Storage} {n : ℤ} (hn : t.contains n = true) :
    scanDecimal t (intChars n ++ rest) = .ok (⟨n⟩, rest) := by
  obtain ⟨hmin, hmax⟩ := t.contains_iff.mp hn
  cases t with
  | word32 =>
    exact scanNarrow_intChars hr hn (le_trans (by decide) hmin) (hmax.trans (by decide))
  | word64 =>
    exact scanNarrow_intChars hr hn (le_trans (by decide) hmin) (hmax.trans (by decide))
  | word128 => exact scanWide_intChars hr hn

end

end Json

end SqlCast
