import Mathlib.Data.List.Forall2
import Mathlib.Tactic.IntervalCases
import SqlCast.Json.Quoted
import SqlCast.Text.Digit

namespace SqlCast.Json

open Text

def shortEscapes : List (Char × Char) :=
  [('"', '"'), ('\\', '\\'), ('/', '/'), ('b', '\x08'), ('f', '\x0c'), ('n', '\n'), ('r', '\r'),
    ('t', '\t')]

def IsHex (c : Char) (d : ℕ) : Prop := c = digitChar d ∨ c = (digitChar d).toUpper

def hexDigits (u : ℕ) : List ℕ := [u / 4096, u / 256 % 16, u / 16 % 16, u % 16]

def SpellsUnit (t : List Char) (u : ℕ) : Prop := u < 65536 ∧ List.Forall₂ IsHex t (hexDigits u)

def highHalf (c : Char) : ℕ := 0xD800 + (c.toNat - 65536) / 1024
def lowHalf (c : Char) : ℕ := 0xDC00 + (c.toNat - 65536) % 1024

inductive Escapes : List Char → Char → Prop
  | short {a c : Char} (h : (a, c) ∈ shortEscapes) : Escapes [a] c
  | unit {t : List Char} {c : Char} (h : SpellsUnit t c.toNat) : Escapes ('u' :: t) c
  | pair {t t' : List Char} {c : Char} (hc : 65536 ≤ c.toNat) (h : SpellsUnit t (highHalf c))
      (h' : SpellsUnit t' (lowHalf c)) : Escapes ('u' :: (t ++ '\\' :: 'u' :: t')) c

def Bare (c : Char) : Prop := ' ' ≤ c ∧ c ≠ '"' ∧ c ≠ '\\'

instance (c : Char) : Decidable (Bare c) := inferInstanceAs (Decidable (_ ∧ _))

inductive Spells : List Char → List Char → Prop
  | nil : Spells [] []
  | bare {c : Char} {t s : List Char} (hc : Bare c) (h : Spells t s) : Spells (c :: t) (c :: s)
  | escaped {e : List Char} {c : Char} {t s : List Char} (hc : Escapes e c) (h : Spells t s) :
      Spells ('\\' :: (e ++ t)) (c :: s)

lemma Spells.self {s : List Char} (h : ∀ c ∈ s, Bare c) : Spells s s := by
  induction s with
  | nil => exact .nil
  | cons c s ih =>
    exact .bare (h c List.mem_cons_self) (ih fun d hd => h d (List.mem_cons_of_mem c hd))

section Hex

lemma hexDigit?_of_isHex : ∀ d < 16,
    hexDigit? (digitChar d) = some d ∧ hexDigit? (digitChar d).toUpper = some d := by decide

lemma isHex_of_hexDigit?_ofNat : ∀ n < 128, ∀ d ∈ hexDigit? (Char.ofNat n),
    d < 16 ∧ IsHex (Char.ofNat n) d := by
  unfold IsHex
  decide

lemma toNat_lt_of_hexDigit? {c : Char} {d : ℕ} (h : hexDigit? c = some d) : c.toNat < 128 := by
  simp only [hexDigit?, Bool.and_eq_true, decide_eq_true_eq, Char.le_def, UInt32.le_iff_toNat_le,
    Char.toNat_val, Char.reduceToNat] at h
  split_ifs at h <;> omega

lemma hexDigit?_eq_some_iff {c : Char} {d : ℕ} : hexDigit? c = some d ↔ d < 16 ∧ IsHex c d := by
  constructor
  · intro h
    have hall := isHex_of_hexDigit?_ofNat c.toNat (toNat_lt_of_hexDigit? h) d
    rw [Char.ofNat_toNat] at hall
    exact hall h
  · rintro ⟨hd, rfl | rfl⟩
    · exact (hexDigit?_of_isHex d hd).1
    · exact (hexDigit?_of_isHex d hd).2

lemma unit?_eq_some_iff {s r : List Char} {u : ℕ} :
    unit? s = some (u, r) ↔ ∃ t, SpellsUnit t u ∧ s = t ++ r := by
  constructor
  · intro h
    unfold unit? at h
    split at h
    · rename_i a b c d s
      simp only [Option.bind_eq_bind, Option.bind_eq_some_iff, Option.pure_def, Option.some.injEq,
        Prod.mk.injEq, hexDigit?_eq_some_iff] at h
      obtain ⟨x, ⟨hx, ha⟩, y, ⟨hy, hb⟩, z, ⟨hz, hc⟩, w, ⟨hw, hd⟩, rfl, rfl⟩ := h
      refine ⟨[a, b, c, d], ⟨by omega, ?_⟩, rfl⟩
      have hdigits : hexDigits (((x * 16 + y) * 16 + z) * 16 + w) = [x, y, z, w] := by
        simp only [hexDigits, List.cons.injEq, and_true]
        omega
      rw [hdigits]
      simp [ha, hb, hc, hd]
    · cases h
  · rintro ⟨t, ⟨hu, ht⟩, rfl⟩
    simp only [hexDigits, List.forall₂_cons_right_iff, List.forall₂_nil_right_iff] at ht
    obtain ⟨a, _, ha, ⟨b, _, hb, ⟨c, _, hc, ⟨d, _, hd, rfl, rfl⟩, rfl⟩, rfl⟩, rfl⟩ := ht
    have ha := hexDigit?_eq_some_iff.mpr ⟨by omega, ha⟩
    have hb := hexDigit?_eq_some_iff.mpr ⟨by omega, hb⟩
    have hc := hexDigit?_eq_some_iff.mpr ⟨by omega, hc⟩
    have hd := hexDigit?_eq_some_iff.mpr ⟨by omega, hd⟩
    simp only [List.cons_append, List.nil_append, unit?, ha, hb, hc, hd, Option.bind_eq_bind,
      Option.bind_some, Option.pure_def, Option.some.injEq, Prod.mk.injEq, and_true]
    omega

end Hex

section Escape

lemma trailing?_eq_some_iff {s r : List Char} {u : ℕ} :
    trailing? s = some (u, r) ↔
      isTrailing u = true ∧ ∃ t, SpellsUnit t u ∧ s = '\\' :: 'u' :: (t ++ r) := by
  unfold trailing?
  split
  · rw [Option.filter_eq_some_iff, unit?_eq_some_iff, and_comm]
    simp
  · rename_i hne
    constructor
    · intro h
      cases h
    · rintro ⟨-, t, -, rfl⟩
      exact absurd rfl (hne _)

lemma toNat_ofNat_of_not_surrogate {n : ℕ} (hn : n < 0xD800 ∨ 0xDFFF < n ∧ n < 0x110000) :
    (Char.ofNat n).toNat = n := by
  have hv : n.isValidChar := hn
  rw [Char.ofNat, dif_pos hv]
  rfl

lemma toNat_valid (c : Char) : c.toNat < 0xD800 ∨ 0xDFFF < c.toNat ∧ c.toNat < 0x110000 := c.valid

lemma halves_bounds {c : Char} (hc : 65536 ≤ c.toNat) :
    (0xD800 ≤ highHalf c ∧ highHalf c < 0xDC00) ∧ (0xDC00 ≤ lowHalf c ∧ lowHalf c < 0xE000) ∧
      0x10000 + (highHalf c - 0xD800) * 0x400 + (lowHalf c - 0xDC00) = c.toNat := by
  have hvalid := toNat_valid c
  rw [highHalf, lowHalf]
  omega

lemma SpellsUnit.unit? {t : List Char} {u : ℕ} (h : SpellsUnit t u) (r : List Char) :
    Json.unit? (t ++ r) = some (u, r) :=
  unit?_eq_some_iff.mpr ⟨t, h, rfl⟩

lemma codeEscape?_unit {t : List Char} {c : Char} (h : SpellsUnit t c.toNat) (r : List Char) :
    codeEscape? (t ++ r) = some (c, r) := by
  have hvalid := toNat_valid c
  have hlt := h.1
  have htrail : isTrailing c.toNat = false := by
    simp only [isTrailing, Bool.and_eq_false_iff, decide_eq_false_iff_not]
    omega
  have hlead : isLeading c.toNat = false := by
    simp only [isLeading, Bool.and_eq_false_iff, decide_eq_false_iff_not]
    omega
  simp only [codeEscape?, h.unit? r, Option.bind_eq_bind, Option.bind_some, htrail, hlead,
    Bool.false_eq_true, if_false, Char.ofNat_toNat, Option.pure_def]

lemma codeEscape?_pair {t t' : List Char} {c : Char} (hc : 65536 ≤ c.toNat)
    (h : SpellsUnit t (highHalf c)) (h' : SpellsUnit t' (lowHalf c)) (r : List Char) :
    codeEscape? (t ++ '\\' :: 'u' :: (t' ++ r)) = some (c, r) := by
  obtain ⟨hhigh, hlow, hn⟩ := halves_bounds hc
  have htrail : ¬isTrailing (highHalf c) = true := by
    simp only [isTrailing, Bool.and_eq_true, decide_eq_true_eq]
    omega
  have hlead : isLeading (highHalf c) = true := by
    simp only [isLeading, Bool.and_eq_true, decide_eq_true_eq]
    omega
  have hlow : isTrailing (lowHalf c) = true := by
    simp only [isTrailing, Bool.and_eq_true, decide_eq_true_eq]
    omega
  have hv : trailing? ('\\' :: 'u' :: (t' ++ r)) = some (lowHalf c, r) :=
    trailing?_eq_some_iff.mpr ⟨hlow, t', h', rfl⟩
  rw [codeEscape?, Option.bind_eq_bind, Option.bind_eq_some_iff]
  refine ⟨_, h.unit? _, ?_⟩
  refine (if_neg htrail).trans ((if_pos hlead).trans ?_)
  refine Option.bind_eq_some_iff.mpr ⟨_, hv, ?_⟩
  change some (Char.ofNat _, r) = some (c, r)
  rw [hn, Char.ofNat_toNat]

lemma exists_of_codeEscape? {s r : List Char} {c : Char} (h : codeEscape? s = some (c, r)) :
    ∃ e, Escapes ('u' :: e) c ∧ s = e ++ r := by
  simp only [codeEscape?, Option.bind_eq_bind, Option.bind_eq_some_iff, Option.pure_def] at h
  obtain ⟨⟨u, s₁⟩, hu, h⟩ := h
  obtain ⟨t, ht, rfl⟩ := unit?_eq_some_iff.mp hu
  have hlt := ht.1
  dsimp only at h
  split_ifs at h with htrail hlead
  · obtain ⟨⟨v, s₂⟩, hv, hsome⟩ := Option.bind_eq_some_iff.mp h
    obtain ⟨hvt, t', ht', rfl⟩ := trailing?_eq_some_iff.mp hv
    obtain ⟨hc, rfl⟩ := Prod.mk.inj (Option.some.inj hsome)
    simp only [isLeading, isTrailing, Bool.and_eq_true, decide_eq_true_eq] at hlead hvt
    have hn : c.toNat = 0x10000 + (u - 0xD800) * 0x400 + (v - 0xDC00) := by
      rw [← hc]
      exact toNat_ofNat_of_not_surrogate (by omega)
    have hhigh : highHalf c = u := by rw [highHalf]; omega
    have hlow : lowHalf c = v := by rw [lowHalf]; omega
    exact ⟨_, .pair (by omega) (hhigh ▸ ht) (hlow ▸ ht'), by simp⟩
  · obtain ⟨hc, rfl⟩ := Prod.mk.inj (Option.some.inj h)
    simp only [isLeading, isTrailing, Bool.and_eq_true, decide_eq_true_eq] at htrail hlead
    have hn : c.toNat = u := by
      rw [← hc]
      exact toNat_ofNat_of_not_surrogate (by omega)
    exact ⟨t, .unit (hn ▸ ht), rfl⟩

lemma escape?_of_short {a c : Char} (h : (a, c) ∈ shortEscapes) (r : List Char) :
    escape? (a :: r) = some (c, r) := by
  simp only [shortEscapes, List.mem_cons, Prod.mk.injEq, List.not_mem_nil, or_false] at h
  rcases h with ⟨rfl, rfl⟩ | ⟨rfl, rfl⟩ | ⟨rfl, rfl⟩ | ⟨rfl, rfl⟩ | ⟨rfl, rfl⟩ | ⟨rfl, rfl⟩ |
    ⟨rfl, rfl⟩ | ⟨rfl, rfl⟩ <;> rfl

lemma escape?_eq_some_iff {s r : List Char} {c : Char} :
    escape? s = some (c, r) ↔ ∃ e, Escapes e c ∧ s = e ++ r := by
  constructor
  · intro h
    unfold escape? at h
    split at h
    case h_9 =>
      obtain ⟨e, he, rfl⟩ := exists_of_codeEscape? h
      exact ⟨'u' :: e, he, rfl⟩
    case h_10 => cases h
    all_goals
      obtain ⟨rfl, rfl⟩ := Prod.mk.inj (Option.some.inj h)
      exact ⟨_, .short (by decide), rfl⟩
  · rintro ⟨e, he, rfl⟩
    cases he with
    | short h => exact escape?_of_short h r
    | unit h => exact codeEscape?_unit h r
    | pair hc h h' => simpa [escape?] using codeEscape?_pair hc h h' r

end Escape

lemma unquote_cons (c : Char) (s : List Char) :
    unquote (c :: s) =
      if c = '"' then some ([], s)
      else if c = '\\' then
        (escape? s).bind fun (d, r) => (unquote r).map fun (cs, rest) => (d :: cs, rest)
      else if c < ' ' then none
      else (unquote s).map fun (cs, rest) => (c :: cs, rest) := by
  rw [unquote]
  split_ifs
  · rfl
  · split
    · rename_i he
      simp [he]
    · rename_i he
      simp [he]
  · rfl
  · rfl

lemma Spells.unquote {t s : List Char} (h : Spells t s) (r : List Char) :
    Json.unquote (t ++ '"' :: r) = some (s, r) := by
  induction h with
  | nil => rw [List.nil_append, unquote_cons, if_pos rfl]
  | bare hc _ ih =>
    rw [List.cons_append, unquote_cons, if_neg hc.2.1, if_neg hc.2.2, if_neg (Char.not_lt.mpr hc.1), ih]
    rfl
  | @escaped e c t s hc _ ih =>
    have he : escape? (e ++ (t ++ '"' :: r)) = some (c, t ++ '"' :: r) :=
      escape?_eq_some_iff.mpr ⟨e, hc, rfl⟩
    rw [List.cons_append, List.append_assoc, unquote_cons, if_neg (by decide), if_pos rfl]
    simp only [he, Option.bind_some, ih, Option.map_some]

lemma unquote_eq_some_iff {s cs r : List Char} :
    unquote s = some (cs, r) ↔ ∃ t, Spells t cs ∧ s = t ++ '"' :: r := by
  constructor
  · intro h
    fun_induction unquote s generalizing cs r with
    | case1 => cases h
    | case2 s =>
      obtain ⟨rfl, rfl⟩ := Prod.mk.inj (Option.some.inj h)
      exact ⟨[], .nil, rfl⟩
    | case3 => cases h
    | case4 s d s₁ he _ _ ih =>
      obtain ⟨⟨cs₁, r₁⟩, hcs, hr⟩ := Option.map_eq_some_iff.mp h
      obtain ⟨rfl, rfl⟩ := Prod.mk.inj hr
      obtain ⟨e, hc, rfl⟩ := escape?_eq_some_iff.mp he
      obtain ⟨t, ht, rfl⟩ := ih hcs
      exact ⟨_, .escaped hc ht, by simp⟩
    | case5 => cases h
    | case6 c s hquote hslash hspace ih =>
      obtain ⟨⟨cs₁, r₁⟩, hcs, hr⟩ := Option.map_eq_some_iff.mp h
      obtain ⟨rfl, rfl⟩ := Prod.mk.inj hr
      obtain ⟨t, ht, rfl⟩ := ih hcs
      exact ⟨_, .bare ⟨Char.not_lt.mp hspace, hquote, hslash⟩ ht, rfl⟩
  · rintro ⟨t, ht, rfl⟩
    exact ht.unquote r

end SqlCast.Json
