import SqlCast.Proofs.Decimal.Rounding
import SqlCast.Proofs.Text.Mantissa

namespace SqlCast.Decimal

open Text

namespace Storage

variable (t : Storage)

lemma powerOfTen?_natCast (k : ℕ) :
    t.powerOfTen? (k : ℤ) = if k ≤ t.maxPrecision then some (10 ^ k) else none := rfl

lemma pow_maxPrecision_le_max : ((10 ^ t.maxPrecision : ℕ) : ℤ) ≤ t.max := by
  cases t <;> decide

end Storage

variable {t : Storage} {ty : DecimalType} {m : Mantissa} (r : Rounding)

lemma natCast_le_max (hty : ty.fits t) {n : ℕ} (h : n ≤ 10 ^ ty.precision) : (n : ℤ) ≤ t.max := by
  have hp : 10 ^ ty.precision ≤ 10 ^ t.maxPrecision :=
    Nat.pow_le_pow_right (by norm_num) (of_decide_eq_true hty)
  exact le_trans (by exact_mod_cast h.trans hp) t.pow_maxPrecision_le_max

lemma scaleDown_eq_drop {value shift : ℕ} (hs : 0 < shift) (hv : value < 10 ^ t.maxPrecision) :
    scaleDown t r value shift = r.drop shift value := by
  rw [scaleDown, Storage.powerOfTen?_natCast]
  by_cases h : shift ≤ t.maxPrecision
  · rw [if_pos h]
    exact (r.drop_eq_ite hs value).symm
  · rw [if_neg h]
    have hh := r.two_mul_half_le shift
    have hp : 10 ^ t.maxPrecision * 10 ≤ 10 ^ shift := by
      rw [← pow_succ]
      exact Nat.pow_le_pow_right (by norm_num) (by omega)
    exact (Nat.div_eq_of_lt (by omega)).symm

lemma scaleUp?_eq {value shift : ℕ} (hs : shift ≤ t.maxPrecision)
    (hv : value * 10 ^ shift < 10 ^ t.maxPrecision) :
    scaleUp? t value shift = some (value * 10 ^ shift) := by
  have hmax : ((value * 10 ^ shift : ℕ) : ℤ) ≤ t.max :=
    le_trans (by exact_mod_cast hv.le) t.pow_maxPrecision_le_max
  rw [scaleUp?, Storage.powerOfTen?_natCast, if_pos hs, Option.bind_some]
  exact if_pos hmax

lemma keptValue_eq (hm : m.WellFormed) :
    keptValue ty m = m.unscaled / 10 ^ droppedDigits ty m := by
  change ofDigits 10 _ = _
  rw [ofDigits_take (by norm_num) hm.significant_lt, Mantissa.ofDigits_significant]
  rfl

lemma keptValue_lt (hm : m.WellFormed) : keptValue ty m < 10 ^ ty.precision := by
  have hlen : (m.significant.take ty.precision).length ≤ ty.precision := by
    rw [List.length_take]
    exact Nat.min_le_left _ _
  have hd : ∀ d ∈ m.significant.take ty.precision, d < 10 :=
    fun d hd => hm.significant_lt d (List.mem_of_mem_take hd)
  exact (ofDigits_lt (by norm_num) hd).trans_le (Nat.pow_le_pow_right (by norm_num) hlen)

lemma keptValue_of_le (hm : m.WellFormed) (h : m.significant.length ≤ ty.precision) :
    keptValue ty m = m.unscaled := by
  rw [keptValue_eq hm, droppedDigits, Nat.sub_eq_zero_of_le h, pow_zero, Nat.div_one]

lemma scaleUp?_keptValue (hty : ty.fits t) (hm : m.WellFormed) {shift : ℕ}
    (h : m.significant.length + shift ≤ ty.precision) :
    scaleUp? t (keptValue ty m) shift = some (m.unscaled * 10 ^ shift) := by
  have hp : ty.precision ≤ t.maxPrecision := of_decide_eq_true hty
  have hlt : m.unscaled * 10 ^ shift < 10 ^ t.maxPrecision := by
    calc m.unscaled * 10 ^ shift < 10 ^ m.significant.length * 10 ^ shift :=
          Nat.mul_lt_mul_of_pos_right (Mantissa.unscaled_lt hm) (by positivity)
      _ = 10 ^ (m.significant.length + shift) := (pow_add 10 _ _).symm
      _ ≤ 10 ^ t.maxPrecision := Nat.pow_le_pow_right (by norm_num) (by omega)
  rw [keptValue_of_le hm (by omega)]
  exact scaleUp?_eq (by omega) hlt

lemma scaleUp?_le_max {value shift n : ℕ} (h : scaleUp? t value shift = some n) :
    (n : ℤ) ≤ t.max := by
  obtain ⟨p, -, hn⟩ := Option.bind_eq_some_iff.mp h
  split_ifs at hn with hle
  rw [← Option.some.inj hn]
  exact hle

lemma round_keptValue (hm : m.WellFormed) (h : ty.precision < m.significant.length) :
    (if 5 ≤ firstDropped ty r m then keptValue ty m + 1 else keptValue ty m) =
      r.drop (droppedDigits ty m) m.unscaled := by
  obtain ⟨d, hd⟩ : ∃ d, m.significant[ty.precision]? = some d := ⟨_, List.getElem?_eq_getElem h⟩
  have hlt : d < 10 := hm.significant_lt d (List.mem_of_getElem? hd)
  have hnext : m.unscaled / 10 ^ (m.significant.length - (ty.precision + 1)) =
      keptValue ty m * 10 + d := by
    rw [← Mantissa.ofDigits_significant, ← ofDigits_take (by norm_num) hm.significant_lt,
      List.take_add_one, hd]
    exact ofDigits_append_singleton 10 _ d
  -- All digits but the first dropped one go unseen, and that one decides.
  have hsplit : droppedDigits ty m = (m.significant.length - (ty.precision + 1)) + 1 := by
    rw [droppedDigits]
    omega
  rw [hsplit, r.drop_add (by norm_num), hnext, r.drop_one _ hlt]
  cases r with
  | truncate => simp [firstDropped]
  | halfUp => simp [firstDropped, hd]

lemma shorten_eq (hty : ty.fits t) (hm : m.WellFormed) {p : Placement}
    (hv : p.value = keptValue ty m) (hs : ty.scale < p.scale)
    (hw : m.significant.length ≤ ty.wholeDigits + p.scale) :
    shorten t ty r m p =
      ⟨r.drop (p.scale - ty.scale) m.unscaled,
        if r.drop (p.scale - ty.scale) m.unscaled = 10 ^ ty.precision then .overflow
        else .underflow⟩ := by
  have hp : ty.precision ≤ t.maxPrecision := of_decide_eq_true hty
  have hsp := ty.scale_le
  rw [DecimalType.wholeDigits] at hw
  have hd : droppedDigits ty m = m.significant.length - ty.precision := rfl
  simp only [shorten, hv]
  by_cases hshift : 0 < p.scale - droppedDigits ty m - ty.scale
  · rw [if_pos hshift]
    obtain ⟨shift, hsh⟩ : ∃ shift, shift = p.scale - droppedDigits ty m - ty.scale := ⟨_, rfl⟩
    have hsplit : p.scale - ty.scale = droppedDigits ty m + shift := by omega
    have hlt : keptValue ty m < 10 ^ ty.precision := keptValue_lt hm
    rw [← hsh] at hshift ⊢
    rw [hsplit, r.drop_add hshift, ← keptValue_eq hm,
      scaleDown_eq_drop r hshift (hlt.trans_le (Nat.pow_le_pow_right (by norm_num) hp)),
      if_neg (r.drop_lt_pow hshift ty.precision_pos hlt).ne]
  · rw [if_neg hshift]
    have hsplit : p.scale - ty.scale = droppedDigits ty m := by omega
    rw [round_keptValue r hm (by omega), hsplit, Storage.powerOfTen?_natCast, if_pos hp]
    simp only [Option.some.injEq, eq_comm]

lemma extend_eq {value shift : ℕ} (hs : shift ≤ t.maxPrecision) :
    extend t value shift = value * 10 ^ shift := by
  rw [extend, Storage.powerOfTen?_natCast, if_pos hs]

section Placement

variable (t : Storage) (ty : DecimalType) (m : Mantissa) (exponent : ℤ)

lemma placement_scale :
    (placement t ty m exponent).scale = (m.scale exponent).toNat := by
  rw [placement, place, Mantissa.scale]
  split_ifs
  · simp only
    omega
  · rfl

lemma placement_whole :
    (placement t ty m exponent).precision - (placement t ty m exponent).scale =
      (m.significant.length - m.scale exponent).toNat := by
  rw [placement, place, Mantissa.scale]
  split_ifs
  · simp only
    omega
  · simp only [Nat.max_def]
    split_ifs <;> omega

lemma placement_scale_le_precision :
    (placement t ty m exponent).scale ≤ (placement t ty m exponent).precision := by
  rw [placement, place]
  split
  · exact Nat.zero_le _
  · exact Nat.le_max_right _ _

lemma length_significant_le_precision :
    m.significant.length ≤ (placement t ty m exponent).precision := by
  rw [placement, place]
  split
  · exact Nat.le_add_right _ _
  · exact Nat.le_max_left _ _

variable {t ty m exponent}

lemma placement_value_le_max (hty : ty.fits t) (hm : m.WellFormed) :
    ((placement t ty m exponent).value : ℤ) ≤ t.max := by
  have hkept : (keptValue ty m : ℤ) ≤ t.max := natCast_le_max hty (keptValue_lt hm).le
  rw [placement, place]
  split
  · dsimp only
    cases hup : scaleUp? t (keptValue ty m) (exponent - m.fraction.length).toNat with
    | none => exact hkept
    | some n => exact scaleUp?_le_max hup
  · exact hkept

lemma placement_value (h : 0 ≤ m.scale exponent) :
    (placement t ty m exponent).value = keptValue ty m := by
  rw [Mantissa.scale] at h
  rw [placement, place, if_neg (by omega)]

lemma placement_value_of_fits (hty : ty.fits t) (hm : m.WellFormed)
    (hs : m.scale exponent ≤ ty.scale)
    (hw : m.significant.length - m.scale exponent ≤ ty.precision - ty.scale) :
    (placement t ty m exponent).value = m.unscaled * 10 ^ (-m.scale exponent).toNat := by
  by_cases hneg : 0 ≤ m.scale exponent
  · rw [placement_value hneg, keptValue_of_le hm (by omega), Int.toNat_of_nonpos (by omega),
      pow_zero, Nat.mul_one]
  · obtain ⟨shift, hsh⟩ : ∃ shift : ℕ, (shift : ℤ) = -m.scale exponent :=
      ⟨_, Int.toNat_of_nonneg (by omega)⟩
    have hexp : (exponent - m.fraction.length).toNat = shift := by
      rw [Mantissa.scale] at hsh
      omega
    rw [Mantissa.scale] at hneg
    rw [placement, place, if_pos (by omega), hexp, ← hsh, Int.toNat_natCast]
    simp only [scaleUp?_keptValue hty hm (by omega : m.significant.length + shift ≤ ty.precision),
      Option.getD_some]

lemma wide_iff :
    ty.wholeDigits < (placement t ty m exponent).precision - (placement t ty m exponent).scale ↔
      (ty.precision : ℤ) - ty.scale < m.significant.length - m.scale exponent := by
  have hsp := ty.scale_le
  rw [placement_whole, DecimalType.wholeDigits]
  omega

lemma excess_iff :
    ty.scale < (placement t ty m exponent).scale ↔ (ty.scale : ℤ) < m.scale exponent := by
  rw [placement_scale]
  omega

end Placement

variable {exponent : ℤ}

lemma fit_of_wide (h : (ty.precision : ℤ) - ty.scale < m.significant.length - m.scale exponent) :
    fit t ty r m exponent = ⟨(placement t ty m exponent).value, .overflow⟩ :=
  if_pos (wide_iff.mpr h)

lemma fit_of_excess (hty : ty.fits t) (hm : m.WellFormed)
    (hw : m.significant.length - m.scale exponent ≤ ty.precision - ty.scale)
    (hs : ty.scale < m.scale exponent) :
    fit t ty r m exponent =
      ⟨r.drop (m.scale exponent - ty.scale).toNat m.unscaled,
        if r.drop (m.scale exponent - ty.scale).toNat m.unscaled = 10 ^ ty.precision then .overflow
        else .underflow⟩ := by
  have hsp := ty.scale_le
  have hscale := placement_scale t ty m exponent
  have hshift : (m.scale exponent - ty.scale).toNat =
      (placement t ty m exponent).scale - ty.scale := by omega
  have hwhole : m.significant.length ≤ ty.wholeDigits + (placement t ty m exponent).scale := by
    rw [DecimalType.wholeDigits]
    omega
  rw [fit, if_neg (wide_iff.not.mpr (by omega)), if_pos (excess_iff.mpr hs), hshift]
  exact shorten_eq r hty hm (placement_value (by omega)) (excess_iff.mpr hs) hwhole

lemma fit_of_room (hty : ty.fits t) (hm : m.WellFormed) (hp : m.present = true)
    (hw : m.significant.length - m.scale exponent ≤ ty.precision - ty.scale)
    (hs : m.scale exponent ≤ ty.scale) :
    fit t ty r m exponent =
      ⟨m.unscaled * 10 ^ (ty.scale - m.scale exponent).toNat, .success⟩ := by
  have hsp := ty.scale_le
  have hmax : ty.precision ≤ t.maxPrecision := of_decide_eq_true hty
  have hscale := placement_scale t ty m exponent
  have hshift : (ty.scale - m.scale exponent).toNat =
      (-m.scale exponent).toNat + (ty.scale - (placement t ty m exponent).scale) := by omega
  have habsent : (!m.hasDigit && !m.dotted) = false := by
    rw [← Bool.not_or]
    exact congrArg not hp
  rw [fit, if_neg (wide_iff.not.mpr (by omega)), if_neg (excess_iff.not.mpr (by omega)), habsent,
    if_neg Bool.false_ne_true, placement_value_of_fits hty hm hs hw, extend_eq (by omega), hshift,
    pow_add, Nat.mul_assoc]

lemma fit_of_absent (hp : m.present = false)
    (hw : m.significant.length - m.scale exponent ≤ ty.precision - ty.scale)
    (hs : m.scale exponent ≤ ty.scale) :
    fit t ty r m exponent = ⟨0, .failure⟩ := by
  have habsent : (!m.hasDigit && !m.dotted) = true := by
    rw [← Bool.not_or]
    exact congrArg not hp
  rw [fit, if_neg (wide_iff.not.mpr (by omega)), if_neg (excess_iff.not.mpr (by omega)),
    if_pos habsent]

lemma fit_cases (hty : ty.fits t) (hm : m.WellFormed) :
    ((ty.precision : ℤ) - ty.scale < m.significant.length - m.scale exponent ∧
        fit t ty r m exponent = ⟨(placement t ty m exponent).value, .overflow⟩) ∨
      (m.significant.length - m.scale exponent ≤ ty.precision - ty.scale ∧
        ty.scale < m.scale exponent ∧
        fit t ty r m exponent =
          ⟨r.drop (m.scale exponent - ty.scale).toNat m.unscaled,
            if r.drop (m.scale exponent - ty.scale).toNat m.unscaled = 10 ^ ty.precision then
              .overflow
            else .underflow⟩) ∨
      (m.significant.length - m.scale exponent ≤ ty.precision - ty.scale ∧
        m.scale exponent ≤ ty.scale ∧ m.present = true ∧
        fit t ty r m exponent =
          ⟨m.unscaled * 10 ^ (ty.scale - m.scale exponent).toNat, .success⟩) ∨
      (m.significant.length - m.scale exponent ≤ ty.precision - ty.scale ∧
        m.scale exponent ≤ ty.scale ∧ m.present = false ∧
        fit t ty r m exponent = ⟨0, .failure⟩) := by
  rcases lt_or_ge ((ty.precision : ℤ) - ty.scale) (m.significant.length - m.scale exponent) with hw | hw
  · exact Or.inl ⟨hw, fit_of_wide r hw⟩
  · rcases lt_or_ge (ty.scale : ℤ) (m.scale exponent) with hs | hs
    · exact Or.inr (Or.inl ⟨hw, hs, fit_of_excess r hty hm hw hs⟩)
    · cases hp : m.present with
      | true => exact Or.inr (Or.inr (Or.inl ⟨hw, hs, rfl, fit_of_room r hty hm hp hw hs⟩))
      | false => exact Or.inr (Or.inr (Or.inr ⟨hw, hs, rfl, fit_of_absent r hp hw hs⟩))

lemma unscaled_lt_of_not_wide (hm : m.WellFormed)
    (hw : m.significant.length - m.scale exponent ≤ ty.precision - ty.scale) :
    m.unscaled < 10 ^ (ty.precision + (m.scale exponent - ty.scale).toNat) :=
  (Mantissa.unscaled_lt hm).trans_le (Nat.pow_le_pow_right (by norm_num) (by omega))

lemma room_of_success (hty : ty.fits t) (hm : m.WellFormed)
    (hs : (fit t ty r m exponent).status = .success) :
    m.significant.length - m.scale exponent ≤ ty.precision - ty.scale ∧
      m.scale exponent ≤ ty.scale ∧ m.present = true := by
  rcases fit_cases r hty hm with ⟨-, he⟩ | ⟨-, -, he⟩ | ⟨hw, hroom, hp, -⟩ | ⟨-, -, -, he⟩
  · rw [he] at hs
    cases hs
  · rw [he] at hs
    split_ifs at hs
  · exact ⟨hw, hroom, hp⟩
  · rw [he] at hs
    cases hs

lemma excess_of_underflow (hty : ty.fits t) (hm : m.WellFormed)
    (hs : (fit t ty r m exponent).status = .underflow) :
    m.significant.length - m.scale exponent ≤ ty.precision - ty.scale ∧
      ty.scale < m.scale exponent ∧
      r.drop (m.scale exponent - ty.scale).toNat m.unscaled ≠ 10 ^ ty.precision := by
  rcases fit_cases r hty hm with ⟨-, he⟩ | ⟨hw, hexcess, he⟩ | ⟨-, -, -, he⟩ | ⟨-, -, -, he⟩
  · rw [he] at hs
    cases hs
  · refine ⟨hw, hexcess, fun hp => ?_⟩
    rw [he, if_pos hp] at hs
    cases hs
  · rw [he] at hs
    cases hs
  · rw [he] at hs
    cases hs

lemma fit_value_lt (hty : ty.fits t) (hm : m.WellFormed)
    (hs : (fit t ty r m exponent).status = .success ∨ (fit t ty r m exponent).status = .underflow) :
    (fit t ty r m exponent).value < 10 ^ ty.precision := by
  have hsp := ty.scale_le
  rcases hs with hs | hs
  · obtain ⟨hw, hroom, hp⟩ := room_of_success r hty hm hs
    rw [fit_of_room r hty hm hp hw hroom]
    calc m.unscaled * 10 ^ (ty.scale - m.scale exponent).toNat
        < 10 ^ m.significant.length * 10 ^ (ty.scale - m.scale exponent).toNat :=
          Nat.mul_lt_mul_of_pos_right (Mantissa.unscaled_lt hm) (by positivity)
      _ = 10 ^ (m.significant.length + (ty.scale - m.scale exponent).toNat) := (pow_add 10 _ _).symm
      _ ≤ 10 ^ ty.precision := Nat.pow_le_pow_right (by norm_num) (by omega)
  · obtain ⟨hw, hexcess, hne⟩ := excess_of_underflow r hty hm hs
    rw [fit_of_excess r hty hm hw hexcess]
    exact (r.drop_le_pow (unscaled_lt_of_not_wide hm hw)).lt_of_ne hne

lemma fit_value_le_max (hty : ty.fits t) (hm : m.WellFormed) :
    ((fit t ty r m exponent).value : ℤ) ≤ t.max := by
  rcases @fit_cases t ty m r exponent hty hm with ⟨-, he⟩ | ⟨hw, -, he⟩ | ⟨-, -, -, he⟩ |
    ⟨-, -, -, he⟩
  · rw [he]
    exact placement_value_le_max hty hm
  · rw [he]
    exact natCast_le_max hty (r.drop_le_pow (unscaled_lt_of_not_wide hm hw))
  · apply natCast_le_max hty
    apply le_of_lt
    exact fit_value_lt r hty hm (Or.inl (by rw [he]))
  · rw [he]
    exact natCast_le_max hty (Nat.zero_le _)

end SqlCast.Decimal
