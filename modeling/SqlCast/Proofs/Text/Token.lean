import Mathlib.Data.List.Basic
import SqlCast.Text.Token

namespace SqlCast.Text

variable {word s : Bytes}

lemma dropToken?_eq_some_iff {v : Bytes} :
    dropToken? word s = some v ↔ ∃ t : Bytes, t.map lowercase = word ∧ t ++ v = s := by
  induction word generalizing s with
  | nil => simp [dropToken?, eq_comm]
  | cons w word ih =>
    cases s with
    | nil => simp [dropToken?]
    | cons c s =>
      rw [dropToken?]
      constructor
      · intro h
        split at h
        · rename_i hc
          obtain ⟨t, ht, rfl⟩ := ih.mp h
          exact ⟨c :: t, by rw [List.map_cons, hc, ht], rfl⟩
        · cases h
      · rintro ⟨_ | ⟨d, t⟩, ht, hs⟩
        · cases ht
        · obtain ⟨rfl, rfl⟩ := List.cons_eq_cons.mp hs
          obtain ⟨hd, ht⟩ := List.cons_eq_cons.mp ht
          rw [if_pos hd]
          exact ih.mpr ⟨t, ht, rfl⟩

lemma isToken_iff :
    isToken word s = true ↔
      ∃ t v : Bytes, t.map lowercase = word ∧ allBlank v = true ∧ t ++ v = s := by
  rw [isToken, Option.any_eq_true]
  constructor
  · rintro ⟨v, hv, hb⟩
    obtain ⟨t, ht, rfl⟩ := dropToken?_eq_some_iff.mp hv
    exact ⟨t, v, ht, hb, rfl⟩
  · rintro ⟨t, v, ht, hb, rfl⟩
    exact ⟨v, dropToken?_eq_some_iff.mpr ⟨t, ht, rfl⟩, hb⟩

lemma dropToken?_of_head_ne {w c : UInt8} (h : lowercase c ≠ w) (word s : Bytes) :
    dropToken? (w :: word) (c :: s) = none := if_neg h

lemma length_splitSign_le (s : Bytes) : (splitSign s).2.length ≤ s.length := by
  unfold splitSign
  split <;> simp

end SqlCast.Text
