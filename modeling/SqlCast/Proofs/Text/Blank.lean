import Mathlib.Data.List.TakeWhile
import SqlCast.Text.Blank

namespace SqlCast.Text

variable {u v s : Bytes}

lemma dropBlanks_append_left (hu : allBlank u = true) (s : Bytes) :
    dropBlanks (u ++ s) = dropBlanks s :=
  List.dropWhile_append_of_pos (List.all_eq_true.mp hu)

lemma dropBlanks_eq_nil (hv : allBlank v = true) : dropBlanks v = [] :=
  List.dropWhile_eq_nil_iff.mpr (List.all_eq_true.mp hv)

lemma allBlank_reverse (hv : allBlank v = true) : allBlank v.reverse = true := by
  rw [allBlank, List.all_reverse]
  exact hv

lemma dropBlanks_append_right (hv : allBlank v = true) (s : Bytes) :
    dropBlanks (s ++ v) = if (dropBlanks s).isEmpty then [] else dropBlanks s ++ v := by
  rw [← dropBlanks_eq_nil hv]
  exact List.dropWhile_append

lemma trim_padded (hu : allBlank u = true) (hv : allBlank v = true) (s : Bytes) :
    trim (u ++ s ++ v) = trim s := by
  rw [trim, trim, List.append_assoc, dropBlanks_append_left hu, dropBlanks_append_right hv]
  split
  · rename_i hs
    rw [List.isEmpty_iff.mp hs]
  · rw [List.reverse_append, dropBlanks_append_left (allBlank_reverse hv)]

lemma dropBlanks_of_head (hs : ∀ c ∈ s.head?, isBlank c = false) : dropBlanks s = s := by
  cases s with
  | nil => rfl
  | cons c s => exact List.dropWhile_cons_of_neg (by simp [hs c rfl])

lemma dropBlanks_eq_self (hs : ∀ c ∈ s, isBlank c = false) : dropBlanks s = s :=
  dropBlanks_of_head fun c hc => hs c (List.mem_of_head? hc)

lemma trim_eq_self (hs : ∀ c ∈ s, isBlank c = false) : trim s = s := by
  have hr : ∀ c ∈ s.reverse, isBlank c = false := by simpa using hs
  rw [trim, dropBlanks_eq_self hs, dropBlanks_eq_self hr, List.reverse_reverse]

lemma length_trim_le (s : Bytes) : (trim s).length ≤ s.length := by
  have hfront : (dropBlanks s).length ≤ s.length := List.length_dropWhile_le _ _
  have hback : (dropBlanks (dropBlanks s).reverse).length ≤ (dropBlanks s).reverse.length :=
    List.length_dropWhile_le _ _
  rw [List.length_reverse] at hback
  rw [trim, List.length_reverse]
  exact hback.trans hfront

lemma eq_nil_of_suffix_trim (h : v <:+ trim s) (hv : allBlank v = true) : v = [] := by
  cases hr : v.reverse with
  | nil => exact List.reverse_eq_nil_iff.mp hr
  | cons c r =>
    have hp : v.reverse <+: dropBlanks (dropBlanks s).reverse := by
      rw [← List.reverse_suffix, List.reverse_reverse]
      exact h
    have hb : isBlank c = true := List.all_eq_true.mp (allBlank_reverse hv) c (hr ▸ List.mem_cons_self)
    obtain ⟨t, ht⟩ := hp
    have hd := List.head?_dropWhile_not isBlank (dropBlanks s).reverse
    rw [← dropBlanks, ← ht, hr] at hd
    simp [hb] at hd

end SqlCast.Text
