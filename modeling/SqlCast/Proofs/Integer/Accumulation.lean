import SqlCast.Integer.Accumulation
import SqlCast.Proofs.Text.Digit

/-! The guard before each digit lets exactly the numbers up to the limit through. -/

namespace SqlCast.Integer

open Text

variable {limit base : ℕ}

lemma guard_iff (hb : 0 < base) (hl : base ≤ limit) {d : ℕ} (hd : d < base) (n : ℕ) :
    n > limit / base - (if d > limit % base then 1 else 0) ↔ limit < n * base + d := by
  have hq : 0 < limit / base := Nat.div_pos hl hb
  have hr : limit % base < base := Nat.mod_lt limit hb
  have hlim : limit / base * base + limit % base = limit := Nat.div_add_mod' limit base
  rcases lt_trichotomy n (limit / base) with hn | hn | hn
  · have hm : (n + 1) * base ≤ limit / base * base := Nat.mul_le_mul_right base hn
    rw [Nat.add_mul, Nat.one_mul] at hm
    split <;> omega
  · subst hn
    split <;> omega
  · have hm : (limit / base + 1) * base ≤ n * base := Nat.mul_le_mul_right base hn
    rw [Nat.add_mul, Nat.one_mul] at hm
    split <;> omega

lemma push?_eq (hb : 0 < base) (hl : base ≤ limit) {d : ℕ} (hd : d < base) (n : ℕ) :
    push? limit base n d = if n * base + d ≤ limit then some (n * base + d) else none := by
  rw [push?, ← ite_not]
  exact if_congr (by rw [guard_iff hb hl hd, Nat.not_lt]) rfl rfl

lemma accumulate?_append_singleton (ds : List ℕ) (d : ℕ) :
    accumulate? limit base (ds ++ [d]) = (accumulate? limit base ds).bind (push? limit base · d) := by
  rw [accumulate?, List.foldlM_append]
  exact congrArg _ (funext fun n => by simp)

lemma accumulate?_eq (hb : 0 < base) (hl : base ≤ limit) {ds : List ℕ} (h : ∀ d ∈ ds, d < base) :
    accumulate? limit base ds =
      if ofDigits base ds ≤ limit then some (ofDigits base ds) else none := by
  induction ds using List.reverseRecOn with
  | nil => rfl
  | append_singleton ds d ih =>
    have hds : ∀ x ∈ ds, x < base := fun x hx => h x (by simp [hx])
    rw [accumulate?_append_singleton, ih hds, ofDigits_append_singleton]
    split
    · exact push?_eq hb hl (h d (by simp)) _
    · rename_i hover
      have hm : ofDigits base ds ≤ ofDigits base ds * base := Nat.le_mul_of_pos_right _ hb
      rw [if_neg (by omega)]
      rfl

end SqlCast.Integer
