import SqlCast.Binary.Format

namespace SqlCast

namespace Binary

structure Finite (f : Format) where
  quanta : Nat
  representable : Representable f quanta
  deriving DecidableEq

end Binary

open Binary

/-- All NaNs count as one; a zero has a sign. -/
inductive Binary (f : Format)
  | nan
  | infinity (negative : Bool)
  | finite (negative : Bool) (magnitude : Finite f)
  deriving DecidableEq

namespace Binary

variable {f : Format}

def roundHalfEven (num den : Nat) : Nat :=
  let q := num / den
  let r := num % den
  if 2 * r < den then q else if den < 2 * r then q + 1 else q + q % 2

theorem roundHalfEven_le {num den bound : Nat} (h : num / den < bound) :
    roundHalfEven num den ≤ bound := by
  unfold roundHalfEven
  dsimp only
  split
  · omega
  · split <;> omega

def excessBits (f : Format) (n : Nat) : Nat := n.log2 + 1 - f.precision

def roundQuanta (f : Format) (num den : Nat) : Nat :=
  let e := excessBits f (num / den)
  roundHalfEven num (den * Nat.pow 2 e) * Nat.pow 2 e

theorem div_lt_two_pow_precision (f : Format) (num den : Nat) :
    num / (den * Nat.pow 2 (excessBits f (num / den))) < Nat.pow 2 f.precision := by
  simp only [Nat.pow_eq]
  rw [← Nat.div_div_eq_div_mul, Nat.div_lt_iff_lt_mul (Nat.two_pow_pos _), ← Nat.pow_add]
  refine Nat.lt_of_lt_of_le Nat.lt_log2_self (Nat.pow_le_pow_right (by decide) ?_)
  unfold excessBits
  omega

theorem representable_roundQuanta {num den : Nat} (h : roundQuanta f num den < f.ceiling) :
    Representable f (roundQuanta f num den) := by
  refine ⟨h, ?_⟩
  have hle := roundHalfEven_le (div_lt_two_pow_precision f num den)
  rcases Nat.lt_or_eq_of_le hle with hlt | heq
  · exact ⟨_, _, hlt, rfl⟩
  · exact ⟨1, f.precision + excessBits f (num / den), f.one_lt_two_pow_precision, by
      rw [roundQuanta, heq, Nat.one_mul]
      exact (Nat.pow_add 2 _ _).symm⟩

/-- The value nearest to `num / den` quanta, ties to even; infinite from half a unit below the
ceiling. -/
def ofRatio (f : Format) (negative : Bool) (num den : Nat) : Binary f :=
  if h : roundQuanta f num den < f.ceiling then
    finite negative ⟨roundQuanta f num den, representable_roundQuanta h⟩
  else infinity negative

def zero : Binary f := ofRatio f false 0 1

def ofNat (f : Format) (n : Nat) : Binary f := ofRatio f false (n * f.one) 1

def ofDecimal (f : Format) (negative : Bool) (n : Nat) (exponent : Int) : Binary f :=
  if 0 ≤ exponent then ofRatio f negative (n * Nat.pow 10 exponent.toNat * f.one) 1
  else ofRatio f negative (n * f.one) (Nat.pow 10 exponent.natAbs)

def convert (g : Format) : Binary f → Binary g
  | nan => nan
  | infinity s => infinity s
  | finite s m => ofRatio g s (m.quanta * g.one) f.one

def isInfinite : Binary f → Bool
  | infinity _ => true
  | _ => false

def isZero : Binary f → Bool
  | finite _ m => m.quanta == 0
  | _ => false

end Binary

end SqlCast
