namespace SqlCast.Binary

inductive Format
  | single
  | double
  deriving DecidableEq, Repr

namespace Format

def width : Format → Nat
  | single => 32
  | double => 64

def precision : Format → Nat
  | single => 24
  | double => 53

def maxExponent : Format → Nat
  | single => 127
  | double => 1023

/-- Every finite value is a whole number of quanta of `2 ^ -quantumExponent`. -/
def quantumExponent (f : Format) : Nat := f.maxExponent + f.precision - 2

def ceiling (f : Format) : Nat := Nat.pow 2 (f.maxExponent + 1 + f.quantumExponent)

def one (f : Format) : Nat := Nat.pow 2 f.quantumExponent

theorem one_lt_two_pow_precision (f : Format) : 1 < Nat.pow 2 f.precision := by
  cases f <;> decide

end Format

def Representable (f : Format) (n : Nat) : Prop :=
  n < f.ceiling ∧ ∃ m e, m < Nat.pow 2 f.precision ∧ n = m * Nat.pow 2 e

end SqlCast.Binary
