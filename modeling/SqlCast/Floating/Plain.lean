import SqlCast.Binary.Arithmetic
import SqlCast.Text.Mantissa

namespace SqlCast.Floating.Plain

open Text

def maxSignificant : Nat := 18

/-- The whole part so far, the taken fractional digits as a whole number, and the power of ten that
they stand over. -/
structure Accumulator where
  significant : Nat
  whole : Binary .double
  remainder : Nat
  divisor : Binary .double
  deriving DecidableEq

namespace Accumulator

def start : Accumulator := ⟨0, .zero, 0, .ofNat .double 1⟩

def count (n d : Nat) : Nat := if d = 0 ∧ n = 0 then 0 else n + 1

def pushWhole (a : Accumulator) (d : Nat) : Accumulator :=
  { a with
    significant := count a.significant d
    whole := a.whole * .ofNat .double 10 + .ofNat .double d }

def pushFraction (a : Accumulator) (d : Nat) : Accumulator :=
  let significant := count a.significant d
  if significant ≤ maxSignificant then
    { a with
      significant
      remainder := a.remainder * 10 + d
      divisor := a.divisor * .ofNat .double 10 }
  else { a with significant }

def value (a : Accumulator) : Binary .double :=
  a.whole + .ofNat .double a.remainder / a.divisor

end Accumulator

def accumulate (m : Mantissa) : Accumulator :=
  m.fraction.foldl .pushFraction (m.whole.foldl .pushWhole .start)

def value (f : Binary.Format) (m : Mantissa) : Binary f := (accumulate m).value.convert f

end SqlCast.Floating.Plain
