import SqlCast.Decimal.DecimalType
import SqlCast.Text.Mantissa

/-! Fitting the digits and the exponent of a literal into a decimal type. Only as many significant
digits as the type has are kept, so that the value never leaves the storage word. -/

namespace SqlCast.Decimal

open Text

inductive Rounding
  | truncate
  | halfUp
  deriving DecidableEq, Repr

structure Placement where
  value : Nat
  precision : Nat
  scale : Nat
  deriving DecidableEq, Repr

def scaleUp? (t : Storage) (value shift : Nat) : Option Nat :=
  (t.powerOfTen? shift).bind fun p => if value * p ≤ t.max then some (value * p) else none

def scaleDown (t : Storage) (rounding : Rounding) (value shift : Nat) : Nat :=
  match t.powerOfTen? shift with
  | none => 0
  | some p =>
      if rounding = .halfUp ∧ p / Storage.two ≤ value % p then value / p + 1 else value / p

/-- Moves the dot by the exponent. Past the last digit it appends zeros; a product that does not fit
the word leaves the value, as the precision then exceeds every type. -/
def place (t : Storage) (value total afterDot : Nat) (exponent : Int) : Placement :=
  if exponent > afterDot then
    let shift := (exponent - afterDot).toNat
    ⟨(scaleUp? t value shift).getD value, total + shift, 0⟩
  else
    let scale := (afterDot - exponent).toNat
    ⟨value, Nat.max total scale, scale⟩

def droppedDigits (ty : DecimalType) (m : Mantissa) : Nat := m.significant.length - ty.precision

def firstDropped (ty : DecimalType) (rounding : Rounding) (m : Mantissa) : Nat :=
  match rounding with
  | .truncate => 0
  | .halfUp => (m.significant[ty.precision]?).getD 0

def keptValue (ty : DecimalType) (m : Mantissa) : Nat :=
  ofDigits Storage.ten (m.significant.take ty.precision)

def placement (t : Storage) (ty : DecimalType) (m : Mantissa) (exponent : Int) : Placement :=
  place t (keptValue ty m) m.significant.length m.fraction.length exponent

/-- Removes the digits past the scale of the type. Where all kept digits are needed, the first
dropped one decides, and a carry may then fill the precision. -/
def shorten (t : Storage) (ty : DecimalType) (rounding : Rounding) (m : Mantissa)
    (p : Placement) : Outcome Nat :=
  let shift := p.scale - droppedDigits ty m - ty.scale
  if 0 < shift then ⟨scaleDown t rounding p.value shift, .underflow⟩
  else
    let value := if 5 ≤ firstDropped ty rounding m then p.value + 1 else p.value
    ⟨value, if t.powerOfTen? ty.precision = some value then .overflow else .underflow⟩

def extend (t : Storage) (value shift : Nat) : Nat :=
  match t.powerOfTen? shift with
  | none => value
  | some p => value * p

def fit (t : Storage) (ty : DecimalType) (rounding : Rounding) (m : Mantissa)
    (exponent : Int) : Outcome Nat :=
  let p := placement t ty m exponent
  if ty.wholeDigits < p.precision - p.scale then ⟨p.value, .overflow⟩
  else if ty.scale < p.scale then shorten t ty rounding m p
  else if !m.hasDigit && !m.dotted then ⟨0, .failure⟩
  else ⟨extend t p.value (ty.scale - p.scale), .success⟩

end SqlCast.Decimal
