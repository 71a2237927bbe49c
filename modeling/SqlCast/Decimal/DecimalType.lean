import SqlCast.Decimal.Storage
import SqlCast.Status

namespace SqlCast

open Decimal

structure DecimalType where
  precision : Nat
  scale : Nat
  precision_pos : 0 < precision
  precision_le : precision ≤ Storage.word128.maxPrecision
  scale_le : scale ≤ precision
  deriving DecidableEq

namespace DecimalType

def of (precision scale : Nat) : Except CastError DecimalType :=
  if h : 0 < precision ∧ precision ≤ Storage.word128.maxPrecision ∧ scale ≤ precision then
    .ok ⟨precision, scale, h.1, h.2.1, h.2.2⟩
  else .error (.invalidDecimalType precision scale)

def fits (ty : DecimalType) (t : Storage) : Bool := ty.precision ≤ t.maxPrecision

def wholeDigits (ty : DecimalType) : Nat := ty.precision - ty.scale

def render (ty : DecimalType) : String :=
  "DECIMAL(" ++ toString ty.precision ++ ", " ++ toString ty.scale ++ ")"

end DecimalType

end SqlCast
