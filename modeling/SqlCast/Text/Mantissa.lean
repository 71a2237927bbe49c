import SqlCast.Text.Digit
import SqlCast.Text.Token

namespace SqlCast.Text

structure Mantissa where
  whole : List Nat
  fraction : List Nat
  dotted : Bool
  deriving DecidableEq, Repr

namespace Mantissa

def scan (s : Bytes) : Mantissa × Bytes :=
  let whole := (s.takeWhile isDigit).map digitValue
  match s.dropWhile isDigit with
  | 46 :: r => (⟨whole, (r.takeWhile isDigit).map digitValue, true⟩, r.dropWhile isDigit)
  | r => (⟨whole, [], false⟩, r)

def digits (m : Mantissa) : List Nat := m.whole ++ m.fraction

def significant (m : Mantissa) : List Nat := m.digits.dropWhile (· == 0)

def hasDigit (m : Mantissa) : Bool := !m.digits.isEmpty

def unscaled (m : Mantissa) : Nat := ofDigits 10 m.digits

end Mantissa

def isMarker (c : UInt8) : Bool := lowercase c == 101

end SqlCast.Text
