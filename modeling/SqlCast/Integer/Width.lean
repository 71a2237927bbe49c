import SqlCast.Text.Blank

namespace SqlCast.Integer

inductive Width
  | int8
  | int16
  | int32
  | int64
  deriving DecidableEq, Repr

namespace Width

def bits : Width → Nat
  | int8 => 8
  | int16 => 16
  | int32 => 32
  | int64 => 64

def maxDigits : Width → Nat
  | int8 => 3
  | int16 => 5
  | int32 => 10
  | int64 => 19

abbrev Value (w : Width) : Type := BitVec w.bits

def maxMagnitude (w : Width) : Nat := Nat.pow 2 (w.bits - 1) - 1

def limit (w : Width) (negative : Bool) : Nat :=
  if negative then w.maxMagnitude + 1 else w.maxMagnitude

def ofMagnitude (w : Width) (magnitude : Nat) (negative : Bool) : w.Value :=
  let v := BitVec.ofNat w.bits magnitude
  if negative then -v else v

def bound (w : Width) (negative : Bool) : w.Value := w.ofMagnitude (w.limit negative) negative

end Width

end SqlCast.Integer
