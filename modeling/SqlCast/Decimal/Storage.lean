namespace SqlCast.Decimal

inductive Storage
  | word32
  | word64
  | word128
  deriving DecidableEq, Repr

namespace Storage

def bits : Storage → Nat
  | word32 => 32
  | word64 => 64
  | word128 => 128

def maxPrecision : Storage → Nat
  | word32 => 9
  | word64 => 18
  | word128 => 38

def max (t : Storage) : Int := Nat.pow 2 (t.bits - 1) - 1
def min (t : Storage) : Int := -Nat.pow 2 (t.bits - 1)

def contains (t : Storage) (n : Int) : Bool := t.min ≤ n && n ≤ t.max

def name : Storage → String
  | word32 => "i32"
  | word64 => "i64"
  | word128 => "i128"

def ten : Nat := 10
def two : Nat := 2

def powerOfTen? (t : Storage) : (scale : Int) → Option Nat
  | .ofNat k => if k ≤ t.maxPrecision then some (ten.pow k) else none
  | .negSucc _ => none

def powersOfTen (t : Storage) : List Nat := (List.range (t.maxPrecision + 1)).map ten.pow

def ofDigit (d : UInt8) : Nat := d.toNat

end Storage

end SqlCast.Decimal
