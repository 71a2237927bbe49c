import SqlCast.Text.Digit

/-! A decimal is a whole number of units in the last place; the place is known to whoever holds
it. -/

namespace SqlCast

structure Decimal where
  unscaled : Int
  deriving DecidableEq, Repr

namespace Decimal

open Text

instance : Inhabited Decimal := ⟨⟨0⟩⟩

instance : Ord Decimal := ⟨fun a b => compare a.unscaled b.unscaled⟩

def least (a b : Decimal) : Decimal := if compare b a = .lt then b else a
def greatest (a b : Decimal) : Decimal := if compare b a = .gt then b else a

def paddedDigits (scale magnitude : Nat) : List Nat :=
  let ds := digitsOf 10 magnitude
  List.replicate (scale + 1 - ds.length) 0 ++ ds

def render (scale : Nat) (x : Decimal) : Bytes :=
  let ds := (paddedDigits scale x.unscaled.natAbs).map digitByte
  let point := ds.length - scale
  (if x.unscaled < 0 then [45] else []) ++ ds.take point ++
    (if scale = 0 then [] else 46 :: ds.drop point)

end Decimal

end SqlCast
