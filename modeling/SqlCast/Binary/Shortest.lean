import SqlCast.Binary.Basic

namespace SqlCast.Binary

structure Shortest where
  digits : Nat
  exponent : Int
  deriving DecidableEq, Repr

namespace Shortest

structure Interval where
  low : Nat
  high : Nat
  closed : Bool
  deriving DecidableEq, Repr

def interval (f : Format) (n : Nat) : Interval :=
  let e := excessBits f n
  let below := if 0 < e ∧ n = Nat.pow 2 n.log2 then Nat.pow 2 e else 2 * Nat.pow 2 e
  ⟨4 * n - below, 4 * n + 2 * Nat.pow 2 e, n / Nat.pow 2 e % 2 == 0⟩

def Interval.contains (i : Interval) (x scale : Nat) : Bool :=
  if i.closed then i.low * scale ≤ x && x ≤ i.high * scale
  else i.low * scale < x && x < i.high * scale

/-- The multiple of `10 ^ k` nearest to `n` quanta that reads back, if one does; a tie goes to the
even multiple. -/
def atExponent? (f : Format) (n : Nat) (k : Int) : Option Shortest :=
  let scale := Nat.pow 10 (-k).toNat
  let unit := 4 * f.one * Nat.pow 10 k.toNat
  let i := interval f n
  let d := 4 * n * scale / unit
  let remainder := 4 * n * scale % unit
  let lower := i.contains (d * unit) scale
  let upper := i.contains ((d + 1) * unit) scale
  let down := 2 * remainder < unit || (2 * remainder == unit && d % 2 == 0)
  if lower && (down || !upper) then some ⟨d, k⟩
  else if upper then some ⟨d + 1, k⟩
  else none

def ofQuanta (f : Format) (n : Nat) : Shortest :=
  let top : Nat := f.maxExponent / 3
  ((List.range f.maxExponent).findSome? fun (i : Nat) => atExponent? f n (top - i)).getD ⟨0, 0⟩

end Shortest

end SqlCast.Binary
