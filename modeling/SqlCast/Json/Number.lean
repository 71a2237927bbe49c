import SqlCast.Binary.Arithmetic
import SqlCast.Json.Error

/-! JSON numbers. Their digits are gathered in 64 bits; what does not fit moves into the exponent.
-/

namespace SqlCast.Json

open Text

def isDigitChar (c : Char) : Bool := '0' ≤ c && c ≤ '9'

def digitOfChar (c : Char) : Nat := c.toNat - '0'.toNat

def maxSignificand : Nat := Nat.pow 2 64 - 1

def maxExponent : Nat := Nat.pow 2 31 - 1

def absorb (n : Nat) : List Nat → Nat × Nat
  | [] => (n, 0)
  | d :: ds =>
      if n * 10 + d ≤ maxSignificand then
        let (v, k) := absorb (n * 10 + d) ds
        (v, k + 1)
      else (n, 0)

def largestPower : Nat := 308

def powerOfTen (k : Nat) : Binary .double := .ofNat .double (Nat.pow 10 k)

/-- Multiplies or divides by a power of ten, in several divisions for a very small one. A result out
of range is refused. -/
def scale? (x : Binary .double) (e : Int) : Option (Binary .double) :=
  if 0 ≤ e then
    if e ≤ largestPower then
      let y := x * powerOfTen e.toNat
      if y.isInfinite then none else some y
    else if x.isZero then some x else none
  else if -e ≤ largestPower then some (x / powerOfTen e.natAbs)
  else if x.isZero then some x
  else scale? (x / powerOfTen largestPower) (e + largestPower)
termination_by (-e).toNat
decreasing_by simp only [largestPower] at *; omega

structure NumberToken where
  negative : Bool
  whole : List Nat
  fraction : Option (List Nat)
  exponent : Option (Bool × List Nat)
  deriving DecidableEq, Repr

namespace NumberToken

def scanFraction : List Char → Option (Option (List Nat) × List Char)
  | '.' :: s =>
      let run := s.takeWhile isDigitChar
      if run.isEmpty then none else some (some (run.map digitOfChar), s.dropWhile isDigitChar)
  | s => some (none, s)

def scanSign : List Char → Bool × List Char
  | '-' :: s => (true, s)
  | '+' :: s => (false, s)
  | s => (false, s)

def scanExponent : List Char → Option (Option (Bool × List Nat) × List Char)
  | [] => some (none, [])
  | c :: s =>
      if c = 'e' ∨ c = 'E' then
        let (negative, body) := scanSign s
        let run := body.takeWhile isDigitChar
        if run.isEmpty then none
        else some (some (negative, run.map digitOfChar), body.dropWhile isDigitChar)
      else some (none, c :: s)

def scanWhole (s : List Char) : Option (List Nat × List Char) :=
  let run := s.takeWhile isDigitChar
  if run.isEmpty || (run.head? == some '0' && run.length != 1) then none
  else some (run.map digitOfChar, s.dropWhile isDigitChar)

def scan (negative : Bool) (s : List Char) : Option (NumberToken × List Char) := do
  let (whole, s) ← scanWhole s
  let (fraction, s) ← scanFraction s
  let (exponent, s) ← scanExponent s
  return (⟨negative, whole, fraction, exponent⟩, s)

def floating? (t : NumberToken) : Option (Binary .double) := do
  let (n, taken) := absorb 0 t.whole
  let (n, places) := absorb n (t.fraction.getD [])
  let position : Int := (t.whole.length : Int) - taken - places
  let (down, e) := match t.exponent with
    | none => (false, 0)
    | some (down, ds) => (down, ofDigits 10 ds)
  let magnitude ←
    if maxExponent < e then if n = 0 ∨ down then some Binary.zero else none
    else scale? (.ofNat .double n) (if down then position - e else position + e)
  return if t.negative then -magnitude else magnitude

def integer? (t : NumberToken) : Option Int :=
  let n := ofDigits 10 t.whole
  if t.fraction.isSome || t.exponent.isSome then none
  else if t.negative then if 0 < n ∧ n ≤ Nat.pow 2 63 then some (-n) else none
  else if n ≤ maxSignificand then some n else none

def value? (t : NumberToken) : Option Found :=
  match t.integer? with
  | some n => some (.integer n)
  | none => t.floating?.map .floating

end NumberToken

end SqlCast.Json
