import SqlCast.Binary.Arithmetic
import SqlCast.Text.Mantissa

namespace SqlCast.Floating.Scientific

open Text

def infToken : Bytes := token ['i', 'n', 'f']
def infinityToken : Bytes := token ['i', 'n', 'f', 'i', 'n', 'i', 't', 'y']
def nanToken : Bytes := token ['n', 'a', 'n']

/-- Digits that follow once the exponent has reached this bound count no more. -/
def exponentBound : Nat := 65536

def exponentOfDigits (ds : List Nat) : Nat :=
  ds.foldl (fun n d => if n < exponentBound then n * 10 + d else n) 0

def scanExponent : Bytes → Int × Bytes
  | [] => (0, [])
  | c :: s =>
      let (negative, body) := splitSign s
      let run := body.takeWhile isDigit
      if isMarker c && !run.isEmpty then
        let e := exponentOfDigits (run.map digitValue)
        (if negative then -e else e, body.dropWhile isDigit)
      else (0, c :: s)

def readWord? (f : Binary.Format) (negative : Bool) (s : Bytes) : Option (Binary f × Bytes) :=
  match dropToken? nanToken s with
  | some rest => some (.nan, rest)
  | none =>
      match dropToken? infinityToken s with
      | some rest => some (.infinity negative, rest)
      | none => (dropToken? infToken s).map (.infinity negative, ·)

def read? (f : Binary.Format) (s : Bytes) : Option (Binary f × Bytes) :=
  let (negative, body) := splitSign s
  let (m, rest) := Mantissa.scan body
  if m.hasDigit then
    let (e, rest) := scanExponent rest
    some (Binary.ofDecimal f negative m.unscaled (e - m.fraction.length), rest)
  else readWord? f negative body

def readCounted? (f : Binary.Format) (s : Bytes) : Option (Binary f × Nat) :=
  (read? f s).map fun (x, rest) => (x, s.length - rest.length)

end SqlCast.Floating.Scientific
