import SqlCast.Decimal.Reader

/-! The reading of a decimal one operation at a time, on a storage word and on counters of 32 bits.
An operation whose result lies outside of them is a fault, and so is an assumption that fails. -/

namespace SqlCast.Decimal.Checked

open Text

inductive Fault
  | wordOverflow
  | counterOverflow
  | failedAssertion
  | missingPower
  deriving DecidableEq, Repr

def word (t : Storage) (n : Int) : Except Fault Int :=
  if t.contains n then .ok n else .error .wordOverflow

def counterLimit : Nat := Nat.pow 2 31

def counter (n : Int) : Except Fault Int :=
  if -counterLimit ≤ n ∧ n < counterLimit then .ok n else .error .counterOverflow

def assert (holds : Bool) : Except Fault Unit := if holds then .ok () else .error .failedAssertion

structure Progress where
  value : Int
  total : Int
  afterDot : Int
  firstDropped : Nat
  hasDigit : Bool
  dotted : Bool
  deriving DecidableEq, Repr

namespace Progress

def start : Progress := ⟨0, 0, 0, 0, false, false⟩

def countPlace (p : Progress) : Except Fault Progress := do
  let afterDot ← counter (p.afterDot + if p.dotted then 1 else 0)
  return { p with afterDot := afterDot, hasDigit := true }

def keep (t : Storage) (ty : DecimalType) (rounding : Rounding) (p : Progress) (d : Nat) :
    Except Fault Progress :=
  if p.total < ty.precision then do
    let shifted ← word t (p.value * Storage.ten)
    let value ← word t (shifted + d)
    return { p with value := value }
  else if rounding = .halfUp ∧ p.total = ty.precision then .ok { p with firstDropped := d }
  else .ok p

def takeDigit (t : Storage) (ty : DecimalType) (rounding : Rounding) (p : Progress) (d : Nat) :
    Except Fault Progress := do
  let p ← p.keep t ty rounding d
  let total ← counter (p.total + 1)
  Progress.countPlace { p with total := total }

def skipZeros (p : Progress) : Bytes → Except Fault (Progress × Bytes)
  | [] => .ok (p, [])
  | c :: s =>
      if c = 48 then do
        let p ← p.countPlace
        p.skipZeros s
      else .ok (p, c :: s)

def skipLeading (s : Bytes) : Except Fault (Progress × Bytes) := do
  let (p, s) ← start.skipZeros s
  match s with
  | 46 :: s => Progress.skipZeros { p with dotted := true } s
  | s => .ok (p, s)

def takeDigits (t : Storage) (ty : DecimalType) (rounding : Rounding) (p : Progress) :
    Bytes → Except Fault (Progress × Bytes)
  | [] => .ok (p, [])
  | c :: s =>
      if isDigit c then do
        let p ← p.takeDigit t ty rounding (digitValue c)
        p.takeDigits t ty rounding s
      else if c = 46 ∧ p.dotted = false then
        Progress.takeDigits t ty rounding { p with dotted := true } s
      else .ok (p, c :: s)

def scan (t : Storage) (ty : DecimalType) (rounding : Rounding) (s : Bytes) :
    Except Fault (Progress × Bytes) := do
  let (p, s) ← skipLeading s
  p.takeDigits t ty rounding s

end Progress

/-- The value is `unscaled` where the exponent asks for zeros that were not appended. -/
structure Placement where
  value : Int
  precision : Int
  scale : Int
  unscaled : Bool
  deriving DecidableEq, Repr

def scaleUp? (t : Storage) (value shift : Int) : Option Int :=
  (t.powerOfTen? shift).bind fun p => if t.contains (value * p) then some (value * p) else none

def place (t : Storage) (p : Progress) (exponent : Int) : Except Fault Placement :=
  if exponent > p.afterDot then do
    let shift ← counter (exponent - p.afterDot)
    let precision ← counter (p.total + shift)
    let scaled := scaleUp? t p.value shift
    return ⟨scaled.getD p.value, precision, 0, scaled.isNone⟩
  else do
    let scale ← counter (p.afterDot - exponent)
    return ⟨p.value, max p.total scale, scale, false⟩

def scaleDown (t : Storage) (rounding : Rounding) (value shift : Int) : Except Fault Int := do
  assert (0 < shift)
  match t.powerOfTen? shift with
  | none => return 0
  | some p =>
      let quotient ← word t (value.tdiv p)
      let remainder ← word t (value.tmod p)
      let size ← word t remainder.natAbs
      if rounding = .halfUp ∧ (p / Storage.two : Nat) ≤ size then
        if 0 < value then word t (quotient + 1) else word t (quotient - 1)
      else return quotient

def roundUp (t : Storage) (firstDropped : Nat) (value : Int) : Except Fault Int :=
  if 5 ≤ firstDropped then word t (value + 1) else .ok value

def fillsPrecision (t : Storage) (ty : DecimalType) (value : Int) : Bool :=
  match t.powerOfTen? ty.precision with
  | none => false
  | some p => value = p

def shorten (t : Storage) (ty : DecimalType) (rounding : Rounding) (p : Progress) (dropped : Int)
    (placed : Placement) : Except Fault (Outcome Int) := do
  let kept ← counter (placed.scale - dropped)
  let shift ← counter (kept - ty.scale)
  if 0 < shift then
    let value ← scaleDown t rounding placed.value shift
    return ⟨value, .underflow⟩
  else
    assert (shift = 0)
    let value ← roundUp t p.firstDropped placed.value
    return ⟨value, if fillsPrecision t ty value then .overflow else .underflow⟩

def extend (t : Storage) (ty : DecimalType) (dropped : Int) (placed : Placement) :
    Except Fault (Outcome Int) :=
  if placed.scale < ty.scale then do
    assert (dropped = 0)
    let shift ← counter (ty.scale - placed.scale)
    match t.powerOfTen? shift with
    | none => .error .missingPower
    | some p =>
        let value ← word t (placed.value * p)
        return ⟨value, .success⟩
  else .ok ⟨placed.value, .success⟩

def fit (t : Storage) (ty : DecimalType) (rounding : Rounding) (p : Progress) (dropped : Int)
    (placed : Placement) : Except Fault (Outcome Int) := do
  let whole ← counter (placed.precision - placed.scale)
  let room ← counter (ty.precision - ty.scale)
  if room < whole then return ⟨placed.value, .overflow⟩
  else if ty.scale < placed.scale then shorten t ty rounding p dropped placed
  else if !p.hasDigit && !p.dotted then return ⟨0, .failure⟩
  else extend t ty dropped placed

def negate (t : Storage) (negative : Bool) (value : Int) : Except Fault Int :=
  if negative then word t (-value) else .ok value

structure Run where
  outcome : Outcome Decimal
  unscaled : Bool
  deriving DecidableEq, Repr

def finish (t : Storage) (ty : DecimalType) (rounding : Rounding) (negative : Bool) (p : Progress)
    (exponent : Int) : Except Fault Run := do
  let excess ← counter (p.total - ty.precision)
  let placed ← place t p exponent
  let r ← fit t ty rounding p (max excess 0) placed
  let value ← negate t negative r.value
  return ⟨⟨⟨value⟩, r.status⟩, placed.unscaled⟩

def readFitting (t : Storage) (ty : DecimalType) (rounding : Rounding) (s : Bytes) :
    Except Fault Run := do
  let (negative, body) := splitSign (trim s)
  let (p, rest) ← Progress.scan t ty rounding body
  let e := readExponent rest
  if e.status = .success then finish t ty rounding negative p e.value
  else return ⟨⟨⟨0⟩, exponentStatus e⟩, false⟩

def read (t : Storage) (precision scale : Nat) (rounding : Rounding) (s : Bytes) :
    Except Fault Run :=
  match DecimalType.of precision scale with
  | .ok ty =>
      if ty.fits t then readFitting t ty rounding s else .ok ⟨⟨⟨0⟩, .failure⟩, false⟩
  | .error _ => .ok ⟨⟨⟨0⟩, .failure⟩, false⟩

end SqlCast.Decimal.Checked
