import SqlCast.Floating.Reader

/-! The digits of a floating point literal one byte at a time. The significant ones are counted in a
word of 32 bits without a sign, the digits taken from the fraction make a whole number in a word of 64
bits with one. An operation whose result lies outside of its word is a fault. -/

namespace SqlCast.Floating.Checked

open Text Plain

inductive Fault
  | counterOverflow
  | remainderOverflow
  deriving DecidableEq, Repr

def counterLimit : Nat := Nat.pow 2 32

def counter (n : Nat) : Except Fault Nat :=
  if n < counterLimit then .ok n else .error .counterOverflow

def remainderLimit : Nat := Nat.pow 2 63

def remainder (n : Nat) : Except Fault Nat :=
  if n < remainderLimit then .ok n else .error .remainderOverflow

def count (n d : Nat) : Except Fault Nat := if d = 0 ∧ n = 0 then .ok n else counter (n + 1)

def pushWhole (a : Accumulator) (d : Nat) : Except Fault Accumulator := do
  let significant ← count a.significant d
  return { a with
    significant
    whole := a.whole * .ofNat .double 10 + .ofNat .double d }

def pushFraction (a : Accumulator) (d : Nat) : Except Fault Accumulator := do
  let significant ← count a.significant d
  if significant ≤ maxSignificant then
    let shifted ← remainder (a.remainder * 10)
    let sum ← remainder (shifted + d)
    return { a with
      significant
      remainder := sum
      divisor := a.divisor * .ofNat .double 10 }
  else return { a with significant }

structure Progress where
  accumulator : Accumulator
  dotted : Bool
  deriving DecidableEq

structure Run where
  before : List Progress
  final : Progress
  rest : Bytes
  deriving DecidableEq

namespace Run

def states (r : Run) : List Progress := r.before ++ [r.final]

def holding (p : Progress) (r : Run) : Run := { r with before := p :: r.before }

end Run

namespace Progress

def start : Progress := ⟨.start, false⟩

def takeDigit (p : Progress) (d : Nat) : Except Fault Progress := do
  let a ← if p.dotted then pushFraction p.accumulator d else pushWhole p.accumulator d
  return { p with accumulator := a }

def scan (p : Progress) : Bytes → Except Fault Run
  | [] => .ok ⟨[], p, []⟩
  | c :: s =>
      if isDigit c then Run.holding p <$> do
        let q ← p.takeDigit (digitValue c)
        q.scan s
      else if c = 46 ∧ p.dotted = false then Run.holding p <$> scan { p with dotted := true } s
      else .ok ⟨[], p, c :: s⟩

end Progress

variable (f : Binary.Format)

def magnitude? (s : Bytes) : Except Fault (Option (Binary f)) := do
  let run ← Progress.start.scan s
  if startsExponent run.rest then
    return (Scientific.read? f s).bind fun (x, rest) => if allBlank rest then some x else none
  else if !run.before.isEmpty && allBlank run.rest then
    return some (run.final.accumulator.value.convert f)
  else return none

def readUnpadded (s : Bytes) : Except Fault (Outcome (Binary f)) := do
  let (negative, body) := splitSign s
  if isInfinityWord body then return ⟨.infinity negative, .success⟩
  else if isNanWord body then return ⟨.nan, .success⟩
  else
    match ← magnitude? f body with
    | none => return ⟨.zero, .failure⟩
    | some x => return ⟨signed negative x, if x.isInfinite then .overflow else .success⟩

def read (s : Bytes) : Except Fault (Outcome (Binary f)) := do
  let first ← readUnpadded f s
  if first.status = .success ∨ leadingBlanks s = 0 then return first
  else readUnpadded f (s.drop (leadingBlanks s))

end SqlCast.Floating.Checked
