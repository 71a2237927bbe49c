import SqlCast.Integer.Radix
import SqlCast.Integer.Reader

/-! The reading of an integer one byte at a time, on a word of 64 bits without a sign. An operation whose
result lies outside of the word is a fault. -/

namespace SqlCast.Integer.Checked

open Text

inductive Fault
  | overflow
  | underflow
  deriving DecidableEq, Repr

def wordLimit : Nat := Nat.pow 2 64

def word (n : Nat) : Except Fault Nat := if n < wordLimit then .ok n else .error .overflow

def difference (m n : Nat) : Except Fault Nat := if n ≤ m then .ok (m - n) else .error .underflow

structure Conversion (w : Width) where
  magnitude : Nat
  negative : Bool
  value : w.Value
  deriving DecidableEq

structure Run (w : Width) where
  outcome : Outcome w.Value
  held : List Nat
  conversion : Option (Conversion w)
  deriving DecidableEq

namespace Run

variable {w : Width}

def failed : Run w := ⟨⟨0, .failure⟩, [], none⟩

def converted (status : Status) (negative : Bool) (magnitude : Nat) : Run w :=
  let value := w.ofMagnitude magnitude negative
  ⟨⟨value, status⟩, [], some ⟨magnitude, negative, value⟩⟩

def holding (n : Nat) (r : Run w) : Run w := { r with held := n :: r.held }

end Run

def limit (w : Width) (negative : Bool) : Except Fault Nat :=
  if negative then word (w.maxMagnitude + 1) else .ok w.maxMagnitude

def append (base n d : Nat) : Except Fault Nat := do
  let shifted ← word (n * base)
  word (shifted + d)

def push? (limit base n d : Nat) : Except Fault (Option Nat) := do
  let room ← difference (limit / base) (if d > limit % base then 1 else 0)
  if n > room then return none else some <$> append base n d

section

variable {w : Width} (negative : Bool)

def takeDigit (limit base n d : Nat) (next : Nat → Except Fault (Run w)) : Except Fault (Run w) :=
  Run.holding n <$> do
    match ← push? limit base n d with
    | none => return .converted .overflow negative limit
    | some n => next n

def readShortFrom (n : Nat) : Bytes → Except Fault (Run w)
  | [] => .ok (.converted .success negative n)
  | c :: s =>
      if isDigit c then Run.holding n <$> do
        let n ← append 10 n (digitValue c)
        readShortFrom n s
      else if allBlank (c :: s) then .ok (.converted .success negative n)
      else .ok .failed

def readShort : Bytes → Except Fault (Run w)
  | [] => .ok .failed
  | c :: s => if isDigit c then readShortFrom negative (digitValue c) s else .ok .failed

def readLongFrom (limit : Nat) (found : Bool) (n : Nat) : Bytes → Except Fault (Run w)
  | [] => .ok (.converted .success negative n)
  | c :: s =>
      if isDigit c then
        takeDigit negative limit 10 n (digitValue c) fun n => readLongFrom limit true n s
      else if !found || !allBlank (c :: s) then .ok .failed
      else .ok (.converted .success negative n)

def readLong (body : Bytes) : Except Fault (Run w) := do
  let limit ← limit w negative
  readLongFrom negative limit false 0 body

end

def readUnpadded (w : Width) (shortcut : Bool) (s : Bytes) : Except Fault (Run w) :=
  if s.isEmpty then .ok .failed
  else
    let (negative, body) := splitSign s
    if shortcut && body.length < w.maxDigits then readShort negative body else readLong negative body

namespace Radix

section

variable {w : Width} (negative : Bool)

def finish (found : Bool) (n : Nat) : Except Fault (Run w) :=
  if found then .ok (.converted .success negative n) else .ok .failed

def readFrom (limit base : Nat) (found : Bool) (n : Nat) : Bytes → Except Fault (Run w)
  | [] => finish negative found n
  | c :: s =>
      if isAlphanumeric c then
        if base ≤ digitValue c then finish negative found n
        else takeDigit negative limit base n (digitValue c) fun n => readFrom limit base true n s
      else if !found || !allBlank (c :: s) then .ok .failed
      else finish negative found n

end

def readUnpadded (w : Width) (base : Nat) (s : Bytes) : Except Fault (Run w) :=
  if !Integer.Radix.isBase base || s.isEmpty then .ok .failed
  else do
    let (negative, body) := splitSign s
    let limit ← limit w negative
    readFrom negative limit base false 0 body

end Radix

end SqlCast.Integer.Checked
