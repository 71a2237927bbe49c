import SqlCast.Integer.Accumulation
import SqlCast.Status
import SqlCast.Text.Token

namespace SqlCast.Integer.Radix

open Text

def isBase (base : Nat) : Bool := 2 ≤ base && base ≤ 36

/-- A letter or digit that the base lacks ends the number, and what follows it is ignored. -/
def mayFollow : Bytes → Bool
  | [] => true
  | c :: s => isAlphanumeric c || allBlank (c :: s)

def readUnpadded (w : Width) (base : Nat) (s : Bytes) : Outcome w.Value :=
  if !isBase base then ⟨0, .failure⟩
  else
    let (negative, body) := splitSign s
    let run := body.takeWhile (isDigitOf base)
    match accumulate? (w.limit negative) base (run.map digitValue) with
    | none => ⟨w.bound negative, .overflow⟩
    | some n =>
        if run.isEmpty || !mayFollow (body.dropWhile (isDigitOf base)) then ⟨0, .failure⟩
        else ⟨w.ofMagnitude n negative, .success⟩

def read (w : Width) (base : Nat) (s : Bytes) : Outcome w.Value :=
  Outcome.retrying (readUnpadded w base) s

end SqlCast.Integer.Radix
