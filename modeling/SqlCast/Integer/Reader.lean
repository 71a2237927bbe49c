import SqlCast.Integer.Accumulation
import SqlCast.Status
import SqlCast.Text.Token

namespace SqlCast.Integer

open Text

def readShort (w : Width) (negative : Bool) (body : Bytes) : Outcome w.Value :=
  let run := body.takeWhile isDigit
  if run.isEmpty || !allBlank (body.dropWhile isDigit) then ⟨0, .failure⟩
  else ⟨w.ofMagnitude (valueOf 10 run) negative, .success⟩

def readChecked (w : Width) (negative : Bool) (body : Bytes) : Outcome w.Value :=
  let run := body.takeWhile isDigit
  match accumulate? (w.limit negative) 10 (run.map digitValue) with
  | none => ⟨w.bound negative, .overflow⟩
  | some n =>
      if run.isEmpty || !allBlank (body.dropWhile isDigit) then ⟨0, .failure⟩
      else ⟨w.ofMagnitude n negative, .success⟩

def readUnpadded (w : Width) (s : Bytes) : Outcome w.Value :=
  let (negative, body) := splitSign s
  if body.length < w.maxDigits then readShort w negative body else readChecked w negative body

def read (w : Width) (s : Bytes) : Outcome w.Value := Outcome.retrying (readUnpadded w) s

end SqlCast.Integer
