import SqlCast.Text.Blank

namespace SqlCast

inductive Status
  | success
  | failure
  | overflow
  | underflow
  deriving DecidableEq, Repr

namespace Status

instance : Inhabited Status := ⟨success⟩

def isSuccess (s : Status) : Bool := s == success
def isFailure (s : Status) : Bool := s == failure
def isOverflow (s : Status) : Bool := s == overflow
def isUnderflow (s : Status) : Bool := s == underflow

def all : List Status := [success, failure, overflow, underflow]

def name : Status → String
  | success => "success"
  | failure => "failure"
  | overflow => "overflow"
  | underflow => "underflow"

end Status

inductive CastError
  | invalidNumber
  | overflow
  | underflow
  | invalidDecimalType (precision scale : Nat)
  deriving DecidableEq, Repr

def CastError.message : CastError → String
  | invalidNumber => "invalid number"
  | overflow => "number out of range"
  | underflow => "number has too many fractional digits"
  | invalidDecimalType p s => "invalid decimal type (" ++ toString p ++ ", " ++ toString s ++ ")"

def Status.strict {α : Type} (status : Status) (value : α) : Except CastError α :=
  match status with
  | .success => .ok value
  | .failure => .error .invalidNumber
  | .overflow => .error .overflow
  | .underflow => .error .underflow

structure Outcome (α : Type) where
  value : α
  status : Status
  deriving DecidableEq, Repr

namespace Outcome

variable {α : Type}

def strict (o : Outcome α) : Except CastError α := o.status.strict o.value

def retrying (read : Bytes → Outcome α) (s : Bytes) : Outcome α :=
  let first := read s
  if first.status = .success ∨ Text.leadingBlanks s = 0 then first
  else read (s.drop (Text.leadingBlanks s))

end Outcome

end SqlCast
