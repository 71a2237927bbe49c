import SqlCast.Boolean
import SqlCast.Floating.Reader
import SqlCast.Integer.Reader

namespace SqlCast

inductive Target
  | integer (w : Integer.Width)
  | floating (f : Binary.Format)
  | boolean
  deriving DecidableEq, Repr

namespace Target

abbrev Value : Target → Type
  | integer w => w.Value
  | floating f => Binary f
  | boolean => Bool

def read : (t : Target) → Bytes → Outcome t.Value
  | integer w, s => Integer.read w s
  | floating f, s => Floating.read f s
  | boolean, s => Boolean.read s

def cast (t : Target) (s : Bytes) : Except CastError t.Value := (t.read s).strict

end Target

end SqlCast
