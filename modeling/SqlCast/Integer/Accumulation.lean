import SqlCast.Integer.Width
import SqlCast.Text.Digit

namespace SqlCast.Integer

def push? (limit base n d : Nat) : Option Nat :=
  if n > limit / base - (if d > limit % base then 1 else 0) then none else some (n * base + d)

def accumulate? (limit base : Nat) (ds : List Nat) : Option Nat := ds.foldlM (push? limit base) 0

end SqlCast.Integer
