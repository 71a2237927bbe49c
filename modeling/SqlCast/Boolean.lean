import SqlCast.Status
import SqlCast.Text.Token

namespace SqlCast.Boolean

open Text

def trueToken : Bytes := token ['t', 'r', 'u', 'e']
def falseToken : Bytes := token ['f', 'a', 'l', 's', 'e']

def readUnpadded (s : Bytes) : Outcome Bool :=
  if isToken trueToken s then ⟨true, .success⟩
  else if isToken falseToken s then ⟨false, .success⟩
  else ⟨false, .failure⟩

def read (s : Bytes) : Outcome Bool := Outcome.retrying readUnpadded s

end SqlCast.Boolean
