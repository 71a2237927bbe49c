import SqlCast.Floating.Plain
import SqlCast.Floating.Scientific
import SqlCast.Status

namespace SqlCast.Floating

open Text

def isInfinityWord (s : Bytes) : Bool :=
  isToken Scientific.infToken s || isToken Scientific.infinityToken s

def isNanWord (s : Bytes) : Bool := isToken Scientific.nanToken s

def startsExponent : Bytes → Bool
  | [] => false
  | c :: _ => isMarker c

def magnitude? (f : Binary.Format) (s : Bytes) : Option (Binary f) :=
  let (m, rest) := Mantissa.scan s
  if startsExponent rest then
    (Scientific.read? f s).bind fun (x, rest) => if allBlank rest then some x else none
  else if (m.hasDigit || m.dotted) && allBlank rest then some (Plain.value f m)
  else none

def signed {f : Binary.Format} (negative : Bool) (x : Binary f) : Binary f :=
  if negative then -x else x

def readUnpadded (f : Binary.Format) (s : Bytes) : Outcome (Binary f) :=
  let (negative, body) := splitSign s
  if isInfinityWord body then ⟨.infinity negative, .success⟩
  else if isNanWord body then ⟨.nan, .success⟩
  else
    match magnitude? f body with
    | none => ⟨.zero, .failure⟩
    | some x => ⟨signed negative x, if x.isInfinite then .overflow else .success⟩

def read (f : Binary.Format) (s : Bytes) : Outcome (Binary f) :=
  Outcome.retrying (readUnpadded f) s

end SqlCast.Floating
