import SqlCast.Binary.Basic

namespace SqlCast.Binary

variable {f : Format}

def magnitudeBits (f : Format) (n : Nat) : Nat :=
  let e := excessBits f n
  e * Nat.pow 2 (f.precision - 1) + n / Nat.pow 2 e

def signBit (f : Format) (negative : Bool) : Nat := if negative then Nat.pow 2 (f.width - 1) else 0

def bits? : Binary f → Option Nat
  | nan => none
  | infinity s => some (signBit f s + magnitudeBits f f.ceiling)
  | finite s m => some (signBit f s + magnitudeBits f m.quanta)

def ofBits (f : Format) (bits : Nat) : Binary f :=
  let negative := bits / Nat.pow 2 (f.width - 1) % 2 == 1
  let magnitude := bits % Nat.pow 2 (f.width - 1)
  let exponent := magnitude / Nat.pow 2 (f.precision - 1)
  let fraction := magnitude % Nat.pow 2 (f.precision - 1)
  if exponent = 0 then ofRatio f negative fraction 1
  else if exponent = 2 * f.maxExponent + 1 then
    if fraction = 0 then infinity negative else nan
  else ofRatio f negative ((Nat.pow 2 (f.precision - 1) + fraction) * Nat.pow 2 (exponent - 1)) 1

end SqlCast.Binary
