import SqlCast.Decimal.Basic
import SqlCast.Decimal.Fitting
import SqlCast.Integer.Reader

namespace SqlCast.Decimal

open Text

def readExponent : Bytes → Outcome Int
  | [] => ⟨0, .success⟩
  | c :: s =>
      if isMarker c then
        let e := Integer.readUnpadded .int8 s
        ⟨e.value.toInt, e.status⟩
      else ⟨0, .failure⟩

def exponentStatus (e : Outcome Int) : Status :=
  if e.status = .overflow ∧ e.value < 0 then .underflow else e.status

def signed (negative : Bool) (magnitude : Nat) : Decimal :=
  ⟨if negative then -magnitude else magnitude⟩

def readFitting (t : Storage) (ty : DecimalType) (rounding : Rounding) (s : Bytes) :
    Outcome Decimal :=
  let (negative, body) := splitSign (trim s)
  let (m, rest) := Mantissa.scan body
  let e := readExponent rest
  if e.status = .success then
    let r := fit t ty rounding m e.value
    ⟨signed negative r.value, r.status⟩
  else ⟨⟨0⟩, exponentStatus e⟩

end SqlCast.Decimal

namespace SqlCast

def DecimalType.read (ty : DecimalType) (t : Decimal.Storage) (rounding : Decimal.Rounding)
    (s : Bytes) : Outcome Decimal :=
  if ty.fits t then Decimal.readFitting t ty rounding s else ⟨⟨0⟩, .failure⟩

def Decimal.read (t : Decimal.Storage) (precision scale : Nat) (rounding : Decimal.Rounding)
    (s : Bytes) : Outcome Decimal :=
  match DecimalType.of precision scale with
  | .ok ty => ty.read t rounding s
  | .error _ => ⟨⟨0⟩, .failure⟩

end SqlCast
