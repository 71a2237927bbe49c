import SqlCast.Decimal.Basic
import SqlCast.Status

namespace SqlCast.Json

open Text

def encodeDecimal (x : Decimal) : List Char := intChars x.unscaled

def encodeStatus (r : Status) : List Char := '"' :: r.name.toList ++ ['"']

def encodePair (x : Decimal) (r : Status) : List Char :=
  '[' :: encodeDecimal x ++ ',' :: encodeStatus r ++ [']']

end SqlCast.Json
