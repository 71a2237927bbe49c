import SqlCast.Decimal.Storage
import SqlCast.Json.Floating
import SqlCast.Status
import SqlCast.Text.Escaped

/-! Why a text does not decode: it is no JSON as far as it is read, or the value is not the wanted
one. -/

namespace SqlCast.Json

open Text Decimal

inductive Found
  | null
  | boolean (b : Bool)
  | integer (n : Int)
  | floating (x : Binary .double)
  | string (s : List Char)
  | sequence
  | map
  deriving DecidableEq

inductive Wanted
  | stored (t : Storage)
  | status
  | pair
  deriving DecidableEq, Repr

inductive DecodeError
  | malformed
  | wrongKind (found : Found) (wanted : Wanted)
  | outOfRange (n : Int) (t : Storage)
  | unknownStatus (name : List Char)
  | tooShort (length : Nat)
  deriving DecidableEq

def quoted (s : String) : String := "`" ++ s ++ "`"

def Found.describe : Found → String
  | null => "null"
  | boolean b => "boolean " ++ quoted (toString b)
  | integer n => "integer " ++ quoted (String.ofList (intChars n))
  | floating x => "floating point " ++ quoted (String.ofList (floatingChars x))
  | string s => "string \"" ++ String.ofList (escape s) ++ "\""
  | sequence => "sequence"
  | map => "map"

def Wanted.describe : Wanted → String
  | stored t => t.name
  | status => "one of " ++ String.intercalate ", " (Status.all.map Status.name)
  | pair => "a tuple of size 2"

def DecodeError.message? : DecodeError → Option String
  | malformed => none
  | wrongKind found wanted =>
      some ("invalid type: " ++ found.describe ++ ", expected " ++ wanted.describe)
  | outOfRange n t =>
      some ("invalid value: " ++ (Found.integer n).describe ++ ", expected " ++ t.name)
  | unknownStatus name =>
      some ("unknown variant " ++ quoted (String.ofList name) ++ ", expected one of " ++
        String.intercalate ", " (Status.all.map fun s => quoted s.name))
  | tooShort n =>
      some ("invalid length " ++ toString n ++ ", expected " ++ Wanted.pair.describe)

end SqlCast.Json
