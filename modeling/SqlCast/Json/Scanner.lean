import SqlCast.Json.Number
import SqlCast.Json.Quoted

namespace SqlCast.Json

abbrev Decoded := Except DecodeError

def isSpace (c : Char) : Bool := c == ' ' || c == '\n' || c == '\t' || c == '\r'

def dropSpace (s : List Char) : List Char := s.dropWhile isSpace

def orMalformed {α : Type} : Option α → Decoded α
  | some a => .ok a
  | none => .error .malformed

def dropName? : (name s : List Char) → Option (List Char)
  | [], s => some s
  | _ :: _, [] => none
  | t :: name, c :: s => if c = t then dropName? name s else none

def scanNumber (negative : Bool) (s : List Char) : Option (Found × List Char) := do
  let (t, s) ← NumberToken.scan negative s
  let v ← t.value?
  return (v, s)

def find? : List Char → Option (Found × List Char)
  | [] => none
  | 'n' :: s => (dropName? ['u', 'l', 'l'] s).map (.null, ·)
  | 't' :: s => (dropName? ['r', 'u', 'e'] s).map (.boolean true, ·)
  | 'f' :: s => (dropName? ['a', 'l', 's', 'e'] s).map (.boolean false, ·)
  | '"' :: s => (unquote s).map fun (cs, rest) => (.string cs, rest)
  | '[' :: s => some (.sequence, s)
  | '\x7b' :: s => some (.map, s)
  | '-' :: s => scanNumber true s
  | c :: s => scanNumber false (c :: s)

def scanFound (s : List Char) : Decoded (Found × List Char) := orMalformed (find? (dropSpace s))

end SqlCast.Json
