import SqlCast.Text.Digit
import SqlCast.Text.Hidden

namespace SqlCast.Text

def codeChars (c : Char) : List Char :=
  ['\\', 'u', '\x7b'] ++ (digitsOf 16 c.toNat).map digitChar ++ ['\x7d']

def escapeChar (c : Char) : List Char :=
  if c = '"' ∨ c = '\\' then ['\\', c]
  else if c = '\n' then ['\\', 'n']
  else if c = '\r' then ['\\', 'r']
  else if c = '\t' then ['\\', 't']
  else if c = '\x00' then ['\\', '0']
  else if isHidden c then codeChars c
  else [c]

def escape (s : List Char) : List Char := s.flatMap escapeChar

end SqlCast.Text
