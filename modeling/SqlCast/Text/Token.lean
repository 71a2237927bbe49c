import SqlCast.Text.Blank

namespace SqlCast.Text

def lowercase (c : UInt8) : UInt8 := if 65 ≤ c && c ≤ 90 then c + 32 else c

def token (word : List Char) : Bytes := word.map Char.toUInt8

def dropToken? : (word s : Bytes) → Option Bytes
  | [], s => some s
  | _ :: _, [] => none
  | t :: word, c :: s => if lowercase c = t then dropToken? word s else none

def isToken (word s : Bytes) : Bool := (dropToken? word s).any allBlank

def splitSign : Bytes → Bool × Bytes
  | 45 :: s => (true, s)
  | 43 :: s => (false, s)
  | s => (false, s)

end SqlCast.Text
