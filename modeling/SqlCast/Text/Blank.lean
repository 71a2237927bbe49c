namespace SqlCast

abbrev Bytes := List UInt8

namespace Text

def isBlank (c : UInt8) : Bool := c == 32 || (9 ≤ c && c ≤ 13)

def leadingBlanks (s : Bytes) : Nat := (s.takeWhile isBlank).length

def allBlank (s : Bytes) : Bool := s.all isBlank

def dropBlanks (s : Bytes) : Bytes := s.dropWhile isBlank

def trim (s : Bytes) : Bytes := (dropBlanks (dropBlanks s).reverse).reverse

theorem dropBlanks_eq_drop (s : Bytes) : dropBlanks s = s.drop (leadingBlanks s) := by
  induction s with
  | nil => rfl
  | cons c s ih =>
      by_cases hc : isBlank c
      · simpa [dropBlanks, leadingBlanks, hc] using ih
      · simp [dropBlanks, leadingBlanks, hc]

end Text

end SqlCast
