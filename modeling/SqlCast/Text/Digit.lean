import SqlCast.Text.Blank

namespace SqlCast.Text

/-- Letters of either case are the digits 10 to 35; a byte that is no digit in any base has value
36. -/
def digitValue (c : UInt8) : Nat :=
  if 48 ≤ c && c ≤ 57 then c.toNat - 48
  else if 97 ≤ c && c ≤ 122 then c.toNat - 87
  else if 65 ≤ c && c ≤ 90 then c.toNat - 55
  else 36

def isDigitOf (base : Nat) (c : UInt8) : Bool := digitValue c < base

def isDigit (c : UInt8) : Bool := isDigitOf 10 c

def isAlphanumeric (c : UInt8) : Bool := isDigitOf 36 c

def ofDigits (base : Nat) (ds : List Nat) : Nat := ds.foldl (fun n d => n * base + d) 0

def valueOf (base : Nat) (run : Bytes) : Nat := ofDigits base (run.map digitValue)

def digitsOf (base n : Nat) : List Nat :=
  if _h : n < base ∨ base < 2 then [n] else digitsOf base (n / base) ++ [n % base]
termination_by n
decreasing_by exact Nat.div_lt_self (by omega) (by omega)

def digitByte (d : Nat) : UInt8 := if d < 10 then (d + 48).toUInt8 else (d + 87).toUInt8

def digitChar (d : Nat) : Char := Char.ofNat (if d < 10 then d + 48 else d + 87)

def natBytes (n : Nat) : Bytes := (digitsOf 10 n).map digitByte

def natChars (n : Nat) : List Char := (digitsOf 10 n).map digitChar

def intChars (n : Int) : List Char := if n < 0 then '-' :: natChars n.natAbs else natChars n.natAbs

@[simp] theorem ofDigits_nil (base : Nat) : ofDigits base [] = 0 := rfl

@[simp] theorem ofDigits_append_singleton (base : Nat) (ds : List Nat) (d : Nat) :
    ofDigits base (ds ++ [d]) = ofDigits base ds * base + d := by
  simp [ofDigits, List.foldl_append]

theorem ofDigits_digitsOf (base n : Nat) : ofDigits base (digitsOf base n) = n := by
  fun_induction digitsOf base n with
  | case1 n h => simp [ofDigits]
  | case2 n h ih => rw [ofDigits_append_singleton, ih, Nat.div_add_mod']

end SqlCast.Text
