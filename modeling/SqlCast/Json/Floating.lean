import SqlCast.Binary.Shortest
import SqlCast.Text.Digit

/-! How a floating point number is written: its shortest digits, positional between `1e-5` and
`1e16`. -/

namespace SqlCast.Json

open Text

def exponentChars (e : Int) : List Char :=
  'e' :: (if e < 0 then '-' else '+') :: natChars e.natAbs

def shortestChars (x : Binary.Shortest) : List Char :=
  let ds := natChars x.digits
  let point := ds.length + x.exponent
  if 0 ≤ x.exponent ∧ point ≤ 16 then ds ++ List.replicate x.exponent.toNat '0' ++ ['.', '0']
  else if 0 < point ∧ point ≤ 16 then ds.take point.toNat ++ '.' :: ds.drop point.toNat
  else if -5 < point ∧ point ≤ 0 then
    '0' :: '.' :: List.replicate (-point).toNat '0' ++ ds
  else
    let fraction := if ds.length = 1 then [] else '.' :: ds.drop 1
    ds.take 1 ++ fraction ++ exponentChars (point - 1)

def floatingChars {f : Binary.Format} : Binary f → List Char
  | .nan => ['N', 'a', 'N']
  | .infinity s => (if s then ['-'] else []) ++ ['i', 'n', 'f']
  | .finite s m =>
      (if s then ['-'] else []) ++
        if m.quanta = 0 then ['0', '.', '0'] else shortestChars (.ofQuanta f m.quanta)

end SqlCast.Json
