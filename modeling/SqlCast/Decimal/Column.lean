import SqlCast.Decimal.Reader

namespace SqlCast.Decimal

structure Extent where
  least : Option Decimal
  greatest : Option Decimal
  deriving DecidableEq, Repr

namespace Extent

def empty : Extent := ⟨none, none⟩

def insert (e : Extent) (x : Decimal) : Extent :=
  ⟨some (e.least.elim x (·.least x)), some (e.greatest.elim x (·.greatest x))⟩

def observe (e : Extent) (cell : Outcome Decimal) : Extent :=
  if cell.status = .failure then e else e.insert cell.value

end Extent

structure ColumnStep where
  cell : Outcome Decimal
  extent : Extent
  deriving DecidableEq, Repr

def columnFrom (read : Bytes → Outcome Decimal) (e : Extent) : List Bytes → List ColumnStep
  | [] => []
  | s :: cells =>
      let cell := read s
      ⟨cell, e.observe cell⟩ :: columnFrom read (e.observe cell) cells

def column (t : Storage) (ty : DecimalType) (rounding : Rounding) (cells : List Bytes) :
    List ColumnStep :=
  columnFrom (ty.read t rounding) .empty cells

end SqlCast.Decimal
