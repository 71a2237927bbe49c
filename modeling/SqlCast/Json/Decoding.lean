import SqlCast.Decimal.Basic
import SqlCast.Json.Scanner

namespace SqlCast.Json

open Decimal

def scanWide (t : Storage) (s : List Char) : Decoded (Decimal × List Char) := do
  let s := dropSpace s
  let (negative, body) := match s with
    | '-' :: s => (true, s)
    | s => (false, s)
  let (ds, rest) ← orMalformed (NumberToken.scanWhole body)
  let n : Int := Text.ofDigits 10 ds
  let n := if negative then -n else n
  if t.contains n then return (⟨n⟩, rest) else throw .malformed

def scanNarrow (t : Storage) (s : List Char) : Decoded (Decimal × List Char) := do
  let (v, rest) ← scanFound s
  match v with
  | .integer n => if t.contains n then return (⟨n⟩, rest) else throw (.outOfRange n t)
  | v => throw (.wrongKind v (.stored t))

def scanDecimal (t : Storage) (s : List Char) : Decoded (Decimal × List Char) :=
  match t with
  | .word128 => scanWide t s
  | t => scanNarrow t s

def statusOfName? (name : List Char) : Option Status :=
  Status.all.find? fun s => s.name.toList == name

def scanStatus (s : List Char) : Decoded (Status × List Char) := do
  let (v, rest) ← scanFound s
  match v with
  | .string name =>
      match statusOfName? name with
      | some r => return (r, rest)
      | none => throw (.unknownStatus name)
  | v => throw (.wrongKind v .status)

def nextElement (n : Nat) (s : List Char) : Decoded (List Char) :=
  match dropSpace s with
  | ']' :: _ => .error (.tooShort n)
  | ',' :: s => if n = 0 then .error .malformed else
      match dropSpace s with
      | ']' :: _ => .error .malformed
      | s => .ok s
  | s => if n = 0 then .ok s else .error .malformed

def closeSequence (s : List Char) : Decoded (List Char) :=
  match dropSpace s with
  | ']' :: s => .ok s
  | _ => .error .malformed

def scanPair (t : Storage) (s : List Char) : Decoded ((Decimal × Status) × List Char) := do
  let (v, s) ← scanFound s
  match v with
  | .sequence =>
      let s ← nextElement 0 s
      let (x, s) ← scanDecimal t s
      let s ← nextElement 1 s
      let (r, s) ← scanStatus s
      let s ← closeSequence s
      return ((x, r), s)
  | v => throw (.wrongKind v .pair)

def decodeWhole {α : Type} (scan : List Char → Decoded (α × List Char)) (s : List Char) :
    Decoded α := do
  let (a, rest) ← scan s
  if (dropSpace rest).isEmpty then return a else throw .malformed

def decodeDecimal (t : Storage) (s : List Char) : Decoded Decimal :=
  decodeWhole (scanDecimal t) s

def decodeStatus (s : List Char) : Decoded Status := decodeWhole scanStatus s

def decodePair (t : Storage) (s : List Char) : Decoded (Decimal × Status) :=
  decodeWhole (scanPair t) s

end SqlCast.Json
