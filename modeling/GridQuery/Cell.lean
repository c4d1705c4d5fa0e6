import GridQuery.Number.Numeral
import GridQuery.Calendar.Pattern

/-!
One cell of a grid, its text, and its readings as a number or a moment. Comparison is loose: the
empty text is null, numeric text compares as a number, and anything that reads as a moment compares
with a moment in time. Sorting is by class first and by value within a class.
-/

namespace GridQuery
set_option autoImplicit false

inductive Cell where
  | null
  | boolean (value : Bool)
  | number (value : Float)
  | date (value : Calendar.Moment)
  | text (value : String)
deriving DecidableEq, Inhabited

abbrev Row := List Cell

/-- A whole number below `10 ^ 15` has no point, and zero no sign. -/
def numberText (x : Float) : String :=
  match Number.parts x with
  | .finite negative m e =>
    if Number.isWhole m e && decide (Number.wholePart m e < Number.tenPow 15) then
      let n := Int.ofNat (Number.wholePart m e)
      String.ofList (Number.intDigits (if negative then -n else n))
    else Number.plain x
  | _ => Number.plain x

namespace Cell

/-- The text of a cell, which also keys indexes, groups and sets of rows. -/
def key : Cell → String
  | null => ""
  | boolean b => if b then "true" else "false"
  | number x => numberText x
  | date m => m.text
  | text s => s

/-- Midnight of a day, null where there is no such day. -/
def ofDay (year : Int) (month day : Nat) : Cell :=
  match Calendar.Day.of? year month day with
  | some d => date (.midnight d)
  | none => null

/-- The typed cell of free text; what reads as nothing else stays text, blanks included. -/
def infer (s : String) : Cell :=
  let trimmed := Text.trim s
  if trimmed = "" then null
  else if Text.eqIgnoringAsciiCase trimmed "true" then boolean true
  else if Text.eqIgnoringAsciiCase trimmed "false" then boolean false
  else match Number.ofText? trimmed with
    | some x => number x
    | none =>
      match Calendar.ofText? trimmed with
      | some m => date m
      | none => text s

def isNull : Cell → Bool
  | null => true
  | text s => s = ""
  | _ => false

def isDate : Cell → Bool
  | date _ => true
  | _ => false

def asNumber? : Cell → Option Float
  | number x => some x
  | text s => Number.ofText? (Text.trim s)
  | _ => none

def asMoment? : Cell → Option Calendar.Moment
  | date m => some m
  | text s => Calendar.ofText? (Text.trim s)
  | _ => none

def asText? : Cell → Option String
  | text s => some s
  | _ => none

/-- Milliseconds that a cell stands for beside a date; a number stands for itself. -/
def epoch? : Cell → Option Float
  | number x => some x
  | c => c.asMoment?.map fun m => Float.ofInt m.epochMillis

/-- How two cells that are not null are compared. -/
inductive Pairing where
  | numeric (x y : Float)
  | textual (s t : String)

def numericPairing (a b : Cell) : Pairing :=
  match a.asNumber?, b.asNumber? with
  | some x, some y => .numeric x y
  | _, _ => .textual a.key b.key

/-- By time where one is a date and both have a time, else by number, else by text. -/
def pairing (a b : Cell) : Pairing :=
  if a.isDate || b.isDate then
    match a.epoch?, b.epoch? with
    | some x, some y => .numeric x y
    | _, _ => numericPairing a b
  else numericPairing a b

/-- The equality of `=`, `IN` and `IS`; null equals null alone. -/
def looseEq (a b : Cell) : Bool :=
  if a.isNull || b.isNull then a.isNull && b.isNull
  else match pairing a b with
    | .numeric x y => Number.equal x y
    | .textual s t => s == t

/-- The order of `<` and `>`; none where a side is null or not a number. -/
def order? (a b : Cell) : Option Ordering :=
  if a.isNull || b.isNull then none
  else match pairing a b with
    | .numeric x y => Number.order? x y
    | .textual s t => some (compare s t)

/-- A cell reduced to its sorting class and what is compared within the class. -/
inductive SortKey where
  | null
  | boolean (value : Bool)
  | number (rank : Int)
  | date (stamp : Int)
  | text (value : String)

namespace SortKey

def rank : SortKey → Nat
  | null => 0
  | boolean _ => 1
  | number _ => 2
  | date _ => 3
  | text _ => 4

def order : SortKey → SortKey → Ordering
  | boolean a, boolean b => compare a.toNat b.toNat
  | number a, number b => compare a b
  | date a, date b => compare a b
  | text a, text b => compare a b
  | a, b => compare a.rank b.rank

end SortKey

def sortKey : Cell → SortKey
  | null => .null
  | boolean b => .boolean b
  | number x => .number (Number.totalRank x)
  | date m => .date m.stamp
  | text s =>
    if s = "" then .null
    else match (text s).asNumber?, (text s).asMoment? with
      | some x, _ => .number (Number.totalRank x)
      | none, some m => .date m.stamp
      | none, none => .text s

/-- The total order of sorting and grouping. -/
def sortOrder (a b : Cell) : Ordering :=
  a.sortKey.order b.sortKey

end Cell

/-- The texts of a row's cells, joined: rows with the same one count as the same row. -/
def Row.signature (row : Row) : String :=
  "::".intercalate (row.map Cell.key)

/-- Keeps the first of the items with each text, leaving out the texts in `seen`. -/
def keepFirst {α : Type} (text : α → String) (seen : List String) : List α → List α
  | [] => []
  | a :: as =>
    if text a ∈ seen then keepFirst text seen as else a :: keepFirst text (text a :: seen) as

end GridQuery
