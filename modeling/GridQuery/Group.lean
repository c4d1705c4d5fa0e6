import GridQuery.Fields

/-!
Grouping. Rows have one cell for each field, in an aggregate field the value of its argument. They
are sorted by the key fields, and each run of equal keys becomes one row: the first of the run, with
its aggregate cells folded over the run.
-/

namespace GridQuery
set_option autoImplicit false

namespace Cell

/-- Empty cells and the text `null` take part in no fold. -/
def takesPart (c : Cell) : Bool :=
  match c with
  | .text s => s ≠ "" && !Text.eqIgnoringAsciiCase s "null"
  | .null => false
  | _ => true

/-- The first cell that no later one replaces; a cell replaces the best so far if it stands to it as
`better` says. -/
def extreme (better : Ordering) (best : Cell) (cells : List Cell) : Cell :=
  cells.foldl (fun best c => if c.sortOrder best = better then c else best) best

end Cell

namespace Aggregator

def sumOf (cells : List Cell) : Float :=
  cells.foldl (fun total c => total + (c.asNumber?.getD 0.0)) 0.0

def meanOf (cells : List Cell) : Cell :=
  let numbers := cells.filterMap Cell.asNumber?
  if numbers.isEmpty then .null
  else .number (numbers.foldl (fun total x => total + x) 0.0 / Float.ofNat numbers.length)

def extremeOf (better : Ordering) : List Cell → Cell
  | [] => .null
  | c :: cs => Cell.extreme better c cs

def fold (a : Aggregator) (cells : List Cell) : Cell :=
  match a with
  | sum => .number (sumOf cells)
  | count => .number (Float.ofNat cells.length)
  | min => extremeOf .lt cells
  | max => extremeOf .gt cells
  | avg => meanOf cells

end Aggregator

def Aggregate.fold (a : Aggregate) (cells : List Cell) : Cell :=
  let taking := cells.filter Cell.takesPart
  a.aggregator.fold (if a.distinct then keepFirst Cell.key [] taking else taking)

def slotCells (run : List Row) (slot : Nat) : List Cell :=
  run.filterMap fun row => row[slot]?

def foldedCell (fields : Fields) (run : List Row) (first : Cell) (slot : Nat) : Cell :=
  match (fields[slot]?).bind Field.aggregate with
  | some a => a.fold (slotCells run slot)
  | none => first

/-- The row that a run becomes; a run without rows gives the folds of nothing. -/
def compress (fields : Fields) (run : List Row) : Row :=
  let first := (run.head?).getD (List.replicate fields.length .null)
  first.zipIdx.map fun c => foldedCell fields run c.1 c.2

def compareSlot (a b : Row) (slot : Nat) : Ordering :=
  match a[slot]?, b[slot]? with
  | some x, some y => x.sortOrder y
  | _, _ => .eq

/-- Compares two rows by their cells in some slots, the first difference deciding. -/
def compareKeys (a b : Row) : List Nat → Ordering
  | [] => .eq
  | k :: ks => (compareSlot a b k).then (compareKeys a b ks)

/-- Cuts rows into runs whose rows have the keys of the first. -/
def runs (keys : List Nat) (rows : List Row) : List (List Row) :=
  match rows with
  | [] => []
  | row :: rest =>
    (row :: rest.takeWhile fun r => compareKeys row r keys = .eq) ::
      runs keys (rest.dropWhile fun r => compareKeys row r keys = .eq)
termination_by rows.length
decreasing_by
  have := (List.dropWhile_suffix (fun r => decide (compareKeys row r keys = .eq)) (l := rest)).length_le
  simp only [List.length_cons]
  omega

def sortByKeys (keys : List Nat) (rows : List Row) : List Row :=
  rows.mergeSort fun a b => compareKeys a b keys != .gt

def groupBy (fields : Fields) (keys : List Nat) (rows : List Row) : List Row :=
  (runs keys (sortByKeys keys rows)).map (compress fields)

def plainSlots (fields : Fields) : List Nat :=
  (fields.zipIdx.filter fun f => !f.1.temporary && !f.1.isAggregate).map Prod.snd

/-- Drops rows whose shown cells have the texts of an earlier row's. -/
def dropRepeats (fields : Fields) (rows : List Row) : List Row :=
  keepFirst (fun row => Row.signature (row.take fields.selectedCount)) [] rows

/-- Groups rows by keys. Without keys, aggregates make one row of all, and a distinct statement
groups by everything it shows. -/
def grouped (fields : Fields) (keys : List Nat) (distinct : Bool) (rows : List Row) : List Row :=
  if keys.isEmpty && fields.hasAggregates then [compress fields rows]
  else if keys.isEmpty && !distinct then rows
  else
    let groups := groupBy fields (if keys.isEmpty then plainSlots fields else keys) rows
    if distinct then dropRepeats fields groups else groups

end GridQuery
