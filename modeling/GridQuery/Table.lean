import GridQuery.Table.Schema

/-!
Tables: titled columns over rows of cells, with a schema for the names of columns and, on request,
indexes for equality on a column. Every row has a cell for each title.
-/

namespace GridQuery
set_option autoImplicit false

/-- Letters of a column counted from zero: `A` to `Z`, then `AA` and on. -/
def columnLetters (n : Nat) : List Char :=
  if n < 26 then [Char.ofNat (65 + n)]
  else columnLetters (n / 26 - 1) ++ [Char.ofNat (65 + n % 26)]

def columnLetter (n : Nat) : String :=
  String.ofList (columnLetters n)

/-- The rows of a column by the text of their cells, in row order; null cells are left out. -/
abbrev Index := List (String × Nat)

structure Table where
  name : String
  alias? : Option String
  titles : List String
  rows : List Row
  schema : Schema
  indexes : List (Nat × Index)

/-- Fills up with nulls, or cuts off, to a width. -/
def fitRow (width : Nat) (row : Row) : Row :=
  (row ++ List.replicate (width - row.length) Cell.null).take width

namespace Table

def withSchema (name : String) (titles : List String) (rows : List Row) (schema : Schema) : Table :=
  ⟨name, none, titles, rows.map (fitRow titles.length), schema, []⟩

def ofParts (name : String) (titles : List String) (rows : List Row) : Except QueryError Table :=
  (Schema.ofTitles name none titles).map (withSchema name titles rows)

/-- A table whose first row holds the titles. -/
def ofRows (name : String) (rows : List Row) : Except QueryError Table :=
  match rows with
  | [] => ofParts name [] []
  | titles :: rows => ofParts name (titles.map Cell.key) rows

/-- A table of data alone; the titles are the letters of the columns. -/
def untitled (name : String) (rows : List Row) : Except QueryError Table :=
  let width := (rows.map List.length).foldl max 0
  ofParts name ((List.range width).map columnLetter) rows

def derived (name : String) (titles : List String) (rows : List Row) : Table :=
  withSchema name titles rows (Schema.lenient name none titles)

def withAlias (t : Table) (alias? : Option String) : Table :=
  { t with alias?, schema := Schema.lenient t.name alias? t.titles }

def reference (t : Table) : String :=
  t.alias?.getD t.name

def width (t : Table) : Nat :=
  t.titles.length

def column? (t : Table) (name : String) : Option Nat :=
  t.schema.column? name

/-- A cell, null outside the table. -/
def cell (t : Table) (row column : Nat) : Cell :=
  ((t.rows[row]?).bind fun r => r[column]?).getD .null

def columnCells (t : Table) (column : Nat) : List Cell :=
  t.rows.map fun row => (row[column]?).getD .null

/-- The index of some cells, the first of them in row `id`. -/
def indexFrom (id : Nat) : List Cell → Index
  | [] => []
  | c :: cs => if c.isNull then indexFrom (id + 1) cs else (c.key, id) :: indexFrom (id + 1) cs

def addIndex (t : Table) (column : Nat) : Table :=
  match t.indexes.lookup column with
  | some _ => t
  | none => { t with indexes := t.indexes ++ [(column, indexFrom 0 (t.columnCells column))] }

/-- The rows that an index has for the text of a cell. -/
def rowsOf (index : Index) (key : String) : List Nat :=
  index.filterMap fun e => if e.1 = key then some e.2 else none

/-- The rows with a cell of the same text in an indexed column; none for null. -/
def search (t : Table) (column : Nat) (value : Cell) : List Nat :=
  if value.isNull then []
  else match t.indexes.lookup column with
    | some index => rowsOf index value.key
    | none => []

/-- Takes the first column of a title out of those left. -/
def takeColumn (title : String) : List (String × Nat) → Option (Nat × List (String × Nat))
  | [] => none
  | e :: r =>
    if e.1 = title then some (e.2, r)
    else (takeColumn title r).map fun p => (p.1, e :: p.2)

/-- For each title the column that holds it in another table, repeated titles in turn. -/
def columnsFor (other : String) (left : List (String × Nat)) :
    List String → Except QueryError (List Nat)
  | [] => .ok []
  | title :: titles =>
    match takeColumn (normalize title) left with
    | some (column, left) => (columnsFor other left titles).map fun cs => column :: cs
    | none => .error (.missingAppendColumn other title)

/-- Appends the rows of another table, its columns in the order of this one's titles. -/
def append (t other : Table) : Except QueryError Table :=
  (columnsFor other.name (other.titles.zipIdx.map fun e => (normalize e.1, e.2)) t.titles).map
    fun columns =>
      { t with
        rows := t.rows ++ other.rows.map fun row => columns.map fun c => (row[c]?).getD .null
        indexes := [] }

end Table

/-- Tables by normalized name, in the order the names came. -/
structure Tables where
  entries : List (String × Table)

namespace Tables

def empty : Tables := ⟨[]⟩

/-- Puts a table in place of one with the same key, or behind all. -/
def put (key : String) (t : Table) : List (String × Table) → List (String × Table)
  | [] => [(key, t)]
  | e :: r => if e.1 = key then (key, t) :: r else e :: put key t r

def insert (ts : Tables) (t : Table) : Tables :=
  ⟨put (normalize t.name) t ts.entries⟩

def ofList (ts : List Table) : Tables :=
  ts.foldl insert empty

def get? (ts : Tables) (name : String) : Option Table :=
  ts.entries.lookup (normalize name)

def require (ts : Tables) (name : String) : Except QueryError Table :=
  match ts.get? name with
  | some t => .ok t
  | none => .error (.unknownTable name)

def size (ts : Tables) : Nat :=
  ts.entries.length

end Tables

end GridQuery
