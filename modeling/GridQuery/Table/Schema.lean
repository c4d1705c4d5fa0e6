import GridQuery.Error

/-!
Names of columns. A schema maps every spelling of a column to its position; the spellings stand in
the order they were added, and the first column to take a spelling keeps it.
-/

namespace GridQuery
set_option autoImplicit false

/-- A name in capitals, without outer blanks, and with one underscore for each run of blanks. -/
def normalize (name : String) : String :=
  Text.toUpper (String.ofList (['_'].intercalate (Text.words name.toList)))

structure Schema where
  spellings : List (String × Nat)
deriving DecidableEq, Repr

namespace Schema

def empty : Schema := ⟨[]⟩

def find? (s : Schema) (spelling : String) : Option Nat :=
  s.spellings.lookup spelling

def column? (s : Schema) (name : String) : Option Nat :=
  s.find? (normalize name)

def contains (s : Schema) (name : String) : Bool :=
  (s.column? name).isSome

/-- Adds a spelling, unless it is empty or taken. -/
def insert (s : Schema) (spelling : String) (column : Nat) : Schema :=
  if spelling = "" ∨ (s.find? spelling).isSome then s else ⟨s.spellings ++ [(spelling, column)]⟩

/-- Adds a normalized title alone, behind the table's name, and behind its alias. -/
def addSpellings (s : Schema) (table : String) (alias? : Option String) (title : String)
    (column : Nat) : Schema :=
  let s := s.insert title column
  let s := if table = "" then s else s.insert (normalize table ++ "." ++ title) column
  match alias? with
  | some a => s.insert (normalize a ++ "." ++ title) column
  | none => s

/-- Adds the titles of a table from a position on; each has to be there and to be new. -/
def addTitles (table : String) (alias? : Option String) (s : Schema) (column : Nat) :
    List String → Except QueryError Schema
  | [] => .ok s
  | title :: r =>
    if normalize title = "" then .error (.emptyTitle (column + 1) table)
    else if (s.find? (normalize title)).isSome then .error (.duplicateColumn title table)
    else addTitles table alias? (s.addSpellings table alias? (normalize title) column) (column + 1) r

def ofTitles (table : String) (alias? : Option String) (titles : List String) :
    Except QueryError Schema :=
  addTitles table alias? empty 0 titles

/-- What follows the last point of a normalized title, where that is a plain word. -/
def lastSegment? (title : String) : Option String :=
  let cs := title.toList
  if cs.contains '.' then
    let segment := (cs.reverse.takeWhile fun c => c != '.').reverse
    if segment.all fun c => Text.isAlphanumeric c || c = '_' then some (String.ofList segment) else none
  else none

/-- The schema of a table made by a query: any titles will do, and one with points is also known by
what follows the last point. -/
def lenient (table : String) (alias? : Option String) (titles : List String) : Schema :=
  let whole := titles.zipIdx.foldl
    (fun s t => s.addSpellings table alias? (normalize t.1) t.2) empty
  titles.zipIdx.foldl (fun s t =>
    match lastSegment? (normalize t.1) with
    | some segment => s.addSpellings table alias? segment t.2
    | none => s) whole

def ofSpellings (spellings : List (String × Nat)) : Schema :=
  spellings.foldl (fun s p => s.insert (normalize p.1) p.2) empty

/-- The schema of two tables side by side, the second one's columns behind `offset` others. -/
def merge (left right : Schema) (offset : Nat) : Schema :=
  right.spellings.foldl (fun s p => s.insert p.1 (p.2 + offset)) left

end Schema

end GridQuery
