import GridQuery.Formula.Value

/-!
Joins. A condition of equalities between the two sides, combined with `AND` and `OR`, gives for each
row of the left table the rows of the right one that match it; the kind of join decides what becomes
of rows without a match. The joined table has the columns of the left table and then the right one's.
-/

namespace GridQuery
set_option autoImplicit false

variable {σ : Type}

/-- For each row of the left table the matching rows of the right one, ascending. -/
abbrev Matches := List (List Nat)

def derivedName : String := "DERIVED"

/-- Whether a table knows every column of an expression; constants belong to every table. -/
def Table.knows (t : Table) (e : Expr) : Bool :=
  e.parts.all fun p =>
    match p with
    | .column table name => (t.column? (columnSpelling table name)).isSome
    | _ => true

/-- The column of a table that an expression is, also within brackets. -/
def Table.plainColumn? (t : Table) : Expr → Option Nat
  | .column table name => t.column? (columnSpelling table name)
  | .paren e => t.plainColumn? e
  | _ => none

def sides (left right : Table) (a b : Expr) : Except QueryError (Expr × Expr) :=
  if left.knows a && right.knows b then .ok (a, b)
  else if left.knows b && right.knows a then .ok (b, a)
  else .error (.unattributedJoin a.text b.text left.reference right.reference)

namespace Rows

/-- The values of a formula on all rows from `row` on, `count` of them. -/
def columnValues (r : Rows σ) (f : Formula) (row : Nat) : Nat → Run σ (List Cell)
  | 0 => pure []
  | count + 1 => do
    let x ← r.value row f
    let xs ← r.columnValues f (row + 1) count
    pure (x :: xs)

def column (r : Rows σ) (e : Expr) : Run σ (List Cell) := do
  let f ← Run.of (r.scope.formula e)
  r.columnValues f 0 r.table.rows.length

end Rows

/-- The rows that an index has for the text of a key; none for null. -/
def matchesOf (index : Index) (key : Cell) : List Nat :=
  if key.isNull then [] else Table.rowsOf index key.key

/-- The matches of keys with an operand of the right table, through the index of a plain column where
there is one. -/
def keyMatches (world : World) (runner : Runner σ) (right : Table) (inner : Expr)
    (keys : List Cell) : Run σ Matches :=
  match right.plainColumn? inner with
  | some column => pure (keys.map ((right.addIndex column).search column))
  | none => do
    let values ← Rows.column ⟨world, right, runner⟩ inner
    pure (keys.map (matchesOf (Table.indexFrom 0 values)))

def equalityMatches (world : World) (runner : Runner σ) (left right : Table)
    (a b : Expr) : Run σ Matches := do
  let (outer, inner) ← Run.of (sides left right a b)
  let keys ← Rows.column ⟨world, left, runner⟩ outer
  keyMatches world runner right inner keys

/-- The row numbers of either list, each once, ascending where the lists ascend. -/
def uniteRows (xs ys : List Nat) : List Nat :=
  xs.merge (ys.filter fun y => !xs.contains y) fun x y => decide (x ≤ y)

/-- The rows in both lists, or in either. -/
def connectRows (op : Connective) (xs ys : List Nat) : List Nat :=
  match op with
  | .and => xs.filter fun x => ys.contains x
  | .or => uniteRows xs ys

def combineMatches (op : Connective) (a b : Matches) : Matches :=
  List.zipWith (connectRows op) a b

mutual

def conditionMatches (world : World) (runner : Runner σ) (left right : Table) :
    Condition → Run σ Matches
  | .compare .eq a b => equalityMatches world runner left right a b
  | .compare op a b => throw (.unsupportedJoin (Condition.text (.compare op a b)))
  | .logic op terms => do
    match ← termMatches world runner left right op terms with
    | some ms => pure ms
    | none => pure (left.rows.map fun _ => [])
  | .not c => throw (.unsupportedJoin (Condition.text (.not c)))
  | .exists negated q => throw (.unsupportedJoin (Condition.text (.exists negated q)))

def termMatches (world : World) (runner : Runner σ) (left right : Table)
    (op : Connective) : List Condition → Run σ (Option Matches)
  | [] => pure none
  | c :: cs => do
    let ms ← conditionMatches world runner left right c
    match ← termMatches world runner left right op cs with
    | some others => pure (some (combineMatches op ms others))
    | none => pure (some ms)

end

def nulls (t : Table) : Row :=
  List.replicate t.width .null

/-- The rows of a left row with its matches; without any it stands alone if `fill` says so. -/
def leftRows (right : Table) (fill : Bool) (row : Row) (ids : List Nat) : List Row :=
  if ids.isEmpty then (if fill then [row ++ nulls right] else [])
  else ids.map fun id => row ++ (right.rows[id]?).getD []

/-- The rows that begin with a left row, in the order of the left table. -/
def rowsByLeft (left right : Table) (fill : Bool) (ms : Matches) : List Row :=
  (left.rows.zip ms).flatMap fun p => leftRows right fill p.1 p.2

def leftsOf (ms : Matches) (id : Nat) : List Nat :=
  ms.zipIdx.flatMap fun m => (m.1.filter fun i => i == id).map fun _ => m.2

def rowsByRight (left right : Table) (ms : Matches) : List Row :=
  right.rows.zipIdx.flatMap fun r =>
    let lefts := leftsOf ms r.2
    if lefts.isEmpty then [nulls left ++ r.1]
    else lefts.map fun l => (left.rows[l]?).getD [] ++ r.1

/-- The right rows that nothing matches, behind nulls. -/
def unmatchedRight (left right : Table) (ms : Matches) : List Row :=
  (right.rows.zipIdx.filter fun r => !(ms.any fun m => m.contains r.2)).map fun r => nulls left ++ r.1

def joined (left right : Table) (kind : JoinKind) (ms : Matches) : Except QueryError Table :=
  let titles := left.titles ++ right.titles
  let schema := left.schema.merge right.schema left.width
  let table (rows : List Row) := Table.withSchema derivedName titles rows schema
  match kind with
  | .inner => .ok (table (rowsByLeft left right false ms))
  | .left => .ok (table (rowsByLeft left right true ms))
  | .right => .ok (table (rowsByRight left right ms))
  | .full =>
    let unmatched := unmatchedRight left right ms
    let first := table (rowsByLeft left right true ms)
    if unmatched.isEmpty then .ok first else first.append (table unmatched)

def joinTables (world : World) (runner : Runner σ) (left right : Table)
    (kind : JoinKind) (on : Condition) : Run σ Table := do
  let ms ← conditionMatches world runner left right on
  Run.of (joined left right kind ms)

/-- Joins the further sources of a statement to a table, the first of them being source `position`,
and points the fields of each at its columns. -/
def joinFrom (world : World) (runner : Runner σ) (position : Nat) (working : Table)
    (fields : Fields) : List JoinClause → List Table → Run σ (Table × Fields)
  | [], _ => pure (working, fields)
  | _ :: _, [] => throw (.joinWithoutSource position)
  | j :: js, right :: sources => do
    let next ← joinTables world runner working right j.kind j.condition
    joinFrom world runner (position + 1) next (fields.repoint position working.width) js sources

end GridQuery
