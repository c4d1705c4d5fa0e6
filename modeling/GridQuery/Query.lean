import GridQuery.Filter
import GridQuery.Group
import GridQuery.Join
import GridQuery.Pivot
import GridQuery.SetOperations
import GridQuery.Statement.Parser

/-!
Running statements: sources, fields, joins, filter, one row of cells for each row that is left,
grouping, `HAVING`, ordering, and the cut to what is shown; then the set operations. A statement runs
with a runner for the statements in it, so a bound on their depth is enough for the whole.
-/

namespace GridQuery
set_option autoImplicit false

variable {σ : Type}

def sourceTable (world : World) (runner : Runner σ) : Source → Run σ Table
  | .table name alias? => do
    let t ← Run.of (world.tables.require name)
    pure (t.withAlias alias?)
  | .query q alias? => do
    let r ← runner.kept q
    pure (Table.derived (alias?.getD subqueryName) r.titles r.rows)

def sourceTables (world : World) (runner : Runner σ) : List JoinClause → Run σ (List Table)
  | [] => pure []
  | j :: js => do
    let t ← sourceTable world runner j.source
    let ts ← sourceTables world runner js
    pure (t :: ts)

def groupParts (c : Condition) : List Expr :=
  c.parts.filter fun e =>
    match e with
    | .column .. => true
    | e => e.aggregate?.isSome

structure Layout where
  fields : Fields
  groupKeys : List Nat
  orderKeys : List (Nat × Direction)

/-- The fields of a statement over its sources, with the hidden ones its clauses need. -/
def layout (sources : List Table) (s : Statement) : Except QueryError Layout := do
  let fields ← Fields.ofSelect sources s.items
  let (groupKeys, fields) ← fields.resolveAll sources "GROUP BY" s.groupBy
  let (_, fields) ← Fields.resolveAll fields sources "HAVING" ((s.having.map groupParts).getD [])
  let (slots, fields) ← Fields.resolveAll fields sources "ORDER BY" (s.orderBy.map OrderItem.expr)
  .ok ⟨fields, groupKeys, slots.zip (s.orderBy.map OrderItem.direction)⟩

def Rows.cells (r : Rows σ) (formulas : List Formula) : List Nat → Run σ (List Row)
  | [] => pure []
  | row :: rows => do
    let cells ← r.values row formulas
    let others ← r.cells formulas rows
    pure (cells :: others)

/-- The rows that `HAVING` keeps; the fields answer to their spellings. -/
def keepGroups (world : World) (runner : Runner σ) (fields : Fields)
    (rows : List Row) : Option Condition → Run σ (List Row)
  | none => pure rows
  | some c => do
    let table := Table.withSchema "HAVING" (fields.map Field.title) rows fields.schema
    let kept ← Rows.matching ⟨world, table, runner⟩ (some c)
    pure (kept.filterMap fun i => table.rows[i]?)

def Direction.apply (d : Direction) (o : Ordering) : Ordering :=
  match d with
  | .asc => o
  | .desc => o.swap

/-- Compares two rows by ordered slots, the first difference deciding. -/
def compareRows (a b : Row) : List (Nat × Direction) → Ordering
  | [] => .eq
  | (slot, d) :: keys => (d.apply (compareSlot a b slot)).then (compareRows a b keys)

def sortRows (keys : List (Nat × Direction)) (rows : List Row) : List Row :=
  if keys.isEmpty then rows else rows.mergeSort fun a b => compareRows a b keys != .gt

def cut (fields : Fields) (limit : Option Nat) (rows : List Row) : List Row :=
  let shown := rows.map fun row => row.take fields.selectedCount
  match limit with
  | some n => shown.take n
  | none => shown

/-- Runs one statement; its pivot and its set operations are left aside. -/
def runPlain (world : World) (runner : Runner σ) (s : Statement) : Run σ ResultSet := do
  let first ← sourceTable world runner s.source
  let others ← sourceTables world runner s.joins
  let plan ← Run.of (layout (first :: others) s)
  let (working, fields) ← joinFrom world runner 1 first plan.fields s.joins others
  let rows : Rows σ := ⟨world, working, runner⟩
  let ids ← rows.matching s.filter
  let formulas ← Run.of (rows.scope.fieldFormulas [] fields)
  let cells ← rows.cells formulas ids
  let groups ← keepGroups world runner fields (grouped fields plan.groupKeys s.distinct cells) s.having
  pure ⟨fields.titles, cut fields s.limit (sortRows plan.orderKeys groups)⟩

/-- Runs one statement, pivoting it first if it asks for that. -/
def runPivot (world : World) (runner : Runner σ) (s : Statement) : Run σ ResultSet :=
  match s.pivot with
  | none => runPlain world runner s
  | some pivot =>
    if s.groupBy.isEmpty then throw .pivotWithoutGroup
    else do
      let values ← runner.keep (runPlain world runner) (pivotValues s pivot)
      runPlain world runner (pivoted s pivot (values.column 0))

/-- Combines a result with the operands of set operations, from the left. -/
def combineAll (runner : Runner σ) (left : ResultSet) : List SetOperation → Run σ ResultSet
  | [] => pure left
  | o :: os => do
    let right ← runner.run o.statement
    let both ← Run.of (left.combine o.operator right)
    combineAll runner both os

def runWith (world : World) (runner : Runner σ) (s : Statement) : Run σ ResultSet := do
  let first ← runPivot world runner s
  combineAll runner first s.operations

/-- Runs a statement with at most `depth` statements within one another. -/
def run (keep : Keeping σ) (world : World) : Nat → Statement → Run σ ResultSet
  | 0, _ => throw .tooDeep
  | depth + 1, s => runWith world ⟨run keep world depth, keep⟩ s

def runnerAt (keep : Keeping σ) (world : World) (depth : Nat) : Runner σ :=
  ⟨run keep world depth, keep⟩

/-- The rows of a table in a query, with that runner for the statements within them. -/
def rowsAt (world : World) (table : Table) (depth : Nat) : Rows ResultMemo :=
  ⟨world, table, runnerAt remembered world depth⟩

def execute (world : World) (s : Statement) : Except QueryError ResultSet := do
  world.binds.require s.maxBind
  ((run remembered world s.depth s).run []).1

def query (world : World) (text : String) : Except QueryError ResultSet := do
  let s ← Parser.parseStatement text
  execute world s

def queryRows (world : World) (titled : Bool) (text : String) : Except QueryError (List Row) := do
  let r ← query world text
  .ok (r.shown titled)

/-- Takes a step for each of several rows; one that fails does not stop the others. -/
def eachRow {α : Type} (step : Nat → Run ResultMemo α) :
    List Nat → StateM ResultMemo (List (Except QueryError α))
  | [] => pure []
  | row :: rows => do
    let x ← (step row).run
    let xs ← eachRow step rows
    pure (x :: xs)

/-- The rows of a table that is looked at row by row; without rows, the first one still. -/
def rowNumbers (t : Table) : List Nat :=
  List.range (max t.rows.length 1)

def evaluate (world : World) (table : Table) (e : Expr) : List (Except QueryError Cell) :=
  ((eachRow ((rowsAt world table (nesting.expr e)).evaluated e) (rowNumbers table)).run []).1

def test (world : World) (table : Table) (c : Condition) : List (Except QueryError Bool) :=
  ((eachRow ((rowsAt world table (nesting.condition c)).satisfies c) (rowNumbers table)).run []).1

def join (world : World) (left right : Table) (kind : JoinKind) (on : Condition) : Except QueryError Table :=
  ((joinTables world (runnerAt remembered world (nesting.condition on)) left right kind on).run []).1

end GridQuery
