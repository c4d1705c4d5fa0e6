import GridQuery.Formula

/-!
Values of formulas on the rows of a table. Nested statements are run by a given runner, which says
what becomes of those that do not depend on the row: a query runs them once and keeps their results
under their text.
-/

namespace GridQuery
set_option autoImplicit false

/-- Titles and rows of a statement. -/
structure ResultSet where
  titles : List String
  rows : List Row
deriving DecidableEq, Inhabited

namespace ResultSet

def scalar (r : ResultSet) : Cell :=
  ((r.rows.head?).bind fun row => row.head?).getD .null

def column (r : ResultSet) (i : Nat) : List Cell :=
  r.rows.map fun row => (row[i]?).getD .null

def hasText (r : ResultSet) : Bool :=
  r.rows.any fun row => row.any fun c => c.key != ""

/-- The rows to show, behind the titles if they are wanted; with nothing to show, one empty cell. -/
def shown (r : ResultSet) (titled : Bool) : List Row :=
  let rows := if titled && !r.titles.isEmpty then r.titles.map Cell.text :: r.rows else r.rows
  if rows.isEmpty then [[.null]] else rows

end ResultSet

/-- A computation that may fail and changes what a query keeps either way. -/
abbrev Run (σ : Type) := ExceptT QueryError (StateM σ)

/-- A step that may fail, as a computation. -/
def Run.of {σ α : Type} : Except QueryError α → Run σ α
  | .ok a => pure a
  | .error e => throw e

/-- What a query does, given a way to run statements, with one that does not depend on a row. -/
abbrev Keeping (σ : Type) := (Statement → Run σ ResultSet) → Statement → Run σ ResultSet

/-- Results of nested statements, by their text. -/
abbrev ResultMemo := List (String × ResultSet)

/-- Runs a statement unless the result of one with the same text is kept. -/
def remembered : Keeping ResultMemo := fun run q => do
  match (← get).lookup q.text with
  | some r => pure r
  | none => do
    let r ← run q
    modify fun memo => (q.text, r) :: memo
    pure r

/-- How the statements within a statement are run. -/
structure Runner (σ : Type) where
  run : Statement → Run σ ResultSet
  keep : Keeping σ

/-- Runs a statement that does not depend on a row. -/
def Runner.kept {σ : Type} (r : Runner σ) (q : Statement) : Run σ ResultSet :=
  r.keep r.run q

/-- What a query finds when it runs: tables, values for placeholders, and the time. -/
structure World where
  tables : Tables
  binds : Binds
  clock : Calendar.Moment

/-- The rows of a table within a query; `runner` runs nested statements. -/
structure Rows (σ : Type) where
  world : World
  table : Table
  runner : Runner σ

def Rows.scope {σ : Type} (r : Rows σ) : Scope :=
  ⟨r.world.tables, r.world.binds, r.table⟩

/-- `+` adds numbers and joins other texts; every other operator wants numbers. -/
def arithmetic (op : BinaryOp) (a b : Cell) : Cell :=
  if op = .concat then .text (a.key ++ b.key)
  else match a.asNumber?, b.asNumber? with
    | some x, some y =>
      .number (match op with
        | .add => x + y
        | .sub => x - y
        | .mul => x * y
        | .div => x / y
        | .mod => Number.remainder x y
        | .concat => x)
    | _, _ =>
      if a.isNull || b.isNull then .null
      else if op = .add then .text (a.key ++ b.key)
      else .number (0.0 / 0.0)

def negated (c : Cell) : Cell :=
  match c.asNumber? with
  | some x => .number (-x)
  | none => if c.isNull then .null else .number (0.0 / 0.0)

namespace Rows

variable {σ : Type}

def nested (r : Rows σ) (row : Nat) (q : Statement) (correlated : Bool) : Run σ ResultSet :=
  if correlated then r.runner.run (q.bindOuter r.world.tables r.table row) else r.runner.kept q

/-- What stands behind `IN`: a list, the first column of a statement's result, or a single value. -/
def members (r : Rows σ) (row : Nat) (f : Formula) (listed : Run σ (List Cell)) (single : Run σ Cell) :
    Run σ (List Cell) :=
  match f with
  | .list _ => listed
  | .subquery q correlated => do
    let result ← r.nested row q correlated
    pure (result.column 0)
  | _ => do
    let x ← single
    pure [x]

mutual

def value (r : Rows σ) (row : Nat) : Formula → Run σ Cell
  | .const c => pure c
  | .slot c => pure (r.table.cell row c)
  | .binary op a b => do
    let x ← r.value row a
    let y ← r.value row b
    pure (arithmetic op x y)
  | .negate a => do
    let x ← r.value row a
    pure (negated x)
  | .call f args => do
    let xs ← r.values row args
    pure (f.apply r.world.clock xs)
  | .case branches otherwise => do
    match ← r.choice row branches with
    | some x => pure x
    | none => r.optional row otherwise
  | .subquery q correlated => do
    let result ← r.nested row q correlated
    pure result.scalar
  | .list _ => throw .listOutsideIn

def values (r : Rows σ) (row : Nat) : List Formula → Run σ (List Cell)
  | [] => pure []
  | f :: fs => do
    let x ← r.value row f
    let xs ← r.values row fs
    pure (x :: xs)

def choice (r : Rows σ) (row : Nat) : List (Test × Formula) → Run σ (Option Cell)
  | [] => pure none
  | (t, f) :: bs => do
    if ← r.holds row t then
      let x ← r.value row f
      pure (some x)
    else r.choice row bs

def optional (r : Rows σ) (row : Nat) : Option Formula → Run σ Cell
  | none => pure .null
  | some f => r.value row f

/-- The values of a list, none for any other formula. -/
def listed (r : Rows σ) (row : Nat) : Formula → Run σ (List Cell)
  | .list items => r.values row items
  | _ => pure []

def holds (r : Rows σ) (row : Nat) : Test → Run σ Bool
  | .compare op a b pattern => do
    let x ← r.value row a
    if op = .isIn ∨ op = .notIn then do
      let items ← r.members row b (r.listed row b) (r.value row b)
      pure (if op = .isIn then x.inList items else !x.isNull && !x.inList items)
    else match op, pattern with
      | .like, some p => pure (x.like p)
      | .notLike, some p => pure (!x.isNull && !x.like p)
      | _, _ => do
        let y ← r.value row b
        pure (Cell.holds op x y)
  | .logic .and terms => r.allHold row terms
  | .logic .or terms => r.anyHolds row terms
  | .not t => do
    let b ← r.holds row t
    pure (!b)
  | .exists negated q correlated => do
    let result ← r.nested row q correlated
    pure (result.hasText != negated)

def allHold (r : Rows σ) (row : Nat) : List Test → Run σ Bool
  | [] => pure true
  | t :: ts => do
    if ← r.holds row t then r.allHold row ts else pure false

def anyHolds (r : Rows σ) (row : Nat) : List Test → Run σ Bool
  | [] => pure false
  | t :: ts => do
    if ← r.holds row t then pure true else r.anyHolds row ts

end

def evaluated (r : Rows σ) (e : Expr) (row : Nat) : Run σ Cell := do
  let f ← Run.of (r.scope.formula e)
  r.value row f

def satisfies (r : Rows σ) (c : Condition) (row : Nat) : Run σ Bool := do
  let t ← Run.of (r.scope.test c)
  r.holds row t

end Rows

end GridQuery
