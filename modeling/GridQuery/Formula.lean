import GridQuery.Binds
import GridQuery.Outer
import GridQuery.ScalarFunction

/-!
Formulas: expressions and conditions with every name resolved, ready for the rows of one table. An
expression that is written like a column of the table is that column, so rows that were computed
before answer for the formulas they were computed by.
-/

namespace GridQuery
set_option autoImplicit false

mutual

inductive Formula where
  | const (value : Cell)
  | slot (column : Nat)
  | binary (op : BinaryOp) (left right : Formula)
  | negate (operand : Formula)
  | call (function : ScalarFunction) (args : List Formula)
  | case (branches : List (Test × Formula)) (otherwise : Option Formula)
  | subquery (query : Statement) (correlated : Bool)
  | list (items : List Formula)

inductive Test where
  /-- A comparison; `pattern` is that of `LIKE` where the right side is constant. -/
  | compare (op : Comparison) (left right : Formula) (pattern : Option String)
  | logic (op : Connective) (terms : List Test)
  | not (inner : Test)
  | exists (negated : Bool) (query : Statement) (correlated : Bool)

end

/-- What names in a formula refer to. -/
structure Scope where
  tables : Tables
  binds : Binds
  table : Table

namespace Scope

/-- The column that a whole expression is written like. -/
def written? (s : Scope) (e : Expr) : Option Nat :=
  s.table.column? e.text

def column (s : Scope) (table : Option String) (name : String) : Except QueryError Formula :=
  match (s.table.column? (columnSpelling table name)).or (s.written? (.column table name)) with
  | some slot => .ok (.slot slot)
  | none => .error (.unknownColumn (columnText table name))

def subquery (s : Scope) (q : Statement) : Formula :=
  .subquery q (q.isCorrelated s.tables s.table)

/-- The function of a call with its count of arguments checked; aggregates are none. -/
def function (name text : String) (count : Nat) : Except QueryError ScalarFunction :=
  if (Aggregator.ofName? name).isSome then .error (.misplacedAggregate text)
  else match ScalarFunction.ofName? name with
    | none => .error (.unknownFunction name)
    | some f => (f.checkArity name count).map fun _ => f

/-- The pattern of a comparison by `LIKE` with a constant. -/
def pattern? (op : Comparison) (right : Formula) : Option String :=
  match op, right with
  | .like, .const c => some c.key
  | .notLike, .const c => some c.key
  | _, _ => none

/-- The bare word that names the type of a conversion, as second argument. -/
def typeWord? (f : ScalarFunction) (i : Nat) (e : Expr) : Option String :=
  match e with
  | .column none name => if f = .convert ∧ i = 1 then some name else none
  | _ => none

mutual

def formula (s : Scope) : Expr → Except QueryError Formula
  | .literal c => .ok (.const c)
  | .column table name => s.column table name
  | .bind n => (s.binds.get n).map .const
  | .binary op a b =>
    match s.written? (.binary op a b) with
    | some slot => .ok (.slot slot)
    | none => do
      let x ← s.formula a
      let y ← s.formula b
      .ok (.binary op x y)
  | .unary sign a =>
    match s.written? (.unary sign a) with
    | some slot => .ok (.slot slot)
    | none => do
      let x ← s.formula a
      .ok (match sign with
        | .minus => .negate x
        | .plus => x)
  | .call name distinct args =>
    match s.written? (.call name distinct args) with
    | some slot => .ok (.slot slot)
    | none => do
      let f ← function name (Expr.text (.call name distinct args)) args.length
      let xs ← s.arguments f 0 args
      .ok (.call f xs)
  | .case branches otherwise =>
    match s.written? (.case branches otherwise) with
    | some slot => .ok (.slot slot)
    | none => do
      let bs ← s.branches branches
      let e ← s.optional otherwise
      .ok (.case bs e)
  | .ite c a b =>
    match s.written? (.ite c a b) with
    | some slot => .ok (.slot slot)
    | none => do
      let t ← s.test c
      let x ← s.formula a
      let y ← s.formula b
      .ok (.case [(t, x)] (some y))
  | .subquery q =>
    match s.written? (.subquery q) with
    | some slot => .ok (.slot slot)
    | none => .ok (s.subquery q)
  | .list items =>
    match s.written? (.list items) with
    | some slot => .ok (.slot slot)
    | none => do
      let xs ← s.formulas items
      .ok (.list xs)
  | .star table =>
    match s.written? (.star table) with
    | some slot => .ok (.slot slot)
    | none => .ok (.const (.text "*"))
  | .paren a =>
    match s.written? (.paren a) with
    | some slot => .ok (.slot slot)
    | none => s.formula a

def formulas (s : Scope) : List Expr → Except QueryError (List Formula)
  | [] => .ok []
  | e :: es => do
    let x ← s.formula e
    let xs ← s.formulas es
    .ok (x :: xs)

/-- The arguments of a call, from the one at place `i` on. -/
def arguments (s : Scope) (f : ScalarFunction) (i : Nat) : List Expr → Except QueryError (List Formula)
  | [] => .ok []
  | e :: es => do
    let x ← match typeWord? f i e with
      | some word => .ok (.const (.text word))
      | none => s.formula e
    let xs ← s.arguments f (i + 1) es
    .ok (x :: xs)

def branches (s : Scope) : List (Condition × Expr) → Except QueryError (List (Test × Formula))
  | [] => .ok []
  | (c, e) :: bs => do
    let t ← s.test c
    let x ← s.formula e
    let ys ← s.branches bs
    .ok ((t, x) :: ys)

def optional (s : Scope) : Option Expr → Except QueryError (Option Formula)
  | none => .ok none
  | some e => do
    let x ← s.formula e
    .ok (some x)

def test (s : Scope) : Condition → Except QueryError Test
  | .compare op a b => do
    let x ← s.formula a
    let y ← s.formula b
    .ok (.compare op x y (pattern? op y))
  | .logic op terms => do
    let ts ← s.tests terms
    .ok (.logic op ts)
  | .not c => do
    let t ← s.test c
    .ok (.not t)
  | .exists negated q => .ok (.exists negated q (q.isCorrelated s.tables s.table))

def tests (s : Scope) : List Condition → Except QueryError (List Test)
  | [] => .ok []
  | c :: cs => do
    let t ← s.test c
    let ts ← s.tests cs
    .ok (t :: ts)

end

end Scope

/-- Formulas made before, by the text of their expressions. -/
abbrev FormulaMemo := List (String × Formula)

/-- The formula of an expression, taken from the memo where one of the same text is there. -/
def Scope.recall (s : Scope) (memo : FormulaMemo) (e : Expr) : Except QueryError (Formula × FormulaMemo) :=
  match memo.lookup e.text with
  | some f => .ok (f, memo)
  | none => do
    let f ← s.formula e
    .ok (f, (e.text, f) :: memo)

def Scope.fieldFormula (s : Scope) (memo : FormulaMemo) (f : Field) :
    Except QueryError (Formula × FormulaMemo) :=
  match f.kind with
  | .column .. =>
    match f.physical? with
    | some c => .ok (.slot c, memo)
    | none => .error (.fieldWithoutColumn f.title)
  | .calculated e => s.recall memo e
  | .subquery q => .ok (s.subquery q, memo)
  | .star => .ok (.const (.text "*"), memo)

def Scope.fieldFormulas (s : Scope) (memo : FormulaMemo) : List Field → Except QueryError (List Formula)
  | [] => .ok []
  | f :: fs => do
    let (x, memo) ← s.fieldFormula memo f
    let xs ← s.fieldFormulas memo fs
    .ok (x :: xs)

end GridQuery
