import GridQuery.Fields

/-!
Statements within a row of an enclosing one. A column of an inner statement that none of the sources
and aliases around it knows is free; where the enclosing table knows it, it means a cell of the outer
row. Putting that cell in its place makes a statement that stands on its own.
-/

namespace GridQuery
set_option autoImplicit false

/-- The name of a statement that stands for a table without an alias. -/
def subqueryName : String := "SUBQUERY"

def Tables.titlesOf (ts : Tables) (name : String) : List String :=
  ((ts.get? name).map Table.titles).getD []

def Source.referenceName (s : Source) : String :=
  s.reference?.getD subqueryName

/-- The titles that an item shows; a star shows those of the sources it means. -/
def itemTitles (sources : List (String × List String)) (item : SelectItem) : List String :=
  match item.expr with
  | .star qualifier =>
    (sources.filter fun s => qualifier.all fun q => normalize q == normalize s.1).flatMap fun s =>
      s.2.map fun title => normalize (s.1 ++ "." ++ title)
  | _ => [item.title]

mutual

/-- The titles of a statement's result, as far as its text and the tables tell. -/
def Statement.titles (ts : Tables) : Statement → List String
  | ⟨_, items, source, joins, _, _, _, _, _, _, _⟩ =>
    items.flatMap (itemTitles ((source.referenceName, source.titles ts) :: joinTitles ts joins))

def Source.titles (ts : Tables) : Source → List String
  | .table name _ => ts.titlesOf name
  | .query q _ => q.titles ts

def joinTitles (ts : Tables) : List JoinClause → List (String × List String)
  | [] => []
  | ⟨_, source, _⟩ :: joins => (source.referenceName, source.titles ts) :: joinTitles ts joins

end

/-- The spellings that a source offers. -/
def Source.schema (ts : Tables) (s : Source) : Schema :=
  match s with
  | .table name alias? => Schema.lenient (alias?.getD name) none (ts.titlesOf name)
  | .query q alias? => Schema.lenient (alias?.getD subqueryName) none (q.titles ts)

def scopeOf (ts : Tables) (items : List SelectItem) (source : Source) (joins : List JoinClause) :
    List Schema :=
  source.schema ts :: joins.map (fun j => j.source.schema ts) ++
    [Schema.ofSpellings ((items.filterMap SelectItem.alias?).map fun a => (a, 0))]

def knownIn (scopes : List Schema) (spelling : String) : Bool :=
  scopes.any fun s => s.contains spelling

mutual

/-- The spellings of the columns that no scope knows. -/
def Expr.freeColumns (ts : Tables) (scopes : List Schema) : Expr → List String
  | .literal _ => []
  | .column table name =>
    if knownIn scopes (columnSpelling table name) then [] else [columnSpelling table name]
  | .bind _ => []
  | .binary _ a b => a.freeColumns ts scopes ++ b.freeColumns ts scopes
  | .unary _ a => a.freeColumns ts scopes
  | .call _ _ args => exprsFree ts scopes args
  | .case branches otherwise => branchesFree ts scopes branches ++ optionalFree ts scopes otherwise
  | .ite c a b => c.freeColumns ts scopes ++ a.freeColumns ts scopes ++ b.freeColumns ts scopes
  | .subquery q => q.freeColumns ts scopes
  | .list items => exprsFree ts scopes items
  | .star _ => []
  | .paren a => a.freeColumns ts scopes

def exprsFree (ts : Tables) (scopes : List Schema) : List Expr → List String
  | [] => []
  | e :: es => e.freeColumns ts scopes ++ exprsFree ts scopes es

def branchesFree (ts : Tables) (scopes : List Schema) : List (Condition × Expr) → List String
  | [] => []
  | (c, e) :: bs => c.freeColumns ts scopes ++ e.freeColumns ts scopes ++ branchesFree ts scopes bs

def optionalFree (ts : Tables) (scopes : List Schema) : Option Expr → List String
  | none => []
  | some e => e.freeColumns ts scopes

def Condition.freeColumns (ts : Tables) (scopes : List Schema) : Condition → List String
  | .compare _ a b => a.freeColumns ts scopes ++ b.freeColumns ts scopes
  | .logic _ terms => termsFree ts scopes terms
  | .not c => c.freeColumns ts scopes
  | .exists _ q => q.freeColumns ts scopes

def termsFree (ts : Tables) (scopes : List Schema) : List Condition → List String
  | [] => []
  | c :: cs => c.freeColumns ts scopes ++ termsFree ts scopes cs

def clauseFree (ts : Tables) (scopes : List Schema) : Option Condition → List String
  | none => []
  | some c => c.freeColumns ts scopes

def Source.freeColumns (ts : Tables) (scopes : List Schema) : Source → List String
  | .table .. => []
  | .query q _ => q.freeColumns ts scopes

def itemsFree (ts : Tables) (scopes : List Schema) : List SelectItem → List String
  | [] => []
  | ⟨e, _, _⟩ :: items => e.freeColumns ts scopes ++ itemsFree ts scopes items

def joinsFree (ts : Tables) (scopes : List Schema) : List JoinClause → List String
  | [] => []
  | ⟨_, s, c⟩ :: joins =>
    s.freeColumns ts scopes ++ c.freeColumns ts scopes ++ joinsFree ts scopes joins

def ordersFree (ts : Tables) (scopes : List Schema) : List OrderItem → List String
  | [] => []
  | ⟨e, _⟩ :: orders => e.freeColumns ts scopes ++ ordersFree ts scopes orders

def operationsFree (ts : Tables) (scopes : List Schema) : List SetOperation → List String
  | [] => []
  | ⟨_, s⟩ :: operations => s.freeColumns ts scopes ++ operationsFree ts scopes operations

/-- A statement's clauses see its own scope; the operands of its set operations do not. -/
def Statement.freeColumns (ts : Tables) (scopes : List Schema) : Statement → List String
  | ⟨_, items, source, joins, filter, groupBy, having, orderBy, _, pivot, operations⟩ =>
    let inner := scopeOf ts items source joins ++ scopes
    source.freeColumns ts inner ++ joinsFree ts inner joins ++ itemsFree ts inner items ++
      clauseFree ts inner filter ++ exprsFree ts inner groupBy ++ clauseFree ts inner having ++
      ordersFree ts inner orderBy ++ optionalFree ts inner pivot ++
      operationsFree ts scopes operations

end

/-- Whether a statement names a column of an enclosing table. -/
def Statement.isCorrelated (ts : Tables) (outer : Table) (q : Statement) : Bool :=
  (q.freeColumns ts []).any fun spelling => (outer.column? spelling).isSome

/-- A column in a row's place: the cell of the outer row that a free spelling means. -/
def outerExpr (scopes : List Schema) (cell : String → Option Cell) (table : Option String)
    (name : String) : Expr :=
  if knownIn scopes (columnSpelling table name) then .column table name
  else match cell (columnSpelling table name) with
    | some c => .literal c
    | none => .column table name

mutual

/-- Puts cells in the place of the free columns that `cell` knows. -/
def Expr.bindOuter (ts : Tables) (cell : String → Option Cell) (scopes : List Schema) : Expr → Expr
  | .literal c => .literal c
  | .column table name => outerExpr scopes cell table name
  | .bind n => .bind n
  | .binary op a b => .binary op (a.bindOuter ts cell scopes) (b.bindOuter ts cell scopes)
  | .unary s a => .unary s (a.bindOuter ts cell scopes)
  | .call name distinct args => .call name distinct (exprsBind ts cell scopes args)
  | .case branches otherwise =>
    .case (branchesBind ts cell scopes branches) (optionalBind ts cell scopes otherwise)
  | .ite c a b =>
    .ite (c.bindOuter ts cell scopes) (a.bindOuter ts cell scopes) (b.bindOuter ts cell scopes)
  | .subquery q => .subquery (q.bindIn ts cell scopes)
  | .list items => .list (exprsBind ts cell scopes items)
  | .star table => .star table
  | .paren a => .paren (a.bindOuter ts cell scopes)

def exprsBind (ts : Tables) (cell : String → Option Cell) (scopes : List Schema) :
    List Expr → List Expr
  | [] => []
  | e :: es => e.bindOuter ts cell scopes :: exprsBind ts cell scopes es

def branchesBind (ts : Tables) (cell : String → Option Cell) (scopes : List Schema) :
    List (Condition × Expr) → List (Condition × Expr)
  | [] => []
  | (c, e) :: bs =>
    (c.bindOuter ts cell scopes, e.bindOuter ts cell scopes) :: branchesBind ts cell scopes bs

def optionalBind (ts : Tables) (cell : String → Option Cell) (scopes : List Schema) :
    Option Expr → Option Expr
  | none => none
  | some e => some (e.bindOuter ts cell scopes)

def Condition.bindOuter (ts : Tables) (cell : String → Option Cell) (scopes : List Schema) :
    Condition → Condition
  | .compare op a b => .compare op (a.bindOuter ts cell scopes) (b.bindOuter ts cell scopes)
  | .logic op terms => .logic op (termsBind ts cell scopes terms)
  | .not c => .not (c.bindOuter ts cell scopes)
  | .exists negated q => .exists negated (q.bindIn ts cell scopes)

def termsBind (ts : Tables) (cell : String → Option Cell) (scopes : List Schema) :
    List Condition → List Condition
  | [] => []
  | c :: cs => c.bindOuter ts cell scopes :: termsBind ts cell scopes cs

def clauseBind (ts : Tables) (cell : String → Option Cell) (scopes : List Schema) :
    Option Condition → Option Condition
  | none => none
  | some c => some (c.bindOuter ts cell scopes)

def Source.bindOuter (ts : Tables) (cell : String → Option Cell) (scopes : List Schema) :
    Source → Source
  | .table name alias? => .table name alias?
  | .query q alias? => .query (q.bindIn ts cell scopes) alias?

def itemsBind (ts : Tables) (cell : String → Option Cell) (scopes : List Schema) :
    List SelectItem → List SelectItem
  | [] => []
  | ⟨e, text, alias?⟩ :: items => ⟨e.bindOuter ts cell scopes, text, alias?⟩ :: itemsBind ts cell scopes items

def joinsBind (ts : Tables) (cell : String → Option Cell) (scopes : List Schema) :
    List JoinClause → List JoinClause
  | [] => []
  | ⟨kind, s, c⟩ :: joins =>
    ⟨kind, s.bindOuter ts cell scopes, c.bindOuter ts cell scopes⟩ :: joinsBind ts cell scopes joins

def ordersBind (ts : Tables) (cell : String → Option Cell) (scopes : List Schema) :
    List OrderItem → List OrderItem
  | [] => []
  | ⟨e, d⟩ :: orders => ⟨e.bindOuter ts cell scopes, d⟩ :: ordersBind ts cell scopes orders

def operationsBind (ts : Tables) (cell : String → Option Cell) (scopes : List Schema) :
    List SetOperation → List SetOperation
  | [] => []
  | ⟨op, s⟩ :: operations => ⟨op, s.bindIn ts cell scopes⟩ :: operationsBind ts cell scopes operations

def Statement.bindIn (ts : Tables) (cell : String → Option Cell) (scopes : List Schema) :
    Statement → Statement
  | ⟨distinct, items, source, joins, filter, groupBy, having, orderBy, limit, pivot, operations⟩ =>
    let inner := scopeOf ts items source joins ++ scopes
    ⟨distinct, itemsBind ts cell inner items, source.bindOuter ts cell inner,
      joinsBind ts cell inner joins, clauseBind ts cell inner filter,
      exprsBind ts cell inner groupBy, clauseBind ts cell inner having,
      ordersBind ts cell inner orderBy, limit, optionalBind ts cell inner pivot,
      operationsBind ts cell scopes operations⟩

end

def Table.cellNamed (t : Table) (row : Nat) (spelling : String) : Option Cell :=
  (t.column? spelling).map (t.cell row)

/-- A statement with the cells of an outer row in the place of the columns that mean them. -/
def Statement.bindOuter (ts : Tables) (outer : Table) (row : Nat) (q : Statement) : Statement :=
  q.bindIn ts (outer.cellNamed row) []

end GridQuery
