import GridQuery.Statement.Parts
import GridQuery.Statement.Printer
import GridQuery.Table

/-!
The fields of one statement: its select list, and behind it the hidden fields that grouping,
`HAVING` and ordering need. A field answers to its spellings, and a plain column also to its place
in the sources; of several fields the first one answers.
-/

namespace GridQuery
set_option autoImplicit false

structure Aggregate where
  aggregator : Aggregator
  distinct : Bool
deriving DecidableEq, Repr

/-- Where the value of a field comes from, row by row. -/
inductive FieldKind where
  /-- A column of a source; `FROM` is source 0. -/
  | column (source column : Nat)
  | calculated (expr : Expr)
  | subquery (query : Statement)
  | star

structure Field where
  kind : FieldKind
  aggregate : Option Aggregate
  title : String
  spellings : List String
  /-- Hidden: added for a clause and not shown. -/
  temporary : Bool
  /-- The column of the joined table, once joins have moved it. -/
  derived : Option Nat

/-- The spelling of a column, behind its table where it names one. -/
def columnSpelling (table : Option String) (name : String) : String :=
  match table with
  | some t => t ++ "." ++ name
  | none => name

/-- The first source that knows a column, and the column in it. -/
def resolveFrom (first : Nat) (spelling : String) : List Table → Option (Nat × Nat)
  | [] => none
  | t :: ts =>
    match t.column? spelling with
    | some c => some (first, c)
    | none => resolveFrom (first + 1) spelling ts

def resolveColumn (sources : List Table) (table : Option String) (name : String) : Option (Nat × Nat) :=
  resolveFrom 0 (columnSpelling table name) sources

namespace Field

def ofKind (kind : FieldKind) (title : String) : Field :=
  ⟨kind, none, title, [normalize title], false, none⟩

/-- Adds a spelling unless it is empty or there. -/
def spell (f : Field) (spelling : String) : Field :=
  let s := normalize spelling
  if s = "" ∨ s ∈ f.spellings then f else { f with spellings := f.spellings ++ [s] }

def spellColumn (f : Field) (source : Table) (column : Nat) : Field :=
  match source.titles[column]? with
  | none => f
  | some title =>
    let f := (f.spell title).spell (source.name ++ "." ++ title)
    match source.alias? with
    | some a => f.spell (a ++ "." ++ title)
    | none => f

/-- The column of the working table that holds a field of a column. -/
def physical? (f : Field) : Option Nat :=
  match f.kind with
  | .column _ c => some (f.derived.getD c)
  | _ => none

def isAggregate (f : Field) : Bool :=
  f.aggregate.isSome

def ofValue (sources : List Table) (title : String) (e : Expr) : Except QueryError Field :=
  match e with
  | .star none => .ok (ofKind .star title)
  | .star (some _) => .error (.starInside e.text)
  | .column table name =>
    match resolveColumn sources table name with
    | some (s, c) =>
      let f := ofKind (.column s c) title
      .ok (match sources[s]? with
        | some source => f.spellColumn source c
        | none => f)
    | none => .error (.unknownColumn e.text)
  | .subquery q => .ok (ofKind (.subquery q) title)
  | e => if e.containsAggregate then .error (.aggregateInside e.text) else .ok (ofKind (.calculated e) title)

/-- The field of an expression, an aggregate folding the value of its one argument. -/
def ofExpr (sources : List Table) (title : String) (e : Expr) : Except QueryError Field :=
  match e.aggregate? with
  | none => ofValue sources title e
  | some call =>
    match call.args with
    | [argument] => do
      let f ← ofValue sources title argument
      .ok { f with
        spellings := [normalize title]
        aggregate := some ⟨call.aggregator, call.distinct⟩ }
    | _ => .error (.aggregateArguments call.name)

end Field

abbrev Fields := List Field

namespace Fields

def selectedCount (fs : Fields) : Nat :=
  (fs.filter fun f => !f.temporary).length

def titles (fs : Fields) : List String :=
  (fs.filter fun f => !f.temporary).map Field.title

def hasAggregates (fs : Fields) : Bool :=
  fs.any Field.isAggregate

def ofSource (index : Nat) (source : Table) : Fields :=
  source.titles.zipIdx.map fun t =>
    (Field.ofKind (.column index t.2) (normalize (source.reference ++ "." ++ t.1))).spellColumn
      source t.2

def starMeans (qualifier : Option String) (source : Table) : Bool :=
  match qualifier with
  | none => true
  | some q => normalize source.reference == normalize q || normalize source.name == normalize q

/-- The fields of a star: the columns of all sources, or of those with a name. -/
def ofStar (sources : List Table) (qualifier : Option String) : Except QueryError Fields :=
  let meant := sources.zipIdx.filter fun s => starMeans qualifier s.1
  if meant.isEmpty then .error (.unknownSelectTable (qualifier.getD ""))
  else .ok (meant.flatMap fun s => ofSource s.2 s.1)

def ofItem (sources : List Table) (item : SelectItem) : Except QueryError Fields :=
  match item.expr with
  | .star qualifier => ofStar sources qualifier
  | e => do
    let f ← Field.ofExpr sources item.title e
    .ok [f.spell e.text]

def ofSelect (sources : List Table) : List SelectItem → Except QueryError Fields
  | [] => .ok []
  | item :: items => do
    let fs ← ofItem sources item
    let others ← ofSelect sources items
    .ok (fs ++ others)

def findSpelling? (fs : Fields) (spelling : String) : Option Nat :=
  fs.findIdx? fun f => f.spellings.contains spelling

def isColumn (source column : Nat) (f : Field) : Bool :=
  match f.kind with
  | .column s c => !f.isAggregate && s == source && c == column
  | _ => false

/-- The first field that is a column of a source and no aggregate. -/
def findColumn? (fs : Fields) (source column : Nat) : Option Nat :=
  fs.findIdx? (isColumn source column)

/-- The field an expression refers to: by its text, by its bare name, or by the column it means. -/
def find? (fs : Fields) (sources : List Table) (e : Expr) : Option Nat :=
  match fs.findSpelling? (normalize e.text) with
  | some slot => some slot
  | none =>
    match e with
    | .column table name =>
      match (if table.isNone then fs.findSpelling? (normalize name) else none) with
      | some slot => some slot
      | none => (resolveColumn sources table name).bind fun p => fs.findColumn? p.1 p.2
    | .paren inner => find? fs sources inner
    | _ => none

/-- The field at a place in the select list, counted from one, where the expression is a number. -/
def ordinal? (fs : Fields) (clause : String) (e : Expr) : Except QueryError (Option Nat) :=
  match e with
  | .literal (.number x) =>
    match Number.parts x with
    | .finite negative m exponent =>
      let n := Number.wholePart m exponent
      if !negative && Number.isWhole m exponent && decide (1 ≤ n) && decide (n ≤ fs.selectedCount) then
        .ok (some (n - 1))
      else .error (.ordinalRange clause e.text)
    | _ => .error (.ordinalRange clause e.text)
  | _ => .ok none

/-- An unknown column within a hidden field is an error of the clause. -/
def clauseError (clause : String) : QueryError → QueryError
  | .unknownColumn e => .clauseColumn clause e
  | e => e

/-- A new hidden field for a clause. -/
def hidden (sources : List Table) (clause : String) (e : Expr) : Except QueryError Field :=
  match e with
  | .column table name =>
    if (resolveColumn sources table name).isNone then .error (.unknownClauseColumn clause e.text)
    else make
  | _ => make
where
  make : Except QueryError Field :=
    match Field.ofExpr sources e.text e with
    | .ok f => .ok { f with temporary := true }
    | .error err => .error (clauseError clause err)

/-- The slot of the field a clause refers to, and the fields with it; it is added at the end, and
hidden, where none is there. -/
def resolve (fs : Fields) (sources : List Table) (clause : String) (e : Expr) :
    Except QueryError (Nat × Fields) := do
  match ← fs.ordinal? clause e with
  | some slot => .ok (slot, fs)
  | none =>
    match fs.find? sources e with
    | some slot => .ok (slot, fs)
    | none => do
      let f ← hidden sources clause e
      .ok (fs.length, fs ++ [f])

def resolveAll (fs : Fields) (sources : List Table) (clause : String) :
    List Expr → Except QueryError (List Nat × Fields)
  | [] => .ok ([], fs)
  | e :: es => do
    let (slot, fs) ← fs.resolve sources clause e
    let (slots, fs) ← resolveAll fs sources clause es
    .ok (slot :: slots, fs)

/-- Points the columns of a source at the joined table, where they stand behind `offset` others. -/
def repoint (fs : Fields) (source offset : Nat) : Fields :=
  fs.map fun f =>
    match f.kind with
    | .column s c => if s = source then { f with derived := some (offset + c) } else f
    | _ => f

def schema (fs : Fields) : Schema :=
  Schema.ofSpellings (fs.zipIdx.flatMap fun f => f.1.spellings.map fun s => (s, f.2))

end Fields

end GridQuery
