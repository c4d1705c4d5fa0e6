import GridQuery.Statement.Parts
import GridQuery.Statement.Printer

/-!
Pivoting. Every aggregate of the select list becomes one column for each value of the pivot
expression, which folds its argument over the rows with that value.
-/

namespace GridQuery
set_option autoImplicit false

/-- The statement that collects the pivot values, in order. -/
def pivotValues (s : Statement) (pivot : Expr) : Statement :=
  { distinct := true
    items := [⟨pivot, pivot.text, none⟩]
    source := s.source
    joins := s.joins
    filter := s.filter
    groupBy := []
    having := none
    orderBy := [⟨pivot, .asc⟩]
    limit := none
    pivot := none
    operations := [] }

/-- What an aggregate counts or folds; a star counts one for each row. -/
def pivotArgument (args : List Expr) : Expr :=
  match args with
  | [] => .literal (.number 1.0)
  | .star _ :: _ => .literal (.number 1.0)
  | e :: _ => e

/-- An aggregate over the rows with one pivot value. -/
def pivotCall (call : AggregateCall) (pivot : Expr) (value : Cell) : Expr :=
  .call call.name call.distinct
    [.case [(.compare .eq pivot (.literal value), pivotArgument call.args)] (some (.literal .null))]

def pivotItem (pivot : Expr) (values : List Cell) (item : SelectItem) : List SelectItem :=
  match item.expr.aggregate? with
  | none => [item]
  | some call => values.map fun v =>
    ⟨pivotCall call pivot v, (pivotCall call pivot v).text, some (v.key ++ " " ++ item.title)⟩

def pivoted (s : Statement) (pivot : Expr) (values : List Cell) : Statement :=
  { s with items := s.items.flatMap (pivotItem pivot values), pivot := none }

end GridQuery
