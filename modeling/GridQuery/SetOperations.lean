import GridQuery.Formula.Value

/-!
Set operations on results. Rows are the same row if they have the same signature; the titles are
those of the left operand.
-/

namespace GridQuery
set_option autoImplicit false

def combineRows (op : SetOperator) (left right : List Row) : List Row :=
  match op with
  | .unionAll => left ++ right
  | .union => keepFirst Row.signature [] (left ++ right)
  | .intersect =>
    let wanted := right.map Row.signature
    keepFirst Row.signature [] (left.filter fun row => wanted.contains row.signature)
  | .except =>
    let unwanted := right.map Row.signature
    left.filter fun row => !unwanted.contains row.signature

def ResultSet.combine (op : SetOperator) (left right : ResultSet) : Except QueryError ResultSet :=
  if left.titles.length = right.titles.length then
    .ok ⟨left.titles, combineRows op left.rows right.rows⟩
  else .error (.columnCounts op left.titles.length right.titles.length)

end GridQuery
