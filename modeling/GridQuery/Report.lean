import GridQuery.Formula.Value
import GridQuery.Json.Rows

/-!
Results as they are printed: columns of text under their titles, or rows as JSON.
-/

namespace GridQuery
set_option autoImplicit false

inductive ReportFormat where
  | table
  | json
deriving DecidableEq, Repr

def columnWidths (rows : List (List String)) : List Nat :=
  let count := (rows.map List.length).foldl max 0
  (List.range count).map fun i =>
    ((rows.filterMap fun row => row[i]?).map String.length).foldl max 0

def padRight (s : String) (width : Nat) : String :=
  s ++ String.ofList (List.replicate (width - s.length) ' ')

def columnLine (widths : List Nat) (row : List String) : String :=
  let line := " | ".intercalate (List.zipWith padRight row widths)
  String.ofList (Text.trimRight line.toList)

def ruleLine (widths : List Nat) : String :=
  "-+-".intercalate (widths.map fun w => String.ofList (List.replicate w '-'))

/-- The lines of a table, a rule behind the first if that holds titles. -/
def tableLines (titled : Bool) (rows : List Row) : List String :=
  let texts := rows.map fun row => row.map Cell.key
  let widths := columnWidths texts
  let lines := texts.map (columnLine widths)
  if titled then lines.take 1 ++ ruleLine widths :: lines.drop 1 else lines

def ResultSet.report (r : ResultSet) (format : ReportFormat) (titled : Bool) : String :=
  match format with
  | .table =>
    String.join ((tableLines (titled && !r.titles.isEmpty) (r.shown titled)).map fun l => l ++ "\n")
  | .json => spreadRowsText (r.shown titled)

end GridQuery
