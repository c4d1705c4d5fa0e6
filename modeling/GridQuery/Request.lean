import GridQuery.Files
import GridQuery.Query
import GridQuery.Report

/-!
Requests: one query over tables in files, from the names of the files to the printed result.
-/

namespace GridQuery
set_option autoImplicit false

structure Request where
  /-- Tables in the form `NAME=PATH`. -/
  tables : List String
  /-- A file with the settings of further tables. -/
  settings : Option String
  binds : List String
  text : String
  format : ReportFormat
  titled : Bool

inductive Refusal where
  | argument (error : TableSettings.ArgumentError)
  | query (error : QueryError)

def Refusal.message : Refusal → String
  | argument e => e.message
  | query e => e.message

namespace Request

def argumentSettings : List String → Except TableSettings.ArgumentError (List TableSettings)
  | [] => .ok []
  | arg :: args => do
    let s ← TableSettings.ofArgument arg
    let others ← argumentSettings args
    .ok (s :: others)

/-- The settings of all tables, those given directly first. -/
def allSettings (files : Files) (r : Request) : Except Refusal (List TableSettings) := do
  let given ← (argumentSettings r.tables).mapError .argument
  match r.settings with
  | none => .ok given
  | some path => do
    let listed ← (files.settings path).mapError .query
    .ok (given ++ listed)

def result (files : Files) (clock : Calendar.Moment) (r : Request) (settings : List TableSettings) :
    Except QueryError ResultSet := do
  let tables ← Tables.load files.tableRows settings
  query ⟨tables, ⟨r.binds.map Cell.infer⟩, clock⟩ r.text

/-- What is printed, without a line end behind JSON. -/
def output (files : Files) (clock : Calendar.Moment) (r : Request) : Except Refusal String := do
  let settings ← r.allSettings files
  let result ← (r.result files clock settings).mapError .query
  .ok (result.report r.format r.titled)

end Request

end GridQuery
