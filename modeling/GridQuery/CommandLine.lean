import GridQuery.Request

/-!
The command line: options in any order around the query, which stands there itself or in a file.
The value of an option follows it as a word of its own or behind an equals sign.
-/

namespace GridQuery
set_option autoImplicit false

structure CommandLine where
  tables : List String := []
  settings : Option String := none
  binds : List String := []
  text : Option String := none
  file : Option String := none
  format : ReportFormat := .table
  titled : Bool := true

inductive UsageError where
  | unknownOption (word : String)
  | missingValue (word : String)
  | unknownFormat (value : String)
  | secondQuery (word : String)
  | withoutQuery

def UsageError.message : UsageError → String
  | unknownOption word => "unexpected argument '" ++ word ++ "' found"
  | missingValue word => "a value is required for '" ++ word ++ "' but none was supplied"
  | unknownFormat value => "invalid value '" ++ value ++ "' for '--format': expected table or json"
  | secondQuery word => "unexpected argument '" ++ word ++ "' found: the query is given already"
  | withoutQuery => "no query given: write it as an argument or name its file with --file"

namespace CommandLine

def flag? (c : CommandLine) (word : String) : Option CommandLine :=
  if word = "--no-titles" then some { c with titled := false }
  else if word = "--verbose" ∨ word = "-v" then some c
  else none

def setting? (word : String) : Option (CommandLine → String → Except UsageError CommandLine) :=
  if word = "--table" ∨ word = "-t" then some fun c v => .ok { c with tables := c.tables ++ [v] }
  else if word = "--bind" ∨ word = "-b" then some fun c v => .ok { c with binds := c.binds ++ [v] }
  else if word = "--settings" ∨ word = "-s" then some fun c v => .ok { c with settings := some v }
  else if word = "--file" ∨ word = "-f" then some fun c v =>
    if c.text.isSome then .error (.secondQuery word) else .ok { c with file := some v }
  else if word = "--format" then some fun c v =>
    if v = "table" then .ok { c with format := .table }
    else if v = "json" then .ok { c with format := .json }
    else .error (.unknownFormat v)
  else none

def query (c : CommandLine) (word : String) : Except UsageError CommandLine :=
  if c.text.isSome ∨ c.file.isSome then .error (.secondQuery word) else .ok { c with text := some word }

/-- A word with a value behind an equals sign. -/
def assigned? (word : String) : Option (String × String) :=
  let cs := word.toList
  if cs.contains '=' then
    some (String.ofList (cs.takeWhile fun c => c != '='),
      String.ofList ((cs.dropWhile fun c => c != '=').drop 1))
  else none

/-- A word that is no option by itself and takes no value from the next one. -/
def single (c : CommandLine) (word : String) : Except UsageError CommandLine :=
  if word.toList.head? ≠ some '-' then c.query word
  else match (assigned? word).bind fun p => (setting? p.1).map fun put => put c p.2 with
    | some r => r
    | none => .error (.unknownOption word)

def read (c : CommandLine) : List String → Except UsageError CommandLine
  | [] => if c.text.isNone ∧ c.file.isNone then .error .withoutQuery else .ok c
  | word :: words =>
    match c.flag? word with
    | some c => c.read words
    | none =>
      match setting? word with
      | some put =>
        match words with
        | [] => .error (.missingValue word)
        | value :: words => do
          let c ← put c value
          c.read words
      | none => do
        let c ← c.single word
        c.read words

def request (c : CommandLine) (text : String) : Request :=
  ⟨c.tables, c.settings, c.binds, text, c.format, c.titled⟩

end CommandLine

end GridQuery
