import GridQuery.Json.Rows

/-!
Tables and settings in files. A file of a table holds its rows, and texts that read as moments become
dates. A file of settings holds a row for each table; a relative place in it starts at the folder
the file itself is in.
-/

namespace GridQuery
set_option autoImplicit false

/-- The texts of the files that can be read, by path. -/
abbrev Files := String → Option String

/-- Takes empty names and points off the end of a path, which is given last character first. -/
def dropPoints : List Char → List Char
  | '/' :: r => dropPoints r
  | ['.'] => []
  | '.' :: '/' :: r => dropPoints ('/' :: r)
  | r => r

/-- How much of a path is never taken off: a slash or a point at its beginning. -/
def pathRoot : List Char → Nat
  | '/' :: _ => 1
  | ['.'] => 1
  | '.' :: '/' :: _ => 1
  | _ => 0

/-- The folder of a path: the path without its last name. -/
def folderOf (path : String) : String :=
  let cs := path.toList
  let names := dropPoints (cs.drop (pathRoot cs)).reverse
  let others := dropPoints (names.dropWhile fun c => c != '/')
  String.ofList (cs.take (pathRoot cs) ++ others.reverse)

/-- A path as seen from a folder; one that begins with a slash stays. -/
def pathFrom (folder path : String) : String :=
  match path.toList, folder.toList.reverse with
  | '/' :: _, _ => path
  | _, [] => path
  | _, '/' :: _ => folder ++ path
  | _, _ => folder ++ "/" ++ path

/-- The names of a path without empty ones and points. -/
def pathNames (path : String) : List (List Char) :=
  (path.toList.splitOn '/').filter fun n => n != [] && n != ['.']

/-- Whether a folder is there: the first one, or one that a file is below. -/
def hasFolder (files : List (String × String)) (folder : List (List Char)) : Bool :=
  folder.isEmpty || files.any fun f =>
    decide (folder.length < (pathNames f.1).length) && folder.isPrefixOf (pathNames f.1)

/-- Where the names of a path lead to from a folder, without leaving the first one. -/
def follow? (files : List (String × String)) (here : List (List Char)) :
    List (List Char) → Option (List (List Char))
  | [] => some here
  | name :: names =>
    if !hasFolder files here then none
    else if name = [] ∨ name = ['.'] then follow? files here names
    else if name ≠ ['.', '.'] then follow? files (here ++ [name]) names
    else if here.isEmpty then none
    else follow? files here.dropLast names

namespace Files

/-- Files that are given with their paths within one folder; a path twice is the later file. -/
def ofList (files : List (String × String)) : Files := fun path =>
  match path.toList with
  | '/' :: _ => none
  | cs => (follow? files [] (cs.splitOn '/')).bind fun names =>
    (files.reverse.find? fun f => pathNames f.1 == names).map Prod.snd

def rows (files : Files) (path : String) : Except QueryError (List Row) :=
  match files path with
  | none => .error (.unreadable path)
  | some text =>
    match rowsOfText? text with
    | some rows => .ok rows
    | none => .error (.malformedJson path)

/-- A text that reads as a moment is the date. -/
def dated : Cell → Cell
  | .text s =>
    match Calendar.ofText? s with
    | some m => .date m
    | none => .text s
  | c => c

def tableRows (files : Files) (s : TableSettings) : Except QueryError (List Row) :=
  (files.rows s.location).map fun rows => rows.map fun row => row.map dated

def settings (files : Files) (path : String) : Except QueryError (List TableSettings) := do
  let rows ← files.rows path
  let settings ← TableSettings.ofRows rows
  .ok (settings.map fun s => { s with place := pathFrom (folderOf path) s.location })

end Files

end GridQuery
