import GridQuery.Table

/-!
Settings of tables: where each one is found, how long it may be kept, and whether its first row
holds titles. A setting is read from a row of up to four cells, or from the `NAME=PATH` form.
-/

namespace GridQuery
set_option autoImplicit false

structure TableSettings where
  name : String
  /-- Where the data is; the name, where this is empty. -/
  place : String
  cacheSeconds : Nat
  hasTitles : Bool
deriving DecidableEq, Repr

namespace TableSettings

def defaultCacheSeconds : Nat := 60

def location (s : TableSettings) : String :=
  if s.place = "" then s.name else s.place

/-- A cell of a setting that is given: there and not null. -/
def given? (row : Row) (i : Nat) : Option Cell :=
  (row[i]?).filter fun c => !c.isNull

def cacheOf (position : Nat) (cell : Cell) : Except QueryError Nat :=
  match cell.asNumber? with
  | some x =>
    match Number.order? x 0.0 with
    | some .eq | some .gt => .ok (Number.clampToNat (Number.twoPow 64 - 1) x)
    | _ => .error (.settingCache position cell.key)
  | none => .error (.settingCache position cell.key)

/-- Anything but a few words for no is a yes. -/
def flagOf : Cell → Bool
  | .boolean b => b
  | c => !(["false", "0", "no"].contains (Text.asciiLower (Text.trim c.key)))

/-- One setting, `position` counting from one. -/
def ofRow (position : Nat) (row : Row) : Except QueryError TableSettings :=
  match row with
  | [] => .error (.settingEntries position 0)
  | first :: _ =>
    if 4 < row.length then .error (.settingEntries position row.length)
    else
      let name := Text.trim first.key
      if name = "" then .error (.settingWithoutName position)
      else do
        let cacheSeconds ← match given? row 2 with
          | some c => cacheOf position c
          | none => .ok defaultCacheSeconds
        .ok ⟨name, ((given? row 1).map Cell.key).getD name, cacheSeconds,
          ((given? row 3).map flagOf).getD true⟩

def ofRows (rows : List Row) : Except QueryError (List TableSettings) :=
  rows.zipIdx.mapM fun r => ofRow (r.2 + 1) r.1

inductive ArgumentError where
  | withoutMark (arg : String)
  | withoutName (arg : String)
  | withoutPath (arg : String)

def ArgumentError.message : ArgumentError → String
  | withoutMark arg => "expected NAME=PATH, got '" ++ arg ++ "'"
  | withoutName arg => "missing table name in '" ++ arg ++ "'"
  | withoutPath arg => "missing path in '" ++ arg ++ "'"

/-- The mark of a table without titles, behind its path. -/
def untitledMark : List Char :=
  ":no-titles".toList

/-- A setting from `NAME=PATH`, without titles where the mark for that is behind the path. -/
def ofArgument (arg : String) : Except ArgumentError TableSettings :=
  let cs := arg.toList
  if !cs.contains '=' then .error (.withoutMark arg)
  else
    let name := Text.trimChars (cs.takeWhile fun c => c != '=')
    let path := (cs.dropWhile fun c => c != '=').drop 1
    let marked := untitledMark.isSuffixOf path
    let path := if marked then path.take (path.length - untitledMark.length) else path
    if name.isEmpty then .error (.withoutName arg)
    else if path.isEmpty then .error (.withoutPath arg)
    else .ok ⟨String.ofList name, String.ofList path, defaultCacheSeconds, !marked⟩

end TableSettings

def TableSettings.table (s : TableSettings) (rows : List Row) : Except QueryError Table :=
  if s.hasTitles then Table.ofRows s.name rows else Table.untitled s.name rows

def Tables.load (rowsOf : TableSettings → Except QueryError (List Row)) (settings : List TableSettings) :
    Except QueryError Tables :=
  settings.foldlM (fun tables s => do
    let rows ← rowsOf s
    let t ← s.table rows
    .ok (tables.insert t)) Tables.empty

end GridQuery
