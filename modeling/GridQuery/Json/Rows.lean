import GridQuery.Json.Value
import GridQuery.Table.Settings

/-!
Rows of cells and settings of tables in JSON. A row is an array of nulls, truth values, numbers and
texts, of which one in the form of a moment is a date. Rows are written on one line, or spread over
lines with an indent of two for each level.
-/

namespace GridQuery
set_option autoImplicit false

namespace JsonValue

def cell? : JsonValue → Option Cell
  | null => some .null
  | boolean b => some (.boolean b)
  | number l => l.value?.map .number
  | string text => text.map fun s =>
    match Calendar.readPattern Calendar.dataPattern s.toList with
    | some m => .date m
    | none => .text s
  | _ => none

def row? : JsonValue → Option Row
  | array items => items.mapM cell?
  | _ => none

def rows? : JsonValue → Option (List Row)
  | array items => items.mapM row?
  | _ => none

def asText? : JsonValue → Option String
  | string text => text
  | _ => none

def asCount? : JsonValue → Option Nat
  | number l => l.count?
  | _ => none

def asTruth? : JsonValue → Option Bool
  | boolean b => some b
  | _ => none

/-- A setting from its entries as they are given, only the name being needed. -/
def settingsOf? (name location cache titled : Option JsonValue) : Option TableSettings := do
  let name ← asText? (← name)
  let location ← location.elim (some "") asText?
  let cache ← cache.elim (some TableSettings.defaultCacheSeconds) asCount?
  let titled ← titled.elim (some true) asTruth?
  some ⟨name, location, cache, titled⟩

def settingKeys : List String :=
  ["name", "location", "cache_seconds", "has_column_titles"]

def member? (members : List (Option String × JsonValue)) (key : String) : Option JsonValue :=
  members.lookup (some key)

/-- A setting from an object, which has each key once and may have others, or from an array of up to
four entries in the order of the keys. -/
def settings? : JsonValue → Option TableSettings
  | array items =>
    if 4 < items.length then none else settingsOf? items[0]? items[1]? items[2]? items[3]?
  | object members =>
    let keys := members.map Prod.fst
    if keys.contains none || settingKeys.any fun k => decide (1 < keys.count (some k)) then none
    else settingsOf? (member? members "name") (member? members "location")
      (member? members "cache_seconds") (member? members "has_column_titles")
  | _ => none

/-- A character within a quoted text. -/
def quotedChar (c : Char) : List Char :=
  if c = '\x22' ∨ c = '\\' then ['\\', c]
  else if c = '\x08' then ['\\', 'b']
  else if c = '\t' then ['\\', 't']
  else if c = '\n' then ['\\', 'n']
  else if c = '\x0c' then ['\\', 'f']
  else if c = '\r' then ['\\', 'r']
  else if c < ' ' then ['\\', 'u', '0', '0', Text.hexDigit (c.toNat / 16), Text.hexDigit (c.toNat % 16)]
  else [c]

def quotedText (s : String) : String :=
  String.ofList (('\x22' :: s.toList.flatMap quotedChar) ++ ['\x22'])

/-- Items within brackets on one line. -/
def inline (items : List String) : String :=
  "[" ++ ",".intercalate items ++ "]"

/-- Items within brackets, one on a line, the closing bracket behind `indent`. -/
def spread (indent : String) (items : List String) : String :=
  if items.isEmpty then "[]"
  else
    let line := "\n" ++ indent ++ "  "
    "[" ++ line ++ ("," ++ line).intercalate items ++ "\n" ++ indent ++ "]"

end JsonValue

/-- A cell as JSON; what is no finite number is null. -/
def Cell.jsonText : Cell → String
  | null => "null"
  | boolean b => if b then "true" else "false"
  | number x =>
    match Number.parts x with
    | .finite .. => Number.jsonText x
    | _ => "null"
  | date m => JsonValue.quotedText m.isoText
  | text s => JsonValue.quotedText s

def rowsText (rows : List Row) : String :=
  JsonValue.inline (rows.map fun row => JsonValue.inline (row.map Cell.jsonText))

def spreadRowsText (rows : List Row) : String :=
  JsonValue.spread "" (rows.map fun row => JsonValue.spread "  " (row.map Cell.jsonText))

def rowsOfText? (s : String) : Option (List Row) :=
  (JsonValue.ofText? s).bind JsonValue.rows?

def settingsOfText? (s : String) : Option TableSettings :=
  (JsonValue.ofText? s).bind JsonValue.settings?

end GridQuery
