import GridQuery.CommandLine
import Std.Time.Zoned

/-!
The program: reads the files that a request names and prints its result.
-/

namespace GridQuery
set_option autoImplicit false

def readText (path : String) : IO (Option String) := do
  try
    let text ← IO.FS.readFile path
    pure (some text)
  catch _ => pure none

def readTexts (paths : List String) : IO Files := do
  let texts ← paths.mapM fun path => do
    let text ← readText path
    pure (path, text)
  pure fun path => (texts.lookup path).join

def readClock : IO Calendar.Moment := do
  let t ← Std.Time.PlainDateTime.now
  let second := t.time.hour.toNat * 3600 + t.time.minute.toNat * 60 + t.time.second.toNat
  pure ⟨⟨t.date.year.toInt, t.date.month.toNat, t.date.day.toNat⟩, second, t.time.nanosecond.toNat⟩

def answerRequest (r : Request) : IO UInt32 := do
  let listed ← readTexts r.settings.toList
  let paths := match r.allSettings listed with
    | .ok settings => settings.map TableSettings.location
    | .error _ => []
  let files ← readTexts (r.settings.toList ++ paths)
  match r.output files (← readClock) with
  | .ok text => do
    IO.print text
    if r.format = .json then IO.println ""
    pure 0
  | .error e => do
    IO.eprintln ("Error: " ++ e.message)
    pure 1

def answerCommand (c : CommandLine) : IO UInt32 := do
  match c.text, c.file with
  | none, some path => do
    match ← readText path with
    | some text => answerRequest (c.request text)
    | none => do
      IO.eprintln ("Error: " ++ "cannot read " ++ path)
      pure 1
  | text, _ => answerRequest (c.request (text.getD ""))

end GridQuery

def main (args : List String) : IO UInt32 := do
  match GridQuery.CommandLine.read {} args with
  | .ok c => GridQuery.answerCommand c
  | .error e => do
    IO.eprintln ("error: " ++ e.message)
    pure 2
