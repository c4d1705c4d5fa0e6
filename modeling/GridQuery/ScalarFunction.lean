import GridQuery.Error

/-!
The functions of one row's values: numbers, text and moments. An argument that does not read as what
a function wants makes the result null; positions in text count characters from one.
-/

namespace GridQuery
set_option autoImplicit false

inductive ScalarFunction where
  | abs
  | ceiling
  | floor
  | round
  | sqrt
  | power
  | log
  | log10
  | left
  | right
  | length
  | lower
  | upper
  | trimLeft
  | trimRight
  | trim
  | substring
  | reverse
  | replicate
  | space
  | stuff
  | charIndex
  | concatWith
  | concat
  | coalesce
  | convert
  | year
  | month
  | day
  | now
deriving DecidableEq, Repr

namespace ScalarFunction

/-- The names of the functions; some have two. -/
def names : List (String × ScalarFunction) :=
  [("ABS", abs), ("CEILING", ceiling), ("CEIL", ceiling), ("FLOOR", floor), ("ROUND", round),
    ("SQRT", sqrt), ("POWER", power), ("POW", power), ("LOG", log), ("LOG10", log10),
    ("LEFT", left), ("RIGHT", right), ("LEN", length), ("LENGTH", length), ("LOWER", lower),
    ("UPPER", upper), ("LTRIM", trimLeft), ("RTRIM", trimRight), ("TRIM", trim),
    ("SUBSTRING", substring), ("SUBSTR", substring), ("REVERSE", reverse),
    ("REPLICATE", replicate), ("SPACE", space), ("STUFF", stuff), ("CHARINDEX", charIndex),
    ("CONCAT_WS", concatWith), ("CONCAT", concat), ("COALESCE", coalesce), ("CONVERT", convert),
    ("YEAR", year), ("MONTH", month), ("DAY", day), ("NOW", now)]

def ofName? (name : String) : Option ScalarFunction :=
  names.lookup (Text.asciiUpper name)

def arity : ScalarFunction → Arity
  | now => ⟨0, some 0⟩
  | abs | ceiling | floor | sqrt | log | log10 | length | lower | upper | trimLeft | trimRight
  | trim | reverse | space | year | month | day => ⟨1, some 1⟩
  | round => ⟨1, some 2⟩
  | power | left | right | replicate | convert => ⟨2, some 2⟩
  | substring | charIndex => ⟨2, some 3⟩
  | stuff => ⟨4, some 4⟩
  | concatWith => ⟨2, none⟩
  | concat | coalesce => ⟨1, none⟩

def checkArity (f : ScalarFunction) (name : String) (count : Nat) : Except QueryError Unit :=
  if f.arity.admits count then .ok () else .error (.argumentCount name f.arity count)

/-- The largest count; one that is larger counts as this. -/
def maxCount : Nat := Number.twoPow 64 - 1

/-- The most bytes of a text made by repetition. -/
def maxRepeated : Nat := Number.twoPow 24

def number? (args : List Cell) (i : Nat) : Option Float :=
  (args[i]?).bind Cell.asNumber?

def chars (args : List Cell) (i : Nat) : List Char :=
  ((args[i]?).map fun c => c.key.toList).getD []

/-- A count; what is no positive number counts as zero. -/
def count (args : List Cell) (i : Nat) : Nat :=
  ((number? args i).map (Number.clampToNat maxCount)).getD 0

/-- A position from one on, counted from zero. -/
def offset (args : List Cell) (i : Nat) : Nat :=
  max (count args i) 1 - 1

def ofChars (cs : List Char) : Cell :=
  .text (String.ofList cs)

def counted (n : Nat) : Cell :=
  .number (Float.ofNat n)

def numeric (f : Float → Float) (args : List Cell) : Cell :=
  match number? args 0 with
  | some x => .number (f x)
  | none => .null

def leftOf (n : Nat) (cs : List Char) : List Char :=
  cs.take n

def rightOf (n : Nat) (cs : List Char) : List Char :=
  cs.drop (cs.length - min n cs.length)

/-- Replaces `length` characters behind the first `start` ones. -/
def stuffed (start length : Nat) (cs replacement : List Char) : List Char :=
  cs.take start ++ replacement ++ cs.drop (start + length)

/-- How many characters stand before the first place where `needle` begins. -/
def indexOf? (needle : List Char) (cs : List Char) : Option Nat :=
  if needle.isPrefixOf cs then some 0
  else match cs with
    | [] => none
    | _ :: r => (indexOf? needle r).map (· + 1)

/-- Puts `cs` in front of `tail` again and again. -/
def prepend (cs : List Char) : Nat → List Char → List Char
  | 0, tail => tail
  | times + 1, tail => prepend cs times (cs ++ tail)

/-- A text again and again, null if that is too long. -/
def repeated (cs : List Char) (times : Nat) : Cell :=
  if cs.isEmpty then .text ""
  else if Text.byteLength cs * times ≤ maxRepeated then ofChars (prepend cs times [])
  else .null

def joinChars (separator : List Char) (parts : List (List Char)) : List Char :=
  separator.intercalate parts

/-- Rounds to a number of decimal places, which may be negative. -/
def roundTo (places x : Float) : Float :=
  let scale := Float.pow 10.0 (Number.trunc places)
  Number.round (x * scale) / scale

def datePart (f : Calendar.Day → Int) (args : List Cell) : Cell :=
  match (args[0]?).bind Cell.asMoment? with
  | some m => .number (Float.ofInt (f m.date))
  | none => .null

/-- A value as another type; any word that names no number or date type means text. -/
def converted (value : Cell) (target : String) : Cell :=
  if value.isNull then .null
  else
    let word := Text.asciiUpper target
    if ["SIGNED", "UNSIGNED", "INT", "INTEGER"].contains word then
      match value.asNumber? with
      | some x => .number (Number.trunc x)
      | none => .null
    else if ["DECIMAL", "FLOAT", "NUMERIC", "REAL", "DOUBLE"].contains word then
      match value.asNumber? with
      | some x => .number x
      | none => .null
    else if ["DATE", "DATETIME"].contains word then
      match value.asMoment? with
      | some m => .date m
      | none => .null
    else .text value.key

/-- The value of a function; `clock` is the moment the query runs at. -/
def apply (clock : Calendar.Moment) (f : ScalarFunction) (args : List Cell) : Cell :=
  match f with
  | abs => numeric Float.abs args
  | ceiling => numeric Number.ceil args
  | floor => numeric Number.floor args
  | sqrt => numeric Float.sqrt args
  | log => numeric Float.log args
  | log10 => numeric Float.log10 args
  | round => numeric (roundTo ((number? args 1).getD 0.0)) args
  | power =>
    match number? args 0, number? args 1 with
    | some x, some y => .number (Float.pow x y)
    | _, _ => .null
  | left => ofChars (leftOf (count args 1) (chars args 0))
  | right => ofChars (rightOf (count args 1) (chars args 0))
  | length => counted (chars args 0).length
  | lower => .text (Text.toLower (String.ofList (chars args 0)))
  | upper => .text (Text.toUpper (String.ofList (chars args 0)))
  | trimLeft => ofChars (Text.trimLeft (chars args 0))
  | trimRight => ofChars (Text.trimRight (chars args 0))
  | trim => ofChars (Text.trimChars (chars args 0))
  | reverse => ofChars (chars args 0).reverse
  | substring =>
    let rest := (chars args 0).drop (offset args 1)
    ofChars (if args.length ≤ 2 then rest else rest.take (count args 2))
  | replicate => repeated (chars args 0) (count args 1)
  | space => repeated [' '] (count args 0)
  | stuff => ofChars (stuffed (offset args 1) (count args 2) (chars args 0) (chars args 3))
  | charIndex =>
    let start := if args.length ≤ 2 then 0 else offset args 2
    match indexOf? (chars args 0) ((chars args 1).drop start) with
    | some i => counted (min maxCount (start + (i + 1)))
    | none => counted 0
  | concatWith =>
    let parts := (args.drop 1).filter fun c => !c.isNull
    ofChars (joinChars (chars args 0) (parts.map fun c => c.key.toList))
  | concat => ofChars (args.flatMap fun c => c.key.toList)
  | coalesce => (args.find? fun c => !c.isNull).getD .null
  | convert =>
    match args with
    | [] => .null
    | value :: _ => converted value (String.ofList (chars args 1))
  | year => datePart Calendar.Day.year args
  | month => datePart (fun d => Int.ofNat d.month) args
  | day => datePart (fun d => Int.ofNat d.day) args
  | now => .date clock

end ScalarFunction

end GridQuery
