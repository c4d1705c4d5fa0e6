import GridQuery.Calendar.Moment
import GridQuery.Text.Basic

/-!
Reading days and times from text. A pattern is a list of parts, each of which takes its piece off
the front of the text; the whole text must be used up. A number may follow blanks and may have
fewer digits than its width.
-/

namespace GridQuery.Calendar
set_option autoImplicit false

inductive Part where
  | year
  | month
  | day
  | hour
  | minute
  | second
  | fraction
  /-- Any run of blanks, an empty one too. -/
  | blanks
  | mark (c : Char)
deriving DecidableEq, Repr

structure Fields where
  year : Int := 0
  month : Nat := 0
  day : Nat := 0
  hour : Nat := 0
  minute : Nat := 0
  second : Nat := 0
  nano : Nat := 0

def number? (width : Nat) (cs : List Char) : Option (Nat × List Char) :=
  let ds := (cs.take width).takeWhile Char.isDigit
  if ds.isEmpty then none else some (Text.digitsValue ds, cs.drop ds.length)

def fixed? (width : Nat) (cs : List Char) : Option (Nat × List Char) :=
  let ds := cs.take width
  if ds.length = width ∧ ds.all Char.isDigit then some (Text.digitsValue ds, cs.drop width) else none

def signedYear? (cs : List Char) : Option (Int × List Char) :=
  match cs with
  | '-' :: r => (number? r.length r).map fun p => (-Int.ofNat p.1, p.2)
  | '+' :: r => (number? r.length r).map fun p => (Int.ofNat p.1, p.2)
  | cs => (number? 4 cs).map fun p => (Int.ofNat p.1, p.2)

/-- Nanoseconds from the digits after a point; those beyond the ninth are passed over. -/
def nanos? (cs : List Char) : Option (Nat × List Char) :=
  match number? 9 cs with
  | none => none
  | some (n, r) => some (n * Number.tenPow (9 - (cs.length - r.length)), r.dropWhile Char.isDigit)

def readPart (p : Part) (f : Fields) (cs : List Char) : Option (Fields × List Char) :=
  let numeral := number? 2 (Text.trimLeft cs)
  match p with
  | .year => (signedYear? (Text.trimLeft cs)).map fun (n, r) => ({ f with year := n }, r)
  | .month => numeral.map fun (n, r) => ({ f with month := n }, r)
  | .day => numeral.map fun (n, r) => ({ f with day := n }, r)
  | .hour => numeral.map fun (n, r) => ({ f with hour := n }, r)
  | .minute => numeral.map fun (n, r) => ({ f with minute := n }, r)
  | .second => numeral.map fun (n, r) => ({ f with second := n }, r)
  | .fraction =>
    match cs with
    | '.' :: r => (nanos? r).map fun (n, r) => ({ f with nano := n }, r)
    | cs => some (f, cs)
  | .blanks => some (f, Text.trimLeft cs)
  | .mark c =>
    match cs with
    | d :: r => if d = c then some (f, r) else none
    | [] => none

/-- Reads all parts, and the text to its end. -/
def readParts : List Part → Fields → List Char → Option Fields
  | [], f, cs => if cs.isEmpty then some f else none
  | p :: ps, f, cs =>
    match readPart p f cs with
    | some (f, r) => readParts ps f r
    | none => none

def Fields.moment? (f : Fields) : Option Moment :=
  if f.hour ≤ 23 ∧ f.minute ≤ 59 ∧ f.second ≤ 60 then
    (Day.of? f.year f.month f.day).map fun d =>
      if f.second = 60 then ⟨d, f.hour * 3600 + f.minute * 60 + 59, f.nano + 1000000000⟩
      else ⟨d, f.hour * 3600 + f.minute * 60 + f.second, f.nano⟩
  else none

def readPattern (ps : List Part) (cs : List Char) : Option Moment :=
  (readParts ps {} cs).bind Fields.moment?

def timePatterns : List (List Part) :=
  [[.year, .mark '-', .month, .mark '-', .day, .mark 'T', .hour, .mark ':', .minute, .mark ':',
      .second, .fraction],
    [.year, .mark '-', .month, .mark '-', .day, .blanks, .hour, .mark ':', .minute, .mark ':',
      .second, .fraction],
    [.year, .mark '-', .month, .mark '-', .day, .blanks, .hour, .mark ':', .minute],
    [.month, .mark '/', .day, .mark '/', .year, .blanks, .hour, .mark ':', .minute, .mark ':',
      .second]]

def dayPatterns : List (List Part) :=
  [[.year, .mark '-', .month, .mark '-', .day],
    [.month, .mark '/', .day, .mark '/', .year],
    [.year, .mark '/', .month, .mark '/', .day]]

/-- The pattern of moments in data files, lenient about blanks. -/
def dataPattern : List Part :=
  [.year, .blanks, .mark '-', .month, .blanks, .mark '-', .day, .blanks, .mark 'T', .hour, .blanks,
    .mark ':', .minute, .blanks, .mark ':', .second, .fraction, .blanks]

def dropMark (c : Char) : List Char → Option (List Char)
  | d :: r => if d = c then some r else none
  | [] => none

/-- An offset from universal time in seconds, to the end of the text. -/
def offset? (cs : List Char) : Option Int :=
  match cs with
  | [] => none
  | c :: r =>
    if (c = 'Z' ∨ c = 'z') ∧ r.isEmpty then some 0
    else if c = '+' ∨ c = '-' ∨ c.toNat = 0x2212 then do
      let (h, r) ← fixed? 2 r
      let r ← dropMark ':' r
      let (m, r) ← fixed? 2 r
      if r.isEmpty ∧ h ≤ 23 ∧ m ≤ 59 then
        let seconds := Int.ofNat (h * 3600 + m * 60)
        some (if c = '+' then seconds else -seconds)
      else none
    else none

/-- A moment of the internet profile: full digits, and an offset which is taken off. -/
def universal? (cs : List Char) : Option Moment := do
  let (year, r) ← fixed? 4 cs
  let r ← dropMark '-' r
  let (month, r) ← fixed? 2 r
  let r ← dropMark '-' r
  let (day, r) ← fixed? 2 r
  let r ← ((dropMark 'T' r).or (dropMark 't' r)).or (dropMark ' ' r)
  let (hour, r) ← fixed? 2 r
  let r ← dropMark ':' r
  let (minute, r) ← fixed? 2 r
  let r ← dropMark ':' r
  let (second, r) ← fixed? 2 r
  let (nano, r) ← match r with
    | '.' :: r => nanos? r
    | r => some (0, r)
  let offset ← offset? r
  let moment ← Fields.moment? ⟨Int.ofNat year, month, day, hour, minute, second, nano⟩
  moment.shift? (-offset)

/-- A moment from free text that begins with a digit: the first form that fits, times before days. -/
def ofChars? (cs : List Char) : Option Moment :=
  if (cs.head?.map Char.isDigit).getD false then
    (universal? cs).or ((timePatterns ++ dayPatterns).findSome? fun ps => readPattern ps cs)
  else none

def ofText? (s : String) : Option Moment :=
  ofChars? s.toList

end GridQuery.Calendar
