import GridQuery.Number.Decimal

/-!
Days and times of day in the Gregorian calendar, extended to all years that the store knows. A leap
second is the last second of its minute with a thousand million nanoseconds or more.
-/

namespace GridQuery.Calendar
set_option autoImplicit false

structure Day where
  year : Int
  month : Nat
  day : Nat
deriving DecidableEq, Repr

def isLeapYear (year : Int) : Bool :=
  year % 4 == 0 && (year % 100 != 0 || year % 400 == 0)

def monthLength (year : Int) (month : Nat) : Nat :=
  if month = 2 then (if isLeapYear year then 29 else 28)
  else if month = 4 ∨ month = 6 ∨ month = 9 ∨ month = 11 then 30
  else 31

def minYear : Int := -262143
def maxYear : Int := 262142

namespace Day

def Valid (d : Day) : Prop :=
  minYear ≤ d.year ∧ d.year ≤ maxYear ∧ 1 ≤ d.month ∧ d.month ≤ 12 ∧ 1 ≤ d.day ∧
    d.day ≤ monthLength d.year d.month

instance (d : Day) : Decidable d.Valid := by
  unfold Valid
  infer_instance

def of? (year : Int) (month day : Nat) : Option Day :=
  if Valid ⟨year, month, day⟩ then some ⟨year, month, day⟩ else none

/-- Days since the first of January 1970; March opens the year, so that a leap day ends it. -/
def number (d : Day) : Int :=
  let y := if d.month ≤ 2 then d.year - 1 else d.year
  let era := Int.fdiv y 400
  let yearOfEra := y - era * 400
  let shifted := Int.ofNat ((d.month + 9) % 12)
  let dayOfYear := (153 * shifted + 2) / 5 + Int.ofNat d.day - 1
  era * 146097 + yearOfEra * 365 + yearOfEra / 4 - yearOfEra / 100 + dayOfYear - 719468

def next (d : Day) : Option Day :=
  if d.day < monthLength d.year d.month then of? d.year d.month (d.day + 1)
  else if d.month < 12 then of? d.year (d.month + 1) 1
  else of? (d.year + 1) 1 1

def previous (d : Day) : Option Day :=
  if 1 < d.day then of? d.year d.month (d.day - 1)
  else if 1 < d.month then of? d.year (d.month - 1) (monthLength d.year (d.month - 1))
  else of? (d.year - 1) 12 31

end Day

structure Moment where
  date : Day
  second : Nat
  nano : Nat
deriving DecidableEq, Repr

namespace Moment

def midnight (d : Day) : Moment := ⟨d, 0, 0⟩

def isMidnight (m : Moment) : Bool :=
  m.second == 0 && m.nano == 0

/-- Place in time order; a leap second stands between its second and the next one. -/
def stamp (m : Moment) : Int :=
  (m.date.number * 86400 + Int.ofNat m.second) * 2000000000 + Int.ofNat m.nano

def epochMillis (m : Moment) : Int :=
  (m.date.number * 86400 + Int.ofNat m.second) * 1000 + Int.ofNat (m.nano / 1000000)

/-- Moves by less than a day, nanoseconds kept. -/
def shift? (m : Moment) (seconds : Int) : Option Moment :=
  let s := Int.ofNat m.second + seconds
  if s < 0 then m.date.previous.map fun d => ⟨d, (s + 86400).toNat, m.nano⟩
  else if 86400 ≤ s then m.date.next.map fun d => ⟨d, (s - 86400).toNat, m.nano⟩
  else some ⟨m.date, s.toNat, m.nano⟩

end Moment

/-- Four digits; a year outside 0 to 9999 has a sign. -/
def yearText (year : Int) : List Char :=
  if year < 0 then '-' :: Number.padded 4 year.natAbs
  else if year ≤ 9999 then Number.padded 4 year.natAbs
  else '+' :: Number.padded 4 year.natAbs

def dayText (d : Day) : List Char :=
  yearText d.year ++ '-' :: Number.padded 2 d.month ++ '-' :: Number.padded 2 d.day

/-- Hours, minutes and seconds; a leap second is second 60. -/
def clockText (m : Moment) : List Char :=
  let second := m.second % 60 + (if 1000000000 ≤ m.nano then 1 else 0)
  Number.padded 2 (m.second / 3600) ++ ':' :: Number.padded 2 (m.second / 60 % 60) ++
    ':' :: Number.padded 2 second

/-- No digits for a whole second, else three, six or nine, the fewest that are exact. -/
def fractionText (m : Moment) : List Char :=
  let nano := m.nano % 1000000000
  if nano = 0 then []
  else if nano % 1000000 = 0 then '.' :: Number.padded 3 (nano / 1000000)
  else if nano % 1000 = 0 then '.' :: Number.padded 6 (nano / 1000)
  else '.' :: Number.padded 9 nano

def Moment.isoText (m : Moment) : String :=
  String.ofList (dayText m.date ++ 'T' :: clockText m ++ fractionText m)

/-- The day alone at midnight, else day and time to the second. -/
def Moment.text (m : Moment) : String :=
  String.ofList (if m.isMidnight then dayText m.date else dayText m.date ++ ' ' :: clockText m)

end GridQuery.Calendar
