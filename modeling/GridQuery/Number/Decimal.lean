import GridQuery.Number.Double

/-!
Decimal text of a double. The digits are the fewest that read back to the same double and, of
those, the nearest to it; what happens to an exact tie belongs to the text being written, as do the
place of the point and the form of an exponent.
-/

namespace GridQuery.Number
set_option autoImplicit false

def digitChar (n : Nat) : Char :=
  Char.ofNat (48 + n % 10)

def digits (n : Nat) : List Char :=
  if n < 10 then [digitChar n] else digits (n / 10) ++ [digitChar n]

def zeros (n : Nat) : List Char :=
  List.replicate n '0'

/-- Digits of `n`, filled up with leading zeros to `width`. -/
def padded (width n : Nat) : List Char :=
  zeros (width - (digits n).length) ++ digits n

def intDigits (i : Int) : List Char :=
  if i < 0 then '-' :: digits i.natAbs else digits i.natAbs

/-- `coefficient * 10 ^ exponent`. -/
structure Decimal where
  coefficient : Nat
  exponent : Int
deriving DecidableEq, Repr

namespace Decimal

/-- Takes trailing zeros off the coefficient; `fuel` bounds their number. -/
def strip : Nat → Decimal → Decimal
  | 0, d => d
  | fuel + 1, d =>
    if d.coefficient ≠ 0 ∧ d.coefficient % 10 = 0 then
      strip fuel ⟨d.coefficient / 10, d.exponent + 1⟩
    else d

/-- How many zeros stand between the point and the first digit of `num / den < 1`. -/
def leadingZeros (num den : Nat) : Nat :=
  if h : 0 < num ∧ num * 10 < den then leadingZeros (num * 10) den + 1 else 0
termination_by den - num

/-- The exponent `k` with `10 ^ (k - 1) ≤ num / den < 10 ^ k`. -/
def scale (num den : Nat) : Int :=
  if den ≤ num then Int.ofNat (digits (num / den)).length
  else -Int.ofNat (leadingZeros num den)

/-- Which way an exact tie between two decimals goes. -/
inductive Tie where
  | up
  | even

/-- The reals that round to a double, as numerators over one denominator. -/
structure Interval where
  low : Nat
  value : Nat
  high : Nat
  den : Nat
  closed : Bool

/-- The interval of `m * 2 ^ e`; below a power of two the doubles are half as far apart. -/
def interval (m : Nat) (e : Int) : Interval :=
  let low := if m = twoPow 52 ∧ -1074 < e then 4 * m - 1 else 4 * m - 2
  let up := twoPow (e - 2).toNat
  ⟨low * up, 4 * m * up, (4 * m + 2) * up, twoPow (2 - e).toNat, m % 2 = 0⟩

def Interval.holds (i : Interval) (num den : Nat) : Bool :=
  if i.closed then decide (i.low * den ≤ num * i.den) && decide (num * i.den ≤ i.high * den)
  else decide (i.low * den < num * i.den) && decide (num * i.den < i.high * den)

/-- The nearer of a value's two neighbours on the grid of step `10 ^ place` that lies in the
interval. -/
def onGrid? (tie : Tie) (i : Interval) (place : Int) : Option Nat :=
  let step := tenPow place.toNat
  let den := tenPow (-place).toNat
  let below := i.value * den / (i.den * step)
  let twice := 2 * i.value * den
  let middle := (2 * below + 1) * step * i.den
  match i.holds (below * step) den, i.holds ((below + 1) * step) den with
  | true, true =>
    if twice < middle then some below
    else if middle < twice then some (below + 1)
    else match tie with
      | .up => some (below + 1)
      | .even => some (if below % 2 = 0 then below else below + 1)
  | true, false => some below
  | false, true => some (below + 1)
  | false, false => none

/-- Tries grids of `count` digits and more, `left` of them. -/
def firstGrid (tie : Tie) (i : Interval) (top : Int) (count : Nat) : Nat → Decimal
  | 0 => ⟨i.value / i.den, 0⟩
  | left + 1 =>
    match onGrid? tie i (top - Int.ofNat count) with
    | some c => strip 400 ⟨c, top - Int.ofNat count⟩
    | none => firstGrid tie i top (count + 1) left

/-- The shortest decimal that reads back as `m * 2 ^ e`. -/
def shortest (tie : Tie) (m : Nat) (e : Int) : Decimal :=
  if m = 0 then ⟨0, 0⟩
  else
    let i := interval m e
    firstGrid tie i (scale i.value i.den) 1 17

def positional (d : Decimal) : List Char :=
  let ds := digits d.coefficient
  if d.coefficient = 0 then ['0']
  else if 0 ≤ d.exponent then ds ++ zeros d.exponent.toNat
  else
    let places := (-d.exponent).toNat
    if places < ds.length then
      ds.take (ds.length - places) ++ '.' :: ds.drop (ds.length - places)
    else '0' :: '.' :: zeros (places - ds.length) ++ ds

def pointed (d : Decimal) : List Char :=
  if 0 ≤ d.exponent then positional d ++ ['.', '0'] else positional d

/-- The exponent of the first digit. -/
def leading (d : Decimal) : Int :=
  d.exponent + Int.ofNat (digits d.coefficient).length - 1

/-- One digit before the point, then an exponent; `plus` stands before one that is not negative. -/
def scientific (plus : List Char) (d : Decimal) : List Char :=
  let mantissa := match digits d.coefficient with
    | [] => []
    | [c] => [c]
    | c :: r => c :: '.' :: r
  let mark := if d.leading < 0 then [] else plus
  mantissa ++ 'e' :: mark ++ intDigits d.leading

end Decimal

def writeWith (layout : Decimal → List Char) (tie : Decimal.Tie) (x : Float) : String :=
  match parts x with
  | .notANumber => "NaN"
  | .infinite negative => if negative then "-inf" else "inf"
  | .finite negative m e =>
    let text := layout (Decimal.shortest tie m e)
    String.ofList (if negative then '-' :: text else text)

/-- Positional at every size, no point for a whole number, a tie going up. -/
def plain (x : Float) : String :=
  writeWith Decimal.positional .up x

/-- With a fraction from `10 ^ -4` up to `10 ^ 16` and for zero, with an exponent elsewhere. -/
def tagged (x : Float) : String :=
  writeWith (fun d => if d.coefficient = 0 ∨ (-4 ≤ d.leading ∧ d.leading < 16) then d.pointed
    else d.scientific []) .up x

/-- With a fraction from `10 ^ -5` up to `10 ^ 16` and for zero, with a signed exponent elsewhere;
a tie goes to the even digit. -/
def jsonText (x : Float) : String :=
  writeWith (fun d => if d.coefficient = 0 ∨ (-5 ≤ d.leading ∧ d.leading < 16) then d.pointed
    else d.scientific ['+']) .even x

end GridQuery.Number
