/-!
The doubles that number cells hold, read through their bits: sign, magnitude and exponent of a
finite one, whole-number rounding in four directions, the exact remainder, and two orders. The
numeric order takes the two zeros for equal and leaves out the value that is not a number; the
total order ranks the negative zero below the positive one.
-/

namespace GridQuery.Number
set_option autoImplicit false

def twoPow (n : Nat) : Nat :=
  Nat.pow 2 n

def tenPow (n : Nat) : Nat :=
  Nat.pow 10 n

/-- A double taken apart: a finite one is `magnitude * 2 ^ exponent` with its sign. -/
inductive Parts where
  | notANumber
  | infinite (negative : Bool)
  | finite (negative : Bool) (magnitude : Nat) (exponent : Int)

def isNegative (x : Float) : Bool :=
  decide (twoPow 63 ≤ x.toBits.toNat)

def parts (x : Float) : Parts :=
  let field := x.toBits.toNat / twoPow 52 % twoPow 11
  let fraction := x.toBits.toNat % twoPow 52
  if field = 2047 then
    if fraction = 0 then .infinite (isNegative x) else .notANumber
  else if field = 0 then .finite (isNegative x) fraction (-1074)
  else .finite (isNegative x) (twoPow 52 + fraction) (Int.ofNat field - 1075)

def signed (negative : Bool) (x : Float) : Float :=
  if negative then -x else x

/-- `m * 2 ^ e` with a sign, where that is a double; digits below the last place are cut off. -/
def ofDyadic (negative : Bool) (m : Nat) (e : Int) : Float :=
  if m = 0 then signed negative 0.0
  else
    let place := max (Int.ofNat m.log2 - 52 + e) (-1074)
    let scaled := if e ≤ place then m / twoPow (place - e).toNat else m * twoPow (e - place).toNat
    let bits := if scaled < twoPow 52 then scaled else (place + 1075).toNat * twoPow 52 + (scaled - twoPow 52)
    signed negative (Float.ofBits (UInt64.ofNat bits))

def wholePart (m : Nat) (e : Int) : Nat :=
  if 0 ≤ e then m * twoPow e.toNat else m / twoPow (-e).toNat

/-- Twice `m * 2 ^ e`, plus one, halved: the nearest whole number, a half going up. -/
def nearestWhole (m : Nat) (e : Int) : Nat :=
  if 0 ≤ e then m * twoPow e.toNat else (2 * m + twoPow (-e).toNat) / (2 * twoPow (-e).toNat)

def isWhole (m : Nat) (e : Int) : Bool :=
  if 0 ≤ e then true else m % twoPow (-e).toNat == 0

/-- Rounds a finite double to a whole number, its sign kept; others stay. -/
def roundBy (whole : Bool → Nat → Int → Nat) (x : Float) : Float :=
  match parts x with
  | .finite negative m e => ofDyadic negative (whole negative m e) 0
  | _ => x

def trunc (x : Float) : Float :=
  roundBy (fun _ m e => wholePart m e) x

def floor (x : Float) : Float :=
  roundBy (fun negative m e => if negative && !isWhole m e then wholePart m e + 1 else wholePart m e) x

def ceil (x : Float) : Float :=
  roundBy (fun negative m e => if negative || isWhole m e then wholePart m e else wholePart m e + 1) x

def round (x : Float) : Float :=
  roundBy (fun _ m e => nearestWhole m e) x

/-- The remainder of dividing toward zero: exact, with the sign of the dividend. -/
def remainder (x y : Float) : Float :=
  match parts x, parts y with
  | .finite nx mx ex, .finite _ my ey =>
    if my = 0 then 0.0 / 0.0
    else
      let e := min ex ey
      ofDyadic nx ((mx * twoPow (ex - e).toNat) % (my * twoPow (ey - e).toNat)) e
  | .finite .., .infinite _ => x
  | _, _ => 0.0 / 0.0

/-- The whole part as a count within `limit`: what is negative or not a number counts as zero. -/
def clampToNat (limit : Nat) (x : Float) : Nat :=
  match parts x with
  | .finite false m e => min limit (wholePart m e)
  | .infinite false => limit
  | _ => 0

/-- Place of a double in the numeric order; the zeros share theirs, and `none` is not a number. -/
def rank? (x : Float) : Option Int :=
  let magnitude := Int.ofNat (x.toBits.toNat % twoPow 63)
  match parts x with
  | .notANumber => none
  | _ => some (if isNegative x then -magnitude else magnitude)

/-- Numeric comparison; nothing compares with what is not a number. -/
def order? (x y : Float) : Option Ordering :=
  match rank? x, rank? y with
  | some i, some j => some (compare i j)
  | _, _ => none

def equal (x y : Float) : Bool :=
  order? x y == some .eq

/-- Place of a double in the total order: negative zero is below zero, and what is not a number is
above everything. -/
def totalRank (x : Float) : Int :=
  match parts x with
  | .notANumber => Int.ofNat (twoPow 63)
  | _ =>
    let magnitude := Int.ofNat (x.toBits.toNat % twoPow 63)
    if isNegative x then -magnitude - 1 else magnitude

end GridQuery.Number
