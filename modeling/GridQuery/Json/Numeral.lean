import GridQuery.Number.Numeral

/-!
JSON numbers as they are written, and the doubles they stand for. The leading digits that fit into
64 bits make a whole number, which one multiplication or division by a power of ten brings to its
size; a number that is too large for a double stands for none.
-/

namespace GridQuery
set_option autoImplicit false

structure JsonNumeral where
  negative : Bool
  whole : List Char
  fraction : List Char
  exponent : Option Int
deriving DecidableEq, Repr

namespace JsonNumeral

/-- Takes digits up into a number of 64 bits while they fit; the others are left over. -/
def absorb (n : Nat) : List Char → Nat × List Char
  | [] => (n, [])
  | c :: r =>
    let next := 10 * n + Text.digitsValue [c]
    if next < Number.twoPow 64 then absorb next r else (n, c :: r)

def powerOfTen (n : Nat) : Float :=
  Number.nearest 1 (Int.ofNat n)

/-- Divides by a power of ten, the largest one at a time. -/
def divided (x : Float) (places : Nat) : Float :=
  if 308 < places then
    if Number.equal x 0.0 then x else divided (x / powerOfTen 308) (places - 308)
  else x / powerOfTen places
termination_by places
decreasing_by omega

/-- `n * 10 ^ e`, unless that is too large. -/
def scaled? (n : Nat) (e : Int) : Option Float :=
  let x := Number.nearest n 0
  if e < 0 then some (divided x (-e).toNat)
  else if n = 0 then some x
  else if 308 < e then none
  else
    let y := x * powerOfTen e.toNat
    match Number.parts y with
    | .finite .. => some y
    | _ => none

def value? (l : JsonNumeral) : Option Float :=
  let (n, dropped) := absorb 0 l.whole
  let (n, unread) := absorb n l.fraction
  let places := Int.ofNat l.fraction.length - Int.ofNat unread.length
  let e := Int.ofNat dropped.length - places + l.exponent.getD 0
  (scaled? n e).map (Number.signed l.negative)

/-- A count of 64 bits, written without point, exponent and sign. -/
def count? (l : JsonNumeral) : Option Nat :=
  let n := Text.digitsValue l.whole
  if l.negative || !l.fraction.isEmpty || l.exponent.isSome || decide (Number.twoPow 64 ≤ n) then none
  else some n

end JsonNumeral

end GridQuery
