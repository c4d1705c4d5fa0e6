import GridQuery.Number.Decimal
import GridQuery.Text.Basic

/-!
Reading a double from text: an optional sign, then digits with an optional point and exponent, or
one of the words for infinity and for what is not a number. Nothing else may stand in the text.
-/

namespace GridQuery.Number
set_option autoImplicit false

/-- The double nearest to `coefficient * 10 ^ exponent`, ties to even. Far outside the range of
doubles the answer is zero or infinity at once. -/
def nearest (coefficient : Nat) (exponent : Int) : Float :=
  let size := Int.ofNat (digits coefficient).length + exponent
  if coefficient = 0 ∨ size < -400 then 0.0
  else if 400 < size then 1.0 / 0.0
  else if exponent < 0 then Float.ofScientific coefficient true (-exponent).toNat
  else Float.ofScientific (coefficient * tenPow exponent.toNat) false 0

/-- The exponent after its mark: an optional sign and at least one digit, to the end. -/
def exponent? (cs : List Char) : Option Int :=
  match cs with
  | [] => none
  | c :: r =>
    let (negative, ds) := if c = '-' then (true, r) else if c = '+' then (false, r) else (false, c :: r)
    if ds.isEmpty || !ds.all Char.isDigit then none
    else some (if negative then -Int.ofNat (Text.digitsValue ds) else Int.ofNat (Text.digitsValue ds))

/-- Digits with an optional point and exponent; one digit at least stands beside the point. -/
def unsigned? (cs : List Char) : Option Float :=
  let whole := cs.takeWhile Char.isDigit
  let afterWhole := cs.dropWhile Char.isDigit
  let (fraction, rest) := match afterWhole with
    | '.' :: r => (r.takeWhile Char.isDigit, r.dropWhile Char.isDigit)
    | r => ([], r)
  if whole.isEmpty && fraction.isEmpty then none
  else
    let coefficient := Text.digitsValue (whole ++ fraction)
    let places := Int.ofNat fraction.length
    match rest with
    | [] => some (nearest coefficient (-places))
    | c :: r =>
      if c = 'e' ∨ c = 'E' then (exponent? r).map fun e => nearest coefficient (e - places)
      else none

def word? (cs : List Char) : Option Float :=
  let lower := cs.map Char.toLower
  if lower = ['i', 'n', 'f'] ∨ lower = ['i', 'n', 'f', 'i', 'n', 'i', 't', 'y'] then some (1.0 / 0.0)
  else if lower = ['n', 'a', 'n'] then some (0.0 / 0.0)
  else none

def read? (cs : List Char) : Option Float :=
  let (negative, rest) := match cs with
    | '-' :: r => (true, r)
    | '+' :: r => (false, r)
    | r => (false, r)
  ((unsigned? rest).or (word? rest)).map (signed negative)

def ofText? (s : String) : Option Float :=
  read? s.toList

end GridQuery.Number
