import GridQuery.Json.Numeral

/-!
JSON texts. Reading keeps numbers as they are written, and a text that holds half of a surrogate pair
is kept as none, so that what nobody asks for need not stand for anything.
-/

namespace GridQuery
set_option autoImplicit false

inductive JsonValue where
  | null
  | boolean (value : Bool)
  | number (literal : JsonNumeral)
  | string (text : Option String)
  | array (items : List JsonValue)
  | object (members : List (Option String × JsonValue))
deriving Inhabited

namespace JsonValue

def isBlank (c : Char) : Bool :=
  c = ' ' || c = '\n' || c = '\t' || c = '\r'

def skipBlanks (cs : List Char) : List Char :=
  cs.dropWhile isBlank

/-- A piece of a text: a character, or sixteen bits that are written as an escape. -/
inductive Piece where
  | char (c : Char)
  | unit (n : Nat)

def hexDigit? (c : Char) : Option Nat :=
  if c.isDigit then some (c.toNat - 48)
  else if 'a' ≤ c ∧ c ≤ 'f' then some (c.toNat - 87)
  else if 'A' ≤ c ∧ c ≤ 'F' then some (c.toNat - 55)
  else none

def hexValue? (cs : List Char) : Option Nat :=
  (cs.mapM hexDigit?).map fun ds => ds.foldl (fun n d => 16 * n + d) 0

/-- The character of an escape of one letter. -/
def escaped? (c : Char) : Option Char :=
  if c = '\x22' ∨ c = '\\' ∨ c = '/' then some c
  else if c = 'b' then some '\x08'
  else if c = 'f' then some '\x0c'
  else if c = 'n' then some '\n'
  else if c = 'r' then some '\r'
  else if c = 't' then some '\t'
  else none

/-- The pieces of a text up to its closing quote, behind those in `done`. -/
def pieces? (done : List Piece) : List Char → Option (List Piece × List Char)
  | [] => none
  | '\\' :: 'u' :: a :: b :: c :: d :: r =>
    match hexValue? [a, b, c, d] with
    | some n => pieces? (.unit n :: done) r
    | none => none
  | '\\' :: c :: r =>
    match escaped? c with
    | some c => pieces? (.char c :: done) r
    | none => none
  | '\x22' :: r => some (done.reverse, r)
  | c :: r => if c < ' ' ∨ c = '\\' then none else pieces? (.char c :: done) r

def isLeading (n : Nat) : Bool :=
  decide (0xd800 ≤ n) && decide (n ≤ 0xdbff)

def isTrailing (n : Nat) : Bool :=
  decide (0xdc00 ≤ n) && decide (n ≤ 0xdfff)

def pairChar (leading trailing : Nat) : Char :=
  Char.ofNat (0x10000 + (leading - 0xd800) * 0x400 + (trailing - 0xdc00))

/-- The characters of pieces, surrogates in pairs only, behind those in `done`. -/
def charsOf? (done : List Char) : List Piece → Option (List Char)
  | [] => some done.reverse
  | .char c :: r => charsOf? (c :: done) r
  | .unit n :: .unit m :: r =>
    if isLeading n && isTrailing m then charsOf? (pairChar n m :: done) r
    else if isLeading n || isTrailing n then none
    else charsOf? (Char.ofNat n :: done) (.unit m :: r)
  | .unit n :: r =>
    if isLeading n || isTrailing n then none else charsOf? (Char.ofNat n :: done) r

def quoted? (cs : List Char) : Option (Option String × List Char) :=
  (pieces? [] cs).map fun p => ((charsOf? [] p.1).map String.ofList, p.2)

def digits? (cs : List Char) : Option (List Char × List Char) :=
  let ds := cs.takeWhile Char.isDigit
  if ds.isEmpty then none else some (ds, cs.dropWhile Char.isDigit)

/-- Digits before the point: a leading zero stands alone. -/
def whole? (cs : List Char) : Option (List Char × List Char) :=
  match digits? cs with
  | some ('0' :: _ :: _, _) => none
  | r => r

def fraction? (cs : List Char) : Option (List Char × List Char) :=
  match cs with
  | '.' :: r => digits? r
  | r => some ([], r)

def exponent? (cs : List Char) : Option (Option Int × List Char) :=
  match cs with
  | c :: r =>
    if c = 'e' ∨ c = 'E' then
      match r with
      | '-' :: r => (digits? r).map fun p => (some (-Int.ofNat (Text.digitsValue p.1)), p.2)
      | '+' :: r => (digits? r).map fun p => (some (Int.ofNat (Text.digitsValue p.1)), p.2)
      | r => (digits? r).map fun p => (some (Int.ofNat (Text.digitsValue p.1)), p.2)
    else some (none, cs)
  | [] => some (none, [])

def number? (cs : List Char) : Option (JsonValue × List Char) := do
  let (negative, cs) := match cs with
    | '-' :: r => (true, r)
    | r => (false, r)
  let (whole, r) ← whole? cs
  let (fraction, r) ← fraction? r
  let (exponent, r) ← exponent? r
  some (number ⟨negative, whole, fraction, exponent⟩, r)

def word? (word : List Char) (value : JsonValue) (cs : List Char) : Option (JsonValue × List Char) :=
  if word.isPrefixOf cs then some (value, cs.drop word.length) else none

def afterColon? (cs : List Char) : Option (List Char) :=
  match skipBlanks cs with
  | ':' :: r => some r
  | _ => none

mutual

/-- A value at the front of a text; `fuel` bounds the steps into and along it. -/
def value? (fuel : Nat) (cs : List Char) : Option (JsonValue × List Char) :=
  match fuel with
  | 0 => none
  | fuel + 1 =>
    match skipBlanks cs with
    | '\x22' :: r => (quoted? r).map fun p => (string p.1, p.2)
    | '[' :: r =>
      match skipBlanks r with
      | ']' :: r => some (array [], r)
      | r => items? fuel [] r
    | '\x7b' :: r =>
      match skipBlanks r with
      | '\x7d' :: r => some (object [], r)
      | r => members? fuel [] r
    | 'n' :: r => word? ['u', 'l', 'l'] null r
    | 't' :: r => word? ['r', 'u', 'e'] (boolean true) r
    | 'f' :: r => word? ['a', 'l', 's', 'e'] (boolean false) r
    | cs => number? cs

/-- The items of an array behind those in `done`, one at least, to its end. -/
def items? (fuel : Nat) (done : List JsonValue) (cs : List Char) : Option (JsonValue × List Char) :=
  match fuel with
  | 0 => none
  | fuel + 1 =>
    match value? fuel cs with
    | none => none
    | some (v, r) =>
      match skipBlanks r with
      | ',' :: r => items? fuel (v :: done) r
      | ']' :: r => some (array (v :: done).reverse, r)
      | _ => none

/-- The members of an object behind those in `done`, one at least, to its end. -/
def members? (fuel : Nat) (done : List (Option String × JsonValue)) (cs : List Char) :
    Option (JsonValue × List Char) :=
  match fuel with
  | 0 => none
  | fuel + 1 =>
    match skipBlanks cs with
    | '\x22' :: r =>
      match quoted? r with
      | none => none
      | some (key, r) =>
        match (afterColon? r).bind fun r => value? fuel r with
        | none => none
        | some (v, r) =>
          match skipBlanks r with
          | ',' :: r => members? fuel ((key, v) :: done) r
          | '\x7d' :: r => some (object ((key, v) :: done).reverse, r)
          | _ => none
    | _ => none

end

def ofText? (s : String) : Option JsonValue :=
  match value? (2 * s.toList.length + 2) s.toList with
  | some (v, r) => if (skipBlanks r).isEmpty then some v else none
  | none => none

end JsonValue

end GridQuery
