import GridQuery.Error

/-!
Values for the placeholders of a query, in the order they were supplied; placeholders count from one.
-/

namespace GridQuery
set_option autoImplicit false

structure Binds where
  values : List Cell
deriving DecidableEq

namespace Binds

def empty : Binds := ⟨[]⟩

def size (b : Binds) : Nat :=
  b.values.length

def add (b : Binds) (c : Cell) : Binds :=
  ⟨b.values ++ [c]⟩

def lastName (b : Binds) : String :=
  "?" ++ String.ofList (Number.digits b.size)

def get (b : Binds) (n : Nat) : Except QueryError Cell :=
  match n with
  | 0 => .error (.missingBind 0 b.size)
  | i + 1 =>
    match b.values[i]? with
    | some c => .ok c
    | none => .error (.missingBind (i + 1) b.size)

def numberOf? (name : String) : Option Nat :=
  match Text.trimChars name.toList with
  | '?' :: r =>
    let ds := match r with
      | '+' :: r => r
      | r => r
    if ds.isEmpty || !ds.all Char.isDigit || decide (Number.twoPow 64 ≤ Text.digitsValue ds) then none
    else some (Text.digitsValue ds)
  | _ => none

def getNamed (b : Binds) (name : String) : Except QueryError Cell :=
  match numberOf? name with
  | some n => b.get n
  | none => .error (.malformedBindName name)

/-- Fails with the first missing value if there are fewer than `most`. -/
def require (b : Binds) (most : Nat) : Except QueryError Unit :=
  if b.size < most then .error (.missingBind (b.size + 1) b.size) else .ok ()

end Binds

end GridQuery
