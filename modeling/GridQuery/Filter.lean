import GridQuery.Formula.Value

/-!
The rows that a condition selects, as ascending lists of row numbers. `AND` narrows the candidates
term by term, `OR` keeps those that some term selects, `NOT` those that its operand does not.
-/

namespace GridQuery
set_option autoImplicit false

namespace Rows

variable {σ : Type}

def keep (r : Rows σ) (t : Test) : List Nat → Run σ (List Nat)
  | [] => pure []
  | row :: rows => do
    let hit ← r.holds row t
    let others ← r.keep t rows
    pure (if hit then row :: others else others)

/-- The candidates that a condition without parts of its own selects. -/
def leaf (r : Rows σ) (c : Condition) (candidates : List Nat) : Run σ (List Nat) := do
  let t ← Run.of (r.scope.test c)
  r.keep t candidates

mutual

def select (r : Rows σ) (candidates : List Nat) : Condition → Run σ (List Nat)
  | .logic .and terms => r.narrow candidates terms
  | .logic .or terms => do
    let hits ← r.gather candidates terms
    pure (candidates.filter fun row => hits.contains row)
  | .not c => do
    let hits ← r.select candidates c
    pure (candidates.filter fun row => !hits.contains row)
  | .compare op a b => r.leaf (.compare op a b) candidates
  | .exists negated q => r.leaf (.exists negated q) candidates

/-- The candidates that all terms select; once there are none, no further term is looked at. -/
def narrow (r : Rows σ) (candidates : List Nat) : List Condition → Run σ (List Nat)
  | [] => pure candidates
  | c :: cs =>
    if candidates.isEmpty then pure []
    else do
      let rows ← r.select candidates c
      r.narrow rows cs

/-- What the terms select, one behind the other. -/
def gather (r : Rows σ) (candidates : List Nat) : List Condition → Run σ (List Nat)
  | [] => pure []
  | c :: cs => do
    let rows ← r.select candidates c
    let others ← r.gather candidates cs
    pure (rows ++ others)

end

def matching (r : Rows σ) : Option Condition → Run σ (List Nat)
  | none => pure (List.range r.table.rows.length)
  | some c => r.select (List.range r.table.rows.length) c

end Rows

end GridQuery
