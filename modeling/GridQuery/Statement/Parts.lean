import GridQuery.Statement

/-!
What a statement refers to: its placeholders at every depth, how deep its statements nest, and, of
one expression without the statements inside it, the columns and aggregates.
-/

namespace GridQuery
set_option autoImplicit false

inductive Aggregator where
  | sum
  | count
  | min
  | max
  | avg
deriving DecidableEq, Repr

namespace Aggregator

def text : Aggregator → String
  | sum => "SUM"
  | count => "COUNT"
  | min => "MIN"
  | max => "MAX"
  | avg => "AVG"

/-- The aggregate of a name in any case. -/
def ofName? (name : String) : Option Aggregator :=
  let capitals := Text.asciiUpper name
  [sum, count, min, max, avg].find? fun a => a.text == capitals

end Aggregator

structure AggregateCall where
  aggregator : Aggregator
  name : String
  distinct : Bool
  args : List Expr

/-- An aggregate call, also within brackets. -/
def Expr.aggregate? : Expr → Option AggregateCall
  | .call name distinct args => (Aggregator.ofName? name).map fun a => ⟨a, name, distinct, args⟩
  | .paren e => e.aggregate?
  | _ => none

mutual

/-- An expression and those within it, from the outside in, without entering statements. -/
def Expr.parts : Expr → List Expr
  | .binary op a b => .binary op a b :: (a.parts ++ b.parts)
  | .unary s a => .unary s a :: a.parts
  | .paren a => .paren a :: a.parts
  | .call name distinct args => .call name distinct args :: exprsParts args
  | .list items => .list items :: exprsParts items
  | .case branches otherwise => .case branches otherwise :: (branchesParts branches ++ elseParts otherwise)
  | .ite c a b => .ite c a b :: (c.parts ++ a.parts ++ b.parts)
  | e => [e]

def exprsParts : List Expr → List Expr
  | [] => []
  | e :: es => e.parts ++ exprsParts es

def branchesParts : List (Condition × Expr) → List Expr
  | [] => []
  | (c, e) :: bs => c.parts ++ e.parts ++ branchesParts bs

def elseParts : Option Expr → List Expr
  | none => []
  | some e => e.parts

def Condition.parts : Condition → List Expr
  | .compare _ a b => a.parts ++ b.parts
  | .logic _ terms => termsParts terms
  | .not c => c.parts
  | .exists .. => []

def termsParts : List Condition → List Expr
  | [] => []
  | c :: cs => c.parts ++ termsParts cs

end

def Expr.containsAggregate (e : Expr) : Bool :=
  e.parts.any fun p => p.aggregate?.isSome

/-- What combines over the statements, conditions and expressions within one another. -/
structure Tally (α : Type) where
  zero : α
  both : α → α → α
  bind : Nat → α
  nested : α → α

namespace Tally

variable {α : Type} (m : Tally α)

mutual

def expr : Expr → α
  | .literal _ => m.zero
  | .column .. => m.zero
  | .bind n => m.bind n
  | .binary _ a b => m.both (expr a) (expr b)
  | .unary _ a => expr a
  | .call _ _ args => exprs args
  | .case branches otherwise => m.both (pairs branches) (optional otherwise)
  | .ite c a b => m.both (condition c) (m.both (expr a) (expr b))
  | .subquery q => statement q
  | .list items => exprs items
  | .star _ => m.zero
  | .paren a => expr a

def exprs : List Expr → α
  | [] => m.zero
  | e :: es => m.both (expr e) (exprs es)

def pairs : List (Condition × Expr) → α
  | [] => m.zero
  | (c, e) :: bs => m.both (m.both (condition c) (expr e)) (pairs bs)

def optional : Option Expr → α
  | none => m.zero
  | some e => expr e

def condition : Condition → α
  | .compare _ a b => m.both (expr a) (expr b)
  | .logic _ terms => conditions terms
  | .not c => condition c
  | .exists _ q => statement q

def conditions : List Condition → α
  | [] => m.zero
  | c :: cs => m.both (condition c) (conditions cs)

def clause : Option Condition → α
  | none => m.zero
  | some c => condition c

def source : Source → α
  | .table .. => m.zero
  | .query q _ => statement q

def items : List SelectItem → α
  | [] => m.zero
  | ⟨e, _, _⟩ :: is => m.both (expr e) (items is)

def joins : List JoinClause → α
  | [] => m.zero
  | ⟨_, s, c⟩ :: js => m.both (m.both (source s) (condition c)) (joins js)

def orders : List OrderItem → α
  | [] => m.zero
  | ⟨e, _⟩ :: os => m.both (expr e) (orders os)

def operations : List SetOperation → α
  | [] => m.zero
  | ⟨_, s⟩ :: ops => m.both (statement s) (operations ops)

def statement : Statement → α
  | ⟨_, is, s, js, f, gs, h, os, _, p, ops⟩ =>
    m.nested (m.both (items is) (m.both (source s) (m.both (joins js) (m.both (clause f)
      (m.both (exprs gs) (m.both (clause h) (m.both (orders os) (m.both (optional p)
        (operations ops)))))))))

end

end Tally

def highestBind : Tally Nat :=
  ⟨0, max, id, id⟩

/-- How many statements stand within one another. -/
def nesting : Tally Nat :=
  ⟨0, max, fun _ => 0, (· + 1)⟩

def Statement.maxBind (s : Statement) : Nat :=
  highestBind.statement s

/-- How many statements stand within one another, the outermost counted. -/
def Statement.depth (s : Statement) : Nat :=
  nesting.statement s

end GridQuery
