import GridQuery.Cell.Comparison

/-!
What a query says: scalar expressions, conditions and select statements, which hold one another.
A statement with set operations holds its right operands; each operand is a statement of its own.
-/

namespace GridQuery
set_option autoImplicit false

inductive BinaryOp where
  | add
  | sub
  | mul
  | div
  | mod
  | concat
deriving DecidableEq, Repr

inductive Sign where
  | minus
  | plus
deriving DecidableEq, Repr

inductive Connective where
  | and
  | or
deriving DecidableEq, Repr

inductive JoinKind where
  | inner
  | left
  | right
  | full
deriving DecidableEq, Repr

inductive Direction where
  | asc
  | desc
deriving DecidableEq, Repr

inductive SetOperator where
  | union
  | unionAll
  | intersect
  | except
deriving DecidableEq, Repr

mutual

inductive Expr where
  | literal (value : Cell)
  | column (table : Option String) (name : String)
  | bind (number : Nat)
  | binary (op : BinaryOp) (left right : Expr)
  | unary (sign : Sign) (operand : Expr)
  | call (name : String) (distinct : Bool) (args : List Expr)
  | case (branches : List (Condition × Expr)) (otherwise : Option Expr)
  | ite (condition : Condition) (yes no : Expr)
  | subquery (query : Statement)
  | list (items : List Expr)
  | star (table : Option String)
  | paren (inner : Expr)

inductive Condition where
  | compare (op : Comparison) (left right : Expr)
  | logic (op : Connective) (terms : List Condition)
  | not (inner : Condition)
  | exists (negated : Bool) (query : Statement)

/-- What stands behind `FROM` or `JOIN`. -/
inductive Source where
  | table (name : String) (alias? : Option String)
  | query (query : Statement) (alias? : Option String)

/-- One item of the select list, with its text as written. -/
structure SelectItem where
  expr : Expr
  text : String
  alias? : Option String

structure JoinClause where
  kind : JoinKind
  source : Source
  condition : Condition

structure OrderItem where
  expr : Expr
  direction : Direction

structure SetOperation where
  operator : SetOperator
  statement : Statement

structure Statement where
  distinct : Bool
  items : List SelectItem
  source : Source
  joins : List JoinClause
  filter : Option Condition
  groupBy : List Expr
  having : Option Condition
  orderBy : List OrderItem
  limit : Option Nat
  pivot : Option Expr
  operations : List SetOperation

end

namespace BinaryOp

def text : BinaryOp → String
  | add => "+"
  | sub => "-"
  | mul => "*"
  | div => "/"
  | mod => "%"
  | concat => "||"

end BinaryOp

namespace Sign

def text : Sign → String
  | minus => "-"
  | plus => "+"

end Sign

namespace Connective

def text : Connective → String
  | and => "AND"
  | or => "OR"

end Connective

namespace JoinKind

def text : JoinKind → String
  | inner => "INNER JOIN"
  | left => "LEFT JOIN"
  | right => "RIGHT JOIN"
  | full => "FULL JOIN"

end JoinKind

namespace Direction

def text : Direction → String
  | asc => "ASC"
  | desc => "DESC"

end Direction

namespace SetOperator

def text : SetOperator → String
  | union => "UNION"
  | unionAll => "UNION ALL"
  | intersect => "INTERSECT"
  | except => "EXCEPT"

end SetOperator

namespace Source

def reference? : Source → Option String
  | table name a => some (a.getD name)
  | query _ a => a

end Source

def SelectItem.title (item : SelectItem) : String :=
  item.alias?.getD item.text

/-- Joins two conditions; one that already has the connective takes the other as its last term. -/
def Condition.combine (op : Connective) (first second : Condition) : Condition :=
  match first with
  | .logic o terms => if o = op then .logic op (terms ++ [second]) else .logic op [first, second]
  | _ => .logic op [first, second]

end GridQuery
