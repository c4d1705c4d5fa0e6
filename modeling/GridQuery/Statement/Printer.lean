import GridQuery.Statement

/-!
The text of expressions, conditions and statements. A name that is not a plain word stands between
back quotes, text between single quotes, and a condition within a condition in brackets; nothing
else is added, since an expression keeps the brackets it was written with.
-/

namespace GridQuery
set_option autoImplicit false

/-- Writes the character `quote` twice wherever it occurs. -/
def doubled (quote : Char) (s : String) : String :=
  String.ofList (s.toList.flatMap fun c => if c = quote then [c, c] else [c])

/-- Letters, digits and a few marks, the first one no ASCII digit. -/
def isPlainName (s : String) : Bool :=
  match s.toList with
  | [] => false
  | c :: r => !c.isDigit &&
      (c :: r).all fun c => Text.isAlphanumeric c || c = '_' || c = '$' || c = '#'

def nameText (s : String) : String :=
  if isPlainName s then s else "\x60" ++ doubled '\x60' s ++ "\x60"

def aliasText : Option String → String
  | none => ""
  | some a => " AS " ++ nameText a

namespace Cell

def literalText : Cell → String
  | null => "NULL"
  | boolean b => if b then "TRUE" else "FALSE"
  | number x => numberText x
  | date m => "'" ++ m.text ++ "'"
  | text s => "'" ++ doubled '\x27' s ++ "'"

end Cell

def columnText (table : Option String) (name : String) : String :=
  match table with
  | some t => nameText t ++ "." ++ nameText name
  | none => nameText name

def starText : Option String → String
  | some t => nameText t ++ ".*"
  | none => "*"

def limitText : Option Nat → String
  | some n => " LIMIT " ++ String.ofList (Number.digits n)
  | none => ""

/-- A clause that an empty list leaves out. -/
def clauseText (word body : String) (empty : Bool) : String :=
  if empty then "" else word ++ body

def bracketed (on : Bool) (s : String) : String :=
  if on then "(" ++ s ++ ")" else s

def Condition.isLogic : Condition → Bool
  | .logic .. => true
  | _ => false

mutual

def Expr.text : Expr → String
  | .literal c => c.literalText
  | .column table name => columnText table name
  | .bind n => "?" ++ String.ofList (Number.digits n)
  | .binary op a b => a.text ++ " " ++ op.text ++ " " ++ b.text
  | .unary s a => s.text ++ a.text
  | .call name distinct args => name ++ "(" ++ (if distinct then "DISTINCT " else "") ++ exprsText args ++ ")"
  | .case branches otherwise => "CASE" ++ branchesText branches ++ elseText otherwise ++ " END"
  | .ite c a b => "IF(" ++ c.text ++ ", " ++ a.text ++ ", " ++ b.text ++ ")"
  | .subquery q => "(" ++ q.text ++ ")"
  | .list items => "(" ++ exprsText items ++ ")"
  | .star table => starText table
  | .paren a => "(" ++ a.text ++ ")"

def exprsText : List Expr → String
  | [] => ""
  | [e] => e.text
  | e :: es => e.text ++ ", " ++ exprsText es

def branchesText : List (Condition × Expr) → String
  | [] => ""
  | (c, e) :: bs => " WHEN " ++ c.text ++ " THEN " ++ e.text ++ branchesText bs

def elseText : Option Expr → String
  | none => ""
  | some e => " ELSE " ++ e.text

def Condition.text : Condition → String
  | .compare op a b => a.text ++ " " ++ op.text ++ " " ++ b.text
  | .logic op terms => termsText op terms
  | .not c => "NOT (" ++ c.text ++ ")"
  | .exists negated q => (if negated then "NOT " else "") ++ "EXISTS (" ++ q.text ++ ")"

/-- Terms with the connective between them; one that has a connective itself is in brackets. -/
def termsText (op : Connective) : List Condition → String
  | [] => ""
  | [c] => bracketed c.isLogic c.text
  | c :: cs => bracketed c.isLogic c.text ++ " " ++ op.text ++ " " ++ termsText op cs

def Source.text : Source → String
  | .table name alias? => nameText name ++ aliasText alias?
  | .query q alias? => "(" ++ q.text ++ ")" ++ aliasText alias?

def selectItemsText : List SelectItem → String
  | [] => ""
  | [⟨e, _, alias?⟩] => e.text ++ aliasText alias?
  | ⟨e, _, alias?⟩ :: items => e.text ++ aliasText alias? ++ ", " ++ selectItemsText items

def joinsText : List JoinClause → String
  | [] => ""
  | ⟨kind, source, c⟩ :: joins =>
    " " ++ kind.text ++ " " ++ source.text ++ " ON " ++ c.text ++ joinsText joins

def conditionText (word : String) : Option Condition → String
  | none => ""
  | some c => word ++ c.text

def orderItemsText : List OrderItem → String
  | [] => ""
  | [⟨e, d⟩] => e.text ++ " " ++ d.text
  | ⟨e, d⟩ :: items => e.text ++ " " ++ d.text ++ ", " ++ orderItemsText items

def pivotText : Option Expr → String
  | none => ""
  | some e => " PIVOT " ++ e.text

def operationsText : List SetOperation → String
  | [] => ""
  | ⟨op, s⟩ :: ops => " " ++ op.text ++ " " ++ s.text ++ operationsText ops

def Statement.text : Statement → String
  | ⟨distinct, items, source, joins, filter, groupBy, having, orderBy, limit, pivot, operations⟩ =>
    "SELECT " ++ (if distinct then "DISTINCT " else "") ++ selectItemsText items ++ " FROM " ++
      source.text ++ joinsText joins ++ conditionText " WHERE " filter ++
      clauseText " GROUP BY " (exprsText groupBy) groupBy.isEmpty ++
      conditionText " HAVING " having ++
      clauseText " ORDER BY " (orderItemsText orderBy) orderBy.isEmpty ++
      limitText limit ++ pivotText pivot ++ operationsText operations

end

end GridQuery
