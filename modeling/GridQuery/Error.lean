import GridQuery.Statement
import GridQuery.Token

/-!
Everything that can be wrong with a query, its data or its settings, by cause, with the wording of
each cause in one place. Parts of a query stand in a cause as the text they are written as.
-/

namespace GridQuery
set_option autoImplicit false

inductive ErrorKind where
  | form
  | parse
  | schema
  | join
  | setOperation
  | bind
  | config
  | internal
deriving DecidableEq, Repr

structure Arity where
  least : Nat
  most : Option Nat
deriving DecidableEq, Repr

def Arity.admits (a : Arity) (count : Nat) : Bool :=
  decide (a.least ≤ count) && a.most.all fun m => decide (count ≤ m)

inductive QueryError where
  /-- A token that is not the expected one, the end of the text, or one that could not be read. -/
  | unexpected (expected : String) (found : Token)
  | unbalanced (start stop : Nat)
  | missingSelect (start stop : Nat)
  | misplacedNot (start stop : Nat)
  /-- The bound on nested reading was too small; a reader with its own bound never says so. -/
  | tooDeep
  | mixedPlaceholders
  | duplicateClause (clause : String) (start : Nat)
  | missingFrom
  | limitCount (stop : Nat)
  | pivotWithoutGroup
  | argumentCount (name : String) (arity : Arity) (count : Nat)
  | unknownFunction (name : String)
  | misplacedAggregate (expr : String)
  | listOutsideIn
  | ordinalRange (clause expr : String)
  | unknownClauseColumn (clause expr : String)
  /-- A schema error of a clause that adds a field. -/
  | clauseColumn (clause expr : String)
  | aggregateArguments (name : String)
  | starInside (expr : String)
  | aggregateInside (expr : String)
  | emptyTitle (position : Nat) (table : String)
  | duplicateColumn (title table : String)
  | unknownTable (name : String)
  | unknownColumn (expr : String)
  | unknownSelectTable (name : String)
  | missingAppendColumn (table title : String)
  | unsupportedJoin (condition : String)
  | unattributedJoin (first second left right : String)
  | columnCounts (operator : SetOperator) (left right : Nat)
  | missingBind (number supplied : Nat)
  | malformedBindName (name : String)
  | settingEntries (position count : Nat)
  | settingWithoutName (position : Nat)
  | settingCache (position : Nat) (cell : String)
  | unreadable (path : String)
  | malformedJson (path : String)
  | absent (location : String)
  | fieldWithoutColumn (title : String)
  | joinWithoutSource (position : Nat)
deriving DecidableEq, Inhabited

namespace QueryError

def kind : QueryError → ErrorKind
  | unexpected .. | unbalanced .. | missingSelect .. | misplacedNot .. => .parse
  | mixedPlaceholders | duplicateClause .. | missingFrom | limitCount _ | pivotWithoutGroup
  | argumentCount .. | unknownFunction _ | misplacedAggregate _ | listOutsideIn | ordinalRange ..
  | unknownClauseColumn .. | clauseColumn .. | aggregateArguments _ | starInside _
  | aggregateInside _ => .form
  | emptyTitle .. | duplicateColumn .. | unknownTable _ | unknownColumn _ | unknownSelectTable _
  | missingAppendColumn .. => .schema
  | unsupportedJoin _ | unattributedJoin .. => .join
  | columnCounts .. => .setOperation
  | missingBind .. | malformedBindName _ => .bind
  | settingEntries .. | settingWithoutName _ | settingCache .. | unreadable _ | malformedJson _
  | absent _ => .config
  | tooDeep | fieldWithoutColumn _ | joinWithoutSource _ => .internal

def heading : ErrorKind → String
  | .form => "syntax error: "
  | .parse => "syntax error: "
  | .schema => "schema error: "
  | .join => "join error: "
  | .setOperation => "set operation error: "
  | .bind => "bind error: "
  | .config => "configuration error: "
  | .internal => "internal error: "

def number (n : Nat) : String :=
  String.ofList (Number.digits n)

/-- Where in the text an error is, in bytes. -/
def place (start stop : Nat) : String :=
  " at position " ++ number start ++ ".." ++ number stop

def arityText (a : Arity) : String :=
  match a.most with
  | some m => if m = a.least then number m else number a.least ++ " to " ++ number m
  | none => "at least " ++ number a.least

def unexpectedText (expected : String) (found : Token) : String :=
  match found.lexeme with
  | .eof => "Unexpected end of input: expected " ++ expected
  | .error message => message
  | l => "Unexpected token: expected " ++ expected ++ ", found " ++ l.shown

def detail : QueryError → String
  | unexpected expected found => unexpectedText expected found ++ place found.start found.stop
  | unbalanced start stop => "Unbalanced parenthesis" ++ place start stop
  | missingSelect start stop => "Missing SELECT statement" ++ place start stop
  | misplacedNot start stop => "NOT must be followed by LIKE, IN or BETWEEN" ++ place start stop
  | tooDeep => "nesting is too deep"
  | mixedPlaceholders => "cannot mix ? and ?N placeholders in one statement"
  | duplicateClause clause start => "duplicate " ++ clause ++ " clause at position " ++ number start
  | missingFrom => "missing FROM clause"
  | limitCount stop => "LIMIT expects a row count at position " ++ number stop
  | pivotWithoutGroup => "PIVOT requires GROUP BY"
  | argumentCount name arity count =>
    name ++ " expects " ++ arityText arity ++ " argument(s), got " ++ number count
  | unknownFunction name => "unknown function " ++ name
  | misplacedAggregate expr => "aggregate " ++ expr ++ " is not allowed here"
  | listOutsideIn => "a value list is only allowed after IN"
  | ordinalRange clause expr => clause ++ " position " ++ expr ++ " is not in the select list"
  | unknownClauseColumn clause expr => "unknown " ++ clause ++ " column " ++ expr
  | clauseColumn clause expr => clause ++ ": unknown column " ++ expr
  | aggregateArguments name => name ++ " expects exactly one argument"
  | starInside expr => expr ++ " is only allowed as a whole select field"
  | aggregateInside expr =>
    "aggregate functions must be the outermost call of a field: " ++ expr
  | emptyTitle position table =>
    "column " ++ number position ++ " of table " ++ table ++ " has an empty title"
  | duplicateColumn title table => "duplicate column " ++ title ++ " in table " ++ table
  | unknownTable name => "unknown table " ++ name
  | unknownColumn expr => "unknown column " ++ expr
  | unknownSelectTable name => "unknown table " ++ name ++ " in SELECT"
  | missingAppendColumn table title =>
    "cannot append table " ++ table ++ ": column " ++ title ++ " is missing"
  | unsupportedJoin condition =>
    "unsupported join condition " ++ condition ++ ": only equality combined with AND/OR is allowed"
  | unattributedJoin first second left right =>
    "cannot attribute " ++ first ++ " = " ++ second ++ " to " ++ left ++ " and " ++ right
  | columnCounts operator left right =>
    operator.text ++ " operands have " ++ number left ++ " and " ++ number right ++ " columns"
  | missingBind n supplied =>
    "no value for ?" ++ number n ++ ": " ++ number supplied ++ " bind value(s) supplied"
  | malformedBindName name => "malformed bind name " ++ name
  | settingEntries position count =>
    "table setting " ++ number position ++ " has " ++ number count ++ " entries, expected 1 to 4"
  | settingWithoutName position => "table setting " ++ number position ++ " has no table name"
  | settingCache position cell =>
    "table setting " ++ number position ++
      ": cache seconds must be a non-negative number, got " ++ cell
  | unreadable path => "cannot read " ++ path
  | malformedJson path => "invalid JSON in " ++ path
  | absent location => "nothing at " ++ location
  | fieldWithoutColumn title => "field " ++ title ++ " has no column"
  | joinWithoutSource position => "join " ++ number position ++ " has no materialized source"

def message (e : QueryError) : String :=
  heading e.kind ++ e.detail

end QueryError

end GridQuery
