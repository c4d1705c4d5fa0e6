import GridQuery.Proofs.Untitled
import GridQuery.Statement.Parser

/-!
Statements as lists of lexemes. The lexemes of an expression, a condition or a statement follow the
constructors as its text does, so that the two halves of reading a text back, cutting it into tokens
and reading the tokens, meet in this list.
-/

namespace GridQuery
set_option autoImplicit false

def BinaryOp.lexeme : BinaryOp → Lexeme
  | add => .plus
  | sub => .minus
  | mul => .star
  | div => .slash
  | mod => .percent
  | concat => .concat

def Sign.lexeme : Sign → Lexeme
  | minus => .minus
  | plus => .plus

def Comparison.lexemes : Comparison → List Lexeme
  | eq => [.eq]
  | notEq => [.notEq]
  | lt => [.lt]
  | ltEq => [.ltEq]
  | gt => [.gt]
  | gtEq => [.gtEq]
  | like => [.keyword .like]
  | notLike => [.keyword .not_, .keyword .like]
  | isIn => [.keyword .in_]
  | notIn => [.keyword .not_, .keyword .in_]
  | is => [.keyword .is]
  | isNot => [.keyword .is, .keyword .not_]

def Connective.lexeme : Connective → Lexeme
  | and => .keyword .and_
  | or => .keyword .or_

def Direction.lexeme : Direction → Lexeme
  | asc => .keyword .asc
  | desc => .keyword .desc

def SetOperator.lexemes : SetOperator → List Lexeme
  | union => [.keyword .union]
  | unionAll => [.keyword .union, .keyword .all]
  | intersect => [.keyword .intersect]
  | except => [.keyword .except]

def JoinKind.lexemes : JoinKind → List Lexeme
  | inner => [.keyword .inner, .keyword .join]
  | left => [.keyword .left, .keyword .join]
  | right => [.keyword .right, .keyword .join]
  | full => [.keyword .full, .keyword .join]

def aliasLexemes : Option String → List Lexeme
  | none => []
  | some a => [.keyword .as_, .identifier a]

/-- The lexeme of a number without a sign. -/
def numeralLexeme : List Char → Lexeme
  | [] => .eof
  | c :: r => (Lexer.numberLexeme c r).1

/-- A negative number is a minus and the number without its sign. -/
def numberLexemes (x : Float) : List Lexeme :=
  match (numberText x).toList with
  | '-' :: ds => [.minus, numeralLexeme ds]
  | ds => [numeralLexeme ds]

def Cell.lexemes : Cell → List Lexeme
  | null => [.keyword .null]
  | boolean b => [.keyword (if b then .true_ else .false_)]
  | number x => numberLexemes x
  | date m => [.string m.text]
  | text s => [.string s]

def columnLexemes : Option String → String → List Lexeme
  | some t, name => [.identifier t, .dot, .identifier name]
  | none, name => [.identifier name]

def starLexemes : Option String → List Lexeme
  | some t => [.identifier t, .dot, .star]
  | none => [.star]

def distinctLexemes (distinct : Bool) : List Lexeme :=
  if distinct then [.keyword .distinct] else []

def limitLexemes : Option Nat → List Lexeme
  | some n => [.keyword .limit, .integer n]
  | none => []

def inBrackets (ls : List Lexeme) : List Lexeme :=
  .leftParen :: ls ++ [.rightParen]

def bracketedLexemes (on : Bool) (ls : List Lexeme) : List Lexeme :=
  if on then inBrackets ls else ls

/-- A clause that an empty list leaves out. -/
def clauseLexemes (words body : List Lexeme) (empty : Bool) : List Lexeme :=
  if empty then [] else words ++ body

mutual

def Expr.lexemes : Expr → List Lexeme
  | .literal c => c.lexemes
  | .column table name => columnLexemes table name
  | .bind n => [.placeholder (some n)]
  | .binary op a b => a.lexemes ++ op.lexeme :: b.lexemes
  | .unary s a => s.lexeme :: a.lexemes
  | .call name distinct args =>
    Lexer.wordLexeme name.toList :: inBrackets (distinctLexemes distinct ++ exprsLexemes args)
  | .case branches otherwise =>
    .keyword .case_ :: branchesLexemes branches ++ elseLexemes otherwise ++ [.keyword .end_]
  | .ite c a b =>
    .identifier "IF" :: inBrackets (c.lexemes ++ .comma :: a.lexemes ++ .comma :: b.lexemes)
  | .subquery q => inBrackets q.lexemes
  | .list items => inBrackets (exprsLexemes items)
  | .star table => starLexemes table
  | .paren a => inBrackets a.lexemes

def exprsLexemes : List Expr → List Lexeme
  | [] => []
  | [e] => e.lexemes
  | e :: es => e.lexemes ++ .comma :: exprsLexemes es

def branchesLexemes : List (Condition × Expr) → List Lexeme
  | [] => []
  | (c, e) :: bs =>
    .keyword .when :: c.lexemes ++ .keyword .then_ :: e.lexemes ++ branchesLexemes bs

def elseLexemes : Option Expr → List Lexeme
  | none => []
  | some e => .keyword .else_ :: e.lexemes

def Condition.lexemes : Condition → List Lexeme
  | .compare op a b => a.lexemes ++ op.lexemes ++ b.lexemes
  | .logic op terms => termsLexemes op terms
  | .not c => .keyword .not_ :: inBrackets c.lexemes
  | .exists negated q =>
    (if negated then [.keyword .not_] else []) ++ .keyword .exists_ :: inBrackets q.lexemes

def termsLexemes (op : Connective) : List Condition → List Lexeme
  | [] => []
  | [c] => bracketedLexemes c.isLogic c.lexemes
  | c :: cs => bracketedLexemes c.isLogic c.lexemes ++ op.lexeme :: termsLexemes op cs

def Source.lexemes : Source → List Lexeme
  | .table name alias? => .identifier name :: aliasLexemes alias?
  | .query q alias? => inBrackets q.lexemes ++ aliasLexemes alias?

def itemsLexemes : List SelectItem → List Lexeme
  | [] => []
  | [⟨e, _, alias?⟩] => e.lexemes ++ aliasLexemes alias?
  | ⟨e, _, alias?⟩ :: items => e.lexemes ++ aliasLexemes alias? ++ .comma :: itemsLexemes items

def joinsLexemes : List JoinClause → List Lexeme
  | [] => []
  | ⟨kind, source, c⟩ :: joins =>
    kind.lexemes ++ source.lexemes ++ .keyword .on :: c.lexemes ++ joinsLexemes joins

def conditionLexemes (word : Keyword) : Option Condition → List Lexeme
  | none => []
  | some c => .keyword word :: c.lexemes

def orderLexemes : List OrderItem → List Lexeme
  | [] => []
  | [⟨e, d⟩] => e.lexemes ++ [d.lexeme]
  | ⟨e, d⟩ :: items => e.lexemes ++ d.lexeme :: .comma :: orderLexemes items

def pivotLexemes : Option Expr → List Lexeme
  | none => []
  | some e => .keyword .pivot :: e.lexemes

def operationsLexemes : List SetOperation → List Lexeme
  | [] => []
  | ⟨op, s⟩ :: ops => op.lexemes ++ s.lexemes ++ operationsLexemes ops

def Statement.lexemes : Statement → List Lexeme
  | ⟨distinct, items, source, joins, filter, groupBy, having, orderBy, limit, pivot, operations⟩ =>
    .keyword .select :: distinctLexemes distinct ++ itemsLexemes items ++
      .keyword .from_ :: source.lexemes ++ joinsLexemes joins ++ conditionLexemes .where_ filter ++
      clauseLexemes [.keyword .group, .keyword .by_] (exprsLexemes groupBy) groupBy.isEmpty ++
      conditionLexemes .having having ++
      clauseLexemes [.keyword .order, .keyword .by_] (orderLexemes orderBy) orderBy.isEmpty ++
      limitLexemes limit ++ pivotLexemes pivot ++ operationsLexemes operations

end

/-! ### Names and literals that read back -/

/-- Begins as a word does that stands without quotes. -/
def startsWord (s : String) : Bool :=
  match s.toList with
  | [] => false
  | c :: _ => Text.isAlphabetic c || c = '_'

/-- A name is written without quotes only if it begins as a word does and is no reserved word. -/
def legibleName (s : String) : Bool :=
  !isPlainName s || (startsWord s && (Keyword.ofText? s).isNone)

/-- A function's name stands without quotes; of the reserved words two are functions. -/
def legibleFunction (s : String) : Bool :=
  isPlainName s && startsWord s && ((Keyword.ofText? s).isNone || s == "LEFT" || s == "RIGHT")

/-- A finite number below `2 ^ 63` other than the negative zero. -/
def legibleNumber (x : Float) : Bool :=
  match Number.parts x with
  | .finite negative m e => !(negative && m == 0) && decide (Number.wholePart m e < Number.twoPow 63)
  | _ => false

def Cell.legible : Cell → Bool
  | number x => legibleNumber x
  | _ => true

def Expr.isNegation : Expr → Bool
  | .unary .minus _ => true
  | _ => false

mutual

/-- Every name and number reads back as it is written, and no minus stands before a minus. -/
def Expr.legible : Expr → Bool
  | .literal c => c.legible
  | .column table name => table.all legibleName && legibleName name
  | .bind _ => true
  | .binary _ a b => a.legible && b.legible
  | .unary s a => a.legible && !(s == .minus && a.isNegation)
  | .call name _ args => legibleFunction name && legibleExprs args
  | .case branches otherwise => legibleBranches branches && legibleElse otherwise
  | .ite c a b => c.legible && a.legible && b.legible
  | .subquery q => q.legible
  | .list items => legibleExprs items
  | .star table => table.all legibleName
  | .paren a => a.legible

def legibleExprs : List Expr → Bool
  | [] => true
  | e :: es => e.legible && legibleExprs es

def legibleBranches : List (Condition × Expr) → Bool
  | [] => true
  | (c, e) :: bs => c.legible && e.legible && legibleBranches bs

def legibleElse : Option Expr → Bool
  | none => true
  | some e => e.legible

def Condition.legible : Condition → Bool
  | .compare _ a b => a.legible && b.legible
  | .logic _ terms => legibleTerms terms
  | .not c => c.legible
  | .exists _ q => q.legible

def legibleTerms : List Condition → Bool
  | [] => true
  | c :: cs => c.legible && legibleTerms cs

def Source.legible : Source → Bool
  | .table name alias? => legibleName name && alias?.all legibleName
  | .query q alias? => q.legible && alias?.all legibleName

def legibleItems : List SelectItem → Bool
  | [] => true
  | ⟨e, _, alias?⟩ :: items => e.legible && alias?.all legibleName && legibleItems items

def legibleJoins : List JoinClause → Bool
  | [] => true
  | ⟨_, source, c⟩ :: joins => source.legible && c.legible && legibleJoins joins

def legibleCondition : Option Condition → Bool
  | none => true
  | some c => c.legible

def legibleOrder : List OrderItem → Bool
  | [] => true
  | ⟨e, _⟩ :: items => e.legible && legibleOrder items

def legibleOperations : List SetOperation → Bool
  | [] => true
  | ⟨_, s⟩ :: ops => s.legible && legibleOperations ops

def Statement.legible : Statement → Bool
  | ⟨_, items, source, joins, filter, groupBy, having, orderBy, _, pivot, operations⟩ =>
    legibleItems items && source.legible && legibleJoins joins && legibleCondition filter &&
      legibleExprs groupBy && legibleCondition having && legibleOrder orderBy &&
      legibleElse pivot && legibleOperations operations

end

end GridQuery
