import GridQuery.Statement.Clause
import GridQuery.Token.Lexer

/-!
Reading statements, conditions and expressions from tokens. Each reader takes what it reads off the
front of its tokens and returns the rest. Readers call one another within a budget that counts
nested calls; one that starts from the number of tokens is large enough, since every few nested
calls use up a token.
-/

namespace GridQuery.Parser
set_option autoImplicit false

/-- The text being read, and the byte at which errors at the end of the tokens are placed. -/
structure Place where
  source : List Char
  stop : Nat

/-- A value read off the front, and the tokens behind it. -/
abbrev Reading (α : Type) := α × List Token

/-- The place of tokens that stand at the end of a slice. -/
def Place.within (p : Place) (tokens : List Token) (stop : Nat) : Place :=
  ⟨p.source, (tokens.getLast?.map Token.stop).getD stop⟩

def current (p : Place) (tokens : List Token) : Token :=
  tokens.head?.getD ⟨.eof, p.stop, p.stop⟩

def unexpected {α : Type} (p : Place) (expected : String) (tokens : List Token) : Except QueryError α :=
  .error (.unexpected expected (current p tokens))

def atLexeme (l : Lexeme) : List Token → Bool
  | t :: _ => t.lexeme == l
  | [] => false

def atKeyword (k : Keyword) (tokens : List Token) : Bool :=
  atLexeme (.keyword k) tokens

def expect (p : Place) (l : Lexeme) (expected : String) : List Token → Except QueryError (List Token)
  | t :: r => if t.lexeme = l then .ok r else unexpected p expected (t :: r)
  | [] => unexpected p expected []

def expectKeyword (p : Place) (k : Keyword) (tokens : List Token) : Except QueryError (List Token) :=
  expect p (.keyword k) k.text tokens

def expectEnd (p : Place) (tokens : List Token) : Except QueryError Unit :=
  if tokens.isEmpty then .ok () else unexpected p "end of clause" tokens

def name (p : Place) (expected : String) : List Token → Except QueryError (Reading String)
  | t :: r =>
    match t.lexeme with
    | .identifier s => .ok (s, r)
    | .string s => .ok (s, r)
    | _ => unexpected p expected (t :: r)
  | [] => unexpected p expected []

def optionalAlias (p : Place) : List Token → Except QueryError (Reading (Option String))
  | t :: r =>
    match t.lexeme with
    | .keyword .as_ => (name p "alias" r).map fun a => (some a.1, a.2)
    | .identifier s => .ok (some s, r)
    | _ => .ok (none, t :: r)
  | [] => .ok (none, [])

/-- The text between the first of `tokens` and the last one before `rest`, without outer blanks. -/
def sourceText (p : Place) (tokens rest : List Token) : String :=
  match tokens.head?, (tokens.take (tokens.length - rest.length)).getLast? with
  | some first, some last =>
    String.ofList (Text.trimChars (Text.sliceBytes p.source first.start last.stop))
  | _, _ => ""

def atSubquery : List Token → Bool
  | t :: u :: _ => t.lexeme == .leftParen && u.lexeme == .keyword .select
  | _ => false

/-- Whether a whole condition may end here. -/
def atConditionEnd : List Token → Bool
  | [] => true
  | t :: _ =>
    match t.lexeme with
    | .eof | .rightParen | .comma => true
    | .keyword .and_ | .keyword .or_ | .keyword .then_ | .keyword .else_ | .keyword .end_ => true
    | _ => false

/-- The operator of a token with its binding power to the left and to the right. -/
def binaryOf : Lexeme → Option (BinaryOp × Nat × Nat)
  | .plus => some (.add, 3, 4)
  | .minus => some (.sub, 3, 4)
  | .concat => some (.concat, 3, 4)
  | .star => some (.mul, 5, 6)
  | .slash => some (.div, 5, 6)
  | .percent => some (.mod, 5, 6)
  | _ => none

/-- The binding power of a sign, above every operator. -/
def signPower : Nat := 7

def signOf : Lexeme → Option Sign
  | .minus => some .minus
  | .plus => some .plus
  | _ => none

def comparisonOf : Lexeme → Option Comparison
  | .eq => some .eq
  | .notEq => some .notEq
  | .lt => some .lt
  | .ltEq => some .ltEq
  | .gt => some .gt
  | .gtEq => some .gtEq
  | .keyword .like => some .like
  | .keyword .in_ => some .isIn
  | .keyword .is => some .is
  | _ => none

/-- The comparison at the front, `NOT` in front of it counted in, `IS NOT` taken together. -/
def comparison (p : Place) (negated : Bool) (tokens : List Token) : Except QueryError (Reading Comparison) :=
  match tokens with
  | [] => unexpected p "comparison operator" []
  | t :: r =>
    match comparisonOf t.lexeme with
    | none => unexpected p "comparison operator" (t :: r)
    | some op =>
      if negated then
        match op with
        | .like => .ok (.notLike, r)
        | .isIn => .ok (.notIn, r)
        | _ => .error (.misplacedNot t.start t.stop)
      else if op = .is ∧ atKeyword .not_ r then .ok (.isNot, r.drop 1)
      else .ok (op, r)

/-- A signed operand; a minus before a number makes a negative number. -/
def applySign : Sign → Expr → Expr
  | .minus, .literal (.number x) => .literal (.number (-x))
  | s, e => .unary s e

/-- A literal, a placeholder or a star, where one token is all of it. -/
def atom? : Lexeme → Option Expr
  | .integer i => some (.literal (.number (Float.ofInt i)))
  | .float x => some (.literal (.number x))
  | .string s => some (.literal (.text s))
  | .keyword .true_ => some (.literal (.boolean true))
  | .keyword .false_ => some (.literal (.boolean false))
  | .keyword .null => some (.literal .null)
  | .placeholder (some n) => some (.bind n)
  | .star => some (.star none)
  | _ => none

/-- A column of a table behind its point. -/
def qualified (p : Place) (table : String) : List Token → Except QueryError (Reading Expr)
  | t :: r =>
    match t.lexeme with
    | .star => .ok (.star (some table), r)
    | .identifier s => .ok (.column (some table) s, r)
    | .keyword k => .ok (.column (some table) k.text, r)
    | _ => unexpected p "column name" (t :: r)
  | [] => unexpected p "column name" []

structure Draft where
  distinct : Bool := false
  items : List SelectItem := []
  source : Option Source := none
  joins : List JoinClause := []
  filter : Option Condition := none
  groupBy : List Expr := []
  having : Option Condition := none
  orderBy : List OrderItem := []
  limit : Option Nat := none
  pivot : Option Expr := none

def Draft.statement (d : Draft) : Except QueryError Statement :=
  match d.source with
  | some source =>
    .ok ⟨d.distinct, d.items, source, d.joins, d.filter, d.groupBy, d.having, d.orderBy, d.limit,
      d.pivot, []⟩
  | none => .error .missingFrom

/-- `DISTINCT`, or `ALL`, or neither. -/
def distinctMark (tokens : List Token) : Bool × List Token :=
  if atKeyword .distinct tokens then (true, tokens.drop 1)
  else if atKeyword .all tokens then (false, tokens.drop 1)
  else (false, tokens)

def direction (tokens : List Token) : Direction × List Token :=
  if atKeyword .desc tokens then (.desc, tokens.drop 1)
  else if atKeyword .asc tokens then (.asc, tokens.drop 1)
  else (.asc, tokens)

/-- The row count of `LIMIT`, whose word ends at `stop`. -/
def rowCount (stop : Nat) : List Token → Except QueryError (Reading Nat)
  | t :: r =>
    match t.lexeme with
    | .integer i => .ok (i.toNat, r)
    | _ => .error (.limitCount stop)
  | [] => .error (.limitCount stop)

mutual

/-- Terms with `OR` between them; `AND` binds tighter. -/
def condition (p : Place) : Nat → List Token → Except QueryError (Reading Condition)
  | 0, _ => .error .tooDeep
  | n + 1, ts => do
    let (first, ts) ← conjunction p n ts
    moreTerms p n .or first ts

def conjunction (p : Place) : Nat → List Token → Except QueryError (Reading Condition)
  | 0, _ => .error .tooDeep
  | n + 1, ts => do
    let (first, ts) ← negation p n ts
    moreTerms p n .and first ts

/-- The further terms of a connective behind the first. -/
def moreTerms (p : Place) : Nat → Connective → Condition → List Token → Except QueryError (Reading Condition)
  | 0, _, _, _ => .error .tooDeep
  | n + 1, .or, first, ts =>
    if atKeyword .or_ ts then do
      let (second, ts) ← conjunction p n (ts.drop 1)
      moreTerms p n .or (first.combine .or second) ts
    else .ok (first, ts)
  | n + 1, .and, first, ts =>
    if atKeyword .and_ ts then do
      let (second, ts) ← negation p n (ts.drop 1)
      moreTerms p n .and (first.combine .and second) ts
    else .ok (first, ts)

def negation (p : Place) : Nat → List Token → Except QueryError (Reading Condition)
  | 0, _ => .error .tooDeep
  | n + 1, ts =>
    if atKeyword .not_ ts then
      if atKeyword .exists_ (ts.drop 1) then do
        let (q, ts) ← nested p n (ts.drop 2)
        .ok (.exists true q, ts)
      else do
        let (c, ts) ← negation p n (ts.drop 1)
        .ok (.not c, ts)
    else predicate p n ts

/-- A comparison or an existence test. An opening bracket is tried as a condition first, which
stands if a condition may end behind its closing bracket; else it opens an operand. -/
def predicate (p : Place) : Nat → List Token → Except QueryError (Reading Condition)
  | 0, _ => .error .tooDeep
  | n + 1, ts =>
    if atKeyword .exists_ ts then do
      let (q, ts) ← nested p n (ts.drop 1)
      .ok (.exists false q, ts)
    else if atLexeme .leftParen ts && !atSubquery ts then
      match condition p n (ts.drop 1) with
      | .ok (c, rest) =>
        if atLexeme .rightParen rest && atConditionEnd (rest.drop 1) then .ok (c, rest.drop 1)
        else comparisonFrom p n ts
      | .error _ => comparisonFrom p n ts
    else comparisonFrom p n ts

def comparisonFrom (p : Place) : Nat → List Token → Except QueryError (Reading Condition)
  | 0, _ => .error .tooDeep
  | n + 1, ts => do
    let (left, ts) ← expr p n 0 ts
    let negated := atKeyword .not_ ts
    let ts := if negated then ts.drop 1 else ts
    if atKeyword .between ts then do
      let (low, ts) ← expr p n 0 (ts.drop 1)
      let ts ← expectKeyword p .and_ ts
      let (high, ts) ← expr p n 0 ts
      let range := (Condition.compare .gtEq left low).combine .and (.compare .ltEq left high)
      .ok (if negated then .not range else range, ts)
    else do
      let (op, ts) ← comparison p negated ts
      let (right, ts) ← if op = .isIn ∨ op = .notIn then members p n ts else expr p n 0 ts
      .ok (.compare op left right, ts)

def members (p : Place) : Nat → List Token → Except QueryError (Reading Expr)
  | 0, _ => .error .tooDeep
  | n + 1, ts =>
    if atSubquery ts then do
      let (q, ts) ← nested p n ts
      .ok (.subquery q, ts)
    else do
      let ts ← expect p .leftParen "(" ts
      let (items, ts) ← if atLexeme .rightParen ts then .ok ([], ts) else exprs p n ts
      let ts ← expect p .rightParen ")" ts
      .ok (.list items, ts)

/-- Expressions with commas between them, at least one. -/
def exprs (p : Place) : Nat → List Token → Except QueryError (Reading (List Expr))
  | 0, _ => .error .tooDeep
  | n + 1, ts => do
    let (first, ts) ← expr p n 0 ts
    if atLexeme .comma ts then do
      let (others, ts) ← exprs p n (ts.drop 1)
      .ok (first :: others, ts)
    else .ok ([first], ts)

/-- An expression whose operators bind with `power` or more. -/
def expr (p : Place) : Nat → Nat → List Token → Except QueryError (Reading Expr)
  | 0, _, _ => .error .tooDeep
  | n + 1, power, ts => do
    let (first, ts) ← operand p n ts
    moreOperands p n power first ts

/-- The further operands behind the first. -/
def moreOperands (p : Place) : Nat → Nat → Expr → List Token → Except QueryError (Reading Expr)
  | 0, _, _, _ => .error .tooDeep
  | n + 1, power, first, ts =>
    match ts.head?.bind fun t => binaryOf t.lexeme with
    | none => .ok (first, ts)
    | some (op, left, right) =>
      if left < power then .ok (first, ts)
      else do
        let (second, ts) ← expr p n right (ts.drop 1)
        moreOperands p n power (.binary op first second) ts

def operand (p : Place) : Nat → List Token → Except QueryError (Reading Expr)
  | 0, _ => .error .tooDeep
  | _ + 1, [] => unexpected p "expression" []
  | n + 1, t :: r =>
    match signOf t.lexeme with
    | some s => do
      let (e, ts) ← expr p n signPower r
      .ok (applySign s e, ts)
    | none =>
      match atom? t.lexeme with
      | some e => .ok (e, r)
      | none =>
        match t.lexeme with
        | .keyword .case_ => caseExpr p n r
        | .keyword .left =>
          if atLexeme .leftParen r then call p n "LEFT" (r.drop 1)
          else unexpected p "expression" (t :: r)
        | .keyword .right =>
          if atLexeme .leftParen r then call p n "RIGHT" (r.drop 1)
          else unexpected p "expression" (t :: r)
        | .identifier s =>
          if atLexeme .leftParen r then call p n (Text.asciiUpper s) (r.drop 1)
          else if atLexeme .dot r then qualified p s (r.drop 1)
          else .ok (.column none s, r)
        | .leftParen =>
          if atSubquery (t :: r) then do
            let (q, ts) ← nested p n (t :: r)
            .ok (.subquery q, ts)
          else do
            let (e, ts) ← expr p n 0 r
            let ts ← expect p .rightParen ")" ts
            .ok (.paren e, ts)
        | _ => unexpected p "expression" (t :: r)

/-- A call behind its opening bracket; `IF` chooses by a condition. -/
def call (p : Place) : Nat → String → List Token → Except QueryError (Reading Expr)
  | 0, _, _ => .error .tooDeep
  | n + 1, function, ts =>
    if function = "IF" then do
      let (c, ts) ← condition p n ts
      let ts ← expect p .comma "," ts
      let (yes, ts) ← expr p n 0 ts
      let ts ← expect p .comma "," ts
      let (no, ts) ← expr p n 0 ts
      let ts ← expect p .rightParen ")" ts
      .ok (.ite c yes no, ts)
    else do
      let (distinct, ts) := distinctMark ts
      let (args, ts) ← if atLexeme .rightParen ts then .ok ([], ts) else exprs p n ts
      let ts ← expect p .rightParen ")" ts
      .ok (.call function distinct args, ts)

/-- A `CASE` behind its word. With an operand, each branch compares it with a value. -/
def caseExpr (p : Place) : Nat → List Token → Except QueryError (Reading Expr)
  | 0, _ => .error .tooDeep
  | n + 1, ts => do
    let (subject, ts) ← if atKeyword .when ts then .ok (none, ts)
      else (expr p n 0 ts).map fun r => (some r.1, r.2)
    let (branches, ts) ← whenBranches p n subject ts
    if branches.isEmpty then unexpected p "WHEN" ts
    else do
      let (otherwise, ts) ← if atKeyword .else_ ts then
          (expr p n 0 (ts.drop 1)).map fun r => (some r.1, r.2)
        else .ok (none, ts)
      let ts ← expectKeyword p .end_ ts
      .ok (.case branches otherwise, ts)

def whenBranches (p : Place) : Nat → Option Expr → List Token → Except QueryError (Reading (List (Condition × Expr)))
  | 0, _, _ => .error .tooDeep
  | n + 1, subject, ts =>
    if atKeyword .when ts then do
      let (c, ts) ← match subject with
        | some e => (expr p n 0 (ts.drop 1)).map fun r => (.compare .eq e r.1, r.2)
        | none => condition p n (ts.drop 1)
      let ts ← expectKeyword p .then_ ts
      let (value, ts) ← expr p n 0 ts
      let (others, ts) ← whenBranches p n subject ts
      .ok ((c, value) :: others, ts)
    else .ok ([], ts)

def nested (p : Place) : Nat → List Token → Except QueryError (Reading Statement)
  | 0, _ => .error .tooDeep
  | n + 1, ts =>
    match ts with
    | [] => unexpected p "(" []
    | t :: r =>
      if t.lexeme = .leftParen then
        match splitClose 0 r with
        | some (inner, rest) => do
          let s ← statement p n inner
          .ok (s, rest)
        | none => .error (.unbalanced t.start t.stop)
      else unexpected p "(" (t :: r)

/-- A whole statement: an operand, and the operands of its set operations. -/
def statement (p : Place) : Nat → List Token → Except QueryError Statement
  | 0, _ => .error .tooDeep
  | n + 1, ts => do
    match ← operands ts with
    | [] => .error .missingFrom
    | first :: others =>
      let s ← single p n first.tokens
      let operations ← others.mapM fun o =>
        (single p n o.tokens).map fun t => SetOperation.mk (o.operator.getD .union) t
      .ok { s with operations }

def single (p : Place) : Nat → List Token → Except QueryError Statement
  | 0, _ => .error .tooDeep
  | n + 1, ts => do
    let segments ← clauses ts
    let draft ← segments.foldlM (fun d s => clause p n d s) {}
    draft.statement

/-- Adds a clause to a draft; its tokens have to be used up. -/
def clause (p : Place) : Nat → Draft → Segment → Except QueryError Draft
  | 0, _, _ => .error .tooDeep
  | n + 1, d, s => do
    let p := p.within s.tokens s.stop
    let (d, ts) ← match s.kind with
      | .select =>
        let (distinct, ts) := distinctMark s.tokens
        (selectItems p n ts).map fun r => ({ d with distinct, items := r.1 }, r.2)
      | .source => (source p n s.tokens).map fun r => ({ d with source := some r.1 }, r.2)
      | .join kind => (join p n kind s.tokens).map fun r => ({ d with joins := d.joins ++ [r.1] }, r.2)
      | .filter => (condition p n s.tokens).map fun r => ({ d with filter := some r.1 }, r.2)
      | .groupBy => (exprs p n s.tokens).map fun r => ({ d with groupBy := r.1 }, r.2)
      | .having => (condition p n s.tokens).map fun r => ({ d with having := some r.1 }, r.2)
      | .orderBy => (orderItems p n s.tokens).map fun r => ({ d with orderBy := r.1 }, r.2)
      | .limit => (rowCount s.stop s.tokens).map fun r => ({ d with limit := some r.1 }, r.2)
      | .pivot => (expr p n 0 s.tokens).map fun r => ({ d with pivot := some r.1 }, r.2)
    expectEnd p ts
    .ok d

def selectItems (p : Place) : Nat → List Token → Except QueryError (Reading (List SelectItem))
  | 0, _ => .error .tooDeep
  | n + 1, ts => do
    let (e, rest) ← expr p n 0 ts
    let text := sourceText p ts rest
    let (alias?, rest) ← optionalAlias p rest
    if atLexeme .comma rest then do
      let (others, rest) ← selectItems p n (rest.drop 1)
      .ok (⟨e, text, alias?⟩ :: others, rest)
    else .ok ([⟨e, text, alias?⟩], rest)

/-- A table or a statement in brackets, and its alias. -/
def source (p : Place) : Nat → List Token → Except QueryError (Reading Source)
  | 0, _ => .error .tooDeep
  | n + 1, ts =>
    if atLexeme .leftParen ts then do
      let (q, ts) ← nested p n ts
      let (alias?, ts) ← optionalAlias p ts
      .ok (.query q alias?, ts)
    else do
      let (table, ts) ← name p "table name" ts
      let (alias?, ts) ← optionalAlias p ts
      .ok (.table table alias?, ts)

def join (p : Place) : Nat → JoinKind → List Token → Except QueryError (Reading JoinClause)
  | 0, _, _ => .error .tooDeep
  | n + 1, kind, ts => do
    let (s, ts) ← source p n ts
    let ts ← expectKeyword p .on ts
    let (c, ts) ← condition p n ts
    .ok (⟨kind, s, c⟩, ts)

def orderItems (p : Place) : Nat → List Token → Except QueryError (Reading (List OrderItem))
  | 0, _ => .error .tooDeep
  | n + 1, ts => do
    let (e, ts) ← expr p n 0 ts
    let (d, ts) := direction ts
    if atLexeme .comma ts then do
      let (others, ts) ← orderItems p n (ts.drop 1)
      .ok (⟨e, d⟩ :: others, ts)
    else .ok ([⟨e, d⟩], ts)

end

def budget (tokens : List Token) : Nat :=
  16 * tokens.length + 16

/-- Numbers the placeholders without a number from left to right, from `count + 1`. -/
def numberPlaceholders (count : Nat) : List Token → List Token
  | [] => []
  | t :: r =>
    if t.lexeme = .placeholder none then
      { t with lexeme := .placeholder (some (count + 1)) } :: numberPlaceholders (count + 1) r
    else t :: numberPlaceholders count r

def isNumbered (t : Token) : Bool :=
  match t.lexeme with
  | .placeholder (some _) => true
  | _ => false

def isError (t : Token) : Bool :=
  match t.lexeme with
  | .error _ => true
  | _ => false

/-- The tokens of a text, without its end and the semicolons there, placeholders numbered. Fails at
the first token that could not be read, and where placeholders with and without number meet. -/
def tokensOf (text : String) : Except QueryError (List Token) :=
  let all := Lexer.tokens text.utf8ByteSize text.toList
  match all.find? isError with
  | some t => .error (.unexpected "token" t)
  | none =>
    let ts := (all.reverse.dropWhile fun t => t.lexeme == .eof || t.lexeme == .semicolon).reverse
    if ts.any (fun t => t.lexeme == .placeholder none) && ts.any isNumbered then
      .error .mixedPlaceholders
    else .ok (numberPlaceholders 0 ts)

def placeOf (text : String) (tokens : List Token) : Place :=
  Place.within ⟨text.toList, 0⟩ tokens text.utf8ByteSize

def parseStatement (text : String) : Except QueryError Statement := do
  let ts ← tokensOf text
  statement (placeOf text ts) (budget ts) ts

def parseCondition (text : String) : Except QueryError Condition := do
  let ts ← tokensOf text
  let (c, rest) ← condition (placeOf text ts) (budget ts) ts
  expectEnd (placeOf text ts) rest
  .ok c

def parseExpr (text : String) : Except QueryError Expr := do
  let ts ← tokensOf text
  let (e, rest) ← expr (placeOf text ts) (budget ts) 0 ts
  expectEnd (placeOf text ts) rest
  .ok e

end GridQuery.Parser
