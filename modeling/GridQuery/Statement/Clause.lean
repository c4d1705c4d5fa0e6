import GridQuery.Error

/-!
Cutting the tokens of a statement into the operands of its set operations, and one operand into its
clauses. Only tokens outside brackets cut, so the words of a nested statement never do.
-/

namespace GridQuery
set_option autoImplicit false

/-- The bracket depth behind a token. -/
def depthAfter (depth : Nat) (t : Token) : Nat :=
  match t.lexeme with
  | .leftParen => depth + 1
  | .rightParen => depth - 1
  | _ => depth

/-- Fails at a bracket that closes nothing, and at the end if one is left open. -/
def checkBalance (tokens : List Token) : Except QueryError Unit :=
  go 0 0 0 tokens
where
  go (depth start stop : Nat) : List Token → Except QueryError Unit
    | [] => if depth = 0 then .ok () else .error (.unbalanced start stop)
    | t :: r =>
      if t.lexeme = .rightParen ∧ depth = 0 then .error (.unbalanced t.start t.stop)
      else go (depthAfter depth t) t.start t.stop r

/-- What follows the bracket that closes `depth + 1` open ones, and what stands before it. -/
def splitClose (depth : Nat) : List Token → Option (List Token × List Token)
  | [] => none
  | t :: r =>
    if t.lexeme = .rightParen ∧ depth = 0 then some ([], r)
    else (splitClose (depthAfter depth t) r).map fun p => (t :: p.1, p.2)

/-- Takes off the pairs of brackets around all tokens, `fuel` of them at most. -/
def stripParens : Nat → List Token → List Token
  | 0, ts => ts
  | fuel + 1, ts =>
    match ts with
    | t :: r =>
      if t.lexeme = .leftParen then
        match splitClose 0 r with
        | some (inner, []) => stripParens fuel inner
        | _ => ts
      else ts
    | [] => []

structure Operand where
  operator : Option SetOperator
  tokens : List Token

/-- The set operator at the front and what follows it. -/
def setOperator? : List Token → Option (SetOperator × List Token)
  | [] => none
  | t :: r =>
    match t.lexeme with
    | .keyword .union =>
      match r with
      | u :: r' => if u.lexeme = .keyword .all then some (.unionAll, r') else some (.union, r)
      | [] => some (.union, r)
    | .keyword .intersect => some (.intersect, r)
    | .keyword .except => some (.except, r)
    | _ => none

theorem length_of_setOperator? {ts r : List Token} {op : SetOperator}
    (h : setOperator? ts = some (op, r)) : r.length < ts.length := by
  unfold setOperator? at h
  repeat' split at h
  all_goals simp only [reduceCtorEq, Option.some.injEq, Prod.mk.injEq] at h
  all_goals
    obtain ⟨-, rfl⟩ := h
    simp only [List.length_cons]
    omega

/-- An operand from the tokens gathered, backwards; `start` and `stop` are the place of an error. -/
def operand (operator : Option SetOperator) (gathered : List Token) (start stop : Nat) :
    Except QueryError Operand :=
  let tokens := stripParens gathered.length gathered.reverse
  if tokens.isEmpty then .error (.missingSelect start stop) else .ok ⟨operator, tokens⟩

/-- Cuts at the set operators outside brackets. An operand that is missing at the end is an error at
`start` to `stop`. -/
def splitOperands (depth : Nat) (operator : Option SetOperator) (gathered : List Token)
    (start stop : Nat) (tokens : List Token) : Except QueryError (List Operand) :=
  match tokens with
  | [] => (operand operator gathered start stop).map fun o => [o]
  | t :: r =>
    match _h : (if depth = 0 then setOperator? (t :: r) else none) with
    | some (op, rest) => do
      let first ← operand operator gathered t.start t.stop
      let others ← splitOperands 0 (some op) [] start stop rest
      .ok (first :: others)
    | none => splitOperands (depthAfter depth t) operator (t :: gathered) start stop r
termination_by tokens.length
decreasing_by
  · split at _h
    · have := length_of_setOperator? _h
      simpa using this
    · simp at _h
  · simp

/-- The operands of a statement, the first one without an operator. -/
def operands (tokens : List Token) : Except QueryError (List Operand) := do
  checkBalance tokens
  splitOperands 0 none [] ((tokens.getLast?.map Token.start).getD 0)
    ((tokens.getLast?.map Token.stop).getD 0) tokens

inductive ClauseKind where
  | select
  | source
  | join (kind : JoinKind)
  | filter
  | groupBy
  | having
  | orderBy
  | limit
  | pivot
deriving DecidableEq, Repr

namespace ClauseKind

def text : ClauseKind → String
  | select => "SELECT"
  | source => "FROM"
  | join kind => kind.text
  | filter => "WHERE"
  | groupBy => "GROUP BY"
  | having => "HAVING"
  | orderBy => "ORDER BY"
  | limit => "LIMIT"
  | pivot => "PIVOT"

def isJoin : ClauseKind → Bool
  | join _ => true
  | _ => false

end ClauseKind

/-- A clause: its words from `start` to `stop`, and its tokens. -/
structure Segment where
  kind : ClauseKind
  start : Nat
  stop : Nat
  tokens : List Token

/-- The words of a join behind its kind: `JOIN` or `OUTER JOIN`. -/
def joinWords (kind : JoinKind) : List Keyword → Option (ClauseKind × Nat)
  | .join :: _ => some (.join kind, 2)
  | .outer :: .join :: _ => some (.join kind, 3)
  | _ => none

/-- The clause that some leading keywords open, and how many of them do. -/
def clauseOf : List Keyword → Option (ClauseKind × Nat)
  | .select :: _ => some (.select, 1)
  | .from_ :: _ => some (.source, 1)
  | .where_ :: _ => some (.filter, 1)
  | .having :: _ => some (.having, 1)
  | .limit :: _ => some (.limit, 1)
  | .pivot :: _ => some (.pivot, 1)
  | .group :: .by_ :: _ => some (.groupBy, 2)
  | .order :: .by_ :: _ => some (.orderBy, 2)
  | .join :: _ => some (.join .inner, 1)
  | .inner :: .join :: _ => some (.join .inner, 2)
  | .left :: r => joinWords .left r
  | .right :: r => joinWords .right r
  | .full :: r => joinWords .full r
  | _ => none

def Token.keyword? (t : Token) : Option Keyword :=
  match t.lexeme with
  | .keyword k => some k
  | _ => none

def leadingKeywords (tokens : List Token) : List Keyword :=
  ((tokens.take 3).map Token.keyword?).takeWhile Option.isSome |>.filterMap id

def clauseAt? (tokens : List Token) : Option (ClauseKind × Nat) :=
  clauseOf (leadingKeywords tokens)

/-- Cuts at the words of clauses outside brackets. The tokens before the first clause come first;
`skip` counts the words of a clause still to be passed over. -/
def cutClauses (depth skip : Nat) : List Token → List Token × List Segment
  | [] => ([], [])
  | t :: r =>
    match skip with
    | skip + 1 => cutClauses depth skip r
    | 0 =>
      match (if depth = 0 then clauseAt? (t :: r) else none) with
      | some (kind, width) =>
        let (tokens, segments) := cutClauses depth (width - 1) r
        let stop := (((t :: r).take width).getLast?.map Token.stop).getD t.stop
        ([], ⟨kind, t.start, stop, tokens⟩ :: segments)
      | none =>
        let (tokens, segments) := cutClauses (depthAfter depth t) 0 r
        (t :: tokens, segments)

/-- Fails at the second clause of a kind, joins aside. -/
def checkRepeats (seen : List ClauseKind) : List Segment → Except QueryError Unit
  | [] => .ok ()
  | s :: r =>
    if !s.kind.isJoin && seen.contains s.kind then .error (.duplicateClause s.kind.text s.start)
    else checkRepeats (s.kind :: seen) r

/-- The clauses of one operand: `SELECT` opens it, `FROM` is there, and only joins repeat. -/
def clauses (tokens : List Token) : Except QueryError (List Segment) := do
  checkBalance tokens
  let (before, segments) := cutClauses 0 0 tokens
  if !before.isEmpty || segments.head?.map Segment.kind != some .select then
    .error (.unexpected "SELECT" (tokens.head?.getD ⟨.eof, 0, 0⟩))
  else do
    checkRepeats [] segments
    if segments.any fun s => s.kind == .source then .ok segments else .error .missingFrom

end GridQuery
