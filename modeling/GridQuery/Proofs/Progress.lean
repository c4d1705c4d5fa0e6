import GridQuery.Proofs.CutPlaces
import GridQuery.Proofs.DrawnItems

/-!
Progress. What a reader gives stands behind the place where it began and not behind the end of the tokens; an
attempt that fails costs nothing, since the place is put back; and a statement within a statement has fewer
tokens than that. So reading comes to an end on all tokens, and needs none that are not there.
-/

namespace GridQuery
set_option autoImplicit false

open GridQuery.Parser

namespace Parser

/-! ### Places move on -/

/-- From every place among the tokens a reader moves on, and not over their end. -/
def Advances {α : Type} (T : List Token) (read : List Token → Except QueryError (Reading α)) : Prop :=
  ∀ place ≤ T.length, Yields (fun r => ∃ place', place < place' ∧ place' ≤ T.length ∧ r.2 = T.drop place')
    (read (T.drop place))

theorem advances_of_shorter {α : Type} {read : List Token → Except QueryError (Reading α)}
    (h : ∀ ts, Yields (fun r => r.2 <:+ ts ∧ r.2.length < ts.length) (read ts)) (T : List Token) :
    Advances T read := by
  intro place _ r hr
  obtain ⟨hsuffix, hshorter⟩ := h (T.drop place) r hr
  rw [List.length_drop] at hshorter
  refine ⟨T.length - r.2.length, by omega, Nat.sub_le _ _, ?_⟩
  exact (Cursor.drop_of_suffix (hsuffix.trans (List.drop_suffix place T))).symm

theorem advances_of_draws {α : Type} {read : List Token → Except QueryError (Reading α)} {src : List Char}
    {statements : α → List Statement} (h : ∀ ts, Yields (Draws src ts statements Takes ts) (read ts))
    (T : List Token) : Advances T read :=
  advances_of_shorter (fun ts => (h ts).imp fun _ hr => ⟨hr.1.suffix, hr.1.length_lt⟩) T

/-- The readers that move on whenever they give something. A call and a `CASE` are read behind their first
tokens, and move on from there. -/
structure ReadersAdvance (p : Place) (n : Nat) (T : List Token) : Prop where
  condition : Advances T (condition p n)
  conjunction : Advances T (conjunction p n)
  negation : Advances T (negation p n)
  predicate : Advances T (predicate p n)
  comparisonFrom : Advances T (comparisonFrom p n)
  members : Advances T (members p n)
  exprs : Advances T (exprs p n)
  expr : ∀ power, Advances T (expr p n power)
  operand : Advances T (operand p n)
  call : ∀ function, Advances T (call p n function)
  caseExpr : Advances T (caseExpr p n)
  nested : Advances T (nested p n)

theorem readersAdvance (p : Place) (n : Nat) (T : List Token) : ReadersAdvance p n T where
  condition := advances_of_draws (fun ts => (readersDraw p.source ts n).condition p.stop ts List.infix_rfl) T
  conjunction := advances_of_draws (fun ts => (readersDraw p.source ts n).conjunction p.stop ts List.infix_rfl) T
  negation := advances_of_draws (fun ts => (readersDraw p.source ts n).negation p.stop ts List.infix_rfl) T
  predicate := advances_of_draws (fun ts => (readersDraw p.source ts n).predicate p.stop ts List.infix_rfl) T
  comparisonFrom :=
    advances_of_draws (fun ts => (readersDraw p.source ts n).comparisonFrom p.stop ts List.infix_rfl) T
  members := advances_of_draws (fun ts => (readersDraw p.source ts n).members p.stop ts List.infix_rfl) T
  exprs := advances_of_draws (fun ts => (readersDraw p.source ts n).exprs p.stop ts List.infix_rfl) T
  expr power := advances_of_draws (fun ts => (readersDraw p.source ts n).expr p.stop power ts List.infix_rfl) T
  operand := advances_of_draws (fun ts => (readersDraw p.source ts n).operand p.stop ts List.infix_rfl) T
  call function := advances_of_shorter (fun ts =>
    ((readersDraw p.source ts n).call p.stop function ts List.infix_rfl).imp fun _ hr => hr.1.shorter) T
  caseExpr := advances_of_draws (fun ts => (readersDraw p.source ts n).caseExpr p.stop ts List.infix_rfl) T
  nested := advances_of_draws (fun ts => (readersDraw p.source ts n).nested p.stop ts List.infix_rfl) T

/-! ### Statements within statements -/

/-- A statement in brackets is read from fewer tokens, without those of the brackets. An operand has no more
tokens than its statement, and a clause has fewer than its operand. -/
structure NestsShorter (p : Place) (T : List Token) : Prop where
  nested : (∃ e, ∀ n, nested p (n + 1) T = .error e) ∨
    ∃ inner rest, inner.length + 2 + rest.length = T.length ∧
      ∀ n, nested p (n + 1) T = (statement p n inner).map fun s => (s, rest)
  operands : Yields (fun os => ∀ o ∈ os, o.tokens.length ≤ T.length) (operands T)
  clauses : Yields (fun ss => ∀ s ∈ ss, s.tokens.length < T.length) (clauses T)

theorem nestsShorter (p : Place) (T : List Token) : NestsShorter p T where
  nested := by
    cases T with
    | nil => exact .inl ⟨_, fun _ => rfl⟩
    | cons t r =>
      by_cases ht : t.lexeme = .leftParen
      · cases hsplit : splitClose 0 r with
        | none => exact .inl ⟨_, fun n => by rw [Parser.nested, if_pos ht, hsplit]⟩
        | some parts =>
          obtain ⟨inner, rest⟩ := parts
          obtain ⟨-, -, hlength⟩ := closing?_cut (List.drop_zero (l := t :: r)) hsplit
          refine .inr ⟨inner, rest, by omega, fun n => ?_⟩
          rw [Parser.nested, if_pos ht, hsplit]
          rfl
      · exact .inl ⟨_, fun n => by rw [Parser.nested, if_neg ht]; rfl⟩
  operands := (operands_part T).imp fun _ hos o ho => (hos o ho).length_le
  clauses := by
    cases T with
    | nil => exact Yields.error (.unexpected "SELECT" ⟨.eof, 0, 0⟩)
    | cons t r => exact (clauses_part (t :: r)).imp fun _ hss s hs => Nat.lt_succ_of_le (hss s hs).length_le

/-! ### All of it -/

/-- Within any budget that counts the tokens reading gives the same, and never fails for want of budget. -/
structure Ends (p : Place) (n : Nat) (T : List Token) : Prop where
  condition : budget T ≤ n → condition p n T = condition p (budget T) T ∧ Shallow (condition p n T)
  expr : budget T ≤ n → ∀ power,
    expr p n power T = expr p (budget T) power T ∧ Shallow (expr p n power T)
  statement : budget T ≤ n → statement p n T = statement p (budget T) T ∧ Shallow (statement p n T)

theorem ends (p : Place) (n : Nat) (T : List Token) : Ends p n T where
  condition h := by
    obtain ⟨heq, hshallow⟩ := condition_settled p T h
    exact ⟨heq, heq ▸ hshallow⟩
  expr h power := by
    obtain ⟨heq, hshallow⟩ := expr_settled p T h power
    exact ⟨heq, heq ▸ hshallow⟩
  statement h := by
    obtain ⟨heq, hshallow⟩ := statement_settled p T h
    exact ⟨heq, heq ▸ hshallow⟩

/-- With every number of a token checked, all is as without. A bracket that is tried as a condition may leave any
place when that fails. -/
structure Inside (p : Place) (n : Nat) (T : List Token) : Prop where
  predicate : ∀ left, Cursor.Follows T (Cursor.predicate p n T left) (predicate p (n + 1))
  nested : Cursor.Follows T (Cursor.parenthesized p n T) (nested p (n + 1))
  texts : ∀ start place, place ≤ T.length →
    sourceText? p.source T start place = some (sourceText p (T.drop start) (T.drop place))
  operands : (operands? T).run = some (operands T)
  clauses : (clauses? T).run = some (clauses T)

theorem inside (p : Place) (n : Nat) (T : List Token) : Inside p n T where
  predicate := Cursor.predicate_follows p n T
  nested := Cursor.parenthesized_follows p n T
  texts _ _ h := sourceText?_eq p h
  operands := operands?_run T
  clauses := clauses?_run T

/-- Reading makes progress on all tokens, and what is parsed from a text never wants budget. -/
theorem readers_progress :
    (∀ p n T, ReadersAdvance p n T ∧ NestsShorter p T ∧ Ends p n T ∧ Inside p n T) ∧
      ∀ text, Shallow (parseStatement text) ∧ Shallow (parseCondition text) ∧ Shallow (parseExpr text) :=
  ⟨fun p n T => ⟨readersAdvance p n T, nestsShorter p T, ends p n T, inside p n T⟩,
    fun text => ⟨shallow_parseStatement text, shallow_parseCondition text, shallow_parseExpr text⟩⟩

/-- `(a + b) = c` -/
def bracketedSum : List Token :=
  bareTokens [.leftParen, .identifier "a", .plus, .identifier "b", .rightParen, .eq, .identifier "c"]

/-- There is no condition in the brackets, and the place is lost on the way; the comparison begins at the bracket
all the same, and ends behind the last of seven tokens. -/
theorem readers_progress_bracketedSum :
    (condition ⟨[], 0⟩ 128 (bracketedSum.drop 1)).toOption.isNone = true ∧
      ∃ c, (Cursor.predicate ⟨[], 0⟩ 128 bracketedSum fun _ => 100).run 0 = some (.ok c, 7) := by
  have hread : ((predicate ⟨[], 0⟩ 129 bracketedSum).toOption.map fun r => r.2.length) = some 0 := by
    decide +kernel
  obtain ⟨-, -, -, hinside⟩ := readers_progress.1 ⟨[], 0⟩ 128 bracketedSum
  have hfollows := hinside.predicate (fun _ => 100) 0 (Nat.zero_le _)
  rw [List.drop_zero] at hfollows
  refine ⟨by decide +kernel, ?_⟩
  cases hpredicate : predicate ⟨[], 0⟩ 129 bracketedSum with
  | error e =>
    rw [hpredicate] at hread
    cases hread
  | ok r =>
    rw [hpredicate] at hread hfollows
    have hrest : r.2.length = 0 := Option.some.inj hread
    refine ⟨r.1, hfollows.trans ?_⟩
    rw [hrest]
    rfl

end Parser

end GridQuery
