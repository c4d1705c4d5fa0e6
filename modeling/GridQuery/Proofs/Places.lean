import GridQuery.Proofs.Outcomes
import GridQuery.Proofs.Spelled

/-!
Readers do not look at places. A reading of tokens is decided by their lexemes: on tokens without places
every reader fails where it did, and else reads the same up to the texts of select items, which are cut
out of the source by place.
-/

namespace GridQuery
set_option autoImplicit false

/-- The token with its places changed. -/
def Token.move (g : Nat → Nat) (t : Token) : Token :=
  ⟨t.lexeme, g t.start, g t.stop⟩

def Segment.move (g : Nat → Nat) (s : Segment) : Segment :=
  ⟨s.kind, g s.start, g s.stop, s.tokens.map (Token.move g)⟩

def Operand.move (g : Nat → Nat) (o : Operand) : Operand :=
  ⟨o.operator, o.tokens.map (Token.move g)⟩

def Token.bare (t : Token) : Token :=
  ⟨t.lexeme, 0, 0⟩

def Segment.bare (s : Segment) : Segment :=
  ⟨s.kind, 0, 0, s.tokens.map Token.bare⟩

def Operand.bare (o : Operand) : Operand :=
  ⟨o.operator, o.tokens.map Token.bare⟩

@[simp] theorem Token.move_lexeme (g : Nat → Nat) (t : Token) : (t.move g).lexeme = t.lexeme := rfl

@[simp] theorem Token.bare_lexeme (t : Token) : t.bare.lexeme = t.lexeme := rfl

/-! ### Cutting -/

section

variable (g : Nat → Nat)

theorem depthAfter_move (depth : Nat) (t : Token) : depthAfter depth (t.move g) = depthAfter depth t := rfl

theorem checkBalance_move (ts : List Token) :
    Carries id (checkBalance ts) (checkBalance (ts.map (Token.move g))) := by
  have hgo : ∀ depth start stop start' stop', Carries id (checkBalance.go depth start stop ts)
      (checkBalance.go depth start' stop' (ts.map (Token.move g))) := by
    induction ts with
    | nil =>
      intro depth start stop start' stop'
      simp only [List.map_nil, checkBalance.go]
      split
      · exact Carries.ok rfl
      · exact Carries.error _ _
    | cons t r ih =>
      intro depth start stop start' stop'
      simp only [List.map_cons, checkBalance.go, Token.move_lexeme, depthAfter_move]
      exact Carries.ite (fun _ => Carries.error _ _) fun _ => ih _ _ _ _ _
  exact hgo 0 0 0 0 0

theorem splitClose_move (depth : Nat) (ts : List Token) :
    splitClose depth (ts.map (Token.move g)) =
      (splitClose depth ts).map fun r => (r.1.map (Token.move g), r.2.map (Token.move g)) := by
  induction ts generalizing depth with
  | nil => rfl
  | cons t r ih =>
    simp only [List.map_cons, splitClose, Token.move_lexeme, depthAfter_move, ih]
    split
    · rfl
    · simp only [Option.map_map, Function.comp_def, List.map_cons]

theorem stripParens_move (fuel : Nat) (ts : List Token) :
    stripParens fuel (ts.map (Token.move g)) = (stripParens fuel ts).map (Token.move g) := by
  induction fuel generalizing ts with
  | zero => rfl
  | succ fuel ih =>
    cases ts with
    | nil => rfl
    | cons t r =>
      simp only [List.map_cons, stripParens, Token.move_lexeme, splitClose_move]
      split
      · cases splitClose 0 r with
        | none => rfl
        | some p =>
          obtain ⟨inner, rest⟩ := p
          cases rest with
          | nil => exact ih inner
          | cons _ _ => rfl
      · rfl

theorem setOperator?_move (ts : List Token) :
    setOperator? (ts.map (Token.move g)) = (setOperator? ts).map fun r => (r.1, r.2.map (Token.move g)) := by
  cases ts with
  | nil => rfl
  | cons t r =>
    simp only [List.map_cons, setOperator?, Token.move_lexeme]
    split
    · cases r with
      | nil => rfl
      | cons u r =>
        simp only [List.map_cons, Token.move_lexeme]
        split <;> rfl
    · rfl
    · rfl
    · rfl

theorem gathered_move (operator : Option SetOperator) (gathered : List Token) (start stop start' stop' : Nat) :
    Carries (Operand.move g) (operand operator gathered start stop)
      (operand operator (gathered.map (Token.move g)) start' stop') := by
  unfold operand
  simp only [List.length_map, ← List.map_reverse, stripParens_move, List.isEmpty_map]
  split
  · exact Carries.error _ _
  · exact Carries.ok rfl

theorem splitOperands_move (depth : Nat) (operator : Option SetOperator) (gathered ts : List Token)
    (start stop start' stop' : Nat) :
    Carries (List.map (Operand.move g)) (splitOperands depth operator gathered start stop ts)
      (splitOperands depth operator (gathered.map (Token.move g)) start' stop' (ts.map (Token.move g))) := by
  induction hn : ts.length using Nat.strongRecOn
    generalizing depth operator gathered ts start stop start' stop' with
  | ind n ih =>
    cases ts with
    | nil =>
      rw [List.map_nil, splitOperands, splitOperands]
      exact (gathered_move g operator gathered start stop start' stop').map fun _ => rfl
    | cons t r =>
      rw [List.map_cons, splitOperands, splitOperands]
      have hset : (if depth = 0 then setOperator? (t.move g :: r.map (Token.move g)) else none) =
          (if depth = 0 then setOperator? (t :: r) else none).map
            fun r => (r.1, r.2.map (Token.move g)) := by
        split
        · exact setOperator?_move g (t :: r)
        · rfl
      split
      · rename_i op rest hop
        split
        · rename_i op' rest' hop'
          rw [hset, hop] at hop'
          cases hop'
          have hlt : rest.length < n := by
            have hop : setOperator? (t :: r) = some (op, rest) := by
              split at hop
              · exact hop
              · cases hop
            have := length_of_setOperator? hop
            omega
          refine (gathered_move g operator gathered _ _ _ _).bind fun first => ?_
          refine (ih _ hlt 0 (some op) [] rest _ _ _ _ rfl).bind fun others => ?_
          exact Carries.ok rfl
        · rename_i hop'
          rw [hset, hop] at hop'
          cases hop'
      · rename_i hop
        split
        · rename_i op' rest' hop'
          rw [hset, hop] at hop'
          cases hop'
        · refine ih _ ?_ _ _ (t :: gathered) r _ _ _ _ rfl
          rw [← hn]
          exact Nat.lt_succ_self _

theorem operands_move (ts : List Token) :
    Carries (List.map (Operand.move g)) (operands ts) (operands (ts.map (Token.move g))) := by
  unfold operands
  exact (checkBalance_move g ts).bind fun _ => splitOperands_move _ _ _ _ _ _ _ _ _

theorem clauseAt?_move (ts : List Token) : clauseAt? (ts.map (Token.move g)) = clauseAt? ts := by
  unfold clauseAt? leadingKeywords
  rw [← List.map_take, List.map_map]
  rfl

theorem cutClauses_move (depth skip : Nat) (ts : List Token) :
    cutClauses depth skip (ts.map (Token.move g)) =
      ((cutClauses depth skip ts).1.map (Token.move g), (cutClauses depth skip ts).2.map (Segment.move g)) := by
  induction ts generalizing depth skip with
  | nil => rfl
  | cons t r ih =>
    have hat : clauseAt? (t.move g :: r.map (Token.move g)) = clauseAt? (t :: r) := clauseAt?_move g (t :: r)
    cases skip with
    | succ skip => exact ih depth skip
    | zero =>
      simp only [List.map_cons, cutClauses, hat, ih, depthAfter_move]
      split
      · rename_i kind width _
        have hstop : ((List.take width (t.move g :: r.map (Token.move g))).getLast?.map Token.stop).getD
            (t.move g).stop = g (((List.take width (t :: r)).getLast?.map Token.stop).getD t.stop) := by
          rw [← List.map_cons, ← List.map_take, List.getLast?_map, Option.map_map]
          cases (List.take width (t :: r)).getLast? <;> rfl
        simp only [hstop, List.map_nil, List.map_cons]
        rfl
      · rfl

theorem checkRepeats_move (seen : List ClauseKind) (ss : List Segment) :
    Carries id (checkRepeats seen ss) (checkRepeats seen (ss.map (Segment.move g))) := by
  induction ss generalizing seen with
  | nil => exact Carries.ok rfl
  | cons s ss ih =>
    simp only [List.map_cons, checkRepeats, Segment.move]
    split
    · exact Carries.error _ _
    · exact ih _

theorem clauses_move (ts : List Token) :
    Carries (List.map (Segment.move g)) (clauses ts) (clauses (ts.map (Token.move g))) := by
  unfold clauses
  refine (checkBalance_move g ts).bind fun _ => ?_
  have hhead : ∀ ss : List Segment, (ss.map (Segment.move g)).head?.map Segment.kind =
      ss.head?.map Segment.kind := by
    rintro (_ | ⟨s, ss⟩) <;> rfl
  have hany : ∀ ss : List Segment, (ss.map (Segment.move g)).any (fun s => s.kind == .source) =
      ss.any fun s => s.kind == .source := by
    intro ss
    rw [List.any_map]
    rfl
  simp only [cutClauses_move, List.isEmpty_map, hhead, hany]
  split
  · exact Carries.error _ _
  · refine (checkRepeats_move g [] _).bind fun _ => ?_
    split
    · exact Carries.ok rfl
    · exact Carries.error _ _

end

theorem splitClose_bare (depth : Nat) (ts : List Token) :
    splitClose depth (ts.map Token.bare) =
      (splitClose depth ts).map fun r => (r.1.map Token.bare, r.2.map Token.bare) :=
  splitClose_move (fun _ => 0) depth ts

theorem operands_bare (ts : List Token) :
    Carries (List.map Operand.bare) (operands ts) (operands (ts.map Token.bare)) :=
  operands_move (fun _ => 0) ts

theorem clauses_bare (ts : List Token) :
    Carries (List.map Segment.bare) (clauses ts) (clauses (ts.map Token.bare)) :=
  clauses_move (fun _ => 0) ts

/-! ### Trees without titles -/

def JoinClause.untitled (j : JoinClause) : JoinClause :=
  ⟨j.kind, j.source.untitled, j.condition.untitled⟩

theorem untitledOperations_cons (op : SetOperation) (ops : List SetOperation) :
    untitledOperations (op :: ops) =
      ⟨op.operator, op.statement.untitled⟩ :: untitledOperations ops := by
  cases op
  rfl

theorem untitledJoins_singleton (j : JoinClause) : untitledJoins [j] = [j.untitled] := by
  cases j
  rfl

theorem untitledTerms_append (cs ds : List Condition) :
    untitledTerms (cs ++ ds) = untitledTerms cs ++ untitledTerms ds := by
  induction cs with
  | nil => rfl
  | cons c cs ih => simp only [List.cons_append, untitledTerms, ih]

theorem untitledJoins_append (js ks : List JoinClause) :
    untitledJoins (js ++ ks) = untitledJoins js ++ untitledJoins ks := by
  induction js with
  | nil => rfl
  | cons j js ih =>
    obtain ⟨kind, source, c⟩ := j
    simp only [List.cons_append, untitledJoins, ih]

theorem Condition.combine_untitled (op : Connective) (first second : Condition) :
    (first.combine op second).untitled = first.untitled.combine op second.untitled := by
  cases first with
  | logic o terms =>
    simp only [Condition.combine, Condition.untitled]
    split
    · simp only [Condition.untitled, untitledTerms_append, untitledTerms]
    · rfl
  | _ => rfl

theorem operations_untitled (s : Statement) (ops : List SetOperation) :
    ({ s with operations := ops } : Statement).untitled =
      { s.untitled with operations := untitledOperations ops } := by
  cases s
  rfl

namespace Parser

theorem applySign_untitled (s : Sign) (e : Expr) :
    (applySign s e).untitled = applySign s e.untitled := by
  cases e with
  | literal c => cases c <;> cases s <;> rfl
  | _ => cases s <;> rfl

theorem atom?_untitled {l : Lexeme} {e : Expr} (h : atom? l = some e) : e.untitled = e := by
  unfold atom? at h
  split at h
  all_goals first
    | cases h; rfl
    | cases h

def Draft.untitled (d : Draft) : Draft where
  distinct := d.distinct
  items := untitledItems d.items
  source := d.source.map Source.untitled
  joins := untitledJoins d.joins
  filter := untitledCondition d.filter
  groupBy := untitledExprs d.groupBy
  having := untitledCondition d.having
  orderBy := untitledOrder d.orderBy
  limit := d.limit
  pivot := untitledElse d.pivot

/-! ### The parts of readers -/

def bareReading {α β : Type} (f : α → β) (r : Reading α) : Reading β :=
  (f r.1, r.2.map Token.bare)

variable (p q : Place)

@[simp] theorem atLexeme_move (g : Nat → Nat) (l : Lexeme) (ts : List Token) :
    atLexeme l (ts.map (Token.move g)) = atLexeme l ts := by
  cases ts <;> rfl

@[simp] theorem atKeyword_move (g : Nat → Nat) (k : Keyword) (ts : List Token) :
    atKeyword k (ts.map (Token.move g)) = atKeyword k ts :=
  atLexeme_move g _ ts

@[simp] theorem atLexeme_bare (l : Lexeme) (ts : List Token) :
    atLexeme l (ts.map Token.bare) = atLexeme l ts :=
  atLexeme_move (fun _ => 0) l ts

@[simp] theorem atKeyword_bare (k : Keyword) (ts : List Token) :
    atKeyword k (ts.map Token.bare) = atKeyword k ts :=
  atLexeme_bare _ ts

@[simp] theorem atSubquery_bare (ts : List Token) :
    atSubquery (ts.map Token.bare) = atSubquery ts := by
  rcases ts with _ | ⟨t, _ | ⟨u, r⟩⟩ <;> rfl

@[simp] theorem atConditionEnd_bare (ts : List Token) :
    atConditionEnd (ts.map Token.bare) = atConditionEnd ts := by
  cases ts <;> rfl

theorem expect_bare (l : Lexeme) (expected : String) (ts : List Token) :
    Carries (List.map Token.bare) (expect p l expected ts)
      (expect q l expected (ts.map Token.bare)) := by
  cases ts with
  | nil => exact Carries.error _ _
  | cons t r => exact Carries.ite (fun _ => Carries.ok rfl) fun _ => Carries.error _ _

theorem expectEnd_bare (ts : List Token) :
    Carries id (expectEnd p ts) (expectEnd q (ts.map Token.bare)) := by
  cases ts with
  | nil => exact Carries.ok rfl
  | cons t r => exact Carries.error _ _

theorem name_bare (expected : String) (ts : List Token) :
    Carries (bareReading id) (name p expected ts) (name q expected (ts.map Token.bare)) := by
  cases ts with
  | nil => exact Carries.error _ _
  | cons t r =>
    simp only [List.map_cons, name, Token.bare_lexeme]
    split
    · exact Carries.ok rfl
    · exact Carries.ok rfl
    · exact Carries.error _ _

theorem optionalAlias_bare (ts : List Token) :
    Carries (bareReading id) (optionalAlias p ts) (optionalAlias q (ts.map Token.bare)) := by
  cases ts with
  | nil => exact Carries.ok rfl
  | cons t r =>
    simp only [List.map_cons, optionalAlias, Token.bare_lexeme]
    split
    · exact (name_bare p q _ r).map fun _ => rfl
    · exact Carries.ok rfl
    · exact Carries.ok rfl

theorem comparison_bare (negated : Bool) (ts : List Token) :
    Carries (bareReading id) (comparison p negated ts)
      (comparison q negated (ts.map Token.bare)) := by
  cases ts with
  | nil => exact Carries.error _ _
  | cons t r =>
    simp only [List.map_cons, comparison, Token.bare_lexeme, atKeyword_bare]
    split
    · exact Carries.error _ _
    · refine Carries.ite (fun _ => ?_) fun _ => Carries.ite (fun _ => Carries.ok ?_) fun _ => Carries.ok rfl
      · split
        · exact Carries.ok rfl
        · exact Carries.ok rfl
        · exact Carries.error _ _
      · simp [bareReading]

theorem qualified_bare (table : String) (ts : List Token) :
    Carries (bareReading Expr.untitled) (qualified p table ts)
      (qualified q table (ts.map Token.bare)) := by
  cases ts with
  | nil => exact Carries.error _ _
  | cons t r =>
    simp only [List.map_cons, qualified, Token.bare_lexeme]
    split
    · exact Carries.ok rfl
    · exact Carries.ok rfl
    · exact Carries.ok rfl
    · exact Carries.error _ _

theorem distinctMark_move (g : Nat → Nat) (ts : List Token) :
    distinctMark (ts.map (Token.move g)) =
      ((distinctMark ts).1, (distinctMark ts).2.map (Token.move g)) := by
  simp only [distinctMark, atKeyword_move]
  split
  · simp
  · split
    · simp
    · rfl

theorem distinctMark_bare (ts : List Token) :
    distinctMark (ts.map Token.bare) = ((distinctMark ts).1, (distinctMark ts).2.map Token.bare) :=
  distinctMark_move (fun _ => 0) ts

theorem direction_move (g : Nat → Nat) (ts : List Token) :
    direction (ts.map (Token.move g)) = ((direction ts).1, (direction ts).2.map (Token.move g)) := by
  simp only [direction, atKeyword_move]
  split
  · simp
  · split
    · simp
    · rfl

theorem direction_bare (ts : List Token) :
    direction (ts.map Token.bare) = ((direction ts).1, (direction ts).2.map Token.bare) :=
  direction_move (fun _ => 0) ts

theorem rowCount_bare (stop stop' : Nat) (ts : List Token) :
    Carries (bareReading id) (rowCount stop ts) (rowCount stop' (ts.map Token.bare)) := by
  cases ts with
  | nil => exact Carries.error _ _
  | cons t r =>
    simp only [List.map_cons, rowCount, Token.bare_lexeme]
    split
    · exact Carries.ok rfl
    · exact Carries.error _ _

/-- Tokens without places have no source text. -/
theorem sourceText_bare (ts rest : List Token) :
    sourceText p (ts.map Token.bare) rest = "" := by
  unfold sourceText
  split
  · rename_i first last hfirst hlast
    have hf : first.start = 0 := by
      rw [List.head?_map] at hfirst
      obtain ⟨t, -, rfl⟩ := Option.map_eq_some_iff.1 hfirst
      rfl
    have hl : last.stop = 0 := by
      rw [← List.map_take, List.getLast?_map] at hlast
      obtain ⟨t, -, rfl⟩ := Option.map_eq_some_iff.1 hlast
      rfl
    rw [hf, hl]
    simp [Text.sliceBytes, Text.takeBytes, Text.trimChars, Text.trimLeft, Text.trimRight]
  · rfl

/-- Without places, every reader reads the same within a budget of `n`. -/
structure ReadersIgnorePlaces (n : Nat) : Prop where
  condition : ∀ p q ts, Carries (bareReading Condition.untitled) (condition p n ts)
    (condition q n (ts.map Token.bare))
  conjunction : ∀ p q ts, Carries (bareReading Condition.untitled) (conjunction p n ts)
    (conjunction q n (ts.map Token.bare))
  moreTerms : ∀ p q op first ts, Carries (bareReading Condition.untitled) (moreTerms p n op first ts)
    (moreTerms q n op first.untitled (ts.map Token.bare))
  negation : ∀ p q ts, Carries (bareReading Condition.untitled) (negation p n ts)
    (negation q n (ts.map Token.bare))
  predicate : ∀ p q ts, Carries (bareReading Condition.untitled) (predicate p n ts)
    (predicate q n (ts.map Token.bare))
  comparisonFrom : ∀ p q ts, Carries (bareReading Condition.untitled) (comparisonFrom p n ts)
    (comparisonFrom q n (ts.map Token.bare))
  members : ∀ p q ts, Carries (bareReading Expr.untitled) (members p n ts)
    (members q n (ts.map Token.bare))
  exprs : ∀ p q ts, Carries (bareReading untitledExprs) (exprs p n ts)
    (exprs q n (ts.map Token.bare))
  expr : ∀ p q power ts, Carries (bareReading Expr.untitled) (expr p n power ts)
    (expr q n power (ts.map Token.bare))
  moreOperands : ∀ p q power first ts, Carries (bareReading Expr.untitled)
    (moreOperands p n power first ts) (moreOperands q n power first.untitled (ts.map Token.bare))
  operand : ∀ p q ts, Carries (bareReading Expr.untitled) (operand p n ts)
    (operand q n (ts.map Token.bare))
  call : ∀ p q function ts, Carries (bareReading Expr.untitled) (call p n function ts)
    (call q n function (ts.map Token.bare))
  caseExpr : ∀ p q ts, Carries (bareReading Expr.untitled) (caseExpr p n ts)
    (caseExpr q n (ts.map Token.bare))
  whenBranches : ∀ p q subject ts, Carries (bareReading untitledBranches)
    (whenBranches p n subject ts) (whenBranches q n (untitledElse subject) (ts.map Token.bare))
  nested : ∀ p q ts, Carries (bareReading Statement.untitled) (nested p n ts)
    (nested q n (ts.map Token.bare))
  statement : ∀ p q ts, Carries Statement.untitled (statement p n ts)
    (statement q n (ts.map Token.bare))
  single : ∀ p q ts, Carries Statement.untitled (single p n ts) (single q n (ts.map Token.bare))
  clause : ∀ p q d s, Carries Draft.untitled (clause p n d s) (clause q n d.untitled s.bare)
  selectItems : ∀ p q ts, Carries (bareReading untitledItems) (selectItems p n ts)
    (selectItems q n (ts.map Token.bare))
  source : ∀ p q ts, Carries (bareReading Source.untitled) (source p n ts)
    (source q n (ts.map Token.bare))
  join : ∀ p q kind ts, Carries (bareReading JoinClause.untitled) (join p n kind ts)
    (join q n kind (ts.map Token.bare))
  orderItems : ∀ p q ts, Carries (bareReading untitledOrder) (orderItems p n ts)
    (orderItems q n (ts.map Token.bare))

namespace ReadersIgnorePlaces

variable {n : Nat} (ih : ReadersIgnorePlaces n)

include ih

theorem condition_succ (ts : List Token) : Carries (bareReading Condition.untitled)
    (Parser.condition p (n + 1) ts) (Parser.condition q (n + 1) (ts.map Token.bare)) := by
  rw [Parser.condition, Parser.condition]
  exact (ih.conjunction p q ts).bind fun r => ih.moreTerms p q .or r.1 r.2

theorem conjunction_succ (ts : List Token) : Carries (bareReading Condition.untitled)
    (Parser.conjunction p (n + 1) ts) (Parser.conjunction q (n + 1) (ts.map Token.bare)) := by
  rw [Parser.conjunction, Parser.conjunction]
  exact (ih.negation p q ts).bind fun r => ih.moreTerms p q .and r.1 r.2

theorem moreTerms_succ (op : Connective) (first : Condition) (ts : List Token) :
    Carries (bareReading Condition.untitled) (Parser.moreTerms p (n + 1) op first ts)
      (Parser.moreTerms q (n + 1) op first.untitled (ts.map Token.bare)) := by
  cases op with
  | or =>
    simp only [Parser.moreTerms, atKeyword_bare, ← List.map_drop]
    refine Carries.ite (fun _ => ?_) fun _ => Carries.ok rfl
    refine (ih.conjunction p q _).bind fun r => ?_
    have := ih.moreTerms p q .or (first.combine .or r.1) r.2
    rwa [Condition.combine_untitled] at this
  | and =>
    simp only [Parser.moreTerms, atKeyword_bare, ← List.map_drop]
    refine Carries.ite (fun _ => ?_) fun _ => Carries.ok rfl
    refine (ih.negation p q _).bind fun r => ?_
    have := ih.moreTerms p q .and (first.combine .and r.1) r.2
    rwa [Condition.combine_untitled] at this

theorem negation_succ (ts : List Token) : Carries (bareReading Condition.untitled)
    (Parser.negation p (n + 1) ts) (Parser.negation q (n + 1) (ts.map Token.bare)) := by
  simp only [Parser.negation, atKeyword_bare, ← List.map_drop]
  refine Carries.ite (fun _ => Carries.ite (fun _ => ?_) fun _ => ?_) fun _ => ih.predicate p q ts
  · exact (ih.nested p q _).bind fun r => Carries.ok rfl
  · exact (ih.negation p q _).bind fun r => Carries.ok rfl

theorem predicate_succ (ts : List Token) : Carries (bareReading Condition.untitled)
    (Parser.predicate p (n + 1) ts) (Parser.predicate q (n + 1) (ts.map Token.bare)) := by
  simp only [Parser.predicate, atKeyword_bare, atLexeme_bare, atSubquery_bare, ← List.map_drop]
  refine Carries.ite (fun _ => ?_) fun _ => Carries.ite (fun _ => ?_) fun _ => ih.comparisonFrom p q ts
  · exact (ih.nested p q _).bind fun r => Carries.ok rfl
  · have htry := ih.condition p q (ts.drop 1)
    revert htry
    cases Parser.condition p n (ts.drop 1) with
    | error e =>
      cases Parser.condition q n ((ts.drop 1).map Token.bare) with
      | error e' => exact fun _ => ih.comparisonFrom p q ts
      | ok r' => exact fun h => absurd h id
    | ok r =>
      cases Parser.condition q n ((ts.drop 1).map Token.bare) with
      | error e' => exact fun h => absurd h id
      | ok r' =>
        intro h
        have hr : r' = bareReading Condition.untitled r := h
        subst hr
        simp only [bareReading, atLexeme_bare, atConditionEnd_bare, ← List.map_drop]
        exact Carries.ite (fun _ => Carries.ok rfl) fun _ => ih.comparisonFrom p q ts

theorem comparisonFrom_succ (ts : List Token) : Carries (bareReading Condition.untitled)
    (Parser.comparisonFrom p (n + 1) ts) (Parser.comparisonFrom q (n + 1) (ts.map Token.bare)) := by
  rw [Parser.comparisonFrom, Parser.comparisonFrom]
  refine (ih.expr p q 0 ts).bind fun r => ?_
  obtain ⟨left, ts⟩ := r
  have hts : (if atKeyword .not_ (ts.map Token.bare) = true then (ts.map Token.bare).drop 1
      else ts.map Token.bare) = (if atKeyword .not_ ts = true then ts.drop 1 else ts).map Token.bare := by
    rw [atKeyword_bare]
    split
    · exact (List.map_drop ..).symm
    · rfl
  dsimp only [bareReading]
  rw [hts]
  generalize (if atKeyword .not_ ts = true then ts.drop 1 else ts) = us
  rw [atKeyword_bare, atKeyword_bare, ← List.map_drop]
  refine Carries.ite (fun _ => ?_) fun _ => ?_
  · refine (ih.expr p q 0 _).bind fun low => ?_
    refine (expect_bare p q _ _ _).bind fun us => ?_
    refine (ih.expr p q 0 _).bind fun high => ?_
    refine Carries.ok ?_
    dsimp only [bareReading]
    split
    · rw [Condition.untitled, Condition.combine_untitled]
      rfl
    · rw [Condition.combine_untitled]
      rfl
  · refine (comparison_bare p q _ us).bind fun r => ?_
    obtain ⟨op, us⟩ := r
    dsimp only [bareReading, id]
    refine Carries.ite (fun _ => ?_) fun _ => ?_
    · exact (ih.members p q us).bind fun r => Carries.ok rfl
    · exact (ih.expr p q 0 us).bind fun r => Carries.ok rfl

theorem exprsOrNone (ts : List Token) : Carries (bareReading untitledExprs)
    (if atLexeme .rightParen ts then .ok ([], ts) else Parser.exprs p n ts)
    (if atLexeme .rightParen (ts.map Token.bare) then .ok ([], ts.map Token.bare)
      else Parser.exprs q n (ts.map Token.bare)) := by
  rw [atLexeme_bare]
  exact Carries.ite (fun _ => Carries.ok rfl) fun _ => ih.exprs p q ts

theorem members_succ (ts : List Token) : Carries (bareReading Expr.untitled)
    (Parser.members p (n + 1) ts) (Parser.members q (n + 1) (ts.map Token.bare)) := by
  rw [Parser.members, Parser.members, atSubquery_bare]
  refine Carries.ite (fun _ => ?_) fun _ => ?_
  · exact (ih.nested p q ts).bind fun r => Carries.ok rfl
  · refine (expect_bare p q _ _ ts).bind fun ts => ?_
    dsimp only
    rw [ite_bind, ite_bind]
    refine (ih.exprsOrNone p q ts).bind fun r => ?_
    exact (expect_bare p q _ _ r.2).bind fun ts => Carries.ok rfl

theorem exprs_succ (ts : List Token) : Carries (bareReading untitledExprs)
    (Parser.exprs p (n + 1) ts) (Parser.exprs q (n + 1) (ts.map Token.bare)) := by
  rw [Parser.exprs, Parser.exprs]
  refine (ih.expr p q 0 ts).bind fun r => ?_
  dsimp only [bareReading]
  rw [atLexeme_bare, ← List.map_drop]
  refine Carries.ite (fun _ => ?_) fun _ => Carries.ok rfl
  exact (ih.exprs p q _).bind fun r => Carries.ok rfl

theorem expr_succ (power : Nat) (ts : List Token) : Carries (bareReading Expr.untitled)
    (Parser.expr p (n + 1) power ts) (Parser.expr q (n + 1) power (ts.map Token.bare)) := by
  rw [Parser.expr, Parser.expr]
  exact (ih.operand p q ts).bind fun r => ih.moreOperands p q power r.1 r.2

theorem moreOperands_succ (power : Nat) (first : Expr) (ts : List Token) :
    Carries (bareReading Expr.untitled) (Parser.moreOperands p (n + 1) power first ts)
      (Parser.moreOperands q (n + 1) power first.untitled (ts.map Token.bare)) := by
  have hop : ((ts.map Token.bare).head?.bind fun t => binaryOf t.lexeme) =
      ts.head?.bind fun t => binaryOf t.lexeme := by
    cases ts <;> rfl
  rw [Parser.moreOperands, Parser.moreOperands, hop, ← List.map_drop]
  split
  · exact Carries.ok rfl
  · refine Carries.ite (fun _ => Carries.ok rfl) fun _ => ?_
    exact (ih.expr p q _ _).bind fun r => ih.moreOperands p q power (.binary _ first r.1) r.2

theorem operand_succ (ts : List Token) : Carries (bareReading Expr.untitled)
    (Parser.operand p (n + 1) ts) (Parser.operand q (n + 1) (ts.map Token.bare)) := by
  cases ts with
  | nil =>
    rw [List.map_nil, Parser.operand, Parser.operand]
    exact Carries.error _ _
  | cons t r =>
    have hsub : atSubquery (t.bare :: r.map Token.bare) = atSubquery (t :: r) :=
      atSubquery_bare (t :: r)
    rw [List.map_cons, Parser.operand, Parser.operand, Token.bare_lexeme]
    split
    · refine (ih.expr p q _ r).bind fun r => Carries.ok ?_
      dsimp only [bareReading]
      rw [applySign_untitled]
    · split
      · rename_i e he
        exact Carries.ok (congrArg (·, r.map Token.bare) (atom?_untitled he).symm)
      · rw [atLexeme_bare, atLexeme_bare, hsub, ← List.map_drop]
        split
        · exact ih.caseExpr p q r
        · exact Carries.ite (fun _ => ih.call p q _ _) fun _ => Carries.error _ _
        · exact Carries.ite (fun _ => ih.call p q _ _) fun _ => Carries.error _ _
        · refine Carries.ite (fun _ => ih.call p q _ _) fun _ => ?_
          exact Carries.ite (fun _ => qualified_bare p q _ _) fun _ => Carries.ok rfl
        · refine Carries.ite (fun _ => ?_) fun _ => ?_
          · exact (ih.nested p q (t :: r)).bind fun r => Carries.ok rfl
          · refine (ih.expr p q 0 r).bind fun r => ?_
            exact (expect_bare p q _ _ r.2).bind fun ts => Carries.ok rfl
        · exact Carries.error _ _

theorem call_succ (function : String) (ts : List Token) : Carries (bareReading Expr.untitled)
    (Parser.call p (n + 1) function ts) (Parser.call q (n + 1) function (ts.map Token.bare)) := by
  rw [Parser.call, Parser.call]
  refine Carries.ite (fun _ => ?_) fun _ => ?_
  · refine (ih.condition p q ts).bind fun c => ?_
    refine (expect_bare p q _ _ c.2).bind fun ts => ?_
    refine (ih.expr p q 0 ts).bind fun yes => ?_
    refine (expect_bare p q _ _ yes.2).bind fun ts => ?_
    refine (ih.expr p q 0 ts).bind fun no => ?_
    exact (expect_bare p q _ _ no.2).bind fun ts => Carries.ok rfl
  · dsimp only
    rw [ite_bind, ite_bind, distinctMark_bare]
    refine (ih.exprsOrNone p q _).bind fun args => ?_
    exact (expect_bare p q _ _ args.2).bind fun ts => Carries.ok rfl

/-- An expression behind a word, where the word stands. -/
theorem exprOrNone {c : Prop} [Decidable c] (ts ts' : List Token) :
    Carries (bareReading untitledElse)
      (if c then (Parser.expr p n 0 ts').map fun r => (some r.1, r.2) else .ok (none, ts))
      (if c then (Parser.expr q n 0 (ts'.map Token.bare)).map fun r => (some r.1, r.2)
        else .ok (none, ts.map Token.bare)) :=
  Carries.ite (fun _ => (ih.expr p q 0 ts').map fun _ => rfl) fun _ => Carries.ok rfl

theorem caseExpr_succ (ts : List Token) : Carries (bareReading Expr.untitled)
    (Parser.caseExpr p (n + 1) ts) (Parser.caseExpr q (n + 1) (ts.map Token.bare)) := by
  rw [Parser.caseExpr, Parser.caseExpr]
  dsimp only
  rw [ite_bind, ite_bind, atKeyword_bare, ← ite_not, ← ite_not (p := atKeyword .when ts = true)]
  refine Carries.bind (ih.exprOrNone p q ts ts) fun subject => ?_
  refine (ih.whenBranches p q subject.1 subject.2).bind fun branches => ?_
  dsimp only [bareReading]
  have hempty : (untitledBranches branches.1).isEmpty = branches.1.isEmpty := by
    rw [Bool.eq_iff_iff, List.isEmpty_iff, List.isEmpty_iff, untitledBranches_eq_nil]
  rw [hempty]
  refine Carries.ite (fun _ => Carries.error _ _) fun _ => ?_
  rw [ite_bind, ite_bind, atKeyword_bare, ← List.map_drop]
  refine Carries.bind (ih.exprOrNone p q branches.2 (branches.2.drop 1)) fun otherwise => ?_
  exact (expect_bare p q _ _ otherwise.2).bind fun ts => Carries.ok rfl

theorem whenBranches_succ (subject : Option Expr) (ts : List Token) :
    Carries (bareReading untitledBranches) (Parser.whenBranches p (n + 1) subject ts)
      (Parser.whenBranches q (n + 1) (untitledElse subject) (ts.map Token.bare)) := by
  rw [Parser.whenBranches, Parser.whenBranches, atKeyword_bare, ← List.map_drop]
  refine Carries.ite (fun _ => ?_) fun _ => Carries.ok rfl
  cases subject with
  | none =>
    refine (ih.condition p q _).bind fun c => ?_
    refine (expect_bare p q _ _ c.2).bind fun ts => ?_
    refine (ih.expr p q 0 ts).bind fun value => ?_
    exact (ih.whenBranches p q none value.2).bind fun others => Carries.ok rfl
  | some e =>
    refine ((ih.expr p q 0 _).map (h := bareReading Condition.untitled) fun _ => rfl).bind fun c => ?_
    refine (expect_bare p q _ _ c.2).bind fun ts => ?_
    refine (ih.expr p q 0 ts).bind fun value => ?_
    exact (ih.whenBranches p q (some e) value.2).bind fun others => Carries.ok rfl

theorem nested_succ (ts : List Token) : Carries (bareReading Statement.untitled)
    (Parser.nested p (n + 1) ts) (Parser.nested q (n + 1) (ts.map Token.bare)) := by
  cases ts with
  | nil =>
    rw [List.map_nil, Parser.nested, Parser.nested]
    exact Carries.error _ _
  | cons t r =>
    rw [List.map_cons, Parser.nested, Parser.nested, splitClose_bare]
    refine Carries.ite (fun _ => ?_) fun _ => Carries.error _ _
    cases splitClose 0 r with
    | none => exact Carries.error _ _
    | some s => exact (ih.statement p q s.1).bind fun _ => Carries.ok rfl

theorem operations_bare (os : List Operand) : Carries untitledOperations
    (os.mapM fun o =>
      (Parser.single p n o.tokens).map fun t => SetOperation.mk (o.operator.getD .union) t)
    ((os.map Operand.bare).mapM fun o =>
      (Parser.single q n o.tokens).map fun t => SetOperation.mk (o.operator.getD .union) t) := by
  induction os with
  | nil => exact Carries.ok rfl
  | cons o os hos =>
    rw [List.map_cons, List.mapM_cons, List.mapM_cons]
    refine Carries.bind (g := fun op => SetOperation.mk op.operator op.statement.untitled)
      ((ih.single p q o.tokens).map fun _ => rfl) fun op => ?_
    exact hos.bind fun ops => Carries.ok (untitledOperations_cons op ops).symm

theorem statement_succ (ts : List Token) : Carries Statement.untitled
    (Parser.statement p (n + 1) ts) (Parser.statement q (n + 1) (ts.map Token.bare)) := by
  rw [Parser.statement, Parser.statement]
  refine (operands_bare ts).bind fun os => ?_
  cases os with
  | nil => exact Carries.error _ _
  | cons first others =>
    refine (ih.single p q first.tokens).bind fun s => ?_
    refine (ih.operations_bare p q others).bind fun ops => Carries.ok ?_
    exact (operations_untitled s ops).symm

theorem clauses_bare (ss : List Segment) (d : Draft) : Carries Draft.untitled
    (ss.foldlM (fun d s => Parser.clause p n d s) d)
    ((ss.map Segment.bare).foldlM (fun d s => Parser.clause q n d s) d.untitled) := by
  induction ss generalizing d with
  | nil => exact Carries.ok rfl
  | cons s ss hss =>
    rw [List.map_cons, List.foldlM_cons, List.foldlM_cons]
    exact (ih.clause p q d s).bind fun d => hss d

theorem single_succ (ts : List Token) : Carries Statement.untitled
    (Parser.single p (n + 1) ts) (Parser.single q (n + 1) (ts.map Token.bare)) := by
  rw [Parser.single, Parser.single]
  refine (GridQuery.clauses_bare ts).bind fun ss => ?_
  refine (ih.clauses_bare p q ss {}).bind fun d => ?_
  obtain ⟨distinct, items, source, joins, filter, groupBy, having, orderBy, limit, pivot⟩ := d
  cases source with
  | none => exact Carries.error _ _
  | some source => exact Carries.ok rfl

theorem clause_succ (d : Draft) (s : Segment) : Carries Draft.untitled
    (Parser.clause p (n + 1) d s) (Parser.clause q (n + 1) d.untitled s.bare) := by
  have finish : ∀ {p q : Place} {x y : Except QueryError (Reading Draft)},
      Carries (bareReading Draft.untitled) x y →
      Carries Draft.untitled (x >>= fun r => do expectEnd p r.2; .ok r.1)
        (y >>= fun r => do expectEnd q r.2; .ok r.1) := by
    intro p q x y hx
    refine hx.bind fun r => ?_
    exact (expectEnd_bare p q r.2).bind fun _ => Carries.ok rfl
  obtain ⟨kind, start, stop, ts⟩ := s
  rw [Parser.clause, Parser.clause]
  cases kind with
  | select =>
    have hmark := distinctMark_bare ts
    refine finish (Carries.map (g := bareReading untitledItems) ?_ fun r => ?_)
    · have := ih.selectItems (p.within ts stop) (q.within (ts.map Token.bare) 0) (distinctMark ts).2
      rwa [show (distinctMark ts).2.map Token.bare = (distinctMark (ts.map Token.bare)).2 by rw [hmark]]
        at this
    · change (({ d.untitled with
          distinct := (distinctMark (ts.map Token.bare)).1, items := untitledItems r.1 } : Draft),
        r.2.map Token.bare) = _
      rw [hmark]
      rfl
  | source => exact finish ((ih.source _ _ ts).map fun _ => rfl)
  | join kind =>
    refine finish ((ih.join _ _ kind ts).map fun r => ?_)
    dsimp only [bareReading, Draft.untitled]
    rw [untitledJoins_append, untitledJoins_singleton]
  | filter => exact finish ((ih.condition _ _ ts).map fun _ => rfl)
  | groupBy => exact finish ((ih.exprs _ _ ts).map fun _ => rfl)
  | having => exact finish ((ih.condition _ _ ts).map fun _ => rfl)
  | orderBy => exact finish ((ih.orderItems _ _ ts).map fun _ => rfl)
  | limit => exact finish ((rowCount_bare _ _ ts).map fun _ => rfl)
  | pivot => exact finish ((ih.expr _ _ 0 ts).map fun _ => rfl)

theorem selectItems_succ (ts : List Token) : Carries (bareReading untitledItems)
    (Parser.selectItems p (n + 1) ts) (Parser.selectItems q (n + 1) (ts.map Token.bare)) := by
  rw [Parser.selectItems, Parser.selectItems]
  refine (ih.expr p q 0 ts).bind fun r => ?_
  refine (optionalAlias_bare p q r.2).bind fun a => ?_
  dsimp only [bareReading]
  rw [atLexeme_bare, sourceText_bare, ← List.map_drop]
  refine Carries.ite (fun _ => ?_) fun _ => Carries.ok rfl
  exact (ih.selectItems p q _).bind fun r => Carries.ok rfl

theorem source_succ (ts : List Token) : Carries (bareReading Source.untitled)
    (Parser.source p (n + 1) ts) (Parser.source q (n + 1) (ts.map Token.bare)) := by
  rw [Parser.source, Parser.source, atLexeme_bare]
  refine Carries.ite (fun _ => ?_) fun _ => ?_
  · refine (ih.nested p q ts).bind fun r => ?_
    exact (optionalAlias_bare p q r.2).bind fun a => Carries.ok rfl
  · refine (name_bare p q _ ts).bind fun r => ?_
    exact (optionalAlias_bare p q r.2).bind fun a => Carries.ok rfl

theorem join_succ (kind : JoinKind) (ts : List Token) : Carries (bareReading JoinClause.untitled)
    (Parser.join p (n + 1) kind ts) (Parser.join q (n + 1) kind (ts.map Token.bare)) := by
  rw [Parser.join, Parser.join]
  refine (ih.source p q ts).bind fun s => ?_
  refine (expect_bare p q _ _ s.2).bind fun ts => ?_
  exact (ih.condition p q ts).bind fun c => Carries.ok rfl

theorem orderItems_succ (ts : List Token) : Carries (bareReading untitledOrder)
    (Parser.orderItems p (n + 1) ts) (Parser.orderItems q (n + 1) (ts.map Token.bare)) := by
  rw [Parser.orderItems, Parser.orderItems]
  refine (ih.expr p q 0 ts).bind fun r => ?_
  dsimp only [bareReading]
  rw [direction_bare]
  dsimp only
  rw [atLexeme_bare, ← List.map_drop]
  refine Carries.ite (fun _ => ?_) fun _ => Carries.ok rfl
  exact (ih.orderItems p q _).bind fun r => Carries.ok rfl

end ReadersIgnorePlaces

theorem readersIgnorePlaces : ∀ n, ReadersIgnorePlaces n
  | 0 => by
    constructor
    all_goals
      intros
      exact Carries.error _ _
  | n + 1 =>
    have ih := readersIgnorePlaces n
    { condition := ih.condition_succ
      conjunction := ih.conjunction_succ
      moreTerms := ih.moreTerms_succ
      negation := ih.negation_succ
      predicate := ih.predicate_succ
      comparisonFrom := ih.comparisonFrom_succ
      members := ih.members_succ
      exprs := ih.exprs_succ
      expr := ih.expr_succ
      moreOperands := ih.moreOperands_succ
      operand := ih.operand_succ
      call := ih.call_succ
      caseExpr := ih.caseExpr_succ
      whenBranches := ih.whenBranches_succ
      nested := ih.nested_succ
      statement := ih.statement_succ
      single := ih.single_succ
      clause := ih.clause_succ
      selectItems := ih.selectItems_succ
      source := ih.source_succ
      join := ih.join_succ
      orderItems := ih.orderItems_succ }

/-- A statement that is read from tokens without places is read, up to its titles, from all tokens with
these lexemes. -/
theorem statement_of_bare {p q : Place} {n : Nat} {ts : List Token} {s : Statement}
    (h : statement q n (ts.map Token.bare) = .ok s) :
    ∃ s', statement p n ts = .ok s' ∧ s'.untitled = s :=
  Carries.of_ok (h ▸ (readersIgnorePlaces n).statement p q ts)

end Parser

end GridQuery
