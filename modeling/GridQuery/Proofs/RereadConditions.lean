import GridQuery.Proofs.Rereading

/-!
Reading conditions from their own lexemes, and the expressions that hold conditions. An opening bracket
at the front of a comparison is first tried as a condition, and that attempt fails at the closing
bracket, where a comparison has to stand.
-/

namespace GridQuery
set_option autoImplicit false

open GridQuery.Parser

/-! ### Brackets at the front of a comparison -/

/-- Behind the bracket that opens the expression no condition is read. -/
def Expr.NoCondition (e : Expr) : Prop :=
  ∀ p n ls rest, e.lexemes = .leftParen :: ls → atSubquery (bareTokens e.lexemes ++ rest) = false →
    16 * e.lexemes.length ≤ n + 8 → ∃ error, condition p n (bareTokens ls ++ rest) = .error error

theorem negation_plain (p : Place) (n : Nat) {l : Lexeme} (h : l ≠ .keyword .not_) (ts : List Token) :
    negation p (n + 1) (⟨l, 0, 0⟩ :: ts) = predicate p n (⟨l, 0, 0⟩ :: ts) := by
  rw [negation, atKeyword_cons, if_neg (by rwa [beq_iff_eq])]

theorem condition_error {p : Place} {n : Nat} {ts : List Token} {error : QueryError}
    (h : negation p n ts = .error error) : condition p (n + 2) ts = .error error := by
  rw [condition, conjunction, h]
  rfl

/-- In front of an operand the attempt at a condition comes to nothing. -/
theorem predicate_operand {e : Expr} (he : e.Sound) (hno : e.NoCondition) (p : Place) {n : Nat}
    (hn : 16 * e.lexemes.length ≤ n + 8) (rest : List Token) :
    predicate p (n + 1) (bareTokens e.lexemes ++ rest) =
      comparisonFrom p n (bareTokens e.lexemes ++ rest) := by
  obtain ⟨l, ls, hl, ho⟩ := e.opens he.legible he.formed
  have hexists : atKeyword .exists_ (bareTokens e.lexemes ++ rest) = false := by
    rw [hl, bareTokens_cons, List.cons_append, atKeyword_cons, beq_eq_false_iff_ne]
    rintro rfl
    cases ho
  rw [predicate, hexists, if_neg Bool.false_ne_true]
  split
  · rename_i hparen
    rw [Bool.and_eq_true, Bool.not_eq_true', hl, bareTokens_cons, List.cons_append, atLexeme_cons,
      beq_iff_eq] at hparen
    obtain ⟨rfl, hsub⟩ := hparen
    obtain ⟨error, herror⟩ := hno p n ls rest hl (by rwa [hl]) hn
    have hdrop : (bareTokens e.lexemes ++ rest).drop 1 = bareTokens ls ++ rest := by rw [hl]; rfl
    rw [hdrop, herror]
  · rfl

theorem Expr.noCondition_of_opens {e : Expr}
    (h : ∀ ls, e.lexemes = .leftParen :: ls → False) : e.NoCondition :=
  fun _ _ ls _ hl _ _ => (h ls hl).elim

theorem Expr.noCondition_paren {a : Expr} (ha : a.Sound) (hno : a.NoCondition) :
    (Expr.paren a).NoCondition := by
  intro p n ls rest hl _ hn
  simp only [Expr.lexemes, inBrackets, List.cons_append, List.cons.injEq, true_and] at hl
  subst hl
  simp only [Expr.lexemes, inBrackets, List.length_append, List.length_cons, List.length_nil] at hn
  obtain ⟨l, ls, hl, ho⟩ := a.opens ha.legible ha.formed
  obtain ⟨n, rfl⟩ : ∃ m, n = m + 5 := ⟨n - 5, by omega⟩
  have hfront : bareTokens (a.lexemes ++ [.rightParen]) ++ rest =
      bareTokens a.lexemes ++ ⟨.rightParen, 0, 0⟩ :: rest := by simp
  have hneg : negation p (n + 3) (bareTokens a.lexemes ++ ⟨.rightParen, 0, 0⟩ :: rest) =
      predicate p (n + 2) (bareTokens a.lexemes ++ ⟨.rightParen, 0, 0⟩ :: rest) := by
    rw [hl]
    apply negation_plain
    rintro rfl
    cases ho
  have herror : negation p (n + 3) (bareTokens a.lexemes ++ ⟨.rightParen, 0, 0⟩ :: rest) =
      .error (.unexpected "comparison operator" ⟨.rightParen, 0, 0⟩) := by
    rw [hneg, predicate_operand ha hno p (by omega), comparisonFrom,
      ha.rereads.all ha.legible ha.formed p (by omega) (endsExpr_cons rfl rest)]
    rfl
  rw [hfront]
  exact ⟨_, condition_error herror⟩

theorem Expr.noCondition_binary {op : BinaryOp} {a b : Expr} (hno : a.NoCondition)
    (ha : a.Sound) : (Expr.binary op a b).NoCondition := by
  intro p n ls rest hl hsub hn
  obtain ⟨l, ls', hla, -⟩ := a.opens ha.legible ha.formed
  have hshape : (Expr.binary op a b).lexemes = l :: (ls' ++ op.lexeme :: b.lexemes) := by
    rw [Expr.lexemes, hla]
    rfl
  rw [hshape, List.cons.injEq] at hl
  obtain ⟨rfl, rfl⟩ := hl
  rw [hshape] at hsub hn
  simp only [List.length_cons, List.length_append] at hn
  obtain ⟨error, herror⟩ := hno p n ls' (bareTokens (op.lexeme :: b.lexemes) ++ rest) hla
    (by rw [hla]; rw [← hsub, ← List.append_assoc, ← bareTokens_append]; rfl)
    (by rw [hla, List.length_cons]; omega)
  exact ⟨error, by rw [bareTokens_append, List.append_assoc, herror]⟩

/-! ### Comparisons -/

/-- The operator of a comparison is read, `NOT` in front of it counted in. -/
theorem comparison_reread (p : Place) (op : Comparison) {ts : List Token}
    (h : atKeyword .not_ ts = false) :
    atKeyword .between (if atKeyword .not_ (bareTokens op.lexemes ++ ts)
      then (bareTokens op.lexemes ++ ts).drop 1 else bareTokens op.lexemes ++ ts) = false ∧
    comparison p (atKeyword .not_ (bareTokens op.lexemes ++ ts))
      (if atKeyword .not_ (bareTokens op.lexemes ++ ts)
        then (bareTokens op.lexemes ++ ts).drop 1 else bareTokens op.lexemes ++ ts) = .ok (op, ts) := by
  cases op with
  | is =>
    exact ⟨rfl, if_neg fun hnot => Bool.false_ne_true (h.symm.trans hnot.2)⟩
  | _ => exact ⟨rfl, rfl⟩

theorem endsExpr_comparison (op : Comparison) (ts : List Token) :
    EndsExpr (bareTokens op.lexemes ++ ts) := by
  cases op <;> exact endsExpr_cons rfl _

/-- What stands to the right of a comparison. -/
def Expr.RereadsRight (op : Comparison) (b : Expr) : Prop :=
  if op.takesMembers then b.RereadsMembers ∧ ∃ ls, b.lexemes = .leftParen :: ls else b.Sound

theorem Expr.RereadsRight.not_not {op : Comparison} {b : Expr} (h : b.RereadsRight op)
    (rest : List Token) : atKeyword .not_ (bareTokens b.lexemes ++ rest) = false := by
  have hopens : ∃ l ls, b.lexemes = l :: ls ∧ opensExpr l = true := by
    unfold Expr.RereadsRight at h
    split at h
    · obtain ⟨-, ls, hl⟩ := h
      exact ⟨_, ls, hl, rfl⟩
    · exact b.opens h.legible h.formed
  obtain ⟨l, ls, hl, ho⟩ := hopens
  rw [hl, bareTokens_cons, List.cons_append, atKeyword_cons, beq_eq_false_iff_ne]
  rintro rfl
  cases ho

theorem right_reread {op : Comparison} {b : Expr} (h : b.RereadsRight op) (p : Place) {n : Nat}
    {rest : List Token} (hn : 16 * b.lexemes.length ≤ n) (hrest : EndsExpr rest) :
    (if op = .isIn ∨ op = .notIn then members p n (bareTokens b.lexemes ++ rest)
      else expr p n 0 (bareTokens b.lexemes ++ rest)) = .ok (b.untitled, rest) := by
  unfold Expr.RereadsRight at h
  by_cases hop : op = .isIn ∨ op = .notIn
  · have htakes : op.takesMembers = true := by
      rcases hop with rfl | rfl
      all_goals rfl
    rw [if_pos htakes] at h
    rw [if_pos hop]
    exact h.1 p n rest (by omega)
  · have htakes : ¬op.takesMembers = true := by
      intro htakes
      cases op
      all_goals first
        | exact hop (.inl rfl)
        | exact hop (.inr rfl)
        | cases htakes
    rw [if_neg htakes] at h
    rw [if_neg hop]
    exact h.rereads.all h.legible h.formed p hn hrest

theorem comparisonFrom_reread {op : Comparison} {a b : Expr} (ha : a.Sound)
    (hb : b.RereadsRight op) (p : Place) {n : Nat} {rest : List Token}
    (hn : 16 * (Condition.compare op a b).lexemes.length ≤ n + 8) (hrest : EndsExpr rest) :
    comparisonFrom p n (bareTokens (Condition.compare op a b).lexemes ++ rest) =
      .ok ((Condition.compare op a b).untitled, rest) := by
  have hop : 0 < op.lexemes.length := by cases op <;> exact Nat.succ_pos _
  simp only [Condition.lexemes, List.length_append] at hn
  obtain ⟨n, rfl⟩ : ∃ m, n = m + 1 := ⟨n - 1, by omega⟩
  obtain ⟨hbetween, hcomparison⟩ := comparison_reread p op (hb.not_not rest)
  rw [Condition.lexemes, bareTokens_append, bareTokens_append, List.append_assoc, List.append_assoc,
    comparisonFrom,
    ha.rereads.all ha.legible ha.formed p (by omega) (endsExpr_comparison op _), ok_bind]
  dsimp only
  rw [hbetween, if_neg Bool.false_ne_true, hcomparison, ok_bind]
  dsimp only
  rw [ite_bind, right_reread hb p (by omega) hrest]
  rfl

/-! ### Terms and connectives -/

theorem endsExpr_of_atConditionEnd {rest : List Token} (h : atConditionEnd rest = true) :
    EndsExpr rest := by
  cases rest with
  | nil => exact endsExpr_nil
  | cons t r =>
    rintro _ ⟨⟩
    rw [atConditionEnd] at h
    generalize t.lexeme = l at h ⊢
    split at h
    all_goals first
      | rfl
      | cases h

/-- A term of a connective is read back, in brackets if it has a connective itself. -/
def Condition.RereadsTerm (c : Condition) : Prop :=
  ∀ p n rest, 16 * (bracketedLexemes c.isLogic c.lexemes).length ≤ n + 2 →
    atConditionEnd rest = true →
    negation p n (bareTokens (bracketedLexemes c.isLogic c.lexemes) ++ rest) = .ok (c.untitled, rest)

/-- A condition may end here, and no connective follows. -/
def EndsCondition (rest : List Token) : Prop :=
  atConditionEnd rest = true ∧ atKeyword .and_ rest = false ∧ atKeyword .or_ rest = false

def Condition.Rereads (c : Condition) : Prop :=
  ∀ p n rest, 16 * c.lexemes.length ≤ n → EndsCondition rest →
    condition p n (bareTokens c.lexemes ++ rest) = .ok (c.untitled, rest)

/-- What a clause would not begin with is no statement in brackets. -/
theorem Quiet.not_atSubquery {ls : List Lexeme} (h : Quiet ClearOfClauses ls) (rest : List Token) :
    atSubquery (⟨.leftParen, 0, 0⟩ :: (bareTokens ls ++ ⟨.rightParen, 0, 0⟩ :: rest)) = false := by
  cases h with
  | nil => rfl
  | @plain l ls _ hc _ =>
    rw [bareTokens_cons, List.cons_append, atSubquery, beq_self_eq_true, Bool.true_and,
      beq_eq_false_iff_ne]
    rintro rfl
    exact hc
  | group => rfl
  | @call k _ _ hk _ _ =>
    rcases hk with rfl | rfl
    all_goals rfl

theorem predicate_leftParen (p : Place) (n : Nat) {r : List Token}
    (h : atSubquery (⟨.leftParen, 0, 0⟩ :: r) = false) :
    Parser.predicate p (n + 1) (⟨.leftParen, 0, 0⟩ :: r) =
      (match condition p n r with
        | .ok (d, ts) =>
          if atLexeme .rightParen ts && atConditionEnd (ts.drop 1) then .ok (d, ts.drop 1)
          else comparisonFrom p n (⟨.leftParen, 0, 0⟩ :: r)
        | .error _ => comparisonFrom p n (⟨.leftParen, 0, 0⟩ :: r)) := by
  rw [Parser.predicate, h]
  rfl

theorem Condition.Rereads.bracketed {c : Condition} (hc : c.Rereads) (h : c.legible = true)
    (p : Place) {n : Nat} {rest : List Token} (hn : 16 * c.lexemes.length < n)
    (hrest : atConditionEnd rest = true) :
    Parser.predicate p n (bareTokens (inBrackets c.lexemes) ++ rest) = .ok (c.untitled, rest) := by
  obtain ⟨n, rfl⟩ : ∃ m, n = m + 1 := ⟨n - 1, by omega⟩
  have hcond : condition p n (bareTokens c.lexemes ++ ⟨.rightParen, 0, 0⟩ :: rest) =
      .ok (c.untitled, ⟨.rightParen, 0, 0⟩ :: rest) := hc p n _ (by omega) ⟨rfl, rfl, rfl⟩
  rw [bareTokens_inBrackets, predicate_leftParen p n ((c.quiet h).not_atSubquery _), hcond]
  exact if_pos hrest

/-- A condition with a connective stands as a term in brackets. -/
theorem Condition.Rereads.term {c : Condition} (hc : c.Rereads) (h : c.legible = true)
    (hlogic : c.isLogic = true) : c.RereadsTerm := by
  intro p n rest hn hrest
  rw [bracketedLexemes, if_pos hlogic] at hn ⊢
  simp only [inBrackets, List.length_append, List.length_cons, List.length_nil] at hn
  obtain ⟨n, rfl⟩ : ∃ m, n = m + 1 := ⟨n - 1, by omega⟩
  have hneg : negation p (n + 1) (bareTokens (inBrackets c.lexemes) ++ rest) =
      predicate p n (bareTokens (inBrackets c.lexemes) ++ rest) := negation_plain p n (by simp) _
  rw [hneg, hc.bracketed h p (by omega) hrest]

theorem Condition.rereadsTerm_compare {op : Comparison} {a b : Expr} (ha : a.Sound)
    (hno : a.NoCondition) (hb : b.RereadsRight op) : (Condition.compare op a b).RereadsTerm := by
  intro p n rest hn hrest
  change 16 * (Condition.compare op a b).lexemes.length ≤ n + 2 at hn
  change negation p n (bareTokens (Condition.compare op a b).lexemes ++ rest) = _
  have hop : 0 < op.lexemes.length := by cases op <;> exact Nat.succ_pos _
  have hlen : a.lexemes.length < (Condition.compare op a b).lexemes.length := by
    simp only [Condition.lexemes, List.length_append]
    omega
  obtain ⟨l, ls, hl, ho⟩ := a.opens ha.legible ha.formed
  obtain ⟨n, rfl⟩ : ∃ m, n = m + 2 := ⟨n - 2, by omega⟩
  have hshape : bareTokens (Condition.compare op a b).lexemes ++ rest =
      bareTokens a.lexemes ++ (bareTokens (op.lexemes ++ b.lexemes) ++ rest) := by
    simp [Condition.lexemes]
  have hneg : negation p (n + 2) (bareTokens (Condition.compare op a b).lexemes ++ rest) =
      predicate p (n + 1) (bareTokens (Condition.compare op a b).lexemes ++ rest) := by
    rw [hshape, hl]
    apply negation_plain
    rintro rfl
    cases ho
  rw [hneg, hshape, predicate_operand ha hno p (by omega), ← hshape]
  exact comparisonFrom_reread ha hb p (by omega) (endsExpr_of_atConditionEnd hrest)

theorem Condition.rereadsTerm_not {c : Condition} (hc : c.Rereads) (h : c.legible = true) :
    (Condition.not c).RereadsTerm := by
  intro p n rest hn hrest
  change 16 * (Lexeme.keyword .not_ :: inBrackets c.lexemes).length ≤ n + 2 at hn
  change negation p n (⟨.keyword .not_, 0, 0⟩ :: (bareTokens (inBrackets c.lexemes) ++ rest)) = _
  simp only [inBrackets, List.length_append, List.length_cons, List.length_nil] at hn
  obtain ⟨n, rfl⟩ : ∃ m, n = m + 2 := ⟨n - 2, by omega⟩
  have hneg : negation p (n + 1) (bareTokens (inBrackets c.lexemes) ++ rest) =
      .ok (c.untitled, rest) := by
    have := negation_plain p n (l := .leftParen) (by simp)
      (bareTokens (c.lexemes ++ [.rightParen]) ++ rest)
    exact this.trans (hc.bracketed h p (by omega) hrest)
  rw [negation]
  change (negation p (n + 1) (bareTokens (inBrackets c.lexemes) ++ rest) >>= _) = _
  rw [hneg]
  rfl

theorem Condition.rereadsTerm_exists {negated : Bool} {q : Statement} (hq : q.Rereads)
    (h : q.legible = true) : (Condition.exists negated q).RereadsTerm := by
  intro p n rest hn hrest
  change 16 * (Condition.exists negated q).lexemes.length ≤ n + 2 at hn
  simp only [Condition.lexemes, inBrackets, List.length_append, List.length_cons, List.length_nil]
    at hn
  obtain ⟨n, rfl⟩ : ∃ m, n = m + 2 := ⟨n - 2, by omega⟩
  cases negated with
  | true =>
    change negation p (n + 2) (⟨.keyword .not_, 0, 0⟩ :: ⟨.keyword .exists_, 0, 0⟩ ::
      (bareTokens (inBrackets q.lexemes) ++ rest)) = _
    rw [negation]
    change (nested p (n + 1) (bareTokens (inBrackets q.lexemes) ++ rest) >>= _) = _
    rw [hq.nested h p (by omega)]
    rfl
  | false =>
    change negation p (n + 2) (⟨.keyword .exists_, 0, 0⟩ ::
      (bareTokens (inBrackets q.lexemes) ++ rest)) = _
    rw [negation_plain p (n + 1) (by simp), predicate]
    change (nested p n (bareTokens (inBrackets q.lexemes) ++ rest) >>= _) = _
    rw [hq.nested h p (by omega)]
    rfl

/-! ### Lists of terms -/

def Connective.keyword : Connective → Keyword
  | and => .and_
  | or => .or_

/-- What the loop over a connective reads at each turn: `AND` binds tighter than `OR`. -/
def Connective.term (p : Place) : Connective → Nat → List Token → Except QueryError (Reading Condition)
  | and => negation p
  | or => conjunction p

theorem moreTerms_succ (p : Place) (n : Nat) (op : Connective) (first : Condition) (ts : List Token) :
    moreTerms p (n + 1) op first ts =
      if atKeyword op.keyword ts then
        op.term p n (ts.drop 1) >>= fun r => moreTerms p n op (first.combine op r.1) r.2
      else .ok (first, ts) := by
  cases op
  all_goals
    rw [moreTerms]
    rfl

/-- A condition may end here, and neither the connective nor one that binds tighter follows. -/
def EndsTerms (op : Connective) (rest : List Token) : Prop :=
  atConditionEnd rest = true ∧ atKeyword op.keyword rest = false ∧
    (op = .or → atKeyword .and_ rest = false)

theorem moreTerms_done (p : Place) {n : Nat} {op : Connective} {first : Condition} {rest : List Token}
    (hn : 0 < n) (h : atKeyword op.keyword rest = false) :
    moreTerms p n op first rest = .ok (first, rest) := by
  obtain ⟨n, rfl⟩ := Nat.exists_eq_succ_of_ne_zero (Nat.ne_of_gt hn)
  rw [moreTerms_succ, h, if_neg Bool.false_ne_true]

theorem term_reread {c : Condition} (hc : c.RereadsTerm) (op : Connective) (p : Place) {n : Nat}
    {rest : List Token} (hn : 16 * (bracketedLexemes c.isLogic c.lexemes).length ≤ n + 1)
    (hpos : 0 < (bracketedLexemes c.isLogic c.lexemes).length)
    (hrest : atConditionEnd rest = true) (hand : op = .or → atKeyword .and_ rest = false) :
    op.term p n (bareTokens (bracketedLexemes c.isLogic c.lexemes) ++ rest) =
      .ok (c.untitled, rest) := by
  obtain ⟨n, rfl⟩ : ∃ m, n = m + 2 := ⟨n - 2, by omega⟩
  cases op with
  | and => exact hc p _ rest (by omega) hrest
  | or =>
    change conjunction p (n + 2) _ = _
    rw [conjunction, hc p _ rest (by omega) hrest, ok_bind]
    exact moreTerms_done p (Nat.succ_pos _) (hand rfl)

/-- The lexemes of the terms behind the first, each behind its connective. -/
def furtherLexemes (op : Connective) (cs : List Condition) : List Lexeme :=
  cs.flatMap fun c => op.lexeme :: bracketedLexemes c.isLogic c.lexemes

theorem termsLexemes_cons (op : Connective) (c : Condition) (cs : List Condition) :
    termsLexemes op (c :: cs) =
      bracketedLexemes c.isLogic c.lexemes ++ furtherLexemes op cs := by
  induction cs generalizing c with
  | nil => exact (List.append_nil _).symm
  | cons c' cs ih =>
    change _ ++ op.lexeme :: termsLexemes op (c' :: cs) = _
    rw [ih, furtherLexemes, furtherLexemes, List.flatMap_cons, List.cons_append]

theorem Condition.length_pos {c : Condition} (h : c.Formed) :
    0 < (bracketedLexemes c.isLogic c.lexemes).length := by
  cases c with
  | compare op a b =>
    have hop : 0 < op.lexemes.length := by cases op <;> exact Nat.succ_pos _
    simp only [Condition.isLogic, Condition.lexemes, bracketedLexemes, Bool.false_eq_true, if_false,
      List.length_append]
    omega
  | logic => simp [Condition.isLogic, bracketedLexemes, inBrackets]
  | not => simp [Condition.isLogic, Condition.lexemes, bracketedLexemes]
  | «exists» negated q =>
    change 0 < (_ ++ Lexeme.keyword .exists_ :: inBrackets q.lexemes).length
    rw [List.length_append, List.length_cons]
    omega

theorem atConditionEnd_further {op : Connective} (cs : List Condition) {rest : List Token}
    (h : EndsTerms op rest) :
    atConditionEnd (bareTokens (furtherLexemes op cs) ++ rest) = true ∧
      (op = .or → atKeyword .and_ (bareTokens (furtherLexemes op cs) ++ rest) = false) := by
  cases cs with
  | nil => exact ⟨h.1, h.2.2⟩
  | cons c cs =>
    refine ⟨by cases op <;> rfl, ?_⟩
    rintro rfl
    rfl

/-- The loop takes each further term to the end of the list. -/
theorem moreTerms_reread {op : Connective} {cs : List Condition} (h : ∀ c ∈ cs, c.RereadsTerm)
    (hpos : ∀ c ∈ cs, c.Formed) (p : Place) {n : Nat} {rest : List Token} (acc : List Condition)
    (hn : 16 * (furtherLexemes op cs).length < n) (hrest : EndsTerms op rest) :
    moreTerms p n op (.logic op acc) (bareTokens (furtherLexemes op cs) ++ rest) =
      .ok (.logic op (acc ++ untitledTerms cs), rest) := by
  induction cs generalizing n acc with
  | nil =>
    rw [untitledTerms, List.append_nil]
    exact moreTerms_done p (by omega) hrest.2.1
  | cons c cs ih =>
    obtain ⟨hc, hcs⟩ := List.forall_mem_cons.1 h
    obtain ⟨hcpos, hcspos⟩ := List.forall_mem_cons.1 hpos
    have hshape : furtherLexemes op (c :: cs) =
        op.lexeme :: (bracketedLexemes c.isLogic c.lexemes ++ furtherLexemes op cs) := rfl
    rw [hshape, List.length_cons, List.length_append] at hn
    obtain ⟨n, rfl⟩ : ∃ m, n = m + 1 := ⟨n - 1, by omega⟩
    have hword : atKeyword op.keyword (bareTokens (furtherLexemes op (c :: cs)) ++ rest) = true := by
      cases op <;> rfl
    have hdrop : (bareTokens (furtherLexemes op (c :: cs)) ++ rest).drop 1 =
        bareTokens (bracketedLexemes c.isLogic c.lexemes) ++
          (bareTokens (furtherLexemes op cs) ++ rest) := by
      rw [hshape]
      simp
    obtain ⟨hend, hand⟩ := atConditionEnd_further cs hrest
    rw [moreTerms_succ, hword, if_pos rfl, hdrop,
      term_reread hc op p (by omega) (Condition.length_pos hcpos) hend hand, ok_bind]
    have hcombine : (Condition.logic op acc).combine op c.untitled =
        .logic op (acc ++ [c.untitled]) := by
      rw [Condition.combine, if_pos rfl]
    dsimp only
    rw [hcombine, ih hcs hcspos _ (by omega), untitledTerms, List.append_assoc]
    rfl

theorem connects_untitled (op : Connective) (c : Condition) :
    c.untitled.connects op = c.connects op := by
  cases c <;> rfl

theorem combine_of_not_connects {op : Connective} {first second : Condition}
    (h : first.connects op = false) : first.combine op second = .logic op [first, second] := by
  cases first with
  | logic o terms =>
    have ho : ¬o = op := of_decide_eq_false h
    rw [Condition.combine, if_neg ho]
  | _ => rfl

/-- Behind the first term the loop makes the list of all. -/
theorem terms_reread {op : Connective} {c c' : Condition} {cs : List Condition}
    (hc : c.connects op = false) (h : ∀ d ∈ c' :: cs, d.RereadsTerm)
    (hpos : ∀ d ∈ c' :: cs, d.Formed) (p : Place) {n : Nat} {rest : List Token}
    (hn : 16 * (furtherLexemes op (c' :: cs)).length < n) (hrest : EndsTerms op rest) :
    moreTerms p n op c.untitled (bareTokens (furtherLexemes op (c' :: cs)) ++ rest) =
      .ok (.logic op (untitledTerms (c :: c' :: cs)), rest) := by
  obtain ⟨hc', hcs⟩ := List.forall_mem_cons.1 h
  obtain ⟨hpos', hposs⟩ := List.forall_mem_cons.1 hpos
  have hshape : furtherLexemes op (c' :: cs) =
      op.lexeme :: (bracketedLexemes c'.isLogic c'.lexemes ++ furtherLexemes op cs) := rfl
  rw [hshape, List.length_cons, List.length_append] at hn
  obtain ⟨n, rfl⟩ : ∃ m, n = m + 1 := ⟨n - 1, by omega⟩
  have hword : atKeyword op.keyword (bareTokens (furtherLexemes op (c' :: cs)) ++ rest) = true := by
    cases op <;> rfl
  have hdrop : (bareTokens (furtherLexemes op (c' :: cs)) ++ rest).drop 1 =
      bareTokens (bracketedLexemes c'.isLogic c'.lexemes) ++
        (bareTokens (furtherLexemes op cs) ++ rest) := by
    rw [hshape]
    simp
  obtain ⟨hend, hand⟩ := atConditionEnd_further cs hrest
  rw [moreTerms_succ, hword, if_pos rfl, hdrop,
    term_reread hc' op p (by omega) (Condition.length_pos hpos') hend hand, ok_bind]
  dsimp only
  rw [combine_of_not_connects (by rwa [connects_untitled]),
    moreTerms_reread hcs hposs p _ (by omega) hrest]
  rfl

theorem EndsCondition.terms {rest : List Token} (h : EndsCondition rest) (op : Connective) :
    EndsTerms op rest := by
  refine ⟨h.1, ?_, fun _ => h.2.1⟩
  cases op
  · exact h.2.1
  · exact h.2.2

theorem Condition.rereads_logic {op : Connective} {terms : List Condition}
    (h : ∀ c ∈ terms, c.RereadsTerm) (hpos : ∀ c ∈ terms, c.Formed)
    (hf : (Condition.logic op terms).Formed) : (Condition.logic op terms).Rereads := by
  intro p n rest hn hrest
  obtain ⟨hlen, hhead, -⟩ := hf
  obtain ⟨c, c', cs, rfl⟩ : ∃ c c' cs, terms = c :: c' :: cs := by
    match terms, hlen with
    | c :: c' :: cs, _ => exact ⟨c, c', cs, rfl⟩
  obtain ⟨hc, hcs⟩ := List.forall_mem_cons.1 h
  obtain ⟨hcpos, hcspos⟩ := List.forall_mem_cons.1 hpos
  have hlenpos := Condition.length_pos hcpos
  rw [Condition.lexemes, termsLexemes_cons, List.length_append] at hn
  rw [Condition.lexemes, termsLexemes_cons, bareTokens_append, List.append_assoc]
  obtain ⟨n, rfl⟩ : ∃ m, n = m + 2 := ⟨n - 2, by omega⟩
  obtain ⟨hend, hand⟩ := atConditionEnd_further (c' :: cs) (hrest.terms op)
  have hfirst := term_reread hc op p (n := n + 1) (by omega) hlenpos hend hand
  have hmore : ∀ m, n ≤ m →
      moreTerms p m op c.untitled (bareTokens (furtherLexemes op (c' :: cs)) ++ rest) =
        .ok (.logic op (untitledTerms (c :: c' :: cs)), rest) := fun m hm =>
    terms_reread (hhead c rfl) hcs hcspos p (by omega) (hrest.terms op)
  cases op with
  | or =>
    change conjunction p (n + 1) _ = _ at hfirst
    rw [condition, hfirst, ok_bind]
    exact hmore (n + 1) (by omega)
  | and =>
    have hneg := hc p n (bareTokens (furtherLexemes .and (c' :: cs)) ++ rest) (by omega) hend
    rw [condition, conjunction, hneg, ok_bind]
    dsimp only
    rw [hmore n (Nat.le_refl n), ok_bind]
    exact moreTerms_done p (Nat.succ_pos _) hrest.2.2

/-- A condition without a connective of its own is read as its only term. -/
theorem Condition.RereadsTerm.rereads {c : Condition} (hc : c.RereadsTerm) (hf : c.Formed)
    (hlogic : c.isLogic = false) : c.Rereads := by
  intro p n rest hn hrest
  have hpos := Condition.length_pos hf
  have hterm := hc p (n - 2) rest
  rw [bracketedLexemes, hlogic, if_neg Bool.false_ne_true] at hpos hterm
  obtain ⟨n, rfl⟩ : ∃ m, n = m + 3 := ⟨n - 3, by omega⟩
  have hneg : negation p (n + 1) (bareTokens c.lexemes ++ rest) = .ok (c.untitled, rest) :=
    hterm (by omega) hrest.1
  rw [condition, conjunction, hneg, ok_bind]
  dsimp only
  rw [moreTerms_done p (Nat.succ_pos _) (hrest.terms .and).2.1, ok_bind]
  exact moreTerms_done p (Nat.succ_pos _) (hrest.terms .or).2.1

/-! ### Expressions that hold conditions -/

theorem endsCondition_cons {l : Lexeme} (h : l = .comma ∨ l = .rightParen ∨ l = .keyword .then_)
    (ts : List Token) : EndsCondition (⟨l, 0, 0⟩ :: ts) := by
  rcases h with rfl | rfl | rfl
  all_goals exact ⟨rfl, rfl, rfl⟩

theorem Expr.rereads_ite {c : Condition} {a b : Expr} (hc : c.Rereads) (ha : a.Sound)
    (hb : b.Sound) : (Expr.ite c a b).Rereads := by
  refine Expr.rereads_of_operand rfl ?_ (Nat.succ_pos _)
  intro p n rest hn _
  simp only [Expr.lexemes, inBrackets, List.length_append, List.length_cons, List.length_nil] at hn
  obtain ⟨n, rfl⟩ : ∃ m, n = m + 2 := ⟨n - 2, by omega⟩
  have hshape : bareTokens (Expr.ite c a b).lexemes ++ rest =
      ⟨.identifier "IF", 0, 0⟩ :: ⟨.leftParen, 0, 0⟩ :: (bareTokens c.lexemes ++
        ⟨.comma, 0, 0⟩ :: (bareTokens a.lexemes ++ ⟨.comma, 0, 0⟩ ::
          (bareTokens b.lexemes ++ ⟨.rightParen, 0, 0⟩ :: rest))) := by
    simp [Expr.lexemes, inBrackets]
  have hcall : Parser.operand p (n + 2) (bareTokens (Expr.ite c a b).lexemes ++ rest) =
      Parser.call p (n + 1) "IF" (bareTokens c.lexemes ++ ⟨.comma, 0, 0⟩ ::
        (bareTokens a.lexemes ++ ⟨.comma, 0, 0⟩ ::
          (bareTokens b.lexemes ++ ⟨.rightParen, 0, 0⟩ :: rest))) := by
    rw [hshape, operand_identifier, show Text.asciiUpper "IF" = "IF" by decide]
    rfl
  rw [hcall, Parser.call, if_pos rfl, hc p n _ (by omega) (endsCondition_cons (.inl rfl) _), ok_bind]
  dsimp only
  rw [expect_cons, ok_bind, ha.rereads.all ha.legible ha.formed p (by omega) (endsExpr_cons rfl _),
    ok_bind]
  dsimp only
  rw [expect_cons, ok_bind, hb.rereads.all hb.legible hb.formed p (by omega) (endsExpr_cons rfl _),
    ok_bind]
  dsimp only
  rw [expect_cons]
  rfl

/-- The branches of a `CASE` are read up to its `ELSE` or its end. -/
theorem whenBranches_reread {bs : List (Condition × Expr)} (h : ∀ b ∈ bs, b.1.Rereads ∧ b.2.Sound)
    (p : Place) {n : Nat} {rest : List Token} (hn : 16 * (branchesLexemes bs).length < n)
    (hends : EndsExpr rest) (hwhen : atKeyword .when rest = false) :
    whenBranches p n none (bareTokens (branchesLexemes bs) ++ rest) =
      .ok (untitledBranches bs, rest) := by
  induction bs generalizing n with
  | nil =>
    obtain ⟨n, rfl⟩ : ∃ m, n = m + 1 := ⟨n - 1, by omega⟩
    change whenBranches p (n + 1) none rest = _
    rw [whenBranches, hwhen]
    rfl
  | cons b bs ih =>
    obtain ⟨c, e⟩ := b
    obtain ⟨⟨hc, he⟩, hbs⟩ := List.forall_mem_cons.1 h
    dsimp only at hc he
    simp only [branchesLexemes, List.length_append, List.length_cons] at hn
    obtain ⟨n, rfl⟩ : ∃ m, n = m + 1 := ⟨n - 1, by omega⟩
    have hends' : EndsExpr (bareTokens (branchesLexemes bs) ++ rest) := by
      cases bs with
      | nil => exact hends
      | cons b bs => exact endsExpr_cons rfl _
    have hshape : bareTokens (branchesLexemes ((c, e) :: bs)) ++ rest =
        ⟨.keyword .when, 0, 0⟩ :: (bareTokens c.lexemes ++ ⟨.keyword .then_, 0, 0⟩ ::
          (bareTokens e.lexemes ++ (bareTokens (branchesLexemes bs) ++ rest))) := by
      simp [branchesLexemes]
    rw [hshape, whenBranches, atKeyword_cons, beq_self_eq_true, if_pos rfl, List.drop_one,
      List.tail_cons]
    dsimp only
    rw [hc p n _ (by omega) (endsCondition_cons (.inr (.inr rfl)) _), ok_bind]
    dsimp only
    rw [expectKeyword_cons, ok_bind, he.rereads.all he.legible he.formed p (by omega) hends', ok_bind]
    dsimp only
    rw [ih hbs (by omega)]
    rfl

theorem Expr.rereads_case {branches : List (Condition × Expr)} {otherwise : Option Expr}
    (hbs : ∀ b ∈ branches, b.1.Rereads ∧ b.2.Sound) (ho : ∀ e ∈ otherwise, e.Sound)
    (hne : branches ≠ []) : (Expr.case branches otherwise).Rereads := by
  refine Expr.rereads_of_operand rfl ?_ (Nat.succ_pos _)
  intro p n rest hn _
  simp only [Expr.lexemes, List.length_append, List.length_cons, List.length_nil] at hn
  obtain ⟨n, rfl⟩ : ∃ m, n = m + 2 := ⟨n - 2, by omega⟩
  have hshape : bareTokens (Expr.case branches otherwise).lexemes ++ rest =
      ⟨.keyword .case_, 0, 0⟩ :: (bareTokens (branchesLexemes branches) ++
        (bareTokens (elseLexemes otherwise) ++ ⟨.keyword .end_, 0, 0⟩ :: rest)) := by
    simp [Expr.lexemes]
  have hcase : Parser.operand p (n + 2) (bareTokens (Expr.case branches otherwise).lexemes ++ rest) =
      caseExpr p (n + 1) (bareTokens (branchesLexemes branches) ++
        (bareTokens (elseLexemes otherwise) ++ ⟨.keyword .end_, 0, 0⟩ :: rest)) := by
    rw [hshape, Parser.operand]
    rfl
  have hwhen : atKeyword .when (bareTokens (branchesLexemes branches) ++
      (bareTokens (elseLexemes otherwise) ++ ⟨.keyword .end_, 0, 0⟩ :: rest)) = true := by
    cases branches with
    | nil => exact absurd rfl hne
    | cons b bs => rfl
  have hread : whenBranches p n none (bareTokens (branchesLexemes branches) ++
      (bareTokens (elseLexemes otherwise) ++ ⟨.keyword .end_, 0, 0⟩ :: rest)) =
      .ok (untitledBranches branches,
        bareTokens (elseLexemes otherwise) ++ ⟨.keyword .end_, 0, 0⟩ :: rest) := by
    cases otherwise with
    | none => exact whenBranches_reread hbs p (by omega) (endsExpr_cons rfl _) rfl
    | some e => exact whenBranches_reread hbs p (by omega) (endsExpr_cons rfl _) rfl
  have hempty : (untitledBranches branches).isEmpty = false := by
    cases branches with
    | nil => exact absurd rfl hne
    | cons b bs => rfl
  rw [hcase, caseExpr, hwhen, if_pos rfl, ok_bind]
  dsimp only
  rw [hread, ok_bind]
  dsimp only
  rw [hempty, if_neg Bool.false_ne_true]
  cases otherwise with
  | none => rfl
  | some e =>
    have he := ho e rfl
    simp only [elseLexemes, List.length_cons] at hn
    have helse : expr p n 0 (bareTokens e.lexemes ++ ⟨.keyword .end_, 0, 0⟩ :: rest) =
        .ok (e.untitled, ⟨.keyword .end_, 0, 0⟩ :: rest) :=
      he.rereads.all he.legible he.formed p (by omega) (endsExpr_cons rfl _)
    change ((expr p n 0 (bareTokens e.lexemes ++ ⟨.keyword .end_, 0, 0⟩ :: rest)).map _ >>= _) = _
    rw [helse]
    rfl

end GridQuery
