import GridQuery.Proofs.Standalone

/-!
Budgets that are large enough. Readers call one another within a budget of nested calls. Every few calls take
a token, so sixteen calls for each token and some more are enough: within such a budget no reader fails for
want of it, and within any larger one it gives the same, values and errors alike. This goes for the bracket
that is tried as a condition too, where an error is no failure but the way back to an operand.
-/

namespace GridQuery
set_option autoImplicit false

open GridQuery.Parser

namespace Parser

/-! ### Steps that never fail for want of budget -/

def Shallow {α : Type} (x : Except QueryError α) : Prop :=
  x ≠ .error .tooDeep

namespace Shallow

variable {α β : Type} {x y : Except QueryError α}

theorem ok (a : α) : Shallow (.ok a) :=
  fun h => nomatch h

theorem error {e : QueryError} (h : e ≠ .tooDeep) : Shallow (.error e : Except QueryError α) :=
  fun he => h (Except.error.inj he)

theorem bind {f : α → Except QueryError β} (hx : Shallow x) (hf : ∀ a, x = .ok a → Shallow (f a)) :
    Shallow (x >>= f) := by
  cases x with
  | ok a => exact hf a rfl
  | error e => exact error fun he => hx (congrArg Except.error he)

theorem map (hx : Shallow x) (f : α → β) : Shallow (x.map f) :=
  hx.bind fun a _ => ok (f a)

theorem ite {c : Prop} [Decidable c] (hx : Shallow x) (hy : Shallow y) : Shallow (if c then x else y) := by
  split
  · exact hx
  · exact hy

end Shallow

section Plain

variable (p : Place) (ts : List Token)

theorem shallow_unexpected {α : Type} (expected : String) : Shallow (unexpected (α := α) p expected ts) :=
  .error (by simp)

theorem shallow_expect (l : Lexeme) (expected : String) : Shallow (expect p l expected ts) := by
  unfold expect
  split
  · exact .ite (.ok _) (shallow_unexpected p _ expected)
  · exact shallow_unexpected p _ expected

theorem shallow_expectEnd : Shallow (expectEnd p ts) :=
  .ite (.ok _) (shallow_unexpected p ts _)

theorem shallow_name (expected : String) : Shallow (name p expected ts) := by
  unfold name
  repeat' split
  all_goals first
    | exact .ok _
    | exact shallow_unexpected p _ expected

theorem shallow_optionalAlias : Shallow (optionalAlias p ts) := by
  unfold optionalAlias
  repeat' split
  all_goals first
    | exact .ok _
    | exact (shallow_name p _ _).map _

theorem shallow_comparison (negated : Bool) : Shallow (comparison p negated ts) := by
  unfold comparison
  repeat' split
  all_goals first
    | exact .ok _
    | exact shallow_unexpected p _ _
    | exact .error (by simp)

theorem shallow_qualified (table : String) : Shallow (qualified p table ts) := by
  unfold qualified
  repeat' split
  all_goals first
    | exact .ok _
    | exact shallow_unexpected p _ _

theorem shallow_rowCount (stop : Nat) : Shallow (rowCount stop ts) := by
  unfold rowCount
  repeat' split
  all_goals first
    | exact .ok _
    | exact .error (by simp)

theorem shallow_statement (d : Draft) : Shallow d.statement := by
  unfold Draft.statement
  split
  · exact .ok _
  · exact .error (by simp)

theorem shallow_checkBalance_go (depth start stop : Nat) : Shallow (checkBalance.go depth start stop ts) := by
  induction ts generalizing depth start stop with
  | nil => exact .ite (.ok _) (.error (by simp))
  | cons t r ih => exact .ite (.error (by simp)) (ih _ _ _)

theorem shallow_checkBalance : Shallow (checkBalance ts) :=
  shallow_checkBalance_go ts 0 0 0

theorem shallow_gathered (operator : Option SetOperator) (gathered : List Token) (start stop : Nat) :
    Shallow (GridQuery.operand operator gathered start stop) :=
  .ite (.error (by simp)) (.ok _)

theorem shallow_splitOperands (depth : Nat) (operator : Option SetOperator) (gathered : List Token)
    (start stop : Nat) : Shallow (splitOperands depth operator gathered start stop ts) := by
  fun_induction splitOperands depth operator gathered start stop ts with
  | case1 depth operator gathered => exact (shallow_gathered _ _ _ _).map _
  | case2 depth operator gathered t r op rest _ ih =>
    exact (shallow_gathered _ _ _ _).bind fun _ _ => ih.bind fun _ _ => .ok _
  | case3 depth operator gathered t r _ ih => exact ih

theorem shallow_operands : Shallow (operands ts) :=
  (shallow_checkBalance ts).bind fun _ _ => shallow_splitOperands ts _ _ _ _ _

theorem shallow_checkRepeats (seen : List ClauseKind) (ss : List Segment) : Shallow (checkRepeats seen ss) := by
  induction ss generalizing seen with
  | nil => exact .ok _
  | cons s ss ih => exact .ite (.error (by simp)) (ih _)

theorem shallow_clauses : Shallow (clauses ts) := by
  unfold clauses
  refine (shallow_checkBalance ts).bind fun _ _ => .ite (.error (by simp)) ?_
  exact (shallow_checkRepeats _ _).bind fun _ _ => .ite (.ok _) (.error (by simp))

end Plain

/-! ### The same reading within a larger budget -/

/-- What is read is taken off the front. Where the budget is enough, a larger one gives the same, and it is no
failure for want of budget. -/
structure Settled {α : Type} (ts : List Token) (F : Prop) (x y : Except QueryError (Reading α)) : Prop where
  suffix : Yields (fun r => r.2 <:+ ts) x
  same : F → y = x ∧ Shallow x

namespace Settled

variable {α β : Type} {ts us : List Token} {F F' : Prop} {x x' y y' : Except QueryError (Reading α)}

theorem refl (hsuffix : Yields (fun r => r.2 <:+ ts) x) (h : Shallow x) : Settled ts F x x :=
  ⟨hsuffix, fun _ => ⟨rfl, h⟩⟩

theorem ok (v : α) (h : us <:+ ts) : Settled ts F (.ok (v, us)) (.ok (v, us)) :=
  refl (Yields.ok h) (.ok _)

theorem error {e : QueryError} (h : e ≠ .tooDeep) :
    Settled (α := α) ts F (.error e) (.error e) :=
  refl (Yields.error e) (.error h)

theorem unexpected (p : Place) (expected : String) (us : List Token) :
    Settled (α := α) ts F (Parser.unexpected p expected us) (Parser.unexpected p expected us) :=
  refl (Yields.error _) (shallow_unexpected p us expected)

theorem imp (h : Settled ts F x y) (hF : F' → F) : Settled ts F' x y :=
  ⟨h.suffix, fun hF' => h.same (hF hF')⟩

theorem part (h : Settled us F x y) (hus : us <:+ ts) : Settled ts F x y :=
  ⟨h.suffix.imp fun _ hr => hr.trans hus, h.same⟩

theorem bind {f g : Reading α → Except QueryError (Reading β)} (hx : Settled ts F x y)
    (hf : ∀ a us, us <:+ ts → Settled ts F (f (a, us)) (g (a, us))) : Settled ts F (x >>= f) (y >>= g) where
  suffix := hx.suffix.bind fun r hr => (hf r.1 r.2 hr).suffix
  same hF := by
    obtain ⟨rfl, hshallow⟩ := hx.same hF
    have hsteps : ∀ r, y = .ok r → g r = f r ∧ Shallow (f r) := fun r hr =>
      (hf r.1 r.2 (hx.suffix r hr)).same hF
    refine ⟨?_, hshallow.bind fun r hr => (hsteps r hr).2⟩
    cases y with
    | ok r => exact (hsteps r rfl).1
    | error e => rfl

theorem map (hx : Settled ts F x y) {f : Reading α → Reading β} (hf : ∀ r, (f r).2 = r.2) :
    Settled ts F (x.map f) (y.map f) where
  suffix := hx.suffix.map fun r hr => (hf r).symm ▸ hr
  same hF := by
    obtain ⟨rfl, hshallow⟩ := hx.same hF
    exact ⟨rfl, hshallow.map f⟩

theorem ite {c : Prop} [Decidable c] (hx : c → Settled ts F x y) (hx' : ¬c → Settled ts F x' y') :
    Settled ts F (if c then x else x') (if c then y else y') := by
  split
  · exact hx ‹_›
  · exact hx' ‹_›

/-- Behind a word there is one token less. -/
theorem word {l : Lexeme} (hx : Settled (ts.drop 1) (F ∧ 0 < ts.length) x y) (hx' : Settled ts F x' y') :
    Settled ts F (if atLexeme l ts then x else x') (if atLexeme l ts then y else y') := by
  refine ite (fun hword => ?_) fun _ => hx'
  obtain ⟨t, r, rfl, -⟩ := exists_of_atLexeme hword
  exact (hx.imp fun hF => ⟨hF, Nat.succ_pos _⟩).part (List.drop_suffix 1 _)

theorem expect {p : Place} {l : Lexeme} {expected : String} {f g : List Token → Except QueryError (Reading β)}
    (hus : us <:+ ts) (hf : ∀ vs, vs <:+ ts → Settled ts F (f vs) (g vs)) :
    Settled ts F (Parser.expect p l expected us >>= f) (Parser.expect p l expected us >>= g) := by
  have hstep : ∀ vs, Parser.expect p l expected us = .ok vs → Settled ts F (f vs) (g vs) := by
    intro vs hvs
    obtain ⟨t, -, rfl⟩ := expect_cons hvs
    exact hf vs ((List.suffix_cons t vs).trans hus)
  cases hexpect : Parser.expect p l expected us with
  | ok vs => exact hstep vs hexpect
  | error e => exact error fun he => shallow_expect p us l expected (hexpect.trans (congrArg _ he))

end Settled

/-- A budget that counts the tokens, and `c` nested calls besides. -/
abbrev Enough (c n : Nat) (ts : List Token) : Prop :=
  Fits (fun _ => True) 0 c n ts

theorem enough_iff {c n : Nat} {ts : List Token} : Enough c n ts ↔ 16 * ts.length + c ≤ n :=
  ⟨fun h => h.budget, fun h => ⟨h, fun _ _ => trivial⟩⟩

/-- Within a budget of `n` every reader gives what it gives within `m`. -/
structure ReadersSettle (n m : Nat) : Prop where
  condition : ∀ p ts, Settled ts (Enough 10 n ts) (condition p n ts) (condition p m ts)
  conjunction : ∀ p ts, Settled ts (Enough 9 n ts) (conjunction p n ts) (conjunction p m ts)
  moreTerms : ∀ p op first ts, Settled ts (Enough 1 n ts) (moreTerms p n op first ts)
    (moreTerms p m op first ts)
  negation : ∀ p ts, Settled ts (Enough 8 n ts) (negation p n ts) (negation p m ts)
  predicate : ∀ p ts, Settled ts (Enough 7 n ts) (predicate p n ts) (predicate p m ts)
  comparisonFrom : ∀ p ts, Settled ts (Enough 6 n ts) (comparisonFrom p n ts) (comparisonFrom p m ts)
  members : ∀ p ts, Settled ts (Enough 5 n ts) (members p n ts) (members p m ts)
  exprs : ∀ p ts, Settled ts (Enough 4 n ts) (exprs p n ts) (exprs p m ts)
  expr : ∀ p power ts, Settled ts (Enough 3 n ts) (expr p n power ts) (expr p m power ts)
  moreOperands : ∀ p power first ts, Settled ts (Enough 1 n ts) (moreOperands p n power first ts)
    (moreOperands p m power first ts)
  operand : ∀ p ts, Settled ts (Enough 2 n ts) (operand p n ts) (operand p m ts)
  call : ∀ p function ts, Settled ts (Enough 11 n ts) (call p n function ts) (call p m function ts)
  caseExpr : ∀ p ts, Settled ts (Enough 4 n ts) (caseExpr p n ts) (caseExpr p m ts)
  whenBranches : ∀ p subject ts, Settled ts (Enough 1 n ts) (whenBranches p n subject ts)
    (whenBranches p m subject ts)
  nested : ∀ p ts, Settled ts (Enough 1 n ts) (nested p n ts) (nested p m ts)
  statement : ∀ p ts, Enough 2 n ts → statement p m ts = statement p n ts ∧ Shallow (statement p n ts)
  single : ∀ p ts, Enough 1 n ts → single p m ts = single p n ts ∧ Shallow (single p n ts)
  clause : ∀ p d s, Enough 12 n s.tokens → clause p m d s = clause p n d s ∧ Shallow (clause p n d s)
  selectItems : ∀ p ts, Settled ts (Enough 4 n ts) (selectItems p n ts) (selectItems p m ts)
  source : ∀ p ts, Settled ts (Enough 2 n ts) (source p n ts) (source p m ts)
  join : ∀ p kind ts, Settled ts (Enough 11 n ts) (join p n kind ts) (join p m kind ts)
  orderItems : ∀ p ts, Settled ts (Enough 4 n ts) (orderItems p n ts) (orderItems p m ts)

namespace ReadersSettle

variable {n m : Nat} (ih : ReadersSettle n m) (p : Place) (ts : List Token)

include ih

theorem condition_succ : Settled ts (Enough 10 (n + 1) ts)
    (Parser.condition p (n + 1) ts) (Parser.condition p (m + 1) ts) := by
  rw [Parser.condition, Parser.condition]
  refine ((ih.conjunction p ts).imp fun h => h.less (by decide) List.suffix_rfl).bind fun first us hus => ?_
  exact ((ih.moreTerms p .or first us).imp fun h => h.less (by decide) hus).part hus

theorem conjunction_succ : Settled ts (Enough 9 (n + 1) ts)
    (Parser.conjunction p (n + 1) ts) (Parser.conjunction p (m + 1) ts) := by
  rw [Parser.conjunction, Parser.conjunction]
  refine ((ih.negation p ts).imp fun h => h.less (by decide) List.suffix_rfl).bind fun first us hus => ?_
  exact ((ih.moreTerms p .and first us).imp fun h => h.less (by decide) hus).part hus

theorem moreTerms_succ (op : Connective) (first : Condition) : Settled ts (Enough 1 (n + 1) ts)
    (Parser.moreTerms p (n + 1) op first ts) (Parser.moreTerms p (m + 1) op first ts) := by
  cases op with
  | or =>
    rw [Parser.moreTerms, Parser.moreTerms]
    refine .word ?_ (.ok first List.suffix_rfl)
    refine ((ih.conjunction p _).imp fun h => h.1.after h.2 (by decide) List.suffix_rfl).bind
      fun second us hus => ?_
    exact ((ih.moreTerms p .or _ us).imp fun h => h.1.after h.2 (by decide) hus).part hus
  | and =>
    rw [Parser.moreTerms, Parser.moreTerms]
    refine .word ?_ (.ok first List.suffix_rfl)
    refine ((ih.negation p _).imp fun h => h.1.after h.2 (by decide) List.suffix_rfl).bind
      fun second us hus => ?_
    exact ((ih.moreTerms p .and _ us).imp fun h => h.1.after h.2 (by decide) hus).part hus

theorem negation_succ : Settled ts (Enough 8 (n + 1) ts)
    (Parser.negation p (n + 1) ts) (Parser.negation p (m + 1) ts) := by
  have htwo : (ts.drop 2) <:+ ts.drop 1 := by
    rw [show ts.drop 2 = (ts.drop 1).drop 1 by rw [List.drop_drop]]
    exact List.drop_suffix 1 _
  rw [Parser.negation, Parser.negation]
  refine .word (.ite (fun _ => ?_) fun _ => ?_) ?_
  · refine (((ih.nested p _).imp fun h => h.1.after h.2 (by decide) htwo).part htwo).bind fun q us hus => ?_
    exact .ok _ hus
  · refine ((ih.negation p _).imp fun h => h.1.after h.2 (by decide) List.suffix_rfl).bind fun c us hus => ?_
    exact .ok _ hus
  · exact (ih.predicate p ts).imp fun h => h.less (by decide) List.suffix_rfl

/-- Both attempts at the bracket agree, so they stand or fall together, whatever the error. -/
theorem predicate_succ : Settled ts (Enough 7 (n + 1) ts)
    (Parser.predicate p (n + 1) ts) (Parser.predicate p (m + 1) ts) := by
  have hcompare : Settled ts (Enough 7 (n + 1) ts) (Parser.comparisonFrom p n ts) (Parser.comparisonFrom p m ts) :=
    (ih.comparisonFrom p ts).imp fun h => h.less (by decide) List.suffix_rfl
  rw [Parser.predicate, Parser.predicate]
  refine .word ?_ (.ite (fun hopen => ?_) fun _ => hcompare)
  · refine ((ih.nested p _).imp fun h => h.1.after h.2 (by decide) List.suffix_rfl).bind fun q us hus => ?_
    exact .ok _ hus
  · have hinner := ih.condition p (ts.drop 1)
    have hbehind : ∀ {us : List Token}, us <:+ ts.drop 1 → us.drop 1 <:+ ts := fun hus =>
      (List.drop_suffix 1 _).trans (hus.trans (List.drop_suffix 1 ts))
    refine ⟨?_, fun hF => ?_⟩
    · split
      · rename_i c rest hc
        exact Yields.ite (fun _ => Yields.ok (hbehind (hinner.suffix _ hc))) fun _ => hcompare.suffix
      · exact hcompare.suffix
    · rw [Bool.and_eq_true] at hopen
      obtain ⟨t, r, rfl, -⟩ := exists_of_atLexeme hopen.1
      obtain ⟨hcondition, -⟩ := hinner.same (hF.after (Nat.succ_pos _) (by decide) List.suffix_rfl)
      obtain ⟨hsame, hshallow⟩ := hcompare.same hF
      rw [hcondition, hsame]
      refine ⟨rfl, ?_⟩
      split
      · exact .ite (.ok _) hshallow
      · exact hshallow

theorem comparisonBehind (left : Expr) (negated : Bool) : Settled ts (Enough 6 (n + 1) ts)
    (Parser.comparisonBehind p n left negated ts) (Parser.comparisonBehind p m left negated ts) := by
  unfold Parser.comparisonBehind
  refine .word ?_ ?_
  · refine ((ih.expr p 0 _).imp fun h => h.1.after h.2 (by decide) List.suffix_rfl).bind fun low us hus => ?_
    refine .expect hus fun vs hvs => ?_
    refine (((ih.expr p 0 vs).imp fun h => h.1.after h.2 (by decide) hvs).part hvs).bind fun high ws hws => ?_
    exact .ok _ hws
  · refine (Settled.refl ?_ (shallow_comparison p ts negated)).bind fun op us hus => ?_
    · exact (comparison_takes p negated ts).imp fun _ h => h.suffix
    refine .ite (fun _ => ?_) fun _ => ?_
    · refine (((ih.members p us).imp fun h => h.less (by decide) hus).part hus).bind fun right vs hvs => ?_
      exact .ok _ hvs
    · refine (((ih.expr p 0 us).imp fun h => h.less (by decide) hus).part hus).bind fun right vs hvs => ?_
      exact .ok _ hvs

theorem comparisonFrom_succ : Settled ts (Enough 6 (n + 1) ts)
    (Parser.comparisonFrom p (n + 1) ts) (Parser.comparisonFrom p (m + 1) ts) := by
  rw [comparisonFrom_eq, comparisonFrom_eq]
  refine ((ih.expr p 0 ts).imp fun h => h.less (by decide) List.suffix_rfl).bind fun left us hus => ?_
  have hnot : us.drop 1 <:+ ts := (List.drop_suffix 1 us).trans hus
  refine .ite (fun _ => ?_) fun _ => ?_
  · exact ((ih.comparisonBehind p _ left true).imp fun h => h.rest (Nat.le_refl _) hnot).part hnot
  · exact ((ih.comparisonBehind p us left false).imp fun h => h.rest (Nat.le_refl _) hus).part hus

theorem closing (build : List Expr → Expr) : Settled ts (Enough 5 (n + 1) ts)
    (Parser.closing p n build ts) (Parser.closing p m build ts) := by
  unfold Parser.closing
  refine Settled.bind (.ite (fun _ => .ok [] List.suffix_rfl) fun _ => ?_) fun items us hus => ?_
  · exact (ih.exprs p ts).imp fun h => h.less (by decide) List.suffix_rfl
  · exact .expect hus fun vs hvs => .ok _ hvs

theorem members_succ : Settled ts (Enough 5 (n + 1) ts)
    (Parser.members p (n + 1) ts) (Parser.members p (m + 1) ts) := by
  rw [Parser.members, Parser.members]
  refine .ite (fun _ => ?_) fun _ => ?_
  · refine ((ih.nested p ts).imp fun h => h.less (by decide) List.suffix_rfl).bind fun q us hus => ?_
    exact .ok _ hus
  · dsimp only
    simp only [ite_bind]
    refine .expect List.suffix_rfl fun us hus => ?_
    exact ((ih.closing p us .list).imp fun h => h.rest (Nat.le_refl _) hus).part hus

theorem exprs_succ : Settled ts (Enough 4 (n + 1) ts)
    (Parser.exprs p (n + 1) ts) (Parser.exprs p (m + 1) ts) := by
  rw [Parser.exprs, Parser.exprs]
  refine ((ih.expr p 0 ts).imp fun h => h.less (by decide) List.suffix_rfl).bind fun first us hus => ?_
  refine Settled.part (.word ?_ (.ok _ List.suffix_rfl)) hus
  refine ((ih.exprs p _).imp fun h => (h.1.rest (Nat.le_refl _) hus).after h.2 (by decide) List.suffix_rfl).bind
    fun others vs hvs => ?_
  exact .ok _ hvs

theorem expr_succ (power : Nat) : Settled ts (Enough 3 (n + 1) ts)
    (Parser.expr p (n + 1) power ts) (Parser.expr p (m + 1) power ts) := by
  rw [Parser.expr, Parser.expr]
  refine ((ih.operand p ts).imp fun h => h.less (by decide) List.suffix_rfl).bind fun first us hus => ?_
  exact ((ih.moreOperands p power first us).imp fun h => h.less (by decide) hus).part hus

theorem moreOperands_succ (power : Nat) (first : Expr) : Settled ts (Enough 1 (n + 1) ts)
    (Parser.moreOperands p (n + 1) power first ts) (Parser.moreOperands p (m + 1) power first ts) := by
  rw [Parser.moreOperands, Parser.moreOperands]
  cases ts with
  | nil => exact .ok first List.suffix_rfl
  | cons t r =>
    split
    · exact .ok first List.suffix_rfl
    · refine .ite (fun _ => .ok first List.suffix_rfl) fun _ => Settled.part ?_ (List.suffix_cons t r)
      refine ((ih.expr p _ r).imp fun h => h.after (Nat.succ_pos _) (by decide) List.suffix_rfl).bind
        fun second us hus => ?_
      exact ((ih.moreOperands p power _ us).imp fun h => h.after (Nat.succ_pos _) (by decide) hus).part hus

/-- A function behind its name. -/
theorem called (function : String) {t : Token} {r : List Token} {x y : Except QueryError (Reading Expr)}
    (hno : Settled (t :: r) (Enough 2 (n + 1) (t :: r)) x y) : Settled (t :: r) (Enough 2 (n + 1) (t :: r))
      (if atLexeme .leftParen r then Parser.call p n function (r.drop 1) else x)
      (if atLexeme .leftParen r then Parser.call p m function (r.drop 1) else y) := by
  have hbehind : r.drop 1 <:+ t :: r := (List.drop_suffix 1 r).trans (List.suffix_cons t r)
  refine .ite (fun _ => ?_) fun _ => hno
  exact ((ih.call p function _).imp fun h => h.after (Nat.succ_pos _) (by decide) (List.drop_suffix 1 r)).part hbehind

theorem operand_succ : Settled ts (Enough 2 (n + 1) ts)
    (Parser.operand p (n + 1) ts) (Parser.operand p (m + 1) ts) := by
  cases ts with
  | nil => exact .unexpected p _ _
  | cons t r =>
    have htail := List.suffix_cons t r
    rw [Parser.operand, Parser.operand]
    split
    · refine (((ih.expr p signPower r).imp fun h => h.after (Nat.succ_pos _) (by decide) List.suffix_rfl).part
        htail).bind fun e us hus => ?_
      exact .ok _ hus
    · split
      · exact .ok _ htail
      · split
        · exact ((ih.caseExpr p r).imp fun h => h.after (Nat.succ_pos _) (by decide) List.suffix_rfl).part htail
        · exact ih.called p _ (.unexpected p _ _)
        · exact ih.called p _ (.unexpected p _ _)
        · refine ih.called p _ (.ite (fun _ => ?_) fun _ => .ok _ htail)
          refine .refl ((qualified_takes p _ _).imp fun _ h => ?_) (shallow_qualified p _ _)
          exact h.1.suffix.trans ((List.drop_suffix 1 r).trans htail)
        · refine .ite (fun _ => ?_) fun _ => ?_
          · refine ((ih.nested p (t :: r)).imp fun h => h.less (by decide) List.suffix_rfl).bind
              fun q us hus => ?_
            exact .ok _ hus
          · refine (((ih.expr p 0 r).imp fun h => h.after (Nat.succ_pos _) (by decide) List.suffix_rfl).part
              htail).bind fun e us hus => ?_
            exact .expect hus fun vs hvs => .ok _ hvs
        · exact .unexpected p _ _

theorem call_succ (function : String) : Settled ts (Enough 11 (n + 1) ts)
    (Parser.call p (n + 1) function ts) (Parser.call p (m + 1) function ts) := by
  rw [Parser.call, Parser.call]
  refine .ite (fun _ => ?_) fun _ => ?_
  · refine ((ih.condition p ts).imp fun h => h.less (by decide) List.suffix_rfl).bind fun c us hus => ?_
    refine .expect hus fun vs hvs => ?_
    refine (((ih.expr p 0 vs).imp fun h => h.less (by decide) hvs).part hvs).bind fun yes ws hws => ?_
    refine .expect hws fun xs hxs => ?_
    refine (((ih.expr p 0 xs).imp fun h => h.less (by decide) hxs).part hxs).bind fun no ys hys => ?_
    exact .expect hys fun zs hzs => .ok _ hzs
  · have hmark := (distinctMark_passes ts).suffix
    dsimp only
    simp only [ite_bind]
    exact ((ih.closing p _ (.call function (distinctMark ts).1)).imp fun h => h.rest (by decide) hmark).part hmark

theorem caseExpr_succ : Settled ts (Enough 4 (n + 1) ts)
    (Parser.caseExpr p (n + 1) ts) (Parser.caseExpr p (m + 1) ts) := by
  rw [Parser.caseExpr, Parser.caseExpr]
  dsimp only
  rw [ite_bind, ite_bind]
  refine Settled.bind (.ite (fun _ => .ok none List.suffix_rfl) fun _ => ?_) fun subject us hus => ?_
  · exact ((ih.expr p 0 ts).imp fun h => h.less (by decide) List.suffix_rfl).map fun _ => rfl
  refine (((ih.whenBranches p subject us).imp fun h => h.less (by decide) hus).part hus).bind
    fun branches vs hvs => ?_
  refine .ite (fun _ => .unexpected p _ _) fun _ => ?_
  dsimp only
  rw [ite_bind, ite_bind]
  refine Settled.bind (Settled.part (.word ?_ (.ok none List.suffix_rfl)) hvs) fun otherwise ws hws => ?_
  · exact ((ih.expr p 0 _).imp fun h => h.1.less (by decide) ((List.drop_suffix 1 vs).trans hvs)).map fun _ => rfl
  · exact .expect hws fun xs hxs => .ok _ hxs

/-- A branch behind its condition, and the branches behind it. -/
theorem whenRest (subject : Option Expr) (c : Condition) {us : List Token} (hus : us <:+ ts.drop 1) :
    Settled us (Enough 1 (n + 1) ts ∧ 0 < ts.length) (do
      let ts ← expectKeyword p .then_ us
      let (value, ts) ← Parser.expr p n 0 ts
      let (others, ts) ← Parser.whenBranches p n subject ts
      .ok ((c, value) :: others, ts)) (do
      let ts ← expectKeyword p .then_ us
      let (value, ts) ← Parser.expr p m 0 ts
      let (others, ts) ← Parser.whenBranches p m subject ts
      .ok ((c, value) :: others, ts)) := by
  refine .expect List.suffix_rfl fun vs hvs => ?_
  refine (((ih.expr p 0 vs).imp fun h => h.1.after h.2 (by decide) (hvs.trans hus)).part hvs).bind
    fun value ws hws => ?_
  refine (((ih.whenBranches p subject ws).imp fun h => h.1.after h.2 (by decide) (hws.trans hus)).part hws).bind
    fun others xs hxs => ?_
  exact .ok _ hxs

theorem whenBranches_succ (subject : Option Expr) : Settled ts (Enough 1 (n + 1) ts)
    (Parser.whenBranches p (n + 1) subject ts) (Parser.whenBranches p (m + 1) subject ts) := by
  rw [Parser.whenBranches, Parser.whenBranches]
  refine .word ?_ (.ok [] List.suffix_rfl)
  cases subject with
  | none =>
    refine ((ih.condition p _).imp fun h => h.1.after h.2 (by decide) List.suffix_rfl).bind fun c us hus => ?_
    exact (ih.whenRest p ts none c hus).part hus
  | some e =>
    refine Settled.bind (Settled.map (f := fun r : Reading Expr => (Condition.compare .eq e r.1, r.2))
      ((ih.expr p 0 _).imp fun h => h.1.after h.2 (by decide) List.suffix_rfl) fun _ => rfl) fun c us hus => ?_
    exact (ih.whenRest p ts (some e) c hus).part hus

/-- The statement in the brackets is at least two tokens shorter. -/
theorem nested_succ : Settled ts (Enough 1 (n + 1) ts)
    (Parser.nested p (n + 1) ts) (Parser.nested p (m + 1) ts) := by
  cases ts with
  | nil => exact .unexpected p _ _
  | cons t r =>
    rw [Parser.nested, Parser.nested]
    refine .ite (fun _ => ?_) fun _ => .unexpected p _ _
    split
    · rename_i inner rest hs
      obtain ⟨hinner, hrest⟩ := splitClose_part hs
      refine ⟨Yields.bind (P := fun _ => True) (fun _ _ => trivial) fun s _ =>
        Yields.ok (hrest.trans (List.suffix_cons t r)), fun hF => ?_⟩
      have hless := hinner.length_le
      have hin : inner <:+: t :: r := hinner.trans (List.suffix_cons t r).isInfix
      obtain ⟨hsame, hshallow⟩ := ih.statement p inner (hF.part hin (by rw [List.length_cons]; omega))
      rw [hsame]
      exact ⟨rfl, hshallow.bind fun s _ => .ok _⟩
    · exact .error (by simp)

theorem operations_succ {os : List Operand} (h : ∀ o ∈ os, Enough 1 n o.tokens) :
    (os.mapM fun o => (Parser.single p m o.tokens).map fun t => SetOperation.mk (o.operator.getD .union) t) =
        (os.mapM fun o => (Parser.single p n o.tokens).map fun t => SetOperation.mk (o.operator.getD .union) t) ∧
      Shallow (os.mapM fun o =>
        (Parser.single p n o.tokens).map fun t => SetOperation.mk (o.operator.getD .union) t) := by
  induction os with
  | nil => exact ⟨rfl, .ok _⟩
  | cons o os hos =>
    obtain ⟨ho, h⟩ := List.forall_mem_cons.1 h
    obtain ⟨hfirst, hshallow⟩ := ih.single p o.tokens ho
    obtain ⟨hothers, hrest⟩ := hos h
    rw [List.mapM_cons, List.mapM_cons, hfirst, hothers]
    exact ⟨rfl, (hshallow.map _).bind fun _ _ => hrest.bind fun _ _ => .ok _⟩

theorem statement_succ (h : Enough 2 (n + 1) ts) :
    Parser.statement p (m + 1) ts = Parser.statement p (n + 1) ts ∧ Shallow (Parser.statement p (n + 1) ts) := by
  rw [Parser.statement, Parser.statement]
  have hshallow := shallow_operands ts
  have hparts := operands_part ts
  cases hos : operands ts with
  | error e => exact ⟨rfl, fun he => hshallow (hos.trans (congrArg _ (Except.error.inj he)))⟩
  | ok os =>
    have hpart : ∀ o ∈ os, Enough 1 n o.tokens := fun o ho => h.part (hparts os hos o ho) (by omega)
    cases os with
    | nil => exact ⟨rfl, .error (by simp)⟩
    | cons first others =>
      obtain ⟨hf, ho⟩ := List.forall_mem_cons.1 hpart
      obtain ⟨hfirst, hsfirst⟩ := ih.single p first.tokens hf
      obtain ⟨hothers, hsothers⟩ := ih.operations_succ p ho
      simp only [ok_bind]
      rw [hfirst, hothers]
      exact ⟨rfl, hsfirst.bind fun _ _ => hsothers.bind fun _ _ => .ok _⟩

theorem clauses_succ {ss : List Segment} (h : ∀ s ∈ ss, Enough 12 n s.tokens) (d : Draft) :
    ss.foldlM (fun d s => Parser.clause p m d s) d = ss.foldlM (fun d s => Parser.clause p n d s) d ∧
      Shallow (ss.foldlM (fun d s => Parser.clause p n d s) d) := by
  induction ss generalizing d with
  | nil => exact ⟨rfl, .ok _⟩
  | cons s ss hss =>
    obtain ⟨hs, h⟩ := List.forall_mem_cons.1 h
    obtain ⟨hfirst, hshallow⟩ := ih.clause p d s hs
    rw [List.foldlM_cons, List.foldlM_cons, hfirst]
    refine ⟨?_, hshallow.bind fun d' _ => (hss h d').2⟩
    cases Parser.clause p n d s with
    | error e => rfl
    | ok d' => exact (hss h d').1

theorem single_succ (h : Enough 1 (n + 1) ts) :
    Parser.single p (m + 1) ts = Parser.single p (n + 1) ts ∧ Shallow (Parser.single p (n + 1) ts) := by
  rw [Parser.single, Parser.single]
  have hshallow := shallow_clauses ts
  cases hss : clauses ts with
  | error e => exact ⟨rfl, fun he => hshallow (hss.trans (congrArg _ (Except.error.inj he)))⟩
  | ok ss =>
    have hpart : ∀ s ∈ ss, Enough 12 n s.tokens := by
      intro s hs
      have hbehind := clauses_part ts ss hss s hs
      have hpos : 0 < ts.length := List.length_pos_iff.2 fun hnil => by
        subst hnil
        cases hss
      have hless := hbehind.length_le
      rw [List.length_drop] at hless
      exact h.part (hbehind.trans (List.drop_suffix 1 ts).isInfix) (by omega)
    obtain ⟨hsame, hsclauses⟩ := ih.clauses_succ p hpart {}
    rw [ok_bind, ok_bind, hsame]
    exact ⟨rfl, hsclauses.bind fun d _ => shallow_statement d⟩

theorem itemsBehind (e : Expr) (text : String) : Settled ts (Enough 4 (n + 1) ts)
    (Parser.itemsBehind p n e text ts) (Parser.itemsBehind p m e text ts) := by
  refine (Settled.refl ?_ (shallow_optionalAlias p ts)).bind fun alias? us hus => ?_
  · exact optionalAlias_suffix p ts
  refine Settled.part (.word ?_ (.ok _ List.suffix_rfl)) hus
  refine ((ih.selectItems p _).imp fun h => (h.1.rest (Nat.le_refl _) hus).after h.2 (by decide)
    List.suffix_rfl).bind fun others vs hvs => ?_
  exact .ok _ hvs

theorem selectItems_succ : Settled ts (Enough 4 (n + 1) ts)
    (Parser.selectItems p (n + 1) ts) (Parser.selectItems p (m + 1) ts) := by
  rw [Parser.selectItems, Parser.selectItems]
  refine ((ih.expr p 0 ts).imp fun h => h.less (by decide) List.suffix_rfl).bind fun e us hus => ?_
  exact ((ih.itemsBehind p us e (sourceText p ts us)).imp fun h => h.rest (Nat.le_refl _) hus).part hus

theorem source_succ : Settled ts (Enough 2 (n + 1) ts)
    (Parser.source p (n + 1) ts) (Parser.source p (m + 1) ts) := by
  rw [Parser.source, Parser.source]
  refine .ite (fun _ => ?_) fun _ => .refl ?_ ?_
  · refine ((ih.nested p ts).imp fun h => h.less (by decide) List.suffix_rfl).bind fun q us hus => ?_
    refine (Settled.refl ?_ (shallow_optionalAlias p us)).bind fun alias? vs hvs => .ok _ hvs
    exact (optionalAlias_suffix p us).imp fun _ h => h.trans hus
  · refine (name_takes p _ ts).bind fun r hr => ?_
    exact (optionalAlias_suffix p r.2).bind fun a ha => Yields.ok (ha.trans hr.suffix)
  · exact (shallow_name p ts _).bind fun r _ => (shallow_optionalAlias p r.2).bind fun a _ => .ok _

theorem join_succ (kind : JoinKind) : Settled ts (Enough 11 (n + 1) ts)
    (Parser.join p (n + 1) kind ts) (Parser.join p (m + 1) kind ts) := by
  rw [Parser.join, Parser.join]
  refine ((ih.source p ts).imp fun h => h.less (by decide) List.suffix_rfl).bind fun s us hus => ?_
  refine .expect hus fun vs hvs => ?_
  refine (((ih.condition p vs).imp fun h => h.less (by decide) hvs).part hvs).bind fun c ws hws => ?_
  exact .ok _ hws

theorem orderItems_succ : Settled ts (Enough 4 (n + 1) ts)
    (Parser.orderItems p (n + 1) ts) (Parser.orderItems p (m + 1) ts) := by
  rw [Parser.orderItems, Parser.orderItems]
  refine ((ih.expr p 0 ts).imp fun h => h.less (by decide) List.suffix_rfl).bind fun e us hus => ?_
  have hvs := (direction_suffix us).trans hus
  refine Settled.part (.word ?_ (.ok _ List.suffix_rfl)) hvs
  refine ((ih.orderItems p _).imp fun h => (h.1.rest (Nat.le_refl _) hvs).after h.2 (by decide)
    List.suffix_rfl).bind fun others ws hws => ?_
  exact .ok _ hws

theorem clause_succ (d : Draft) (s : Segment) (h : Enough 12 (n + 1) s.tokens) :
    Parser.clause p (m + 1) d s = Parser.clause p (n + 1) d s ∧ Shallow (Parser.clause p (n + 1) d s) := by
  have finish : ∀ {α : Type} {q : Place} {ts : List Token} {F : Prop} {x y : Except QueryError (Reading α)}
      (f : Reading α → Reading Draft), F → Settled ts F x y →
      (y.map f >>= fun r => do expectEnd q r.2; .ok r.1) = (x.map f >>= fun r => do expectEnd q r.2; .ok r.1) ∧
        Shallow (x.map f >>= fun r => do expectEnd q r.2; .ok r.1) := by
    intro α q ts F x y f hF hx
    obtain ⟨rfl, hshallow⟩ := hx.same hF
    exact ⟨rfl, (hshallow.map f).bind fun r _ => (shallow_expectEnd q r.2).bind fun _ _ => .ok _⟩
  obtain ⟨kind, start, stop, ts⟩ := s
  have hless : ∀ c, c + 1 ≤ 12 → Enough c n ts := fun c hc => h.less hc List.suffix_rfl
  rw [Parser.clause, Parser.clause]
  cases kind with
  | select => exact finish _ (h.less (by decide) (distinctMark_passes ts).suffix) (ih.selectItems _ _)
  | source => exact finish _ (hless 2 (by decide)) (ih.source _ ts)
  | join kind => exact finish _ (hless 11 (by decide)) (ih.join _ kind ts)
  | filter => exact finish _ (hless 10 (by decide)) (ih.condition _ ts)
  | groupBy => exact finish _ (hless 4 (by decide)) (ih.exprs _ ts)
  | having => exact finish _ (hless 10 (by decide)) (ih.condition _ ts)
  | orderBy => exact finish _ (hless 4 (by decide)) (ih.orderItems _ ts)
  | limit =>
    refine ⟨rfl, ((shallow_rowCount ts stop).map _).bind fun r _ => ?_⟩
    exact (shallow_expectEnd _ r.2).bind fun _ _ => .ok _
  | pivot => exact finish _ (hless 3 (by decide)) (ih.expr _ 0 ts)

end ReadersSettle

/-- The induction is on the smaller budget. Without any, there are too many tokens for it. -/
theorem readersSettle : ∀ {n m : Nat}, n ≤ m → ReadersSettle n m
  | 0, m, _ => by
    have hnone : ∀ {c : Nat} {ts : List Token}, 0 < c → ¬Enough c 0 ts := fun hc h => by
      have := h.budget
      omega
    constructor
    all_goals intros
    all_goals first
      | exact ⟨Yields.error _, fun hF => absurd hF (hnone (by decide))⟩
      | exact absurd ‹_› (hnone (by decide))
  | n + 1, 0, h => absurd h (Nat.not_succ_le_zero n)
  | n + 1, m + 1, h =>
    have ih := readersSettle (Nat.le_of_succ_le_succ h)
    { condition := ih.condition_succ
      conjunction := ih.conjunction_succ
      moreTerms := fun p op first ts => ih.moreTerms_succ p ts op first
      negation := ih.negation_succ
      predicate := ih.predicate_succ
      comparisonFrom := ih.comparisonFrom_succ
      members := ih.members_succ
      exprs := ih.exprs_succ
      expr := fun p power ts => ih.expr_succ p ts power
      moreOperands := fun p power first ts => ih.moreOperands_succ p ts power first
      operand := ih.operand_succ
      call := fun p function ts => ih.call_succ p ts function
      caseExpr := ih.caseExpr_succ
      whenBranches := fun p subject ts => ih.whenBranches_succ p ts subject
      nested := ih.nested_succ
      statement := ih.statement_succ
      single := ih.single_succ
      clause := ih.clause_succ
      selectItems := ih.selectItems_succ
      source := ih.source_succ
      join := fun p kind ts => ih.join_succ p ts kind
      orderItems := ih.orderItems_succ }

/-! ### The budget of the whole text -/

section

variable (p : Place) (ts : List Token) {n : Nat}

theorem enough_budget {c : Nat} (hc : c ≤ 16) : Enough c (budget ts) ts := by
  rw [enough_iff, budget]
  omega

theorem condition_settled (h : budget ts ≤ n) :
    condition p n ts = condition p (budget ts) ts ∧ Shallow (condition p (budget ts) ts) :=
  ((readersSettle h).condition p ts).same (enough_budget ts (by decide))

theorem expr_settled (h : budget ts ≤ n) (power : Nat) :
    expr p n power ts = expr p (budget ts) power ts ∧ Shallow (expr p (budget ts) power ts) :=
  ((readersSettle h).expr p power ts).same (enough_budget ts (by decide))

theorem statement_settled (h : budget ts ≤ n) :
    statement p n ts = statement p (budget ts) ts ∧ Shallow (statement p (budget ts) ts) :=
  (readersSettle h).statement p ts (enough_budget ts (by decide))

end

section

variable (text : String)

theorem shallow_tokensOf : Shallow (tokensOf text) := by
  unfold tokensOf
  dsimp only
  split
  · exact .error (by simp)
  · exact .ite (.error (by simp)) (.ok _)

theorem shallow_parseStatement : Shallow (parseStatement text) :=
  (shallow_tokensOf text).bind fun ts _ => (statement_settled _ ts (Nat.le_refl _)).2

theorem shallow_parseCondition : Shallow (parseCondition text) :=
  (shallow_tokensOf text).bind fun ts _ => (condition_settled _ ts (Nat.le_refl _)).2.bind fun r _ =>
    (shallow_expectEnd _ r.2).bind fun _ _ => .ok _

theorem shallow_parseExpr : Shallow (parseExpr text) :=
  (shallow_tokensOf text).bind fun ts _ => (expr_settled _ ts (Nat.le_refl _) 0).2.bind fun r _ =>
    (shallow_expectEnd _ r.2).bind fun _ _ => .ok _

end

end Parser

end GridQuery
