import GridQuery.Proofs.KeptPlaceholders

/-!
Every reader keeps placeholders: by induction on the budget, a number stands among the tokens where it
stands in what is read off their front or in the rest.
-/

namespace GridQuery
set_option autoImplicit false

open GridQuery.Parser

namespace Parser

variable {k : Nat}

theorem Keeps.usedUp {α : Type} {has : α → Prop} {ts : List Token} {r : Reading α}
    (h : Keeps k has ts r) (hend : r.2 = []) : Numbered k ts ↔ has r.1 := by
  rwa [Keeps, hend, numbered_nil, or_false] at h

theorem join_kind (p : Place) (n : Nat) (kind : JoinKind) (ts : List Token) :
    Yields (fun r => r.1.kind = kind) (join p n kind ts) := by
  cases n with
  | zero => exact Yields.error _
  | succ n =>
    rw [join]
    refine Yields.bind (P := fun _ => True) (fun _ _ => trivial) fun _ _ => ?_
    refine Yields.bind (P := fun _ => True) (fun _ _ => trivial) fun _ _ => ?_
    exact Yields.bind (P := fun _ => True) (fun _ _ => trivial) fun _ _ => Yields.ok rfl

/-- A clause adds its placeholders at the place of its kind. -/
def Adds (k : Nat) (s : Segment) (d d' : Draft) : Prop :=
  ∀ kind, d'.HasBind k kind ↔ d.HasBind k kind ∨ s.kind = kind ∧ Numbered k s.tokens

/-- What is read of the tokens of a clause is placed in the draft where none of them are left. -/
theorem adds_of_placed {α : Type} {s : Segment} {d : Draft} {p : Place} {Q : Reading α → Prop}
    {x : Except QueryError (Reading α)} {place : Reading α → Reading Draft} (hx : Yields Q x)
    (hrest : ∀ r, (place r).2 = r.2) (hplace : ∀ r, Q r → r.2 = [] → Adds k s d (place r).1) :
    Yields (Adds k s d) (x.map place >>= fun r => do expectEnd p r.2; .ok r.1) := by
  refine Yields.bind (P := fun r : Reading Draft => r.2 = [] → Adds k s d r.1)
    (hx.map fun r hr hend => hplace r hr (hrest r ▸ hend)) fun r hr => ?_
  refine Yields.bind (P := fun _ => r.2 = []) (fun _ hend => ?_) fun _ hend => Yields.ok (hr hend)
  unfold expectEnd at hend
  split at hend
  · exact List.isEmpty_iff.1 ‹_›
  · cases hend

/-- A clause of a kind that is not there yet takes its place and leaves the others. -/
theorem adds_of_replaced {α : Type} {s : Segment} {d : Draft} {p : Place} {own : ClauseKind}
    {has : α → Prop} {x : Except QueryError (Reading α)} {place : Reading α → Reading Draft}
    (hkind : s.kind = own) (hfree : ¬ d.HasBind k own) (hx : Yields (Keeps k has s.tokens) x)
    (hrest : ∀ r, (place r).2 = r.2) (here : ∀ r, (place r).1.HasBind k own ↔ has r.1)
    (elsewhere : ∀ r kind, kind ≠ own → ((place r).1.HasBind k kind ↔ d.HasBind k kind)) :
    Yields (Adds k s d) (x.map place >>= fun r => do expectEnd p r.2; .ok r.1) := by
  refine adds_of_placed hx hrest fun r hr hend kind => ?_
  by_cases hown : kind = own
  · subst hown
    rw [here r, hr.usedUp hend, or_iff_right hfree, and_iff_right hkind]
  · rw [elsewhere r kind hown, hkind, or_iff_left fun h => hown h.1.symm]

/-- Every reader keeps placeholders within a budget of `n`. Where it is given the beginning of what it
reads, the placeholders of that are there before. -/
structure ReadersKeep (k n : Nat) : Prop where
  condition : ∀ p ts, Yields (Keeps k (Condition.HasBind k) ts) (condition p n ts)
  conjunction : ∀ p ts, Yields (Keeps k (Condition.HasBind k) ts) (conjunction p n ts)
  moreTerms : ∀ p op first ts, Yields (fun r => first.HasBind k ∨ Numbered k ts ↔
    r.1.HasBind k ∨ Numbered k r.2) (moreTerms p n op first ts)
  negation : ∀ p ts, Yields (Keeps k (Condition.HasBind k) ts) (negation p n ts)
  predicate : ∀ p ts, Yields (Keeps k (Condition.HasBind k) ts) (predicate p n ts)
  comparisonFrom : ∀ p ts, Yields (Keeps k (Condition.HasBind k) ts) (comparisonFrom p n ts)
  members : ∀ p ts, Yields (Keeps k (Expr.HasBind k) ts) (members p n ts)
  exprs : ∀ p ts, Yields (Keeps k (fun es => ∃ e ∈ es, e.HasBind k) ts) (exprs p n ts)
  expr : ∀ p power ts, Yields (Keeps k (Expr.HasBind k) ts) (expr p n power ts)
  moreOperands : ∀ p power first ts, Yields (fun r => first.HasBind k ∨ Numbered k ts ↔
    r.1.HasBind k ∨ Numbered k r.2) (moreOperands p n power first ts)
  operand : ∀ p ts, Yields (Keeps k (Expr.HasBind k) ts) (operand p n ts)
  call : ∀ p function ts, Yields (Keeps k (Expr.HasBind k) ts) (call p n function ts)
  caseExpr : ∀ p ts, Yields (Keeps k (Expr.HasBind k) ts) (caseExpr p n ts)
  /- Each branch compares with the subject, so its placeholders are there if there is a branch. -/
  whenBranches : ∀ p subject ts, Yields (fun r =>
    (r.1 ≠ [] ∧ ∃ e ∈ subject, e.HasBind k) ∨ Numbered k ts ↔
      (∃ b ∈ r.1, b.1.HasBind k ∨ b.2.HasBind k) ∨ Numbered k r.2) (whenBranches p n subject ts)
  nested : ∀ p ts, Yields (Keeps k (Statement.HasBind k) ts) (nested p n ts)
  statement : ∀ p ts, Yields (fun s => Numbered k ts ↔ s.HasBind k) (statement p n ts)
  single : ∀ p ts, Yields (fun s => s.operations = [] ∧ (Numbered k ts ↔ s.HasBind k)) (single p n ts)
  clause : ∀ p d s, (s.kind.isJoin = false → ¬ d.HasBind k s.kind) →
    Yields (Adds k s d) (clause p n d s)
  selectItems : ∀ p ts, Yields (Keeps k (fun is => ∃ i ∈ is, i.expr.HasBind k) ts) (selectItems p n ts)
  source : ∀ p ts, Yields (Keeps k (Source.HasBind k) ts) (source p n ts)
  join : ∀ p kind ts, Yields (Keeps k (fun j => j.source.HasBind k ∨ j.condition.HasBind k) ts)
    (join p n kind ts)
  orderItems : ∀ p ts, Yields (Keeps k (fun os => ∃ o ∈ os, o.expr.HasBind k) ts) (orderItems p n ts)

namespace ReadersKeep

variable {n : Nat} (ih : ReadersKeep k n) (p : Place) (ts : List Token)

include ih

theorem condition_succ : Yields (Keeps k (Condition.HasBind k) ts) (Parser.condition p (n + 1) ts) := by
  rw [Parser.condition]
  refine (ih.conjunction p ts).bind fun first hfirst => ?_
  exact (ih.moreTerms p .or first.1 first.2).imp fun r hr => hfirst.trans hr

theorem conjunction_succ : Yields (Keeps k (Condition.HasBind k) ts) (Parser.conjunction p (n + 1) ts) := by
  rw [Parser.conjunction]
  refine (ih.negation p ts).bind fun first hfirst => ?_
  exact (ih.moreTerms p .and first.1 first.2).imp fun r hr => hfirst.trans hr

theorem moreTerms_succ (op : Connective) (first : Condition) :
    Yields (fun r => first.HasBind k ∨ Numbered k ts ↔ r.1.HasBind k ∨ Numbered k r.2)
      (Parser.moreTerms p (n + 1) op first ts) := by
  have hmore : ∀ second : Reading Condition, (Numbered k ts ↔ second.1.HasBind k ∨ Numbered k second.2) →
      Yields (fun r => first.HasBind k ∨ Numbered k ts ↔ r.1.HasBind k ∨ Numbered k r.2)
        (Parser.moreTerms p n op (first.combine op second.1) second.2) := by
    intro second hsecond
    refine (ih.moreTerms p op _ second.2).imp fun r hr => ?_
    rw [hsecond, ← or_assoc, ← Condition.hasBind_combine]
    exact hr
  cases op with
  | or =>
    rw [Parser.moreTerms]
    refine Yields.ite (fun hor => ?_) fun _ => Yields.ok Iff.rfl
    exact (ih.conjunction p _).bind fun second hsecond => hmore second ((numbered_dropWord hor).trans hsecond)
  | and =>
    rw [Parser.moreTerms]
    refine Yields.ite (fun hand => ?_) fun _ => Yields.ok Iff.rfl
    exact (ih.negation p _).bind fun second hsecond => hmore second ((numbered_dropWord hand).trans hsecond)

theorem negation_succ : Yields (Keeps k (Condition.HasBind k) ts) (Parser.negation p (n + 1) ts) := by
  rw [Parser.negation]
  refine Yields.ite (fun hnot => Yields.ite (fun hexists => ?_) fun _ => ?_) fun _ => ih.predicate p ts
  · refine (ih.nested p _).bind fun q hq => Yields.ok ?_
    have htwo : Numbered k (ts.drop 1) ↔ Numbered k (ts.drop 2) := by
      have := numbered_dropWord (k := k) hexists
      rwa [List.drop_drop] at this
    rw [Keeps, Condition.hasBind_exists]
    exact ((numbered_dropWord hnot).trans htwo).trans hq
  · refine (ih.negation p _).bind fun c hc => Yields.ok ?_
    rw [Keeps, Condition.hasBind_not]
    exact (numbered_dropWord hnot).trans hc

theorem predicate_succ : Yields (Keeps k (Condition.HasBind k) ts) (Parser.predicate p (n + 1) ts) := by
  rw [Parser.predicate]
  refine Yields.ite (fun hexists => ?_) fun _ => Yields.ite (fun hopen => ?_)
    fun _ => ih.comparisonFrom p ts
  · refine (ih.nested p _).bind fun q hq => Yields.ok ?_
    rw [Keeps, Condition.hasBind_exists]
    exact (numbered_dropWord hexists).trans hq
  · rw [Bool.and_eq_true] at hopen
    split
    · rename_i c rest hc
      have hread : Numbered k (ts.drop 1) ↔ c.HasBind k ∨ Numbered k rest := ih.condition p _ _ hc
      refine Yields.ite (fun hend => Yields.ok ?_) fun _ => ih.comparisonFrom p ts
      rw [Bool.and_eq_true] at hend
      rw [Keeps, numbered_drop (by trivial) hopen.1, hread, numbered_drop (by trivial) hend.1]
    · exact ih.comparisonFrom p ts

theorem comparisonFrom_succ :
    Yields (Keeps k (Condition.HasBind k) ts) (Parser.comparisonFrom p (n + 1) ts) := by
  rw [Parser.comparisonFrom]
  refine (ih.expr p 0 ts).bind ?_
  rintro ⟨left, us⟩ (hleft : Numbered k ts ↔ left.HasBind k ∨ Numbered k us)
  have hnot : Numbered k us ↔ Numbered k (if atKeyword .not_ us then us.drop 1 else us) := by
    split
    · exact numbered_dropWord ‹_›
    · exact Iff.rfl
  dsimp only
  generalize (if atKeyword .not_ us = true then us.drop 1 else us) = vs at hnot
  rw [hnot] at hleft
  refine Yields.ite (fun hbetween => ?_) fun _ => ?_
  · refine (ih.expr p 0 _).bind ?_
    rintro ⟨low, ws⟩ (hlow : Numbered k (vs.drop 1) ↔ low.HasBind k ∨ Numbered k ws)
    refine (expect_keeps k (by trivial) ws).bind fun xs hxs => ?_
    refine (ih.expr p 0 xs).bind ?_
    rintro ⟨high, ys⟩ (hhigh : Numbered k xs ↔ high.HasBind k ∨ Numbered k ys)
    have hall : Numbered k ts ↔ left.HasBind k ∨ low.HasBind k ∨ high.HasBind k ∨ Numbered k ys := by
      rw [hleft, numbered_dropWord hbetween, hlow, hxs, hhigh]
    -- the operand in front stands in both comparisons
    have hrange : ((Condition.compare .gtEq left low).combine .and
        (.compare .ltEq left high)).HasBind k ↔ left.HasBind k ∨ low.HasBind k ∨ high.HasBind k := by
      rw [Condition.hasBind_combine, Condition.hasBind_compare, Condition.hasBind_compare,
        ← or_or_distrib_left]
    refine Yields.ok ?_
    dsimp only [Keeps]
    split
    · rw [Condition.hasBind_not, hrange, hall, or_assoc, or_assoc]
    · rw [hrange, hall, or_assoc, or_assoc]
  · refine (comparison_keeps k _ _ vs).bind ?_
    rintro ⟨op, ws⟩ (hws : Numbered k vs ↔ Numbered k ws)
    have hright : Yields (Keeps k (Expr.HasBind k) ws)
        (if op = .isIn ∨ op = .notIn then Parser.members p n ws else Parser.expr p n 0 ws) :=
      Yields.ite (fun _ => ih.members p ws) fun _ => ih.expr p 0 ws
    dsimp only
    rw [ite_bind]
    refine hright.bind ?_
    rintro ⟨right, xs⟩ (hright : Numbered k ws ↔ right.HasBind k ∨ Numbered k xs)
    refine Yields.ok ?_
    rw [Keeps, Condition.hasBind_compare, hleft, hws, hright, or_assoc]

/-- Either nothing stands in the brackets or expressions do. -/
theorem exprsOrNone : Yields (Keeps k (fun es => ∃ e ∈ es, e.HasBind k) ts)
    (if atLexeme .rightParen ts then .ok ([], ts) else Parser.exprs p n ts) :=
  Yields.ite (fun _ => Yields.ok (by simp [Keeps])) fun _ => ih.exprs p ts

theorem members_succ : Yields (Keeps k (Expr.HasBind k) ts) (Parser.members p (n + 1) ts) := by
  rw [Parser.members]
  refine Yields.ite (fun _ => ?_) fun _ => ?_
  · refine (ih.nested p ts).bind fun q hq => Yields.ok ?_
    rw [Keeps, Expr.hasBind_subquery]
    exact hq
  · refine (expect_keeps k (by trivial) ts).bind fun us hus => ?_
    rw [ite_bind]
    refine (ih.exprsOrNone p us).bind fun items hitems => ?_
    refine (expect_keeps k (by trivial) items.2).bind fun vs hvs => Yields.ok ?_
    rw [Keeps, Expr.hasBind_list, hus, ← hvs]
    exact hitems

theorem exprs_succ : Yields (Keeps k (fun es => ∃ e ∈ es, e.HasBind k) ts)
    (Parser.exprs p (n + 1) ts) := by
  rw [Parser.exprs]
  refine (ih.expr p 0 ts).bind ?_
  rintro ⟨first, us⟩ (hfirst : Numbered k ts ↔ first.HasBind k ∨ Numbered k us)
  refine Yields.ite (fun hcomma => ?_) fun _ => Yields.ok (by simpa [Keeps] using hfirst)
  refine (ih.exprs p _).bind ?_
  rintro ⟨others, vs⟩ (hothers : Numbered k (us.drop 1) ↔ (∃ e ∈ others, e.HasBind k) ∨ Numbered k vs)
  refine Yields.ok ?_
  rw [Keeps, hfirst, numbered_drop (by trivial) hcomma, hothers]
  simp only [List.mem_cons, exists_eq_or_imp, or_assoc]

theorem expr_succ (power : Nat) :
    Yields (Keeps k (Expr.HasBind k) ts) (Parser.expr p (n + 1) power ts) := by
  rw [Parser.expr]
  refine (ih.operand p ts).bind fun first hfirst => ?_
  exact (ih.moreOperands p power first.1 first.2).imp fun r hr => hfirst.trans hr

theorem moreOperands_succ (power : Nat) (first : Expr) :
    Yields (fun r => first.HasBind k ∨ Numbered k ts ↔ r.1.HasBind k ∨ Numbered k r.2)
      (Parser.moreOperands p (n + 1) power first ts) := by
  rw [Parser.moreOperands]
  split
  · exact Yields.ok Iff.rfl
  · rename_i op left right hop
    refine Yields.ite (fun _ => Yields.ok Iff.rfl) fun _ => ?_
    have hdrop : Numbered k ts ↔ Numbered k (ts.drop 1) := by
      cases ts with
      | nil => cases hop
      | cons t r => exact numbered_tail (binaryOf_unnumbered hop)
    refine (ih.expr p right _).bind fun second hsecond => ?_
    refine (ih.moreOperands p power _ second.2).imp fun r hr => ?_
    rw [hdrop, show Numbered k (ts.drop 1) ↔ _ from hsecond, ← or_assoc, ← Expr.hasBind_binary]
    exact hr

/-- A call behind the name of the function and the opening bracket. -/
theorem called (function : String) {t : Token} {r : List Token} (ht : Unnumbered t.lexeme)
    (hopen : atLexeme .leftParen r = true) :
    Yields (Keeps k (Expr.HasBind k) (t :: r)) (Parser.call p n function (r.drop 1)) :=
  (ih.call p function _).imp fun _ hx =>
    (numbered_tail ht).trans ((numbered_drop (by trivial) hopen).trans hx)

theorem operand_succ : Yields (Keeps k (Expr.HasBind k) ts) (Parser.operand p (n + 1) ts) := by
  cases ts with
  | nil =>
    rw [Parser.operand]
    exact unexpected_yields _ _ _
  | cons t r =>
    have htail : ∀ {l : Lexeme}, t.lexeme = l → Unnumbered l → (Numbered k (t :: r) ↔ Numbered k r) :=
      fun ht hl => numbered_tail (ht ▸ hl)
    rw [Parser.operand]
    split
    · rename_i s hs
      refine (ih.expr p signPower r).bind fun e he => Yields.ok ?_
      rw [Keeps, hasBind_applySign, numbered_tail (signOf_unnumbered hs)]
      exact he
    · split
      · rename_i e he
        refine Yields.ok ?_
        rw [Keeps, atom?_hasBind he, numbered_cons]
      · split
        · rename_i hl
          exact (ih.caseExpr p r).imp fun _ hx => (htail hl (by trivial)).trans hx
        · rename_i hl
          exact Yields.ite (fun hopen => ih.called p _ (by rw [hl]; trivial) hopen)
            fun _ => unexpected_yields _ _ _
        · rename_i hl
          exact Yields.ite (fun hopen => ih.called p _ (by rw [hl]; trivial) hopen)
            fun _ => unexpected_yields _ _ _
        · rename_i s hl
          refine Yields.ite (fun hopen => ih.called p _ (by rw [hl]; trivial) hopen) fun _ => ?_
          refine Yields.ite (fun hdot => ?_) fun _ => Yields.ok ?_
          · refine (qualified_keeps k _ _ _).imp fun x hx => ?_
            exact (htail hl (by trivial)).trans ((numbered_drop (by trivial) hdot).trans hx)
          · rw [Keeps, Expr.hasBind_column, false_or]
            exact htail hl (by trivial)
        · rename_i hl
          refine Yields.ite (fun _ => ?_) fun _ => ?_
          · refine (ih.nested p _).bind fun q hq => Yields.ok ?_
            rw [Keeps, Expr.hasBind_subquery]
            exact hq
          · refine (ih.expr p 0 r).bind fun e he => ?_
            refine (expect_keeps k (by trivial) e.2).bind fun us hus => Yields.ok ?_
            rw [Keeps, Expr.hasBind_paren, htail hl (by trivial), ← hus]
            exact he
        · exact unexpected_yields _ _ _

theorem call_succ (function : String) :
    Yields (Keeps k (Expr.HasBind k) ts) (Parser.call p (n + 1) function ts) := by
  rw [Parser.call]
  refine Yields.ite (fun _ => ?_) fun _ => ?_
  · refine (ih.condition p ts).bind ?_
    rintro ⟨c, us⟩ (hc : Numbered k ts ↔ c.HasBind k ∨ Numbered k us)
    refine (expect_keeps k (by trivial) us).bind fun vs hvs => ?_
    refine (ih.expr p 0 vs).bind ?_
    rintro ⟨yes, ws⟩ (hyes : Numbered k vs ↔ yes.HasBind k ∨ Numbered k ws)
    refine (expect_keeps k (by trivial) ws).bind fun xs hxs => ?_
    refine (ih.expr p 0 xs).bind ?_
    rintro ⟨no, ys⟩ (hno : Numbered k xs ↔ no.HasBind k ∨ Numbered k ys)
    refine (expect_keeps k (by trivial) ys).bind fun zs hzs => Yields.ok ?_
    rw [Keeps, Expr.hasBind_ite, hc, hvs, hyes, hxs, hno, hzs, or_assoc, or_assoc]
  · dsimp only
    rw [ite_bind]
    refine (ih.exprsOrNone p _).bind fun args hargs => ?_
    refine (expect_keeps k (by trivial) args.2).bind fun vs hvs => Yields.ok ?_
    rw [Keeps, Expr.hasBind_call, distinctMark_keeps ts, ← hvs]
    exact hargs

/-- An expression behind a word, where the word stands. -/
theorem exprOrNone {us : List Token} {c : Prop} [Decidable c]
    (hpass : c → (Numbered k ts ↔ Numbered k us)) :
    Yields (Keeps k (fun o => ∃ e ∈ o, e.HasBind k) ts)
      (if c then (Parser.expr p n 0 us).map fun r => (some r.1, r.2) else .ok (none, ts)) := by
  refine Yields.ite (fun hc => (ih.expr p 0 us).map fun r hr => ?_) fun _ => Yields.ok (by simp [Keeps])
  have hr : Numbered k us ↔ r.1.HasBind k ∨ Numbered k r.2 := hr
  simp [Keeps, hpass hc, hr]

theorem caseExpr_succ : Yields (Keeps k (Expr.HasBind k) ts) (Parser.caseExpr p (n + 1) ts) := by
  rw [Parser.caseExpr]
  dsimp only
  rw [ite_bind, ← ite_not]
  refine (ih.exprOrNone p ts fun _ => Iff.rfl).bind ?_
  rintro ⟨subject, us⟩ (hs : Numbered k ts ↔ (∃ e ∈ subject, e.HasBind k) ∨ Numbered k us)
  refine (ih.whenBranches p subject us).bind ?_
  rintro ⟨branches, vs⟩ hb
  refine Yields.ite (fun _ => unexpected_yields _ _ _) fun hsome => ?_
  have hsome : branches ≠ [] := by simpa using hsome
  have hb : (∃ e ∈ subject, e.HasBind k) ∨ Numbered k us ↔
      (∃ b ∈ branches, b.1.HasBind k ∨ b.2.HasBind k) ∨ Numbered k vs := by
    simpa only [ne_eq, hsome, not_false_eq_true, true_and] using hb
  dsimp only
  rw [ite_bind]
  refine (ih.exprOrNone p vs fun helse => numbered_dropWord helse).bind ?_
  rintro ⟨otherwise, ws⟩ (ho : Numbered k vs ↔ (∃ e ∈ otherwise, e.HasBind k) ∨ Numbered k ws)
  refine (expect_keeps k (by trivial) ws).bind fun xs hxs => Yields.ok ?_
  rw [Keeps, Expr.hasBind_case, hs, hb, ho, hxs, or_assoc]

theorem whenCondition (subject : Option Expr) :
    Yields (fun r => (∃ e ∈ subject, e.HasBind k) ∨ Numbered k ts ↔ r.1.HasBind k ∨ Numbered k r.2)
      (match subject with
      | some e => (Parser.expr p n 0 ts).map fun r => (.compare .eq e r.1, r.2)
      | none => Parser.condition p n ts) := by
  cases subject with
  | none =>
    refine (ih.condition p ts).imp fun r hr => ?_
    simpa using show Numbered k ts ↔ r.1.HasBind k ∨ Numbered k r.2 from hr
  | some e =>
    refine (ih.expr p 0 ts).map fun r hr => ?_
    have hr : Numbered k ts ↔ r.1.HasBind k ∨ Numbered k r.2 := hr
    simp [hr, or_assoc]

theorem whenBranches_succ (subject : Option Expr) : Yields (fun r =>
    (r.1 ≠ [] ∧ ∃ e ∈ subject, e.HasBind k) ∨ Numbered k ts ↔
      (∃ b ∈ r.1, b.1.HasBind k ∨ b.2.HasBind k) ∨ Numbered k r.2)
    (Parser.whenBranches p (n + 1) subject ts) := by
  rw [Parser.whenBranches]
  refine Yields.ite (fun hwhen => ?_) fun _ => Yields.ok (by simp)
  have hbranch := (ih.whenCondition p (ts.drop 1) subject).bind
    (Q := fun r => (r.1 ≠ [] ∧ ∃ e ∈ subject, e.HasBind k) ∨ Numbered k ts ↔
      (∃ b ∈ r.1, b.1.HasBind k ∨ b.2.HasBind k) ∨ Numbered k r.2) (f := fun r => do
        let ts ← expectKeyword p .then_ r.2
        let value ← Parser.expr p n 0 ts
        let others ← Parser.whenBranches p n subject value.2
        .ok ((r.1, value.1) :: others.1, others.2)) ?_
  · cases subject with
    | none => exact hbranch
    | some e => exact hbranch
  rintro ⟨c, us⟩ (hc : (∃ e ∈ subject, e.HasBind k) ∨ Numbered k (ts.drop 1) ↔ c.HasBind k ∨ Numbered k us)
  refine (expect_keeps k (by trivial) us).bind fun vs hvs => ?_
  refine (ih.expr p 0 vs).bind ?_
  rintro ⟨value, ws⟩ (hvalue : Numbered k vs ↔ value.HasBind k ∨ Numbered k ws)
  refine (ih.whenBranches p subject ws).bind ?_
  rintro ⟨others, xs⟩ hothers
  refine Yields.ok ?_
  rw [← numbered_dropWord hwhen, hvs, hvalue] at hc
  simp only [List.mem_cons, exists_eq_or_imp, ne_eq, reduceCtorEq, not_false_eq_true, true_and] at hothers ⊢
  grind

theorem nested_succ : Yields (Keeps k (Statement.HasBind k) ts) (Parser.nested p (n + 1) ts) := by
  cases ts with
  | nil =>
    rw [Parser.nested]
    exact unexpected_yields _ _ _
  | cons t r =>
    rw [Parser.nested]
    refine Yields.ite (fun ht => ?_) fun _ => unexpected_yields _ _ _
    split
    · rename_i inner rest hs
      refine (ih.statement p inner).bind fun s hinner => Yields.ok ?_
      rw [Keeps, numbered_tail (by rw [ht]; trivial), numbered_splitClose hs, hinner]
    · exact Yields.error _

theorem operations_succ (os : List Operand) :
    Yields (fun ops => (∃ o ∈ os, Numbered k o.tokens) ↔ ∃ o ∈ ops, o.statement.HasBind k)
      (os.mapM fun o =>
        (Parser.single p n o.tokens).map fun t => SetOperation.mk (o.operator.getD .union) t) := by
  induction os with
  | nil => exact Yields.ok (by simp)
  | cons o os hos =>
    rw [List.mapM_cons]
    refine Yields.bind (P := fun op => Numbered k o.tokens ↔ op.statement.HasBind k)
      ((ih.single p o.tokens).map fun s hs => hs.2) fun op hop => ?_
    refine hos.bind fun ops hops => Yields.ok ?_
    simp only [List.mem_cons, exists_eq_or_imp, hop, hops]

theorem statement_succ : Yields (fun s => Numbered k ts ↔ s.HasBind k) (Parser.statement p (n + 1) ts) := by
  rw [Parser.statement]
  refine (operands_keep k ts).bind fun os hos => ?_
  split
  · exact Yields.error _
  · rename_i first others
    refine (ih.single p first.tokens).bind fun s hs => ?_
    refine (ih.operations_succ p others).bind fun ops hops => Yields.ok ?_
    simp only [List.mem_cons, exists_eq_or_imp] at hos
    rw [hos, hs.2, hops, Statement.hasBind_operations hs.1]

/-- The clauses are of different kinds, joins aside, so none takes the place of one before it. -/
theorem clauses_succ {ss : List Segment}
    (honce : ∀ kind, kind.isJoin = false → (ss.map Segment.kind).count kind ≤ 1) (d : Draft)
    (hfree : ∀ s ∈ ss, s.kind.isJoin = false → ¬ d.HasBind k s.kind) :
    Yields (fun d' => ∀ kind, d'.HasBind k kind ↔
        d.HasBind k kind ∨ ∃ s ∈ ss, s.kind = kind ∧ Numbered k s.tokens)
      (ss.foldlM (fun d s => Parser.clause p n d s) d) := by
  induction ss generalizing d with
  | nil => exact Yields.ok (by simp)
  | cons s ss hss =>
    rw [List.foldlM_cons]
    obtain ⟨hfirst, hrest⟩ := List.forall_mem_cons.1 hfree
    refine (ih.clause p d s hfirst).bind fun d' hd' => ?_
    have honce' : ∀ kind, kind.isJoin = false → (ss.map Segment.kind).count kind ≤ 1 := by
      intro kind hkind
      exact ((List.sublist_cons_self _ _).count_le kind).trans (honce kind hkind)
    have hfree' : ∀ s' ∈ ss, s'.kind.isJoin = false → ¬ d'.HasBind k s'.kind := by
      intro s' hs' hkind hbind
      rcases (hd' s'.kind).1 hbind with hbind | ⟨hsame, -⟩
      · exact hrest s' hs' hkind hbind
      · have hmem : 0 < (ss.map Segment.kind).count s.kind :=
          List.count_pos_iff.2 (hsame ▸ List.mem_map_of_mem hs')
        have htwo := honce s.kind (hsame ▸ hkind)
        rw [List.map_cons, List.count_cons_self] at htwo
        omega
    refine (hss honce' d' hfree').imp fun d'' hd'' kind => ?_
    rw [hd'' kind, hd' kind, or_assoc]
    simp only [List.mem_cons, exists_eq_or_imp]

theorem single_succ : Yields (fun s => s.operations = [] ∧ (Numbered k ts ↔ s.HasBind k))
    (Parser.single p (n + 1) ts) := by
  rw [Parser.single]
  refine (clauses_cut ts).bind fun ss hss => ?_
  have hempty : ∀ kind, ¬ Draft.HasBind k {} kind := by
    intro kind
    cases kind
    all_goals simp [Draft.HasBind]
  refine (ih.clauses_succ p hss.once {} fun s _ _ => hempty s.kind).bind fun d hd => ?_
  refine (d.statement_keeps k).imp fun s hs => ⟨hs.1, ?_⟩
  rw [numbered_clauses hss, ← hs.2]
  simp only [hd, hempty, false_or]
  constructor
  · rintro ⟨s, hs, h⟩
    exact ⟨s.kind, s, hs, rfl, h⟩
  · rintro ⟨_, s, hs, _, h⟩
    exact ⟨s, hs, h⟩

/-- The tokens of a clause are used up, so all their placeholders come into the draft. -/
theorem clause_succ (d : Draft) (s : Segment) (hfree : s.kind.isJoin = false → ¬ d.HasBind k s.kind) :
    Yields (Adds k s d) (Parser.clause p (n + 1) d s) := by
  have hmark := distinctMark_keeps (k := k) s.tokens
  rw [Parser.clause]
  generalize distinctMark s.tokens = marked at hmark ⊢
  obtain ⟨distinct, us⟩ := marked
  split
  all_goals
    rename_i hkind
    rw [hkind] at hfree
  · have hread : Yields (Keeps k (fun is : List SelectItem => ∃ i ∈ is, i.expr.HasBind k) s.tokens)
        (Parser.selectItems (p.within s.tokens s.stop) n us) :=
      (ih.selectItems _ us).imp fun r hr => hmark.trans hr
    refine adds_of_replaced hkind (hfree rfl) hread (fun _ => rfl) (fun _ => Iff.rfl) fun r kind hne => ?_
    cases kind
    all_goals first | exact Iff.rfl | exact absurd rfl hne
  · refine adds_of_replaced hkind (hfree rfl) (ih.source _ _) (fun _ => rfl) (by simp [Draft.HasBind])
      fun r kind hne => ?_
    cases kind
    all_goals first | exact Iff.rfl | exact absurd rfl hne
  · rename_i own
    have hread : Yields (fun r => r.1.kind = own ∧
          Keeps k (fun j => j.source.HasBind k ∨ j.condition.HasBind k) s.tokens r)
        (Parser.join (p.within s.tokens s.stop) n own s.tokens) :=
      fun r hr => ⟨join_kind _ _ _ _ r hr, ih.join _ _ _ r hr⟩
    -- the joins before stay, so this clause is no replacement
    refine adds_of_placed hread (fun _ => rfl) fun r hr hend kind => ?_
    rw [hkind, hr.2.usedUp hend]
    cases kind with
    | join kind => simp [Draft.HasBind, or_and_right, exists_or, hr.1]
    | _ => simp [Draft.HasBind]
  · refine adds_of_replaced hkind (hfree rfl) (ih.condition _ _) (fun _ => rfl) (by simp [Draft.HasBind])
      fun r kind hne => ?_
    cases kind
    all_goals first | exact Iff.rfl | exact absurd rfl hne
  · refine adds_of_replaced hkind (hfree rfl) (ih.exprs _ _) (fun _ => rfl) (fun _ => Iff.rfl)
      fun r kind hne => ?_
    cases kind
    all_goals first | exact Iff.rfl | exact absurd rfl hne
  · refine adds_of_replaced hkind (hfree rfl) (ih.condition _ _) (fun _ => rfl) (by simp [Draft.HasBind])
      fun r kind hne => ?_
    cases kind
    all_goals first | exact Iff.rfl | exact absurd rfl hne
  · refine adds_of_replaced hkind (hfree rfl) (ih.orderItems _ _) (fun _ => rfl) (fun _ => Iff.rfl)
      fun r kind hne => ?_
    cases kind
    all_goals first | exact Iff.rfl | exact absurd rfl hne
  · have hread : Yields (Keeps k (fun _ : Nat => False) s.tokens) (rowCount s.stop s.tokens) :=
      (rowCount_keeps k s.stop s.tokens).imp fun r hr => hr.trans (false_or _).to_iff.symm
    refine adds_of_replaced hkind (hfree rfl) hread (fun _ => rfl) (fun _ => Iff.rfl) fun r kind _ => ?_
    cases kind
    all_goals exact Iff.rfl
  · refine adds_of_replaced hkind (hfree rfl) (ih.expr _ _ _) (fun _ => rfl) (by simp [Draft.HasBind])
      fun r kind hne => ?_
    cases kind
    all_goals first | exact Iff.rfl | exact absurd rfl hne

theorem selectItems_succ : Yields (Keeps k (fun is => ∃ i ∈ is, i.expr.HasBind k) ts)
    (Parser.selectItems p (n + 1) ts) := by
  rw [Parser.selectItems]
  refine (ih.expr p 0 ts).bind ?_
  rintro ⟨e, us⟩ (he : Numbered k ts ↔ e.HasBind k ∨ Numbered k us)
  refine (optionalAlias_keeps k _ us).bind ?_
  rintro ⟨alias?, vs⟩ (hvs : Numbered k us ↔ Numbered k vs)
  rw [hvs] at he
  refine Yields.ite (fun hcomma => ?_) fun _ => Yields.ok (by simpa [Keeps] using he)
  refine (ih.selectItems p _).bind ?_
  rintro ⟨others, ws⟩ (hothers : Numbered k (vs.drop 1) ↔ (∃ i ∈ others, i.expr.HasBind k) ∨ Numbered k ws)
  refine Yields.ok ?_
  rw [Keeps, he, numbered_drop (by trivial) hcomma, hothers]
  simp only [List.mem_cons, exists_eq_or_imp, or_assoc]

theorem source_succ : Yields (Keeps k (Source.HasBind k) ts) (Parser.source p (n + 1) ts) := by
  rw [Parser.source]
  refine Yields.ite (fun _ => ?_) fun _ => ?_
  · refine (ih.nested p ts).bind fun q hq => ?_
    refine (optionalAlias_keeps k _ q.2).bind fun as has => Yields.ok ?_
    rw [Keeps, Source.hasBind_query, ← has]
    exact hq
  · refine (name_keeps k _ _ ts).bind fun table htable => ?_
    refine (optionalAlias_keeps k _ table.2).bind fun as has => Yields.ok ?_
    rw [Keeps, Source.hasBind_table, false_or, ← has]
    exact htable

theorem join_succ (kind : JoinKind) :
    Yields (Keeps k (fun j => j.source.HasBind k ∨ j.condition.HasBind k) ts)
      (Parser.join p (n + 1) kind ts) := by
  rw [Parser.join]
  refine (ih.source p ts).bind ?_
  rintro ⟨s, us⟩ (hs : Numbered k ts ↔ s.HasBind k ∨ Numbered k us)
  refine (expect_keeps k (by trivial) us).bind fun vs hvs => ?_
  refine (ih.condition p vs).bind ?_
  rintro ⟨c, ws⟩ (hc : Numbered k vs ↔ c.HasBind k ∨ Numbered k ws)
  refine Yields.ok ?_
  rw [Keeps, hs, hvs, hc, or_assoc]

theorem orderItems_succ : Yields (Keeps k (fun os => ∃ o ∈ os, o.expr.HasBind k) ts)
    (Parser.orderItems p (n + 1) ts) := by
  rw [Parser.orderItems]
  refine (ih.expr p 0 ts).bind ?_
  rintro ⟨e, us⟩ (he : Numbered k ts ↔ e.HasBind k ∨ Numbered k us)
  rw [direction_keeps us] at he
  dsimp only
  generalize direction us = marked at he ⊢
  obtain ⟨d, vs⟩ := marked
  refine Yields.ite (fun hcomma => ?_) fun _ => Yields.ok (by simpa [Keeps] using he)
  refine (ih.orderItems p _).bind ?_
  rintro ⟨others, ws⟩ (hothers : Numbered k (vs.drop 1) ↔ (∃ o ∈ others, o.expr.HasBind k) ∨ Numbered k ws)
  refine Yields.ok ?_
  rw [Keeps, he, numbered_drop (by trivial) hcomma, hothers]
  simp only [List.mem_cons, exists_eq_or_imp, or_assoc]

end ReadersKeep

theorem readersKeep (k : Nat) : ∀ n, ReadersKeep k n
  | 0 => by
    constructor
    all_goals
      intros
      exact Yields.error _
  | n + 1 =>
    have ih := readersKeep k n
    { condition := ih.condition_succ
      conjunction := ih.conjunction_succ
      moreTerms := fun p op first ts => ih.moreTerms_succ p ts op first
      negation := ih.negation_succ
      predicate := ih.predicate_succ
      comparisonFrom := ih.comparisonFrom_succ
      members := ih.members_succ
      exprs := ih.exprs_succ
      expr := fun p power ts => ih.expr_succ p ts power
      moreOperands := fun p power first ts => ih.moreOperands_succ p ts power first
      operand := ih.operand_succ
      call := fun p function ts => ih.call_succ p ts function
      caseExpr := ih.caseExpr_succ
      whenBranches := fun p subject ts => ih.whenBranches_succ p ts subject
      nested := ih.nested_succ
      statement := ih.statement_succ
      single := ih.single_succ
      clause := ih.clause_succ
      selectItems := ih.selectItems_succ
      source := ih.source_succ
      join := fun p kind ts => ih.join_succ p ts kind
      orderItems := ih.orderItems_succ }

end Parser

end GridQuery
