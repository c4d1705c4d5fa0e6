import GridQuery.Proofs.Stretches

/-!
Where select items come from. A reading of an expression or of a condition takes a stretch off the front
of its tokens, and at every depth of what is read each select item has been read from a stretch of the
same tokens and has the text of that stretch.
-/

namespace GridQuery
set_option autoImplicit false

open GridQuery.Parser

/-! ### Statements at any depth -/

/-- Every select item has the property, those of the statements within at any depth included. -/
def Statement.AllItems (P : SelectItem → Prop) (s : Statement) : Prop :=
  ∀ q, Relation.ReflTransGen Statement.Within s q → ∀ i ∈ q.items, P i

def AllWithin (P : SelectItem → Prop) (qs : List Statement) : Prop :=
  ∀ q ∈ qs, q.AllItems P

section

variable {P : SelectItem → Prop}

theorem Statement.AllItems.intro {s : Statement} (hitems : ∀ i ∈ s.items, P i)
    (hwithin : ∀ q, s.Within q → q.AllItems P) : s.AllItems P := by
  intro q hq
  rcases Relation.ReflTransGen.cases_head hq with rfl | ⟨r, hr, hrest⟩
  · exact hitems
  · exact hwithin r hr q hrest

theorem Statement.AllItems.items {s : Statement} (h : s.AllItems P) : ∀ i ∈ s.items, P i :=
  h s .refl

theorem Statement.AllItems.within {s q : Statement} (h : s.AllItems P) (hq : s.Within q) :
    q.AllItems P :=
  fun r hr => h r (.head hq hr)

theorem allWithin_nil : AllWithin P [] :=
  fun _ h => nomatch h

theorem allWithin_singleton {q : Statement} : AllWithin P [q] ↔ q.AllItems P :=
  List.forall_mem_singleton

theorem allWithin_append {qs rs : List Statement} :
    AllWithin P (qs ++ rs) ↔ AllWithin P qs ∧ AllWithin P rs :=
  List.forall_mem_append

theorem termsStatements_append (cs ds : List Condition) :
    termsStatements (cs ++ ds) = termsStatements cs ++ termsStatements ds := by
  induction cs with
  | nil => rfl
  | cons c cs ih => simp only [List.cons_append, termsStatements, ih, List.append_assoc]

theorem combine_statements (op : Connective) (first second : Condition) :
    (first.combine op second).statements = first.statements ++ second.statements := by
  cases first with
  | logic o terms =>
    simp only [Condition.combine]
    split
    · simp [Condition.statements, termsStatements_append, termsStatements]
    · simp [Condition.statements, termsStatements]
  | _ => simp [Condition.combine, Condition.statements, termsStatements]

/-- The statements within a draft have the property, and so do its own items. -/
structure AllInDraft (P : SelectItem → Prop) (d : Draft) : Prop where
  items : ∀ i ∈ d.items, P i ∧ AllWithin P i.expr.statements
  source : ∀ s ∈ d.source, AllWithin P s.statements
  joins : ∀ j ∈ d.joins, AllWithin P j.source.statements ∧ AllWithin P j.condition.statements
  filter : ∀ c ∈ d.filter, AllWithin P c.statements
  groupBy : AllWithin P (exprsStatements d.groupBy)
  having : ∀ c ∈ d.having, AllWithin P c.statements
  orderBy : ∀ o ∈ d.orderBy, AllWithin P o.expr.statements
  pivot : ∀ e ∈ d.pivot, AllWithin P e.statements

theorem allInDraft_empty : AllInDraft P {} where
  items _ h := nomatch h
  source _ h := nomatch h
  joins _ h := nomatch h
  filter _ h := nomatch h
  groupBy := allWithin_nil
  having _ h := nomatch h
  orderBy _ h := nomatch h
  pivot _ h := nomatch h

theorem AllInDraft.statement {d : Draft} (h : AllInDraft P d) :
    Yields (Statement.AllItems P) d.statement := by
  unfold Draft.statement
  split
  · rename_i source hs
    refine Yields.ok (.intro (fun i hi => (h.items i hi).1) fun q hq => ?_)
    cases hq with
    | source hq => exact h.source _ hs q hq
    | joined hj hq => exact (h.joins _ hj).1 q hq
    | on hj hq => exact (h.joins _ hj).2 q hq
    | item hi hq => exact (h.items _ hi).2 q hq
    | filter hc hq => exact h.filter _ hc q hq
    | groupBy he hq => exact h.groupBy q (mem_exprsStatements.2 ⟨_, he, hq⟩)
    | having hc hq => exact h.having _ hc q hq
    | orderBy ho hq => exact h.orderBy _ ho q hq
    | pivot he hq => exact h.pivot _ he q hq
    | operation ho => cases ho
  · exact Yields.error _

theorem Statement.AllItems.operations {s : Statement} {ops : List SetOperation} (h : s.AllItems P)
    (hops : ∀ o ∈ ops, o.statement.AllItems P) :
    ({ s with operations := ops } : Statement).AllItems P := by
  refine .intro h.items fun q hq => ?_
  cases hq with
  | source hq => exact h.within (.source hq)
  | joined hj hq => exact h.within (.joined hj hq)
  | on hj hq => exact h.within (.on hj hq)
  | item hi hq => exact h.within (.item hi hq)
  | filter hc hq => exact h.within (.filter hc hq)
  | groupBy he hq => exact h.within (.groupBy he hq)
  | having hc hq => exact h.within (.having hc hq)
  | orderBy ho hq => exact h.within (.orderBy ho hq)
  | pivot he hq => exact h.within (.pivot he hq)
  | operation ho => exact hops _ ho

end

namespace Parser

variable {T : List Token}

/-! ### What the readers take, and where its items come from -/

/-- The item was read from a stretch of the tokens, and its text is that of the stretch. -/
def Drawn (src : List Char) (T : List Token) (i : SelectItem) : Prop :=
  ∃ stop n ts rest, ts <:+: T ∧ Takes ts rest ∧ expr ⟨src, stop⟩ n 0 ts = .ok (i.expr, rest) ∧
    i.text = sourceText ⟨src, stop⟩ ts rest

/-- What is read was taken off the front, and the items of the statements within were drawn. -/
def Draws {α : Type} (src : List Char) (T : List Token) (statements : α → List Statement)
    (takes : List Token → List Token → Prop) (ts : List Token) (r : Reading α) : Prop :=
  takes ts r.2 ∧ AllWithin (Drawn src T) (statements r.1)

/-- Every reader draws the items of what it reads within a budget of `n`. -/
structure ReadersDraw (src : List Char) (T : List Token) (n : Nat) : Prop where
  condition : ∀ i ts, ts <:+: T →
    Yields (Draws src T Condition.statements Takes ts) (condition ⟨src, i⟩ n ts)
  conjunction : ∀ i ts, ts <:+: T →
    Yields (Draws src T Condition.statements Takes ts) (conjunction ⟨src, i⟩ n ts)
  moreTerms : ∀ i op first ts, AllWithin (Drawn src T) first.statements → ts <:+: T →
    Yields (Draws src T Condition.statements Passes ts) (moreTerms ⟨src, i⟩ n op first ts)
  negation : ∀ i ts, ts <:+: T →
    Yields (Draws src T Condition.statements Takes ts) (negation ⟨src, i⟩ n ts)
  predicate : ∀ i ts, ts <:+: T →
    Yields (Draws src T Condition.statements Takes ts) (predicate ⟨src, i⟩ n ts)
  comparisonFrom : ∀ i ts, ts <:+: T →
    Yields (Draws src T Condition.statements Takes ts) (comparisonFrom ⟨src, i⟩ n ts)
  members : ∀ i ts, ts <:+: T →
    Yields (Draws src T Expr.statements Takes ts) (members ⟨src, i⟩ n ts)
  exprs : ∀ i ts, ts <:+: T →
    Yields (Draws src T exprsStatements Takes ts) (exprs ⟨src, i⟩ n ts)
  expr : ∀ i power ts, ts <:+: T →
    Yields (Draws src T Expr.statements Takes ts) (expr ⟨src, i⟩ n power ts)
  moreOperands : ∀ i power first ts, AllWithin (Drawn src T) first.statements → ts <:+: T →
    Yields (Draws src T Expr.statements Passes ts) (moreOperands ⟨src, i⟩ n power first ts)
  operand : ∀ i ts, ts <:+: T →
    Yields (Draws src T Expr.statements Takes ts) (operand ⟨src, i⟩ n ts)
  call : ∀ i function ts, ts <:+: T →
    Yields (Draws src T Expr.statements Closes ts) (call ⟨src, i⟩ n function ts)
  caseExpr : ∀ i ts, ts <:+: T →
    Yields (Draws src T Expr.statements Takes ts) (caseExpr ⟨src, i⟩ n ts)
  whenBranches : ∀ i subject ts, AllWithin (Drawn src T) (elseStatements subject) → ts <:+: T →
    Yields (Draws src T branchesStatements Passes ts) (whenBranches ⟨src, i⟩ n subject ts)
  nested : ∀ i ts, ts <:+: T →
    Yields (Draws src T (fun q => [q]) Takes ts) (nested ⟨src, i⟩ n ts)
  statement : ∀ i ts, ts <:+: T → Yields (Statement.AllItems (Drawn src T)) (statement ⟨src, i⟩ n ts)
  single : ∀ i ts, ts <:+: T → Yields (Statement.AllItems (Drawn src T)) (single ⟨src, i⟩ n ts)
  clause : ∀ i d s, AllInDraft (Drawn src T) d → s.tokens <:+: T →
    Yields (AllInDraft (Drawn src T)) (clause ⟨src, i⟩ n d s)
  selectItems : ∀ i ts, ts <:+: T →
    Yields (fun r => ∀ i ∈ r.1, Drawn src T i ∧ AllWithin (Drawn src T) i.expr.statements)
      (selectItems ⟨src, i⟩ n ts)
  source : ∀ i ts, ts <:+: T →
    Yields (Draws src T Source.statements (fun _ rest => rest <:+: T) ts) (source ⟨src, i⟩ n ts)
  join : ∀ i kind ts, ts <:+: T →
    Yields (fun r => AllWithin (Drawn src T) r.1.source.statements ∧
      AllWithin (Drawn src T) r.1.condition.statements) (join ⟨src, i⟩ n kind ts)
  orderItems : ∀ i ts, ts <:+: T →
    Yields (fun r => ∀ o ∈ r.1, AllWithin (Drawn src T) o.expr.statements) (orderItems ⟨src, i⟩ n ts)

namespace ReadersDraw

variable {src : List Char} {n : Nat} (ih : ReadersDraw src T n)

include ih

theorem condition_succ (i : Nat) {ts : List Token} (h : ts <:+: T) :
    Yields (Draws src T Condition.statements Takes ts) (Parser.condition ⟨src, i⟩ (n + 1) ts) := by
  rw [Parser.condition]
  refine (ih.conjunction i ts h).bind ?_
  rintro ⟨first, us⟩ ⟨hus, hf⟩
  exact (ih.moreTerms i .or first us hf (hus.part h)).imp fun r hr => ⟨hus.trans hr.1, hr.2⟩

theorem conjunction_succ (i : Nat) {ts : List Token} (h : ts <:+: T) :
    Yields (Draws src T Condition.statements Takes ts) (Parser.conjunction ⟨src, i⟩ (n + 1) ts) := by
  rw [Parser.conjunction]
  refine (ih.negation i ts h).bind ?_
  rintro ⟨first, us⟩ ⟨hus, hf⟩
  exact (ih.moreTerms i .and first us hf (hus.part h)).imp fun r hr => ⟨hus.trans hr.1, hr.2⟩

theorem moreTerms_succ (i : Nat) (op : Connective) {first : Condition} {ts : List Token}
    (hf : AllWithin (Drawn src T) first.statements) (h : ts <:+: T) :
    Yields (Draws src T Condition.statements Passes ts)
      (Parser.moreTerms ⟨src, i⟩ (n + 1) op first ts) := by
  have hmore : ∀ {second : Condition} {us : List Token}, Takes ts us → AllWithin (Drawn src T) second.statements →
      Yields (Draws src T Condition.statements Passes ts)
        (Parser.moreTerms ⟨src, i⟩ n op (first.combine op second) us) := by
    intro second us hus hs
    refine (ih.moreTerms i op _ us ?_ (hus.part h)).imp fun r hr => ⟨hus.passes.trans hr.1, hr.2⟩
    rw [combine_statements]
    exact allWithin_append.2 ⟨hf, hs⟩
  cases op with
  | or =>
    rw [Parser.moreTerms]
    refine Yields.ite (fun hor => ?_) fun _ => Yields.ok ⟨passes_refl ts, hf⟩
    refine (ih.conjunction i _ (infix_drop h 1)).bind ?_
    rintro ⟨second, us⟩ ⟨hus, hs⟩
    exact hmore ((takes_of_atKeyword hor).trans hus.passes) hs
  | and =>
    rw [Parser.moreTerms]
    refine Yields.ite (fun hand => ?_) fun _ => Yields.ok ⟨passes_refl ts, hf⟩
    refine (ih.negation i _ (infix_drop h 1)).bind ?_
    rintro ⟨second, us⟩ ⟨hus, hs⟩
    exact hmore ((takes_of_atKeyword hand).trans hus.passes) hs

theorem negation_succ (i : Nat) {ts : List Token} (h : ts <:+: T) :
    Yields (Draws src T Condition.statements Takes ts) (Parser.negation ⟨src, i⟩ (n + 1) ts) := by
  rw [Parser.negation]
  refine Yields.ite (fun hnot => Yields.ite (fun hexists => ?_) fun _ => ?_) fun _ => ih.predicate i ts h
  · refine (ih.nested i _ (infix_drop h 2)).bind ?_
    rintro ⟨q, us⟩ ⟨hus, hq⟩
    have htwo : Takes (ts.drop 1) (ts.drop 2) := by
      have htake := takes_of_atKeyword hexists
      rwa [List.drop_drop] at htake
    exact Yields.ok ⟨((takes_of_atKeyword hnot).trans htwo.passes).trans hus.passes, hq⟩
  · refine (ih.negation i _ (infix_drop h 1)).bind ?_
    rintro ⟨c, us⟩ ⟨hus, hc⟩
    exact Yields.ok ⟨(takes_of_atKeyword hnot).trans hus.passes, hc⟩

theorem predicate_succ (i : Nat) {ts : List Token} (h : ts <:+: T) :
    Yields (Draws src T Condition.statements Takes ts) (Parser.predicate ⟨src, i⟩ (n + 1) ts) := by
  rw [Parser.predicate]
  refine Yields.ite (fun hexists => ?_) fun _ => Yields.ite (fun hopen => ?_)
    fun _ => ih.comparisonFrom i ts h
  · refine (ih.nested i _ (infix_drop h 1)).bind ?_
    rintro ⟨q, us⟩ ⟨hus, hq⟩
    exact Yields.ok ⟨(takes_of_atKeyword hexists).trans hus.passes, hq⟩
  · rw [Bool.and_eq_true] at hopen
    obtain ⟨t, r, rfl, ht⟩ := exists_of_atLexeme hopen.1
    split
    · rename_i c rest hc
      obtain ⟨hrest, hdrawn⟩ := ih.condition i _ (infix_drop h 1) _ hc
      refine Yields.ite (fun hend => Yields.ok ⟨?_, hdrawn⟩) fun _ => ih.comparisonFrom i _ h
      rw [Bool.and_eq_true] at hend
      obtain ⟨u, us, rfl, hu⟩ := exists_of_atLexeme hend.1
      exact takes_brackets ht (hrest.passes.closes ⟨[], u, closed_nil, hu, rfl⟩)
    · exact ih.comparisonFrom i _ h

theorem comparisonFrom_succ (i : Nat) {ts : List Token} (h : ts <:+: T) :
    Yields (Draws src T Condition.statements Takes ts)
      (Parser.comparisonFrom ⟨src, i⟩ (n + 1) ts) := by
  rw [Parser.comparisonFrom]
  refine (ih.expr i 0 ts h).bind ?_
  rintro ⟨left, us⟩ ⟨hus, hl⟩
  have hnot : Passes us (if atKeyword .not_ us then us.drop 1 else us) := by
    split
    · exact (takes_of_atKeyword ‹_›).passes
    · exact passes_refl us
  dsimp only
  generalize (if atKeyword .not_ us = true then us.drop 1 else us) = vs at hnot
  have hvs := hus.trans hnot
  have hpart := hvs.part h
  refine Yields.ite (fun hbetween => ?_) fun _ => ?_
  · refine (ih.expr i 0 _ (infix_drop hpart 1)).bind ?_
    rintro ⟨low, ws⟩ ⟨hws, hlow⟩
    have hws := hvs.trans ((takes_of_atKeyword hbetween).trans hws.passes).passes
    refine (expect_takes (by trivial) _).bind fun xs hxs => ?_
    have hxs := hws.trans hxs.passes
    refine (ih.expr i 0 xs (hxs.part h)).bind ?_
    rintro ⟨high, ys⟩ ⟨hys, hhigh⟩
    refine Yields.ok ⟨hxs.trans hys.passes, ?_⟩
    have hrange : AllWithin (Drawn src T)
        ((Condition.compare .gtEq left low).combine .and (.compare .ltEq left high)).statements := by
      rw [combine_statements]
      exact allWithin_append.2 ⟨allWithin_append.2 ⟨hl, hlow⟩, allWithin_append.2 ⟨hl, hhigh⟩⟩
    dsimp only
    split
    · exact hrange
    · exact hrange
  · refine (comparison_takes _ _ vs).bind ?_
    rintro ⟨op, ws⟩ hws
    have hws := hvs.trans (Takes.passes hws)
    have hright : Yields (Draws src T Expr.statements Takes ws)
        (if op = .isIn ∨ op = .notIn then Parser.members ⟨src, i⟩ n ws
          else Parser.expr ⟨src, i⟩ n 0 ws) :=
      Yields.ite (fun _ => ih.members i ws (hws.part h)) fun _ => ih.expr i 0 ws (hws.part h)
    dsimp only
    rw [ite_bind]
    refine hright.bind ?_
    rintro ⟨right, xs⟩ ⟨hxs, hr⟩
    exact Yields.ok ⟨hws.trans hxs.passes, allWithin_append.2 ⟨hl, hr⟩⟩

/-- Either nothing stands in the brackets or expressions do. -/
theorem exprsOrNone (i : Nat) {ts : List Token} (h : ts <:+: T) :
    Yields (Draws src T exprsStatements Passes ts)
      (if atLexeme .rightParen ts then .ok ([], ts) else Parser.exprs ⟨src, i⟩ n ts) :=
  Yields.ite (fun _ => Yields.ok ⟨passes_refl ts, allWithin_nil⟩)
    fun _ => (ih.exprs i ts h).imp fun _ hr => ⟨hr.1.passes, hr.2⟩

theorem members_succ (i : Nat) {ts : List Token} (h : ts <:+: T) :
    Yields (Draws src T Expr.statements Takes ts) (Parser.members ⟨src, i⟩ (n + 1) ts) := by
  rw [Parser.members]
  refine Yields.ite (fun _ => ?_) fun _ => ?_
  · refine (ih.nested i ts h).bind ?_
    rintro ⟨q, us⟩ ⟨hus, hq⟩
    exact Yields.ok ⟨hus, hq⟩
  · refine Yields.bind (fun _ hus => expect_cons hus) ?_
    rintro us ⟨t, ht, rfl⟩
    dsimp only
    rw [ite_bind]
    refine (ih.exprsOrNone i (infix_tail h)).bind ?_
    rintro ⟨items, vs⟩ ⟨hvs, hitems⟩
    refine (expect_closes vs).bind fun ws hws => ?_
    exact Yields.ok ⟨takes_brackets ht (hvs.closes hws), hitems⟩

theorem exprs_succ (i : Nat) {ts : List Token} (h : ts <:+: T) :
    Yields (Draws src T exprsStatements Takes ts) (Parser.exprs ⟨src, i⟩ (n + 1) ts) := by
  rw [Parser.exprs]
  refine (ih.expr i 0 ts h).bind ?_
  rintro ⟨first, us⟩ ⟨hus, hf⟩
  refine Yields.ite (fun hcomma => ?_) fun _ =>
    Yields.ok ⟨hus, allWithin_append.2 ⟨hf, allWithin_nil⟩⟩
  have hcomma := hus.trans (takes_of_atLexeme (by trivial) hcomma).passes
  refine (ih.exprs i _ (hcomma.part h)).bind ?_
  rintro ⟨others, vs⟩ ⟨hvs, ho⟩
  exact Yields.ok ⟨hcomma.trans hvs.passes, allWithin_append.2 ⟨hf, ho⟩⟩

theorem expr_succ (i power : Nat) {ts : List Token} (h : ts <:+: T) :
    Yields (Draws src T Expr.statements Takes ts) (Parser.expr ⟨src, i⟩ (n + 1) power ts) := by
  rw [Parser.expr]
  refine (ih.operand i ts h).bind ?_
  rintro ⟨first, us⟩ ⟨hus, hf⟩
  exact (ih.moreOperands i power first us hf (hus.part h)).imp fun r hr => ⟨hus.trans hr.1, hr.2⟩

theorem moreOperands_succ (i power : Nat) {first : Expr} {ts : List Token}
    (hf : AllWithin (Drawn src T) first.statements) (h : ts <:+: T) :
    Yields (Draws src T Expr.statements Passes ts)
      (Parser.moreOperands ⟨src, i⟩ (n + 1) power first ts) := by
  rw [Parser.moreOperands]
  split
  · exact Yields.ok ⟨passes_refl ts, hf⟩
  · rename_i op left right hop
    refine Yields.ite (fun _ => Yields.ok ⟨passes_refl ts, hf⟩) fun _ => ?_
    have htake : Takes ts (ts.drop 1) := by
      cases ts with
      | nil => cases hop
      | cons t r => exact takes_plain (binaryOf_plain hop) r
    refine (ih.expr i right _ (infix_drop h 1)).bind ?_
    rintro ⟨second, us⟩ ⟨hus, hs⟩
    have hus := htake.trans hus.passes
    exact (ih.moreOperands i power (.binary op first second) us (allWithin_append.2 ⟨hf, hs⟩)
      (hus.part h)).imp fun r hr => ⟨hus.passes.trans hr.1, hr.2⟩

theorem bracketed (i : Nat) {t : Token} {r : List Token} (ht : t.lexeme = .leftParen)
    (h : t :: r <:+: T) :
    Yields (Draws src T Expr.statements Takes (t :: r)) (do
      let (e, ts) ← Parser.expr ⟨src, i⟩ n 0 r
      let ts ← expect ⟨src, i⟩ .rightParen ")" ts
      .ok (.paren e, ts)) := by
  refine (ih.expr i 0 r (infix_tail h)).bind ?_
  rintro ⟨e, us⟩ ⟨hus, he⟩
  refine (expect_closes us).bind fun vs hvs => ?_
  exact Yields.ok ⟨takes_brackets ht (hus.passes.closes hvs), he⟩

theorem called (i : Nat) (function : String) {t : Token} {r : List Token} (ht : Plain t.lexeme)
    (h : t :: r <:+: T) (hopen : atLexeme .leftParen r = true) :
    Yields (Draws src T Expr.statements Takes (t :: r)) (Parser.call ⟨src, i⟩ n function (r.drop 1)) := by
  obtain ⟨u, us, rfl, hu⟩ := exists_of_atLexeme hopen
  exact (ih.call i function us (infix_drop h 2)).imp fun x hx =>
    ⟨(takes_plain ht _).trans (takes_brackets hu hx.1).passes, hx.2⟩

theorem operand_succ (i : Nat) {ts : List Token} (h : ts <:+: T) :
    Yields (Draws src T Expr.statements Takes ts) (Parser.operand ⟨src, i⟩ (n + 1) ts) := by
  cases ts with
  | nil =>
    rw [Parser.operand]
    exact unexpected_yields _ _ _
  | cons t r =>
    rw [Parser.operand]
    split
    · rename_i s hs
      refine (ih.expr i signPower r (infix_tail h)).bind ?_
      rintro ⟨e, us⟩ ⟨hus, he⟩
      refine Yields.ok ⟨(takes_plain (signOf_plain hs) r).trans hus.passes, ?_⟩
      rwa [applySign_statements]
    · split
      · rename_i e he
        obtain ⟨hplain, hnone⟩ := atom?_statements he
        refine Yields.ok ⟨takes_plain hplain r, ?_⟩
        rw [hnone]
        exact allWithin_nil
      · have hplain : ∀ {l : Lexeme}, t.lexeme = l → Plain l → Plain t.lexeme := fun hl hp => hl ▸ hp
        split
        · rename_i hl
          refine (ih.caseExpr i r (infix_tail h)).imp fun x hx => ⟨?_, hx.2⟩
          exact (takes_plain (hplain hl (by trivial)) r).trans hx.1.passes
        · rename_i hl
          exact Yields.ite (fun hopen => ih.called i _ (hplain hl (by trivial)) h hopen)
            fun _ => unexpected_yields _ _ _
        · rename_i hl
          exact Yields.ite (fun hopen => ih.called i _ (hplain hl (by trivial)) h hopen)
            fun _ => unexpected_yields _ _ _
        · rename_i s hl
          have hname := takes_plain (hplain hl (by trivial)) r
          refine Yields.ite (fun hopen => ih.called i _ (hplain hl (by trivial)) h hopen) fun _ => ?_
          refine Yields.ite (fun hdot => ?_) fun _ => Yields.ok ⟨hname, allWithin_nil⟩
          refine (qualified_takes _ _ _).imp fun x hx => ⟨?_, hx.2 ▸ allWithin_nil⟩
          exact (hname.trans (takes_of_atLexeme (by trivial) hdot).passes).trans hx.1.passes
        · rename_i hl
          refine Yields.ite (fun _ => ?_) fun _ => ih.bracketed i hl h
          refine (ih.nested i _ h).bind ?_
          rintro ⟨q, us⟩ ⟨hus, hq⟩
          exact Yields.ok ⟨hus, hq⟩
        · exact unexpected_yields _ _ _

theorem call_succ (i : Nat) (function : String) {ts : List Token} (h : ts <:+: T) :
    Yields (Draws src T Expr.statements Closes ts) (Parser.call ⟨src, i⟩ (n + 1) function ts) := by
  rw [Parser.call]
  refine Yields.ite (fun _ => ?_) fun _ => ?_
  · refine (ih.condition i ts h).bind ?_
    rintro ⟨c, us⟩ ⟨hus, hc⟩
    refine (expect_takes (by trivial) us).bind fun vs hvs => ?_
    have hvs := hus.trans hvs.passes
    refine (ih.expr i 0 vs (hvs.part h)).bind ?_
    rintro ⟨yes, ws⟩ ⟨hws, hyes⟩
    refine (expect_takes (by trivial) ws).bind fun xs hxs => ?_
    have hxs := hvs.trans (hws.trans hxs.passes).passes
    refine (ih.expr i 0 xs (hxs.part h)).bind ?_
    rintro ⟨no, ys⟩ ⟨hys, hno⟩
    refine (expect_closes ys).bind fun zs hzs => ?_
    refine Yields.ok ⟨(hxs.trans hys.passes).passes.closes hzs, ?_⟩
    exact allWithin_append.2 ⟨hc, allWithin_append.2 ⟨hyes, hno⟩⟩
  · have hmark := distinctMark_passes ts
    dsimp only
    rw [ite_bind]
    refine (ih.exprsOrNone i (hmark.part h)).bind ?_
    rintro ⟨args, us⟩ ⟨hus, hargs⟩
    refine (expect_closes us).bind fun vs hvs => ?_
    exact Yields.ok ⟨(hmark.trans hus).closes hvs, hargs⟩

/-- An expression behind a word, where the word stands. -/
theorem exprOrNone (i : Nat) {ts us : List Token} {c : Prop} [Decidable c] (h : us <:+: T)
    (hpass : c → Passes ts us) :
    Yields (Draws src T elseStatements Passes ts)
      (if c then (Parser.expr ⟨src, i⟩ n 0 us).map fun r => (some r.1, r.2) else .ok (none, ts)) :=
  Yields.ite (fun hc => (ih.expr i 0 us h).map fun _ hr => ⟨(hpass hc).trans hr.1.passes, hr.2⟩)
    fun _ => Yields.ok ⟨passes_refl ts, allWithin_nil⟩

theorem caseExpr_succ (i : Nat) {ts : List Token} (h : ts <:+: T) :
    Yields (Draws src T Expr.statements Takes ts) (Parser.caseExpr ⟨src, i⟩ (n + 1) ts) := by
  rw [Parser.caseExpr]
  dsimp only
  rw [ite_bind, ← ite_not]
  refine (ih.exprOrNone i h fun _ => passes_refl ts).bind ?_
  rintro ⟨subject, us⟩ ⟨hus, hs⟩
  refine (ih.whenBranches i subject us hs (hus.part h)).bind ?_
  rintro ⟨branches, vs⟩ ⟨hvs, hb⟩
  have hvs := hus.trans hvs
  refine Yields.ite (fun _ => unexpected_yields _ _ _) fun _ => ?_
  dsimp only
  rw [ite_bind]
  refine (ih.exprOrNone i (infix_drop (hvs.part h) 1)
    fun helse => (takes_of_atKeyword helse).passes).bind ?_
  rintro ⟨otherwise, ws⟩ ⟨hws, ho⟩
  refine (expect_takes (by trivial) ws).bind fun xs hxs => ?_
  exact Yields.ok ⟨(hvs.trans hws).takes hxs, allWithin_append.2 ⟨hb, ho⟩⟩

theorem whenCondition (i : Nat) {subject : Option Expr} {ts : List Token}
    (hs : AllWithin (Drawn src T) (elseStatements subject)) (h : ts <:+: T) :
    Yields (Draws src T Condition.statements Takes ts) (match subject with
      | some e => (Parser.expr ⟨src, i⟩ n 0 ts).map fun r => (.compare .eq e r.1, r.2)
      | none => Parser.condition ⟨src, i⟩ n ts) := by
  cases subject with
  | none => exact ih.condition i ts h
  | some e => exact (ih.expr i 0 ts h).map fun r hr => ⟨hr.1, allWithin_append.2 ⟨hs, hr.2⟩⟩

/-- A branch behind its condition, and the branches behind it. -/
theorem whenRest (i : Nat) {subject : Option Expr} {ts : List Token}
    (hs : AllWithin (Drawn src T) (elseStatements subject)) (h : ts <:+: T)
    (hwhen : atKeyword .when ts = true) :
    ∀ r, Draws src T Condition.statements Takes (ts.drop 1) r →
      Yields (Draws src T branchesStatements Passes ts) (do
        let ts ← expectKeyword ⟨src, i⟩ .then_ r.2
        let (value, ts) ← Parser.expr ⟨src, i⟩ n 0 ts
        let (others, ts) ← Parser.whenBranches ⟨src, i⟩ n subject ts
        .ok ((r.1, value) :: others, ts)) := by
  rintro ⟨c, us⟩ ⟨hus, hc⟩
  have hus := (takes_of_atKeyword hwhen).trans hus.passes
  refine (expect_takes (by trivial) us).bind fun vs hvs => ?_
  have hvs := hus.trans hvs.passes
  refine (ih.expr i 0 vs (hvs.part h)).bind ?_
  rintro ⟨value, ws⟩ ⟨hws, hv⟩
  have hws := hvs.trans hws.passes
  refine (ih.whenBranches i subject ws hs (hws.part h)).bind ?_
  rintro ⟨others, xs⟩ ⟨hxs, ho⟩
  exact Yields.ok ⟨hws.passes.trans hxs,
    allWithin_append.2 ⟨hc, allWithin_append.2 ⟨hv, ho⟩⟩⟩

theorem whenBranches_succ (i : Nat) {subject : Option Expr} {ts : List Token}
    (hs : AllWithin (Drawn src T) (elseStatements subject)) (h : ts <:+: T) :
    Yields (Draws src T branchesStatements Passes ts)
      (Parser.whenBranches ⟨src, i⟩ (n + 1) subject ts) := by
  rw [Parser.whenBranches]
  refine Yields.ite (fun hwhen => ?_) fun _ => Yields.ok ⟨passes_refl ts, allWithin_nil⟩
  have hbranch := (ih.whenCondition i hs (infix_drop h 1)).bind (ih.whenRest i hs h hwhen)
  cases subject with
  | none => exact hbranch
  | some e => exact hbranch

theorem nested_succ (i : Nat) {ts : List Token} (h : ts <:+: T) :
    Yields (Draws src T (fun q => [q]) Takes ts) (Parser.nested ⟨src, i⟩ (n + 1) ts) := by
  cases ts with
  | nil =>
    rw [Parser.nested]
    exact unexpected_yields _ _ _
  | cons t r =>
    rw [Parser.nested]
    refine Yields.ite (fun ht => ?_) fun _ => unexpected_yields _ _ _
    split
    · rename_i inner rest hs
      have hinner := (splitClose_part hs).1.trans (infix_tail h)
      obtain ⟨u, hu, rfl, hpass⟩ := splitClose_passes hs
      have hclosed : Closed inner := fun k behind => by
        rw [← hpass, Nat.zero_add]
      refine (ih.statement i inner hinner).bind fun s hs => ?_
      exact Yields.ok ⟨takes_brackets ht ⟨inner, u, hclosed, hu, rfl⟩, allWithin_singleton.2 hs⟩
    · exact Yields.error _

theorem operations_succ (i : Nat) {os : List Operand} (h : ∀ o ∈ os, o.tokens <:+: T) :
    Yields (fun ops => ∀ o ∈ ops, o.statement.AllItems (Drawn src T)) (os.mapM fun o =>
      (Parser.single ⟨src, i⟩ n o.tokens).map fun t => SetOperation.mk (o.operator.getD .union) t) := by
  induction os with
  | nil => exact Yields.ok fun _ h => nomatch h
  | cons o os hos =>
    rw [List.mapM_cons]
    obtain ⟨ho, h⟩ := List.forall_mem_cons.1 h
    refine Yields.bind (P := fun op => op.statement.AllItems (Drawn src T))
      ((ih.single i _ ho).map fun s hs => hs) fun op hop => ?_
    exact (hos h).bind fun ops hops => Yields.ok (List.forall_mem_cons.2 ⟨hop, hops⟩)

theorem statement_succ (i : Nat) {ts : List Token} (h : ts <:+: T) :
    Yields (Statement.AllItems (Drawn src T)) (Parser.statement ⟨src, i⟩ (n + 1) ts) := by
  rw [Parser.statement]
  refine (operands_part ts).bind fun os hos => ?_
  split
  · exact Yields.error _
  · rename_i first others
    obtain ⟨hf, hos⟩ := List.forall_mem_cons.1 hos
    refine (ih.single i _ (hf.trans h)).bind fun s hs => ?_
    refine (ih.operations_succ i fun o ho => (hos o ho).trans h).bind fun ops hops => ?_
    exact Yields.ok (hs.operations hops)

theorem clauses_succ (i : Nat) {ss : List Segment} {d : Draft} (hd : AllInDraft (Drawn src T) d)
    (h : ∀ s ∈ ss, s.tokens <:+: T) :
    Yields (AllInDraft (Drawn src T)) (ss.foldlM (fun d s => Parser.clause ⟨src, i⟩ n d s) d) := by
  induction ss generalizing d with
  | nil => exact Yields.ok hd
  | cons s ss hss =>
    rw [List.foldlM_cons]
    obtain ⟨hs, h⟩ := List.forall_mem_cons.1 h
    exact (ih.clause i d s hd hs).bind fun d' hd' => hss hd' h

theorem single_succ (i : Nat) {ts : List Token} (h : ts <:+: T) :
    Yields (Statement.AllItems (Drawn src T)) (Parser.single ⟨src, i⟩ (n + 1) ts) := by
  rw [Parser.single]
  refine (clauses_part ts).bind fun ss hss => ?_
  refine (ih.clauses_succ i allInDraft_empty fun s hs => (hss s hs).trans (infix_drop h 1)).bind
    fun d hd => ?_
  exact hd.statement

theorem clause_succ (i : Nat) {d : Draft} {s : Segment} (hd : AllInDraft (Drawn src T) d)
    (h : s.tokens <:+: T) :
    Yields (AllInDraft (Drawn src T)) (Parser.clause ⟨src, i⟩ (n + 1) d s) := by
  have finish : ∀ {q : Place} {x : Except QueryError (Reading Draft)},
      Yields (fun r => AllInDraft (Drawn src T) r.1) x →
      Yields (AllInDraft (Drawn src T)) (x >>= fun r => do expectEnd q r.2; .ok r.1) := by
    intro q x hx
    refine hx.bind fun r hr => ?_
    exact Yields.bind (P := fun _ => True) (fun _ _ => trivial) fun _ _ => Yields.ok hr
  rw [Parser.clause]
  split
  · exact finish ((ih.selectItems _ _ ((distinctMark_passes _).part h)).map
      fun r hr => { hd with items := hr })
  · refine finish ((ih.source _ _ h).map fun r hr => { hd with source := ?_ })
    rintro _ ⟨⟩
    exact hr.2
  · refine finish ((ih.join _ _ _ h).map fun r hr => { hd with joins := ?_ })
    intro j hj
    rcases List.mem_append.1 hj with hj | hj
    · exact hd.joins j hj
    · rw [List.mem_singleton.1 hj]
      exact hr
  · refine finish ((ih.condition _ _ h).map fun r hr => { hd with filter := ?_ })
    rintro _ ⟨⟩
    exact hr.2
  · exact finish ((ih.exprs _ _ h).map fun r hr => { hd with groupBy := hr.2 })
  · refine finish ((ih.condition _ _ h).map fun r hr => { hd with having := ?_ })
    rintro _ ⟨⟩
    exact hr.2
  · exact finish ((ih.orderItems _ _ h).map fun r hr => { hd with orderBy := hr })
  · exact finish (Yields.map (P := fun _ => True) (fun _ _ => trivial) fun r _ => { hd with })
  · refine finish ((ih.expr _ _ _ h).map fun r hr => { hd with pivot := ?_ })
    rintro _ ⟨⟩
    exact hr.2

theorem selectItems_succ (i : Nat) {ts : List Token} (h : ts <:+: T) :
    Yields (fun r => ∀ i ∈ r.1, Drawn src T i ∧ AllWithin (Drawn src T) i.expr.statements)
      (Parser.selectItems ⟨src, i⟩ (n + 1) ts) := by
  rw [Parser.selectItems]
  refine Yields.bind (P := fun r => Draws src T Expr.statements Takes ts r ∧
    Parser.expr ⟨src, i⟩ n 0 ts = .ok r) (fun r hr => ⟨ih.expr i 0 ts h r hr, hr⟩) ?_
  rintro ⟨e, us⟩ ⟨⟨hus, he⟩, hread⟩
  refine (optionalAlias_suffix _ us).bind ?_
  rintro ⟨alias?, vs⟩ hvs
  have hvs : vs <:+: T := (List.IsSuffix.isInfix hvs).trans (hus.part h)
  have hitem : Drawn src T ⟨e, sourceText ⟨src, i⟩ ts us, alias?⟩ :=
    ⟨i, n, ts, us, h, hus, hread, rfl⟩
  refine Yields.ite (fun _ => ?_) fun _ => Yields.ok (List.forall_mem_singleton.2 ⟨hitem, he⟩)
  refine (ih.selectItems i _ (infix_drop hvs 1)).bind ?_
  rintro ⟨others, ws⟩ ho
  exact Yields.ok (List.forall_mem_cons.2 ⟨⟨hitem, he⟩, ho⟩)

theorem source_succ (i : Nat) {ts : List Token} (h : ts <:+: T) :
    Yields (Draws src T Source.statements (fun _ rest => rest <:+: T) ts)
      (Parser.source ⟨src, i⟩ (n + 1) ts) := by
  rw [Parser.source]
  refine Yields.ite (fun _ => ?_) fun _ => ?_
  · refine (ih.nested i ts h).bind ?_
    rintro ⟨q, us⟩ ⟨hus, hq⟩
    refine (optionalAlias_suffix _ us).bind ?_
    rintro ⟨alias?, vs⟩ hvs
    exact Yields.ok ⟨(List.IsSuffix.isInfix hvs).trans (hus.part h), hq⟩
  · refine (name_takes _ _ ts).bind ?_
    rintro ⟨table, us⟩ hus
    refine (optionalAlias_suffix _ us).bind ?_
    rintro ⟨alias?, vs⟩ hvs
    exact Yields.ok ⟨(List.IsSuffix.isInfix hvs).trans (Takes.part hus h), allWithin_nil⟩

theorem join_succ (i : Nat) (kind : JoinKind) {ts : List Token} (h : ts <:+: T) :
    Yields (fun r => AllWithin (Drawn src T) r.1.source.statements ∧
      AllWithin (Drawn src T) r.1.condition.statements) (Parser.join ⟨src, i⟩ (n + 1) kind ts) := by
  rw [Parser.join]
  refine (ih.source i ts h).bind ?_
  rintro ⟨s, us⟩ ⟨hus, hs⟩
  refine (expect_takes (by trivial) us).bind fun vs hvs => ?_
  refine (ih.condition i vs (hvs.part hus)).bind ?_
  rintro ⟨c, ws⟩ ⟨-, hc⟩
  exact Yields.ok ⟨hs, hc⟩

theorem orderItems_succ (i : Nat) {ts : List Token} (h : ts <:+: T) :
    Yields (fun r => ∀ o ∈ r.1, AllWithin (Drawn src T) o.expr.statements)
      (Parser.orderItems ⟨src, i⟩ (n + 1) ts) := by
  rw [Parser.orderItems]
  refine (ih.expr i 0 ts h).bind ?_
  rintro ⟨e, us⟩ ⟨hus, he⟩
  have hdirection := (direction_suffix us).isInfix.trans (hus.part h)
  refine Yields.ite (fun _ => ?_) fun _ => Yields.ok (List.forall_mem_singleton.2 he)
  refine (ih.orderItems i _ (infix_drop hdirection 1)).bind ?_
  rintro ⟨others, vs⟩ ho
  exact Yields.ok (List.forall_mem_cons.2 ⟨he, ho⟩)

end ReadersDraw

theorem readersDraw (src : List Char) (T : List Token) : ∀ n, ReadersDraw src T n
  | 0 => by
    constructor
    all_goals
      intros
      exact Yields.error _
  | n + 1 =>
    have ih := readersDraw src T n
    { condition := fun i _ h => ih.condition_succ i h
      conjunction := fun i _ h => ih.conjunction_succ i h
      moreTerms := fun i op _ _ hf h => ih.moreTerms_succ i op hf h
      negation := fun i _ h => ih.negation_succ i h
      predicate := fun i _ h => ih.predicate_succ i h
      comparisonFrom := fun i _ h => ih.comparisonFrom_succ i h
      members := fun i _ h => ih.members_succ i h
      exprs := fun i _ h => ih.exprs_succ i h
      expr := fun i power _ h => ih.expr_succ i power h
      moreOperands := fun i power _ _ hf h => ih.moreOperands_succ i power hf h
      operand := fun i _ h => ih.operand_succ i h
      call := fun i function _ h => ih.call_succ i function h
      caseExpr := fun i _ h => ih.caseExpr_succ i h
      whenBranches := fun i _ _ hs h => ih.whenBranches_succ i hs h
      nested := fun i _ h => ih.nested_succ i h
      statement := fun i _ h => ih.statement_succ i h
      single := fun i _ h => ih.single_succ i h
      clause := fun i _ _ hd h => ih.clause_succ i hd h
      selectItems := fun i _ h => ih.selectItems_succ i h
      source := fun i _ h => ih.source_succ i h
      join := fun i kind _ h => ih.join_succ i kind h
      orderItems := fun i _ h => ih.orderItems_succ i h }

end Parser

end GridQuery
