import GridQuery.Proofs.Rectangular
import GridQuery.Proofs.Replay

/-!
Faults of references. Many things can fail in a run, but only expressions refer to placeholders and columns.
Whatever fault of these is looked at, reading an expression, working out its values, selecting rows and joining
tables bring none of it, where the columns, the placeholders and the nested statements do not.
-/

namespace GridQuery
set_option autoImplicit false

/-- A kind of error that only a reference can bring, to a placeholder or a column. -/
def OfReferences (fault : QueryError → Prop) : Prop :=
  ∀ e, fault e → e.kind = .bind ∨ ∃ text, e = .unknownColumn text

theorem OfReferences.other {fault : QueryError → Prop} (h : OfReferences fault) {e : QueryError}
    (hkind : e.kind ≠ .bind) (hname : ∀ text, e ≠ .unknownColumn text) : ¬ fault e := fun he =>
  (h e he).elim hkind fun ⟨text, ht⟩ => hname text ht

/-! ### Steps and runs -/

section Steps

variable {α β : Type} {fault : QueryError → Prop} {P : α → Prop} {Q : β → Prop}

/-- A step that does not fail by a fault, and whose value has a property. -/
def FreeOf (fault : QueryError → Prop) (P : α → Prop) : Except QueryError α → Prop
  | .ok a => P a
  | .error e => ¬ fault e

namespace FreeOf

theorem bind {x : Except QueryError α} {f : α → Except QueryError β} (hx : FreeOf fault P x)
    (hf : ∀ a, P a → FreeOf fault Q (f a)) : FreeOf fault Q (x >>= f) := by
  cases x with
  | ok a => exact hf a hx
  | error e => exact hx

theorem map {x : Except QueryError α} {f : α → β} (hx : FreeOf fault P x) (hf : ∀ a, P a → Q (f a)) :
    FreeOf fault Q (x.map f) := by
  cases x with
  | ok a => exact hf a hx
  | error e => exact hx

theorem not_error {x : Except QueryError α} (h : FreeOf fault P x) {e : QueryError} (he : x = .error e) :
    ¬ fault e := by
  subst he
  exact h

end FreeOf

variable {σ : Type}

/-- A run that does not fail by a fault, whatever the query keeps before it. -/
def Run.FreeOf (fault : QueryError → Prop) (m : Run σ α) : Prop :=
  ∀ st, GridQuery.FreeOf fault (fun _ => True) (m.run st).1

/-- A run can come to a value, whatever the query keeps. -/
def Run.MayGive (m : Run σ α) (a : α) : Prop :=
  ∃ st st', m.Gives st a st'

namespace Run.FreeOf

theorem pure (a : α) : Run.FreeOf fault (Pure.pure a : Run σ α) :=
  fun _ => trivial

theorem throw {e : QueryError} (h : ¬ fault e) : Run.FreeOf fault (throw e : Run σ α) :=
  fun _ => h

theorem bind {m : Run σ α} {f : α → Run σ β} (hm : m.FreeOf fault)
    (hf : ∀ a, m.MayGive a → (f a).FreeOf fault) : (m >>= f).FreeOf fault := by
  intro st
  have hfree := hm st
  rw [run_bind]
  rcases hrun : m.run st with ⟨e | a, st'⟩
  · rw [hrun] at hfree
    exact hfree
  · exact hf a ⟨st, st', hrun⟩ st'

theorem bind_of {x : Except QueryError α} {f : α → Run σ β} (hx : GridQuery.FreeOf fault P x)
    (hf : ∀ a, P a → x = .ok a → (f a).FreeOf fault) : (Run.of x >>= f).FreeOf fault := by
  cases x with
  | ok a =>
    change (Pure.pure a >>= f).FreeOf fault
    rw [pure_bind]
    exact hf a hx rfl
  | error e => exact throw hx

theorem of {x : Except QueryError α} (h : GridQuery.FreeOf fault P x) : (Run.of x : Run σ α).FreeOf fault := by
  cases x with
  | ok a => exact pure a
  | error e => exact throw h

end Run.FreeOf

end Steps

/-! ### Statements that a formula runs -/

section Runs

variable (P : Statement → Bool → Prop)

mutual

/-- Each statement in a formula has a property, with what the formula says of its depending on the row. -/
def Formula.Runs : Formula → Prop
  | .const _ => True
  | .slot _ => True
  | .binary _ a b => a.Runs ∧ b.Runs
  | .negate a => a.Runs
  | .call _ args => formulasRun args
  | .case branches otherwise => choicesRun branches ∧ otherwiseRuns otherwise
  | .subquery q correlated => P q correlated
  | .list items => formulasRun items

def formulasRun : List Formula → Prop
  | [] => True
  | f :: fs => f.Runs ∧ formulasRun fs

def choicesRun : List (Test × Formula) → Prop
  | [] => True
  | (t, f) :: bs => t.Runs ∧ f.Runs ∧ choicesRun bs

def otherwiseRuns : Option Formula → Prop
  | none => True
  | some f => f.Runs

def Test.Runs : Test → Prop
  | .compare _ a b _ => a.Runs ∧ b.Runs
  | .logic _ terms => testsRun terms
  | .not t => t.Runs
  | .exists _ q correlated => P q correlated

def testsRun : List Test → Prop
  | [] => True
  | t :: ts => t.Runs ∧ testsRun ts

end

end Runs

/-! ### Reading expressions -/

namespace Scope

section Reading

variable {s : Scope} {fault : QueryError → Prop} {P : Statement → Bool → Prop}

/-- The columns and placeholders among some expressions bring no fault, and the statements in them have a
property. -/
structure Reads (s : Scope) (fault : QueryError → Prop) (P : Statement → Bool → Prop) (parts : List Expr)
    (statements : List Statement) : Prop where
  kind : OfReferences fault
  columns : ∀ table name, .column table name ∈ parts → FreeOf fault (Formula.Runs P) (s.column table name)
  binds : ∀ n, .bind n ∈ parts → FreeOf fault (fun _ => True) (s.binds.get n)
  runs : ∀ q ∈ statements, P q (q.isCorrelated s.tables s.table)

theorem Reads.nil (hkind : OfReferences fault) : s.Reads fault P [] [] where
  kind := hkind
  columns _ _ hmem := by cases hmem
  binds _ hmem := by cases hmem
  runs _ hq := by cases hq

theorem Reads.mono {parts parts' : List Expr} {statements statements' : List Statement}
    (h : s.Reads fault P parts statements) (hparts : parts' ⊆ parts) (hstatements : statements' ⊆ statements) :
    s.Reads fault P parts' statements' where
  kind := h.kind
  columns table name hmem := h.columns table name (hparts hmem)
  binds n hmem := h.binds n (hparts hmem)
  runs q hq := h.runs q (hstatements hq)

theorem Reads.split {parts parts' : List Expr} {statements statements' : List Statement}
    (h : s.Reads fault P (parts ++ parts') (statements ++ statements')) :
    s.Reads fault P parts statements ∧ s.Reads fault P parts' statements' :=
  ⟨h.mono (List.subset_append_left _ _) (List.subset_append_left _ _),
    h.mono (List.subset_append_right _ _) (List.subset_append_right _ _)⟩

theorem Reads.tail {e : Expr} {parts : List Expr} {statements : List Statement}
    (h : s.Reads fault P (e :: parts) statements) : s.Reads fault P parts statements :=
  h.mono (List.subset_cons_self _ _) (List.Subset.refl _)

theorem function_freeOf (hfault : OfReferences fault) (name text : String) (count : Nat) :
    FreeOf fault (fun _ => True) (function name text count) := by
  have hother {e : QueryError} (hkind : e.kind ≠ .bind) (hname : ∀ text, e ≠ .unknownColumn text) :
      FreeOf fault (fun _ => True) (.error e : Except QueryError ScalarFunction) := hfault.other hkind hname
  unfold function
  split
  · exact hother (by simp [QueryError.kind]) (fun _ h => by cases h)
  · split
    · exact hother (by simp [QueryError.kind]) (fun _ h => by cases h)
    · unfold ScalarFunction.checkArity
      split
      · trivial
      · exact hother (by simp [QueryError.kind]) (fun _ h => by cases h)

mutual

/-- An expression is read without a fault where its references are, and its formula runs its statements. -/
theorem formula_freeOf : ∀ {e : Expr}, s.Reads fault P e.parts e.statements →
    FreeOf fault (Formula.Runs P) (s.formula e)
  | .literal c, _ => by
    simp only [formula]
    trivial
  | .column table name, h => by
    simp only [formula]
    exact h.columns table name (List.mem_singleton_self _)
  | .bind n, h => by
    simp only [formula]
    exact (h.binds n (List.mem_singleton_self _)).map fun _ _ => trivial
  | .binary op a b, h => by
    simp only [formula]
    split
    · trivial
    · obtain ⟨ha, hb⟩ := h.tail.split
      exact (formula_freeOf ha).bind fun _ hx => (formula_freeOf hb).bind fun _ hy => ⟨hx, hy⟩
  | .unary sign a, h => by
    simp only [formula]
    split
    · trivial
    · refine (formula_freeOf h.tail).bind fun x hx => ?_
      cases sign <;> exact hx
  | .call name distinct args, h => by
    simp only [formula]
    split
    · trivial
    · exact (function_freeOf h.kind _ _ _).bind fun f _ =>
        (arguments_freeOf h.tail).bind fun _ hxs => hxs
  | .case branches otherwise, h => by
    simp only [formula]
    split
    · trivial
    · obtain ⟨hbranches, hotherwise⟩ := h.tail.split
      exact (branches_freeOf hbranches).bind fun _ hbs =>
        (optional_freeOf hotherwise).bind fun _ ho => ⟨hbs, ho⟩
  | .ite c a b, h => by
    simp only [Expr.parts, Expr.statements, List.append_assoc] at h
    obtain ⟨hc, h⟩ := h.tail.split
    obtain ⟨ha, hb⟩ := h.split
    simp only [formula]
    split
    · trivial
    · exact (test_freeOf hc).bind fun _ ht => (formula_freeOf ha).bind fun _ hx =>
        (formula_freeOf hb).bind fun _ hy => ⟨⟨ht, hx, trivial⟩, hy⟩
  | .subquery q, h => by
    simp only [formula]
    split
    · trivial
    · exact h.runs q (List.mem_singleton_self _)
  | .list items, h => by
    simp only [formula]
    split
    · trivial
    · exact (formulas_freeOf h.tail).bind fun _ hxs => hxs
  | .star table, _ => by
    simp only [formula]
    split <;> trivial
  | .paren a, h => by
    simp only [formula]
    split
    · trivial
    · exact formula_freeOf h.tail

theorem formulas_freeOf : ∀ {es : List Expr}, s.Reads fault P (exprsParts es) (exprsStatements es) →
    FreeOf fault (formulasRun P) (s.formulas es)
  | [], _ => trivial
  | e :: es, h => by
    obtain ⟨he, hes⟩ := h.split
    exact (formula_freeOf he).bind fun _ hx => (formulas_freeOf hes).bind fun _ hxs => ⟨hx, hxs⟩

theorem arguments_freeOf {f : ScalarFunction} {i : Nat} : ∀ {es : List Expr},
    s.Reads fault P (exprsParts es) (exprsStatements es) → FreeOf fault (formulasRun P) (s.arguments f i es)
  | [], _ => trivial
  | e :: es, h => by
    obtain ⟨he, hes⟩ := h.split
    have hrest : FreeOf fault (formulasRun P) (s.arguments f (i + 1) es) := arguments_freeOf hes
    simp only [arguments]
    split
    · exact hrest.bind fun _ hxs => ⟨trivial, hxs⟩
    · exact (formula_freeOf he).bind fun _ hx => hrest.bind fun _ hxs => ⟨hx, hxs⟩

theorem branches_freeOf : ∀ {bs : List (Condition × Expr)},
    s.Reads fault P (branchesParts bs) (branchesStatements bs) → FreeOf fault (choicesRun P) (s.branches bs)
  | [], _ => trivial
  | (c, e) :: bs, h => by
    simp only [branchesParts, branchesStatements, List.append_assoc] at h
    obtain ⟨hc, h⟩ := h.split
    obtain ⟨he, hbs⟩ := h.split
    exact (test_freeOf hc).bind fun _ ht => (formula_freeOf he).bind fun _ hx =>
      (branches_freeOf hbs).bind fun _ hys => ⟨ht, hx, hys⟩

theorem optional_freeOf : ∀ {o : Option Expr}, s.Reads fault P (elseParts o) (elseStatements o) →
    FreeOf fault (otherwiseRuns P) (s.optional o)
  | none, _ => trivial
  | some _, h => (formula_freeOf h).bind fun _ hx => hx

theorem test_freeOf : ∀ {c : Condition}, s.Reads fault P c.parts c.statements →
    FreeOf fault (Test.Runs P) (s.test c)
  | .compare .., h => by
    obtain ⟨ha, hb⟩ := h.split
    exact (formula_freeOf ha).bind fun _ hx => (formula_freeOf hb).bind fun _ hy => ⟨hx, hy⟩
  | .logic .., h => (tests_freeOf h).bind fun _ hts => hts
  | .not c, h => by
    have hc : s.Reads fault P c.parts c.statements := h
    exact (test_freeOf hc).bind fun _ ht => ht
  | .exists _ q, h => h.runs q (List.mem_singleton_self _)

theorem tests_freeOf : ∀ {cs : List Condition}, s.Reads fault P (termsParts cs) (termsStatements cs) →
    FreeOf fault (testsRun P) (s.tests cs)
  | [], _ => trivial
  | c :: cs, h => by
    obtain ⟨hc, hcs⟩ := h.split
    exact (test_freeOf hc).bind fun _ ht => (tests_freeOf hcs).bind fun _ hts => ⟨ht, hts⟩

end

/-- The expressions in the kind of a field, without those within statements. -/
def fieldParts (f : Field) : List Expr :=
  match f.kind with
  | .calculated e => e.parts
  | _ => []

theorem fieldFormula_freeOf {memo : FormulaMemo} (hmemo : ∀ m ∈ memo, m.2.Runs P) {f : Field}
    (h : s.Reads fault P (fieldParts f) f.statements) :
    FreeOf fault (fun r => r.1.Runs P ∧ ∀ m ∈ r.2, m.2.Runs P) (s.fieldFormula memo f) := by
  unfold fieldFormula
  unfold fieldParts Field.statements at h
  cases hkind : f.kind with
  | column source column =>
    simp only
    split
    · exact ⟨trivial, hmemo⟩
    · exact h.kind.other (by simp [QueryError.kind]) fun _ he => by cases he
  | calculated e =>
    simp only [hkind] at h
    simp only [Scope.recall]
    split
    · rename_i x hx
      exact ⟨hmemo _ (mem_of_lookup hx), hmemo⟩
    · refine (formula_freeOf h).bind fun x hx => ⟨hx, ?_⟩
      exact List.forall_mem_cons.mpr ⟨hx, hmemo⟩
  | subquery q =>
    simp only [hkind] at h
    exact ⟨h.runs q (List.mem_singleton_self _), hmemo⟩
  | star => exact ⟨trivial, hmemo⟩

theorem fieldFormulas_freeOf {memo : FormulaMemo} (hmemo : ∀ m ∈ memo, m.2.Runs P) {fields : Fields}
    (h : ∀ f ∈ fields, s.Reads fault P (fieldParts f) f.statements) :
    FreeOf fault (formulasRun P) (s.fieldFormulas memo fields) := by
  induction fields generalizing memo with
  | nil => trivial
  | cons f fields ih =>
    obtain ⟨hf, hfields⟩ := List.forall_mem_cons.mp h
    refine (fieldFormula_freeOf hmemo hf).bind fun r hr => ?_
    exact (ih hr.2 hfields).bind fun _ hxs => ⟨hr.1, hxs⟩

end Reading

end Scope

/-! ### Values -/

namespace Rows

variable {σ : Type} {fault : QueryError → Prop}

/-- A statement runs without a fault for each row. -/
def RunsFree (fault : QueryError → Prop) (r : Rows σ) (q : Statement) (correlated : Bool) : Prop :=
  ∀ row, (r.nested row q correlated).FreeOf fault

variable {r : Rows σ} {row : Nat}

theorem members_freeOf {f : Formula} {listed : Run σ (List Cell)} {single : Run σ Cell}
    (h : f.Runs (r.RunsFree fault)) (hlisted : listed.FreeOf fault) (hsingle : single.FreeOf fault) :
    (r.members row f listed single).FreeOf fault := by
  have hone : (single >>= fun x => Pure.pure [x]).FreeOf fault := hsingle.bind fun _ _ => .pure _
  cases f with
  | list items => exact hlisted
  | subquery q correlated =>
    simp only [Formula.Runs] at h
    exact (h row).bind fun _ _ => .pure _
  | const | slot | binary | negate | call | case => exact hone

mutual

/-- A formula has a value without a fault, where its statements run without one. -/
theorem value_freeOf (hfault : OfReferences fault) : ∀ {f : Formula}, f.Runs (r.RunsFree fault) →
    (r.value row f).FreeOf fault
  | .const c, _ => by simpa only [value] using .pure c
  | .slot c, _ => by simpa only [value] using .pure (r.table.cell row c)
  | .binary op a b, h => by
    simp only [Formula.Runs] at h
    simp only [value]
    exact (value_freeOf hfault h.1).bind fun _ _ => (value_freeOf hfault h.2).bind fun _ _ => .pure _
  | .negate a, h => by
    simp only [Formula.Runs] at h
    simp only [value]
    exact (value_freeOf hfault h).bind fun _ _ => .pure _
  | .call f args, h => by
    simp only [Formula.Runs] at h
    simp only [value]
    exact (values_freeOf hfault h).bind fun _ _ => .pure _
  | .case branches otherwise, h => by
    simp only [Formula.Runs] at h
    simp only [value]
    refine (choice_freeOf hfault h.1).bind fun o _ => ?_
    cases o with
    | some x => exact .pure x
    | none => exact optional_freeOf hfault h.2
  | .subquery q correlated, h => by
    simp only [Formula.Runs] at h
    simp only [value]
    exact (h row).bind fun _ _ => .pure _
  | .list _, _ => by
    simp only [value]
    exact .throw (hfault.other (by simp [QueryError.kind]) fun _ he => by cases he)

theorem values_freeOf (hfault : OfReferences fault) : ∀ {fs : List Formula}, formulasRun (r.RunsFree fault) fs →
    (r.values row fs).FreeOf fault
  | [], _ => by simpa only [values] using .pure []
  | f :: fs, h => by
    simp only [formulasRun] at h
    simp only [values]
    exact (value_freeOf hfault h.1).bind fun _ _ => (values_freeOf hfault h.2).bind fun _ _ => .pure _

theorem choice_freeOf (hfault : OfReferences fault) : ∀ {bs : List (Test × Formula)}, choicesRun (r.RunsFree fault) bs →
    (r.choice row bs).FreeOf fault
  | [], _ => by simpa only [choice] using .pure none
  | (t, f) :: bs, h => by
    simp only [choicesRun] at h
    simp only [choice]
    refine (holds_freeOf hfault h.1).bind fun b _ => ?_
    cases b with
    | true => exact (value_freeOf hfault h.2.1).bind fun _ _ => .pure _
    | false => exact choice_freeOf hfault h.2.2

theorem optional_freeOf (hfault : OfReferences fault) : ∀ {o : Option Formula}, otherwiseRuns (r.RunsFree fault) o →
    (r.optional row o).FreeOf fault
  | none, _ => by simpa only [optional] using .pure Cell.null
  | some f, h => by
    simp only [otherwiseRuns] at h
    simpa only [optional] using value_freeOf hfault h

theorem listed_freeOf (hfault : OfReferences fault) : ∀ {f : Formula}, f.Runs (r.RunsFree fault) →
    (r.listed row f).FreeOf fault
  | .list items, h => by
    simp only [Formula.Runs] at h
    simpa only [listed] using values_freeOf hfault h
  | .const _, _ | .slot _, _ | .binary .., _ | .negate _, _ | .call .., _ | .case .., _
  | .subquery .., _ => by simpa only [listed] using .pure []

theorem holds_freeOf (hfault : OfReferences fault) : ∀ {t : Test}, t.Runs (r.RunsFree fault) →
    (r.holds row t).FreeOf fault
  | .compare op a b pattern, h => by
    simp only [Test.Runs] at h
    simp only [holds]
    refine (value_freeOf hfault h.1).bind fun x _ => ?_
    split
    · exact (members_freeOf h.2 (listed_freeOf hfault h.2) (value_freeOf hfault h.2)).bind fun _ _ => .pure _
    · split
      · exact .pure _
      · exact .pure _
      · exact (value_freeOf hfault h.2).bind fun _ _ => .pure _
  | .logic .and terms, h => by
    simp only [Test.Runs] at h
    simpa only [holds] using allHold_freeOf hfault h
  | .logic .or terms, h => by
    simp only [Test.Runs] at h
    simpa only [holds] using anyHolds_freeOf hfault h
  | .not t, h => by
    simp only [Test.Runs] at h
    simp only [holds]
    exact (holds_freeOf hfault h).bind fun _ _ => .pure _
  | .exists negated q correlated, h => by
    simp only [Test.Runs] at h
    simp only [holds]
    exact (h row).bind fun _ _ => .pure _

theorem allHold_freeOf (hfault : OfReferences fault) : ∀ {ts : List Test}, testsRun (r.RunsFree fault) ts →
    (r.allHold row ts).FreeOf fault
  | [], _ => by simpa only [allHold] using .pure true
  | t :: ts, h => by
    simp only [testsRun] at h
    simp only [allHold]
    refine (holds_freeOf hfault h.1).bind fun b _ => ?_
    cases b with
    | true => exact allHold_freeOf hfault h.2
    | false => exact .pure false

theorem anyHolds_freeOf (hfault : OfReferences fault) : ∀ {ts : List Test}, testsRun (r.RunsFree fault) ts →
    (r.anyHolds row ts).FreeOf fault
  | [], _ => by simpa only [anyHolds] using .pure false
  | t :: ts, h => by
    simp only [testsRun] at h
    simp only [anyHolds]
    refine (holds_freeOf hfault h.1).bind fun b _ => ?_
    cases b with
    | true => exact .pure true
    | false => exact anyHolds_freeOf hfault h.2

end

/-! ### Selected rows -/

/-- Expressions and the statements in them are read and run without a fault on the rows of a table. -/
abbrev ReadsFree (fault : QueryError → Prop) (r : Rows σ) (parts : List Expr) (statements : List Statement) : Prop :=
  r.scope.Reads fault (r.RunsFree fault) parts statements

theorem keep_freeOf (hfault : OfReferences fault) {t : Test} (h : t.Runs (r.RunsFree fault)) (rows : List Nat) :
    (r.keep t rows).FreeOf fault := by
  induction rows with
  | nil => exact .pure []
  | cons row rows ih => exact (holds_freeOf hfault h).bind fun _ _ => ih.bind fun _ _ => .pure _

theorem leaf_freeOf {c : Condition} (h : r.ReadsFree fault c.parts c.statements) (rows : List Nat) :
    (r.leaf c rows).FreeOf fault :=
  .bind_of (Scope.test_freeOf h) fun _ ht _ => keep_freeOf h.kind ht rows

mutual

theorem select_freeOf : ∀ {c : Condition}, r.ReadsFree fault c.parts c.statements →
    ∀ rows, (r.select rows c).FreeOf fault
  | .logic .and terms, h, rows => by
    have hterms : r.ReadsFree fault (termsParts terms) (termsStatements terms) := h
    simpa only [select] using narrow_freeOf hterms rows
  | .logic .or terms, h, rows => by
    have hterms : r.ReadsFree fault (termsParts terms) (termsStatements terms) := h
    simp only [select]
    exact (gather_freeOf hterms rows).bind fun _ _ => .pure _
  | .not c, h, rows => by
    have hc : r.ReadsFree fault c.parts c.statements := h
    simp only [select]
    exact (select_freeOf hc rows).bind fun _ _ => .pure _
  | .compare op a b, h, rows => by simpa only [select] using leaf_freeOf h rows
  | .exists negated q, h, rows => by simpa only [select] using leaf_freeOf h rows

theorem narrow_freeOf : ∀ {cs : List Condition}, r.ReadsFree fault (termsParts cs) (termsStatements cs) →
    ∀ rows, (r.narrow rows cs).FreeOf fault
  | [], _, rows => by simpa only [narrow] using .pure rows
  | c :: cs, h, rows => by
    obtain ⟨hc, hcs⟩ := h.split
    simp only [narrow]
    split
    · exact .pure []
    · exact (select_freeOf hc rows).bind fun rows' _ => narrow_freeOf hcs rows'

theorem gather_freeOf : ∀ {cs : List Condition}, r.ReadsFree fault (termsParts cs) (termsStatements cs) →
    ∀ rows, (r.gather rows cs).FreeOf fault
  | [], _, rows => by simpa only [gather] using .pure []
  | c :: cs, h, rows => by
    obtain ⟨hc, hcs⟩ := h.split
    simp only [gather]
    exact (select_freeOf hc rows).bind fun _ _ => (gather_freeOf hcs rows).bind fun _ _ => .pure _

end

theorem matching_freeOf {filter : Option Condition}
    (h : ∀ c, filter = some c → r.ReadsFree fault c.parts c.statements) : (r.matching filter).FreeOf fault := by
  cases filter with
  | none => exact .pure _
  | some c => exact select_freeOf (h c rfl) _

theorem cells_freeOf (hfault : OfReferences fault) {formulas : List Formula}
    (h : formulasRun (r.RunsFree fault) formulas) (rows : List Nat) : (r.cells formulas rows).FreeOf fault := by
  induction rows with
  | nil => exact .pure []
  | cons row rows ih => exact (values_freeOf hfault h).bind fun _ _ => ih.bind fun _ _ => .pure _

theorem column_freeOf {e : Expr} (h : r.ReadsFree fault e.parts e.statements) : (r.column e).FreeOf fault := by
  have hvalues {f : Formula} (hf : f.Runs (r.RunsFree fault)) (row count : Nat) :
      (r.columnValues f row count).FreeOf fault := by
    induction count generalizing row with
    | zero => exact .pure []
    | succ count ih => exact (value_freeOf h.kind hf).bind fun _ _ => (ih (row + 1)).bind fun _ _ => .pure _
  exact .bind_of (Scope.formula_freeOf h) fun _ hf _ => hvalues hf _ _

end Rows

/-! ### Joins -/

section Joins

variable {σ : Type} {fault : QueryError → Prop} {world : World} {runner : Runner σ} {left right : Table}

/-- What a condition between tables takes to be free of a fault: its columns are looked at only where they are
known. -/
structure JoinsFree (fault : QueryError → Prop) (world : World) (runner : Runner σ) (parts : List Expr)
    (statements : List Statement) : Prop where
  kind : OfReferences fault
  binds : ∀ n, .bind n ∈ parts → FreeOf fault (fun _ => True) (world.binds.get n)
  runs : ∀ q ∈ statements, ∀ table correlated, Rows.RunsFree fault ⟨world, table, runner⟩ q correlated

theorem JoinsFree.split {parts parts' : List Expr} {statements statements' : List Statement}
    (h : JoinsFree fault world runner (parts ++ parts') (statements ++ statements')) :
    JoinsFree fault world runner parts statements ∧ JoinsFree fault world runner parts' statements' :=
  ⟨⟨h.kind, fun n hn => h.binds n (List.mem_append_left _ hn), fun q hq => h.runs q (List.mem_append_left _ hq)⟩,
    ⟨h.kind, fun n hn => h.binds n (List.mem_append_right _ hn),
      fun q hq => h.runs q (List.mem_append_right _ hq)⟩⟩

theorem JoinsFree.reads {e : Expr} (h : JoinsFree fault world runner e.parts e.statements) {table : Table}
    (hknows : table.knows e = true) : Rows.ReadsFree fault ⟨world, table, runner⟩ e.parts e.statements where
  kind := h.kind
  columns t name hmem := by
    obtain ⟨slot, hslot⟩ := Option.isSome_iff_exists.mp (List.all_eq_true.mp hknows _ hmem)
    unfold Scope.column
    rw [show (Rows.scope ⟨world, table, runner⟩).table.column? (columnSpelling t name) = some slot from hslot,
      Option.some_or]
    trivial
  binds := h.binds
  runs q hq := h.runs q hq table _

theorem sides_freeOf (hfault : OfReferences fault) (left right : Table) (a b : Expr) :
    FreeOf fault (fun p => left.knows p.1 = true ∧ right.knows p.2 = true ∧ (p = (a, b) ∨ p = (b, a)))
      (sides left right a b) := by
  unfold sides
  split
  · rename_i hknow
    exact ⟨(Bool.and_eq_true_iff.mp hknow).1, (Bool.and_eq_true_iff.mp hknow).2, .inl rfl⟩
  · split
    · rename_i hknow
      exact ⟨(Bool.and_eq_true_iff.mp hknow).1, (Bool.and_eq_true_iff.mp hknow).2, .inr rfl⟩
    · exact hfault.other (by simp [QueryError.kind]) fun _ he => by cases he

theorem equalityMatches_freeOf {a b : Expr}
    (h : JoinsFree fault world runner (a.parts ++ b.parts) (a.statements ++ b.statements)) :
    (equalityMatches world runner left right a b).FreeOf fault := by
  obtain ⟨ha, hb⟩ := h.split
  refine .bind_of (sides_freeOf h.kind left right a b) fun p ⟨hleft, hright, hp⟩ _ => ?_
  obtain ⟨outer, inner⟩ := p
  have houter : (Rows.column ⟨world, left, runner⟩ outer).FreeOf fault := by
    rcases hp with hp | hp <;> obtain ⟨rfl, rfl⟩ := Prod.mk.inj hp
    · exact Rows.column_freeOf (ha.reads hleft)
    · exact Rows.column_freeOf (hb.reads hleft)
  have hinner : (Rows.column ⟨world, right, runner⟩ inner).FreeOf fault := by
    rcases hp with hp | hp <;> obtain ⟨rfl, rfl⟩ := Prod.mk.inj hp
    · exact Rows.column_freeOf (hb.reads hright)
    · exact Rows.column_freeOf (ha.reads hright)
  refine houter.bind fun keys _ => ?_
  unfold keyMatches
  split
  · exact .pure _
  · exact hinner.bind fun _ _ => .pure _

mutual

theorem conditionMatches_freeOf : ∀ {c : Condition}, JoinsFree fault world runner c.parts c.statements →
    (conditionMatches world runner left right c).FreeOf fault
  | .compare op a b, h => by
    have hthrow : ¬ fault (.unsupportedJoin (Condition.text (.compare op a b))) :=
      h.kind.other (by simp [QueryError.kind]) fun _ he => by cases he
    cases op with
    | eq => simpa only [conditionMatches] using equalityMatches_freeOf h
    | notEq | lt | ltEq | gt | gtEq | like | notLike | isIn | notIn | is | isNot =>
      simp only [conditionMatches]
      exact .throw hthrow
  | .logic op terms, h => by
    have hterms : JoinsFree fault world runner (termsParts terms) (termsStatements terms) := h
    simp only [conditionMatches]
    refine (termMatches_freeOf hterms).bind fun o _ => ?_
    cases o with
    | some ms => exact .pure ms
    | none => exact .pure _
  | .not c, h => by
    simp only [conditionMatches]
    exact .throw (h.kind.other (by simp [QueryError.kind]) fun _ he => by cases he)
  | .exists negated q, h => by
    simp only [conditionMatches]
    exact .throw (h.kind.other (by simp [QueryError.kind]) fun _ he => by cases he)

theorem termMatches_freeOf {op : Connective} : ∀ {cs : List Condition},
    JoinsFree fault world runner (termsParts cs) (termsStatements cs) →
    (termMatches world runner left right op cs).FreeOf fault
  | [], _ => by simpa only [termMatches] using .pure none
  | c :: cs, h => by
    obtain ⟨hc, hcs⟩ := h.split
    simp only [termMatches]
    refine (conditionMatches_freeOf hc).bind fun ms _ => (termMatches_freeOf hcs).bind fun o _ => ?_
    cases o with
    | some others => exact .pure _
    | none => exact .pure _

end

theorem columnsFor_freeOf (hfault : OfReferences fault) (other : String) (left : List (String × Nat))
    (titles : List String) : FreeOf fault (fun _ => True) (Table.columnsFor other left titles) := by
  induction titles generalizing left with
  | nil => trivial
  | cons title titles ih =>
    unfold Table.columnsFor
    split
    · exact (ih _).map fun _ _ => trivial
    · exact hfault.other (by simp [QueryError.kind]) fun _ he => by cases he

theorem joinTables_freeOf {kind : JoinKind} {c : Condition}
    (h : JoinsFree fault world runner c.parts c.statements) :
    (joinTables world runner left right kind c).FreeOf fault := by
  refine (conditionMatches_freeOf h).bind fun ms _ => .of (P := fun _ => True) ?_
  unfold joined
  cases kind with
  | inner | left | right => trivial
  | full =>
    dsimp only
    split
    · trivial
    · exact (columnsFor_freeOf h.kind _ _ _).map fun _ _ => trivial

theorem joinFrom_freeOf (hfault : OfReferences fault) {joins : List JoinClause}
    (h : ∀ j ∈ joins, JoinsFree fault world runner j.condition.parts j.condition.statements)
    (position : Nat) (working : Table) (fields : Fields) (sources : List Table) :
    (joinFrom world runner position working fields joins sources).FreeOf fault := by
  induction joins generalizing position working fields sources with
  | nil => exact .pure _
  | cons j js ih =>
    cases sources with
    | nil => exact .throw (hfault.other (by simp [QueryError.kind]) fun _ he => by cases he)
    | cons right sources =>
      obtain ⟨hj, hjs⟩ := List.forall_mem_cons.mp h
      exact (joinTables_freeOf hj).bind fun _ _ => ih hjs _ _ _ _

end Joins

/-! ### Planning -/

/-- The arguments of an aggregate are parts of it, also behind brackets. -/
theorem aggregate_parts : ∀ {e : Expr} {call : AggregateCall}, e.aggregate? = some call →
    exprsParts call.args ⊆ e.parts
  | .call name distinct args, call, h => by
    simp only [Expr.aggregate?, Option.map_eq_some_iff] at h
    obtain ⟨a, _, rfl⟩ := h
    exact List.subset_cons_self _ _
  | .paren e, call, h => by
    simp only [Expr.aggregate?] at h
    exact List.subset_cons_of_subset _ (aggregate_parts h)
  | .literal _, _, h | .column .., _, h | .bind _, _, h | .binary .., _, h | .unary .., _, h
  | .case .., _, h | .ite .., _, h | .subquery _, _, h | .list _, _, h | .star _, _, h => by
    simp [Expr.aggregate?] at h

section Planning

variable {fault : QueryError → Prop} {sources : List Table}

/-- Each column among some expressions is one of the sources, unless a fault does not lie in missing it. -/
def Resolves (fault : QueryError → Prop) (sources : List Table) (parts : List Expr) : Prop :=
  ∀ table name, .column table name ∈ parts →
    fault (.unknownColumn (columnText table name)) → (resolveColumn sources table name).isSome = true

theorem Field.ofValue_freeOf (hfault : OfReferences fault) {title : String} {e : Expr}
    (h : Resolves fault sources e.parts) : FreeOf fault (fun _ => True) (ofValue sources title e) := by
  unfold ofValue
  split
  · trivial
  · exact hfault.other (by simp [QueryError.kind]) fun _ he => by cases he
  · rename_i table name
    split
    · trivial
    · rename_i hnone
      intro hmissing
      have hsome := h table name (List.mem_singleton_self _) hmissing
      rw [hnone] at hsome
      cases hsome
  · trivial
  · split
    · exact hfault.other (by simp [QueryError.kind]) fun _ he => by cases he
    · trivial

theorem Field.ofExpr_freeOf (hfault : OfReferences fault) {title : String} {e : Expr}
    (h : Resolves fault sources e.parts) : FreeOf fault (fun _ => True) (ofExpr sources title e) := by
  unfold ofExpr
  split
  · exact ofValue_freeOf hfault h
  · rename_i call hcall
    split
    · rename_i argument hargument
      have hparts : argument.parts ⊆ e.parts := by
        have hall := aggregate_parts hcall
        rwa [hargument, exprsParts, exprsParts, List.append_nil] at hall
      exact (ofValue_freeOf hfault fun table name hmem => h table name (hparts hmem)).bind fun _ _ => trivial
    · exact hfault.other (by simp [QueryError.kind]) fun _ he => by cases he

namespace Fields

theorem ofSelect_freeOf (hfault : OfReferences fault) {items : List SelectItem}
    (h : ∀ item ∈ items, Resolves fault sources item.expr.parts) :
    FreeOf fault (fun _ => True) (ofSelect sources items) := by
  induction items with
  | nil => trivial
  | cons item items ih =>
    obtain ⟨hitem, hitems⟩ := List.forall_mem_cons.mp h
    have hone : FreeOf fault (fun _ => True) (ofItem sources item) := by
      unfold ofItem
      split
      · unfold ofStar
        dsimp only
        split
        · exact hfault.other (by simp [QueryError.kind]) fun _ he => by cases he
        · trivial
      · exact (Field.ofExpr_freeOf hfault hitem).bind fun _ _ => trivial
    exact hone.bind fun _ _ => (ih hitems).bind fun _ _ => trivial

/-- A clause says itself which columns it misses. -/
theorem hidden_freeOf (hfault : OfReferences fault) (clause : String) (e : Expr) :
    FreeOf fault (fun _ => True) (hidden sources clause e) := by
  have hmake : FreeOf fault (fun _ => True) (hidden.make sources clause e) := by
    unfold hidden.make
    split
    · trivial
    · rename_i err herr
      cases herr' : err with
      | unknownColumn text => exact hfault.other (by simp [clauseError, QueryError.kind]) fun _ he => by cases he
      | _ =>
        -- Any other error is none of a missing column, and so one that no reference to a column brings.
        have hrest : OfReferences fun e => fault e ∧ ∀ text, e ≠ .unknownColumn text := fun e he => hfault e he.1
        have hfree : FreeOf (fun e => fault e ∧ ∀ text, e ≠ .unknownColumn text) (fun _ => True)
            (Field.ofExpr sources e.text e) :=
          Field.ofExpr_freeOf hrest fun table name _ hmissing => absurd rfl (hmissing.2 _)
        rw [herr, herr'] at hfree
        exact fun he => hfree ⟨he, fun _ h => by cases h⟩
  unfold hidden
  split
  · split
    · exact hfault.other (by simp [QueryError.kind]) fun _ he => by cases he
    · exact hmake
  · exact hmake

theorem resolve_freeOf (hfault : OfReferences fault) (fs : Fields) (clause : String) (e : Expr) :
    FreeOf fault (fun _ => True) (fs.resolve sources clause e) := by
  have hordinal : FreeOf fault (fun _ => True) (fs.ordinal? clause e) := by
    have hrange : ¬ fault (.ordinalRange clause e.text) :=
      hfault.other (by simp [QueryError.kind]) fun _ he => by cases he
    unfold ordinal?
    split
    · split
      · dsimp only
        split
        · trivial
        · exact hrange
      · exact hrange
    · trivial
  refine hordinal.bind fun found _ => ?_
  split
  · trivial
  · split
    · trivial
    · exact (hidden_freeOf hfault clause e).bind fun _ _ => trivial

theorem resolveAll_freeOf (hfault : OfReferences fault) (fs : Fields) (clause : String) (es : List Expr) :
    FreeOf fault (fun _ => True) (resolveAll fs sources clause es) := by
  induction es generalizing fs with
  | nil => trivial
  | cons e es ih => exact (resolve_freeOf hfault fs clause e).bind fun r _ => (ih r.2).bind fun _ _ => trivial

end Fields

/-- A statement is planned without a fault where the columns of its select list are there. -/
theorem layout_freeOf (hfault : OfReferences fault) {s : Statement}
    (h : ∀ item ∈ s.items, Resolves fault sources item.expr.parts) :
    FreeOf fault (fun _ => True) (layout sources s) :=
  (Fields.ofSelect_freeOf hfault h).bind fun selected _ =>
    (Fields.resolveAll_freeOf hfault selected _ _).bind fun groups _ =>
      (Fields.resolveAll_freeOf hfault groups.2 _ _).bind fun having _ =>
        (Fields.resolveAll_freeOf hfault having.2 _ _).bind fun _ _ => trivial

end Planning

section Statements

variable {σ : Type} {fault : QueryError → Prop} {world : World} {runner : Runner σ}

/-! ### Sources, groups and results -/

theorem sourceTable_freeOf (hfault : OfReferences fault) {s : Source}
    (h : ∀ q ∈ s.statements, (runner.kept q).FreeOf fault) : (sourceTable world runner s).FreeOf fault := by
  cases s with
  | table name alias? =>
    refine .bind_of (P := fun _ => True) ?_ fun _ _ _ => .pure _
    unfold Tables.require
    split
    · trivial
    · exact hfault.other (by simp [QueryError.kind]) fun _ he => by cases he
  | query q alias? => exact (h q (List.mem_singleton_self q)).bind fun _ _ => .pure _

theorem sourceTables_freeOf (hfault : OfReferences fault) {joins : List JoinClause}
    (h : ∀ j ∈ joins, ∀ q ∈ j.source.statements, (runner.kept q).FreeOf fault) :
    (sourceTables world runner joins).FreeOf fault := by
  induction joins with
  | nil => exact .pure []
  | cons j js ih =>
    obtain ⟨hj, hjs⟩ := List.forall_mem_cons.mp h
    exact (sourceTable_freeOf hfault hj).bind fun _ _ => (ih hjs).bind fun _ _ => .pure _

theorem keepGroups_freeOf {fields : Fields} {rows : List Row} {having : Option Condition}
    (h : ∀ c, having = some c → ∀ table, Rows.ReadsFree fault ⟨world, table, runner⟩ c.parts c.statements) :
    (keepGroups world runner fields rows having).FreeOf fault := by
  cases having with
  | none => exact .pure rows
  | some c =>
    unfold keepGroups
    exact (Rows.matching_freeOf fun d hd => h d hd _).bind fun _ _ => .pure _

theorem combineAll_freeOf (hfault : OfReferences fault) {operations : List SetOperation}
    (h : ∀ o ∈ operations, (runner.run o.statement).FreeOf fault) (left : ResultSet) :
    (combineAll runner left operations).FreeOf fault := by
  induction operations generalizing left with
  | nil => exact .pure left
  | cons o os ih =>
    obtain ⟨ho, hos⟩ := List.forall_mem_cons.mp h
    refine ho.bind fun right _ => .bind_of (P := fun _ => True) ?_ fun both _ _ => ih hos both
    unfold ResultSet.combine
    split
    · trivial
    · exact hfault.other (by simp [QueryError.kind]) fun _ he => by cases he

/-- A statement runs without a fault, its pivot and its set operations left aside, where each clause does on the
tables that it is given. -/
theorem runPlain_freeOf (hfault : OfReferences fault) {s : Statement}
    (hsource : ∀ q ∈ s.source.statements, (runner.kept q).FreeOf fault)
    (hjoined : ∀ j ∈ s.joins, ∀ q ∈ j.source.statements, (runner.kept q).FreeOf fault)
    (hon : ∀ j ∈ s.joins, JoinsFree fault world runner j.condition.parts j.condition.statements)
    (hrows : ∀ first others, (sourceTable world runner s.source).MayGive first →
      (sourceTables world runner s.joins).MayGive others →
        FreeOf fault (fun _ => True) (layout (first :: others) s) ∧
        ∀ plan working fields, layout (first :: others) s = .ok plan →
          (joinFrom world runner 1 first plan.fields s.joins others).MayGive (working, fields) →
            (∀ c, s.filter = some c → Rows.ReadsFree fault ⟨world, working, runner⟩ c.parts c.statements) ∧
              ∀ f ∈ fields, Rows.ReadsFree fault ⟨world, working, runner⟩ (Scope.fieldParts f) f.statements)
    (hhaving : ∀ c, s.having = some c → ∀ table,
      Rows.ReadsFree fault ⟨world, table, runner⟩ c.parts c.statements) :
    (runPlain world runner s).FreeOf fault := by
  refine (sourceTable_freeOf hfault hsource).bind fun first hfirst => ?_
  refine (sourceTables_freeOf hfault hjoined).bind fun others hothers => ?_
  obtain ⟨hplan, hrows⟩ := hrows first others hfirst hothers
  refine .bind_of hplan fun plan _ hlayout => ?_
  refine (joinFrom_freeOf hfault hon _ _ _ _).bind fun (working, fields) hgiven => ?_
  obtain ⟨hfilter, hfields⟩ := hrows plan working fields hlayout hgiven
  refine (Rows.matching_freeOf hfilter).bind fun ids _ => ?_
  refine .bind_of (Scope.fieldFormulas_freeOf (fun _ h => by cases h) hfields) fun formulas hformulas _ => ?_
  refine (Rows.cells_freeOf hfault hformulas ids).bind fun cells _ => ?_
  exact (keepGroups_freeOf hhaving).bind fun _ _ => .pure _

/-! ### Runs at any depth -/

/-- A runner runs statements of a kind without a fault, and keeping results brings none. -/
structure Runner.FreeOn (runner : Runner σ) (fault : QueryError → Prop) (P : Statement → Prop) : Prop where
  run : ∀ {q : Statement}, P q → (runner.run q).FreeOf fault
  keep : ∀ {run : Statement → Run σ ResultSet} {q : Statement}, (run q).FreeOf fault →
    (runner.keep run q).FreeOf fault

section Depth

variable {P : Statement → Prop}

theorem Runner.FreeOn.kept (h : runner.FreeOn fault P) {q : Statement} (hq : P q) :
    (runner.kept q).FreeOf fault :=
  h.keep (h.run hq)

/-- A statement runs for a row as its copy, or as itself where it does not depend on the row. -/
theorem Runner.FreeOn.nested (h : runner.FreeOn fault P) {t : Table} {row : Nat} {q : Statement}
    {correlated : Bool} (hcopy : P (q.bindOuter world.tables t row)) (hsame : correlated = false → P q) :
    (Rows.nested ⟨world, t, runner⟩ row q correlated).FreeOf fault := by
  cases correlated with
  | true => exact h.run hcopy
  | false => exact h.kept (hsame rfl)

/-- Suppose that statements of a kind run without a fault where the statements within them do, their pivots and set
operations left aside, and that pivoted forms and operands of set operations are of the kind too. Then they run
without a fault at any depth. -/
theorem run_freeOf {keep : Keeping σ} (hfault : OfReferences fault)
    (hkeep : ∀ {run : Statement → Run σ ResultSet} {q : Statement}, (run q).FreeOf fault →
      (keep run q).FreeOf fault)
    (hplain : ∀ {runner : Runner σ} {s : Statement}, runner.FreeOn fault P → P s →
      (runPlain world runner s).FreeOf fault)
    (hpivot : ∀ {s : Statement} {pivot : Expr}, s.pivot = some pivot → P s →
      P (pivotValues s pivot) ∧ ∀ values, P (pivoted s pivot values))
    (hoperation : ∀ {s : Statement} {o : SetOperation}, P s → o ∈ s.operations → P o.statement)
    (depth : Nat) {s : Statement} (h : P s) : (run keep world depth s).FreeOf fault := by
  -- One level less runs the statements within, so a runner of that depth is free on the kind.
  induction depth generalizing s with
  | zero => exact .throw (hfault.other (by simp [QueryError.kind]) fun _ he => by cases he)
  | succ depth ih =>
    have hfree : Runner.FreeOn ⟨run keep world depth, keep⟩ fault P := ⟨ih, hkeep⟩
    have hfirst : (runPivot world ⟨run keep world depth, keep⟩ s).FreeOf fault := by
      unfold runPivot
      split
      · exact hplain hfree h
      · rename_i pivot hp
        obtain ⟨hvalues, hpivoted⟩ := hpivot hp h
        split
        · exact .throw (hfault.other (by simp [QueryError.kind]) fun _ he => by cases he)
        · exact (hkeep (hplain hfree hvalues)).bind fun values _ => hplain hfree (hpivoted _)
    exact hfirst.bind fun first _ =>
      combineAll_freeOf hfault (fun o ho => hfree.run (hoperation h ho)) first

end Depth

/-- Remembering results brings no fault. -/
theorem freeOf_remembered {run : Statement → Run ResultMemo ResultSet} {q : Statement}
    (h : (run q).FreeOf fault) : (remembered run q).FreeOf fault := by
  intro memo
  have hrun := h memo
  rw [run_remembered]
  split
  · trivial
  · rcases hresult : (run q).run memo with ⟨e | r, memo'⟩
    · rw [hresult] at hrun
      exact hrun
    · trivial

end Statements

end GridQuery
