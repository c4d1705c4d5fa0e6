import GridQuery.Proofs.Nested
import GridQuery.Proofs.OuterBinding
import GridQuery.Query

/-!
Columns in other places. A formula looks the columns of its table up by name and reads their cells. Where
another table has the columns that are looked up under the same names, in other places, with the same cells,
the formula reads the same values there, and a condition selects the same rows.
-/

namespace GridQuery
set_option autoImplicit false

/-! ### Cells of free columns -/

section Copies

variable {ts : Tables} {cell cell' : String → Option Cell}

mutual

theorem Expr.bindOuter_sameCells {scopes : List Schema} : ∀ {e : Expr},
    (∀ s ∈ e.freeColumns ts scopes, cell s = cell' s) →
      e.bindOuter ts cell scopes = e.bindOuter ts cell' scopes
  | .literal _, _ | .bind _, _ | .star _, _ => rfl
  | .column table name, h => by
    simp only [Expr.bindOuter, outerExpr]
    by_cases known : knownIn scopes (columnSpelling table name)
    · simp only [known, if_true]
    · rw [h _ (by simp [Expr.freeColumns, known])]
  | .binary _ a b, h => by
    simp only [Expr.freeColumns, List.forall_mem_append] at h
    simp only [Expr.bindOuter, Expr.bindOuter_sameCells h.1, Expr.bindOuter_sameCells h.2]
  | .unary _ a, h => by
    simp only [Expr.freeColumns] at h
    simp only [Expr.bindOuter, Expr.bindOuter_sameCells h]
  | .call _ _ args, h => by
    simp only [Expr.freeColumns] at h
    simp only [Expr.bindOuter, exprsBind_sameCells h]
  | .case branches otherwise, h => by
    simp only [Expr.freeColumns, List.forall_mem_append] at h
    simp only [Expr.bindOuter, branchesBind_sameCells h.1, optionalBind_sameCells h.2]
  | .ite c a b, h => by
    simp only [Expr.freeColumns, List.forall_mem_append] at h
    simp only [Expr.bindOuter, Condition.bindOuter_sameCells h.1.1, Expr.bindOuter_sameCells h.1.2,
      Expr.bindOuter_sameCells h.2]
  | .subquery q, h => by
    simp only [Expr.freeColumns] at h
    simp only [Expr.bindOuter, Statement.bindIn_sameCells h]
  | .list items, h => by
    simp only [Expr.freeColumns] at h
    simp only [Expr.bindOuter, exprsBind_sameCells h]
  | .paren a, h => by
    simp only [Expr.freeColumns] at h
    simp only [Expr.bindOuter, Expr.bindOuter_sameCells h]

theorem exprsBind_sameCells {scopes : List Schema} : ∀ {es : List Expr},
    (∀ s ∈ exprsFree ts scopes es, cell s = cell' s) →
      exprsBind ts cell scopes es = exprsBind ts cell' scopes es
  | [], _ => rfl
  | e :: es, h => by
    simp only [exprsFree, List.forall_mem_append] at h
    simp only [exprsBind, Expr.bindOuter_sameCells h.1, exprsBind_sameCells h.2]

theorem branchesBind_sameCells {scopes : List Schema} : ∀ {bs : List (Condition × Expr)},
    (∀ s ∈ branchesFree ts scopes bs, cell s = cell' s) →
      branchesBind ts cell scopes bs = branchesBind ts cell' scopes bs
  | [], _ => rfl
  | (c, e) :: bs, h => by
    simp only [branchesFree, List.forall_mem_append] at h
    simp only [branchesBind, Condition.bindOuter_sameCells h.1.1, Expr.bindOuter_sameCells h.1.2,
      branchesBind_sameCells h.2]

theorem optionalBind_sameCells {scopes : List Schema} : ∀ {e : Option Expr},
    (∀ s ∈ optionalFree ts scopes e, cell s = cell' s) →
      optionalBind ts cell scopes e = optionalBind ts cell' scopes e
  | none, _ => rfl
  | some e, h => by
    simp only [optionalFree] at h
    simp only [optionalBind, Expr.bindOuter_sameCells h]

theorem Condition.bindOuter_sameCells {scopes : List Schema} : ∀ {c : Condition},
    (∀ s ∈ c.freeColumns ts scopes, cell s = cell' s) →
      c.bindOuter ts cell scopes = c.bindOuter ts cell' scopes
  | .compare _ a b, h => by
    simp only [Condition.freeColumns, List.forall_mem_append] at h
    simp only [Condition.bindOuter, Expr.bindOuter_sameCells h.1, Expr.bindOuter_sameCells h.2]
  | .logic _ terms, h => by
    simp only [Condition.freeColumns] at h
    simp only [Condition.bindOuter, termsBind_sameCells h]
  | .not c, h => by
    simp only [Condition.freeColumns] at h
    simp only [Condition.bindOuter, Condition.bindOuter_sameCells h]
  | .exists _ q, h => by
    simp only [Condition.freeColumns] at h
    simp only [Condition.bindOuter, Statement.bindIn_sameCells h]

theorem termsBind_sameCells {scopes : List Schema} : ∀ {cs : List Condition},
    (∀ s ∈ termsFree ts scopes cs, cell s = cell' s) →
      termsBind ts cell scopes cs = termsBind ts cell' scopes cs
  | [], _ => rfl
  | c :: cs, h => by
    simp only [termsFree, List.forall_mem_append] at h
    simp only [termsBind, Condition.bindOuter_sameCells h.1, termsBind_sameCells h.2]

theorem clauseBind_sameCells {scopes : List Schema} : ∀ {c : Option Condition},
    (∀ s ∈ clauseFree ts scopes c, cell s = cell' s) →
      clauseBind ts cell scopes c = clauseBind ts cell' scopes c
  | none, _ => rfl
  | some c, h => by
    simp only [clauseFree] at h
    simp only [clauseBind, Condition.bindOuter_sameCells h]

theorem Source.bindOuter_sameCells {scopes : List Schema} : ∀ {s : Source},
    (∀ x ∈ s.freeColumns ts scopes, cell x = cell' x) →
      s.bindOuter ts cell scopes = s.bindOuter ts cell' scopes
  | .table _ _, _ => rfl
  | .query q _, h => by
    simp only [Source.freeColumns] at h
    simp only [Source.bindOuter, Statement.bindIn_sameCells h]

theorem itemsBind_sameCells {scopes : List Schema} : ∀ {items : List SelectItem},
    (∀ s ∈ itemsFree ts scopes items, cell s = cell' s) →
      itemsBind ts cell scopes items = itemsBind ts cell' scopes items
  | [], _ => rfl
  | ⟨e, _, _⟩ :: items, h => by
    simp only [itemsFree, List.forall_mem_append] at h
    simp only [itemsBind, Expr.bindOuter_sameCells h.1, itemsBind_sameCells h.2]

theorem joinsBind_sameCells {scopes : List Schema} : ∀ {joins : List JoinClause},
    (∀ s ∈ joinsFree ts scopes joins, cell s = cell' s) →
      joinsBind ts cell scopes joins = joinsBind ts cell' scopes joins
  | [], _ => rfl
  | ⟨_, s, c⟩ :: joins, h => by
    simp only [joinsFree, List.forall_mem_append] at h
    simp only [joinsBind, Source.bindOuter_sameCells h.1.1, Condition.bindOuter_sameCells h.1.2,
      joinsBind_sameCells h.2]

theorem ordersBind_sameCells {scopes : List Schema} : ∀ {orders : List OrderItem},
    (∀ s ∈ ordersFree ts scopes orders, cell s = cell' s) →
      ordersBind ts cell scopes orders = ordersBind ts cell' scopes orders
  | [], _ => rfl
  | ⟨e, _⟩ :: orders, h => by
    simp only [ordersFree, List.forall_mem_append] at h
    simp only [ordersBind, Expr.bindOuter_sameCells h.1, ordersBind_sameCells h.2]

theorem operationsBind_sameCells {scopes : List Schema} : ∀ {operations : List SetOperation},
    (∀ s ∈ operationsFree ts scopes operations, cell s = cell' s) →
      operationsBind ts cell scopes operations = operationsBind ts cell' scopes operations
  | [], _ => rfl
  | ⟨_, s⟩ :: operations, h => by
    simp only [operationsFree, List.forall_mem_append] at h
    simp only [operationsBind, Statement.bindIn_sameCells h.1, operationsBind_sameCells h.2]

/-- What binding makes of a statement depends on the cells of its free columns alone. -/
theorem Statement.bindIn_sameCells {scopes : List Schema} : ∀ {q : Statement},
    (∀ s ∈ q.freeColumns ts scopes, cell s = cell' s) →
      q.bindIn ts cell scopes = q.bindIn ts cell' scopes
  | ⟨_, items, source, joins, filter, groupBy, having, orderBy, _, pivot, operations⟩, h => by
    simp only [Statement.freeColumns, List.forall_mem_append] at h
    obtain ⟨⟨⟨⟨⟨⟨⟨⟨inSource, inJoins⟩, inItems⟩, inFilter⟩, inGroupBy⟩, inHaving⟩, inOrderBy⟩,
      inPivot⟩, inOperations⟩ := h
    simp only [Statement.bindIn, Source.bindOuter_sameCells inSource, joinsBind_sameCells inJoins,
      itemsBind_sameCells inItems, clauseBind_sameCells inFilter, exprsBind_sameCells inGroupBy,
      clauseBind_sameCells inHaving, ordersBind_sameCells inOrderBy, optionalBind_sameCells inPivot,
      operationsBind_sameCells inOperations]

end

end Copies

/-! ### Formulas in other places -/

mutual

/-- A formula with its columns in other places. -/
def Formula.moved (place : Nat → Nat) : Formula → Formula
  | .const c => .const c
  | .slot c => .slot (place c)
  | .binary op a b => .binary op (a.moved place) (b.moved place)
  | .negate a => .negate (a.moved place)
  | .call f args => .call f (formulasMoved place args)
  | .case branches otherwise => .case (choicesMoved place branches) (otherwiseMoved place otherwise)
  | .subquery q correlated => .subquery q correlated
  | .list items => .list (formulasMoved place items)

def formulasMoved (place : Nat → Nat) : List Formula → List Formula
  | [] => []
  | f :: fs => f.moved place :: formulasMoved place fs

def choicesMoved (place : Nat → Nat) : List (Test × Formula) → List (Test × Formula)
  | [] => []
  | (t, f) :: bs => (t.moved place, f.moved place) :: choicesMoved place bs

def otherwiseMoved (place : Nat → Nat) : Option Formula → Option Formula
  | none => none
  | some f => some (f.moved place)

def Test.moved (place : Nat → Nat) : Test → Test
  | .compare op a b pattern => .compare op (a.moved place) (b.moved place) pattern
  | .logic op terms => .logic op (testsMoved place terms)
  | .not t => .not (t.moved place)
  | .exists negated q correlated => .exists negated q correlated

def testsMoved (place : Nat → Nat) : List Test → List Test
  | [] => []
  | t :: ts => t.moved place :: testsMoved place ts

end

/-- The names that a formula looks up for an expression itself. -/
def Expr.lookupNames : Expr → List String
  | .literal _ => []
  | .bind _ => []
  | .column table name => [columnSpelling table name, Expr.text (.column table name)]
  | e => [e.text]

/-- The names that are looked up for a condition, by its expressions and for the statements in it. -/
def Condition.LooksUp (ts : Tables) (c : Condition) (name : String) : Prop :=
  (∃ e ∈ c.parts, name ∈ e.lookupNames) ∨ ∃ q ∈ c.statements, name ∈ q.freeColumns ts []

/-- A table that has the columns with some names in other places than another one, with the same cells. -/
structure Table.Moved (t u : Table) (place : Nat → Nat) (named : String → Prop) : Prop where
  height_eq : u.rows.length = t.rows.length
  column?_eq : ∀ name, named name → u.column? name = (t.column? name).map place
  cell_eq : ∀ row column, u.cell row (place column) = t.cell row column

namespace Table.Moved

variable {t u : Table} {place : Nat → Nat} {named : String → Prop} {ts : Tables}

theorem cellNamed_eq (h : t.Moved u place named) {name : String} (hname : named name) (row : Nat) :
    u.cellNamed row name = t.cellNamed row name := by
  unfold Table.cellNamed
  rw [h.column?_eq name hname, Option.map_map]
  exact congrArg (fun f => (t.column? name).map f) (funext fun column => h.cell_eq row column)

variable {q : Statement} (h : t.Moved u place named) (hq : ∀ name ∈ q.freeColumns ts [], named name)

include h hq

theorem isCorrelated_eq : q.isCorrelated ts u = q.isCorrelated ts t := by
  unfold Statement.isCorrelated
  rw [Bool.eq_iff_iff, List.any_eq_true, List.any_eq_true]
  refine exists_congr fun name => and_congr_right fun hname => ?_
  rw [h.column?_eq name (hq name hname), Option.isSome_map]

theorem bindOuter_eq (row : Nat) : q.bindOuter ts u row = q.bindOuter ts t row :=
  Statement.bindIn_sameCells fun name hname => h.cellNamed_eq (hq name hname) row

end Table.Moved

namespace Scope

/-- One scope has the columns with some names in other places than another one. -/
structure Moved (s s' : Scope) (place : Nat → Nat) (named : String → Prop) : Prop where
  tables_eq : s'.tables = s.tables
  binds_eq : s'.binds = s.binds
  table : s.table.Moved s'.table place named

namespace Moved

variable {s s' : Scope} {place : Nat → Nat} {named : String → Prop}

theorem written?_eq (h : s.Moved s' place named) {e : Expr} (he : named e.text) :
    s'.written? e = (s.written? e).map place :=
  h.table.column?_eq _ he

theorem column_eq (h : s.Moved s' place named) {table : Option String} {name : String}
    (hname : ∀ n ∈ (Expr.column table name).lookupNames, named n) :
    s'.column table name = (s.column table name).map (Formula.moved place) := by
  simp only [Expr.lookupNames, List.forall_mem_cons] at hname
  unfold Scope.column
  rw [h.table.column?_eq _ hname.1, h.written?_eq hname.2.1]
  cases s.table.column? (columnSpelling table name) with
  | some slot => rfl
  | none => cases s.written? (.column table name) <;> rfl

theorem subquery_eq (h : s.Moved s' place named) {q : Statement}
    (hq : ∀ name ∈ q.freeColumns s.tables [], named name) : s'.subquery q = (s.subquery q).moved place := by
  unfold Scope.subquery
  rw [h.tables_eq, h.table.isCorrelated_eq hq, Formula.moved]

theorem pattern?_moved (op : Comparison) (f : Formula) : pattern? op (f.moved place) = pattern? op f := by
  cases op <;> cases f <;> rfl

mutual

theorem formula_eq (h : s.Moved s' place named) : ∀ {e : Expr},
    (∀ p ∈ e.parts, ∀ name ∈ p.lookupNames, named name) →
    (∀ q ∈ e.statements, ∀ name ∈ q.freeColumns s.tables [], named name) →
      s'.formula e = (s.formula e).map (Formula.moved place)
  | .literal c, _, _ => rfl
  | .column table name, hp, _ => by
    simp only [formula]
    exact h.column_eq (hp _ (List.mem_singleton_self _))
  | .bind n, _, _ => by
    simp only [formula, h.binds_eq]
    cases s.binds.get n <;> rfl
  | .binary op a b, hp, hq => by
    simp only [Expr.parts, List.forall_mem_cons, List.forall_mem_append] at hp
    simp only [Expr.statements, List.forall_mem_append] at hq
    simp only [formula, h.written?_eq (hp.1 _ (List.mem_singleton_self _)), formula_eq h hp.2.1 hq.1,
      formula_eq h hp.2.2 hq.2]
    cases s.written? (.binary op a b) with
    | some slot => rfl
    | none => cases s.formula a with
      | error e => rfl
      | ok x => cases s.formula b <;> rfl
  | .unary sign a, hp, hq => by
    simp only [Expr.parts, List.forall_mem_cons] at hp
    simp only [formula, h.written?_eq (hp.1 _ (List.mem_singleton_self _)), formula_eq (e := a) h hp.2 hq]
    cases s.written? (.unary sign a) with
    | some slot => rfl
    | none => cases s.formula a with
      | error e => rfl
      | ok x => cases sign <;> rfl
  | .call name distinct args, hp, hq => by
    simp only [Expr.parts, List.forall_mem_cons] at hp
    simp only [formula, h.written?_eq (hp.1 _ (List.mem_singleton_self _)),
      fun f i => arguments_eq (l := args) h f i hp.2 hq]
    cases s.written? (.call name distinct args) with
    | some slot => rfl
    | none => cases function name (Expr.text (.call name distinct args)) args.length with
      | error e => rfl
      | ok f =>
        simp only [Option.map_none, bind, Except.bind]
        cases s.arguments f 0 args with
        | error e => rfl
        | ok xs => simp only [Except.map, Formula.moved]
  | .case branches otherwise, hp, hq => by
    simp only [Expr.parts, List.forall_mem_cons, List.forall_mem_append] at hp
    simp only [Expr.statements, List.forall_mem_append] at hq
    simp only [formula, h.written?_eq (hp.1 _ (List.mem_singleton_self _)), branches_eq h hp.2.1 hq.1,
      optional_eq h hp.2.2 hq.2]
    cases s.written? (.case branches otherwise) with
    | some slot => rfl
    | none => cases s.branches branches with
      | error e => rfl
      | ok bs => cases s.optional otherwise <;> rfl
  | .ite c a b, hp, hq => by
    simp only [Expr.parts, List.forall_mem_cons, List.forall_mem_append] at hp
    simp only [Expr.statements, List.forall_mem_append] at hq
    simp only [formula, h.written?_eq (hp.1 _ (List.mem_singleton_self _)), test_eq h hp.2.1.1 hq.1,
      formula_eq h hp.2.1.2 hq.2.1, formula_eq h hp.2.2 hq.2.2]
    cases s.written? (.ite c a b) with
    | some slot => rfl
    | none => cases s.test c with
      | error e => rfl
      | ok t => cases s.formula a with
        | error e => rfl
        | ok x => cases s.formula b <;> rfl
  | .subquery q, hp, hq => by
    simp only [formula, h.written?_eq (hp _ (List.mem_singleton_self _) _ (List.mem_singleton_self _)),
      h.subquery_eq (hq q (List.mem_singleton_self q))]
    cases s.written? (.subquery q) <;> rfl
  | .list items, hp, hq => by
    simp only [Expr.parts, List.forall_mem_cons] at hp
    simp only [formula, h.written?_eq (hp.1 _ (List.mem_singleton_self _)), formulas_eq (l := items) h hp.2 hq]
    cases s.written? (.list items) with
    | some slot => rfl
    | none => cases s.formulas items <;> rfl
  | .star table, hp, _ => by
    simp only [formula, h.written?_eq (hp _ (List.mem_singleton_self _) _ (List.mem_singleton_self _))]
    cases s.written? (.star table) <;> rfl
  | .paren a, hp, hq => by
    simp only [Expr.parts, List.forall_mem_cons] at hp
    simp only [formula, h.written?_eq (hp.1 _ (List.mem_singleton_self _)), formula_eq (e := a) h hp.2 hq]
    cases s.written? (.paren a) <;> rfl

theorem formulas_eq (h : s.Moved s' place named) : ∀ {l : List Expr},
    (∀ p ∈ exprsParts l, ∀ name ∈ p.lookupNames, named name) →
    (∀ q ∈ exprsStatements l, ∀ name ∈ q.freeColumns s.tables [], named name) →
      s'.formulas l = (s.formulas l).map (formulasMoved place)
  | [], _, _ => rfl
  | e :: es, hp, hq => by
    simp only [exprsParts, List.forall_mem_append] at hp
    simp only [exprsStatements, List.forall_mem_append] at hq
    simp only [formulas, formula_eq h hp.1 hq.1, formulas_eq h hp.2 hq.2]
    cases s.formula e with
    | error e => rfl
    | ok x => cases s.formulas es <;> rfl

theorem arguments_eq (h : s.Moved s' place named) (f : ScalarFunction) : ∀ (i : Nat) {l : List Expr},
    (∀ p ∈ exprsParts l, ∀ name ∈ p.lookupNames, named name) →
    (∀ q ∈ exprsStatements l, ∀ name ∈ q.freeColumns s.tables [], named name) →
      s'.arguments f i l = (s.arguments f i l).map (formulasMoved place)
  | _, [], _, _ => rfl
  | i, e :: es, hp, hq => by
    simp only [exprsParts, List.forall_mem_append] at hp
    simp only [exprsStatements, List.forall_mem_append] at hq
    simp only [arguments, formula_eq h hp.1 hq.1, arguments_eq h f (i + 1) hp.2 hq.2]
    cases typeWord? f i e with
    | some word => cases s.arguments f (i + 1) es <;> rfl
    | none => cases s.formula e with
      | error e => rfl
      | ok x => cases s.arguments f (i + 1) es <;> rfl

theorem branches_eq (h : s.Moved s' place named) : ∀ {bs : List (Condition × Expr)},
    (∀ p ∈ branchesParts bs, ∀ name ∈ p.lookupNames, named name) →
    (∀ q ∈ branchesStatements bs, ∀ name ∈ q.freeColumns s.tables [], named name) →
      s'.branches bs = (s.branches bs).map (choicesMoved place)
  | [], _, _ => rfl
  | (c, e) :: bs, hp, hq => by
    simp only [branchesParts, List.forall_mem_append] at hp
    simp only [branchesStatements, List.forall_mem_append] at hq
    simp only [branches, test_eq h hp.1.1 hq.1, formula_eq h hp.1.2 hq.2.1, branches_eq h hp.2 hq.2.2]
    cases s.test c with
    | error e => rfl
    | ok t => cases s.formula e with
      | error e => rfl
      | ok x => cases s.branches bs <;> rfl

theorem optional_eq (h : s.Moved s' place named) : ∀ {o : Option Expr},
    (∀ p ∈ elseParts o, ∀ name ∈ p.lookupNames, named name) →
    (∀ q ∈ elseStatements o, ∀ name ∈ q.freeColumns s.tables [], named name) →
      s'.optional o = (s.optional o).map (otherwiseMoved place)
  | none, _, _ => rfl
  | some e, hp, hq => by
    simp only [optional, formula_eq (e := e) h hp hq]
    cases s.formula e <;> rfl

theorem test_eq (h : s.Moved s' place named) : ∀ {c : Condition},
    (∀ p ∈ c.parts, ∀ name ∈ p.lookupNames, named name) →
    (∀ q ∈ c.statements, ∀ name ∈ q.freeColumns s.tables [], named name) →
      s'.test c = (s.test c).map (Test.moved place)
  | .compare op a b, hp, hq => by
    simp only [Condition.parts, List.forall_mem_append] at hp
    simp only [Condition.statements, List.forall_mem_append] at hq
    simp only [test, formula_eq h hp.1 hq.1, formula_eq h hp.2 hq.2]
    cases s.formula a with
    | error e => rfl
    | ok x => cases s.formula b with
      | error e => rfl
      | ok y => simp only [bind, Except.bind, Except.map, Test.moved, pattern?_moved]
  | .logic op terms, hp, hq => by
    simp only [test, tests_eq (l := terms) h hp hq]
    cases s.tests terms <;> rfl
  | .not c, hp, hq => by
    simp only [test, test_eq (c := c) h hp hq]
    cases s.test c <;> rfl
  | .exists negated q, _, hq => by
    simp only [test, h.tables_eq, h.table.isCorrelated_eq (hq q (List.mem_singleton_self q))]
    rfl

theorem tests_eq (h : s.Moved s' place named) : ∀ {l : List Condition},
    (∀ p ∈ termsParts l, ∀ name ∈ p.lookupNames, named name) →
    (∀ q ∈ termsStatements l, ∀ name ∈ q.freeColumns s.tables [], named name) →
      s'.tests l = (s.tests l).map (testsMoved place)
  | [], _, _ => rfl
  | c :: cs, hp, hq => by
    simp only [termsParts, List.forall_mem_append] at hp
    simp only [termsStatements, List.forall_mem_append] at hq
    simp only [tests, test_eq h hp.1 hq.1, tests_eq h hp.2 hq.2]
    cases s.test c with
    | error e => rfl
    | ok t => cases s.tests cs <;> rfl

end

end Moved

end Scope

/-! ### Values and selected rows -/

namespace Rows

variable {σ : Type}

/-- The rows of a table that has the columns with some names in other places. -/
structure Moved (r r' : Rows σ) (place : Nat → Nat) (named : String → Prop) : Prop where
  world_eq : r'.world = r.world
  runner_eq : r'.runner = r.runner
  table : r.table.Moved r'.table place named

namespace Moved

variable {r r' : Rows σ} {place : Nat → Nat} {named : String → Prop}

theorem scope (h : r.Moved r' place named) : r.scope.Moved r'.scope place named where
  tables_eq := congrArg World.tables h.world_eq
  binds_eq := congrArg World.binds h.world_eq
  table := h.table

theorem nested_eq (h : r.Moved r' place named) {q : Statement}
    (hq : ∀ name ∈ q.freeColumns r.world.tables [], named name) (row : Nat) (correlated : Bool) :
    r'.nested row q correlated = r.nested row q correlated := by
  unfold Rows.nested
  rw [h.runner_eq, h.world_eq, h.table.bindOuter_eq hq]

theorem members_eq (h : r.Moved r' place named) {f : Formula}
    (hq : ∀ q ∈ f.statements, ∀ name ∈ q.freeColumns r.world.tables [], named name) (row : Nat)
    {listed listed' : Run σ (List Cell)} {single single' : Run σ Cell} (hlisted : listed' = listed)
    (hsingle : single' = single) :
    r'.members row (f.moved place) listed' single' = r.members row f listed single := by
  subst hlisted hsingle
  cases f with
  | subquery q correlated =>
    simp only [Formula.moved, Rows.members, h.nested_eq (hq q (List.mem_singleton_self q))]
  | const | slot | binary | negate | call | case | list => rfl

mutual

theorem value_eq (h : r.Moved r' place named) (row : Nat) : ∀ {f : Formula},
    (∀ q ∈ f.statements, ∀ name ∈ q.freeColumns r.world.tables [], named name) →
      r'.value row (f.moved place) = r.value row f
  | .const c, _ => by simp only [Formula.moved, value]
  | .slot c, _ => by simp only [Formula.moved, value, h.table.cell_eq]
  | .binary op a b, hq => by
    simp only [Formula.statements, List.forall_mem_append] at hq
    simp only [Formula.moved, value, value_eq h row hq.1, value_eq h row hq.2]
  | .negate a, hq => by
    simp only [Formula.statements] at hq
    simp only [Formula.moved, value, value_eq h row hq]
  | .call f args, hq => by
    simp only [Formula.statements] at hq
    simp only [Formula.moved, value, values_eq h row hq, h.world_eq]
  | .case branches otherwise, hq => by
    simp only [Formula.statements, List.forall_mem_append] at hq
    simp only [Formula.moved, value, choice_eq h row hq.1, optional_eq h row hq.2]
  | .subquery q correlated, hq => by
    simp only [Formula.moved, value, h.nested_eq (hq q (List.mem_singleton_self q))]
  | .list _, _ => by simp only [Formula.moved, value]

theorem values_eq (h : r.Moved r' place named) (row : Nat) : ∀ {fs : List Formula},
    (∀ q ∈ formulasStatements fs, ∀ name ∈ q.freeColumns r.world.tables [], named name) →
      r'.values row (formulasMoved place fs) = r.values row fs
  | [], _ => by simp only [formulasMoved, values]
  | f :: fs, hq => by
    simp only [formulasStatements, List.forall_mem_append] at hq
    simp only [formulasMoved, values, value_eq h row hq.1, values_eq h row hq.2]

theorem choice_eq (h : r.Moved r' place named) (row : Nat) : ∀ {bs : List (Test × Formula)},
    (∀ q ∈ choicesStatements bs, ∀ name ∈ q.freeColumns r.world.tables [], named name) →
      r'.choice row (choicesMoved place bs) = r.choice row bs
  | [], _ => by simp only [choicesMoved, choice]
  | (t, f) :: bs, hq => by
    simp only [choicesStatements, List.forall_mem_append] at hq
    simp only [choicesMoved, choice, holds_eq h row hq.1, value_eq h row hq.2.1, choice_eq h row hq.2.2]

theorem optional_eq (h : r.Moved r' place named) (row : Nat) : ∀ {o : Option Formula},
    (∀ q ∈ otherwiseStatements o, ∀ name ∈ q.freeColumns r.world.tables [], named name) →
      r'.optional row (otherwiseMoved place o) = r.optional row o
  | none, _ => by simp only [otherwiseMoved, optional]
  | some f, hq => by
    simp only [otherwiseStatements] at hq
    simp only [otherwiseMoved, optional, value_eq h row hq]

theorem listed_eq (h : r.Moved r' place named) (row : Nat) : ∀ {f : Formula},
    (∀ q ∈ f.statements, ∀ name ∈ q.freeColumns r.world.tables [], named name) →
      r'.listed row (f.moved place) = r.listed row f
  | .list items, hq => by
    simp only [Formula.statements] at hq
    simp only [Formula.moved, listed, values_eq h row hq]
  | .const _, _ | .slot _, _ | .binary .., _ | .negate _, _ | .call .., _ | .case .., _ | .subquery .., _ => by
    simp only [Formula.moved, listed]

theorem holds_eq (h : r.Moved r' place named) (row : Nat) : ∀ {t : Test},
    (∀ q ∈ t.statements, ∀ name ∈ q.freeColumns r.world.tables [], named name) →
      r'.holds row (t.moved place) = r.holds row t
  | .compare op a b pattern, hq => by
    simp only [Test.statements, List.forall_mem_append] at hq
    have hmembers := h.members_eq hq.2 row (listed_eq h row hq.2) (value_eq h row hq.2)
    simp only [Test.moved, holds, value_eq h row hq.1]
    rw [hmembers, value_eq h row hq.2]
  | .logic .and terms, hq => by
    simp only [Test.statements] at hq
    simp only [Test.moved, holds, allHold_eq h row hq]
  | .logic .or terms, hq => by
    simp only [Test.statements] at hq
    simp only [Test.moved, holds, anyHolds_eq h row hq]
  | .not t, hq => by
    simp only [Test.statements] at hq
    simp only [Test.moved, holds, holds_eq h row hq]
  | .exists negated q correlated, hq => by
    simp only [Test.moved, holds, h.nested_eq (hq q (List.mem_singleton_self q))]

theorem allHold_eq (h : r.Moved r' place named) (row : Nat) : ∀ {ts : List Test},
    (∀ q ∈ testsStatements ts, ∀ name ∈ q.freeColumns r.world.tables [], named name) →
      r'.allHold row (testsMoved place ts) = r.allHold row ts
  | [], _ => by simp only [testsMoved, allHold]
  | t :: ts, hq => by
    simp only [testsStatements, List.forall_mem_append] at hq
    simp only [testsMoved, allHold, holds_eq h row hq.1, allHold_eq h row hq.2]

theorem anyHolds_eq (h : r.Moved r' place named) (row : Nat) : ∀ {ts : List Test},
    (∀ q ∈ testsStatements ts, ∀ name ∈ q.freeColumns r.world.tables [], named name) →
      r'.anyHolds row (testsMoved place ts) = r.anyHolds row ts
  | [], _ => by simp only [testsMoved, anyHolds]
  | t :: ts, hq => by
    simp only [testsStatements, List.forall_mem_append] at hq
    simp only [testsMoved, anyHolds, holds_eq h row hq.1, anyHolds_eq h row hq.2]

end

theorem keep_eq (h : r.Moved r' place named) {t : Test}
    (hq : ∀ q ∈ t.statements, ∀ name ∈ q.freeColumns r.world.tables [], named name) (rows : List Nat) :
    r'.keep (t.moved place) rows = r.keep t rows := by
  induction rows with
  | nil => rfl
  | cons row rows ih => simp only [Rows.keep, h.holds_eq row hq, ih]

theorem leaf_eq (h : r.Moved r' place named) {c : Condition}
    (hp : ∀ p ∈ c.parts, ∀ name ∈ p.lookupNames, named name)
    (hq : ∀ q ∈ c.statements, ∀ name ∈ q.freeColumns r.world.tables [], named name) (rows : List Nat) :
    r'.leaf c rows = r.leaf c rows := by
  unfold Rows.leaf
  rw [h.scope.test_eq hp hq]
  cases ht : r.scope.test c with
  | error e => rfl
  | ok t => exact h.keep_eq (fun q hmem => hq q (Scope.test_statements _ c ht hmem)) rows

mutual

theorem select_eq (h : r.Moved r' place named) : ∀ {c : Condition} (rows : List Nat),
    (∀ p ∈ c.parts, ∀ name ∈ p.lookupNames, named name) →
    (∀ q ∈ c.statements, ∀ name ∈ q.freeColumns r.world.tables [], named name) →
      r'.select rows c = r.select rows c
  | .logic .and terms, rows, hp, hq => by
    simp only [Condition.parts] at hp
    simp only [Condition.statements] at hq
    simp only [select, narrow_eq h rows hp hq]
  | .logic .or terms, rows, hp, hq => by
    simp only [Condition.parts] at hp
    simp only [Condition.statements] at hq
    simp only [select, gather_eq h rows hp hq]
  | .not c, rows, hp, hq => by
    simp only [Condition.parts] at hp
    simp only [Condition.statements] at hq
    simp only [select, select_eq h rows hp hq]
  | .compare op a b, rows, hp, hq => by simp only [select, h.leaf_eq hp hq]
  | .exists negated q, rows, hp, hq => by simp only [select, h.leaf_eq hp hq]

theorem narrow_eq (h : r.Moved r' place named) : ∀ {cs : List Condition} (rows : List Nat),
    (∀ p ∈ termsParts cs, ∀ name ∈ p.lookupNames, named name) →
    (∀ q ∈ termsStatements cs, ∀ name ∈ q.freeColumns r.world.tables [], named name) →
      r'.narrow rows cs = r.narrow rows cs
  | [], _, _, _ => by simp only [narrow]
  | c :: cs, rows, hp, hq => by
    simp only [termsParts, List.forall_mem_append] at hp
    simp only [termsStatements, List.forall_mem_append] at hq
    simp only [narrow, select_eq h rows hp.1 hq.1, fun rows => narrow_eq h rows hp.2 hq.2]

theorem gather_eq (h : r.Moved r' place named) : ∀ {cs : List Condition} (rows : List Nat),
    (∀ p ∈ termsParts cs, ∀ name ∈ p.lookupNames, named name) →
    (∀ q ∈ termsStatements cs, ∀ name ∈ q.freeColumns r.world.tables [], named name) →
      r'.gather rows cs = r.gather rows cs
  | [], _, _, _ => by simp only [gather]
  | c :: cs, rows, hp, hq => by
    simp only [termsParts, List.forall_mem_append] at hp
    simp only [termsStatements, List.forall_mem_append] at hq
    simp only [gather, select_eq h rows hp.1 hq.1, gather_eq h rows hp.2 hq.2]

end

/-- Conditions select the same rows, whatever places the columns have that they name. -/
theorem matching_eq (h : r.Moved r' place named) {filter : Option Condition}
    (hnamed : ∀ c, filter = some c → ∀ name, c.LooksUp r.world.tables name → named name) :
    r'.matching filter = r.matching filter := by
  cases filter with
  | none => simp only [Rows.matching, h.table.height_eq]
  | some c =>
    have hlooks := hnamed c rfl
    simp only [Rows.matching, h.table.height_eq]
    exact h.select_eq _ (fun p hp name hname => hlooks name (.inl ⟨p, hp, hname⟩))
      fun q hq name hname => hlooks name (.inr ⟨q, hq, hname⟩)

end Moved

end Rows

end GridQuery
