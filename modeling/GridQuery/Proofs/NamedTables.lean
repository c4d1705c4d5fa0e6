import GridQuery.Proofs.Nested

/-!
The tables that a statement names. The correlation analysis looks tables up for the titles of every source
within it, at any depth, and for nothing else: where two sets of tables agree on the names of a statement,
they give it the same titles, the same free columns and the same copy for an outer row.
-/

namespace GridQuery
set_option autoImplicit false

namespace Statement.Within

variable {s q : Statement}

theorem key (h : q ∈ exprsStatements s.groupBy) : s.Within q := by
  obtain ⟨e, he, hq⟩ := mem_exprsStatements.mp h
  exact .groupBy he hq

theorem pivoting (h : q ∈ elseStatements s.pivot) : s.Within q := by
  cases hp : s.pivot with
  | none =>
    rw [hp] at h
    cases h
  | some e =>
    rw [hp] at h
    exact .pivot hp h

end Statement.Within

/-- A table of that name stands behind a `FROM` or a `JOIN` of the statement, at any depth. -/
inductive Statement.Names (name : String) : Statement → Prop where
  | source {s alias?} : s.source = .table name alias? → Names name s
  | joined {s j alias?} : j ∈ s.joins → j.source = .table name alias? → Names name s
  | within {s q} : s.Within q → Names name q → Names name s

def clauseStatements : Option Condition → List Statement
  | none => []
  | some c => c.statements

/-- The statements directly within a statement. -/
def Statement.inner (s : Statement) : List Statement :=
  s.source.statements ++ s.joins.flatMap (fun j => j.source.statements ++ j.condition.statements) ++
    s.items.flatMap (fun i => i.expr.statements) ++ clauseStatements s.filter ++
    exprsStatements s.groupBy ++ clauseStatements s.having ++
    s.orderBy.flatMap (fun o => o.expr.statements) ++ elseStatements s.pivot ++
    s.operations.map SetOperation.statement

theorem Statement.Within.mem_inner {s q : Statement} (h : s.Within q) : q ∈ s.inner := by
  simp only [Statement.inner, List.mem_append, List.mem_flatMap, List.mem_map, mem_exprsStatements]
  cases h with
  | source hq => simp only [hq, true_or]
  | joined hj hq =>
    have hmem : ∃ j ∈ s.joins, q ∈ j.source.statements ∨ q ∈ j.condition.statements := ⟨_, hj, .inl hq⟩
    simp only [hmem, or_true, true_or]
  | on hj hq =>
    have hmem : ∃ j ∈ s.joins, q ∈ j.source.statements ∨ q ∈ j.condition.statements := ⟨_, hj, .inr hq⟩
    simp only [hmem, or_true, true_or]
  | item hi hq =>
    have hmem : ∃ i ∈ s.items, q ∈ i.expr.statements := ⟨_, hi, hq⟩
    simp only [hmem, or_true, true_or]
  | filter hc hq => simp only [hc, clauseStatements, hq, or_true, true_or]
  | groupBy he hq =>
    have hmem : ∃ e ∈ s.groupBy, q ∈ e.statements := ⟨_, he, hq⟩
    simp only [hmem, or_true, true_or]
  | having hc hq => simp only [hc, clauseStatements, hq, or_true, true_or]
  | orderBy ho hq =>
    have hmem : ∃ o ∈ s.orderBy, q ∈ o.expr.statements := ⟨_, ho, hq⟩
    simp only [hmem, or_true, true_or]
  | pivot he hq => simp only [he, elseStatements, hq, or_true, true_or]
  | @operation o ho =>
    have hmem : ∃ p ∈ s.operations, p.statement = o.statement := ⟨o, ho, rfl⟩
    simp only [hmem, or_true]

/-- The statement, and those within it to some depth, name tables of that list; nothing stands deeper. -/
def Statement.namesOnly (names : List String) : Nat → Statement → Bool
  | 0, _ => false
  | depth + 1, s =>
    (s.source :: s.joins.map JoinClause.source).all (fun source =>
      match source with
      | .table name _ => names.contains name
      | .query .. => true) && s.inner.all (namesOnly names depth)

theorem Statement.Names.mem_of_namesOnly {names : List String} {name : String} {s : Statement}
    (h : s.Names name) {depth : Nat} (honly : s.namesOnly names depth = true) : name ∈ names := by
  induction h generalizing depth with
  | source he =>
    cases depth with
    | zero => cases honly
    | succ depth =>
      simp only [namesOnly, List.all_cons, he, Bool.and_eq_true] at honly
      exact List.contains_iff_mem.mp honly.1.1
  | joined hj he =>
    cases depth with
    | zero => cases honly
    | succ depth =>
      simp only [namesOnly, List.all_cons, Bool.and_eq_true, List.all_eq_true] at honly
      have hname := honly.1.2 _ (List.mem_map_of_mem hj)
      rw [he] at hname
      exact List.contains_iff_mem.mp hname
  | within hq _ ih =>
    cases depth with
    | zero => cases honly
    | succ depth =>
      simp only [namesOnly, Bool.and_eq_true, List.all_eq_true] at honly
      exact ih (honly.2 _ hq.mem_inner)

/-- Two sets of tables have the same tables under the names of a statement. -/
def Tables.AgreeOn (ts ts' : Tables) (q : Statement) : Prop :=
  ∀ name, q.Names name → ts.get? name = ts'.get? name

theorem Tables.AgreeOn.within {ts ts' : Tables} {s q : Statement} (h : ts.AgreeOn ts' s)
    (hq : s.Within q) : ts.AgreeOn ts' q :=
  fun name hname => h name (.within hq hname)

section Agreeing

variable {ts ts' : Tables}

/-! ### Titles and scopes -/

mutual

theorem Statement.titles_congr : ∀ {q : Statement}, ts.AgreeOn ts' q → q.titles ts = q.titles ts'
  | ⟨distinct, items, source, joins, filter, groupBy, having, orderBy, limit, pivot, operations⟩, h => by
    have hsource : source.titles ts = source.titles ts' :=
      Source.titles_congr (fun name _ he => h name (.source he)) fun q hq => h.within (.source hq)
    have hjoins : joinTitles ts joins = joinTitles ts' joins :=
      joinTitles_congr (fun name j hj _ he => h name (.joined hj he))
        fun j hj q hq => h.within (.joined hj hq)
    simp only [Statement.titles, hsource, hjoins]

theorem Source.titles_congr : ∀ {s : Source},
    (∀ name alias?, s = .table name alias? → ts.get? name = ts'.get? name) →
    (∀ q ∈ s.statements, ts.AgreeOn ts' q) → s.titles ts = s.titles ts'
  | .table name alias?, htable, _ => by
    simp only [Source.titles, Tables.titlesOf, htable name alias? rfl]
  | .query q _, _, hq => by
    simp only [Source.titles, Statement.titles_congr (hq q (List.mem_singleton_self q))]

theorem joinTitles_congr : ∀ {joins : List JoinClause},
    (∀ name, ∀ j ∈ joins, ∀ alias?, j.source = .table name alias? → ts.get? name = ts'.get? name) →
    (∀ j ∈ joins, ∀ q ∈ j.source.statements, ts.AgreeOn ts' q) →
    joinTitles ts joins = joinTitles ts' joins
  | [], _, _ => rfl
  | ⟨_, source, _⟩ :: joins, htable, hq => by
    have hsource : source.titles ts = source.titles ts' :=
      Source.titles_congr (fun name => htable name _ List.mem_cons_self) (hq _ List.mem_cons_self)
    have hjoins : joinTitles ts joins = joinTitles ts' joins :=
      joinTitles_congr (fun name j hj => htable name j (List.mem_cons_of_mem _ hj))
        fun j hj => hq j (List.mem_cons_of_mem _ hj)
    simp only [joinTitles, hsource, hjoins]

end

theorem Source.schema_congr {s : Source}
    (htable : ∀ name alias?, s = .table name alias? → ts.get? name = ts'.get? name)
    (hq : ∀ q ∈ s.statements, ts.AgreeOn ts' q) : s.schema ts = s.schema ts' := by
  cases s with
  | table name alias? => simp only [Source.schema, Tables.titlesOf, htable name alias? rfl]
  | query q alias? =>
    simp only [Source.schema, Statement.titles_congr (hq q (List.mem_singleton_self q))]

theorem scopeOf_congr {s : Statement} (h : ts.AgreeOn ts' s) :
    scopeOf ts s.items s.source s.joins = scopeOf ts' s.items s.source s.joins := by
  have hsource : s.source.schema ts = s.source.schema ts' :=
    Source.schema_congr (fun name _ he => h name (.source he)) fun q hq => h.within (.source hq)
  have hjoins : (s.joins.map fun j => j.source.schema ts) = s.joins.map fun j => j.source.schema ts' := by
    refine List.map_congr_left fun j hj => ?_
    exact Source.schema_congr (fun name _ he => h name (.joined hj he))
      fun q hq => h.within (.joined hj hq)
  unfold scopeOf
  rw [hsource, hjoins]

/-! ### Free columns -/

mutual

theorem Expr.freeColumns_congr (scopes : List Schema) : ∀ {e : Expr},
    (∀ q ∈ e.statements, ts.AgreeOn ts' q) → e.freeColumns ts scopes = e.freeColumns ts' scopes
  | .literal _, _ | .column .., _ | .bind _, _ | .star _, _ => by simp only [Expr.freeColumns]
  | .binary _ a b, h => by
    simp only [Expr.statements, List.forall_mem_append] at h
    simp only [Expr.freeColumns, Expr.freeColumns_congr scopes h.1, Expr.freeColumns_congr scopes h.2]
  | .unary _ a, h => by simp only [Expr.freeColumns, Expr.freeColumns_congr (e := a) scopes h]
  | .call _ _ args, h => by simp only [Expr.freeColumns, exprsFree_congr (l := args) scopes h]
  | .case branches otherwise, h => by
    simp only [Expr.statements, List.forall_mem_append] at h
    simp only [Expr.freeColumns, branchesFree_congr scopes h.1, optionalFree_congr scopes h.2]
  | .ite c a b, h => by
    simp only [Expr.statements, List.forall_mem_append] at h
    simp only [Expr.freeColumns, Condition.freeColumns_congr scopes h.1,
      Expr.freeColumns_congr scopes h.2.1, Expr.freeColumns_congr scopes h.2.2]
  | .subquery q, h => by
    simp only [Expr.freeColumns, Statement.freeColumns_congr scopes (h q (List.mem_singleton_self q))]
  | .list items, h => by simp only [Expr.freeColumns, exprsFree_congr (l := items) scopes h]
  | .paren a, h => by simp only [Expr.freeColumns, Expr.freeColumns_congr (e := a) scopes h]

theorem exprsFree_congr (scopes : List Schema) : ∀ {l : List Expr},
    (∀ q ∈ exprsStatements l, ts.AgreeOn ts' q) → exprsFree ts scopes l = exprsFree ts' scopes l
  | [], _ => rfl
  | e :: es, h => by
    simp only [exprsStatements, List.forall_mem_append] at h
    simp only [exprsFree, Expr.freeColumns_congr scopes h.1, exprsFree_congr scopes h.2]

theorem branchesFree_congr (scopes : List Schema) : ∀ {bs : List (Condition × Expr)},
    (∀ q ∈ branchesStatements bs, ts.AgreeOn ts' q) →
      branchesFree ts scopes bs = branchesFree ts' scopes bs
  | [], _ => rfl
  | (c, e) :: bs, h => by
    simp only [branchesStatements, List.forall_mem_append] at h
    simp only [branchesFree, Condition.freeColumns_congr scopes h.1,
      Expr.freeColumns_congr scopes h.2.1, branchesFree_congr scopes h.2.2]

theorem optionalFree_congr (scopes : List Schema) : ∀ {o : Option Expr},
    (∀ q ∈ elseStatements o, ts.AgreeOn ts' q) → optionalFree ts scopes o = optionalFree ts' scopes o
  | none, _ => rfl
  | some e, h => by simp only [optionalFree, Expr.freeColumns_congr (e := e) scopes h]

theorem Condition.freeColumns_congr (scopes : List Schema) : ∀ {c : Condition},
    (∀ q ∈ c.statements, ts.AgreeOn ts' q) → c.freeColumns ts scopes = c.freeColumns ts' scopes
  | .compare _ a b, h => by
    simp only [Condition.statements, List.forall_mem_append] at h
    simp only [Condition.freeColumns, Expr.freeColumns_congr scopes h.1,
      Expr.freeColumns_congr scopes h.2]
  | .logic _ terms, h => by simp only [Condition.freeColumns, termsFree_congr (l := terms) scopes h]
  | .not c, h => by simp only [Condition.freeColumns, Condition.freeColumns_congr (c := c) scopes h]
  | .exists _ q, h => by
    simp only [Condition.freeColumns,
      Statement.freeColumns_congr scopes (h q (List.mem_singleton_self q))]

theorem termsFree_congr (scopes : List Schema) : ∀ {l : List Condition},
    (∀ q ∈ termsStatements l, ts.AgreeOn ts' q) → termsFree ts scopes l = termsFree ts' scopes l
  | [], _ => rfl
  | c :: cs, h => by
    simp only [termsStatements, List.forall_mem_append] at h
    simp only [termsFree, Condition.freeColumns_congr scopes h.1, termsFree_congr scopes h.2]

theorem clauseFree_congr (scopes : List Schema) : ∀ {o : Option Condition},
    (∀ c, o = some c → ∀ q ∈ c.statements, ts.AgreeOn ts' q) →
      clauseFree ts scopes o = clauseFree ts' scopes o
  | none, _ => rfl
  | some c, h => by simp only [clauseFree, Condition.freeColumns_congr scopes (h c rfl)]

theorem Source.freeColumns_congr (scopes : List Schema) : ∀ {s : Source},
    (∀ q ∈ s.statements, ts.AgreeOn ts' q) → s.freeColumns ts scopes = s.freeColumns ts' scopes
  | .table .., _ => by simp only [Source.freeColumns]
  | .query q _, h => by
    simp only [Source.freeColumns,
      Statement.freeColumns_congr scopes (h q (List.mem_singleton_self q))]

theorem itemsFree_congr (scopes : List Schema) : ∀ {items : List SelectItem},
    (∀ i ∈ items, ∀ q ∈ i.expr.statements, ts.AgreeOn ts' q) →
      itemsFree ts scopes items = itemsFree ts' scopes items
  | [], _ => rfl
  | ⟨e, _, _⟩ :: items, h => by
    simp only [List.forall_mem_cons] at h
    simp only [itemsFree, Expr.freeColumns_congr scopes h.1, itemsFree_congr scopes h.2]

theorem joinsFree_congr (scopes : List Schema) : ∀ {joins : List JoinClause},
    (∀ j ∈ joins, ∀ q ∈ j.source.statements, ts.AgreeOn ts' q) →
    (∀ j ∈ joins, ∀ q ∈ j.condition.statements, ts.AgreeOn ts' q) →
      joinsFree ts scopes joins = joinsFree ts' scopes joins
  | [], _, _ => rfl
  | ⟨_, s, c⟩ :: joins, hs, hc => by
    simp only [List.forall_mem_cons] at hs hc
    simp only [joinsFree, Source.freeColumns_congr scopes hs.1, Condition.freeColumns_congr scopes hc.1,
      joinsFree_congr scopes hs.2 hc.2]

theorem ordersFree_congr (scopes : List Schema) : ∀ {orders : List OrderItem},
    (∀ o ∈ orders, ∀ q ∈ o.expr.statements, ts.AgreeOn ts' q) →
      ordersFree ts scopes orders = ordersFree ts' scopes orders
  | [], _ => rfl
  | ⟨e, _⟩ :: orders, h => by
    simp only [List.forall_mem_cons] at h
    simp only [ordersFree, Expr.freeColumns_congr scopes h.1, ordersFree_congr scopes h.2]

theorem operationsFree_congr (scopes : List Schema) : ∀ {operations : List SetOperation},
    (∀ o ∈ operations, ts.AgreeOn ts' o.statement) →
      operationsFree ts scopes operations = operationsFree ts' scopes operations
  | [], _ => rfl
  | ⟨_, s⟩ :: operations, h => by
    simp only [List.forall_mem_cons] at h
    simp only [operationsFree, Statement.freeColumns_congr scopes h.1, operationsFree_congr scopes h.2]

theorem Statement.freeColumns_congr (scopes : List Schema) : ∀ {q : Statement}, ts.AgreeOn ts' q →
    q.freeColumns ts scopes = q.freeColumns ts' scopes
  | ⟨distinct, items, source, joins, filter, groupBy, having, orderBy, limit, pivot, operations⟩, h => by
    have hscope : scopeOf ts items source joins = scopeOf ts' items source joins := scopeOf_congr h
    simp only [Statement.freeColumns, hscope]
    rw [Source.freeColumns_congr _ fun q hq => h.within (.source hq),
      joinsFree_congr _ (fun j hj q hq => h.within (.joined hj hq)) fun j hj q hq => h.within (.on hj hq),
      itemsFree_congr _ fun i hi q hq => h.within (.item hi hq),
      clauseFree_congr _ fun c hc q hq => h.within (.filter hc hq),
      exprsFree_congr _ fun q hq => h.within (.key hq),
      clauseFree_congr _ fun c hc q hq => h.within (.having hc hq),
      ordersFree_congr _ fun o ho q hq => h.within (.orderBy ho hq),
      optionalFree_congr _ fun q hq => h.within (.pivoting hq),
      operationsFree_congr _ fun o ho => h.within (.operation ho)]

end

/-! ### Copies for an outer row -/

section Copies

variable (cell : String → Option Cell)

mutual

theorem Expr.bindOuter_congr (scopes : List Schema) : ∀ {e : Expr},
    (∀ q ∈ e.statements, ts.AgreeOn ts' q) → e.bindOuter ts cell scopes = e.bindOuter ts' cell scopes
  | .literal _, _ | .column .., _ | .bind _, _ | .star _, _ => by simp only [Expr.bindOuter]
  | .binary _ a b, h => by
    simp only [Expr.statements, List.forall_mem_append] at h
    simp only [Expr.bindOuter, Expr.bindOuter_congr scopes h.1, Expr.bindOuter_congr scopes h.2]
  | .unary _ a, h => by simp only [Expr.bindOuter, Expr.bindOuter_congr (e := a) scopes h]
  | .call _ _ args, h => by simp only [Expr.bindOuter, exprsBind_congr (l := args) scopes h]
  | .case branches otherwise, h => by
    simp only [Expr.statements, List.forall_mem_append] at h
    simp only [Expr.bindOuter, branchesBind_congr scopes h.1, optionalBind_congr scopes h.2]
  | .ite c a b, h => by
    simp only [Expr.statements, List.forall_mem_append] at h
    simp only [Expr.bindOuter, Condition.bindOuter_congr scopes h.1,
      Expr.bindOuter_congr scopes h.2.1, Expr.bindOuter_congr scopes h.2.2]
  | .subquery q, h => by
    simp only [Expr.bindOuter, Statement.bindIn_congr scopes (h q (List.mem_singleton_self q))]
  | .list items, h => by simp only [Expr.bindOuter, exprsBind_congr (l := items) scopes h]
  | .paren a, h => by simp only [Expr.bindOuter, Expr.bindOuter_congr (e := a) scopes h]

theorem exprsBind_congr (scopes : List Schema) : ∀ {l : List Expr},
    (∀ q ∈ exprsStatements l, ts.AgreeOn ts' q) →
      exprsBind ts cell scopes l = exprsBind ts' cell scopes l
  | [], _ => rfl
  | e :: es, h => by
    simp only [exprsStatements, List.forall_mem_append] at h
    simp only [exprsBind, Expr.bindOuter_congr scopes h.1, exprsBind_congr scopes h.2]

theorem branchesBind_congr (scopes : List Schema) : ∀ {bs : List (Condition × Expr)},
    (∀ q ∈ branchesStatements bs, ts.AgreeOn ts' q) →
      branchesBind ts cell scopes bs = branchesBind ts' cell scopes bs
  | [], _ => rfl
  | (c, e) :: bs, h => by
    simp only [branchesStatements, List.forall_mem_append] at h
    simp only [branchesBind, Condition.bindOuter_congr scopes h.1, Expr.bindOuter_congr scopes h.2.1,
      branchesBind_congr scopes h.2.2]

theorem optionalBind_congr (scopes : List Schema) : ∀ {o : Option Expr},
    (∀ q ∈ elseStatements o, ts.AgreeOn ts' q) →
      optionalBind ts cell scopes o = optionalBind ts' cell scopes o
  | none, _ => rfl
  | some e, h => by simp only [optionalBind, Expr.bindOuter_congr (e := e) scopes h]

theorem Condition.bindOuter_congr (scopes : List Schema) : ∀ {c : Condition},
    (∀ q ∈ c.statements, ts.AgreeOn ts' q) → c.bindOuter ts cell scopes = c.bindOuter ts' cell scopes
  | .compare _ a b, h => by
    simp only [Condition.statements, List.forall_mem_append] at h
    simp only [Condition.bindOuter, Expr.bindOuter_congr scopes h.1, Expr.bindOuter_congr scopes h.2]
  | .logic _ terms, h => by simp only [Condition.bindOuter, termsBind_congr (l := terms) scopes h]
  | .not c, h => by simp only [Condition.bindOuter, Condition.bindOuter_congr (c := c) scopes h]
  | .exists _ q, h => by
    simp only [Condition.bindOuter, Statement.bindIn_congr scopes (h q (List.mem_singleton_self q))]

theorem termsBind_congr (scopes : List Schema) : ∀ {l : List Condition},
    (∀ q ∈ termsStatements l, ts.AgreeOn ts' q) →
      termsBind ts cell scopes l = termsBind ts' cell scopes l
  | [], _ => rfl
  | c :: cs, h => by
    simp only [termsStatements, List.forall_mem_append] at h
    simp only [termsBind, Condition.bindOuter_congr scopes h.1, termsBind_congr scopes h.2]

theorem clauseBind_congr (scopes : List Schema) : ∀ {o : Option Condition},
    (∀ c, o = some c → ∀ q ∈ c.statements, ts.AgreeOn ts' q) →
      clauseBind ts cell scopes o = clauseBind ts' cell scopes o
  | none, _ => rfl
  | some c, h => by simp only [clauseBind, Condition.bindOuter_congr scopes (h c rfl)]

theorem Source.bindOuter_congr (scopes : List Schema) : ∀ {s : Source},
    (∀ q ∈ s.statements, ts.AgreeOn ts' q) → s.bindOuter ts cell scopes = s.bindOuter ts' cell scopes
  | .table .., _ => by simp only [Source.bindOuter]
  | .query q _, h => by
    simp only [Source.bindOuter, Statement.bindIn_congr scopes (h q (List.mem_singleton_self q))]

theorem itemsBind_congr (scopes : List Schema) : ∀ {items : List SelectItem},
    (∀ i ∈ items, ∀ q ∈ i.expr.statements, ts.AgreeOn ts' q) →
      itemsBind ts cell scopes items = itemsBind ts' cell scopes items
  | [], _ => rfl
  | ⟨e, _, _⟩ :: items, h => by
    simp only [List.forall_mem_cons] at h
    simp only [itemsBind, Expr.bindOuter_congr scopes h.1, itemsBind_congr scopes h.2]

theorem joinsBind_congr (scopes : List Schema) : ∀ {joins : List JoinClause},
    (∀ j ∈ joins, ∀ q ∈ j.source.statements, ts.AgreeOn ts' q) →
    (∀ j ∈ joins, ∀ q ∈ j.condition.statements, ts.AgreeOn ts' q) →
      joinsBind ts cell scopes joins = joinsBind ts' cell scopes joins
  | [], _, _ => rfl
  | ⟨_, s, c⟩ :: joins, hs, hc => by
    simp only [List.forall_mem_cons] at hs hc
    simp only [joinsBind, Source.bindOuter_congr scopes hs.1, Condition.bindOuter_congr scopes hc.1,
      joinsBind_congr scopes hs.2 hc.2]

theorem ordersBind_congr (scopes : List Schema) : ∀ {orders : List OrderItem},
    (∀ o ∈ orders, ∀ q ∈ o.expr.statements, ts.AgreeOn ts' q) →
      ordersBind ts cell scopes orders = ordersBind ts' cell scopes orders
  | [], _ => rfl
  | ⟨e, _⟩ :: orders, h => by
    simp only [List.forall_mem_cons] at h
    simp only [ordersBind, Expr.bindOuter_congr scopes h.1, ordersBind_congr scopes h.2]

theorem operationsBind_congr (scopes : List Schema) : ∀ {operations : List SetOperation},
    (∀ o ∈ operations, ts.AgreeOn ts' o.statement) →
      operationsBind ts cell scopes operations = operationsBind ts' cell scopes operations
  | [], _ => rfl
  | ⟨_, s⟩ :: operations, h => by
    simp only [List.forall_mem_cons] at h
    simp only [operationsBind, Statement.bindIn_congr scopes h.1, operationsBind_congr scopes h.2]

theorem Statement.bindIn_congr (scopes : List Schema) : ∀ {q : Statement}, ts.AgreeOn ts' q →
    q.bindIn ts cell scopes = q.bindIn ts' cell scopes
  | ⟨distinct, items, source, joins, filter, groupBy, having, orderBy, limit, pivot, operations⟩, h => by
    have hscope : scopeOf ts items source joins = scopeOf ts' items source joins := scopeOf_congr h
    simp only [Statement.bindIn, hscope]
    rw [itemsBind_congr _ fun i hi q hq => h.within (.item hi hq),
      Source.bindOuter_congr _ fun q hq => h.within (.source hq),
      joinsBind_congr _ (fun j hj q hq => h.within (.joined hj hq)) fun j hj q hq => h.within (.on hj hq),
      clauseBind_congr _ fun c hc q hq => h.within (.filter hc hq),
      exprsBind_congr _ fun q hq => h.within (.key hq),
      clauseBind_congr _ fun c hc q hq => h.within (.having hc hq),
      ordersBind_congr _ fun o ho q hq => h.within (.orderBy ho hq),
      optionalBind_congr _ fun q hq => h.within (.pivoting hq),
      operationsBind_congr _ fun o ho => h.within (.operation ho)]

end

end Copies

theorem isCorrelated_congr {q : Statement} (h : ts.AgreeOn ts' q) (outer : Table) :
    q.isCorrelated ts outer = q.isCorrelated ts' outer := by
  unfold Statement.isCorrelated
  rw [Statement.freeColumns_congr [] h]

theorem bindOuter_congr {q : Statement} (h : ts.AgreeOn ts' q) (outer : Table) (row : Nat) :
    q.bindOuter ts outer row = q.bindOuter ts' outer row :=
  Statement.bindIn_congr _ [] h

end Agreeing

/-! ### What stands within a copy -/

section Within

variable (ts : Tables) (cell : String → Option Cell)

theorem outerExpr_statements (scopes : List Schema) (table : Option String) (name : String) :
    (outerExpr scopes cell table name).statements = [] := by
  unfold outerExpr
  split
  · simp only [Expr.statements]
  · split <;> simp only [Expr.statements]

mutual

/-- Binding copies the statements within an expression and brings no others. -/
theorem Expr.statements_bindOuter (scopes : List Schema) : ∀ e : Expr,
    (e.bindOuter ts cell scopes).statements = e.statements.map (Statement.bindIn ts cell scopes)
  | .literal _ | .bind _ | .star _ => by simp only [Expr.bindOuter, Expr.statements, List.map_nil]
  | .column table name => by
    simp only [Expr.bindOuter, Expr.statements, outerExpr_statements, List.map_nil]
  | .binary _ a b => by
    simp only [Expr.bindOuter, Expr.statements, List.map_append, Expr.statements_bindOuter scopes a,
      Expr.statements_bindOuter scopes b]
  | .unary _ a => by simp only [Expr.bindOuter, Expr.statements, Expr.statements_bindOuter scopes a]
  | .call _ _ args => by
    simp only [Expr.bindOuter, Expr.statements, exprsStatements_bind scopes args]
  | .case branches otherwise => by
    simp only [Expr.bindOuter, Expr.statements, List.map_append, branchesStatements_bind scopes branches,
      elseStatements_bind scopes otherwise]
  | .ite c a b => by
    simp only [Expr.bindOuter, Expr.statements, List.map_append, Condition.statements_bindOuter scopes c,
      Expr.statements_bindOuter scopes a, Expr.statements_bindOuter scopes b]
  | .subquery q => by simp only [Expr.bindOuter, Expr.statements, List.map_cons, List.map_nil]
  | .list items => by simp only [Expr.bindOuter, Expr.statements, exprsStatements_bind scopes items]
  | .paren a => by simp only [Expr.bindOuter, Expr.statements, Expr.statements_bindOuter scopes a]

theorem exprsStatements_bind (scopes : List Schema) : ∀ es : List Expr,
    exprsStatements (exprsBind ts cell scopes es) =
      (exprsStatements es).map (Statement.bindIn ts cell scopes)
  | [] => rfl
  | e :: es => by
    simp only [exprsBind, exprsStatements, List.map_append, Expr.statements_bindOuter scopes e,
      exprsStatements_bind scopes es]

theorem branchesStatements_bind (scopes : List Schema) : ∀ bs : List (Condition × Expr),
    branchesStatements (branchesBind ts cell scopes bs) =
      (branchesStatements bs).map (Statement.bindIn ts cell scopes)
  | [] => rfl
  | (c, e) :: bs => by
    simp only [branchesBind, branchesStatements, List.map_append,
      Condition.statements_bindOuter scopes c, Expr.statements_bindOuter scopes e,
      branchesStatements_bind scopes bs]

theorem elseStatements_bind (scopes : List Schema) : ∀ o : Option Expr,
    elseStatements (optionalBind ts cell scopes o) =
      (elseStatements o).map (Statement.bindIn ts cell scopes)
  | none => rfl
  | some e => by simp only [optionalBind, elseStatements, Expr.statements_bindOuter scopes e]

theorem Condition.statements_bindOuter (scopes : List Schema) : ∀ c : Condition,
    (c.bindOuter ts cell scopes).statements = c.statements.map (Statement.bindIn ts cell scopes)
  | .compare _ a b => by
    simp only [Condition.bindOuter, Condition.statements, List.map_append,
      Expr.statements_bindOuter scopes a, Expr.statements_bindOuter scopes b]
  | .logic _ terms => by
    simp only [Condition.bindOuter, Condition.statements, termsStatements_bind scopes terms]
  | .not c => by
    simp only [Condition.bindOuter, Condition.statements, Condition.statements_bindOuter scopes c]
  | .exists _ q => by
    simp only [Condition.bindOuter, Condition.statements, List.map_cons, List.map_nil]

theorem termsStatements_bind (scopes : List Schema) : ∀ cs : List Condition,
    termsStatements (termsBind ts cell scopes cs) =
      (termsStatements cs).map (Statement.bindIn ts cell scopes)
  | [] => rfl
  | c :: cs => by
    simp only [termsBind, termsStatements, List.map_append, Condition.statements_bindOuter scopes c,
      termsStatements_bind scopes cs]

end

theorem exprsBind_eq_map (scopes : List Schema) (es : List Expr) :
    exprsBind ts cell scopes es = es.map (Expr.bindOuter ts cell scopes) := by
  induction es with
  | nil => rfl
  | cons e es ih => rw [exprsBind, ih, List.map_cons]

theorem itemsBind_eq_map (scopes : List Schema) (items : List SelectItem) :
    itemsBind ts cell scopes items =
      items.map fun i => ⟨i.expr.bindOuter ts cell scopes, i.text, i.alias?⟩ := by
  induction items with
  | nil => rfl
  | cons item items ih =>
    cases item
    simp only [itemsBind, List.map_cons, ih]

theorem joinsBind_eq_map (scopes : List Schema) (joins : List JoinClause) :
    joinsBind ts cell scopes joins = joins.map fun j =>
      ⟨j.kind, j.source.bindOuter ts cell scopes, j.condition.bindOuter ts cell scopes⟩ := by
  induction joins with
  | nil => rfl
  | cons join joins ih =>
    cases join
    simp only [joinsBind, List.map_cons, ih]

theorem ordersBind_eq_map (scopes : List Schema) (orders : List OrderItem) :
    ordersBind ts cell scopes orders =
      orders.map fun o => ⟨o.expr.bindOuter ts cell scopes, o.direction⟩ := by
  induction orders with
  | nil => rfl
  | cons order orders ih =>
    cases order
    simp only [ordersBind, List.map_cons, ih]

theorem operationsBind_eq_map (scopes : List Schema) (operations : List SetOperation) :
    operationsBind ts cell scopes operations =
      operations.map fun o => ⟨o.operator, o.statement.bindIn ts cell scopes⟩ := by
  induction operations with
  | nil => rfl
  | cons operation operations ih =>
    cases operation
    simp only [operationsBind, List.map_cons, ih]

theorem clauseBind_eq_map (scopes : List Schema) (c : Option Condition) :
    clauseBind ts cell scopes c = c.map fun c => c.bindOuter ts cell scopes := by
  cases c <;> rfl

theorem Source.statements_bindOuter (scopes : List Schema) (s : Source) :
    (s.bindOuter ts cell scopes).statements = s.statements.map (Statement.bindIn ts cell scopes) := by
  cases s <;> rfl

variable {ts cell}

theorem exists_original {s p : Statement} {qs : List Statement} {inner : List Schema}
    (hp : p ∈ qs.map (Statement.bindIn ts cell inner)) (hw : ∀ q ∈ qs, s.Within q) :
    ∃ q scopes, s.Within q ∧ p = q.bindIn ts cell scopes := by
  obtain ⟨q, hq, rfl⟩ := List.mem_map.mp hp
  exact ⟨q, inner, hw q hq, rfl⟩

/-- The statements within a copy are copies of those within the original. -/
theorem Statement.within_of_bindIn {scopes : List Schema} : ∀ {q p : Statement},
    (q.bindIn ts cell scopes).Within p → ∃ p' scopes', q.Within p' ∧ p = p'.bindIn ts cell scopes'
  | ⟨_, items, source, joins, filter, groupBy, having, orderBy, _, pivot, operations⟩, p, h => by
    simp only [Statement.bindIn] at h
    cases h with
    | source hp =>
      rw [Source.statements_bindOuter] at hp
      exact exists_original hp fun _ hq => .source hq
    | joined hj hp =>
      rw [joinsBind_eq_map] at hj
      obtain ⟨j, hj', rfl⟩ := List.mem_map.mp hj
      rw [Source.statements_bindOuter] at hp
      exact exists_original hp fun _ hq => .joined hj' hq
    | on hj hp =>
      rw [joinsBind_eq_map] at hj
      obtain ⟨j, hj', rfl⟩ := List.mem_map.mp hj
      rw [Condition.statements_bindOuter] at hp
      exact exists_original hp fun _ hq => .on hj' hq
    | item hi hp =>
      rw [itemsBind_eq_map] at hi
      obtain ⟨i, hi', rfl⟩ := List.mem_map.mp hi
      rw [Expr.statements_bindOuter] at hp
      exact exists_original hp fun _ hq => .item hi' hq
    | filter hc hp =>
      simp only [clauseBind_eq_map, Option.map_eq_some_iff] at hc
      obtain ⟨c, hc', rfl⟩ := hc
      rw [Condition.statements_bindOuter] at hp
      exact exists_original hp fun _ hq => .filter hc' hq
    | groupBy he hp =>
      have hkey := mem_exprsStatements.mpr ⟨_, he, hp⟩
      rw [exprsStatements_bind] at hkey
      exact exists_original hkey fun _ hq => .key hq
    | having hc hp =>
      simp only [clauseBind_eq_map, Option.map_eq_some_iff] at hc
      obtain ⟨c, hc', rfl⟩ := hc
      rw [Condition.statements_bindOuter] at hp
      exact exists_original hp fun _ hq => .having hc' hq
    | orderBy ho hp =>
      rw [ordersBind_eq_map] at ho
      obtain ⟨o, ho', rfl⟩ := List.mem_map.mp ho
      rw [Expr.statements_bindOuter] at hp
      exact exists_original hp fun _ hq => .orderBy ho' hq
    | pivot he hp =>
      have hpivot : p ∈ elseStatements (some _) := hp
      rw [← he, elseStatements_bind] at hpivot
      exact exists_original hpivot fun _ hq => .pivoting hq
    | operation ho =>
      rw [operationsBind_eq_map] at ho
      obtain ⟨o, ho', rfl⟩ := List.mem_map.mp ho
      exact ⟨o.statement, scopes, .operation ho', rfl⟩

theorem Source.eq_table_of_bindOuter {scopes : List Schema} {s : Source} {name : String}
    {alias? : Option String} (h : s.bindOuter ts cell scopes = .table name alias?) :
    s = .table name alias? := by
  cases s with
  | table name' alias' => exact h
  | query q alias' => cases h

/-- A copy names no other tables than the original. -/
theorem Statement.names_of_bindIn {scopes : List Schema} {q : Statement} {name : String}
    (h : (q.bindIn ts cell scopes).Names name) : q.Names name := by
  generalize hs : q.bindIn ts cell scopes = s at h
  induction h generalizing q scopes with
  | source he =>
    subst hs
    obtain ⟨distinct, items, source, joins, filter, groupBy, having, orderBy, limit, pivot, operations⟩ := q
    exact .source (Source.eq_table_of_bindOuter he)
  | joined hj he =>
    subst hs
    obtain ⟨distinct, items, source, joins, filter, groupBy, having, orderBy, limit, pivot, operations⟩ := q
    simp only [Statement.bindIn, joinsBind_eq_map] at hj
    obtain ⟨j, hj', rfl⟩ := List.mem_map.mp hj
    exact .joined hj' (Source.eq_table_of_bindOuter he)
  | within hw _ ih =>
    subst hs
    obtain ⟨p, scopes', hp, rfl⟩ := Statement.within_of_bindIn hw
    exact .within hp (ih rfl)

theorem Tables.AgreeOn.bindIn {ts₁ ts₂ : Tables} {q : Statement} (h : ts₁.AgreeOn ts₂ q)
    (scopes : List Schema) : ts₁.AgreeOn ts₂ (q.bindIn ts cell scopes) :=
  fun name hname => h name (Statement.names_of_bindIn hname)

end Within

end GridQuery
