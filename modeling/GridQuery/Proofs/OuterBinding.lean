import GridQuery.Outer

/-!
Statements closed over an outer row. Binding puts literals in the place of columns and nothing else, so
the titles and scopes that decide which columns are free stay what they were. A bound statement has no
free column left that the outer table knows.
-/

namespace GridQuery
set_option autoImplicit false

section Becomes

variable (ts : Tables) (R : List Schema → Option String → String → Expr → Prop)

mutual

/-- The second expression is the first one with some columns replaced: `R` says, by the scopes around
it, what may stand in the place of a column. -/
inductive Expr.Becomes : List Schema → Expr → Expr → Prop where
  | literal {scopes} (c : Cell) : Expr.Becomes scopes (.literal c) (.literal c)
  | column {scopes table name e} : R scopes table name e → Expr.Becomes scopes (.column table name) e
  | bind {scopes} (n : Nat) : Expr.Becomes scopes (.bind n) (.bind n)
  | binary {scopes op a b a' b'} : Expr.Becomes scopes a a' → Expr.Becomes scopes b b' →
      Expr.Becomes scopes (.binary op a b) (.binary op a' b')
  | unary {scopes sign a a'} : Expr.Becomes scopes a a' →
      Expr.Becomes scopes (.unary sign a) (.unary sign a')
  | call {scopes name distinct args args'} : args.length = args'.length →
      (∀ p ∈ args.zip args', Expr.Becomes scopes p.1 p.2) →
      Expr.Becomes scopes (.call name distinct args) (.call name distinct args')
  | case {scopes branches branches' otherwise otherwise'} : branches.length = branches'.length →
      (∀ p ∈ branches.zip branches', Condition.Becomes scopes p.1.1 p.2.1) →
      (∀ p ∈ branches.zip branches', Expr.Becomes scopes p.1.2 p.2.2) →
      otherwise.isSome = otherwise'.isSome →
      (∀ e ∈ otherwise, ∀ e' ∈ otherwise', Expr.Becomes scopes e e') →
      Expr.Becomes scopes (.case branches otherwise) (.case branches' otherwise')
  | ite {scopes c a b c' a' b'} : Condition.Becomes scopes c c' → Expr.Becomes scopes a a' →
      Expr.Becomes scopes b b' → Expr.Becomes scopes (.ite c a b) (.ite c' a' b')
  | subquery {scopes q q'} : Statement.Becomes scopes q q' →
      Expr.Becomes scopes (.subquery q) (.subquery q')
  | list {scopes items items'} : items.length = items'.length →
      (∀ p ∈ items.zip items', Expr.Becomes scopes p.1 p.2) →
      Expr.Becomes scopes (.list items) (.list items')
  | star {scopes} (table : Option String) : Expr.Becomes scopes (.star table) (.star table)
  | paren {scopes a a'} : Expr.Becomes scopes a a' → Expr.Becomes scopes (.paren a) (.paren a')

inductive Condition.Becomes : List Schema → Condition → Condition → Prop where
  | compare {scopes op a b a' b'} : Expr.Becomes scopes a a' → Expr.Becomes scopes b b' →
      Condition.Becomes scopes (.compare op a b) (.compare op a' b')
  | logic {scopes op terms terms'} : terms.length = terms'.length →
      (∀ p ∈ terms.zip terms', Condition.Becomes scopes p.1 p.2) →
      Condition.Becomes scopes (.logic op terms) (.logic op terms')
  | not {scopes c c'} : Condition.Becomes scopes c c' → Condition.Becomes scopes (.not c) (.not c')
  | exists {scopes negated q q'} : Statement.Becomes scopes q q' →
      Condition.Becomes scopes (.exists negated q) (.exists negated q')

inductive Source.Becomes : List Schema → Source → Source → Prop where
  | table {scopes} (name : String) (alias? : Option String) :
      Source.Becomes scopes (.table name alias?) (.table name alias?)
  | query {scopes q q' alias?} : Statement.Becomes scopes q q' →
      Source.Becomes scopes (.query q alias?) (.query q' alias?)

/-- The clauses stand within the statement's own scope, the operands of its set operations do not. -/
inductive Statement.Becomes : List Schema → Statement → Statement → Prop where
  | intro {scopes inner} {s s' : Statement} :
      inner = scopeOf ts s.items s.source s.joins ++ scopes →
      s.distinct = s'.distinct → s.limit = s'.limit →
      s.items.map SelectItem.text = s'.items.map SelectItem.text →
      s.items.map SelectItem.alias? = s'.items.map SelectItem.alias? →
      (∀ p ∈ s.items.zip s'.items, Expr.Becomes inner p.1.expr p.2.expr) →
      Source.Becomes inner s.source s'.source →
      s.joins.map JoinClause.kind = s'.joins.map JoinClause.kind →
      (∀ p ∈ s.joins.zip s'.joins, Source.Becomes inner p.1.source p.2.source) →
      (∀ p ∈ s.joins.zip s'.joins, Condition.Becomes inner p.1.condition p.2.condition) →
      s.filter.isSome = s'.filter.isSome →
      (∀ c ∈ s.filter, ∀ c' ∈ s'.filter, Condition.Becomes inner c c') →
      s.groupBy.length = s'.groupBy.length →
      (∀ p ∈ s.groupBy.zip s'.groupBy, Expr.Becomes inner p.1 p.2) →
      s.having.isSome = s'.having.isSome →
      (∀ c ∈ s.having, ∀ c' ∈ s'.having, Condition.Becomes inner c c') →
      s.orderBy.map OrderItem.direction = s'.orderBy.map OrderItem.direction →
      (∀ p ∈ s.orderBy.zip s'.orderBy, Expr.Becomes inner p.1.expr p.2.expr) →
      s.pivot.isSome = s'.pivot.isSome →
      (∀ e ∈ s.pivot, ∀ e' ∈ s'.pivot, Expr.Becomes inner e e') →
      s.operations.map SetOperation.operator = s'.operations.map SetOperation.operator →
      (∀ p ∈ s.operations.zip s'.operations, Statement.Becomes scopes p.1.statement p.2.statement) →
      Statement.Becomes scopes s s'

end

end Becomes

variable (ts : Tables) (cell : String → Option Cell)

/-! ### Titles and scopes -/

/-- Binding makes no star and takes none away. -/
theorem itemTitles_bindOuter (scopes : List Schema) (sources : List (String × List String))
    (e : Expr) (text : String) (alias? : Option String) :
    itemTitles sources ⟨e.bindOuter ts cell scopes, text, alias?⟩ =
      itemTitles sources ⟨e, text, alias?⟩ := by
  cases e <;> try rfl
  case column table name =>
    simp only [Expr.bindOuter, outerExpr]
    split
    · rfl
    · split <;> rfl

theorem flatMap_itemTitles_bind (scopes : List Schema) (sources : List (String × List String)) :
    ∀ items : List SelectItem, (itemsBind ts cell scopes items).flatMap (itemTitles sources) =
      items.flatMap (itemTitles sources)
  | [] => rfl
  | ⟨e, text, alias?⟩ :: items => by
    simp only [itemsBind, List.flatMap_cons, itemTitles_bindOuter, flatMap_itemTitles_bind]

theorem referenceName_bindOuter (scopes : List Schema) (s : Source) :
    (s.bindOuter ts cell scopes).referenceName = s.referenceName := by
  cases s <;> rfl

mutual

theorem Statement.titles_bindIn (scopes : List Schema) :
    ∀ q : Statement, (q.bindIn ts cell scopes).titles ts = q.titles ts
  | ⟨_, items, source, joins, _, _, _, _, _, _, _⟩ => by
    simp only [Statement.bindIn, Statement.titles, flatMap_itemTitles_bind,
      referenceName_bindOuter, Source.titles_bindOuter, joinTitles_bind]

theorem Source.titles_bindOuter (scopes : List Schema) :
    ∀ s : Source, (s.bindOuter ts cell scopes).titles ts = s.titles ts
  | .table _ _ => rfl
  | .query q _ => Statement.titles_bindIn scopes q

theorem joinTitles_bind (scopes : List Schema) :
    ∀ joins : List JoinClause, joinTitles ts (joinsBind ts cell scopes joins) = joinTitles ts joins
  | [] => rfl
  | ⟨_, source, _⟩ :: joins => by
    simp only [joinsBind, joinTitles, referenceName_bindOuter, Source.titles_bindOuter,
      joinTitles_bind]

end

theorem Source.schema_bindOuter (scopes : List Schema) (s : Source) :
    (s.bindOuter ts cell scopes).schema ts = s.schema ts := by
  cases s with
  | table name alias? => rfl
  | query q alias? => simp only [Source.bindOuter, Source.schema, Statement.titles_bindIn]

theorem map_schema_bind (scopes : List Schema) :
    ∀ joins : List JoinClause, (joinsBind ts cell scopes joins).map (fun j => j.source.schema ts) =
      joins.map fun j => j.source.schema ts
  | [] => rfl
  | ⟨_, source, _⟩ :: joins => by
    simp only [joinsBind, List.map_cons, Source.schema_bindOuter, map_schema_bind]

theorem filterMap_alias_bind (scopes : List Schema) :
    ∀ items : List SelectItem, (itemsBind ts cell scopes items).filterMap SelectItem.alias? =
      items.filterMap SelectItem.alias?
  | [] => rfl
  | ⟨e, text, alias?⟩ :: items => by
    simp only [itemsBind, List.filterMap_cons, filterMap_alias_bind]

/-- A bound statement shows its clauses the scope it had. -/
theorem scopeOf_bind (scopes : List Schema) (items : List SelectItem) (source : Source)
    (joins : List JoinClause) :
    scopeOf ts (itemsBind ts cell scopes items) (source.bindOuter ts cell scopes)
      (joinsBind ts cell scopes joins) = scopeOf ts items source joins := by
  simp only [scopeOf, Source.schema_bindOuter, map_schema_bind, filterMap_alias_bind]

/-! ### Free columns -/

section Free

mutual

/-- What binding leaves free is what was free and has no cell. -/
theorem Expr.freeColumns_bindOuter (scopes : List Schema) : ∀ e : Expr,
    (e.bindOuter ts cell scopes).freeColumns ts scopes =
      (e.freeColumns ts scopes).filter fun s => (cell s).isNone
  | .literal _ => rfl
  | .column table name => by
    simp only [Expr.bindOuter, outerExpr, Expr.freeColumns]
    by_cases known : knownIn scopes (columnSpelling table name)
    · simp [known, Expr.freeColumns]
    · cases found : cell (columnSpelling table name) <;> simp [known, found, Expr.freeColumns]
  | .bind _ => rfl
  | .binary _ a b => by
    simp only [Expr.bindOuter, Expr.freeColumns, List.filter_append, Expr.freeColumns_bindOuter]
  | .unary _ a => Expr.freeColumns_bindOuter scopes a
  | .call _ _ args => exprsFree_bind scopes args
  | .case branches otherwise => by
    simp only [Expr.bindOuter, Expr.freeColumns, List.filter_append, branchesFree_bind,
      optionalFree_bind]
  | .ite c a b => by
    simp only [Expr.bindOuter, Expr.freeColumns, List.filter_append, Expr.freeColumns_bindOuter,
      Condition.freeColumns_bindOuter]
  | .subquery q => Statement.freeColumns_bindIn scopes q
  | .list items => exprsFree_bind scopes items
  | .star _ => rfl
  | .paren a => Expr.freeColumns_bindOuter scopes a

theorem exprsFree_bind (scopes : List Schema) : ∀ es : List Expr,
    exprsFree ts scopes (exprsBind ts cell scopes es) =
      (exprsFree ts scopes es).filter fun s => (cell s).isNone
  | [] => rfl
  | e :: es => by
    simp only [exprsBind, exprsFree, List.filter_append, Expr.freeColumns_bindOuter,
      exprsFree_bind]

theorem branchesFree_bind (scopes : List Schema) : ∀ bs : List (Condition × Expr),
    branchesFree ts scopes (branchesBind ts cell scopes bs) =
      (branchesFree ts scopes bs).filter fun s => (cell s).isNone
  | [] => rfl
  | (c, e) :: bs => by
    simp only [branchesBind, branchesFree, List.filter_append, Expr.freeColumns_bindOuter,
      Condition.freeColumns_bindOuter, branchesFree_bind]

theorem optionalFree_bind (scopes : List Schema) : ∀ e : Option Expr,
    optionalFree ts scopes (optionalBind ts cell scopes e) =
      (optionalFree ts scopes e).filter fun s => (cell s).isNone
  | none => rfl
  | some e => Expr.freeColumns_bindOuter scopes e

theorem Condition.freeColumns_bindOuter (scopes : List Schema) : ∀ c : Condition,
    (c.bindOuter ts cell scopes).freeColumns ts scopes =
      (c.freeColumns ts scopes).filter fun s => (cell s).isNone
  | .compare _ a b => by
    simp only [Condition.bindOuter, Condition.freeColumns, List.filter_append,
      Expr.freeColumns_bindOuter]
  | .logic _ terms => termsFree_bind scopes terms
  | .not c => Condition.freeColumns_bindOuter scopes c
  | .exists _ q => Statement.freeColumns_bindIn scopes q

theorem termsFree_bind (scopes : List Schema) : ∀ cs : List Condition,
    termsFree ts scopes (termsBind ts cell scopes cs) =
      (termsFree ts scopes cs).filter fun s => (cell s).isNone
  | [] => rfl
  | c :: cs => by
    simp only [termsBind, termsFree, List.filter_append, Condition.freeColumns_bindOuter,
      termsFree_bind]

theorem clauseFree_bind (scopes : List Schema) : ∀ c : Option Condition,
    clauseFree ts scopes (clauseBind ts cell scopes c) =
      (clauseFree ts scopes c).filter fun s => (cell s).isNone
  | none => rfl
  | some c => Condition.freeColumns_bindOuter scopes c

theorem Source.freeColumns_bindOuter (scopes : List Schema) : ∀ s : Source,
    (s.bindOuter ts cell scopes).freeColumns ts scopes =
      (s.freeColumns ts scopes).filter fun s => (cell s).isNone
  | .table _ _ => rfl
  | .query q _ => Statement.freeColumns_bindIn scopes q

theorem itemsFree_bind (scopes : List Schema) : ∀ items : List SelectItem,
    itemsFree ts scopes (itemsBind ts cell scopes items) =
      (itemsFree ts scopes items).filter fun s => (cell s).isNone
  | [] => rfl
  | ⟨e, _, _⟩ :: items => by
    simp only [itemsBind, itemsFree, List.filter_append, Expr.freeColumns_bindOuter,
      itemsFree_bind]

theorem joinsFree_bind (scopes : List Schema) : ∀ joins : List JoinClause,
    joinsFree ts scopes (joinsBind ts cell scopes joins) =
      (joinsFree ts scopes joins).filter fun s => (cell s).isNone
  | [] => rfl
  | ⟨_, s, c⟩ :: joins => by
    simp only [joinsBind, joinsFree, List.filter_append, Source.freeColumns_bindOuter,
      Condition.freeColumns_bindOuter, joinsFree_bind]

theorem ordersFree_bind (scopes : List Schema) : ∀ orders : List OrderItem,
    ordersFree ts scopes (ordersBind ts cell scopes orders) =
      (ordersFree ts scopes orders).filter fun s => (cell s).isNone
  | [] => rfl
  | ⟨e, _⟩ :: orders => by
    simp only [ordersBind, ordersFree, List.filter_append, Expr.freeColumns_bindOuter,
      ordersFree_bind]

theorem operationsFree_bind (scopes : List Schema) : ∀ operations : List SetOperation,
    operationsFree ts scopes (operationsBind ts cell scopes operations) =
      (operationsFree ts scopes operations).filter fun s => (cell s).isNone
  | [] => rfl
  | ⟨_, s⟩ :: operations => by
    simp only [operationsBind, operationsFree, List.filter_append, Statement.freeColumns_bindIn,
      operationsFree_bind]

theorem Statement.freeColumns_bindIn (scopes : List Schema) : ∀ q : Statement,
    (q.bindIn ts cell scopes).freeColumns ts scopes =
      (q.freeColumns ts scopes).filter fun s => (cell s).isNone
  | ⟨_, items, source, joins, filter, groupBy, having, orderBy, _, pivot, operations⟩ => by
    simp only [Statement.bindIn, Statement.freeColumns, scopeOf_bind, List.filter_append,
      Source.freeColumns_bindOuter, joinsFree_bind, itemsFree_bind, clauseFree_bind,
      exprsFree_bind, ordersFree_bind, optionalFree_bind, operationsFree_bind]

end

end Free

section Unchanged

variable {ts cell}

mutual

theorem Expr.bindOuter_eq_self {scopes : List Schema} : ∀ {e : Expr},
    (∀ s ∈ e.freeColumns ts scopes, cell s = none) → e.bindOuter ts cell scopes = e
  | .literal _, _ => rfl
  | .column table name, none_free => by
    simp only [Expr.bindOuter, outerExpr]
    by_cases known : knownIn scopes (columnSpelling table name)
    · simp only [known, if_true]
    · have free : cell (columnSpelling table name) = none :=
        none_free _ (by simp [Expr.freeColumns, known])
      simp only [known, free, Bool.false_eq_true, if_false]
  | .bind _, _ => rfl
  | .binary _ a b, none_free => by
    simp only [Expr.freeColumns, List.forall_mem_append] at none_free
    simp only [Expr.bindOuter, Expr.bindOuter_eq_self none_free.1,
      Expr.bindOuter_eq_self none_free.2]
  | .unary _ a, none_free => by
    simp only [Expr.freeColumns] at none_free
    simp only [Expr.bindOuter, Expr.bindOuter_eq_self none_free]
  | .call _ _ args, none_free => by
    simp only [Expr.freeColumns] at none_free
    simp only [Expr.bindOuter, exprsBind_eq_self none_free]
  | .case branches otherwise, none_free => by
    simp only [Expr.freeColumns, List.forall_mem_append] at none_free
    simp only [Expr.bindOuter, branchesBind_eq_self none_free.1,
      optionalBind_eq_self none_free.2]
  | .ite c a b, none_free => by
    simp only [Expr.freeColumns, List.forall_mem_append] at none_free
    simp only [Expr.bindOuter, Condition.bindOuter_eq_self none_free.1.1,
      Expr.bindOuter_eq_self none_free.1.2, Expr.bindOuter_eq_self none_free.2]
  | .subquery q, none_free => by
    simp only [Expr.freeColumns] at none_free
    simp only [Expr.bindOuter, Statement.bindIn_eq_self none_free]
  | .list items, none_free => by
    simp only [Expr.freeColumns] at none_free
    simp only [Expr.bindOuter, exprsBind_eq_self none_free]
  | .star _, _ => rfl
  | .paren a, none_free => by
    simp only [Expr.freeColumns] at none_free
    simp only [Expr.bindOuter, Expr.bindOuter_eq_self none_free]

theorem exprsBind_eq_self {scopes : List Schema} : ∀ {es : List Expr},
    (∀ s ∈ exprsFree ts scopes es, cell s = none) → exprsBind ts cell scopes es = es
  | [], _ => rfl
  | e :: es, none_free => by
    simp only [exprsFree, List.forall_mem_append] at none_free
    simp only [exprsBind, Expr.bindOuter_eq_self none_free.1, exprsBind_eq_self none_free.2]

theorem branchesBind_eq_self {scopes : List Schema} : ∀ {bs : List (Condition × Expr)},
    (∀ s ∈ branchesFree ts scopes bs, cell s = none) → branchesBind ts cell scopes bs = bs
  | [], _ => rfl
  | (c, e) :: bs, none_free => by
    simp only [branchesFree, List.forall_mem_append] at none_free
    simp only [branchesBind, Condition.bindOuter_eq_self none_free.1.1,
      Expr.bindOuter_eq_self none_free.1.2, branchesBind_eq_self none_free.2]

theorem optionalBind_eq_self {scopes : List Schema} : ∀ {e : Option Expr},
    (∀ s ∈ optionalFree ts scopes e, cell s = none) → optionalBind ts cell scopes e = e
  | none, _ => rfl
  | some e, none_free => by
    simp only [optionalFree] at none_free
    simp only [optionalBind, Expr.bindOuter_eq_self none_free]

theorem Condition.bindOuter_eq_self {scopes : List Schema} : ∀ {c : Condition},
    (∀ s ∈ c.freeColumns ts scopes, cell s = none) → c.bindOuter ts cell scopes = c
  | .compare _ a b, none_free => by
    simp only [Condition.freeColumns, List.forall_mem_append] at none_free
    simp only [Condition.bindOuter, Expr.bindOuter_eq_self none_free.1,
      Expr.bindOuter_eq_self none_free.2]
  | .logic _ terms, none_free => by
    simp only [Condition.freeColumns] at none_free
    simp only [Condition.bindOuter, termsBind_eq_self none_free]
  | .not c, none_free => by
    simp only [Condition.freeColumns] at none_free
    simp only [Condition.bindOuter, Condition.bindOuter_eq_self none_free]
  | .exists _ q, none_free => by
    simp only [Condition.freeColumns] at none_free
    simp only [Condition.bindOuter, Statement.bindIn_eq_self none_free]

theorem termsBind_eq_self {scopes : List Schema} : ∀ {cs : List Condition},
    (∀ s ∈ termsFree ts scopes cs, cell s = none) → termsBind ts cell scopes cs = cs
  | [], _ => rfl
  | c :: cs, none_free => by
    simp only [termsFree, List.forall_mem_append] at none_free
    simp only [termsBind, Condition.bindOuter_eq_self none_free.1, termsBind_eq_self none_free.2]

theorem clauseBind_eq_self {scopes : List Schema} : ∀ {c : Option Condition},
    (∀ s ∈ clauseFree ts scopes c, cell s = none) → clauseBind ts cell scopes c = c
  | none, _ => rfl
  | some c, none_free => by
    simp only [clauseFree] at none_free
    simp only [clauseBind, Condition.bindOuter_eq_self none_free]

theorem Source.bindOuter_eq_self {scopes : List Schema} : ∀ {s : Source},
    (∀ x ∈ s.freeColumns ts scopes, cell x = none) → s.bindOuter ts cell scopes = s
  | .table _ _, _ => rfl
  | .query q _, none_free => by
    simp only [Source.freeColumns] at none_free
    simp only [Source.bindOuter, Statement.bindIn_eq_self none_free]

theorem itemsBind_eq_self {scopes : List Schema} : ∀ {items : List SelectItem},
    (∀ s ∈ itemsFree ts scopes items, cell s = none) → itemsBind ts cell scopes items = items
  | [], _ => rfl
  | ⟨e, _, _⟩ :: items, none_free => by
    simp only [itemsFree, List.forall_mem_append] at none_free
    simp only [itemsBind, Expr.bindOuter_eq_self none_free.1, itemsBind_eq_self none_free.2]

theorem joinsBind_eq_self {scopes : List Schema} : ∀ {joins : List JoinClause},
    (∀ s ∈ joinsFree ts scopes joins, cell s = none) → joinsBind ts cell scopes joins = joins
  | [], _ => rfl
  | ⟨_, s, c⟩ :: joins, none_free => by
    simp only [joinsFree, List.forall_mem_append] at none_free
    simp only [joinsBind, Source.bindOuter_eq_self none_free.1.1,
      Condition.bindOuter_eq_self none_free.1.2, joinsBind_eq_self none_free.2]

theorem ordersBind_eq_self {scopes : List Schema} : ∀ {orders : List OrderItem},
    (∀ s ∈ ordersFree ts scopes orders, cell s = none) → ordersBind ts cell scopes orders = orders
  | [], _ => rfl
  | ⟨e, _⟩ :: orders, none_free => by
    simp only [ordersFree, List.forall_mem_append] at none_free
    simp only [ordersBind, Expr.bindOuter_eq_self none_free.1, ordersBind_eq_self none_free.2]

theorem operationsBind_eq_self {scopes : List Schema} : ∀ {operations : List SetOperation},
    (∀ s ∈ operationsFree ts scopes operations, cell s = none) →
      operationsBind ts cell scopes operations = operations
  | [], _ => rfl
  | ⟨_, s⟩ :: operations, none_free => by
    simp only [operationsFree, List.forall_mem_append] at none_free
    simp only [operationsBind, Statement.bindIn_eq_self none_free.1,
      operationsBind_eq_self none_free.2]

/-- Nothing is bound where no free column has a cell. -/
theorem Statement.bindIn_eq_self {scopes : List Schema} : ∀ {q : Statement},
    (∀ s ∈ q.freeColumns ts scopes, cell s = none) → q.bindIn ts cell scopes = q
  | ⟨_, items, source, joins, filter, groupBy, having, orderBy, _, pivot, operations⟩,
      none_free => by
    simp only [Statement.freeColumns, List.forall_mem_append] at none_free
    obtain ⟨⟨⟨⟨⟨⟨⟨⟨inSource, inJoins⟩, inItems⟩, inFilter⟩, inGroupBy⟩, inHaving⟩, inOrderBy⟩,
      inPivot⟩, inOperations⟩ := none_free
    simp only [Statement.bindIn, Source.bindOuter_eq_self inSource, joinsBind_eq_self inJoins,
      itemsBind_eq_self inItems, clauseBind_eq_self inFilter, exprsBind_eq_self inGroupBy,
      clauseBind_eq_self inHaving, ordersBind_eq_self inOrderBy, optionalBind_eq_self inPivot,
      operationsBind_eq_self inOperations]

end

end Unchanged

/-! ### What stands where -/

/-- What stands in the place of a column within a row of an outer table. -/
structure Table.StandsFor (outer : Table) (row : Nat) (scopes : List Schema)
    (table : Option String) (name : String) (e : Expr) : Prop where
  kept : knownIn scopes (columnSpelling table name) ∨
    outer.column? (columnSpelling table name) = none → e = .column table name
  replaced : ∀ column, ¬ knownIn scopes (columnSpelling table name) →
    outer.column? (columnSpelling table name) = some column → e = .literal (outer.cell row column)

theorem standsFor_outerExpr (outer : Table) (row : Nat) (scopes : List Schema)
    (table : Option String) (name : String) :
    outer.StandsFor row scopes table name (outerExpr scopes (outer.cellNamed row) table name) where
  kept free := by
    unfold outerExpr Table.cellNamed
    rcases free with known | unknown
    · simp only [known, if_true]
    · simp only [unknown, Option.map_none, ite_self]
  replaced column free found := by
    simp only [outerExpr, Table.cellNamed, free, found, Option.map_some, Bool.false_eq_true,
      if_false]

section Replaced

variable {ts cell}

theorem forall_mem_zip_cons {α β : Type} {P : α × β → Prop} {a : α} {b : β} {as : List α}
    {bs : List β} (first : P (a, b)) (rest : ∀ p ∈ as.zip bs, P p) :
    ∀ p ∈ (a :: as).zip (b :: bs), P p := by
  simp only [List.zip_cons_cons, List.forall_mem_cons]
  exact ⟨first, rest⟩

theorem forall_mem_some {α β : Type} {P : α → β → Prop} {a : α} {b : β} (both : P a b) :
    ∀ x ∈ some a, ∀ y ∈ some b, P x y := by
  simpa using both

theorem length_exprsBind (scopes : List Schema) :
    ∀ es : List Expr, es.length = (exprsBind ts cell scopes es).length
  | [] => rfl
  | _ :: es => by simp only [exprsBind, List.length_cons, ← length_exprsBind scopes es]

theorem length_branchesBind (scopes : List Schema) :
    ∀ bs : List (Condition × Expr), bs.length = (branchesBind ts cell scopes bs).length
  | [] => rfl
  | (_, _) :: bs => by simp only [branchesBind, List.length_cons, ← length_branchesBind scopes bs]

theorem length_termsBind (scopes : List Schema) :
    ∀ cs : List Condition, cs.length = (termsBind ts cell scopes cs).length
  | [] => rfl
  | _ :: cs => by simp only [termsBind, List.length_cons, ← length_termsBind scopes cs]

theorem isSome_optionalBind (scopes : List Schema) (e : Option Expr) :
    e.isSome = (optionalBind ts cell scopes e).isSome := by
  cases e <;> rfl

theorem isSome_clauseBind (scopes : List Schema) (c : Option Condition) :
    c.isSome = (clauseBind ts cell scopes c).isSome := by
  cases c <;> rfl

theorem map_text_bind (scopes : List Schema) : ∀ items : List SelectItem,
    items.map SelectItem.text = (itemsBind ts cell scopes items).map SelectItem.text
  | [] => rfl
  | ⟨_, _, _⟩ :: items => by simp only [itemsBind, List.map_cons, ← map_text_bind scopes items]

theorem map_alias_bind (scopes : List Schema) : ∀ items : List SelectItem,
    items.map SelectItem.alias? = (itemsBind ts cell scopes items).map SelectItem.alias?
  | [] => rfl
  | ⟨_, _, _⟩ :: items => by simp only [itemsBind, List.map_cons, ← map_alias_bind scopes items]

theorem map_kind_bind (scopes : List Schema) : ∀ joins : List JoinClause,
    joins.map JoinClause.kind = (joinsBind ts cell scopes joins).map JoinClause.kind
  | [] => rfl
  | ⟨_, _, _⟩ :: joins => by simp only [joinsBind, List.map_cons, ← map_kind_bind scopes joins]

theorem map_direction_bind (scopes : List Schema) : ∀ orders : List OrderItem,
    orders.map OrderItem.direction = (ordersBind ts cell scopes orders).map OrderItem.direction
  | [] => rfl
  | ⟨_, _⟩ :: orders => by
    simp only [ordersBind, List.map_cons, ← map_direction_bind scopes orders]

theorem map_operator_bind (scopes : List Schema) : ∀ operations : List SetOperation,
    operations.map SetOperation.operator =
      (operationsBind ts cell scopes operations).map SetOperation.operator
  | [] => rfl
  | ⟨_, _⟩ :: operations => by
    simp only [operationsBind, List.map_cons, ← map_operator_bind scopes operations]

variable (outer : Table) (row : Nat)

mutual

theorem Expr.becomes_bindOuter (scopes : List Schema) :
    ∀ e : Expr, Expr.Becomes ts (outer.StandsFor row) scopes e
      (e.bindOuter ts (outer.cellNamed row) scopes)
  | .literal c => .literal c
  | .column table name => .column (standsFor_outerExpr outer row scopes table name)
  | .bind n => .bind n
  | .binary _ a b => .binary (Expr.becomes_bindOuter scopes a) (Expr.becomes_bindOuter scopes b)
  | .unary _ a => .unary (Expr.becomes_bindOuter scopes a)
  | .call _ _ args => .call (length_exprsBind scopes args) (exprs_becomes scopes args)
  | .case branches otherwise =>
    .case (length_branchesBind scopes branches) (branches_conditions_become scopes branches)
      (branches_results_become scopes branches) (isSome_optionalBind scopes otherwise)
      (optional_becomes scopes otherwise)
  | .ite c a b =>
    .ite (Condition.becomes_bindOuter scopes c) (Expr.becomes_bindOuter scopes a)
      (Expr.becomes_bindOuter scopes b)
  | .subquery q => .subquery (Statement.becomes_bindIn scopes q)
  | .list items => .list (length_exprsBind scopes items) (exprs_becomes scopes items)
  | .star table => .star table
  | .paren a => .paren (Expr.becomes_bindOuter scopes a)

theorem exprs_becomes (scopes : List Schema) :
    ∀ es : List Expr, ∀ p ∈ es.zip (exprsBind ts (outer.cellNamed row) scopes es),
      Expr.Becomes ts (outer.StandsFor row) scopes p.1 p.2
  | [] => by simp
  | e :: es => forall_mem_zip_cons (Expr.becomes_bindOuter scopes e) (exprs_becomes scopes es)

theorem branches_conditions_become (scopes : List Schema) :
    ∀ bs : List (Condition × Expr), ∀ p ∈ bs.zip (branchesBind ts (outer.cellNamed row) scopes bs),
      Condition.Becomes ts (outer.StandsFor row) scopes p.1.1 p.2.1
  | [] => by simp
  | (c, _) :: bs =>
    forall_mem_zip_cons (Condition.becomes_bindOuter scopes c)
      (branches_conditions_become scopes bs)

theorem branches_results_become (scopes : List Schema) :
    ∀ bs : List (Condition × Expr), ∀ p ∈ bs.zip (branchesBind ts (outer.cellNamed row) scopes bs),
      Expr.Becomes ts (outer.StandsFor row) scopes p.1.2 p.2.2
  | [] => by simp
  | (_, e) :: bs =>
    forall_mem_zip_cons (Expr.becomes_bindOuter scopes e) (branches_results_become scopes bs)

theorem optional_becomes (scopes : List Schema) :
    ∀ o : Option Expr, ∀ e ∈ o, ∀ e' ∈ optionalBind ts (outer.cellNamed row) scopes o,
      Expr.Becomes ts (outer.StandsFor row) scopes e e'
  | none => by simp
  | some e => forall_mem_some (Expr.becomes_bindOuter scopes e)

theorem Condition.becomes_bindOuter (scopes : List Schema) :
    ∀ c : Condition, Condition.Becomes ts (outer.StandsFor row) scopes c
      (c.bindOuter ts (outer.cellNamed row) scopes)
  | .compare _ a b =>
    .compare (Expr.becomes_bindOuter scopes a) (Expr.becomes_bindOuter scopes b)
  | .logic _ terms => .logic (length_termsBind scopes terms) (terms_become scopes terms)
  | .not c => .not (Condition.becomes_bindOuter scopes c)
  | .exists _ q => .exists (Statement.becomes_bindIn scopes q)

theorem terms_become (scopes : List Schema) :
    ∀ cs : List Condition, ∀ p ∈ cs.zip (termsBind ts (outer.cellNamed row) scopes cs),
      Condition.Becomes ts (outer.StandsFor row) scopes p.1 p.2
  | [] => by simp
  | c :: cs => forall_mem_zip_cons (Condition.becomes_bindOuter scopes c) (terms_become scopes cs)

theorem clause_becomes (scopes : List Schema) :
    ∀ o : Option Condition, ∀ c ∈ o, ∀ c' ∈ clauseBind ts (outer.cellNamed row) scopes o,
      Condition.Becomes ts (outer.StandsFor row) scopes c c'
  | none => by simp
  | some c => forall_mem_some (Condition.becomes_bindOuter scopes c)

theorem Source.becomes_bindOuter (scopes : List Schema) :
    ∀ s : Source, Source.Becomes ts (outer.StandsFor row) scopes s
      (s.bindOuter ts (outer.cellNamed row) scopes)
  | .table name alias? => .table name alias?
  | .query q _ => .query (Statement.becomes_bindIn scopes q)

theorem items_become (scopes : List Schema) :
    ∀ items : List SelectItem, ∀ p ∈ items.zip (itemsBind ts (outer.cellNamed row) scopes items),
      Expr.Becomes ts (outer.StandsFor row) scopes p.1.expr p.2.expr
  | [] => by simp
  | ⟨e, _, _⟩ :: items =>
    forall_mem_zip_cons (Expr.becomes_bindOuter scopes e) (items_become scopes items)

theorem joins_sources_become (scopes : List Schema) :
    ∀ joins : List JoinClause, ∀ p ∈ joins.zip (joinsBind ts (outer.cellNamed row) scopes joins),
      Source.Becomes ts (outer.StandsFor row) scopes p.1.source p.2.source
  | [] => by simp
  | ⟨_, s, _⟩ :: joins =>
    forall_mem_zip_cons (Source.becomes_bindOuter scopes s) (joins_sources_become scopes joins)

theorem joins_conditions_become (scopes : List Schema) :
    ∀ joins : List JoinClause, ∀ p ∈ joins.zip (joinsBind ts (outer.cellNamed row) scopes joins),
      Condition.Becomes ts (outer.StandsFor row) scopes p.1.condition p.2.condition
  | [] => by simp
  | ⟨_, _, c⟩ :: joins =>
    forall_mem_zip_cons (Condition.becomes_bindOuter scopes c)
      (joins_conditions_become scopes joins)

theorem orders_become (scopes : List Schema) :
    ∀ orders : List OrderItem, ∀ p ∈ orders.zip (ordersBind ts (outer.cellNamed row) scopes orders),
      Expr.Becomes ts (outer.StandsFor row) scopes p.1.expr p.2.expr
  | [] => by simp
  | ⟨e, _⟩ :: orders =>
    forall_mem_zip_cons (Expr.becomes_bindOuter scopes e) (orders_become scopes orders)

theorem operations_become (scopes : List Schema) :
    ∀ operations : List SetOperation,
      ∀ p ∈ operations.zip (operationsBind ts (outer.cellNamed row) scopes operations),
      Statement.Becomes ts (outer.StandsFor row) scopes p.1.statement p.2.statement
  | [] => by simp
  | ⟨_, s⟩ :: operations =>
    forall_mem_zip_cons (Statement.becomes_bindIn scopes s) (operations_become scopes operations)

/-- Binding replaces columns that mean a cell of the row, and nothing else. -/
theorem Statement.becomes_bindIn (scopes : List Schema) :
    ∀ q : Statement, Statement.Becomes ts (outer.StandsFor row) scopes q
      (q.bindIn ts (outer.cellNamed row) scopes)
  | ⟨_, items, source, joins, filter, groupBy, having, orderBy, _, pivot, operations⟩ =>
    let inner := scopeOf ts items source joins ++ scopes
    .intro rfl rfl rfl (map_text_bind inner items) (map_alias_bind inner items)
      (items_become inner items) (Source.becomes_bindOuter inner source)
      (map_kind_bind inner joins) (joins_sources_become inner joins)
      (joins_conditions_become inner joins) (isSome_clauseBind inner filter)
      (clause_becomes inner filter) (length_exprsBind inner groupBy)
      (exprs_becomes inner groupBy) (isSome_clauseBind inner having)
      (clause_becomes inner having) (map_direction_bind inner orderBy)
      (orders_become inner orderBy) (isSome_optionalBind inner pivot)
      (optional_becomes inner pivot) (map_operator_bind scopes operations)
      (operations_become scopes operations)

end

end Replaced

theorem isCorrelated_eq_false_iff {outer : Table} {q : Statement} :
    q.isCorrelated ts outer = false ↔ ∀ s ∈ q.freeColumns ts [], outer.column? s = none := by
  simp only [Statement.isCorrelated, List.any_eq_false, Bool.not_eq_true, Option.isSome_eq_false_iff,
    Option.isNone_iff_eq_none]

theorem bindOuter_eq_self_of_not_correlated {outer : Table} {q : Statement}
    (closed : q.isCorrelated ts outer = false) (row : Nat) : q.bindOuter ts outer row = q := by
  apply Statement.bindIn_eq_self
  intro s free
  simp only [Table.cellNamed, (isCorrelated_eq_false_iff ts).mp closed s free, Option.map_none]

theorem not_correlated_bindOuter (outer : Table) (row : Nat) (q : Statement) :
    (q.bindOuter ts outer row).isCorrelated ts outer = false := by
  rw [isCorrelated_eq_false_iff, Statement.bindOuter, Statement.freeColumns_bindIn]
  intro s free
  simpa [Table.cellNamed] using (List.mem_filter.mp free).2

/-- A bound statement is closed over the outer table: nothing in it is left to bind, in this row or any
other. Binding leaves a statement as it is exactly if nothing in it means a column of the outer table,
and in any statement replaces just the columns that mean one, each by its cell of the row. -/
theorem bindOuter_closes (outer : Table) (row : Nat) (q : Statement) :
    (q.bindOuter ts outer row).isCorrelated ts outer = false ∧
    (∀ row', (q.bindOuter ts outer row).bindOuter ts outer row' = q.bindOuter ts outer row) ∧
    (q.isCorrelated ts outer = false ↔ q.bindOuter ts outer row = q) ∧
    Statement.Becomes ts (outer.StandsFor row) [] q (q.bindOuter ts outer row) := by
  have closed := not_correlated_bindOuter ts outer row q
  refine ⟨closed, bindOuter_eq_self_of_not_correlated ts closed,
    ⟨fun h => bindOuter_eq_self_of_not_correlated ts h row, fun same => ?_⟩,
    Statement.becomes_bindIn outer row [] q⟩
  rwa [same] at closed

end GridQuery
