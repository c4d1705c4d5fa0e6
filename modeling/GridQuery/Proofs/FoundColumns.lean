import GridQuery.Proofs.FaultFree
import GridQuery.Proofs.JoinedColumns
import GridQuery.Proofs.NamedTables
import GridQuery.Proofs.OuterBinding

/-!
Columns that are found. A reference finds its column in a stored table among the sources of its own statement, or
in a row around it, if no name in between hides that: binding puts the cell of the row in its place. Then no run
of the statement misses the column.
-/

namespace GridQuery
set_option autoImplicit false

/-! ### Parts of a copy -/

section Parts

variable (ts : Tables) (cell : String → Option Cell)

theorem outerExpr_parts (scopes : List Schema) (table : Option String) (name : String) :
    (outerExpr scopes cell table name).parts = [outerExpr scopes cell table name] := by
  unfold outerExpr
  split
  · rfl
  · split <;> rfl

mutual

/-- Binding copies the parts of an expression and brings no others. -/
theorem Expr.parts_bindOuter (scopes : List Schema) : ∀ e : Expr,
    (e.bindOuter ts cell scopes).parts = e.parts.map (Expr.bindOuter ts cell scopes)
  | .literal _ | .bind _ | .star _ | .subquery _ => by
    simp only [Expr.bindOuter, Expr.parts, List.map_cons, List.map_nil]
  | .column table name => by
    simp only [Expr.bindOuter, Expr.parts, outerExpr_parts, List.map_cons, List.map_nil]
  | .binary _ a b => by
    simp only [Expr.bindOuter, Expr.parts, List.map_cons, List.map_append, Expr.parts_bindOuter scopes a,
      Expr.parts_bindOuter scopes b]
  | .unary _ a | .paren a => by
    simp only [Expr.bindOuter, Expr.parts, List.map_cons, Expr.parts_bindOuter scopes a]
  | .call _ _ args => by
    simp only [Expr.bindOuter, Expr.parts, List.map_cons, exprsParts_bind scopes args]
  | .case branches otherwise => by
    simp only [Expr.bindOuter, Expr.parts, List.map_cons, List.map_append, branchesParts_bind scopes branches,
      elseParts_bind scopes otherwise]
  | .ite c a b => by
    simp only [Expr.bindOuter, Expr.parts, List.map_cons, List.map_append, Condition.parts_bindOuter scopes c,
      Expr.parts_bindOuter scopes a, Expr.parts_bindOuter scopes b]
  | .list items => by simp only [Expr.bindOuter, Expr.parts, List.map_cons, exprsParts_bind scopes items]

theorem exprsParts_bind (scopes : List Schema) : ∀ es : List Expr,
    exprsParts (exprsBind ts cell scopes es) = (exprsParts es).map (Expr.bindOuter ts cell scopes)
  | [] => rfl
  | e :: es => by
    simp only [exprsBind, exprsParts, List.map_append, Expr.parts_bindOuter scopes e, exprsParts_bind scopes es]

theorem branchesParts_bind (scopes : List Schema) : ∀ bs : List (Condition × Expr),
    branchesParts (branchesBind ts cell scopes bs) = (branchesParts bs).map (Expr.bindOuter ts cell scopes)
  | [] => rfl
  | (c, e) :: bs => by
    simp only [branchesBind, branchesParts, List.map_append, Condition.parts_bindOuter scopes c,
      Expr.parts_bindOuter scopes e, branchesParts_bind scopes bs]

theorem elseParts_bind (scopes : List Schema) : ∀ o : Option Expr,
    elseParts (optionalBind ts cell scopes o) = (elseParts o).map (Expr.bindOuter ts cell scopes)
  | none => rfl
  | some e => by simp only [optionalBind, elseParts, Expr.parts_bindOuter scopes e]

theorem Condition.parts_bindOuter (scopes : List Schema) : ∀ c : Condition,
    (c.bindOuter ts cell scopes).parts = c.parts.map (Expr.bindOuter ts cell scopes)
  | .compare _ a b => by
    simp only [Condition.bindOuter, Condition.parts, List.map_append, Expr.parts_bindOuter scopes a,
      Expr.parts_bindOuter scopes b]
  | .logic _ terms => by simp only [Condition.bindOuter, Condition.parts, termsParts_bind scopes terms]
  | .not c => by simp only [Condition.bindOuter, Condition.parts, Condition.parts_bindOuter scopes c]
  | .exists _ _ => by simp only [Condition.bindOuter, Condition.parts, List.map_nil]

theorem termsParts_bind (scopes : List Schema) : ∀ cs : List Condition,
    termsParts (termsBind ts cell scopes cs) = (termsParts cs).map (Expr.bindOuter ts cell scopes)
  | [] => rfl
  | c :: cs => by
    simp only [termsBind, termsParts, List.map_append, Condition.parts_bindOuter scopes c, termsParts_bind scopes cs]

end

variable {ts cell}

/-- A column of a copy is one of the original that means no cell. -/
theorem column_of_bindOuter {scopes : List Schema} {e : Expr} {table : Option String} {name : String}
    (h : e.bindOuter ts cell scopes = .column table name) :
    e = .column table name ∧
      (knownIn scopes (columnSpelling table name) = true ∨ cell (columnSpelling table name) = none) := by
  cases e with
  | column table' name' =>
    rw [Expr.bindOuter, outerExpr] at h
    split at h
    · rename_i hknown
      obtain ⟨rfl, rfl⟩ := Expr.column.inj h
      exact ⟨rfl, .inl hknown⟩
    · split at h
      · cases h
      · rename_i hnone
        obtain ⟨rfl, rfl⟩ := Expr.column.inj h
        exact ⟨rfl, .inr hnone⟩
  | literal | bind | binary | unary | call | case | ite | subquery | list | star | paren =>
    rw [Expr.bindOuter] at h
    cases h

end Parts

mutual

/-- The parts of a part are parts of the whole. -/
theorem parts_subset {p : Expr} : ∀ {e : Expr}, p ∈ e.parts → p.parts ⊆ e.parts
  | .binary op a b, h => by
    simp only [Expr.parts, List.mem_cons, List.mem_append] at h
    rcases h with rfl | h | h
    · exact List.Subset.refl _
    · exact List.subset_cons_of_subset _ (List.subset_append_of_subset_left _ (parts_subset h))
    · exact List.subset_cons_of_subset _ (List.subset_append_of_subset_right _ (parts_subset h))
  | .unary _ a, h | .paren a, h => by
    simp only [Expr.parts, List.mem_cons] at h
    rcases h with rfl | h
    · exact List.Subset.refl _
    · exact List.subset_cons_of_subset _ (parts_subset h)
  | .call _ _ es, h | .list es, h => by
    simp only [Expr.parts, List.mem_cons] at h
    rcases h with rfl | h
    · exact List.Subset.refl _
    · exact List.subset_cons_of_subset _ (exprsParts_subset h)
  | .case branches otherwise, h => by
    simp only [Expr.parts, List.mem_cons, List.mem_append] at h
    rcases h with rfl | h | h
    · exact List.Subset.refl _
    · exact List.subset_cons_of_subset _ (List.subset_append_of_subset_left _ (branchesParts_subset h))
    · exact List.subset_cons_of_subset _ (List.subset_append_of_subset_right _ (elseParts_subset h))
  | .ite c a b, h => by
    simp only [Expr.parts, List.append_assoc, List.mem_cons, List.mem_append] at h
    rcases h with rfl | h | h | h
    · exact List.Subset.refl _
    all_goals
      simp only [Expr.parts, List.append_assoc]
      refine List.subset_cons_of_subset _ ?_
    · exact List.subset_append_of_subset_left _ (conditionParts_subset h)
    · exact List.subset_append_of_subset_right _ (List.subset_append_of_subset_left _ (parts_subset h))
    · exact List.subset_append_of_subset_right _ (List.subset_append_of_subset_right _ (parts_subset h))
  | .literal _, h | .column .., h | .bind _, h | .subquery _, h | .star _, h => by
    simp only [Expr.parts, List.mem_singleton] at h
    subst h
    exact List.Subset.refl _

theorem exprsParts_subset {p : Expr} : ∀ {es : List Expr}, p ∈ exprsParts es → p.parts ⊆ exprsParts es
  | _ :: _, h => (List.mem_append.mp h).elim
      (fun h => List.subset_append_of_subset_left _ (parts_subset h))
      fun h => List.subset_append_of_subset_right _ (exprsParts_subset h)

theorem branchesParts_subset {p : Expr} : ∀ {bs : List (Condition × Expr)}, p ∈ branchesParts bs →
    p.parts ⊆ branchesParts bs
  | (_, _) :: _, h => by
    simp only [branchesParts, List.append_assoc, List.mem_append] at h ⊢
    rcases h with h | h | h
    · exact List.subset_append_of_subset_left _ (conditionParts_subset h)
    · exact List.subset_append_of_subset_right _ (List.subset_append_of_subset_left _ (parts_subset h))
    · exact List.subset_append_of_subset_right _
        (List.subset_append_of_subset_right _ (branchesParts_subset h))

theorem elseParts_subset {p : Expr} : ∀ {o : Option Expr}, p ∈ elseParts o → p.parts ⊆ elseParts o
  | some e, h => parts_subset (e := e) h

theorem conditionParts_subset {p : Expr} : ∀ {c : Condition}, p ∈ c.parts → p.parts ⊆ c.parts
  | .compare _ a b, h => (List.mem_append.mp h).elim
      (fun h => List.subset_append_of_subset_left _ (parts_subset (e := a) h))
      fun h => List.subset_append_of_subset_right _ (parts_subset (e := b) h)
  | .logic _ terms, h => by
    simp only [Condition.parts] at h ⊢
    exact termsParts_subset h
  | .not c, h => conditionParts_subset (c := c) h

theorem termsParts_subset {p : Expr} : ∀ {cs : List Condition}, p ∈ termsParts cs → p.parts ⊆ termsParts cs
  | _ :: _, h => (List.mem_append.mp h).elim
      (fun h => List.subset_append_of_subset_left _ (conditionParts_subset h))
      fun h => List.subset_append_of_subset_right _ (termsParts_subset h)

end

/-! ### Clauses on rows, and statements beside them -/

/-- A clause that is worked out on the rows of a statement, by its parts and the statements in it. A column as a
key is looked up among the fields instead, and so are the columns of `HAVING`. -/
inductive Statement.RowClause (s : Statement) : List Expr → List Statement → Prop where
  | item {i : SelectItem} : i ∈ s.items → RowClause s i.expr.parts i.expr.statements
  | filter {c : Condition} : s.filter = some c → RowClause s c.parts c.statements
  | on {j : JoinClause} : j ∈ s.joins → RowClause s j.condition.parts []
  | groupBy {e : Expr} : e ∈ s.groupBy → (∀ table name, e ≠ .column table name) → RowClause s e.parts e.statements
  | orderBy {o : OrderItem} : o ∈ s.orderBy → (∀ table name, o.expr ≠ .column table name) →
      RowClause s o.expr.parts o.expr.statements
  | pivot {e : Expr} : s.pivot = some e → RowClause s e.parts e.statements

/-- A statement within another one that is not run for its rows: a source, one in a condition of a join, which is
run for the rows of either side, and one in `HAVING`, which is run for groups. -/
inductive Statement.Beside (s : Statement) : Statement → Prop where
  | source {q : Statement} : q ∈ s.source.statements → Beside s q
  | joined {j : JoinClause} {q : Statement} : j ∈ s.joins → q ∈ j.source.statements → Beside s q
  | on {j : JoinClause} {q : Statement} : j ∈ s.joins → q ∈ j.condition.statements → Beside s q
  | having {c : Condition} {q : Statement} : s.having = some c → q ∈ c.statements → Beside s q

/-- A stored table that has a column of that name, under the name that it goes by. -/
def Source.stores (ts : Tables) (spelling : String) : Source → Bool
  | .table name alias? => (ts.get? name).any fun t => ((t.withAlias alias?).column? spelling).isSome
  | .query .. => false

/-- A stored table among the sources of a statement has the column. -/
def Statement.offers (ts : Tables) (s : Statement) (spelling : String) : Bool :=
  s.source.stores ts spelling || s.joins.any fun j => j.source.stores ts spelling

/-- A column that is found around a statement is found within it, where no source or alias of it has the name. -/
def Statement.Passes (ts : Tables) (around : String → Prop) (s : Statement) (spelling : String) : Prop :=
  around spelling ∧ knownIn (scopeOf ts s.items s.source s.joins) spelling = false

/-- What is found on the rows of a statement. -/
def Statement.Sees (ts : Tables) (around : String → Prop) (s : Statement) (spelling : String) : Prop :=
  s.offers ts spelling = true ∨ s.Passes ts around spelling

/-- Each column with a text finds its place: at every depth it is one of a stored table of its own statement, or
is found in a row around it. `around` says what the rows around the statement have. -/
inductive Statement.Finds (ts : Tables) (text : String) : (String → Prop) → Statement → Prop where
  | intro {around : String → Prop} {s : Statement}
      (columns : ∀ {parts statements table name}, s.RowClause parts statements → .column table name ∈ parts →
        columnText table name = text → s.Sees ts around (columnSpelling table name))
      (groups : ∀ {c table name}, s.having = some c → .column table name ∈ c.parts →
        columnText table name = text → s.Passes ts around (columnSpelling table name))
      (onRows : ∀ {parts statements q}, s.RowClause parts statements → q ∈ statements →
        Finds ts text (s.Sees ts around) q)
      (beside : ∀ {q}, s.Beside q → Finds ts text (s.Passes ts around) q)
      (operations : ∀ {o}, o ∈ s.operations → Finds ts text around o.statement) : Finds ts text around s

/-! ### Copies for a row -/

namespace Statement

section Copies

variable {ts : Tables} {cell : String → Option Cell} {text : String} {scopes : List Schema} {s q : Statement}

/-- The scopes that the clauses of a statement are bound in. -/
def innerScopes (ts : Tables) (s : Statement) (scopes : List Schema) : List Schema :=
  scopeOf ts s.items s.source s.joins ++ scopes

/-- The clauses of a copy are copies of the clauses, but for keys that have become a cell. -/
theorem RowClause.of_bindIn {parts : List Expr} {statements : List Statement}
    (h : (s.bindIn ts cell scopes).RowClause parts statements) :
    (∃ parts' statements', s.RowClause parts' statements' ∧
      parts = parts'.map (Expr.bindOuter ts cell (s.innerScopes ts scopes)) ∧
      statements = statements'.map (Statement.bindIn ts cell (s.innerScopes ts scopes))) ∨
    ∃ c, parts = [.literal c] ∧ statements = [] := by
  obtain ⟨distinct, items, source, joins, filter, groupBy, having, orderBy, limit, pivot, operations⟩ := s
  -- A key of the copy that is no column may have been one, whose cell has taken its place.
  have hkey {e : Expr} (hne : ∀ table name, e.bindOuter ts cell
      (scopeOf ts items source joins ++ scopes) ≠ .column table name) :
      (∀ table name, e ≠ .column table name) ∨
        ∃ c, e.bindOuter ts cell (scopeOf ts items source joins ++ scopes) = .literal c := by
    cases e with
    | column table name =>
      simp only [Expr.bindOuter, outerExpr] at hne ⊢
      split
      · rename_i hknown
        exact absurd (if_pos hknown) (hne table name)
      · rename_i hknown
        rw [if_neg hknown] at hne
        cases hcell : cell (columnSpelling table name) with
        | some c => exact .inr ⟨c, rfl⟩
        | none =>
          rw [hcell] at hne
          exact absurd rfl (hne table name)
    | literal | bind | binary | unary | call | case | ite | subquery | list | star | paren =>
      exact .inl fun _ _ he => by cases he
  simp only [bindIn] at h
  unfold innerScopes
  cases h with
  | item hi =>
    rw [itemsBind_eq_map] at hi
    obtain ⟨i, hi', rfl⟩ := List.mem_map.mp hi
    exact .inl ⟨_, _, .item hi', Expr.parts_bindOuter _ _ _ _, Expr.statements_bindOuter _ _ _ _⟩
  | filter hc =>
    simp only [clauseBind_eq_map, Option.map_eq_some_iff] at hc
    obtain ⟨c, hc', rfl⟩ := hc
    exact .inl ⟨_, _, .filter hc', Condition.parts_bindOuter _ _ _ _, Condition.statements_bindOuter _ _ _ _⟩
  | on hj =>
    rw [joinsBind_eq_map] at hj
    obtain ⟨j, hj', rfl⟩ := List.mem_map.mp hj
    exact .inl ⟨_, _, .on hj', Condition.parts_bindOuter _ _ _ _, rfl⟩
  | groupBy he hne =>
    rw [exprsBind_eq_map] at he
    obtain ⟨e, he', rfl⟩ := List.mem_map.mp he
    rcases hkey hne with hne' | ⟨c, hc⟩
    · exact .inl ⟨_, _, .groupBy he' hne', Expr.parts_bindOuter _ _ _ _, Expr.statements_bindOuter _ _ _ _⟩
    · exact .inr ⟨c, by rw [hc]; rfl, by rw [hc]; rfl⟩
  | orderBy ho hne =>
    rw [ordersBind_eq_map] at ho
    obtain ⟨o, ho', rfl⟩ := List.mem_map.mp ho
    rcases hkey hne with hne' | ⟨c, hc⟩
    · exact .inl ⟨_, _, .orderBy ho' hne', Expr.parts_bindOuter _ _ _ _, Expr.statements_bindOuter _ _ _ _⟩
    · exact .inr ⟨c, by rw [hc]; rfl, by rw [hc]; rfl⟩
  | pivot he =>
    cases pivot with
    | none => cases he
    | some e =>
      obtain rfl := Option.some.inj he
      exact .inl ⟨_, _, .pivot rfl, Expr.parts_bindOuter _ _ _ _, Expr.statements_bindOuter _ _ _ _⟩

theorem Beside.of_bindIn (h : (s.bindIn ts cell scopes).Beside q) :
    ∃ q', s.Beside q' ∧ q = q'.bindIn ts cell (s.innerScopes ts scopes) := by
  obtain ⟨distinct, items, source, joins, filter, groupBy, having, orderBy, limit, pivot, operations⟩ := s
  simp only [bindIn] at h
  unfold innerScopes
  cases h with
  | source hq =>
    rw [Source.statements_bindOuter] at hq
    obtain ⟨q', hq', rfl⟩ := List.mem_map.mp hq
    exact ⟨q', .source hq', rfl⟩
  | joined hj hq =>
    rw [joinsBind_eq_map] at hj
    obtain ⟨j, hj', rfl⟩ := List.mem_map.mp hj
    rw [Source.statements_bindOuter] at hq
    obtain ⟨q', hq', rfl⟩ := List.mem_map.mp hq
    exact ⟨q', .joined hj' hq', rfl⟩
  | on hj hq =>
    rw [joinsBind_eq_map] at hj
    obtain ⟨j, hj', rfl⟩ := List.mem_map.mp hj
    rw [Condition.statements_bindOuter] at hq
    obtain ⟨q', hq', rfl⟩ := List.mem_map.mp hq
    exact ⟨q', .on hj' hq', rfl⟩
  | having hc hq =>
    simp only [clauseBind_eq_map, Option.map_eq_some_iff] at hc
    obtain ⟨c, hc', rfl⟩ := hc
    rw [Condition.statements_bindOuter] at hq
    obtain ⟨q', hq', rfl⟩ := List.mem_map.mp hq
    exact ⟨q', .having hc' hq', rfl⟩

theorem offers_bindIn (s : Statement) (spelling : String) :
    (s.bindIn ts cell scopes).offers ts spelling = s.offers ts spelling := by
  obtain ⟨distinct, items, source, joins, filter, groupBy, having, orderBy, limit, pivot, operations⟩ := s
  have hsource (s : Source) (scopes : List Schema) :
      (s.bindOuter ts cell scopes).stores ts spelling = s.stores ts spelling := by
    cases s <;> rfl
  simp only [bindIn, offers, joinsBind_eq_map, hsource, List.any_map, Function.comp_def]

theorem scope_bindIn (s : Statement) :
    scopeOf ts (s.bindIn ts cell scopes).items (s.bindIn ts cell scopes).source (s.bindIn ts cell scopes).joins =
      scopeOf ts s.items s.source s.joins := by
  obtain ⟨distinct, items, source, joins, filter, groupBy, having, orderBy, limit, pivot, operations⟩ := s
  exact scopeOf_bind ts cell _ items source joins

/-- A copy for a row finds its columns without that row, as its columns have become cells. -/
theorem Finds.bindIn {around : String → Prop} (h : s.Finds ts text around) :
    ∀ {scopes : List Schema} {around' : String → Prop},
      (∀ x, around x → around' x ∨ knownIn scopes x = false ∧ (cell x).isSome = true) →
        (s.bindIn ts cell scopes).Finds ts text around' := by
  -- The scopes of the copy grow with each statement that is entered, and what is around it with them.
  induction h with
  | @intro around s columns groups onRows beside operations ihRows ihBeside ihOperations =>
    intro scopes around' hsub
    have hpasses (x : String) (hx : s.Passes ts around x) : (s.bindIn ts cell scopes).Passes ts around' x ∨
        knownIn (s.innerScopes ts scopes) x = false ∧ (cell x).isSome = true := by
      refine (hsub x hx.1).imp (fun ha => ⟨ha, ?_⟩) fun hc => ⟨?_, hc.2⟩
      · rw [scope_bindIn]
        exact hx.2
      · unfold innerScopes knownIn
        rw [List.any_append, Bool.or_eq_false_iff]
        exact ⟨hx.2, hc.1⟩
    have hsees (x : String) (hx : s.Sees ts around x) : (s.bindIn ts cell scopes).Sees ts around' x ∨
        knownIn (s.innerScopes ts scopes) x = false ∧ (cell x).isSome = true := by
      rcases hx with hx | hx
      · exact .inl (.inl (by rwa [offers_bindIn]))
      · exact (hpasses x hx).imp_left .inr
    -- A column of the copy is no cell of the row, so it is found elsewhere.
    have hkept {parts : List Expr} {table : Option String} {name : String}
        (hmem : .column table name ∈ parts.map (Expr.bindOuter ts cell (s.innerScopes ts scopes))) :
        .column table name ∈ parts ∧ ¬ (knownIn (s.innerScopes ts scopes) (columnSpelling table name) = false ∧
          (cell (columnSpelling table name)).isSome = true) := by
      obtain ⟨p, hp, he⟩ := List.mem_map.mp hmem
      obtain ⟨rfl, hkept⟩ := column_of_bindOuter he
      refine ⟨hp, fun ⟨hknown, hcell⟩ => ?_⟩
      rcases hkept with hk | hk
      · rw [hk] at hknown
        cases hknown
      · rw [hk] at hcell
        cases hcell
    refine .intro ?_ ?_ ?_ ?_ ?_
    · intro parts statements table name hclause hmem htext
      rcases hclause.of_bindIn with ⟨parts', statements', hclause', rfl, rfl⟩ | ⟨c, rfl, rfl⟩
      · obtain ⟨hmem', hnot⟩ := hkept hmem
        exact (hsees _ (columns hclause' hmem' htext)).resolve_right hnot
      · cases List.mem_singleton.mp hmem
    · intro c table name hc hmem htext
      have hhaving : (s.bindIn ts cell scopes).having =
          s.having.map (Condition.bindOuter ts cell (s.innerScopes ts scopes)) := by
        cases s
        exact clauseBind_eq_map _ _ _ _
      rw [hhaving] at hc
      obtain ⟨c', hc', rfl⟩ := Option.map_eq_some_iff.mp hc
      rw [Condition.parts_bindOuter] at hmem
      obtain ⟨hmem', hnot⟩ := hkept hmem
      exact (hpasses _ (groups hc' hmem' htext)).resolve_right hnot
    · intro parts statements q hclause hq
      rcases hclause.of_bindIn with ⟨parts', statements', hclause', rfl, rfl⟩ | ⟨c, rfl, rfl⟩
      · obtain ⟨q', hq', rfl⟩ := List.mem_map.mp hq
        exact ihRows hclause' hq' hsees
      · cases hq
    · intro q hq
      obtain ⟨q', hq', rfl⟩ := hq.of_bindIn
      exact ihBeside hq' hpasses
    · intro o ho
      have hoperations : (s.bindIn ts cell scopes).operations =
          s.operations.map fun o => ⟨o.operator, o.statement.bindIn ts cell scopes⟩ := by
        cases s
        exact operationsBind_eq_map _ _ _ _
      rw [hoperations] at ho
      obtain ⟨o', ho', rfl⟩ := List.mem_map.mp ho
      exact ihOperations ho' hsub

theorem Finds.mono {around around' : String → Prop} (h : s.Finds ts text around)
    (hsub : ∀ x, around x → around' x) : s.Finds ts text around' := by
  have hsame : s.bindIn ts (fun _ => none) [] = s := Statement.bindIn_eq_self fun _ _ => rfl
  have hcopy : (s.bindIn ts (fun _ => none) []).Finds ts text around' := h.bindIn fun x hx => .inl (hsub x hx)
  rwa [hsame] at hcopy

end Copies

end Statement

end GridQuery
