import GridQuery.Proofs.ConstantKeys
import GridQuery.Proofs.FoundColumns
import GridQuery.Proofs.Opened

/-!
Columns of an enclosing table. A statement whose columns are all found runs without missing one: its own stored
tables have the columns of its clauses, and a statement within it is run as a copy for a row, or depends on no
row. So a statement within a row of a table misses no column that the table has.
-/

namespace GridQuery
set_option autoImplicit false

/-! ### Statements that find their columns alone -/

namespace Statement

variable {ts : Tables} {text : String} {s s' q : Statement}

/-- Every column with a text is found within the statement, whatever is around it. -/
def FindsAlone (ts : Tables) (text : String) (s : Statement) : Prop :=
  s.Finds ts text fun _ => False

theorem FindsAlone.offers (h : s.FindsAlone ts text) {parts : List Expr} {statements : List Statement}
    (hclause : s.RowClause parts statements) {table : Option String} {name : String}
    (hmem : .column table name ∈ parts) (htext : columnText table name = text) :
    s.offers ts (columnSpelling table name) = true := by
  cases h with
  | intro columns => exact (columns hclause hmem htext).resolve_right fun hpasses => hpasses.1

theorem FindsAlone.not_having (h : s.FindsAlone ts text) {c : Condition} (hc : s.having = some c)
    {table : Option String} {name : String} (hmem : .column table name ∈ c.parts) :
    columnText table name ≠ text := by
  intro htext
  cases h with
  | intro _ groups => exact (groups hc hmem htext).1

theorem FindsAlone.onRows (h : s.FindsAlone ts text) {parts : List Expr} {statements : List Statement}
    (hclause : s.RowClause parts statements) (hq : q ∈ statements) :
    q.Finds ts text fun x => s.offers ts x = true := by
  cases h with
  | intro _ _ onRows =>
    exact (onRows hclause hq).mono fun x hx => hx.resolve_right fun hpasses => hpasses.1

theorem FindsAlone.beside (h : s.FindsAlone ts text) (hq : s.Beside q) : q.FindsAlone ts text := by
  cases h with
  | intro _ _ _ beside => exact (beside hq).mono fun x hx => hx.1

theorem FindsAlone.operation (h : s.FindsAlone ts text) {o : SetOperation} (ho : o ∈ s.operations) :
    o.statement.FindsAlone ts text := by
  cases h with
  | intro _ _ _ _ operations => exact operations ho

/-! ### Pivoted forms -/

/-- A statement over the sources of another one, with clauses out of it. -/
structure TakenFrom (s' s : Statement) : Prop where
  source : s'.source = s.source
  joins : s'.joins = s.joins
  having : ∀ c, s'.having = some c → s.having = some c
  operations : s'.operations ⊆ s.operations
  columns : ∀ {parts statements}, s'.RowClause parts statements → ∀ {table name}, .column table name ∈ parts →
    ∃ parts' statements', s.RowClause parts' statements' ∧ .column table name ∈ parts'
  statements : ∀ {parts statements}, s'.RowClause parts statements → ∀ {q}, q ∈ statements →
    ∃ parts' statements', s.RowClause parts' statements' ∧ q ∈ statements'

theorem TakenFrom.offers (h : s'.TakenFrom s) (x : String) : s'.offers ts x = s.offers ts x := by
  unfold Statement.offers
  rw [h.source, h.joins]

theorem TakenFrom.beside (h : s'.TakenFrom s) (hq : s'.Beside q) : s.Beside q := by
  cases hq with
  | source hq => exact .source (h.source ▸ hq)
  | joined hj hq => exact .joined (h.joins ▸ hj) hq
  | on hj hq => exact .on (h.joins ▸ hj) hq
  | having hc hq => exact .having (h.having _ hc) hq

theorem FindsAlone.takenFrom (h : s.FindsAlone ts text) (htaken : s'.TakenFrom s) : s'.FindsAlone ts text := by
  refine .intro ?_ ?_ ?_ ?_ ?_
  · intro parts statements table name hclause hmem htext
    obtain ⟨parts', statements', hclause', hmem'⟩ := htaken.columns hclause hmem
    exact .inl ((htaken.offers _).trans (h.offers hclause' hmem' htext))
  · intro c table name hc hmem htext
    exact absurd htext (h.not_having (htaken.having c hc) hmem)
  · intro parts statements q hclause hq
    obtain ⟨parts', statements', hclause', hq'⟩ := htaken.statements hclause hq
    exact (h.onRows hclause' hq').mono fun x hx => .inl ((htaken.offers x).trans hx)
  · intro q hq
    exact (h.beside (htaken.beside hq)).mono fun _ hx => hx.elim
  · exact fun ho => h.operation (htaken.operations ho)

/-- The statement that collects the pivot values takes its clauses from the pivoting one. -/
theorem pivotValues_takenFrom {pivot : Expr} (hp : s.pivot = some pivot) : (pivotValues s pivot).TakenFrom s := by
  have hclause {parts : List Expr} {statements : List Statement}
      (h : (pivotValues s pivot).RowClause parts statements) : s.RowClause parts statements := by
    cases h with
    | item hi =>
      rw [List.mem_singleton.mp hi]
      exact .pivot hp
    | filter hc => exact .filter hc
    | on hj => exact .on hj
    | groupBy he => cases he
    | orderBy ho =>
      rw [List.mem_singleton.mp ho]
      exact .pivot hp
    | pivot he => cases he
  exact ⟨rfl, rfl, fun _ h => (by cases h), List.nil_subset _, fun h _ _ hmem => ⟨_, _, hclause h, hmem⟩,
    fun h _ hq => ⟨_, _, hclause h, hq⟩⟩

/-- A column of a pivoted aggregate is one of the pivot or of the argument. -/
theorem column_of_pivotCall {call : AggregateCall} {pivot : Expr} {value : Cell} {table : Option String}
    {name : String} (h : .column table name ∈ (pivotCall call pivot value).parts) :
    .column table name ∈ pivot.parts ∨ .column table name ∈ exprsParts call.args := by
  simp only [pivotCall, Expr.parts, exprsParts, branchesParts, elseParts, Condition.parts, List.append_nil,
    List.mem_cons, List.mem_append, reduceCtorEq, false_or, List.not_mem_nil, or_false] at h
  refine h.imp_right fun h => ?_
  unfold pivotArgument at h
  split at h
  · cases List.mem_singleton.mp h
  · cases List.mem_singleton.mp h
  · rename_i hargs
    rw [hargs]
    exact List.mem_append_left _ h

theorem statement_of_pivotCall {call : AggregateCall} {pivot : Expr} {value : Cell}
    (h : q ∈ (pivotCall call pivot value).statements) : q ∈ pivot.statements ∨ q ∈ exprsStatements call.args := by
  simp only [pivotCall, Expr.statements, exprsStatements, branchesStatements, elseStatements,
    Condition.statements, List.append_nil, List.mem_append] at h
  exact h.imp_right fun h => pivotArgument_statements call.args h

theorem pivoted_takenFrom {pivot : Expr} (hp : s.pivot = some pivot) (values : List Cell) :
    (pivoted s pivot values).TakenFrom s := by
  have hitem {item : SelectItem} (hi : item ∈ (pivoted s pivot values).items) : item ∈ s.items ∨
      ∃ i ∈ s.items, ∃ call v, i.expr.aggregate? = some call ∧ item.expr = pivotCall call pivot v := by
    obtain ⟨i, hi', hmem⟩ := List.mem_flatMap.mp hi
    unfold pivotItem at hmem
    split at hmem
    · exact .inl (List.mem_singleton.mp hmem ▸ hi')
    · rename_i call hcall
      obtain ⟨v, _, rfl⟩ := List.mem_map.mp hmem
      exact .inr ⟨i, hi', call, v, hcall, rfl⟩
  have hother {parts : List Expr} {statements : List Statement}
      (h : (pivoted s pivot values).RowClause parts statements) : s.RowClause parts statements ∨
        ∃ i ∈ s.items, ∃ call v, i.expr.aggregate? = some call ∧ parts = (pivotCall call pivot v).parts ∧
          statements = (pivotCall call pivot v).statements := by
    cases h with
    | item hi =>
      rcases hitem hi with hi | ⟨i, hi, call, v, hcall, he⟩
      · exact .inl (.item hi)
      · exact .inr ⟨i, hi, call, v, hcall, by rw [he], by rw [he]⟩
    | filter hc => exact .inl (.filter hc)
    | on hj => exact .inl (.on hj)
    | groupBy he hne => exact .inl (.groupBy he hne)
    | orderBy ho hne => exact .inl (.orderBy ho hne)
    | pivot he => cases he
  refine ⟨rfl, rfl, fun _ h => h, List.Subset.refl _, ?_, ?_⟩
  · intro parts statements hclause table name hmem
    rcases hother hclause with h | ⟨i, hi, call, v, hcall, rfl, rfl⟩
    · exact ⟨_, _, h, hmem⟩
    · rcases column_of_pivotCall hmem with hmem | hmem
      · exact ⟨_, _, .pivot hp, hmem⟩
      · exact ⟨_, _, .item hi, aggregate_parts hcall hmem⟩
  · intro parts statements hclause q hq
    rcases hother hclause with h | ⟨i, hi, call, v, hcall, rfl, rfl⟩
    · exact ⟨_, _, h, hq⟩
    · rcases statement_of_pivotCall hq with hq | hq
      · exact ⟨_, _, .pivot hp, hq⟩
      · exact ⟨_, _, .item hi, aggregate_statements hcall hq⟩

end Statement

/-! ### Parts of fields -/

namespace Field

variable {sources : List Table} {title : String} {e : Expr} {f : Field}

theorem fieldParts_of_kind {g : Field} (h : f.kind = g.kind) :
    Scope.fieldParts f = Scope.fieldParts g ∧ f.statements = g.statements := by
  unfold Scope.fieldParts statements
  rw [h]
  exact ⟨rfl, rfl⟩

@[simp] theorem ofKind_column_parts (s c : Nat) (title : String) :
    Scope.fieldParts (ofKind (.column s c) title) = [] := rfl

theorem spellColumn_parts (f : Field) (source : Table) (column : Nat) :
    Scope.fieldParts (f.spellColumn source column) = Scope.fieldParts f :=
  (fieldParts_of_kind (spellColumn_kind f source column)).1

theorem ofValue_parts (h : ofValue sources title e = .ok f) : Scope.fieldParts f ⊆ e.parts := by
  unfold ofValue at h
  split at h
  · cases h
    exact List.nil_subset _
  · cases h
  · split at h
    · cases h
      split
      · rw [spellColumn_parts, ofKind_column_parts]
        exact List.nil_subset _
      · exact List.nil_subset _
    · cases h
  · cases h
    exact List.nil_subset _
  · split at h
    · cases h
    · cases h
      exact List.Subset.refl _

theorem ofExpr_parts (h : ofExpr sources title e = .ok f) : Scope.fieldParts f ⊆ e.parts := by
  unfold ofExpr at h
  split at h
  · exact ofValue_parts h
  · rename_i call hcall
    split at h
    · rename_i argument hargument
      obtain ⟨g, hg, h⟩ := bind_eq_ok.mp h
      cases h
      have hargs := aggregate_parts hcall
      rw [hargument, exprsParts, exprsParts, List.append_nil] at hargs
      change Scope.fieldParts g ⊆ e.parts
      exact List.Subset.trans (ofValue_parts hg) hargs
    · cases h

end Field

namespace Fields

theorem ofItem_parts {sources : List Table} {item : SelectItem} {fs : Fields} (h : ofItem sources item = .ok fs)
    {f : Field} (hf : f ∈ fs) : Scope.fieldParts f ⊆ item.expr.parts := by
  rcases mem_ofItem h hf with ⟨s, source, _, hf⟩ | ⟨g, hg, he⟩
  · obtain ⟨t, _, rfl⟩ := List.mem_map.mp hf
    rw [Field.spellColumn_parts, Field.ofKind_column_parts]
    exact List.nil_subset _
  · have hkind : f.kind = g.kind := by rw [he, Field.spell_kind]
    rw [(Field.fieldParts_of_kind hkind).1]
    exact Field.ofExpr_parts hg

theorem hidden_parts {sources : List Table} {clause : String} {e : Expr} {f : Field}
    (h : hidden sources clause e = .ok f) : Scope.fieldParts f ⊆ e.parts := by
  obtain ⟨g, hg, rfl⟩ := hidden_eq_ok h
  change Scope.fieldParts g ⊆ e.parts
  exact Field.ofExpr_parts hg

/-- A column as a key is a column of a source, and has no parts. -/
theorem hidden_column {sources : List Table} {clause : String} {table : Option String} {name : String} {f : Field}
    (h : hidden sources clause (.column table name) = .ok f) :
    Scope.fieldParts f = [] ∧ f.statements = [] := by
  obtain ⟨g, hg, rfl⟩ := hidden_eq_ok h
  obtain ⟨s, c, _, hkind, _⟩ := Field.ofValue_column hg
  exact Field.fieldParts_of_kind (g := Field.ofKind (.column s c) "") hkind

end Fields

/-! ### Columns of stored tables -/

theorem resolveFrom_isSome {first : Nat} {x : String} {sources : List Table} {t : Table} (ht : t ∈ sources)
    (hx : (t.column? x).isSome = true) : (resolveFrom first x sources).isSome = true := by
  induction sources generalizing first with
  | nil => cases ht
  | cons u sources ih =>
    unfold resolveFrom
    split
    · rfl
    · rename_i hnone
      rcases List.mem_cons.mp ht with rfl | ht
      · rw [hnone] at hx
        cases hx
      · exact ih ht

section Sources

variable {σ : Type} {world : World} {runner : Runner σ} {x : String}

theorem sourceTable_stores {source : Source} {t : Table} (hgiven : (sourceTable world runner source).MayGive t)
    (h : source.stores world.tables x = true) : (t.column? x).isSome = true := by
  obtain ⟨st, st', hgiven⟩ := hgiven
  cases source with
  | table name alias? =>
    obtain ⟨stored, mid, hstored, hgiven⟩ := Run.gives_bind.mp hgiven
    have hrequire := (Run.gives_of.mp hstored).1
    rw [(Run.gives_pure.mp hgiven).1]
    unfold Tables.require at hrequire
    simp only [Source.stores] at h
    split at hrequire
    · rename_i u hu
      cases hrequire
      rwa [hu] at h
    · cases hrequire
  | query q alias? => cases h

theorem sourceTables_stores {joins : List JoinClause} {others : List Table}
    (hgiven : (sourceTables world runner joins).MayGive others) {j : JoinClause} (hj : j ∈ joins)
    (h : j.source.stores world.tables x = true) : ∃ t ∈ others, (t.column? x).isSome = true := by
  obtain ⟨st, st', hgiven⟩ := hgiven
  induction joins generalizing others st st' with
  | nil => cases hj
  | cons k joins ih =>
    obtain ⟨t, _, ht, hgiven⟩ := Run.gives_bind.mp hgiven
    obtain ⟨tables, _, htables, hgiven⟩ := Run.gives_bind.mp hgiven
    rw [(Run.gives_pure.mp hgiven).1]
    rcases List.mem_cons.mp hj with rfl | hj
    · exact ⟨t, List.mem_cons_self, sourceTable_stores ⟨_, _, ht⟩ h⟩
    · obtain ⟨u, hu, hx⟩ := ih hj _ _ htables
      exact ⟨u, List.mem_cons_of_mem _ hu, hx⟩

/-- What a statement offers is a column of a table that it reads from. -/
theorem offers_resolveFrom {s : Statement} {first : Table} {others : List Table}
    (hfirst : (sourceTable world runner s.source).MayGive first)
    (hothers : (sourceTables world runner s.joins).MayGive others) (h : s.offers world.tables x = true) :
    (resolveFrom 0 x (first :: others)).isSome = true := by
  rcases Bool.or_eq_true_iff.mp h with h | h
  · exact resolveFrom_isSome List.mem_cons_self (sourceTable_stores hfirst h)
  · obtain ⟨j, hj, hstores⟩ := List.any_eq_true.mp h
    obtain ⟨t, ht, hx⟩ := sourceTables_stores hothers hj hstores
    exact resolveFrom_isSome (List.mem_cons_of_mem _ ht) hx

/-- And so it is a column of the table that the joins make. -/
theorem offers_working {s : Statement} {first working : Table} {others : List Table} {fields pointed : Fields}
    (hfirst : (sourceTable world runner s.source).MayGive first)
    (hothers : (sourceTables world runner s.joins).MayGive others)
    (hgiven : (joinFrom world runner 1 first fields s.joins others).MayGive (working, pointed))
    (h : s.offers world.tables x = true) : (working.column? x).isSome = true := by
  have hresolve := offers_resolveFrom hfirst hothers h
  obtain ⟨_, _, hfirst⟩ := hfirst
  obtain ⟨_, _, hothers⟩ := hothers
  obtain ⟨_, _, hgiven⟩ := hgiven
  rw [joined_column? hfirst hothers hgiven, Option.isSome_map]
  exact hresolve

end Sources

/-! ### Runs -/

/-- An error for a column with that text. -/
def Misses (text : String) (e : QueryError) : Prop :=
  e = .unknownColumn text

theorem misses_ofReferences (text : String) : OfReferences (Misses text) :=
  fun _ h => .inr ⟨text, h⟩

theorem Binds.get_freeOf (b : Binds) (n : Nat) (text : String) :
    FreeOf (Misses text) (fun _ => True) (b.get n) := by
  unfold get
  split
  · exact fun h => by cases h
  · split
    · trivial
    · exact fun h => by cases h

/-- A column is read where the table has it, and another one is not missed by that text. -/
theorem Scope.column_freeOf {s : Scope} {P : Statement → Bool → Prop} {text : String} {table : Option String}
    {name : String}
    (h : columnText table name = text → (s.table.column? (columnSpelling table name)).isSome = true) :
    FreeOf (Misses text) (Formula.Runs P) (s.column table name) := by
  unfold column
  split
  · trivial
  · rename_i hnone
    intro hmisses
    have hsome := h (QueryError.unknownColumn.inj hmisses)
    rw [(Option.or_eq_none_iff.mp hnone).1] at hsome
    cases hsome

namespace Statement

section Runs

variable {σ : Type} {world : World} {text : String} {runner : Runner σ} {s q : Statement}

/-- A statement with columns of a table is run for a row of it as a copy that has none of these left. -/
theorem Finds.runsFree {around : String → Prop} (h : q.Finds world.tables text around)
    (hr : runner.FreeOn (Misses text) (FindsAlone world.tables text)) {t : Table}
    (haround : ∀ x, around x → (t.column? x).isSome = true) :
    Rows.RunsFree (Misses text) ⟨world, t, runner⟩ q (q.isCorrelated world.tables t) := by
  intro row
  have hcopy : (q.bindOuter world.tables t row).FindsAlone world.tables text := by
    refine h.bindIn fun x hx => .inr ⟨rfl, ?_⟩
    rw [Table.cellNamed, Option.isSome_map]
    exact haround x hx
  refine hr.nested hcopy fun hflag => ?_
  rwa [bindOuter_eq_self_of_not_correlated world.tables hflag] at hcopy

theorem FindsAlone.runsFree (h : q.FindsAlone world.tables text) (hr : runner.FreeOn (Misses text) (FindsAlone world.tables text))
    (t : Table) (correlated : Bool) : Rows.RunsFree (Misses text) ⟨world, t, runner⟩ q correlated := by
  intro row
  have hcopy : (q.bindOuter world.tables t row).FindsAlone world.tables text := h.bindIn fun _ hx => hx.elim
  exact hr.nested hcopy fun _ => h

/-- A clause on rows is read without missing a column where the table has what the statement offers. -/
theorem FindsAlone.reads (h : s.FindsAlone world.tables text) (hr : runner.FreeOn (Misses text) (FindsAlone world.tables text))
    {parts : List Expr} {statements : List Statement} (hclause : s.RowClause parts statements) {t : Table}
    (hoffers : ∀ x, s.offers world.tables x = true → (t.column? x).isSome = true) :
    Rows.ReadsFree (Misses text) ⟨world, t, runner⟩ parts statements where
  kind := misses_ofReferences text
  columns _ _ hmem := Scope.column_freeOf fun htext => hoffers _ (h.offers hclause hmem htext)
  binds n _ := Binds.get_freeOf _ n text
  runs _ hq := (h.onRows hclause hq).runsFree hr hoffers

/-- `HAVING` has no column with the text, so it is read on any table. -/
theorem FindsAlone.having_reads (h : s.FindsAlone world.tables text) (hr : runner.FreeOn (Misses text) (FindsAlone world.tables text))
    {c : Condition} (hc : s.having = some c) (t : Table) :
    Rows.ReadsFree (Misses text) ⟨world, t, runner⟩ c.parts c.statements where
  kind := misses_ofReferences text
  columns _ _ hmem := Scope.column_freeOf fun htext => absurd htext (h.not_having hc hmem)
  binds n _ := Binds.get_freeOf _ n text
  runs _ hq := (h.beside (.having hc hq)).runsFree hr t _

theorem FindsAlone.joinsFree (h : s.FindsAlone world.tables text) (hr : runner.FreeOn (Misses text) (FindsAlone world.tables text))
    {j : JoinClause} (hj : j ∈ s.joins) :
    JoinsFree (Misses text) world runner j.condition.parts j.condition.statements where
  kind := misses_ofReferences text
  binds n _ := Binds.get_freeOf _ n text
  runs _ hq t correlated := (h.beside (.on hj hq)).runsFree hr t correlated

/-- Each field is made from a clause, so it is read as the clause is. -/
theorem FindsAlone.field_reads (h : s.FindsAlone world.tables text) (hr : runner.FreeOn (Misses text) (FindsAlone world.tables text))
    {sources : List Table} {plan : Layout} (hplan : layout sources s = .ok plan) {f : Field}
    (hf : f ∈ plan.fields) {t : Table}
    (hoffers : ∀ x, s.offers world.tables x = true → (t.column? x).isSome = true) :
    Rows.ReadsFree (Misses text) ⟨world, t, runner⟩ (Scope.fieldParts f) f.statements := by
  have hkey {clause : String} {e : Expr} (hnew : Fields.hidden sources clause e = .ok f)
      (hclause : (∀ table name, e ≠ .column table name) → s.RowClause e.parts e.statements) :
      Rows.ReadsFree (Misses text) ⟨world, t, runner⟩ (Scope.fieldParts f) f.statements := by
    -- A column as a key is its own hidden field, which planning has found in a source.
    by_cases hcolumn : ∃ table name, e = .column table name
    · obtain ⟨table, name, rfl⟩ := hcolumn
      rw [(Fields.hidden_column hnew).1, (Fields.hidden_column hnew).2]
      exact .nil (misses_ofReferences text)
    · have hclause := hclause fun table name he => hcolumn ⟨table, name, he⟩
      exact (h.reads hr hclause hoffers).mono (Fields.hidden_parts hnew) (Fields.hidden_statements hnew)
  rcases mem_layout hplan hf with ⟨item, hitem, gs, hgs, hf⟩ | ⟨clause, e, he, hnew⟩
  · exact (h.reads hr (.item hitem) hoffers).mono (Fields.ofItem_parts hgs hf) (Fields.ofItem_statements hgs hf)
  · rcases mem_clauseExprs.mp he with he | ⟨c, hc, he⟩ | ⟨o, ho, rfl⟩
    · exact hkey hnew (.groupBy he)
    · have hpart : e ∈ c.parts := (List.mem_filter.mp he).1
      exact (h.having_reads hr hc t).mono
        (List.Subset.trans (Fields.hidden_parts hnew) (conditionParts_subset hpart))
        (List.Subset.trans (Fields.hidden_statements hnew) (conditionParts_statements hpart))
    · exact hkey hnew (.orderBy ho)

/-- A statement runs without missing a column that is found, where the statements within it do. -/
theorem FindsAlone.runPlain_freeOf (h : s.FindsAlone world.tables text)
    (hr : runner.FreeOn (Misses text) (FindsAlone world.tables text)) : (runPlain world runner s).FreeOf (Misses text) := by
  have hfault := misses_ofReferences text
  refine GridQuery.runPlain_freeOf hfault ?_ ?_ ?_ ?_ ?_
  · exact fun q hq => hr.kept (h.beside (.source hq))
  · exact fun j hj q hq => hr.kept (h.beside (.joined hj hq))
  · exact fun j hj => h.joinsFree hr hj
  · intro first others hfirst hothers
    refine ⟨layout_freeOf hfault ?_, ?_⟩
    · intro item hitem table name hmem hmisses
      have htext : columnText table name = text := QueryError.unknownColumn.inj hmisses
      exact offers_resolveFrom hfirst hothers (h.offers (.item hitem) hmem htext)
    · intro plan working fields hplan hgiven
      have hoffers (x : String) (hx : s.offers world.tables x = true) : (working.column? x).isSome = true :=
        offers_working hfirst hothers hgiven hx
      refine ⟨fun c hc => h.reads hr (.filter hc) hoffers, fun f hf => ?_⟩
      obtain ⟨_, _, hjoin⟩ := hgiven
      obtain ⟨g, hg, hkind⟩ := joinFrom_kind hjoin hf
      rw [(Field.fieldParts_of_kind hkind).1, (Field.fieldParts_of_kind hkind).2]
      exact h.field_reads hr hplan hg hoffers
  · exact fun c hc t => h.having_reads hr hc t

end Runs

/-- A statement that finds its columns alone runs without missing one, at any depth and from any results that are
kept already. -/
theorem FindsAlone.run_freeOf {world : World} {text : String} (depth : Nat) {s : Statement}
    (h : s.FindsAlone world.tables text) : (run remembered world depth s).FreeOf (Misses text) :=
  GridQuery.run_freeOf (misses_ofReferences text) freeOf_remembered (fun hr h => h.runPlain_freeOf hr)
    (fun hp h => ⟨h.takenFrom (pivotValues_takenFrom hp), fun values => h.takenFrom (pivoted_takenFrom hp values)⟩)
    (fun h ho => h.operation ho) depth h

end Statement

/-- Columns of an outer table within a statement. Suppose that every column with a text finds its place: where it
stands, it is one of a stored table of its own statement or of a statement around it, or the outer table has it, and
no other source or alias in between has its name. Then the copy for a row has cells of that row in the place of the
columns that no scope around them knows, what is left of the columns with the text is found in the copy alone, and
neither the copy nor the step that runs the statement for the row misses a column with that text. -/
theorem outer_columns_found {world : World} {outer : Table} {q : Statement} {text : String}
    (h : q.Finds world.tables text fun x => (outer.column? x).isSome = true) (row : Nat) :
    Statement.Becomes world.tables (outer.StandsFor row) [] q (q.bindOuter world.tables outer row) ∧
      (q.bindOuter world.tables outer row).FindsAlone world.tables text ∧
      ∀ depth memo,
        ((run remembered world depth (q.bindOuter world.tables outer row)).run memo).1 ≠
          .error (.unknownColumn text) ∧
        (((rowsAt world outer depth).nested row q (q.isCorrelated world.tables outer)).run memo).1 ≠
          .error (.unknownColumn text) := by
  have hcopy : (q.bindOuter world.tables outer row).FindsAlone world.tables text := by
    refine h.bindIn fun x hx => .inr ⟨rfl, ?_⟩
    rw [Table.cellNamed, Option.isSome_map]
    exact hx
  refine ⟨Statement.becomes_bindIn outer row [] q, hcopy, ?_⟩
  intro depth memo
  have hr : (runnerAt remembered world depth).FreeOn (Misses text) (Statement.FindsAlone world.tables text) :=
    ⟨Statement.FindsAlone.run_freeOf depth, freeOf_remembered⟩
  have hrun : (run remembered world depth (q.bindOuter world.tables outer row)).FreeOf (Misses text) := hr.run hcopy
  have hnested := h.runsFree hr (fun _ hx => hx) row
  exact ⟨fun he => (hrun memo).not_error he rfl, fun he => (hnested memo).not_error he rfl⟩

/-- `SELECT A FROM T` with a filter. -/
def filteredBy (c : Condition) : Statement :=
  { keyedBy [] [] with filter := some c }

/-- `SELECT A FROM T WHERE A = O.N AND EXISTS (SELECT A FROM T WHERE A <> O.N)`. -/
theorem outer_columns_found_twoDeep :
    let inner := filteredBy (.compare .notEq (.column none "A") (.column (some "O") "N"))
    let q := filteredBy (.logic .and [.compare .eq (.column none "A") (.column (some "O") "N"), .exists false inner])
    q.Finds keysWorld.tables "O.N" (fun x => ((oneCell (.text "x")).column? x).isSome = true) ∧
      ∀ depth memo, (((rowsAt keysWorld (oneCell (.text "x")) depth).nested 0 q
        (q.isCorrelated keysWorld.tables (oneCell (.text "x")))).run memo).1 ≠ .error (.unknownColumn "O.N") := by
  intro inner q
  have hfinds {c : Condition} {around : String → Prop} (haround : around "O.N")
      (hcolumns : ∀ table name, .column table name ∈ c.parts →
        columnText table name = "O.N" → columnSpelling table name = "O.N")
      (hstatements : ∀ p ∈ c.statements,
        p.Finds keysWorld.tables "O.N" ((filteredBy c).Sees keysWorld.tables around)) :
      (filteredBy c).Finds keysWorld.tables "O.N" around := by
    have hscope : knownIn (scopeOf keysWorld.tables (keyedBy [] []).items (keyedBy [] []).source
        (keyedBy [] []).joins) "O.N" = false := by decide +kernel
    have hpasses : (filteredBy c).Passes keysWorld.tables around "O.N" := ⟨haround, hscope⟩
    refine .intro ?_ ?_ ?_ ?_ ?_
    · intro parts statements table name hclause hmem htext
      cases hclause with
      | item hi =>
        obtain rfl := List.mem_singleton.mp hi
        obtain ⟨rfl, rfl⟩ := Expr.column.inj (List.mem_singleton.mp hmem)
        exact absurd htext (by decide +kernel)
      | filter hc =>
        obtain rfl := Option.some.inj hc
        rw [hcolumns table name hmem htext]
        exact .inr hpasses
      | on hj => cases hj
      | groupBy he => cases he
      | orderBy ho => cases ho
      | pivot he => cases he
    · exact fun hc => by cases hc
    · intro parts statements p hclause hp
      cases hclause with
      | item hi =>
        obtain rfl := List.mem_singleton.mp hi
        cases hp
      | filter hc =>
        obtain rfl := Option.some.inj hc
        exact hstatements p hp
      | on hj => cases hj
      | groupBy he => cases he
      | orderBy ho => cases ho
      | pivot he => cases he
    · intro p hp
      cases hp with
      | source hp => cases hp
      | joined hj => cases hj
      | on hj => cases hj
      | having hc => cases hc
    · exact fun ho => by cases ho
  have hspelled (table : Option String) (name : String)
      (hmem : Expr.column table name ∈ [.column none "A", .column (some "O") "N"])
      (htext : columnText table name = "O.N") : columnSpelling table name = "O.N" := by
    rcases List.mem_cons.mp hmem with he | hmem
    · obtain ⟨rfl, rfl⟩ := Expr.column.inj he
      exact absurd htext (by decide +kernel)
    · obtain ⟨rfl, rfl⟩ := Expr.column.inj (List.mem_singleton.mp hmem)
      rfl
  have hfound : q.Finds keysWorld.tables "O.N" (fun x => ((oneCell (.text "x")).column? x).isSome = true) := by
    have hknown : ((oneCell (.text "x")).column? "O.N").isSome = true := by decide +kernel
    refine hfinds hknown hspelled fun p hp => ?_
    obtain rfl := List.mem_singleton.mp hp
    exact hfinds (.inr ⟨hknown, by decide +kernel⟩) hspelled fun p hp => by cases hp
  exact ⟨hfound, fun depth memo => ((outer_columns_found hfound 0).2.2 depth memo).2⟩

/-- An alias hides an outer column from the whole statement, also where only the sources are asked: for
`SELECT A AS X FROM T WHERE X = 'q'` and `SELECT X AS X FROM T`, where `T` has no `X` and the outer table has one. -/
theorem alias_hides_outer :
    let outer := Table.derived "O" ["X"] [[.text "q"]]
    let filtered := { filteredBy (.compare .eq (.column none "X") (.literal (.text "q"))) with
      items := [⟨.column none "A", "A", some "X"⟩] }
    let renamed := { keyedBy [] [] with items := [⟨.column none "X", "X", some "X"⟩] }
    outer.column? "X" = some 0 ∧ ∀ q ∈ [filtered, renamed], q.offers keysWorld.tables "X" = false ∧
      (((rowsAt keysWorld outer 1).nested 0 q (q.isCorrelated keysWorld.tables outer)).run []).1 =
        .error (.unknownColumn "X") := by
  decide +kernel

end GridQuery
