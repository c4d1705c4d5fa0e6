import GridQuery.Proofs.Planning

/-!
The statements directly within expressions, formulas, fields and statements. Reading an expression as
a formula, planning the fields of a statement and pivoting it bring no statements of their own.
-/

namespace GridQuery
set_option autoImplicit false

mutual

def Expr.statements : Expr → List Statement
  | .literal _ => []
  | .column .. => []
  | .bind _ => []
  | .binary _ a b => a.statements ++ b.statements
  | .unary _ a => a.statements
  | .call _ _ args => exprsStatements args
  | .case branches otherwise => branchesStatements branches ++ elseStatements otherwise
  | .ite c a b => c.statements ++ (a.statements ++ b.statements)
  | .subquery q => [q]
  | .list items => exprsStatements items
  | .star _ => []
  | .paren a => a.statements

def exprsStatements : List Expr → List Statement
  | [] => []
  | e :: es => e.statements ++ exprsStatements es

def branchesStatements : List (Condition × Expr) → List Statement
  | [] => []
  | (c, e) :: bs => c.statements ++ (e.statements ++ branchesStatements bs)

def elseStatements : Option Expr → List Statement
  | none => []
  | some e => e.statements

def Condition.statements : Condition → List Statement
  | .compare _ a b => a.statements ++ b.statements
  | .logic _ terms => termsStatements terms
  | .not c => c.statements
  | .exists _ q => [q]

def termsStatements : List Condition → List Statement
  | [] => []
  | c :: cs => c.statements ++ termsStatements cs

end

theorem mem_exprsStatements {q : Statement} {es : List Expr} :
    q ∈ exprsStatements es ↔ ∃ e ∈ es, q ∈ e.statements := by
  induction es with
  | nil => simp [exprsStatements]
  | cons e es ih => simp [exprsStatements, ih]

mutual

def Formula.statements : Formula → List Statement
  | .const _ => []
  | .slot _ => []
  | .binary _ a b => a.statements ++ b.statements
  | .negate a => a.statements
  | .call _ args => formulasStatements args
  | .case branches otherwise => choicesStatements branches ++ otherwiseStatements otherwise
  | .subquery q _ => [q]
  | .list items => formulasStatements items

def formulasStatements : List Formula → List Statement
  | [] => []
  | f :: fs => f.statements ++ formulasStatements fs

def choicesStatements : List (Test × Formula) → List Statement
  | [] => []
  | (t, f) :: bs => t.statements ++ (f.statements ++ choicesStatements bs)

def otherwiseStatements : Option Formula → List Statement
  | none => []
  | some f => f.statements

def Test.statements : Test → List Statement
  | .compare _ a b _ => a.statements ++ b.statements
  | .logic _ terms => testsStatements terms
  | .not t => t.statements
  | .exists _ q _ => [q]

def testsStatements : List Test → List Statement
  | [] => []
  | t :: ts => t.statements ++ testsStatements ts

end

def Source.statements : Source → List Statement
  | .table .. => []
  | .query q _ => [q]

/-- A statement stands directly within another one. -/
inductive Statement.Within (s : Statement) : Statement → Prop where
  | source {q} : q ∈ s.source.statements → Within s q
  | joined {j q} : j ∈ s.joins → q ∈ j.source.statements → Within s q
  | on {j q} : j ∈ s.joins → q ∈ j.condition.statements → Within s q
  | item {i q} : i ∈ s.items → q ∈ i.expr.statements → Within s q
  | filter {c q} : s.filter = some c → q ∈ c.statements → Within s q
  | groupBy {e q} : e ∈ s.groupBy → q ∈ e.statements → Within s q
  | having {c q} : s.having = some c → q ∈ c.statements → Within s q
  | orderBy {o q} : o ∈ s.orderBy → q ∈ o.expr.statements → Within s q
  | pivot {e q} : s.pivot = some e → q ∈ e.statements → Within s q
  | operation {o} : o ∈ s.operations → Within s o.statement

def Field.statements (f : Field) : List Statement :=
  match f.kind with
  | .column .. => []
  | .calculated e => e.statements
  | .subquery q => [q]
  | .star => []

theorem mem_of_lookup {β : Type} {l : List (String × β)} {key : String} {b : β}
    (h : l.lookup key = some b) : (key, b) ∈ l := by
  obtain ⟨before, after, rfl, _⟩ := List.lookup_eq_some_iff.mp h
  simp

namespace Scope

theorem column_statements {s : Scope} {table : Option String} {name : String} {f : Formula}
    (h : s.column table name = .ok f) : f.statements = [] := by
  unfold column at h
  split at h
  · cases h; simp [Formula.statements]
  · cases h

mutual

/-- The formula of an expression has no statements but the expression's. -/
theorem formula_statements (s : Scope) :
    ∀ (e : Expr) {f : Formula}, s.formula e = .ok f → f.statements ⊆ e.statements
  | .literal c, f, h => by
    simp only [formula, Except.ok.injEq] at h
    subst f
    simp [Formula.statements]
  | .column table name, f, h => by
    simp only [formula] at h
    simp [column_statements h]
  | .bind n, f, h => by
    simp only [formula] at h
    cases hc : s.binds.get n with
    | ok c =>
      simp only [hc, Except.map, Except.ok.injEq] at h
      subst f
      simp [Formula.statements]
    | error e => simp [hc, Except.map] at h
  | .binary op a b, f, h => by
    simp only [formula] at h
    split at h
    · cases h; simp [Formula.statements]
    · obtain ⟨x, hx, h⟩ := bind_eq_ok.mp h
      obtain ⟨y, hy, h⟩ := bind_eq_ok.mp h
      cases h
      have ha := formula_statements s a hx
      have hb := formula_statements s b hy
      simp only [Formula.statements, Expr.statements]
      exact List.append_subset.mpr ⟨List.subset_append_of_subset_left _ ha,
        List.subset_append_of_subset_right _ hb⟩
  | .unary sign a, f, h => by
    simp only [formula] at h
    split at h
    · cases h; simp [Formula.statements]
    · obtain ⟨x, hx, h⟩ := bind_eq_ok.mp h
      have ha := formula_statements s a hx
      cases h
      cases sign with
      | minus => simpa only [Formula.statements, Expr.statements] using ha
      | plus => simpa only [Expr.statements] using ha
  | .call name distinct args, f, h => by
    simp only [formula] at h
    split at h
    · cases h; simp [Formula.statements]
    · obtain ⟨g, _, h⟩ := bind_eq_ok.mp h
      obtain ⟨xs, hxs, h⟩ := bind_eq_ok.mp h
      cases h
      simpa only [Formula.statements, Expr.statements] using arguments_statements s g 0 args hxs
  | .case branches otherwise, f, h => by
    simp only [formula] at h
    split at h
    · cases h; simp [Formula.statements]
    · obtain ⟨bs, hbs, h⟩ := bind_eq_ok.mp h
      obtain ⟨o, ho, h⟩ := bind_eq_ok.mp h
      cases h
      have hb := branches_statements s branches hbs
      have he := optional_statements s otherwise ho
      simp only [Formula.statements, Expr.statements]
      exact List.append_subset.mpr ⟨List.subset_append_of_subset_left _ hb,
        List.subset_append_of_subset_right _ he⟩
  | .ite c a b, f, h => by
    simp only [formula] at h
    split at h
    · cases h; simp [Formula.statements]
    · obtain ⟨t, ht, h⟩ := bind_eq_ok.mp h
      obtain ⟨x, hx, h⟩ := bind_eq_ok.mp h
      obtain ⟨y, hy, h⟩ := bind_eq_ok.mp h
      cases h
      have hc := test_statements s c ht
      have ha := formula_statements s a hx
      have hb := formula_statements s b hy
      simp only [Formula.statements, choicesStatements, otherwiseStatements, Expr.statements]
      intro q hq
      simp only [List.mem_append, List.append_nil] at hq ⊢
      rcases hq with (hq | hq) | hq
      · exact Or.inl (hc hq)
      · exact Or.inr (Or.inl (ha hq))
      · exact Or.inr (Or.inr (hb hq))
  | .subquery q, f, h => by
    simp only [formula] at h
    split at h
    · cases h; simp [Formula.statements]
    · cases h; simp [Scope.subquery, Formula.statements, Expr.statements]
  | .list items, f, h => by
    simp only [formula] at h
    split at h
    · cases h; simp [Formula.statements]
    · obtain ⟨xs, hxs, h⟩ := bind_eq_ok.mp h
      cases h
      simpa only [Formula.statements, Expr.statements] using formulas_statements s items hxs
  | .star table, f, h => by
    simp only [formula] at h
    split at h <;> (cases h; simp [Formula.statements])
  | .paren a, f, h => by
    simp only [formula] at h
    split at h
    · cases h; simp [Formula.statements]
    · simpa only [Expr.statements] using formula_statements s a h

theorem formulas_statements (s : Scope) :
    ∀ (es : List Expr) {fs : List Formula}, s.formulas es = .ok fs →
      formulasStatements fs ⊆ exprsStatements es
  | [], fs, h => by
    simp only [formulas, Except.ok.injEq] at h
    subst fs
    simp [formulasStatements]
  | e :: es, fs, h => by
    simp only [formulas] at h
    obtain ⟨x, hx, h⟩ := bind_eq_ok.mp h
    obtain ⟨xs, hxs, h⟩ := bind_eq_ok.mp h
    cases h
    simp only [formulasStatements, exprsStatements]
    exact List.append_subset.mpr
      ⟨List.subset_append_of_subset_left _ (formula_statements s e hx),
        List.subset_append_of_subset_right _ (formulas_statements s es hxs)⟩

theorem arguments_statements (s : Scope) (g : ScalarFunction) :
    ∀ (i : Nat) (es : List Expr) {fs : List Formula}, s.arguments g i es = .ok fs →
      formulasStatements fs ⊆ exprsStatements es
  | i, [], fs, h => by
    simp only [arguments, Except.ok.injEq] at h
    subst fs
    simp [formulasStatements]
  | i, e :: es, fs, h => by
    have split : ∃ x xs, x.statements ⊆ e.statements ∧ s.arguments g (i + 1) es = .ok xs ∧
        fs = x :: xs := by
      simp only [arguments] at h
      split at h
      · obtain ⟨x, hx, h⟩ := bind_eq_ok.mp h
        obtain ⟨xs, hxs, h⟩ := bind_eq_ok.mp h
        cases hx
        cases h
        exact ⟨_, xs, by simp [Formula.statements], hxs, rfl⟩
      · obtain ⟨x, hx, h⟩ := bind_eq_ok.mp h
        obtain ⟨xs, hxs, h⟩ := bind_eq_ok.mp h
        cases h
        exact ⟨x, xs, formula_statements s e hx, hxs, rfl⟩
    obtain ⟨x, xs, hx, hxs, rfl⟩ := split
    simp only [formulasStatements, exprsStatements]
    exact List.append_subset.mpr ⟨List.subset_append_of_subset_left _ hx,
      List.subset_append_of_subset_right _ (arguments_statements s g (i + 1) es hxs)⟩

theorem branches_statements (s : Scope) :
    ∀ (bs : List (Condition × Expr)) {cs : List (Test × Formula)}, s.branches bs = .ok cs →
      choicesStatements cs ⊆ branchesStatements bs
  | [], cs, h => by
    simp only [branches, Except.ok.injEq] at h
    subst cs
    simp [choicesStatements]
  | (c, e) :: bs, cs, h => by
    simp only [branches] at h
    obtain ⟨t, ht, h⟩ := bind_eq_ok.mp h
    obtain ⟨x, hx, h⟩ := bind_eq_ok.mp h
    obtain ⟨ys, hys, h⟩ := bind_eq_ok.mp h
    cases h
    have hc := test_statements s c ht
    have he := formula_statements s e hx
    have hr := branches_statements s bs hys
    simp only [choicesStatements, branchesStatements]
    intro q hq
    simp only [List.mem_append] at hq ⊢
    rcases hq with hq | hq | hq
    · exact Or.inl (hc hq)
    · exact Or.inr (Or.inl (he hq))
    · exact Or.inr (Or.inr (hr hq))

theorem optional_statements (s : Scope) :
    ∀ (o : Option Expr) {p : Option Formula}, s.optional o = .ok p →
      otherwiseStatements p ⊆ elseStatements o
  | none, p, h => by
    simp only [optional, Except.ok.injEq] at h
    subst p
    simp [otherwiseStatements]
  | some e, p, h => by
    simp only [optional] at h
    obtain ⟨x, hx, h⟩ := bind_eq_ok.mp h
    cases h
    simpa only [otherwiseStatements, elseStatements] using formula_statements s e hx

theorem test_statements (s : Scope) :
    ∀ (c : Condition) {t : Test}, s.test c = .ok t → t.statements ⊆ c.statements
  | .compare op a b, t, h => by
    simp only [test] at h
    obtain ⟨x, hx, h⟩ := bind_eq_ok.mp h
    obtain ⟨y, hy, h⟩ := bind_eq_ok.mp h
    cases h
    simp only [Test.statements, Condition.statements]
    exact List.append_subset.mpr
      ⟨List.subset_append_of_subset_left _ (formula_statements s a hx),
        List.subset_append_of_subset_right _ (formula_statements s b hy)⟩
  | .logic op terms, t, h => by
    simp only [test] at h
    obtain ⟨ts, hts, h⟩ := bind_eq_ok.mp h
    cases h
    simpa only [Test.statements, Condition.statements] using tests_statements s terms hts
  | .not c, t, h => by
    simp only [test] at h
    obtain ⟨u, hu, h⟩ := bind_eq_ok.mp h
    cases h
    simpa only [Test.statements, Condition.statements] using test_statements s c hu
  | .exists negated q, t, h => by
    simp only [test, Except.ok.injEq] at h
    subst t
    simp [Test.statements, Condition.statements]

theorem tests_statements (s : Scope) :
    ∀ (cs : List Condition) {ts : List Test}, s.tests cs = .ok ts →
      testsStatements ts ⊆ termsStatements cs
  | [], ts, h => by
    simp only [tests, Except.ok.injEq] at h
    subst ts
    simp [testsStatements]
  | c :: cs, ts, h => by
    simp only [tests] at h
    obtain ⟨t, ht, h⟩ := bind_eq_ok.mp h
    obtain ⟨us, hus, h⟩ := bind_eq_ok.mp h
    cases h
    simp only [testsStatements, termsStatements]
    exact List.append_subset.mpr
      ⟨List.subset_append_of_subset_left _ (test_statements s c ht),
        List.subset_append_of_subset_right _ (tests_statements s cs hus)⟩

end

end Scope

/-- The arguments of an aggregate are within it, also behind brackets. -/
theorem aggregate_statements :
    ∀ {e : Expr} {call : AggregateCall}, e.aggregate? = some call →
      exprsStatements call.args ⊆ e.statements
  | .call name distinct args, call, h => by
    simp only [Expr.aggregate?, Option.map_eq_some_iff] at h
    obtain ⟨a, _, rfl⟩ := h
    simp [Expr.statements]
  | .paren e, call, h => by
    simp only [Expr.aggregate?] at h
    simpa only [Expr.statements] using aggregate_statements h
  | .literal _, _, h | .column .., _, h | .bind _, _, h | .binary .., _, h | .unary .., _, h
  | .case .., _, h | .ite .., _, h | .subquery _, _, h | .list _, _, h | .star _, _, h => by
    simp [Expr.aggregate?] at h

mutual

theorem parts_statements {p : Expr} : ∀ {e : Expr}, p ∈ e.parts → p.statements ⊆ e.statements
  | .binary op a b, h => by
    simp only [Expr.parts, List.mem_cons, List.mem_append] at h
    rcases h with rfl | h | h
    · exact List.Subset.refl _
    · simpa only [Expr.statements] using List.subset_append_of_subset_left _ (parts_statements h)
    · simpa only [Expr.statements] using List.subset_append_of_subset_right _ (parts_statements h)
  | .unary sign a, h => by
    simp only [Expr.parts, List.mem_cons] at h
    rcases h with rfl | h
    · exact List.Subset.refl _
    · simpa only [Expr.statements] using parts_statements h
  | .paren a, h => by
    simp only [Expr.parts, List.mem_cons] at h
    rcases h with rfl | h
    · exact List.Subset.refl _
    · simpa only [Expr.statements] using parts_statements h
  | .call name distinct args, h => by
    simp only [Expr.parts, List.mem_cons] at h
    rcases h with rfl | h
    · exact List.Subset.refl _
    · simpa only [Expr.statements] using exprsParts_statements h
  | .list items, h => by
    simp only [Expr.parts, List.mem_cons] at h
    rcases h with rfl | h
    · exact List.Subset.refl _
    · simpa only [Expr.statements] using exprsParts_statements h
  | .case branches otherwise, h => by
    simp only [Expr.parts, List.mem_cons, List.mem_append] at h
    rcases h with rfl | h | h
    · exact List.Subset.refl _
    · simpa only [Expr.statements] using
        List.subset_append_of_subset_left _ (branchesParts_statements h)
    · simpa only [Expr.statements] using
        List.subset_append_of_subset_right _ (elseParts_statements h)
  | .ite c a b, h => by
    simp only [Expr.parts, List.mem_cons, List.mem_append] at h
    simp only [Expr.statements]
    rcases h with rfl | (h | h) | h
    · simp only [Expr.statements]
      exact List.Subset.refl _
    · exact List.subset_append_of_subset_left _ (conditionParts_statements h)
    · exact List.subset_append_of_subset_right _
        (List.subset_append_of_subset_left _ (parts_statements h))
    · exact List.subset_append_of_subset_right _
        (List.subset_append_of_subset_right _ (parts_statements h))
  | .literal _, h | .column .., h | .bind _, h | .subquery _, h | .star _, h => by
    simp only [Expr.parts, List.mem_singleton] at h
    subst h
    exact List.Subset.refl _

theorem exprsParts_statements {p : Expr} :
    ∀ {es : List Expr}, p ∈ exprsParts es → p.statements ⊆ exprsStatements es
  | [], h => by simp [exprsParts] at h
  | e :: es, h => by
    simp only [exprsParts, List.mem_append] at h
    simp only [exprsStatements]
    rcases h with h | h
    · exact List.subset_append_of_subset_left _ (parts_statements h)
    · exact List.subset_append_of_subset_right _ (exprsParts_statements h)

theorem branchesParts_statements {p : Expr} :
    ∀ {bs : List (Condition × Expr)}, p ∈ branchesParts bs → p.statements ⊆ branchesStatements bs
  | [], h => by simp [branchesParts] at h
  | (c, e) :: bs, h => by
    simp only [branchesParts, List.mem_append] at h
    simp only [branchesStatements]
    rcases h with (h | h) | h
    · exact List.subset_append_of_subset_left _ (conditionParts_statements h)
    · exact List.subset_append_of_subset_right _
        (List.subset_append_of_subset_left _ (parts_statements h))
    · exact List.subset_append_of_subset_right _
        (List.subset_append_of_subset_right _ (branchesParts_statements h))

theorem elseParts_statements {p : Expr} :
    ∀ {o : Option Expr}, p ∈ elseParts o → p.statements ⊆ elseStatements o
  | none, h => by simp [elseParts] at h
  | some e, h => by
    simp only [elseParts] at h
    simpa only [elseStatements] using parts_statements h

theorem conditionParts_statements {p : Expr} :
    ∀ {c : Condition}, p ∈ c.parts → p.statements ⊆ c.statements
  | .compare op a b, h => by
    simp only [Condition.parts, List.mem_append] at h
    simp only [Condition.statements]
    rcases h with h | h
    · exact List.subset_append_of_subset_left _ (parts_statements h)
    · exact List.subset_append_of_subset_right _ (parts_statements h)
  | .logic op terms, h => by
    simp only [Condition.parts] at h
    simpa only [Condition.statements] using termsParts_statements h
  | .not c, h => by
    simp only [Condition.parts] at h
    simpa only [Condition.statements] using conditionParts_statements h
  | .exists negated q, h => by simp [Condition.parts] at h

theorem termsParts_statements {p : Expr} :
    ∀ {cs : List Condition}, p ∈ termsParts cs → p.statements ⊆ termsStatements cs
  | [], h => by simp [termsParts] at h
  | c :: cs, h => by
    simp only [termsParts, List.mem_append] at h
    simp only [termsStatements]
    rcases h with h | h
    · exact List.subset_append_of_subset_left _ (conditionParts_statements h)
    · exact List.subset_append_of_subset_right _ (termsParts_statements h)

end

namespace Field

@[simp] theorem ofKind_statements_column (s c : Nat) (title : String) :
    (ofKind (.column s c) title).statements = [] := rfl

@[simp] theorem spell_statements (f : Field) (spelling : String) :
    (f.spell spelling).statements = f.statements := by
  unfold statements
  rw [spell_kind]

@[simp] theorem spellColumn_statements (f : Field) (source : Table) (column : Nat) :
    (f.spellColumn source column).statements = f.statements := by
  unfold statements
  rw [spellColumn_kind]

theorem ofValue_statements {sources : List Table} {title : String} {e : Expr} {f : Field}
    (h : ofValue sources title e = .ok f) : f.statements ⊆ e.statements := by
  unfold ofValue at h
  split at h
  · cases h; exact List.nil_subset _
  · cases h
  · split at h
    · cases h
      split <;> simp
    · cases h
  · cases h; exact List.Subset.refl _
  · split at h
    · cases h
    · cases h; exact List.Subset.refl _

theorem ofExpr_statements {sources : List Table} {title : String} {e : Expr} {f : Field}
    (h : ofExpr sources title e = .ok f) : f.statements ⊆ e.statements := by
  unfold ofExpr at h
  split at h
  · exact ofValue_statements h
  · rename_i call hcall
    split at h
    · rename_i arg harg
      obtain ⟨g, hg, h⟩ := bind_eq_ok.mp h
      cases h
      have hargs := aggregate_statements hcall
      simp only [harg, exprsStatements, List.append_nil] at hargs
      change g.statements ⊆ e.statements
      exact List.Subset.trans (ofValue_statements hg) hargs
    · cases h

end Field

namespace Fields

theorem ofItem_statements {sources : List Table} {item : SelectItem} {fs : Fields}
    (h : ofItem sources item = .ok fs) {f : Field} (hf : f ∈ fs) :
    f.statements ⊆ item.expr.statements := by
  rcases mem_ofItem h hf with ⟨s, source, _, hf⟩ | ⟨g, hg, he⟩
  · obtain ⟨t, _, rfl⟩ := List.mem_map.mp hf
    simp
  · rw [he, Field.spell_statements]
    exact Field.ofExpr_statements hg

theorem hidden_statements {sources : List Table} {clause : String} {e : Expr} {f : Field}
    (h : hidden sources clause e = .ok f) : f.statements ⊆ e.statements := by
  obtain ⟨g, hg, rfl⟩ := hidden_eq_ok h
  change g.statements ⊆ e.statements
  exact Field.ofExpr_statements hg

end Fields

/-- Planning a statement puts no statements into fields but those within it. -/
theorem layout_within {sources : List Table} {s : Statement} {plan : Layout}
    (h : layout sources s = .ok plan) {f : Field} (hf : f ∈ plan.fields) {q : Statement}
    (hq : q ∈ f.statements) : s.Within q := by
  rcases mem_layout h hf with ⟨item, hitem, gs, hgs, hf⟩ | ⟨_, e, he, hnew⟩
  · exact .item hitem (Fields.ofItem_statements hgs hf hq)
  · rcases mem_clauseExprs.mp he with he | ⟨c, hc, he⟩ | ⟨o, ho, rfl⟩
    · exact .groupBy he (Fields.hidden_statements hnew hq)
    · have hpart : e ∈ c.parts := (List.mem_filter.mp he).1
      exact .having hc (conditionParts_statements hpart (Fields.hidden_statements hnew hq))
    · exact .orderBy ho (Fields.hidden_statements hnew hq)

/-- The formula of a field has no statements but its own and those of the formulas made before. -/
theorem Scope.fieldFormula_statements {s : Scope} {memo memo' : FormulaMemo} {field : Field}
    {f : Formula} {P : Statement → Prop} (h : s.fieldFormula memo field = .ok (f, memo'))
    (hmemo : ∀ e ∈ memo, ∀ q ∈ e.2.statements, P q) (hfield : ∀ q ∈ field.statements, P q) :
    (∀ q ∈ f.statements, P q) ∧ ∀ e ∈ memo', ∀ q ∈ e.2.statements, P q := by
  unfold fieldFormula at h
  unfold Field.statements at hfield
  split at h
  · split at h
    · cases h; exact ⟨by simp [Formula.statements], hmemo⟩
    · cases h
  · rename_i e hkind
    simp only [hkind] at hfield
    unfold Scope.recall at h
    split at h
    · rename_i g hg
      cases h
      exact ⟨hmemo _ (mem_of_lookup hg), hmemo⟩
    · obtain ⟨g, hg, h⟩ := bind_eq_ok.mp h
      cases h
      have hp : ∀ q ∈ f.statements, P q := fun q hq => hfield q (formula_statements s e hg hq)
      refine ⟨hp, ?_⟩
      intro entry hentry
      rcases List.mem_cons.mp hentry with rfl | hentry
      · exact hp
      · exact hmemo _ hentry
  · rename_i q hkind
    simp only [hkind] at hfield
    cases h
    exact ⟨by simpa [subquery, Formula.statements] using hfield, hmemo⟩
  · cases h; exact ⟨by simp [Formula.statements], hmemo⟩

theorem Scope.fieldFormulas_statements {s : Scope} {P : Statement → Prop} {fields : List Field}
    {memo : FormulaMemo} {fs : List Formula} (h : s.fieldFormulas memo fields = .ok fs)
    (hmemo : ∀ e ∈ memo, ∀ q ∈ e.2.statements, P q)
    (hfields : ∀ f ∈ fields, ∀ q ∈ f.statements, P q) : ∀ q ∈ formulasStatements fs, P q := by
  induction fields generalizing memo fs with
  | nil => cases h; simp [formulasStatements]
  | cons field fields ih =>
    unfold fieldFormulas at h
    obtain ⟨⟨x, memo'⟩, hx, h⟩ := bind_eq_ok.mp h
    obtain ⟨xs, hxs, h⟩ := bind_eq_ok.mp h
    cases h
    obtain ⟨hfirst, hmemo'⟩ := fieldFormula_statements hx hmemo (hfields field List.mem_cons_self)
    have hrest := ih hxs hmemo' fun f hf => hfields f (List.mem_cons_of_mem _ hf)
    simp only [formulasStatements, List.forall_mem_append]
    exact ⟨hfirst, hrest⟩

theorem pivotArgument_statements (args : List Expr) :
    (pivotArgument args).statements ⊆ exprsStatements args := by
  unfold pivotArgument
  split
  · simp [Expr.statements]
  · simp [Expr.statements]
  · simp [exprsStatements]

/-- A pivoted statement has no statements within it but those of the pivoting one. -/
theorem pivoted_within {s : Statement} {pivot : Expr} (hp : s.pivot = some pivot)
    {values : List Cell} {q : Statement} (h : (pivoted s pivot values).Within q) : s.Within q := by
  cases h with
  | source h => exact .source h
  | joined hj h => exact .joined hj h
  | on hj h => exact .on hj h
  | filter hc h => exact .filter hc h
  | groupBy he h => exact .groupBy he h
  | having hc h => exact .having hc h
  | orderBy ho h => exact .orderBy ho h
  | pivot he h => cases he
  | operation ho => exact .operation ho
  | item hi h =>
    obtain ⟨item, hitem, hi⟩ := List.mem_flatMap.mp hi
    unfold pivotItem at hi
    split at hi
    · rw [List.mem_singleton.mp hi] at h
      exact .item hitem h
    · rename_i call hcall
      obtain ⟨v, _, rfl⟩ := List.mem_map.mp hi
      simp only [pivotCall, Expr.statements, exprsStatements, branchesStatements, elseStatements,
        Condition.statements, List.append_nil, List.mem_append] at h
      rcases h with h | h
      · exact .pivot hp h
      · exact .item hitem (aggregate_statements hcall (pivotArgument_statements call.args h))

theorem pivotValues_within {s : Statement} {pivot : Expr} (hp : s.pivot = some pivot)
    {q : Statement} (h : (pivotValues s pivot).Within q) : s.Within q := by
  cases h with
  | source h => exact .source h
  | joined hj h => exact .joined hj h
  | on hj h => exact .on hj h
  | filter hc h => exact .filter hc h
  | groupBy he h => cases he
  | having hc h => cases hc
  | orderBy ho h =>
    rw [List.mem_singleton.mp ho] at h
    exact .pivot hp h
  | pivot he h => cases he
  | operation ho => cases ho
  | item hi h =>
    rw [List.mem_singleton.mp hi] at h
    exact .pivot hp h

end GridQuery
