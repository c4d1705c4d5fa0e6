import GridQuery.Proofs.NamedTables
import GridQuery.Proofs.Placeholders

/-!
One expression in two scopes. A formula takes from its scope the columns of the table, the values of the
placeholders in the expression, and which of its statements are correlated; where two scopes agree on that
much, they read the expression as the same formula.
-/

namespace GridQuery
set_option autoImplicit false

theorem Table.column?_eq_of_schema {t t' : Table} (h : t.schema = t'.schema) (name : String) :
    t.column? name = t'.column? name := by
  unfold Table.column?
  rw [h]

namespace Scope

/-- Columns mean the same in two scopes, and so do the statements in `P` and the placeholders in `B`. -/
structure Agree (s s' : Scope) (P : Statement → Prop) (B : Nat → Prop) : Prop where
  schema_eq : s.table.schema = s'.table.schema
  correlated_eq : ∀ q, P q → q.isCorrelated s.tables s.table = q.isCorrelated s'.tables s'.table
  bind_eq : ∀ n, B n → s.binds.get n = s'.binds.get n

namespace Agree

variable {s s' : Scope} {P : Statement → Prop} {B : Nat → Prop}

section

variable (h : s.Agree s' P B)

include h

theorem written?_eq (e : Expr) : s.written? e = s'.written? e :=
  Table.column?_eq_of_schema h.schema_eq e.text

theorem column_eq (table : Option String) (name : String) : s.column table name = s'.column table name := by
  unfold Scope.column
  rw [Table.column?_eq_of_schema h.schema_eq, h.written?_eq]

theorem subquery_eq {q : Statement} (hq : P q) : s.subquery q = s'.subquery q := by
  unfold Scope.subquery
  rw [h.correlated_eq q hq]

end

mutual

theorem formula_eq (h : s.Agree s' P B) : ∀ {e : Expr}, (∀ q ∈ e.statements, P q) →
    (∀ n, e.HasBind n → B n) → s.formula e = s'.formula e
  | .literal c, _, _ => by simp only [formula]
  | .column table name, _, _ => by simp only [formula, h.column_eq]
  | .bind n, _, hb => by simp only [formula, h.bind_eq n (hb n .bind)]
  | .binary op a b, hq, hb => by
    simp only [Expr.statements, List.forall_mem_append] at hq
    simp only [formula, h.written?_eq, formula_eq h hq.1 fun n hn => hb n (.left hn),
      formula_eq h hq.2 fun n hn => hb n (.right hn)]
  | .unary sign a, hq, hb => by
    simp only [formula, h.written?_eq, formula_eq (e := a) h hq fun n hn => hb n (.operand hn)]
  | .call name distinct args, hq, hb => by
    simp only [formula, h.written?_eq,
      fun f i => arguments_eq (l := args) h f i hq fun n ⟨_, he, hn⟩ => hb n (.arg he hn)]
  | .case branches otherwise, hq, hb => by
    simp only [Expr.statements, List.forall_mem_append] at hq
    simp only [formula, h.written?_eq,
      branches_eq h hq.1 fun n ⟨_, hm, hn⟩ => hb n (hn.elim (.when hm) (.then hm)),
      optional_eq h hq.2 fun n ⟨_, he, hn⟩ => hb n (.else he hn)]
  | .ite c a b, hq, hb => by
    simp only [Expr.statements, List.forall_mem_append] at hq
    simp only [formula, h.written?_eq, test_eq h hq.1 fun n hn => hb n (.test hn),
      formula_eq h hq.2.1 fun n hn => hb n (.yes hn), formula_eq h hq.2.2 fun n hn => hb n (.no hn)]
  | .subquery q, hq, _ => by
    simp only [formula, h.written?_eq, h.subquery_eq (hq q (List.mem_singleton_self q))]
  | .list items, hq, hb => by
    simp only [formula, h.written?_eq,
      formulas_eq (l := items) h hq fun n ⟨_, he, hn⟩ => hb n (.item he hn)]
  | .star table, _, _ => by simp only [formula, h.written?_eq]
  | .paren a, hq, hb => by
    simp only [formula, h.written?_eq, formula_eq (e := a) h hq fun n hn => hb n (.paren hn)]

theorem formulas_eq (h : s.Agree s' P B) : ∀ {l : List Expr}, (∀ q ∈ exprsStatements l, P q) →
    (∀ n, (∃ e ∈ l, e.HasBind n) → B n) → s.formulas l = s'.formulas l
  | [], _, _ => by simp only [formulas]
  | e :: es, hq, hb => by
    simp only [exprsStatements, List.forall_mem_append] at hq
    simp only [List.mem_cons, exists_eq_or_imp] at hb
    simp only [formulas, formula_eq h hq.1 fun n hn => hb n (.inl hn),
      formulas_eq h hq.2 fun n hn => hb n (.inr hn)]

theorem arguments_eq (h : s.Agree s' P B) (f : ScalarFunction) : ∀ (i : Nat) {l : List Expr},
    (∀ q ∈ exprsStatements l, P q) → (∀ n, (∃ e ∈ l, e.HasBind n) → B n) →
    s.arguments f i l = s'.arguments f i l
  | _, [], _, _ => by simp only [arguments]
  | i, e :: es, hq, hb => by
    simp only [exprsStatements, List.forall_mem_append] at hq
    simp only [List.mem_cons, exists_eq_or_imp] at hb
    simp only [arguments, formula_eq h hq.1 fun n hn => hb n (.inl hn),
      arguments_eq h f (i + 1) hq.2 fun n hn => hb n (.inr hn)]

theorem branches_eq (h : s.Agree s' P B) : ∀ {bs : List (Condition × Expr)},
    (∀ q ∈ branchesStatements bs, P q) →
    (∀ n, (∃ b ∈ bs, b.1.HasBind n ∨ b.2.HasBind n) → B n) → s.branches bs = s'.branches bs
  | [], _, _ => by simp only [branches]
  | (c, e) :: bs, hq, hb => by
    simp only [branchesStatements, List.forall_mem_append] at hq
    simp only [List.mem_cons, exists_eq_or_imp] at hb
    simp only [branches, test_eq h hq.1 fun n hn => hb n (.inl (.inl hn)),
      formula_eq h hq.2.1 fun n hn => hb n (.inl (.inr hn)),
      branches_eq h hq.2.2 fun n hn => hb n (.inr hn)]

theorem optional_eq (h : s.Agree s' P B) : ∀ {o : Option Expr}, (∀ q ∈ elseStatements o, P q) →
    (∀ n, (∃ e, o = some e ∧ e.HasBind n) → B n) → s.optional o = s'.optional o
  | none, _, _ => by simp only [optional]
  | some e, hq, hb => by
    simp only [optional, formula_eq (e := e) h hq fun n hn => hb n ⟨e, rfl, hn⟩]

theorem test_eq (h : s.Agree s' P B) : ∀ {c : Condition}, (∀ q ∈ c.statements, P q) →
    (∀ n, c.HasBind n → B n) → s.test c = s'.test c
  | .compare op a b, hq, hb => by
    simp only [Condition.statements, List.forall_mem_append] at hq
    simp only [test, formula_eq h hq.1 fun n hn => hb n (.left hn),
      formula_eq h hq.2 fun n hn => hb n (.right hn)]
  | .logic op terms, hq, hb => by
    simp only [test, tests_eq (l := terms) h hq fun n ⟨_, hc, hn⟩ => hb n (.term hc hn)]
  | .not c, hq, hb => by simp only [test, test_eq (c := c) h hq fun n hn => hb n (.not hn)]
  | .exists negated q, hq, _ => by
    simp only [test, h.correlated_eq q (hq q (List.mem_singleton_self q))]

theorem tests_eq (h : s.Agree s' P B) : ∀ {l : List Condition}, (∀ q ∈ termsStatements l, P q) →
    (∀ n, (∃ c ∈ l, c.HasBind n) → B n) → s.tests l = s'.tests l
  | [], _, _ => by simp only [tests]
  | c :: cs, hq, hb => by
    simp only [termsStatements, List.forall_mem_append] at hq
    simp only [List.mem_cons, exists_eq_or_imp] at hb
    simp only [tests, test_eq h hq.1 fun n hn => hb n (.inl hn),
      tests_eq h hq.2 fun n hn => hb n (.inr hn)]

end

end Agree

theorem fieldFormula_eq {s s' : Scope} {P : Statement → Prop} {B : Nat → Prop} (h : s.Agree s' P B)
    {memo : FormulaMemo} {f : Field} (hq : ∀ q ∈ f.statements, P q) (hb : ∀ n, f.kind.HasBind n → B n) :
    s.fieldFormula memo f = s'.fieldFormula memo f := by
  unfold fieldFormula
  unfold Field.statements at hq
  split
  · rfl
  · rename_i e hkind
    rw [hkind] at hb
    simp only [hkind] at hq
    unfold Scope.recall
    rw [h.formula_eq hq hb]
  · rename_i q hkind
    simp only [hkind, List.forall_mem_singleton] at hq
    rw [h.subquery_eq hq]
  · rfl

theorem fieldFormulas_eq {s s' : Scope} {P : Statement → Prop} {B : Nat → Prop} (h : s.Agree s' P B)
    {memo : FormulaMemo} {fields : List Field} (hq : ∀ f ∈ fields, ∀ q ∈ f.statements, P q)
    (hb : ∀ f ∈ fields, ∀ n, f.kind.HasBind n → B n) :
    s.fieldFormulas memo fields = s'.fieldFormulas memo fields := by
  induction fields generalizing memo with
  | nil => rfl
  | cons f fields ih =>
    rw [List.forall_mem_cons] at hq hb
    have hrest : ∀ memo, s.fieldFormulas memo fields = s'.fieldFormulas memo fields :=
      fun memo => ih hq.2 hb.2
    simp only [fieldFormulas, fieldFormula_eq h hq.1 hb.1, hrest]

end Scope

end GridQuery
