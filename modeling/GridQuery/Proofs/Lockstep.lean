import GridQuery.Proofs.JoinChain
import GridQuery.Proofs.Readings

/-!
Two runs of one computation, side by side. A relation that plain steps and errors satisfy, and that
goes through sequencing, holds between whole evaluations as soon as it holds between the runs of the
nested statements; nothing else touches what a query keeps. Which relation that is stays open. The two
runs may find different tables and values, as long as these are the same where the computation looks.
-/

namespace GridQuery
set_option autoImplicit false

/-- A relation between runs that goes through sequencing. -/
structure Lockstep (σ τ : Type) where
  rel : {α : Type} → Run σ α → Run τ α → Prop
  pure : ∀ {α : Type} (a : α), rel (pure a) (pure a)
  throw : ∀ {α : Type} (e : QueryError), rel (throw e : Run σ α) (throw e)
  /-- The second steps have to be related only for values that the first step can give. -/
  bind : ∀ {α β : Type} {m : Run σ α} {n : Run τ α} {f : α → Run σ β} {g : α → Run τ β},
    rel m n → (∀ a, (∃ st st', m.Gives st a st') → rel (f a) (g a)) → rel (m >>= f) (n >>= g)

namespace Lockstep

variable {σ τ : Type} (R : Lockstep σ τ)

theorem of {α : Type} (x : Except QueryError α) : R.rel (Run.of x) (Run.of x) := by
  cases x with
  | ok a => exact R.pure a
  | error e => exact R.throw e

theorem bind_of {α β : Type} {x : Except QueryError α} {f : α → Run σ β} {g : α → Run τ β}
    (h : ∀ a, x = .ok a → R.rel (f a) (g a)) : R.rel (Run.of x >>= f) (Run.of x >>= g) := by
  refine R.bind (R.of x) fun a ha => ?_
  obtain ⟨st, st', ha⟩ := ha
  exact h a (Run.gives_of.mp ha).1

/-- What two queries do with a statement that does not depend on a row is in step where its runs are. -/
def Keeps (keep₁ : Keeping σ) (keep₂ : Keeping τ) : Prop :=
  ∀ {run₁ : Statement → Run σ ResultSet} {run₂ : Statement → Run τ ResultSet} {q : Statement},
    R.rel (run₁ q) (run₂ q) → R.rel (keep₁ run₁ q) (keep₂ run₂ q)

/-- A nested statement runs in step, whether it depends on an outer row or not. -/
structure Nested (w₁ w₂ : World) (r₁ : Runner σ) (r₂ : Runner τ) (q : Statement) : Prop where
  run : R.rel (r₁.run q) (r₂.run q)
  kept : R.rel (r₁.kept q) (r₂.kept q)
  correlated_eq : ∀ outer, q.isCorrelated w₁.tables outer = q.isCorrelated w₂.tables outer
  bound : ∀ outer row,
    R.rel (r₁.run (q.bindOuter w₁.tables outer row)) (r₂.run (q.bindOuter w₂.tables outer row))

/-- Expressions are in step whose statements are in `P` and whose placeholders are in `B`. -/
structure Reads (w₁ w₂ : World) (r₁ : Runner σ) (r₂ : Runner τ) (P : Statement → Prop)
    (B : Nat → Prop) : Prop where
  clock_eq : w₁.clock = w₂.clock
  nested : ∀ q, P q → R.Nested w₁ w₂ r₁ r₂ q
  bind_eq : ∀ n, B n → w₁.binds.get n = w₂.binds.get n

variable {R} {w₁ w₂ : World} {table : Table} {r₁ : Runner σ} {r₂ : Runner τ} {P : Statement → Prop}
  {B : Nat → Prop}

theorem Reads.scope (hr : R.Reads w₁ w₂ r₁ r₂ P B) :
    (Rows.scope ⟨w₁, table, r₁⟩).Agree (Rows.scope ⟨w₂, table, r₂⟩) P B where
  schema_eq := rfl
  correlated_eq q hq := (hr.nested q hq).correlated_eq table
  bind_eq := hr.bind_eq

theorem nested {q : Statement} (h : R.Nested w₁ w₂ r₁ r₂ q) (row : Nat) (correlated : Bool) :
    R.rel (Rows.nested ⟨w₁, table, r₁⟩ row q correlated)
      (Rows.nested ⟨w₂, table, r₂⟩ row q correlated) := by
  cases correlated with
  | true => exact h.bound table row
  | false => exact h.kept

theorem members (hr : R.Reads w₁ w₂ r₁ r₂ P B) {f : Formula} (row : Nat) (h : ∀ q ∈ f.statements, P q)
    {listed₁ : Run σ (List Cell)} {listed₂ : Run τ (List Cell)} (hl : R.rel listed₁ listed₂)
    {single₁ : Run σ Cell} {single₂ : Run τ Cell} (hs : R.rel single₁ single₂) :
    R.rel (Rows.members ⟨w₁, table, r₁⟩ row f listed₁ single₁)
      (Rows.members ⟨w₂, table, r₂⟩ row f listed₂ single₂) := by
  have single : R.rel (single₁ >>= fun x => Pure.pure [x]) (single₂ >>= fun x => Pure.pure [x]) :=
    R.bind hs fun _ _ => R.pure _
  cases f with
  | list items => exact hl
  | subquery q correlated =>
    exact R.bind (nested (hr.nested q (h q (by simp [Formula.statements]))) row correlated) fun _ _ => R.pure _
  | const | slot | binary | negate | call | case => exact single

mutual

theorem value (hr : R.Reads w₁ w₂ r₁ r₂ P B) (row : Nat) : ∀ f : Formula, (∀ q ∈ f.statements, P q) →
    R.rel (Rows.value ⟨w₁, table, r₁⟩ row f) (Rows.value ⟨w₂, table, r₂⟩ row f)
  | .const c, _ => by simpa only [Rows.value] using R.pure c
  | .slot c, _ => by simpa only [Rows.value] using R.pure (table.cell row c)
  | .binary op a b, h => by
    simp only [Formula.statements, List.forall_mem_append] at h
    simp only [Rows.value]
    exact R.bind (value hr row a h.1) fun _ _ => R.bind (value hr row b h.2) fun _ _ => R.pure _
  | .negate a, h => by
    simp only [Formula.statements] at h
    simp only [Rows.value]
    exact R.bind (value hr row a h) fun _ _ => R.pure _
  | .call f args, h => by
    simp only [Formula.statements] at h
    simp only [Rows.value, hr.clock_eq]
    exact R.bind (values hr row args h) fun _ _ => R.pure _
  | .case branches otherwise, h => by
    simp only [Formula.statements, List.forall_mem_append] at h
    simp only [Rows.value]
    refine R.bind (choice hr row branches h.1) fun o _ => ?_
    cases o with
    | some x => exact R.pure x
    | none => exact optional hr row otherwise h.2
  | .subquery q correlated, h => by
    simp only [Rows.value]
    exact R.bind (nested (hr.nested q (h q (by simp [Formula.statements]))) row correlated) fun _ _ => R.pure _
  | .list _, _ => by simpa only [Rows.value] using R.throw .listOutsideIn

theorem values (hr : R.Reads w₁ w₂ r₁ r₂ P B) (row : Nat) : ∀ fs : List Formula,
    (∀ q ∈ formulasStatements fs, P q) →
    R.rel (Rows.values ⟨w₁, table, r₁⟩ row fs) (Rows.values ⟨w₂, table, r₂⟩ row fs)
  | [], _ => by simpa only [Rows.values] using R.pure []
  | f :: fs, h => by
    simp only [formulasStatements, List.forall_mem_append] at h
    simp only [Rows.values]
    exact R.bind (value hr row f h.1) fun _ _ => R.bind (values hr row fs h.2) fun _ _ => R.pure _

theorem choice (hr : R.Reads w₁ w₂ r₁ r₂ P B) (row : Nat) : ∀ bs : List (Test × Formula),
    (∀ q ∈ choicesStatements bs, P q) →
    R.rel (Rows.choice ⟨w₁, table, r₁⟩ row bs) (Rows.choice ⟨w₂, table, r₂⟩ row bs)
  | [], _ => by simpa only [Rows.choice] using R.pure none
  | (t, f) :: bs, h => by
    simp only [choicesStatements, List.forall_mem_append] at h
    simp only [Rows.choice]
    refine R.bind (holds hr row t h.1) fun b _ => ?_
    cases b with
    | true => exact R.bind (value hr row f h.2.1) fun _ _ => R.pure _
    | false => exact choice hr row bs h.2.2

theorem optional (hr : R.Reads w₁ w₂ r₁ r₂ P B) (row : Nat) : ∀ o : Option Formula,
    (∀ q ∈ otherwiseStatements o, P q) →
    R.rel (Rows.optional ⟨w₁, table, r₁⟩ row o) (Rows.optional ⟨w₂, table, r₂⟩ row o)
  | none, _ => by simpa only [Rows.optional] using R.pure Cell.null
  | some f, h => by
    simp only [otherwiseStatements] at h
    simpa only [Rows.optional] using value hr row f h

theorem listed (hr : R.Reads w₁ w₂ r₁ r₂ P B) (row : Nat) : ∀ f : Formula, (∀ q ∈ f.statements, P q) →
    R.rel (Rows.listed ⟨w₁, table, r₁⟩ row f) (Rows.listed ⟨w₂, table, r₂⟩ row f)
  | .list items, h => by
    simp only [Formula.statements] at h
    simpa only [Rows.listed] using values hr row items h
  | .const _, _ | .slot _, _ | .binary .., _ | .negate _, _ | .call .., _ | .case .., _
  | .subquery .., _ => by simpa only [Rows.listed] using R.pure []

theorem holds (hr : R.Reads w₁ w₂ r₁ r₂ P B) (row : Nat) : ∀ t : Test, (∀ q ∈ t.statements, P q) →
    R.rel (Rows.holds ⟨w₁, table, r₁⟩ row t) (Rows.holds ⟨w₂, table, r₂⟩ row t)
  | .compare op a b pattern, h => by
    simp only [Test.statements, List.forall_mem_append] at h
    simp only [Rows.holds]
    refine R.bind (value hr row a h.1) fun x _ => ?_
    split
    · exact R.bind (members hr row h.2 (listed hr row b h.2) (value hr row b h.2)) fun _ _ => R.pure _
    · split
      · exact R.pure _
      · exact R.pure _
      · exact R.bind (value hr row b h.2) fun _ _ => R.pure _
  | .logic .and terms, h => by
    simp only [Test.statements] at h
    simpa only [Rows.holds] using allHold hr row terms h
  | .logic .or terms, h => by
    simp only [Test.statements] at h
    simpa only [Rows.holds] using anyHolds hr row terms h
  | .not t, h => by
    simp only [Test.statements] at h
    simp only [Rows.holds]
    exact R.bind (holds hr row t h) fun _ _ => R.pure _
  | .exists negated q correlated, h => by
    simp only [Rows.holds]
    exact R.bind (nested (hr.nested q (h q (by simp [Test.statements]))) row correlated) fun _ _ => R.pure _

theorem allHold (hr : R.Reads w₁ w₂ r₁ r₂ P B) (row : Nat) : ∀ ts : List Test,
    (∀ q ∈ testsStatements ts, P q) →
    R.rel (Rows.allHold ⟨w₁, table, r₁⟩ row ts) (Rows.allHold ⟨w₂, table, r₂⟩ row ts)
  | [], _ => by simpa only [Rows.allHold] using R.pure true
  | t :: ts, h => by
    simp only [testsStatements, List.forall_mem_append] at h
    simp only [Rows.allHold]
    refine R.bind (holds hr row t h.1) fun b _ => ?_
    cases b with
    | true => exact allHold hr row ts h.2
    | false => exact R.pure false

theorem anyHolds (hr : R.Reads w₁ w₂ r₁ r₂ P B) (row : Nat) : ∀ ts : List Test,
    (∀ q ∈ testsStatements ts, P q) →
    R.rel (Rows.anyHolds ⟨w₁, table, r₁⟩ row ts) (Rows.anyHolds ⟨w₂, table, r₂⟩ row ts)
  | [], _ => by simpa only [Rows.anyHolds] using R.pure false
  | t :: ts, h => by
    simp only [testsStatements, List.forall_mem_append] at h
    simp only [Rows.anyHolds]
    refine R.bind (holds hr row t h.1) fun b _ => ?_
    cases b with
    | true => exact R.pure true
    | false => exact anyHolds hr row ts h.2

end

theorem evaluated (hr : R.Reads w₁ w₂ r₁ r₂ P B) {e : Expr} (h : ∀ q ∈ e.statements, P q)
    (hb : ∀ n, e.HasBind n → B n) (row : Nat) :
    R.rel (Rows.evaluated ⟨w₁, table, r₁⟩ e row) (Rows.evaluated ⟨w₂, table, r₂⟩ e row) := by
  unfold Rows.evaluated
  rw [hr.scope.formula_eq h hb]
  exact R.bind_of fun f hf => value hr row f fun q hq => h q (Scope.formula_statements _ e hf hq)

theorem satisfies (hr : R.Reads w₁ w₂ r₁ r₂ P B) {c : Condition} (h : ∀ q ∈ c.statements, P q)
    (hb : ∀ n, c.HasBind n → B n) (row : Nat) :
    R.rel (Rows.satisfies ⟨w₁, table, r₁⟩ c row) (Rows.satisfies ⟨w₂, table, r₂⟩ c row) := by
  unfold Rows.satisfies
  rw [hr.scope.test_eq h hb]
  exact R.bind_of fun t ht => holds hr row t fun q hq => h q (Scope.test_statements _ c ht hq)

theorem keep (hr : R.Reads w₁ w₂ r₁ r₂ P B) {t : Test} (h : ∀ q ∈ t.statements, P q)
    (rows : List Nat) :
    R.rel (Rows.keep ⟨w₁, table, r₁⟩ t rows) (Rows.keep ⟨w₂, table, r₂⟩ t rows) := by
  induction rows with
  | nil => simpa only [Rows.keep] using R.pure []
  | cons row rows ih =>
    simp only [Rows.keep]
    exact R.bind (holds hr row t h) fun _ _ => R.bind ih fun _ _ => R.pure _

theorem leaf (hr : R.Reads w₁ w₂ r₁ r₂ P B) {c : Condition} (h : ∀ q ∈ c.statements, P q)
    (hb : ∀ n, c.HasBind n → B n) (rows : List Nat) :
    R.rel (Rows.leaf ⟨w₁, table, r₁⟩ c rows) (Rows.leaf ⟨w₂, table, r₂⟩ c rows) := by
  unfold Rows.leaf
  rw [hr.scope.test_eq h hb]
  exact R.bind_of fun _ ht => keep hr (fun q hq => h q (Scope.test_statements _ c ht hq)) rows

mutual

theorem select (hr : R.Reads w₁ w₂ r₁ r₂ P B) : ∀ (c : Condition) (_ : ∀ q ∈ c.statements, P q)
    (_ : ∀ n, c.HasBind n → B n) (rows : List Nat),
    R.rel (Rows.select ⟨w₁, table, r₁⟩ rows c) (Rows.select ⟨w₂, table, r₂⟩ rows c)
  | .logic .and terms, h, hb, rows => by
    simp only [Condition.statements] at h
    simpa only [Rows.select] using narrow hr terms h (fun n ⟨_, hc, hn⟩ => hb n (.term hc hn)) rows
  | .logic .or terms, h, hb, rows => by
    simp only [Condition.statements] at h
    simp only [Rows.select]
    exact R.bind (gather hr terms h (fun n ⟨_, hc, hn⟩ => hb n (.term hc hn)) rows) fun _ _ => R.pure _
  | .not c, h, hb, rows => by
    simp only [Condition.statements] at h
    simp only [Rows.select]
    exact R.bind (select hr c h (fun n hn => hb n (.not hn)) rows) fun _ _ => R.pure _
  | .compare op a b, h, hb, rows => by simpa only [Rows.select] using leaf hr h hb rows
  | .exists negated q, h, hb, rows => by simpa only [Rows.select] using leaf hr h hb rows

theorem narrow (hr : R.Reads w₁ w₂ r₁ r₂ P B) : ∀ (cs : List Condition)
    (_ : ∀ q ∈ termsStatements cs, P q) (_ : ∀ n, (∃ c ∈ cs, c.HasBind n) → B n) (rows : List Nat),
    R.rel (Rows.narrow ⟨w₁, table, r₁⟩ rows cs) (Rows.narrow ⟨w₂, table, r₂⟩ rows cs)
  | [], _, _, rows => by simpa only [Rows.narrow] using R.pure rows
  | c :: cs, h, hb, rows => by
    simp only [termsStatements, List.forall_mem_append] at h
    simp only [List.mem_cons, exists_eq_or_imp] at hb
    simp only [Rows.narrow]
    split
    · exact R.pure []
    · exact R.bind (select hr c h.1 (fun n hn => hb n (.inl hn)) rows) fun rows' _ =>
        narrow hr cs h.2 (fun n hn => hb n (.inr hn)) rows'

theorem gather (hr : R.Reads w₁ w₂ r₁ r₂ P B) : ∀ (cs : List Condition)
    (_ : ∀ q ∈ termsStatements cs, P q) (_ : ∀ n, (∃ c ∈ cs, c.HasBind n) → B n) (rows : List Nat),
    R.rel (Rows.gather ⟨w₁, table, r₁⟩ rows cs) (Rows.gather ⟨w₂, table, r₂⟩ rows cs)
  | [], _, _, rows => by simpa only [Rows.gather] using R.pure []
  | c :: cs, h, hb, rows => by
    simp only [termsStatements, List.forall_mem_append] at h
    simp only [List.mem_cons, exists_eq_or_imp] at hb
    simp only [Rows.gather]
    exact R.bind (select hr c h.1 (fun n hn => hb n (.inl hn)) rows) fun _ _ =>
      R.bind (gather hr cs h.2 (fun n hn => hb n (.inr hn)) rows) fun _ _ => R.pure _

end

theorem matching (hr : R.Reads w₁ w₂ r₁ r₂ P B) {o : Option Condition}
    (h : ∀ c, o = some c → ∀ q ∈ c.statements, P q)
    (hb : ∀ c, o = some c → ∀ n, c.HasBind n → B n) :
    R.rel (Rows.matching ⟨w₁, table, r₁⟩ o) (Rows.matching ⟨w₂, table, r₂⟩ o) := by
  cases o with
  | none => exact R.pure _
  | some c => exact select hr c (h c rfl) (hb c rfl) _

theorem columnValues (hr : R.Reads w₁ w₂ r₁ r₂ P B) {f : Formula} (h : ∀ q ∈ f.statements, P q)
    (row count : Nat) :
    R.rel (Rows.columnValues ⟨w₁, table, r₁⟩ f row count)
      (Rows.columnValues ⟨w₂, table, r₂⟩ f row count) := by
  induction count generalizing row with
  | zero => exact R.pure []
  | succ count ih =>
    exact R.bind (value hr row f h) fun _ _ => R.bind (ih (row + 1)) fun _ _ => R.pure _

theorem column (hr : R.Reads w₁ w₂ r₁ r₂ P B) {e : Expr} (h : ∀ q ∈ e.statements, P q)
    (hb : ∀ n, e.HasBind n → B n) :
    R.rel (Rows.column ⟨w₁, table, r₁⟩ e) (Rows.column ⟨w₂, table, r₂⟩ e) := by
  unfold Rows.column
  rw [hr.scope.formula_eq h hb]
  exact R.bind_of fun _ hf => columnValues hr (fun q hq => h q (Scope.formula_statements _ e hf hq)) _ _

section Joins

variable {left right : Table}

/-- The operands of an equality are the sides it is split into, in one order or the other. -/
theorem sides_eq {a b outer inner : Expr} (h : sides left right a b = .ok (outer, inner)) :
    outer = a ∧ inner = b ∨ outer = b ∧ inner = a := by
  unfold sides at h
  split at h
  · cases h
    exact .inl ⟨rfl, rfl⟩
  · split at h
    · cases h
      exact .inr ⟨rfl, rfl⟩
    · cases h

theorem keyMatches (hr : R.Reads w₁ w₂ r₁ r₂ P B) {inner : Expr} (h : ∀ q ∈ inner.statements, P q)
    (hb : ∀ n, inner.HasBind n → B n) (keys : List Cell) :
    R.rel (GridQuery.keyMatches w₁ r₁ right inner keys)
      (GridQuery.keyMatches w₂ r₂ right inner keys) := by
  unfold GridQuery.keyMatches
  split
  · exact R.pure _
  · exact R.bind (column hr h hb) fun _ _ => R.pure _

theorem equalityMatches (hr : R.Reads w₁ w₂ r₁ r₂ P B) {a b : Expr}
    (ha : ∀ q ∈ a.statements, P q) (hb : ∀ q ∈ b.statements, P q) (hna : ∀ n, a.HasBind n → B n)
    (hnb : ∀ n, b.HasBind n → B n) :
    R.rel (GridQuery.equalityMatches w₁ r₁ left right a b)
      (GridQuery.equalityMatches w₂ r₂ left right a b) := by
  refine R.bind_of fun p hp => ?_
  obtain ⟨outer, inner⟩ := p
  rcases sides_eq hp with ⟨rfl, rfl⟩ | ⟨rfl, rfl⟩
  · exact R.bind (column hr ha hna) fun keys _ => keyMatches hr hb hnb keys
  · exact R.bind (column hr hb hnb) fun keys _ => keyMatches hr ha hna keys

mutual

theorem conditionMatches (hr : R.Reads w₁ w₂ r₁ r₂ P B) : ∀ (c : Condition),
    (∀ q ∈ c.statements, P q) → (∀ n, c.HasBind n → B n) →
    R.rel (GridQuery.conditionMatches w₁ r₁ left right c)
      (GridQuery.conditionMatches w₂ r₂ left right c)
  | .compare op a b, h, hb => by
    simp only [Condition.statements, List.forall_mem_append] at h
    cases op with
    | eq =>
      simpa only [GridQuery.conditionMatches] using
        equalityMatches hr h.1 h.2 (fun n hn => hb n (.left hn)) fun n hn => hb n (.right hn)
    | notEq | lt | ltEq | gt | gtEq | like | notLike | isIn | notIn | is | isNot =>
      simpa only [GridQuery.conditionMatches] using R.throw _
  | .logic op terms, h, hb => by
    simp only [Condition.statements] at h
    simp only [GridQuery.conditionMatches]
    refine R.bind (termMatches hr op terms h fun n ⟨_, hc, hn⟩ => hb n (.term hc hn)) fun o _ => ?_
    cases o with
    | some ms => exact R.pure ms
    | none => exact R.pure _
  | .not c, _, _ => by simpa only [GridQuery.conditionMatches] using R.throw _
  | .exists negated q, _, _ => by simpa only [GridQuery.conditionMatches] using R.throw _

theorem termMatches (hr : R.Reads w₁ w₂ r₁ r₂ P B) (op : Connective) : ∀ (cs : List Condition),
    (∀ q ∈ termsStatements cs, P q) → (∀ n, (∃ c ∈ cs, c.HasBind n) → B n) →
    R.rel (GridQuery.termMatches w₁ r₁ left right op cs)
      (GridQuery.termMatches w₂ r₂ left right op cs)
  | [], _, _ => by simpa only [GridQuery.termMatches] using R.pure none
  | c :: cs, h, hb => by
    simp only [termsStatements, List.forall_mem_append] at h
    simp only [List.mem_cons, exists_eq_or_imp] at hb
    simp only [GridQuery.termMatches]
    refine R.bind (conditionMatches hr c h.1 fun n hn => hb n (.inl hn)) fun ms _ => ?_
    refine R.bind (termMatches hr op cs h.2 fun n hn => hb n (.inr hn)) fun o _ => ?_
    cases o with
    | some others => exact R.pure _
    | none => exact R.pure _

end

theorem joinTables (hr : R.Reads w₁ w₂ r₁ r₂ P B) {kind : JoinKind} {c : Condition}
    (h : ∀ q ∈ c.statements, P q) (hb : ∀ n, c.HasBind n → B n) :
    R.rel (GridQuery.joinTables w₁ r₁ left right kind c)
      (GridQuery.joinTables w₂ r₂ left right kind c) :=
  R.bind (conditionMatches hr c h hb) fun _ _ => R.of _

end Joins

theorem joinFrom (hr : R.Reads w₁ w₂ r₁ r₂ P B) {joins : List JoinClause}
    (h : ∀ j ∈ joins, ∀ q ∈ j.condition.statements, P q)
    (hb : ∀ j ∈ joins, ∀ n, j.condition.HasBind n → B n) (position : Nat) (working : Table)
    (fields : Fields) (sources : List Table) :
    R.rel (GridQuery.joinFrom w₁ r₁ position working fields joins sources)
      (GridQuery.joinFrom w₂ r₂ position working fields joins sources) := by
  induction joins generalizing position working fields sources with
  | nil => simpa only [GridQuery.joinFrom] using R.pure (working, fields)
  | cons j js ih =>
    rw [List.forall_mem_cons] at h hb
    cases sources with
    | nil => simpa only [GridQuery.joinFrom] using R.throw _
    | cons right sources =>
      simp only [GridQuery.joinFrom]
      exact R.bind (joinTables hr h.1 hb.1) fun next _ => ih h.2 hb.2 _ _ _ _

theorem sourceTable (hr : R.Reads w₁ w₂ r₁ r₂ P B) {s : Source} (h : ∀ q ∈ s.statements, P q)
    (htable : ∀ name alias?, s = .table name alias? → w₁.tables.get? name = w₂.tables.get? name) :
    R.rel (GridQuery.sourceTable w₁ r₁ s) (GridQuery.sourceTable w₂ r₂ s) := by
  cases s with
  | table name alias? =>
    simp only [GridQuery.sourceTable, Tables.require, htable name alias? rfl]
    exact R.bind (R.of _) fun _ _ => R.pure _
  | query q alias? =>
    exact R.bind (hr.nested q (h q (by simp [Source.statements]))).kept fun _ _ => R.pure _

theorem sourceTables (hr : R.Reads w₁ w₂ r₁ r₂ P B) {joins : List JoinClause}
    (h : ∀ j ∈ joins, ∀ q ∈ j.source.statements, P q)
    (htable : ∀ j ∈ joins, ∀ name alias?, j.source = .table name alias? →
      w₁.tables.get? name = w₂.tables.get? name) :
    R.rel (GridQuery.sourceTables w₁ r₁ joins) (GridQuery.sourceTables w₂ r₂ joins) := by
  induction joins with
  | nil => exact R.pure []
  | cons j js ih =>
    rw [List.forall_mem_cons] at h htable
    exact R.bind (sourceTable hr h.1 htable.1) fun _ _ =>
      R.bind (ih h.2 htable.2) fun _ _ => R.pure _

theorem cells (hr : R.Reads w₁ w₂ r₁ r₂ P B) {fs : List Formula}
    (h : ∀ q ∈ formulasStatements fs, P q) (rows : List Nat) :
    R.rel (Rows.cells ⟨w₁, table, r₁⟩ fs rows) (Rows.cells ⟨w₂, table, r₂⟩ fs rows) := by
  induction rows with
  | nil => exact R.pure []
  | cons row rows ih => exact R.bind (values hr row fs h) fun _ _ => R.bind ih fun _ _ => R.pure _

theorem keepGroups (hr : R.Reads w₁ w₂ r₁ r₂ P B) {fields : Fields} {rows : List Row}
    {o : Option Condition} (h : ∀ c, o = some c → ∀ q ∈ c.statements, P q)
    (hb : ∀ c, o = some c → ∀ n, c.HasBind n → B n) :
    R.rel (GridQuery.keepGroups w₁ r₁ fields rows o)
      (GridQuery.keepGroups w₂ r₂ fields rows o) := by
  cases o with
  | none => exact R.pure rows
  | some c => exact R.bind (matching hr h hb) fun _ _ => R.pure _

end Lockstep

/-- Two worlds are the same where a statement looks: at the tables it names and at the values of its
placeholders. -/
structure World.AgreeOn (w₁ w₂ : World) (s : Statement) : Prop where
  clock_eq : w₁.clock = w₂.clock
  tables : w₁.tables.AgreeOn w₂.tables s
  bind_eq : ∀ n, s.HasBind n → w₁.binds.get n = w₂.binds.get n

namespace World.AgreeOn

theorem refl (w : World) (s : Statement) : w.AgreeOn w s :=
  ⟨rfl, fun _ _ => rfl, fun _ _ => rfl⟩

variable {w₁ w₂ : World} {s q : Statement} (h : w₁.AgreeOn w₂ s)

include h

theorem within (hq : s.Within q) : w₁.AgreeOn w₂ q where
  clock_eq := h.clock_eq
  tables := h.tables.within hq
  bind_eq n hn := h.bind_eq n (hq.hasBind hn)

theorem bindOuter (ts : Tables) (outer : Table) (row : Nat) :
    w₁.AgreeOn w₂ (s.bindOuter ts outer row) where
  clock_eq := h.clock_eq
  tables := h.tables.bindIn []
  bind_eq n hn := h.bind_eq n (Statement.hasBind_of_bindIn hn)

/-- A pivoted form has the sources of the pivoting statement, and nothing else within it. -/
theorem pivoting {p : Statement} (hsource : p.source = s.source) (hjoins : p.joins = s.joins)
    (hwithin : ∀ q, p.Within q → s.Within q) (hbind : ∀ n, p.HasBind n → s.HasBind n) :
    w₁.AgreeOn w₂ p where
  clock_eq := h.clock_eq
  bind_eq n hn := h.bind_eq n (hbind n hn)
  tables name hname := by
    refine h.tables name ?_
    cases hname with
    | source he => exact .source (hsource ▸ he)
    | joined hj he => exact .joined (hjoins ▸ hj) he
    | within hq hname => exact .within (hwithin _ hq) hname

end World.AgreeOn

namespace Lockstep

variable {σ τ : Type} {R : Lockstep σ τ} {w₁ w₂ : World} {r₁ : Runner σ} {r₂ : Runner τ}

theorem runPlain {s : Statement} (agree : w₁.AgreeOn w₂ s)
    (h : ∀ q, s.Within q → R.Nested w₁ w₂ r₁ r₂ q) :
    R.rel (GridQuery.runPlain w₁ r₁ s) (GridQuery.runPlain w₂ r₂ s) := by
  have hr : R.Reads w₁ w₂ r₁ r₂ (s.Within ·) (fun n => s.HasBind n) :=
    ⟨agree.clock_eq, h, agree.bind_eq⟩
  refine R.bind (sourceTable hr (fun q hq => .source hq)
    fun name _ he => agree.tables name (.source he)) fun first _ => ?_
  refine R.bind (sourceTables hr (fun j hj q hq => .joined hj hq)
    fun j hj name _ he => agree.tables name (.joined hj he)) fun others _ => ?_
  refine R.bind_of fun plan hplan => ?_
  refine R.bind (joinFrom hr (fun j hj q hq => .on hj hq) (fun j hj n hn => .on hj hn) _ _ _ _)
    fun joined hjoined => ?_
  obtain ⟨working, fields⟩ := joined
  obtain ⟨st, st', hjoined⟩ := hjoined
  have hfields : ∀ f ∈ fields, ∀ q ∈ f.statements, s.Within q := by
    intro f hf q hq
    obtain ⟨g, hg, he⟩ := joinFrom_kind hjoined hf
    exact layout_within hplan hg (by simpa only [Field.statements, he] using hq)
  have hbinds : ∀ f ∈ fields, ∀ n, f.kind.HasBind n → s.HasBind n := by
    intro f hf n hn
    obtain ⟨g, hg, he⟩ := joinFrom_kind hjoined hf
    exact layout_hasBind hplan hg (he ▸ hn)
  refine R.bind (matching hr (fun c hc q hq => .filter hc hq) fun c hc n hn => .filter hc hn)
    fun ids _ => ?_
  rw [Scope.fieldFormulas_eq hr.scope hfields hbinds]
  refine R.bind_of fun formulas hformulas => ?_
  have hforms := Scope.fieldFormulas_statements hformulas (by simp) hfields
  refine R.bind (cells hr hforms ids) fun rows _ => ?_
  exact R.bind (keepGroups hr (fun c hc q hq => .having hc hq) fun c hc n hn => .having hc hn)
    fun _ _ => R.pure _

theorem runPivot {s : Statement} (hkeep : R.Keeps r₁.keep r₂.keep) (agree : w₁.AgreeOn w₂ s)
    (h : ∀ q, s.Within q → R.Nested w₁ w₂ r₁ r₂ q) :
    R.rel (GridQuery.runPivot w₁ r₁ s) (GridQuery.runPivot w₂ r₂ s) := by
  unfold GridQuery.runPivot
  split
  · exact runPlain agree h
  · rename_i pivot hp
    split
    · exact R.throw _
    · have hvalues : w₁.AgreeOn w₂ (pivotValues s pivot) :=
        agree.pivoting rfl rfl (fun _ => pivotValues_within hp) fun _ => pivotValues_hasBind hp
      refine R.bind (hkeep (runPlain hvalues fun q hq => h q (pivotValues_within hp hq)))
        fun values _ => ?_
      exact runPlain (agree.pivoting rfl rfl (fun _ => pivoted_within hp) fun _ => pivoted_hasBind hp)
        fun q hq => h q (pivoted_within hp hq)

theorem combineAll {operations : List SetOperation} (left : ResultSet)
    (h : ∀ o ∈ operations, R.rel (r₁.run o.statement) (r₂.run o.statement)) :
    R.rel (GridQuery.combineAll r₁ left operations) (GridQuery.combineAll r₂ left operations) := by
  induction operations generalizing left with
  | nil => exact R.pure left
  | cons o os ih =>
    refine R.bind (h o List.mem_cons_self) fun right _ => R.bind (R.of _) fun both _ => ?_
    exact ih both fun o ho => h o (List.mem_cons_of_mem _ ho)

theorem runWith {s : Statement} (hkeep : R.Keeps r₁.keep r₂.keep) (agree : w₁.AgreeOn w₂ s)
    (h : ∀ q, s.Within q → R.Nested w₁ w₂ r₁ r₂ q) :
    R.rel (GridQuery.runWith w₁ r₁ s) (GridQuery.runWith w₂ r₂ s) :=
  R.bind (runPivot hkeep agree h) fun _ _ => combineAll _ fun _ ho => (h _ (.operation ho)).run

theorem nested_of_run (hkeep : R.Keeps r₁.keep r₂.keep)
    (h : ∀ q, w₁.AgreeOn w₂ q → R.rel (r₁.run q) (r₂.run q)) {q : Statement}
    (agree : w₁.AgreeOn w₂ q) : R.Nested w₁ w₂ r₁ r₂ q where
  run := h q agree
  kept := hkeep (h q agree)
  correlated_eq := isCorrelated_congr agree.tables
  bound outer row := by
    rw [bindOuter_congr agree.tables]
    exact h _ (agree.bindOuter _ _ _)

/-- Whole runs are in step as soon as what becomes of nested statements is. -/
theorem run {keep₁ : Keeping σ} {keep₂ : Keeping τ} (hkeep : R.Keeps keep₁ keep₂) (depth : Nat)
    {s : Statement} (agree : w₁.AgreeOn w₂ s) :
    R.rel (GridQuery.run keep₁ w₁ depth s) (GridQuery.run keep₂ w₂ depth s) := by
  induction depth generalizing s with
  | zero => exact R.throw _
  | succ depth ih =>
    change R.rel (GridQuery.runWith w₁ (runnerAt keep₁ w₁ depth) s)
      (GridQuery.runWith w₂ (runnerAt keep₂ w₂ depth) s)
    exact runWith hkeep agree fun q hq => nested_of_run hkeep (fun _ => ih) (agree.within hq)

theorem nested_runnerAt {keep₁ : Keeping σ} {keep₂ : Keeping τ} (hkeep : R.Keeps keep₁ keep₂)
    (world : World) (depth : Nat) (q : Statement) :
    R.Nested world world (runnerAt keep₁ world depth) (runnerAt keep₂ world depth) q :=
  nested_of_run hkeep (fun _ => run hkeep depth) (.refl world q)

end Lockstep

/-- Runs that work something out and leave what the query keeps as it is. -/
def computing (σ τ : Type) [Nonempty σ] : Lockstep σ τ where
  rel := fun {α} m n => ∃ x : Except QueryError α, m = Run.of x ∧ n = Run.of x
  pure a := ⟨.ok a, rfl, rfl⟩
  throw e := ⟨.error e, rfl, rfl⟩
  bind := by
    rintro α β m n f g ⟨x, rfl, rfl⟩ hsteps
    cases x with
    | ok a =>
      obtain ⟨st⟩ := ‹Nonempty σ›
      obtain ⟨y, hf, hg⟩ := hsteps a ⟨st, st, Run.gives_of.mpr ⟨rfl, rfl⟩⟩
      exact ⟨y, hf, hg⟩
    | error e => exact ⟨.error e, rfl, rfl⟩

end GridQuery
