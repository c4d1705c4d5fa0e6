import GridQuery.Proofs.FaultFree
import GridQuery.Proofs.Placeholders

/-!
The check of placeholders before a statement runs. Where a value stands behind every placeholder, no step
of the engine fails for want of one: not the reading of a clause, and not the run of a statement within
another one, of a copy for an outer row or of a pivoted form, as these have no placeholders of their own.
-/

namespace GridQuery
set_option autoImplicit false

/-- There is a value for a placeholder. -/
def Binds.Supplies (b : Binds) (n : Nat) : Prop :=
  1 ≤ n ∧ n ≤ b.size

/-- A step that does not fail for want of a value. -/
def BindSafe {α : Type} (x : Except QueryError α) : Prop :=
  ∀ e, x = .error e → e.kind ≠ .bind

/-- A run that fails for want of a value from no memo. -/
def Run.BindSafe {σ α : Type} (m : Run σ α) : Prop :=
  ∀ st, GridQuery.BindSafe (m.run st).1

/-- An error for want of a value. -/
def WantsValue (e : QueryError) : Prop :=
  e.kind = .bind

theorem wantsValue_ofReferences : OfReferences WantsValue :=
  fun _ h => .inl h

theorem Run.FreeOf.bindSafe {σ α : Type} {m : Run σ α} (h : m.FreeOf WantsValue) : m.BindSafe :=
  fun st _ he => (h st).not_error he

theorem Binds.get_freeOf_wantsValue {b : Binds} {n : Nat} (h : b.Supplies n) :
    FreeOf WantsValue (fun _ => True) (b.get n) := by
  obtain ⟨hpos, hle⟩ := h
  obtain ⟨i, rfl⟩ := Nat.exists_eq_succ_of_ne_zero (Nat.ne_of_gt hpos)
  have hi : i < b.values.length := hle
  simp only [get, List.getElem?_eq_getElem hi]
  trivial

theorem Scope.column_freeOf_wantsValue {s : Scope} {P : Statement → Bool → Prop} (table : Option String)
    (name : String) : FreeOf WantsValue (Formula.Runs P) (s.column table name) := by
  unfold column
  split
  · trivial
  · exact fun h => by cases h

/-- Each placeholder in a statement has a value, at any depth. -/
def Statement.Supplied (b : Binds) (s : Statement) : Prop :=
  ∀ n, s.HasBind n → b.Supplies n

namespace Statement.Supplied

variable {σ : Type} {world : World} {runner : Runner σ} {s q : Statement}

theorem within (h : s.Supplied world.binds) (hq : s.Within q) : q.Supplied world.binds :=
  fun n hn => h n (hq.hasBind hn)

/-- A statement within a row is run for want of nothing, as a copy has no placeholders of its own. -/
theorem runsFree (h : q.Supplied world.binds) (hr : runner.FreeOn WantsValue (Statement.Supplied world.binds))
    (table : Table) (correlated : Bool) : Rows.RunsFree WantsValue ⟨world, table, runner⟩ q correlated :=
  fun _ => hr.nested (fun n hn => h n (hasBind_of_bindIn hn)) fun _ => h

/-- What has placeholders and statements of a supplied statement is read and run for want of nothing. -/
theorem reads (h : s.Supplied world.binds) (hr : runner.FreeOn WantsValue (Statement.Supplied world.binds))
    {parts : List Expr} {statements : List Statement} (hparts : ∀ n, .bind n ∈ parts → s.HasBind n)
    (hstatements : ∀ q ∈ statements, s.Within q) (table : Table) :
    Rows.ReadsFree WantsValue ⟨world, table, runner⟩ parts statements where
  kind := wantsValue_ofReferences
  columns t name _ := Scope.column_freeOf_wantsValue t name
  binds n hmem := Binds.get_freeOf_wantsValue (h n (hparts n hmem))
  runs q hq := (h.within (hstatements q hq)).runsFree hr table _

theorem runPlain_freeOf (h : s.Supplied world.binds)
    (hr : runner.FreeOn WantsValue (Statement.Supplied world.binds)) : (runPlain world runner s).FreeOf WantsValue := by
  refine GridQuery.runPlain_freeOf wantsValue_ofReferences ?_ ?_ ?_ ?_ ?_
  · exact fun q hq => hr.kept (h.within (.source hq))
  · exact fun j hj q hq => hr.kept (h.within (.joined hj hq))
  · intro j hj
    exact ⟨wantsValue_ofReferences,
      fun n hn => Binds.get_freeOf_wantsValue (h n (.on hj (conditionParts_hasBind hn .bind))),
      fun q hq table correlated => (h.within (.on hj hq)).runsFree hr table correlated⟩
  · intro first others _ _
    refine ⟨layout_freeOf wantsValue_ofReferences fun _ _ _ _ _ hwants => (by cases hwants), ?_⟩
    intro plan working fields hplan hgiven
    constructor
    · exact fun c hc => h.reads hr (fun n hn => .filter hc (conditionParts_hasBind hn .bind))
        (fun q hq => .filter hc hq) working
    · intro f hf
      obtain ⟨_, _, hjoin⟩ := hgiven
      obtain ⟨g, hg, hkind⟩ := joinFrom_kind hjoin hf
      refine h.reads hr (fun n hn => layout_hasBind hplan hg ?_) (fun q hq => layout_within hplan hg ?_) working
      · rw [← hkind]
        unfold Scope.fieldParts at hn
        split at hn
        · rename_i e he
          rw [he]
          exact parts_hasBind hn .bind
        · cases hn
      · simpa only [Field.statements, hkind] using hq
  · exact fun c hc => h.reads hr (fun n hn => .having hc (conditionParts_hasBind hn .bind))
      fun q hq => .having hc hq

/-- A run at any depth is for want of nothing, as its statements have values and so have those within them. -/
theorem run_bindSafe (depth : Nat) (h : s.Supplied world.binds) : (run remembered world depth s).BindSafe :=
  (run_freeOf wantsValue_ofReferences freeOf_remembered (fun hr h => runPlain_freeOf h hr)
    (fun hp h => ⟨fun n hn => h n (pivotValues_hasBind hp hn), fun _ n hn => h n (pivoted_hasBind hp hn)⟩)
    (fun h ho => h.within (.operation ho)) depth h).bindSafe

end Statement.Supplied

theorem require_eq_ok {b : Binds} {most : Nat} (h : b.require most = .ok ()) : most ≤ b.size := by
  unfold Binds.require at h
  split at h
  · cases h
  · omega

/-- The check before a run is complete. Once it passes, neither the run nor any part of it, from any memo
and at any depth, fails for want of a value; and if some placeholder has no value, the check fails,
whatever the tables are. -/
theorem bind_check_complete (world : World) (s : Statement) (counted : ∀ n, s.HasBind n → 1 ≤ n) :
    (world.binds.require s.maxBind = .ok () →
      (∀ depth, (run remembered world depth s).BindSafe) ∧ BindSafe (execute world s)) ∧
    ∀ n, s.HasBind n → world.binds.size < n → ∀ (tables : Tables) (clock : Calendar.Moment),
      execute ⟨tables, world.binds, clock⟩ s =
        .error (.missingBind (world.binds.size + 1) world.binds.size) := by
  constructor
  · intro hrequire
    have hsupplied : ∀ n, s.HasBind n → world.binds.Supplies n := fun n hn =>
      ⟨counted n hn, Nat.le_trans hn.le_maxBind (require_eq_ok hrequire)⟩
    have hrun depth := Statement.Supplied.run_bindSafe depth hsupplied
    refine ⟨hrun, ?_⟩
    unfold execute
    rw [hrequire]
    exact hrun s.depth []
  · intro n hn hmissing tables clock
    have hmost : world.binds.size < s.maxBind := Nat.lt_of_lt_of_le hmissing hn.le_maxBind
    unfold execute Binds.require
    rw [if_pos hmost]
    rfl

def oneRow : Tables :=
  .ofList [.derived "T" ["A"] [[.text "x"]]]

/-- `SELECT A FROM T WHERE EXISTS (SELECT ?2 FROM T)` -/
def boundWithin : Statement :=
  ⟨false, [⟨.column none "A", "A", none⟩], .table "T" none, [],
    some (.exists false ⟨false, [⟨.bind 2, "?2", none⟩], .table "T" none, [], none, [], none, [],
      none, none, []⟩), [], none, [], none, none, []⟩

/-- Two values are enough for a second placeholder in a nested statement, one value is not. -/
theorem bind_check_complete_within :
    (∀ n, boundWithin.HasBind n → 1 ≤ n) ∧
    BindSafe (execute ⟨oneRow, ⟨[.text "y", .text "z"]⟩, .midnight ⟨2020, 1, 1⟩⟩ boundWithin) ∧
    boundWithin.HasBind 2 ∧
    execute ⟨oneRow, ⟨[.text "y"]⟩, .midnight ⟨2020, 1, 1⟩⟩ boundWithin =
      .error (.missingBind 2 1) := by
  have hplaceholders : ∀ n ∈ placeholders.statement boundWithin, 1 ≤ n := by decide
  have hcounted : ∀ n, boundWithin.HasBind n → 1 ≤ n := fun n hn =>
    hplaceholders n hn.mem_placeholders
  have htwo : boundWithin.HasBind 2 :=
    .filter rfl (.exists (.item (List.mem_singleton_self _) .bind))
  refine ⟨hcounted, ?_, htwo, ?_⟩
  · exact ((bind_check_complete ⟨oneRow, ⟨[.text "y", .text "z"]⟩, .midnight ⟨2020, 1, 1⟩⟩
      boundWithin hcounted).1 (by decide)).2
  · exact (bind_check_complete ⟨oneRow, ⟨[.text "y"]⟩, .midnight ⟨2020, 1, 1⟩⟩
      boundWithin hcounted).2 2 htwo (by decide) oneRow (.midnight ⟨2020, 1, 1⟩)

end GridQuery
