import GridQuery.Proofs.Rectangular

/-!
A query within a query. A star over one table shows the table: its fields are the columns one after the
other, each of them reads the cell at its own place, and nothing is folded, ordered or cut off. Titles are
looked up nowhere on the way, so `SELECT * FROM (q) AS a` gives the rows of `q` under any titles.
-/

namespace GridQuery
set_option autoImplicit false

/-- `SELECT * FROM (q) AS a` -/
def Statement.wrapped (q : Statement) (a : String) : Statement :=
  ⟨false, [⟨.star none, "*", none⟩], .query q (some a), [], none, [], none, [], none, none, []⟩

/-- The same rows, with each title behind a name. -/
def ResultSet.qualified (r : ResultSet) (name : String) : ResultSet :=
  ⟨r.titles.map fun title => normalize (name ++ "." ++ title), r.rows⟩

theorem Statement.maxBind_wrapped (q : Statement) (a : String) : (q.wrapped a).maxBind = q.maxBind := by
  simp [wrapped, maxBind, Tally.statement, Tally.items, Tally.expr, Tally.source, Tally.joins, Tally.clause,
    Tally.exprs, Tally.orders, Tally.optional, Tally.operations, highestBind]

theorem Statement.depth_wrapped (q : Statement) (a : String) : (q.wrapped a).depth = q.depth + 1 := by
  simp [wrapped, depth, Tally.statement, Tally.items, Tally.expr, Tally.source, Tally.joins, Tally.clause,
    Tally.exprs, Tally.orders, Tally.optional, Tally.operations, nesting]

section Star

variable {σ : Type} {world : World} {runner : Runner σ}

theorem Fields.ofSource_columns (index : Nat) (source : Table) :
    List.Forall₂ (fun f c => f.kind = .column index c ∧ f.derived = none)
      (ofSource index source) (List.range source.width) := by
  have hcolumns : List.range source.width = source.titles.zipIdx.map Prod.snd := by
    rw [List.zipIdx_map_snd, List.range_eq_range', Table.width]
  rw [hcolumns, ofSource, List.forall₂_map_left_iff, List.forall₂_map_right_iff, List.forall₂_same]
  intro t _
  rw [Field.spellColumn_kind, Field.spellColumn_derived]
  exact ⟨rfl, rfl⟩

theorem Scope.fieldFormulas_columns {s : Scope} {index : Nat} {fields : Fields} {columns : List Nat}
    (h : List.Forall₂ (fun f c => f.kind = .column index c ∧ f.derived = none)
      fields columns) (memo : FormulaMemo) :
    s.fieldFormulas memo fields = .ok (columns.map Formula.slot) := by
  induction h with
  | nil => rfl
  | @cons f c fields columns hf _ ih =>
    have hformula : s.fieldFormula memo f = .ok (.slot c, memo) := by
      simp only [fieldFormula, hf.1, Field.physical?, hf.2, Option.getD_none]
    rw [fieldFormulas, hformula]
    exact bind_eq_ok.mpr ⟨_, rfl, bind_eq_ok.mpr ⟨_, ih, rfl⟩⟩

theorem Rows.values_slots (r : Rows σ) (row : Nat) (columns : List Nat) :
    r.values row (columns.map Formula.slot) = pure (columns.map (r.table.cell row)) := by
  induction columns with
  | nil => rfl
  | cons c columns ih =>
    rw [List.map_cons, Rows.values, Rows.value, pure_bind, ih, pure_bind]
    rfl

theorem Rows.cells_slots (r : Rows σ) (columns ids : List Nat) :
    r.cells (columns.map Formula.slot) ids =
      pure (ids.map fun row => columns.map (r.table.cell row)) := by
  induction ids with
  | nil => rfl
  | cons row ids ih =>
    rw [Rows.cells, values_slots, pure_bind, ih, pure_bind]
    rfl

/-- All columns of all rows are the table. -/
theorem Table.Built.cells_eq_rows {t : Table} (h : t.Built) :
    ((List.range t.rows.length).map fun row => (List.range t.width).map (t.cell row)) = t.rows := by
  apply List.ext_getElem
  · simp
  · intro i _ hi
    have hcells : (t.rows[i]).length = t.width := h.length_row _ (List.getElem_mem hi)
    rw [List.getElem_map, List.getElem_range, List.range_eq_range']
    conv_rhs => rw [← Table.map_getElem?_range' hcells]
    refine List.map_congr_left fun c _ => ?_
    simp only [Table.cell, List.getElem?_eq_getElem hi, Option.bind_some]

theorem layout_star (t : Table) (q : Statement) (a : String) :
    layout [t] (q.wrapped a) = .ok ⟨Fields.ofSource 0 t, [], []⟩ := by
  have hfields : Fields.ofSelect [t] (q.wrapped a).items = .ok (Fields.ofSource 0 t) := by
    change Fields.ofSelect [t] [⟨.star none, "*", none⟩] = _
    have hstar : Fields.ofStar [t] none = .ok (Fields.ofSource 0 t) := by
      simp [Fields.ofStar, Fields.starMeans]
    refine bind_eq_ok.mpr ⟨_, hstar, bind_eq_ok.mpr ⟨[], rfl, ?_⟩⟩
    rw [List.append_nil]
  exact bind_eq_ok.mpr ⟨_, hfields, rfl⟩

theorem grouped_star (t : Table) (rows : List Row) :
    grouped (Fields.ofSource 0 t) [] false rows = rows := by
  have hplain : Fields.hasAggregates (Fields.ofSource 0 t) = false := by
    rw [Fields.hasAggregates, List.any_eq_false]
    intro f hf
    simp [Field.isAggregate, Fields.ofSource_aggregate hf]
  simp only [grouped, hplain]
  rfl

/-- All fields are shown, so nothing is cut off. -/
theorem cut_star {t : Table} (h : t.Built) : cut (Fields.ofSource 0 t) none t.rows = t.rows := by
  have hcount : Fields.selectedCount (Fields.ofSource 0 t) = t.width := by
    rw [Fields.selectedCount_eq_titles, Fields.ofSource_titles, List.length_map, Table.width]
  unfold cut
  rw [hcount]
  refine (List.map_congr_left fun row hrow => ?_).trans (List.map_id t.rows)
  exact List.take_of_length_le (h.length_row row hrow).le

/-- Running the star shows the table that the result of the inner statement makes. -/
theorem runPlain_wrapped (world : World) (runner : Runner σ) (q : Statement) (a : String) :
    runPlain world runner (q.wrapped a) = (do
      let r ← runner.kept q
      let t := Table.derived a r.titles r.rows
      pure (ResultSet.qualified ⟨t.titles, t.rows⟩ a)) := by
  have hsource : sourceTable world runner (q.wrapped a).source = (do
      let r ← runner.kept q
      pure (Table.derived a r.titles r.rows)) := rfl
  rw [runPlain, hsource, bind_assoc]
  congr 1
  funext r
  rw [pure_bind]
  have hreference : (Table.derived a r.titles r.rows).reference = a := rfl
  have hbuilt : (Table.derived a r.titles r.rows).Built := .withSchema _ _ _ _
  -- the rest holds of any table, whatever result it was made of
  generalize Table.derived a r.titles r.rows = t at hreference hbuilt
  have hlayout := layout_star t q a
  have hformulas (s : Scope) := s.fieldFormulas_columns (Fields.ofSource_columns 0 t) []
  simp only [Statement.wrapped] at hlayout ⊢
  simp only [sourceTables, hlayout, Run.of, joinFrom, Rows.matching, hformulas, Rows.cells_slots, pure_bind,
    hbuilt.cells_eq_rows, grouped_star, keepGroups]
  have hrows : cut (Fields.ofSource 0 t) none (sortRows [] t.rows) = t.rows := cut_star hbuilt
  rw [hrows, Fields.ofSource_titles, hreference]
  rfl

end Star

section Remembered

variable {world : World} {q : Statement}

/-- Before anything is kept, running the star runs the inner statement, and fails as that fails. -/
theorem run_wrapped (world : World) (q : Statement) (a : String) (depth : Nat) :
    ((run remembered world (depth + 1) (q.wrapped a)).run []).1 =
      ((run remembered world depth q).run []).1.map fun r => r.qualified a := by
  have hrun : run remembered world (depth + 1) (q.wrapped a) =
      runPlain world (runnerAt remembered world depth) (q.wrapped a) := bind_pure _
  have hkept : ((runnerAt remembered world depth).kept q).run [] = _ :=
    run_remembered (run remembered world depth) q []
  rw [hrun, runPlain_wrapped, Run.run_bind, hkept]
  rcases hresult : (run remembered world depth q).run [] with ⟨e | r, mid⟩
  · rfl
  · -- the rows are as wide as the titles already, so the derived table fills up and cuts off nothing
    have heven : r.Even := run_even hresult
    have hrows : r.rows.map (fitRow r.titles.length) = r.rows :=
      (List.map_congr_left fun row hrow => fitRow_eq_self (heven row hrow)).trans (List.map_id r.rows)
    change Except.ok (ResultSet.qualified ⟨r.titles, r.rows.map (fitRow r.titles.length)⟩ a) = _
    rw [hrows]
    rfl

end Remembered

/-- Wrapping a query in a derived table is the identity on rows. `SELECT * FROM (q) AS a` has the rows of
`q` in the order of `q`, each title of `q` stands behind the name, and the one query fails as the other. -/
theorem execute_wrapped (world : World) (q : Statement) (a : String) :
    execute world (q.wrapped a) =
      (execute world q).map fun r => ⟨r.titles.map fun title => normalize (a ++ "." ++ title), r.rows⟩ := by
  unfold execute
  rw [Statement.maxBind_wrapped, Statement.depth_wrapped]
  cases world.binds.require q.maxBind with
  | error e => rfl
  | ok _ => exact run_wrapped world q a q.depth

example : (Parser.parseStatement "SELECT * FROM (SELECT A, A FROM T) AS s").map Statement.text =
    (Parser.parseStatement "SELECT A, A FROM T").map fun q => (q.wrapped "s").text := by decide +kernel

end GridQuery
