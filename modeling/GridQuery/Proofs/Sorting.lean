import GridQuery.Proofs.Classes
import GridQuery.Proofs.Fields
import GridQuery.Proofs.JoinChain
import GridQuery.Proofs.Tables

/-!
What a statement sorts. The rows it makes have a cell for each field, grouping and `HAVING` leave that so,
and its keys are slots of fields. So every sort of a statement compares rows on which the comparison is a
total preorder.
-/

namespace GridQuery
set_option autoImplicit false

section Widths

variable {σ : Type} {world : World} {runner : Runner σ} {fields : Fields}

theorem Scope.fieldFormulas_length {s : Scope} {memo : FormulaMemo} {fields : List Field}
    {formulas : List Formula} (h : s.fieldFormulas memo fields = .ok formulas) :
    formulas.length = fields.length := by
  induction fields generalizing memo formulas with
  | nil =>
    cases h
    rfl
  | cons f fields ih =>
    unfold fieldFormulas at h
    obtain ⟨⟨x, memo'⟩, _, h⟩ := bind_eq_ok.mp h
    obtain ⟨xs, hxs, h⟩ := bind_eq_ok.mp h
    cases h
    exact congrArg (· + 1) (ih hxs)

theorem Rows.values_length {r : Rows σ} {row : Nat} {formulas : List Formula} {cells : List Cell}
    {st st' : σ} (h : (r.values row formulas).Gives st cells st') : cells.length = formulas.length := by
  induction formulas generalizing cells st st' with
  | nil =>
    simp only [values, Run.gives_pure] at h
    rw [h.1]
    rfl
  | cons f formulas ih =>
    simp only [values] at h
    obtain ⟨x, mid, _, h⟩ := Run.gives_bind.mp h
    obtain ⟨xs, mid', hxs, h⟩ := Run.gives_bind.mp h
    rw [(Run.gives_pure.mp h).1, List.length_cons, ih hxs]
    rfl

/-- Each row of cells has the values of the formulas on some row. -/
theorem Rows.exists_values {r : Rows σ} {formulas : List Formula} {ids : List Nat} {rows : List Row}
    {st st' : σ} (h : (r.cells formulas ids).Gives st rows st') :
    ∀ row ∈ rows, ∃ id before after, (r.values id formulas).Gives before row after := by
  induction ids generalizing rows st st' with
  | nil =>
    simp only [cells, Run.gives_pure] at h
    rw [h.1]
    intro row hrow
    cases hrow
  | cons id ids ih =>
    simp only [cells] at h
    obtain ⟨row, mid, hrow, h⟩ := Run.gives_bind.mp h
    obtain ⟨others, mid', hothers, h⟩ := Run.gives_bind.mp h
    rw [(Run.gives_pure.mp h).1]
    intro r hr
    rcases List.mem_cons.mp hr with rfl | hr
    · exact ⟨id, st, mid, hrow⟩
    · exact ih hothers r hr

theorem Rows.cells_length {r : Rows σ} {formulas : List Formula} {ids : List Nat} {rows : List Row}
    {st st' : σ} (h : (r.cells formulas ids).Gives st rows st') :
    ∀ row ∈ rows, row.length = formulas.length := by
  intro row hrow
  obtain ⟨id, before, after, hvalues⟩ := exists_values h row hrow
  exact values_length hvalues

theorem keepFirst_sublist {α : Type} (text : α → String) (items : List α) (seen : List String) :
    (keepFirst text seen items).Sublist items := by
  induction items generalizing seen with
  | nil => exact List.Sublist.refl _
  | cons a items ih =>
    unfold keepFirst
    split
    · exact (ih seen).cons a
    · exact (ih (text a :: seen)).cons_cons a

theorem compress_length {rows : List Row} (h : ∀ row ∈ rows, row.length = fields.length) :
    (compress fields rows).length = fields.length := by
  unfold compress
  rw [List.length_map, List.length_zipIdx]
  cases rows with
  | nil => exact List.length_replicate
  | cons row rest => exact h row List.mem_cons_self

theorem groupBy_length {keys : List Nat} {rows : List Row}
    (h : ∀ row ∈ rows, row.length = fields.length) :
    ∀ row ∈ groupBy fields keys rows, row.length = fields.length := by
  intro row hrow
  obtain ⟨run, hrun, rfl⟩ := List.mem_map.mp hrow
  apply compress_length
  intro r hr
  exact h r ((sortByKeys_perm keys rows).mem_iff.mp (mem_of_mem_runs hrun hr))

/-- Grouping leaves rows with a cell for each field. -/
theorem grouped_length {keys : List Nat} {distinct : Bool} {rows : List Row}
    (h : ∀ row ∈ rows, row.length = fields.length) :
    ∀ row ∈ grouped fields keys distinct rows, row.length = fields.length := by
  intro row hrow
  unfold grouped at hrow
  split at hrow
  · rw [List.mem_singleton.mp hrow]
    exact compress_length h
  · split at hrow
    · exact h row hrow
    · simp only at hrow
      split at hrow
      · exact groupBy_length h row ((keepFirst_sublist _ _ _).subset hrow)
      · exact groupBy_length h row hrow

theorem keepGroups_length {rows kept : List Row} {having : Option Condition} {st st' : σ}
    (hrows : ∀ row ∈ rows, row.length = fields.length)
    (h : (keepGroups world runner fields rows having).Gives st kept st') :
    ∀ row ∈ kept, row.length = fields.length := by
  cases having with
  | none =>
    rw [(Run.gives_pure.mp h).1]
    exact hrows
  | some c =>
    obtain ⟨ids, mid, _, h⟩ := Run.gives_bind.mp h
    rw [(Run.gives_pure.mp h).1]
    intro row hrow
    obtain ⟨i, _, hi⟩ := List.mem_filterMap.mp hrow
    obtain ⟨source, _, rfl⟩ := List.mem_map.mp (List.mem_of_getElem? hi)
    rw [fitRow_length, List.length_map]

theorem sortRows_perm (keys : List (Nat × Direction)) (rows : List Row) : (sortRows keys rows).Perm rows := by
  unfold sortRows
  split
  · exact .refl rows
  · exact List.mergeSort_perm rows _

/-- What is shown are the beginnings of the first rows, in their order. -/
theorem cut_prefix (fields : Fields) (limit : Option Nat) (rows : List Row) :
    ∃ shown, shown <+: rows ∧ cut fields limit rows = shown.map fun row => row.take fields.selectedCount := by
  unfold cut
  cases limit with
  | none => exact ⟨rows, List.prefix_rfl, rfl⟩
  | some n => exact ⟨rows.take n, List.take_prefix n rows, List.map_take.symm⟩

end Widths

section Made

variable {σ : Type} {world : World} {runner : Runner σ} {s : Statement}

/-- The first half of running a statement: its plan, its fields as its joins leave them, and the rows that
pass its filter, with a cell for each field. -/
def madeRows (world : World) (runner : Runner σ) (s : Statement) :
    Run σ (Layout × Fields × List Row) := do
  let first ← sourceTable world runner s.source
  let others ← sourceTables world runner s.joins
  let plan ← Run.of (layout (first :: others) s)
  let (working, fields) ← joinFrom world runner 1 first plan.fields s.joins others
  let rows : Rows σ := ⟨world, working, runner⟩
  let ids ← rows.matching s.filter
  let formulas ← Run.of (rows.scope.fieldFormulas [] fields)
  let cells ← rows.cells formulas ids
  pure (plan, fields, cells)

/-- The second half groups the rows, keeps some of the groups, and orders them. -/
theorem runPlain_eq (world : World) (runner : Runner σ) (s : Statement) :
    runPlain world runner s = (do
      let (plan, fields, cells) ← madeRows world runner s
      let groups ← keepGroups world runner fields (grouped fields plan.groupKeys s.distinct cells)
        s.having
      pure ⟨fields.titles, cut fields s.limit (sortRows plan.orderKeys groups)⟩) := by
  simp only [runPlain, madeRows, bind_assoc, pure_bind]

/-- The rows that a statement makes have a cell for each field, and its keys are slots of fields. -/
theorem madeRows_widths {plan : Layout} {fields : Fields} {cells : List Row} {st st' : σ}
    (h : (madeRows world runner s).Gives st (plan, fields, cells) st') :
    (∀ row ∈ cells, row.length = fields.length) ∧
      (∀ slot ∈ plan.groupKeys, slot < fields.length) ∧
      ∀ key ∈ plan.orderKeys, key.1 < fields.length := by
  unfold madeRows at h
  obtain ⟨first, _, _, h⟩ := Run.gives_bind.mp h
  obtain ⟨others, _, _, h⟩ := Run.gives_bind.mp h
  obtain ⟨plan', _, hplan, h⟩ := Run.gives_bind.mp h
  obtain ⟨⟨working, fields'⟩, _, hjoin, h⟩ := Run.gives_bind.mp h
  obtain ⟨ids, _, _, h⟩ := Run.gives_bind.mp h
  obtain ⟨formulas, _, hformulas, h⟩ := Run.gives_bind.mp h
  obtain ⟨cells', _, hcells, h⟩ := Run.gives_bind.mp h
  cases (Run.gives_pure.mp h).1
  have hfields : fields.length = plan.fields.length := by
    simpa only [List.length_map] using congrArg List.length (joinFrom_kinds hjoin)
  have hwidth := Scope.fieldFormulas_length (Run.gives_of.mp hformulas).1
  obtain ⟨_, hgroup, horder⟩ := layout_eq_ok (Run.gives_of.mp hplan).1
  rw [hfields]
  refine ⟨?_, hgroup, horder⟩
  intro row hrow
  rw [Rows.cells_length hcells row hrow, hwidth, hfields]

theorem lt_of_mem_plainSlots {fields : Fields} {slot : Nat} (h : slot ∈ plainSlots fields) :
    slot < fields.length := by
  obtain ⟨f, hf, rfl⟩ := List.mem_map.mp h
  have hlt := List.snd_lt_of_mem_zipIdx (List.mem_filter.mp hf).1
  omega

end Made

/-- The order of cells is a total preorder, on doubles the numeric one with the negative zero first. So
are the orders of rows by keys, on rows that have the keys; and what a statement groups and orders are
such rows. -/
theorem sortOrder_total_preorder :
    Std.TransCmp Cell.sortOrder ∧
    (∀ x y o, Number.order? x y = some o → (Cell.number x).sortOrder (.number y) =
      o.then (compare (Number.isNegative y) (Number.isNegative x))) ∧
    (∀ keys : List (Nat × Direction),
      Std.TransCmp fun a b : KeyedRow (keys.map Prod.fst) => compareRows a b keys) ∧
    (∀ keys : List Nat, Std.TransCmp fun a b : KeyedRow keys => compareKeys a b keys) ∧
    ∀ {σ : Type} {world : World} {runner : Runner σ} {s : Statement} {plan : Layout}
      {fields : Fields} {cells : List Row} {st st' : σ},
      (madeRows world runner s).Gives st (plan, fields, cells) st' →
      (∀ row ∈ cells, Keyed plan.groupKeys row ∧ Keyed (plainSlots fields) row) ∧
      ∀ {groups : List Row} {mid last : σ},
        (keepGroups world runner fields (grouped fields plan.groupKeys s.distinct cells)
          s.having).Gives mid groups last →
        ∀ row ∈ groups, Keyed (plan.orderKeys.map Prod.fst) row := by
  refine ⟨Cell.sortOrder_transCmp, ?_, ?_, keyed_transCmp, ?_⟩
  · intro x y o ho
    exact Number.compare_totalRank ho
  · intro keys
    exact compareRows_transCmp keys fun _ h => h
  · intro σ world runner s plan fields cells st st' hmade
    obtain ⟨hcells, hgroup, horder⟩ := madeRows_widths hmade
    constructor
    · intro row hrow
      constructor
      · intro slot hslot
        rw [hcells row hrow]
        exact hgroup slot hslot
      · intro slot hslot
        rw [hcells row hrow]
        exact lt_of_mem_plainSlots hslot
    · intro groups mid last hgroups row hrow slot hslot
      obtain ⟨key, hkey, rfl⟩ := List.mem_map.mp hslot
      rw [keepGroups_length (grouped_length hcells) hgroups row hrow]
      exact horder key hkey

def prices : Table :=
  .derived "PRICES" ["A", "B"] [[.text "tea", .number 9], [.text "ink", .text "10"]]

def pricesWorld : World := ⟨.ofList [prices], .empty, .midnight ⟨2020, 1, 1⟩⟩

/-- `SELECT A FROM PRICES ORDER BY B DESC` -/
def dearestFirst : Statement :=
  ⟨false, [⟨.column none "A", "A", none⟩], .table "PRICES" none, [], none, [], none,
    [⟨.column none "B", .desc⟩], none, none, []⟩

/-- A number, the text of a greater one, and a text that is none; and a statement ordered by such cells. -/
theorem sortOrder_total_preorder_prices :
    ((Cell.number 9).sortOrder (.text "10")).isLE = true ∧
    ((Cell.text "10").sortOrder (.text "n/a")).isLE = true ∧
    ((Cell.number 9).sortOrder (.text "n/a")).isLE = true ∧
    ∃ (plan : Layout) (fields : Fields) (st : ResultMemo),
      (madeRows pricesWorld (runnerAt remembered pricesWorld 0) dearestFirst).Gives []
        (plan, fields, prices.rows) st ∧
      plan.orderKeys.map Prod.fst = [1] ∧
      ∀ row ∈ grouped fields plan.groupKeys false prices.rows, Keyed [1] row := by
  have hlow : ((Cell.number 9).sortOrder (.text "10")).isLE = true := by decide +kernel
  have hhigh : ((Cell.text "10").sortOrder (.text "n/a")).isLE = true := by decide +kernel
  obtain ⟨hcells, _, _, _, hsorts⟩ := sortOrder_total_preorder
  refine ⟨hlow, hhigh, hcells.isLE_trans hlow hhigh, ?_⟩
  have hmade : ((madeRows pricesWorld (runnerAt remembered pricesWorld 0) dearestFirst).run
      []).1.map (fun m => (m.2.2, m.1.orderKeys.map Prod.fst)) = .ok (prices.rows, [1]) := by
    decide +kernel
  rcases hrun : (madeRows pricesWorld (runnerAt remembered pricesWorld 0) dearestFirst).run []
    with ⟨e | ⟨plan, fields, cells⟩, st⟩
  · rw [hrun] at hmade
    cases hmade
  · rw [hrun] at hmade
    obtain ⟨rfl, horder⟩ := Prod.mk.inj (Except.ok.inj hmade)
    refine ⟨plan, fields, st, hrun, horder, ?_⟩
    rw [← horder]
    exact (hsorts hrun).2 (Run.gives_pure.mpr ⟨rfl, rfl⟩ : Run.Gives _ [] _ [])

end GridQuery
