import GridQuery.Proofs.Appending

/-!
Tables at hand, and what is done with them: tables are made, named, copied, indexed and appended to, in any
order, also where some of it fails. Each step keeps tables that are built, so that a search through an index
never gives what the cells had before the last change.
-/

namespace GridQuery
set_option autoImplicit false

namespace Table

theorem built_of_ofParts {name : String} {titles : List String} {rows : List Row} {t : Table}
    (h : ofParts name titles rows = .ok t) : t.Built := by
  unfold ofParts at h
  cases hschema : Schema.ofTitles name none titles with
  | error e =>
    rw [hschema] at h
    cases h
  | ok schema =>
    rw [hschema] at h
    cases h
    exact .withSchema _ _ _ _

theorem built_of_ofRows {name : String} {rows : List Row} {t : Table} (h : ofRows name rows = .ok t) : t.Built := by
  cases rows with
  | nil => exact built_of_ofParts h
  | cons titles rows => exact built_of_ofParts h

theorem Built.extend {t other : Table} (h : t.Built) (hother : other.Built) : ((extend other).run t).2.Built := by
  rw [run_extend]
  cases happend : t.append other with
  | ok all => exact .append h hother happend
  | error e => exact h

theorem search_of_not_indexed {t : Table} {column : Nat} (h : ¬t.Indexed column) (value : Cell) :
    t.search column value = [] := by
  have hnone : t.indexes.lookup column = none := Option.not_isSome_iff_eq_none.mp h
  unfold search
  rw [hnone, ite_self]

/-- The rows found are those whose cell is not null and has the text that is looked for. -/
theorem Built.mem_search_iff {t : Table} (h : t.Built) {column : Nat} (hindexed : t.Indexed column) (value : Cell)
    (id : Nat) : id ∈ t.search column value ↔ value.isNull = false ∧
      ∃ row cell, t.rows[id]? = some row ∧ row[column]? = some cell ∧ cell.isNull = false ∧
        cell.key = value.key := by
  rw [h.search_eq hindexed, List.mem_findIdxs_iff_exists_getElem_pos]
  constructor
  · rintro ⟨hid, hsame⟩
    have hrow : id < t.rows.length := by rwa [columnCells_length] at hid
    simp only [columnCells, List.getElem_map, Cell.sameText, Bool.and_eq_true, Bool.not_eq_true',
      beq_iff_eq] at hsame
    obtain ⟨⟨hvalue, hcell⟩, hkey⟩ := hsame
    refine ⟨hvalue, t.rows[id], _, List.getElem?_eq_getElem hrow, ?_, hcell, hkey.symm⟩
    cases hget : t.rows[id][column]? with
    | some cell => rfl
    | none =>
      rw [hget] at hcell
      cases hcell
  · rintro ⟨hvalue, row, cell, hrow, hget, hcell, hkey⟩
    obtain ⟨hid, rfl⟩ := List.getElem?_eq_some_iff.mp hrow
    refine ⟨by rwa [columnCells_length], ?_⟩
    simp only [columnCells, List.getElem_map, hget, Option.getD_some, Cell.sameText, Bool.and_eq_true,
      Bool.not_eq_true', beq_iff_eq]
    exact ⟨⟨hvalue, hcell⟩, hkey.symm⟩

theorem Built.search_ascending {t : Table} (h : t.Built) (column : Nat) (value : Cell) :
    (t.search column value).Pairwise (· < ·) := by
  by_cases hindexed : t.Indexed column
  · rw [h.search_eq hindexed]
    exact List.pairwise_findIdxs
  · rw [search_of_not_indexed hindexed]
    exact .nil

end Table

/-- What is done with the tables at hand, which are counted from zero in the order they came. -/
inductive TableAction where
  | ofRows (name : String) (rows : List Row)
  | untitled (name : String) (rows : List Row)
  | ofParts (name : String) (titles : List String) (rows : List Row)
  | derived (name : String) (titles : List String) (rows : List Row)
  | withSchema (name : String) (titles : List String) (rows : List Row) (schema : Schema)
  | withAlias (of : Nat) (alias? : Option String)
  | copy (of : Nat)
  | addIndex (of column : Nat)
  | extend (of other : Nat)

namespace TableAction

/-- The tables with one behind them, unless making that fails. -/
def made (tables : List Table) (t : Except QueryError Table) : List Table :=
  tables ++ t.toOption.toList

/-- The tables after an action. A table that is made, named or copied comes behind the others, unless making it
fails; one that is indexed or appended to changes where it stands. -/
def act (tables : List Table) : TableAction → List Table
  | ofRows name rows => made tables (Table.ofRows name rows)
  | untitled name rows => made tables (Table.untitled name rows)
  | ofParts name titles rows => made tables (Table.ofParts name titles rows)
  | derived name titles rows => made tables (.ok (Table.derived name titles rows))
  | withSchema name titles rows schema => made tables (.ok (Table.withSchema name titles rows schema))
  | withAlias i alias? => tables ++ (tables[i]?.map fun t => t.withAlias alias?).toList
  | copy i => tables ++ tables[i]?.toList
  | addIndex i column => tables.modify i fun t => t.addIndex column
  | extend i j =>
    match tables[j]? with
    | some other => tables.modify i fun t => ((Table.extend other).run t).2
    | none => tables

def run (actions : List TableAction) : List Table :=
  actions.foldl act []

variable {tables : List Table}

theorem built_behind (h : ∀ t ∈ tables, t.Built) {made : Option Table} (hmade : ∀ t, made = some t → t.Built) :
    ∀ t ∈ tables ++ made.toList, t.Built := by
  intro t ht
  rcases List.mem_append.mp ht with ht | ht
  · exact h t ht
  · exact hmade t (Option.mem_toList.mp ht)

theorem built_made (h : ∀ t ∈ tables, t.Built) {result : Except QueryError Table}
    (hresult : ∀ t, result = .ok t → t.Built) : ∀ t ∈ made tables result, t.Built := by
  refine built_behind h fun t ht => hresult t ?_
  cases result with
  | error e => cases ht
  | ok made => exact congrArg Except.ok (Option.some.inj ht)

theorem built_modify (h : ∀ t ∈ tables, t.Built) {f : Table → Table} (hf : ∀ t, t.Built → (f t).Built) (i : Nat) :
    ∀ t ∈ tables.modify i f, t.Built := by
  intro t ht
  obtain ⟨j, hj⟩ := List.mem_iff_getElem?.mp ht
  rw [List.getElem?_modify] at hj
  obtain ⟨old, hold, rfl⟩ := Option.map_eq_some_iff.mp hj
  have hbuilt := h old (List.mem_of_getElem? hold)
  split
  · exact hf old hbuilt
  · exact hbuilt

theorem act_built (h : ∀ t ∈ tables, t.Built) (action : TableAction) : ∀ t ∈ act tables action, t.Built := by
  cases action with
  | ofRows name rows => exact built_made h fun t ht => Table.built_of_ofRows ht
  | untitled name rows => exact built_made h fun t ht => Table.built_of_ofParts ht
  | ofParts name titles rows => exact built_made h fun t ht => Table.built_of_ofParts ht
  | derived name titles rows => exact built_made h fun t ht => Except.ok.inj ht ▸ .withSchema _ _ _ _
  | withSchema name titles rows schema => exact built_made h fun t ht => Except.ok.inj ht ▸ .withSchema _ _ _ _
  | withAlias i alias? =>
    refine built_behind h fun t ht => ?_
    obtain ⟨old, hold, rfl⟩ := Option.map_eq_some_iff.mp ht
    exact .withAlias alias? (h old (List.mem_of_getElem? hold))
  | copy i => exact built_behind h fun t ht => h t (List.mem_of_getElem? ht)
  | addIndex i column => exact built_modify h (fun t ht => .addIndex column ht) i
  | extend i j =>
    cases hother : tables[j]? with
    | none =>
      simp only [act, hother]
      exact h
    | some other =>
      simp only [act, hother]
      exact built_modify h (fun t ht => ht.extend (h other (List.mem_of_getElem? hother))) i

theorem run_built (actions : List TableAction) : ∀ t ∈ run actions, t.Built := by
  have hfold : ∀ (actions : List TableAction) (tables : List Table), (∀ t ∈ tables, t.Built) →
      ∀ t ∈ actions.foldl act tables, t.Built := by
    intro actions
    induction actions with
    | nil => exact fun _ h => h
    | cons action actions ih => exact fun tables h => ih _ (act_built h action)
  exact hfold actions [] (by simp)

end TableAction

/-- Indexes never go stale. Whatever has been done with tables, each of them has rows as wide as its titles, and a
search in a column with an index gives, ascending and each once, the rows whose cell is not null and has the text
of the value, none for null. A column has an index once it was added; a column without one gives nothing. -/
theorem search_never_stale (actions : List TableAction) (t : Table) (h : t ∈ TableAction.run actions) :
    (∀ row ∈ t.rows, row.length = t.titles.length) ∧
    (∀ column, (t.addIndex column).Indexed column) ∧
    ∀ (column : Nat) (value : Cell),
      (t.search column value).Pairwise (· < ·) ∧
      (t.Indexed column → ∀ id, id ∈ t.search column value ↔ value.isNull = false ∧
        ∃ row cell, t.rows[id]? = some row ∧ row[column]? = some cell ∧ cell.isNull = false ∧
          cell.key = value.key) ∧
      (¬t.Indexed column → t.search column value = []) := by
  have hbuilt := TableAction.run_built actions t h
  exact ⟨hbuilt.length_row, t.indexed_addIndex, fun column value => ⟨hbuilt.search_ascending column value,
    fun hindexed id => hbuilt.mem_search_iff hindexed value id,
    fun hindexed => Table.search_of_not_indexed hindexed value⟩⟩

/-- A copy of an indexed table is appended to and indexed anew: its index holds the rows of now. -/
theorem search_never_stale_copied :
    let actions : List TableAction := [.derived "T" ["A"] [[.number 1], [.null], [.text "1"]], .addIndex 0 0, .copy 0,
      .extend 1 0, .addIndex 1 0]
    ∃ t, t ∈ TableAction.run actions ∧ t.Indexed 0 ∧ t.rows.length = 6 ∧
      5 ∈ t.search 0 (.number 1) ∧ 4 ∉ t.search 0 (.number 1) := by
  intro actions
  obtain ⟨t, ht, hindexed, hrows⟩ : ∃ t, (TableAction.run actions)[1]? = some t ∧ t.Indexed 0 ∧
      t.rows = [[.number 1], [.null], [.text "1"], [.number 1], [.null], [.text "1"]] :=
    ⟨_, rfl, rfl, rfl⟩
  have hmem := List.mem_of_getElem? ht
  obtain ⟨-, -, hsearch⟩ := search_never_stale actions t hmem
  obtain ⟨-, hfound, -⟩ := hsearch 0 (.number 1)
  refine ⟨t, hmem, hindexed, congrArg List.length hrows, ?_, ?_⟩
  · refine (hfound hindexed 5).mpr ⟨rfl, [.text "1"], .text "1", by rw [hrows]; rfl, rfl, rfl, ?_⟩
    decide +kernel
  · intro hin
    obtain ⟨-, row, cell, hrow, hcell, hnull, -⟩ := (hfound hindexed 4).mp hin
    rw [hrows] at hrow
    cases hrow
    cases hcell
    cases hnull

end GridQuery
