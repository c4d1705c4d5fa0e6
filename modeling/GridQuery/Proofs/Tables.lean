import Mathlib.Data.List.Sort
import GridQuery.Join

/-!
Tables as they come about. However a table was made, its rows are as wide as its titles, and an index
that it carries is the one its cells have now. So a search through an index finds the rows with the
text that is looked for, in their order.
-/

namespace GridQuery
set_option autoImplicit false

/-- Both cells have a text, the same one. -/
def Cell.sameText (a b : Cell) : Bool :=
  !a.isNull && !b.isNull && a.key == b.key

theorem fitRow_length (width : Nat) (row : Row) : (fitRow width row).length = width := by
  simp only [fitRow, List.length_take, List.length_append, List.length_replicate]
  omega

theorem fitRow_eq_self {width : Nat} {row : Row} (h : row.length = width) : fitRow width row = row := by
  subst h
  simp [fitRow]

namespace Table

/-- The tables that making, naming, indexing and appending lead to. -/
inductive Built : Table → Prop where
  | withSchema (name : String) (titles : List String) (rows : List Row) (schema : Schema) :
    Built (withSchema name titles rows schema)
  | withAlias {t : Table} (alias? : Option String) : Built t → Built (t.withAlias alias?)
  | addIndex {t : Table} (column : Nat) : Built t → Built (t.addIndex column)
  | append {t other all : Table} : Built t → Built other → t.append other = .ok all → Built all

theorem addIndex_rows (t : Table) (column : Nat) : (t.addIndex column).rows = t.rows := by
  unfold addIndex
  split <;> rfl

theorem addIndex_titles (t : Table) (column : Nat) : (t.addIndex column).titles = t.titles := by
  unfold addIndex
  split <;> rfl

theorem columnCells_length (t : Table) (column : Nat) :
    (t.columnCells column).length = t.rows.length := List.length_map _

theorem columnCells_addIndex (t : Table) (added column : Nat) :
    (t.addIndex added).columnCells column = t.columnCells column := by
  unfold columnCells
  rw [addIndex_rows]

theorem columnsFor_length {other : String} {left : List (String × Nat)} {titles : List String}
    {columns : List Nat} (h : columnsFor other left titles = .ok columns) :
    columns.length = titles.length := by
  induction titles generalizing left columns with
  | nil =>
    cases h
    rfl
  | cons title titles ih =>
    unfold columnsFor at h
    split at h
    · rename_i column rest _
      cases hrest : columnsFor other rest titles with
      | error e =>
        rw [hrest] at h
        cases h
      | ok cs =>
        rw [hrest] at h
        cases h
        exact congrArg (· + 1) (ih hrest)
    · cases h

theorem append_eq_ok {t other all : Table} (h : t.append other = .ok all) :
    ∃ columns : List Nat, columns.length = t.titles.length ∧
      all = { t with
        rows := t.rows ++ other.rows.map fun row => columns.map fun c => (row[c]?).getD .null
        indexes := [] } := by
  unfold append at h
  rcases hcolumns : columnsFor other.name
    (other.titles.zipIdx.map fun e => (normalize e.1, e.2)) t.titles with e | columns
  · rw [hcolumns] at h
    cases h
  · rw [hcolumns] at h
    cases h
    exact ⟨columns, columnsFor_length hcolumns, rfl⟩

/-- Titles find themselves in order, also repeated ones. -/
theorem columnsFor_self (other : String) (titles : List String) (first : Nat) :
    columnsFor other ((titles.zipIdx first).map fun e => (normalize e.1, e.2)) titles =
      .ok (List.range' first titles.length) := by
  induction titles generalizing first with
  | nil => rfl
  | cons title titles ih =>
    simp only [List.zipIdx_cons, List.map_cons, columnsFor, takeColumn, if_true, ih (first + 1)]
    rfl

theorem map_getElem?_range' {row : Row} {width : Nat} (h : row.length = width) :
    ((List.range' 0 width).map fun c => (row[c]?).getD .null) = row := by
  apply List.ext_getElem
  · simp [h]
  · intro i hi _
    have hlt : i < row.length := by simpa [h] using hi
    simp [hlt]

/-- The rows of a table with the same titles are appended as they are. -/
theorem append_of_titles_eq {t other : Table} (htitles : other.titles = t.titles)
    (hrows : ∀ row ∈ other.rows, row.length = t.width) :
    t.append other = .ok { t with rows := t.rows ++ other.rows, indexes := [] } := by
  have hsame : (other.rows.map fun row =>
      (List.range' 0 t.titles.length).map fun c => (row[c]?).getD .null) = other.rows := by
    refine (List.map_congr_left fun row hrow => ?_).trans (List.map_id _)
    exact map_getElem?_range' (hrows row hrow)
  unfold append
  rw [htitles, columnsFor_self]
  simp only [Except.map]
  rw [hsame]

theorem Built.length_row {t : Table} (h : t.Built) : ∀ row ∈ t.rows, row.length = t.width := by
  induction h with
  | withSchema name titles rows schema =>
    intro row hrow
    obtain ⟨source, _, rfl⟩ := List.mem_map.mp hrow
    exact fitRow_length _ _
  | withAlias alias? _ ih => exact ih
  | addIndex column _ ih =>
    rw [addIndex_rows]
    unfold width
    rw [addIndex_titles]
    exact ih
  | append ht hother hall iht _ =>
    obtain ⟨columns, hcolumns, rfl⟩ := append_eq_ok hall
    intro row hrow
    rcases List.mem_append.mp hrow with hrow | hrow
    · exact iht row hrow
    · obtain ⟨source, _, rfl⟩ := List.mem_map.mp hrow
      exact (List.length_map _).trans hcolumns

/-- An index is the one that the cells of its column have. -/
theorem Built.lookup_indexes {t : Table} (h : t.Built) : ∀ {column : Nat} {index : Index},
    t.indexes.lookup column = some index → index = indexFrom 0 (t.columnCells column) := by
  induction h with
  | withSchema name titles rows schema =>
    intro column index hindex
    cases hindex
  | withAlias alias? _ ih => exact ih
  | @addIndex t added _ ih =>
    intro column index hindex
    rw [columnCells_addIndex]
    unfold Table.addIndex at hindex
    split at hindex
    · exact ih hindex
    · rename_i hnone
      rw [List.lookup_append] at hindex
      cases hold : t.indexes.lookup column with
      | some old =>
        rw [hold] at hindex
        cases hindex
        exact ih hold
      | none =>
        rw [hold] at hindex
        by_cases hsame : column = added
        · subst hsame
          rw [List.lookup_cons_self] at hindex
          cases hindex
          rfl
        · have hbeq : (column == added) = false := by simpa using hsame
          rw [List.lookup_cons, hbeq] at hindex
          cases hindex
  | append ht hother hall _ _ =>
    obtain ⟨columns, _, rfl⟩ := append_eq_ok hall
    intro column index hindex
    cases hindex

theorem rowsOf_indexFrom (id : Nat) (cells : List Cell) {text : String} :
    rowsOf (indexFrom id cells) text =
      cells.findIdxs (fun c => !c.isNull && text == c.key) id := by
  induction cells generalizing id with
  | nil => rfl
  | cons c cells ih =>
    have hindex : indexFrom id (c :: cells) =
      if c.isNull then indexFrom (id + 1) cells else (c.key, id) :: indexFrom (id + 1) cells := rfl
    rw [List.findIdxs_cons, ← ih, hindex]
    by_cases hnull : c.isNull = true
    · simp [hnull]
    · by_cases htext : c.key = text
      · simp [hnull, htext, rowsOf]
      · simp [hnull, htext, Ne.symm htext, rowsOf]

end Table

theorem matchesOf_indexFrom (cells : List Cell) (key : Cell) :
    matchesOf (Table.indexFrom 0 cells) key = cells.findIdxs key.sameText := by
  unfold matchesOf
  by_cases hnull : key.isNull = true
  · have hnone : key.sameText = fun _ => false := by
      funext c
      simp [Cell.sameText, hnull]
    rw [if_pos hnull, hnone]
    symm
    exact List.findIdxs_eq_nil_iff.mpr fun _ _ => rfl
  · have hsome : key.sameText = fun c => !c.isNull && key.key == c.key := by
      funext c
      simp [Cell.sameText, hnull]
    rw [if_neg hnull, hsome]
    exact Table.rowsOf_indexFrom 0 cells

namespace Table

def Indexed (t : Table) (column : Nat) : Prop :=
  (t.indexes.lookup column).isSome

theorem indexed_addIndex (t : Table) (column : Nat) : (t.addIndex column).Indexed column := by
  unfold Indexed addIndex
  cases hold : t.indexes.lookup column with
  | some index =>
    rw [hold]
    rfl
  | none => simp [List.lookup_append, hold]

/-- A search through an index finds the rows by their cells. -/
theorem Built.search_eq {t : Table} (h : t.Built) {column : Nat} (hindexed : t.Indexed column) (key : Cell) :
    t.search column key = (t.columnCells column).findIdxs key.sameText := by
  obtain ⟨index, hindex⟩ := Option.isSome_iff_exists.mp hindexed
  rw [← matchesOf_indexFrom, ← h.lookup_indexes hindex]
  unfold search
  rw [hindex]
  rfl

theorem Built.search_addIndex {t : Table} (h : t.Built) (column : Nat) (key : Cell) :
    (t.addIndex column).search column key = (t.columnCells column).findIdxs key.sameText := by
  rw [(h.addIndex column).search_eq (t.indexed_addIndex column), columnCells_addIndex]

end Table

end GridQuery
