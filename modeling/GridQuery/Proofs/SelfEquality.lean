import GridQuery.Proofs.ComparedCells
import GridQuery.Proofs.ComparisonPaths
import GridQuery.Proofs.NotNumbers
import GridQuery.Proofs.Wildcards

/-!
Cells that equal themselves. A cell that is not null does unless it reads as what is not a number: as that number,
or as a text that is the word for it. A column is compared with itself accordingly, by `=` and by `IN`, row by
row; `LIKE` and the index of the column go by the text of a cell, and find every cell that is not null by itself.
-/

namespace GridQuery
set_option autoImplicit false

theorem Number.equal_self_iff (x : Float) : Number.equal x x = true ↔ Number.parts x ≠ .notANumber := by
  rw [Ne, ← Number.rank?_eq_none_iff]
  unfold Number.equal Number.order?
  cases Number.rank? x <;> simp

namespace Cell

/-- What is not a number, and the texts that are the word for it, behind a sign or none. -/
def ReadsNan : Cell → Prop
  | number x => Number.parts x = .notANumber
  | text s => Text.asciiLower (Text.trim s) ∈ ["nan", "-nan", "+nan"]
  | null | boolean _ | date _ => False

theorem ofText?_notANumber_iff (s : String) :
    (∃ x, Number.ofText? s = some x ∧ Number.parts x = .notANumber) ↔
      Text.asciiLower s ∈ ["nan", "-nan", "+nan"] := by
  have hword (word : String) : Text.asciiLower s = word ↔ s.toList.map Char.toLower = word.toList := by
    rw [← String.toList_inj, Text.asciiLower, String.toList_ofList]
  unfold Number.ofText?
  rw [Number.read?_notANumber_iff]
  simp [hword, Number.nanTexts, Number.nanWord]

theorem readsNan_iff {v : Cell} :
    v.ReadsNan ↔ ∃ x, v.asNumber? = some x ∧ Number.parts x = .notANumber := by
  cases v with
  | null | boolean | date => simp [ReadsNan, asNumber?]
  | number x => simp [ReadsNan, asNumber?]
  | text s => exact (ofText?_notANumber_iff (Text.trim s)).symm

theorem numericPairing_self_order (v : Cell) :
    (numericPairing v v).order? = some .eq ↔ ¬v.ReadsNan := by
  rw [readsNan_iff]
  unfold numericPairing
  cases v.asNumber? with
  | none => simp [Pairing.order?, Std.ReflCmp.compare_self]
  | some x =>
    rw [Pairing.order?, ← beq_iff_eq (a := Number.order? x x)]
    change Number.equal x x = true ↔ _
    rw [Number.equal_self_iff]
    simp

theorem looseEq_self_iff {v : Cell} (h : v.isNull = false) : v.looseEq v = true ↔ ¬v.ReadsNan := by
  rw [looseEq_of_nonnull h h, order?_of_nonnull h h, beq_iff_eq]
  cases v with
  | date m =>
    -- a moment stands for a whole number of milliseconds
    change Number.order? (Float.ofInt m.epochMillis) (Float.ofInt m.epochMillis) = some .eq ↔ ¬False
    rw [not_false_iff, iff_true, ← beq_iff_eq]
    exact (Number.equal_self_iff _).mpr (Number.ofInt_ne _)
  | null | boolean | number | text =>
    rw [pairing_of_not_date rfl rfl]
    exact numericPairing_self_order _

theorem inList_self {v : Cell} (h : v.isNull = false) : v.inList [v] = v.looseEq v := by
  simp [inList, h]

theorem like_self {v : Cell} (h : v.isNull = false) : v.like v.key = true := by
  rw [like, h, Wildcard.covers_self]
  rfl

end Cell

namespace Rows

variable {σ : Type} {r : Rows σ}

/-- A test that reads the rows alone keeps those that it holds on. -/
theorem keep_eq_filter {t : Test} {p : Nat → Bool} (h : ∀ row, r.holds row t = pure (p row)) (rows : List Nat) :
    r.keep t rows = pure (rows.filter p) := by
  induction rows with
  | nil => rfl
  | cons row rows ih =>
    simp only [keep, h, ih, pure_bind, List.filter_cons]

/-- The rows on which a column passes a comparison with itself. -/
def alike (r : Rows σ) (op : Comparison) (column : Nat) : List Nat :=
  (List.range r.table.rows.length).filter fun row =>
    Cell.tested op (r.table.cell row column) (r.table.cell row column)

theorem mem_alike_iff {op : Comparison} {column row : Nat} (h : row < r.table.rows.length) :
    row ∈ r.alike op column ↔ Cell.tested op (r.table.cell row column) (r.table.cell row column) = true := by
  rw [alike, List.mem_filter, List.mem_range]
  exact and_iff_right h

variable {table : Option String} {name : String} {column : Nat}

theorem matching_compare {op : Comparison} {a b : Expr} {f g : Formula} (hf : r.scope.formula a = .ok f)
    (hg : r.scope.formula b = .ok g) {p : Nat → Bool}
    (h : ∀ row, r.holds row (Scope.comparison op f g) = pure (p row)) :
    r.matching (some (.compare op a b)) = pure ((List.range r.table.rows.length).filter p) := by
  simp only [matching, select, leaf, Scope.test_compare hf hg, Run.of, pure_bind]
  exact keep_eq_filter h _

theorem matching_self (h : r.table.column? (columnSpelling table name) = some column) (op : Comparison) :
    r.matching (some (.compare op (.column table name) (.column table name))) = pure (r.alike op column) := by
  refine matching_compare (formula_column h) (formula_column h) fun row => ?_
  rw [holds_single rfl]
  simp only [value, pure_bind]

theorem matching_listed (h : r.table.column? (columnSpelling table name) = some column)
    (hwritten : r.scope.written? (.list [.column table name]) = none) :
    r.matching (some (.compare .isIn (.column table name) (.list [.column table name]))) =
      pure (r.alike .isIn column) := by
  have hlist : r.scope.formula (.list [.column table name]) = .ok (.list [.slot column]) := by
    simp only [Scope.formula, hwritten]
    exact bind_eq_ok.mpr ⟨_, bind_eq_ok.mpr ⟨_, formula_column h, rfl⟩, rfl⟩
  refine matching_compare (formula_column h) hlist fun row => ?_
  rw [holds_listed (.inl rfl)]
  simp only [value, pure_bind]

end Rows

theorem Table.Built.mem_search_self {t : Table} (h : t.Built) {row column : Nat} (hrow : row < t.rows.length)
    (hcell : (t.cell row column).isNull = false) : row ∈ (t.addIndex column).search column (t.cell row column) := by
  have hcells : row < (t.columnCells column).length := by simpa [Table.columnCells] using hrow
  have hget : (t.columnCells column)[row] = t.cell row column := by
    have hfound := t.getElem?_columnCells column hrow
    rw [List.getElem?_eq_getElem hcells] at hfound
    exact Option.some.inj hfound
  rw [h.search_addIndex, List.mem_findIdxs_iff_pos_getElem hcells, hget]
  simp [Cell.sameText, hcell]

/-- A cell that is not null equals itself exactly if it does not read as what is not a number: the number, or a
text that is the word for it, behind a sign or none, but for outer blanks and case. So does a row whose cell in a
column is not null pass `x = x` and `x IN (x)` for that column `x`. It passes `x LIKE x` in any case, wildcards or
not, and the index of the column finds it by its own cell. -/
theorem equals_itself_iff {σ : Type} {r : Rows σ} {table : Option String} {name : String} {column : Nat}
    (hbuilt : r.table.Built) (hcolumn : r.table.column? (columnSpelling table name) = some column)
    (hwritten : r.scope.written? (.list [.column table name]) = none) :
    (∀ v : Cell, v.isNull = false → (v.looseEq v = true ↔ ¬v.ReadsNan)) ∧
      ∃ equal listed like : List Nat, ∀ st : σ,
        (r.matching (some (.compare .eq (.column table name) (.column table name)))).Gives st equal st ∧
        (r.matching (some (.compare .isIn (.column table name) (.list [.column table name])))).Gives st listed st ∧
        (r.matching (some (.compare .like (.column table name) (.column table name)))).Gives st like st ∧
        ∀ row < r.table.rows.length, (r.table.cell row column).isNull = false →
          (row ∈ equal ↔ ¬(r.table.cell row column).ReadsNan) ∧
          (row ∈ listed ↔ ¬(r.table.cell row column).ReadsNan) ∧ row ∈ like ∧
          row ∈ (r.table.addIndex column).search column (r.table.cell row column) := by
  refine ⟨fun v => Cell.looseEq_self_iff, r.alike .eq column, r.alike .isIn column, r.alike .like column,
    fun st => ⟨?_, ?_, ?_, fun row hrow hcell => ⟨?_, ?_, ?_, ?_⟩⟩⟩
  · rw [Rows.matching_self hcolumn]
    exact Run.gives_pure.mpr ⟨rfl, rfl⟩
  · rw [Rows.matching_listed hcolumn hwritten]
    exact Run.gives_pure.mpr ⟨rfl, rfl⟩
  · rw [Rows.matching_self hcolumn]
    exact Run.gives_pure.mpr ⟨rfl, rfl⟩
  · rw [Rows.mem_alike_iff hrow, Cell.tested_of_ne (by decide), Cell.holds, Cell.looseEq_self_iff hcell]
  · rw [Rows.mem_alike_iff hrow, Cell.tested_isIn, Cell.inList_self hcell, Cell.looseEq_self_iff hcell]
  · rw [Rows.mem_alike_iff hrow, Cell.tested_of_ne (by decide), Cell.holds, Cell.like_self hcell]
  · exact hbuilt.mem_search_self hrow hcell

/-- The letter `x` in a column of letters: `A = A` selects its row. -/
theorem equals_itself_iff_letter :
    lettersRows.table.Built ∧ lettersRows.table.column? (columnSpelling none "A") = some 0 ∧
      lettersRows.scope.written? (.list [.column none "A"]) = none ∧ ∃ equal : List Nat,
        (lettersRows.matching (some (.compare .eq (.column none "A") (.column none "A")))).Gives [] equal [] ∧
          0 ∈ equal := by
  have hbuilt : lettersRows.table.Built := .withSchema _ _ _ _
  have hcolumn : lettersRows.table.column? (columnSpelling none "A") = some 0 := by rfl
  have hwritten : lettersRows.scope.written? (.list [.column none "A"]) = none := by rfl
  obtain ⟨-, equal, listed, like, h⟩ := equals_itself_iff hbuilt hcolumn hwritten
  obtain ⟨hequal, -, -, hrows⟩ := h []
  have hreads : ¬(Cell.text "x").ReadsNan := by
    unfold Cell.ReadsNan
    decide
  exact ⟨hbuilt, hcolumn, hwritten, equal, hequal, (hrows 0 (by decide) rfl).1.mpr hreads⟩

/-- The text `nan` is not null, and it is the text of its row in an index; it does not equal itself. -/
theorem nanText_ne_itself :
    (Cell.text "nan").isNull = false ∧ (Cell.text "nan").sameText (.text "nan") = true ∧
      (Cell.text "nan").looseEq (.text "nan") = false ∧ (Cell.text "nan").inList [.text "nan"] = false := by
  have hnull : (Cell.text "nan").isNull = false := by decide
  have hreads : (Cell.text "nan").ReadsNan := by
    unfold Cell.ReadsNan
    decide
  have hne : (Cell.text "nan").looseEq (.text "nan") = false := by
    rw [← Bool.not_eq_true, Cell.looseEq_self_iff hnull]
    exact not_not_intro hreads
  exact ⟨hnull, by decide, hne, (Cell.inList_self hnull).trans hne⟩

end GridQuery
