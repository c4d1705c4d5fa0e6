import Mathlib.Data.List.ProdSigma
import GridQuery.Proofs.JoinRows

/-!
Inner joins on columns. The rows of such a join are the pairs of rows on which the condition holds with
equal texts for equal cells. Cells that are equal in the language need not have one text, nor the other
way round, and where the condition can tell, the join is not what the same condition filters.
-/

namespace GridQuery
set_option autoImplicit false

/-- Both cells are there, and they are equal in the sense of the language. -/
def Cell.looselySame (a b : Cell) : Bool :=
  !a.isNull && !b.isNull && a.looseEq b

theorem Cell.sameText_comm (a b : Cell) : a.sameText b = b.sameText a := by
  unfold Cell.sameText
  rw [Bool.and_comm (!a.isNull), BEq.comm]

/-- A column of this table, unknown to the other. -/
def Table.owns (t other : Table) : Expr → Bool
  | .column table name =>
    (t.column? (columnSpelling table name)).isSome && (other.column? (columnSpelling table name)).isNone
  | _ => false

mutual

/-- Equalities between columns of one table each, combined with `AND` and `OR`. -/
def Condition.joinsColumns (left right : Table) : Condition → Bool
  | .compare .eq a b => (left.owns right a && right.owns left b) || (left.owns right b && right.owns left a)
  | .logic _ terms => termsJoinColumns left right terms
  | .compare .. | .not _ | .exists .. => false

def termsJoinColumns (left right : Table) : List Condition → Bool
  | [] => true
  | c :: cs => c.joinsColumns left right && termsJoinColumns left right cs

end

/-- The cell that a column has in a row of the left table beside one of the right table. -/
def pairCell (left right : Table) (l r : Row) : Expr → Cell
  | .column table name =>
    match left.column? (columnSpelling table name), right.column? (columnSpelling table name) with
    | some column, _ => (l[column]?).getD .null
    | none, some column => (r[column]?).getD .null
    | none, none => .null
  | _ => .null

mutual

/-- A join condition on a pair of rows, with `same` between the cells of its equalities. -/
def Condition.onPair (left right : Table) (same : Cell → Cell → Bool) (l r : Row) :
    Condition → Bool
  | .compare .eq a b => same (pairCell left right l r a) (pairCell left right l r b)
  | .logic op terms => op.combine (termsOnPair left right same l r terms)
  | .compare .. | .not _ | .exists .. => false

def termsOnPair (left right : Table) (same : Cell → Cell → Bool) (l r : Row) :
    List Condition → List Bool
  | [] => []
  | c :: cs => c.onPair left right same l r :: termsOnPair left right same l r cs

end

/-- The pairs of rows on which a condition holds, side by side, in the order of the left table. -/
def pairRows (left right : Table) (holds : Row → Row → Bool) : List Row :=
  ((left.rows ×ˢ right.rows).filter fun p => holds p.1 p.2).map fun p => p.1 ++ p.2

section Columns

variable {σ : Type} {world : World} {runner : Runner σ} {left right : Table}

theorem columnValues_slot (r : Rows σ) (column row count : Nat) :
    r.columnValues (.slot column) row count =
      pure ((List.range' row count).map fun i => r.table.cell i column) := by
  induction count generalizing row with
  | zero => rfl
  | succ count ih =>
    simp only [Rows.columnValues, Rows.value, ih, pure_bind]
    rfl

theorem column_of_slot (r : Rows σ) {e : Expr} {column : Nat}
    (h : r.scope.formula e = .ok (.slot column)) : r.column e = pure (r.table.columnCells column) := by
  have hcells : (List.range' 0 r.table.rows.length).map (fun i => r.table.cell i column) =
      r.table.columnCells column := by
    refine List.ext_getElem? fun i => ?_
    by_cases hi : i < r.table.rows.length
    · rw [Table.getElem?_columnCells column hi]
      simp [hi]
    · rw [List.getElem?_eq_none (by simpa using hi), List.getElem?_eq_none]
      rw [Table.columnCells_length]
      omega
  unfold Rows.column
  rw [h]
  simp only [Run.of, pure_bind, columnValues_slot, hcells]

theorem column_eq_pure (r : Rows σ) {table : Option String} {name : String} {column : Nat}
    (h : r.table.column? (columnSpelling table name) = some column) :
    r.column (.column table name) = pure (r.table.columnCells column) :=
  column_of_slot r (Rows.formula_column h)

/-- What the right table has for an expression of its own is a column in `r`. -/
theorem pairCell_right {l r : Row} {table : Option String} {name : String} {column : Nat}
    (hleft : left.column? (columnSpelling table name) = none)
    (hright : right.column? (columnSpelling table name) = some column) :
    pairCell left right l r (.column table name) = (r[column]?).getD .null := by
  simp only [pairCell, hleft, hright]

theorem pairCell_left {l r : Row} {table : Option String} {name : String} {column : Nat}
    (hleft : left.column? (columnSpelling table name) = some column) :
    pairCell left right l r (.column table name) = (l[column]?).getD .null := by
  simp only [pairCell, hleft]

theorem Table.owns_eq_true {t other : Table} {e : Expr} (h : t.owns other e = true) :
    ∃ table name column, e = .column table name ∧
      t.column? (columnSpelling table name) = some column ∧
      other.column? (columnSpelling table name) = none := by
  cases e with
  | column table name =>
    obtain ⟨hmine, hother⟩ := (Bool.and_eq_true _ _).mp h
    obtain ⟨column, hcolumn⟩ := Option.isSome_iff_exists.mp hmine
    exact ⟨table, name, column, rfl, hcolumn, Option.isNone_iff_eq_none.mp hother⟩
  | literal | bind | binary | unary | call | case | ite | subquery | list | star | paren => cases h

theorem Table.knows_column (t : Table) (table : Option String) (name : String) :
    t.knows (.column table name) = (t.column? (columnSpelling table name)).isSome := by
  simp [Table.knows, Expr.parts]

/-- Whichever side of an equality it stands on, the column of the left table is the outer one. -/
theorem sides_of_owns {a b : Expr} (ha : left.owns right a = true) (hb : right.owns left b = true) :
    sides left right a b = .ok (a, b) ∧ sides left right b a = .ok (a, b) := by
  obtain ⟨tableA, nameA, columnA, rfl, hleftA, hrightA⟩ := Table.owns_eq_true ha
  obtain ⟨tableB, nameB, columnB, rfl, hrightB, hleftB⟩ := Table.owns_eq_true hb
  simp [sides, Table.knows_column, hleftA, hrightA, hleftB, hrightB]

def matchesWhere (left right : Table) (holds : Row → Row → Bool) : Matches :=
  left.rows.map fun l => right.rows.findIdxs (holds l)

theorem column_keyMatches (hright : right.Built) {a b : Expr} (ha : left.owns right a = true)
    (hb : right.owns left b = true) :
    (do
      let keys ← Rows.column ⟨world, left, runner⟩ a
      keyMatches world runner right b keys) =
      pure (matchesWhere left right fun l r =>
        (pairCell left right l r a).sameText (pairCell left right l r b)) := by
  obtain ⟨tableA, nameA, columnA, rfl, hleftA, _⟩ := Table.owns_eq_true ha
  obtain ⟨tableB, nameB, columnB, rfl, hrightB, hleftB⟩ := Table.owns_eq_true hb
  have hplain : right.plainColumn? (.column tableB nameB) = some columnB := by
    simpa only [Table.plainColumn?] using hrightB
  rw [column_eq_pure _ hleftA, pure_bind]
  simp only [keyMatches, hplain, matchesWhere, pairCell_left hleftA, pairCell_right hleftB hrightB]
  congr 1
  change (left.columnCells columnA).map _ = _
  unfold Table.columnCells
  rw [List.map_map]
  refine List.map_congr_left fun l _ => ?_
  change (right.addIndex columnB).search columnB _ = _
  rw [hright.search_addIndex]
  unfold Table.columnCells
  rw [List.findIdxs_map]
  rfl

theorem equalityMatches_columns (hright : right.Built) {a b : Expr}
    (h : Condition.joinsColumns left right (.compare .eq a b) = true) :
    equalityMatches world runner left right a b =
      pure (matchesWhere left right fun l r =>
        (pairCell left right l r a).sameText (pairCell left right l r b)) := by
  unfold equalityMatches
  rcases (Bool.or_eq_true _ _).mp h with h | h
  · obtain ⟨ha, hb⟩ := (Bool.and_eq_true _ _).mp h
    rw [(sides_of_owns ha hb).1]
    exact column_keyMatches hright ha hb
  · obtain ⟨hb, ha⟩ := (Bool.and_eq_true _ _).mp h
    have hswap : (fun l r => (pairCell left right l r a).sameText (pairCell left right l r b)) =
        fun l r => (pairCell left right l r b).sameText (pairCell left right l r a) := by
      funext l r
      exact Cell.sameText_comm _ _
    rw [(sides_of_owns hb ha).2, hswap]
    exact column_keyMatches hright hb ha

theorem connectRows_findIdxs {α : Type} (op : Connective) (xs : List α) (p q : α → Bool) :
    connectRows op (xs.findIdxs p) (xs.findIdxs q) = xs.findIdxs fun x => op.both (p x) (q x) := by
  refine (connectRows_ascending List.pairwise_findIdxs List.pairwise_findIdxs).eq_of_mem_iff
    List.pairwise_findIdxs fun r => ?_
  by_cases hr : r < xs.length
  · have hmem := decide_mem_connectRows op (xs.findIdxs p) (xs.findIdxs q) r
    simp only [List.mem_findIdxs_iff_pos_getElem hr, Bool.decide_eq_true] at hmem
    rw [List.mem_findIdxs_iff_pos_getElem hr, ← hmem, decide_eq_true_iff]
  · have hnot (p : α → Bool) : r ∉ xs.findIdxs p :=
      fun hin => hr (List.lt_add_of_mem_findIdxs r hin)
    constructor
    · intro hin
      rcases mem_or_mem_of_mem_connectRows hin with hin | hin
      · exact absurd hin (hnot p)
      · exact absurd hin (hnot q)
    · intro hin
      exact absurd hin (hnot _)

theorem combineMatches_where (op : Connective) (p q : Row → Row → Bool) :
    combineMatches op (matchesWhere left right p) (matchesWhere left right q) =
      matchesWhere left right fun l r => op.both (p l r) (q l r) := by
  unfold combineMatches matchesWhere
  rw [List.zipWith_map, List.zipWith_self]
  exact List.map_congr_left fun l _ => connectRows_findIdxs op right.rows (p l) (q l)

mutual

/-- The matches of a condition on columns are worked out without running anything. -/
theorem conditionMatches_columns (hright : right.Built) : ∀ {c : Condition},
    c.joinsColumns left right = true → conditionMatches world runner left right c =
      pure (matchesWhere left right fun l r => c.onPair left right Cell.sameText l r)
  | .compare .eq a b, h => by
    simp only [conditionMatches, Condition.onPair]
    exact equalityMatches_columns hright h
  | .logic op terms, h => by
    simp only [Condition.joinsColumns] at h
    simp only [conditionMatches, termMatches_columns hright h, pure_bind, Condition.onPair]
    cases terms with
    | nil =>
      refine congrArg pure (List.map_congr_left fun l _ => ?_)
      refine (List.findIdxs_eq_nil_iff.mpr fun r _ => ?_).symm
      cases op <;> rfl
    | cons c cs => rfl
  | .compare .notEq _ _, h | .compare .lt _ _, h | .compare .ltEq _ _, h | .compare .gt _ _, h
  | .compare .gtEq _ _, h | .compare .like _ _, h | .compare .notLike _ _, h
  | .compare .isIn _ _, h | .compare .notIn _ _, h | .compare .is _ _, h | .compare .isNot _ _, h
  | .not _, h | .exists .., h => by simp [Condition.joinsColumns] at h

theorem termMatches_columns (hright : right.Built) {op : Connective} : ∀ {cs : List Condition},
    termsJoinColumns left right cs = true → termMatches world runner left right op cs =
      pure (if cs.isEmpty then none else some (matchesWhere left right fun l r =>
        op.combine (termsOnPair left right Cell.sameText l r cs)))
  | [], _ => by
    simp only [termMatches]
    rfl
  | c :: cs, h => by
    simp only [termsJoinColumns, Bool.and_eq_true] at h
    simp only [termMatches, conditionMatches_columns hright h.1, termMatches_columns hright h.2,
      pure_bind, termsOnPair]
    cases cs with
    | nil =>
      simp only [termsOnPair, Connective.combine_singleton]
      rfl
    | cons d ds =>
      have hne (l r : Row) : termsOnPair left right Cell.sameText l r (d :: ds) ≠ [] := by
        simp [termsOnPair]
      simp only [List.isEmpty_cons, Bool.false_eq_true, if_false, combineMatches_where,
        op.combine_cons _ (hne _ _)]

end

end Columns

section Rows

variable {left right : Table}

theorem map_findIdxs_getElem? {α : Type} (xs : List α) (p : α → Bool) (d : α) :
    (xs.findIdxs p).map (fun i => (xs[i]?).getD d) = xs.filter p := by
  induction xs with
  | nil => rfl
  | cons x xs ih =>
    have hrest : (xs.findIdxs p 1).map (fun i => ((x :: xs)[i]?).getD d) = xs.filter p := by
      rw [List.findIdxs_start, List.map_map, ← ih]
      rfl
    rw [List.findIdxs_cons, List.filter_cons]
    split
    · rw [List.map_cons, hrest]
      rfl
    · exact hrest

theorem leftRows_false (row : Row) (ids : List Nat) :
    leftRows right false row ids = ids.map fun id => row ++ (right.rows[id]?).getD [] := by
  unfold leftRows
  cases ids <;> rfl

theorem rowsByLeft_where (holds : Row → Row → Bool) :
    rowsByLeft left right false (matchesWhere left right holds) = pairRows left right holds := by
  have hleft (l : Row) : leftRows right false l (right.rows.findIdxs (holds l)) =
      (right.rows.filter (holds l)).map fun r => l ++ r := by
    rw [leftRows_false, ← map_findIdxs_getElem? right.rows (holds l) [], List.map_map]
    rfl
  have hzip : left.rows.zip (matchesWhere left right holds) =
      left.rows.map fun l => (l, right.rows.findIdxs (holds l)) := by
    unfold matchesWhere
    rw [List.zip_eq_zipWith, List.zipWith_map_right, List.zipWith_self]
  unfold rowsByLeft pairRows
  rw [hzip, List.flatMap_map]
  simp only [hleft, SProd.sprod, List.product, List.filter_flatMap, List.map_flatMap,
    List.filter_map, List.map_map]
  rfl

theorem mem_pairRows {holds : Row → Row → Bool} {row : Row} : row ∈ pairRows left right holds ↔
    ∃ l ∈ left.rows, ∃ r ∈ right.rows, holds l r = true ∧ l ++ r = row := by
  unfold pairRows
  simp only [List.mem_map, List.mem_filter, List.mem_product, Prod.exists]
  constructor
  · rintro ⟨l, r, ⟨⟨hl, hr⟩, hholds⟩, he⟩
    exact ⟨l, hl, r, hr, hholds, he⟩
  · rintro ⟨l, hl, r, hr, hholds, he⟩
    exact ⟨l, r, ⟨⟨hl, hr⟩, hholds⟩, he⟩

/-- A row of the join falls into its two parts in one way, so the pairs that make the rows can be read
off them. -/
theorem pairRows_eq_iff (hleft : left.Built) {p q : Row → Row → Bool} :
    pairRows left right p = pairRows left right q ↔
      ∀ l ∈ left.rows, ∀ r ∈ right.rows, p l r = q l r := by
  have through {p q : Row → Row → Bool} (h : pairRows left right p = pairRows left right q)
      {l r : Row} (hl : l ∈ left.rows) (hr : r ∈ right.rows) (hp : p l r = true) : q l r = true := by
    have hmem : l ++ r ∈ pairRows left right p := mem_pairRows.mpr ⟨l, hl, r, hr, hp, rfl⟩
    rw [h] at hmem
    obtain ⟨l', hl', r', _, hq, he⟩ := mem_pairRows.mp hmem
    have hlength : l'.length = l.length := (hleft.length_row l' hl').trans (hleft.length_row l hl).symm
    obtain ⟨rfl, rfl⟩ := List.append_inj he hlength
    exact hq
  constructor
  · intro h l hl r hr
    exact Bool.eq_iff_iff.mpr ⟨through h hl hr, through h.symm hl hr⟩
  · intro h
    unfold pairRows
    congr 1
    refine List.filter_congr fun x hx => ?_
    obtain ⟨hl, hr⟩ := List.mem_product.mp hx
    exact h x.1 hl x.2 hr

theorem joined_inner (hleft : left.Built) (hright : right.Built) (holds : Row → Row → Bool) :
    ∃ t, joined left right .inner (matchesWhere left right holds) = .ok t ∧
      t.rows = pairRows left right holds := by
  refine ⟨_, joined_eq_ok left right .inner _, ?_⟩
  have hrows : joinedRows left right .inner (matchesWhere left right holds) =
      pairRows left right holds := rowsByLeft_where holds
  rw [joinedTable_rows, hrows]
  intro row hrow
  rw [hrows] at hrow
  obtain ⟨l, hl, r, hr, _, rfl⟩ := mem_pairRows.mp hrow
  exact (JoinedRow.both hl hr).length_eq hleft hright

end Rows

/-- An inner join on columns succeeds, with the pairs of rows on which the condition holds with equal
texts for equal cells. These are the pairs on which it holds in the language exactly if the two
readings of the condition agree on every pair. -/
theorem inner_rows_eq_looselySame_iff {σ : Type} {world : World} {runner : Runner σ}
    {left right : Table} {c : Condition} (hleft : left.Built) (hright : right.Built)
    (hcolumns : c.joinsColumns left right = true) :
    ∃ t, joinTables world runner left right .inner c = pure t ∧
      t.rows = (pairRows left right fun l r => c.onPair left right Cell.sameText l r) ∧
      ((t.rows = pairRows left right fun l r => c.onPair left right Cell.looselySame l r) ↔
        ∀ l ∈ left.rows, ∀ r ∈ right.rows,
          c.onPair left right Cell.sameText l r = c.onPair left right Cell.looselySame l r) := by
  obtain ⟨t, ht, hrows⟩ := joined_inner hleft hright fun l r => c.onPair left right Cell.sameText l r
  refine ⟨t, ?_, hrows, ?_⟩
  · unfold joinTables
    rw [conditionMatches_columns hright hcolumns, pure_bind, ht]
    rfl
  · rw [hrows]
    exact pairRows_eq_iff hleft

/-- Letters have one text each. -/
theorem inner_rows_eq_looselySame_letters :
    let left := Table.derived "T" ["A"] [[.text "x"], [.text "y"], [.null]]
    let right := Table.derived "U" ["B"] [[.text "y"], [.null]]
    let on : Condition := .compare .eq (.column none "A") (.column none "B")
    left.Built ∧ right.Built ∧ on.joinsColumns left right = true ∧
    ∃ t, joinTables emptyWorld (runnerAt remembered emptyWorld 0) left right .inner on = pure t ∧
      t.rows = (pairRows left right fun l r => on.onPair left right Cell.looselySame l r) ∧
      t.rows = [[.text "y", .text "y"]] := by
  intro left right on
  have hleft : left.Built := .withSchema _ _ _ _
  have hright : right.Built := .withSchema _ _ _ _
  have hcolumns : on.joinsColumns left right = true := by decide +kernel
  obtain ⟨t, ht, hrows, hiff⟩ := inner_rows_eq_looselySame_iff hleft hright hcolumns
  refine ⟨hleft, hright, hcolumns, t, ht, hiff.mpr (by decide +kernel), ?_⟩
  rw [hrows]
  decide +kernel

/-- A number and a text that spells it in another way are equal and not joined. -/
theorem inner_rows_ne_looselySame_numeral :
    let left := Table.derived "T" ["A"] [[.text "1.0"]]
    let right := Table.derived "U" ["B"] [[.number 1]]
    let on : Condition := .compare .eq (.column none "A") (.column none "B")
    on.joinsColumns left right = true ∧
    ((joinTables emptyWorld (runnerAt remembered emptyWorld 0) left right .inner on).run []).1.map
      Table.rows = .ok [] ∧
    (pairRows left right fun l r => on.onPair left right Cell.looselySame l r) =
      [[.text "1.0", .number 1]] := by
  intro left right on
  exact ⟨by decide +kernel, by decide +kernel, by decide +kernel⟩

end GridQuery
