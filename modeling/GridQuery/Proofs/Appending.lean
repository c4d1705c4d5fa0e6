import GridQuery.Proofs.Tables

/-!
Appending by titles. The columns of the other table wait in queues, one for each normalized title, and each
title in turn takes the first column of its queue. So the `k`-th column of a title takes the `k`-th column
of that title over there, no column is taken twice, and a queue runs out exactly if its title is more
frequent here than there. All columns are known before the first row is put down, so that a table to which
nothing can be appended is as it was.
-/

namespace GridQuery
set_option autoImplicit false

namespace Table

/-- The normalized titles. -/
def names (t : Table) : List String :=
  t.titles.map normalize

/-- Appends in place, row after row. An error leaves the table as it is at that moment. -/
def extend (other : Table) : ExceptT QueryError (StateM Table) Unit := do
  let columns ← ExceptT.mk fun t => (columnsFor other.name (other.names.zipIdx) t.titles, t)
  other.rows.forM fun row =>
    modify fun t => { t with rows := t.rows ++ [columns.map fun c => (row[c]?).getD .null] }
  modify fun t => { t with indexes := [] }

theorem append_eq (t other : Table) : t.append other =
    (columnsFor other.name other.names.zipIdx t.titles).map fun columns =>
      { t with
        rows := t.rows ++ other.rows.map fun row => columns.map fun c => (row[c]?).getD .null
        indexes := [] } := by
  rw [append, names, List.zipIdx_map]
  rfl

theorem run_put_rows {α : Type} (cells : α → Row) (rows : List α) (t : Table) :
    (rows.forM fun row => modify fun t => { t with rows := t.rows ++ [cells row] } :
      ExceptT QueryError (StateM Table) Unit).run t =
      (.ok (), { t with rows := t.rows ++ rows.map cells }) := by
  induction rows generalizing t with
  | nil =>
    rw [List.map_nil, List.append_nil]
    rfl
  | cons row rows ih =>
    have hfirst := ih { t with rows := t.rows ++ [cells row] }
    rw [List.map_cons, List.append_cons, ← hfirst]
    rfl

theorem run_extend_error {t other : Table} {e : QueryError}
    (h : columnsFor other.name other.names.zipIdx t.titles = .error e) : (extend other).run t = (.error e, t) := by
  unfold extend
  simp only [ExceptT.run, bind, ExceptT.bind, ExceptT.mk, StateT.bind, h]
  rfl

theorem run_extend_ok {t other : Table} {columns : List Nat}
    (h : columnsFor other.name other.names.zipIdx t.titles = .ok columns) : (extend other).run t =
      (.ok (), { t with
        rows := t.rows ++ other.rows.map fun row => columns.map fun c => (row[c]?).getD .null
        indexes := [] }) := by
  have hrows := run_put_rows (fun row => columns.map fun c => (row[c]?).getD .null) other.rows t
  simp only [ExceptT.run] at hrows
  unfold extend
  simp only [ExceptT.run, bind, ExceptT.bind, ExceptT.mk, StateT.bind, h, ExceptT.bindCont, hrows]
  rfl

/-- Appending in place gives what `append` gives, and where that is an error, the table itself. -/
theorem run_extend (t other : Table) : (extend other).run t =
    match t.append other with
    | .ok all => (.ok (), all)
    | .error e => (.error e, t) := by
  rw [append_eq]
  cases hcolumns : columnsFor other.name other.names.zipIdx t.titles with
  | error e => exact run_extend_error hcolumns
  | ok columns => exact run_extend_ok hcolumns

-- The queue of a title among columns that are left is what `rowsOf` reads under it.

/-- A title takes the first column of its queue and leaves the other queues as they are. -/
theorem rowsOf_of_takeColumn {name : String} {left rest : List (String × Nat)} {column : Nat}
    (h : takeColumn name left = some (column, rest)) (other : String) :
    rowsOf left other = if name = other then column :: rowsOf rest other else rowsOf rest other := by
  induction left generalizing rest with
  | nil => cases h
  | cons e left ih =>
    unfold takeColumn at h
    split at h
    · rename_i hname
      cases h
      by_cases hother : name = other
      · simp [rowsOf, hname, hother]
      · simp [rowsOf, hname, hother]
    · rename_i hname
      obtain ⟨⟨_, _⟩, hlater, hpair⟩ := Option.map_eq_some_iff.mp h
      cases hpair
      have hrest := ih hlater
      by_cases hother : name = other
      · subst hother
        simpa [rowsOf, hname] using hrest
      · by_cases he : e.1 = other
        · simpa [rowsOf, he, hother] using hrest
        · simpa [rowsOf, he, hother] using hrest

theorem rowsOf_of_takeColumn_none {name : String} {left : List (String × Nat)}
    (h : takeColumn name left = none) : rowsOf left name = [] := by
  induction left with
  | nil => rfl
  | cons e left ih =>
    unfold takeColumn at h
    split at h
    · cases h
    · rename_i hname
      simpa [rowsOf, hname] using ih (Option.map_eq_none_iff.mp h)

/-- The columns that the titles of one name get are the first ones of its queue. -/
theorem columnsFor_eq_ok {other : String} {left : List (String × Nat)} {titles : List String}
    {columns : List Nat} (h : columnsFor other left titles = .ok columns) (name : String) :
    rowsOf ((titles.map normalize).zip columns) name =
        (rowsOf left name).take ((titles.map normalize).count name) ∧
      (titles.map normalize).count name ≤ (rowsOf left name).length := by
  induction titles generalizing left columns with
  | nil =>
    cases h
    simp [rowsOf]
  | cons title titles ih =>
    unfold columnsFor at h
    split at h
    · rename_i column rest htake
      obtain ⟨others, hothers, rfl⟩ : ∃ others, columnsFor other rest titles = .ok others ∧
          column :: others = columns := by
        cases hrest : columnsFor other rest titles with
        | error e =>
          rw [hrest] at h
          cases h
        | ok others =>
          rw [hrest] at h
          exact ⟨others, rfl, Except.ok.inj h⟩
      obtain ⟨hcolumns, hcount⟩ := ih hothers
      rw [rowsOf_of_takeColumn htake name]
      by_cases hname : normalize title = name
      · rw [if_pos hname, List.map_cons, hname, List.count_cons_self, List.take_succ_cons, ← hcolumns]
        exact ⟨by simp [rowsOf], by simpa using hcount⟩
      · rw [if_neg hname, List.map_cons, List.count_cons_of_ne hname, ← hcolumns]
        exact ⟨by simp [rowsOf, hname], hcount⟩
    · cases h

/-- An error is about the first title that finds its queue empty. -/
theorem columnsFor_eq_error {other : String} {left : List (String × Nat)} {titles : List String}
    {e : QueryError} (h : columnsFor other left titles = .error e) :
    ∃ before title after, titles = before ++ title :: after ∧ e = .missingAppendColumn other title ∧
      (rowsOf left (normalize title)).length = (before.map normalize).count (normalize title) ∧
      ∀ name, (before.map normalize).count name ≤ (rowsOf left name).length := by
  induction titles generalizing left with
  | nil => cases h
  | cons title titles ih =>
    unfold columnsFor at h
    split at h
    · rename_i column rest htake
      have hrest : columnsFor other rest titles = .error e := by
        cases hrest : columnsFor other rest titles with
        | error e' =>
          rw [hrest] at h
          exact h
        | ok others =>
          rw [hrest] at h
          cases h
      obtain ⟨before, missing, after, rfl, rfl, hempty, hbefore⟩ := ih hrest
      refine ⟨title :: before, missing, after, rfl, rfl, ?_, fun name => ?_⟩
      · rw [rowsOf_of_takeColumn htake]
        by_cases hname : normalize title = normalize missing
        · simp [hname, hempty]
        · simp [hname, hempty, List.count_cons_of_ne]
      · have hqueue := hbefore name
        rw [rowsOf_of_takeColumn htake]
        by_cases hname : normalize title = name
        · simpa [hname] using hqueue
        · simpa [hname, List.count_cons_of_ne] using hqueue
    · rename_i htake
      cases h
      exact ⟨[], title, titles, rfl, rfl, by rw [rowsOf_of_takeColumn_none htake]; rfl, by simp⟩

/-- What stands beside the occurrences of a name, in turn. -/
theorem getElem?_rowsOf_zip {names : List String} {columns : List Nat} (hlength : columns.length = names.length)
    {name : String} {k : Nat} (hk : k < names.count name) :
    (rowsOf (names.zip columns) name)[k]? = columns[names.idxOfNth name k]? := by
  induction names generalizing columns k with
  | nil => cases hk
  | cons first names ih =>
    obtain ⟨column, columns, rfl⟩ := List.exists_cons_of_length_eq_add_one hlength
    have hrest : columns.length = names.length := Nat.succ.inj hlength
    by_cases hname : first = name
    · subst hname
      cases k with
      | zero => simp [rowsOf]
      | succ k =>
        rw [List.count_cons_self] at hk
        simpa [rowsOf] using ih hrest (Nat.lt_of_succ_lt_succ hk)
    · rw [List.count_cons_of_ne hname] at hk
      have hskip := ih hrest hk
      rw [List.idxOfNth_cons_of_not_beq (by simpa using hname)]
      simpa [rowsOf, hname] using hskip

theorem rowsOf_zipIdx (names : List String) (name : String) : rowsOf names.zipIdx name = names.idxsOf name := by
  rw [List.idxsOf_eq_filterMap_zipIdx, rowsOf]
  congr 1
  funext e
  by_cases he : e.1 = name
  · simp [he]
  · have hbeq : (e.1 == name) = false := by simpa using he
    rw [if_neg he, hbeq]
    rfl

/-- Where columns are found, the `k`-th column of a title takes the `k`-th one of that title. -/
theorem getElem?_columnsFor {other : String} {names titles : List String} {columns : List Nat}
    (h : columnsFor other names.zipIdx titles = .ok columns) {name : String} {k : Nat}
    (hk : k < (titles.map normalize).count name) :
    k < names.count name ∧
      columns[(titles.map normalize).idxOfNth name k]? = some (names.idxOfNth name k) := by
  obtain ⟨hqueue, hcount⟩ := columnsFor_eq_ok h name
  rw [rowsOf_zipIdx] at hqueue hcount
  rw [List.length_idxsOf] at hcount
  have hlt : k < names.count name := Nat.lt_of_lt_of_le hk hcount
  refine ⟨hlt, ?_⟩
  rw [← getElem?_rowsOf_zip (by rw [columnsFor_length h, List.length_map]) hk, hqueue,
    List.getElem?_take_of_lt hk, List.getElem?_eq_getElem (by rwa [List.length_idxsOf]),
    List.getElem_idxOf_eq_idxOfNth]

/-- Every place is one occurrence of its title, and the column taken for it is that occurrence over there. -/
theorem columnsFor_place {other : String} {names titles : List String} {columns : List Nat}
    (h : columnsFor other names.zipIdx titles = .ok columns) {i : Nat} (hi : i < columns.length) :
    ∃ name k, (titles.map normalize).idxOfNth name k = i ∧ k < names.count name ∧
      columns[i] = names.idxOfNth name k := by
  have hplace : i < (titles.map normalize).length := by
    rwa [List.length_map, ← columnsFor_length h]
  have hk : (titles.map normalize).countBefore (titles.map normalize)[i] i <
      (titles.map normalize).count (titles.map normalize)[i] :=
    List.countBefore_lt_count_of_lt_length_of_beq (beq_self_eq_true _)
  obtain ⟨hlt, hcolumn⟩ := getElem?_columnsFor h hk
  rw [List.idxOfNth_countBefore_getElem, List.getElem?_eq_getElem hi] at hcolumn
  exact ⟨_, _, List.idxOfNth_countBefore_getElem, hlt, Option.some.inj hcolumn⟩

/-- No column is taken twice: the column tells the title and its occurrence. -/
theorem columnsFor_nodup {other : String} {names titles : List String} {columns : List Nat}
    (h : columnsFor other names.zipIdx titles = .ok columns) : columns.Nodup := by
  rw [List.nodup_iff_pairwise_ne, List.pairwise_iff_getElem]
  intro i j hi hj hij hsame
  obtain ⟨name, k, hki, hk, hcolumn⟩ := columnsFor_place h hi
  obtain ⟨name', k', hkj, hk', hcolumn'⟩ := columnsFor_place h hj
  have htake : names.idxOfNth name k = names.idxOfNth name' k' := hcolumn.symm.trans (hsame.trans hcolumn')
  have hname : name = name' := by
    rw [← List.getElem_idxOfNth_eq (h := List.idxOfNth_lt_length_of_lt_count hk),
      ← List.getElem_idxOfNth_eq (h := List.idxOfNth_lt_length_of_lt_count hk')]
    simp only [htake]
  subst hname
  have hkk : k = k' := (List.idxOfNth_eq_idxOfNth_iff_of_left_lt_count hk).mp htake
  rw [← hki, ← hkj, hkk] at hij
  exact absurd hij (Nat.lt_irrefl _)

/-- Columns are found exactly if no title is more frequent here than there. -/
theorem columnsFor_error_iff {other : String} {names titles : List String} :
    (∃ e, columnsFor other names.zipIdx titles = .error e) ↔
      ∃ name, names.count name < (titles.map normalize).count name := by
  constructor
  · rintro ⟨e, h⟩
    obtain ⟨before, title, after, rfl, -, hempty, -⟩ := columnsFor_eq_error h
    rw [rowsOf_zipIdx, List.length_idxsOf] at hempty
    refine ⟨normalize title, ?_⟩
    rw [List.map_append, List.map_cons, List.count_append, List.count_cons_self]
    omega
  · rintro ⟨name, hname⟩
    cases hcolumns : columnsFor other names.zipIdx titles with
    | error e => exact ⟨e, rfl⟩
    | ok columns =>
      obtain ⟨-, hcount⟩ := columnsFor_eq_ok hcolumns name
      rw [rowsOf_zipIdx, List.length_idxsOf] at hcount
      exact absurd hname (Nat.not_lt.mpr hcount)

end Table

open Table

/-- Appending in place fails exactly if some normalized title is more frequent in the table than in the other
one, the error is about the first title without a column left, and the table is as it was. Otherwise each row
of the other table is put behind the rows, in order: under the `k`-th occurrence of a title it has the cell that
the row has under the `k`-th occurrence of that title, and no column is taken twice. If both have the same titles,
the rows of the other table are appended as they are. -/
theorem extend_by_titles (t other : Table) :
    ((∃ e, ((extend other).run t).1 = .error e) ↔ ∃ name, other.names.count name < t.names.count name) ∧
    (∀ e last, (extend other).run t = (.error e, last) → last = t ∧
      ∃ before title after, t.titles = before ++ title :: after ∧ e = .missingAppendColumn other.name title ∧
        other.names.count (normalize title) = (before.map normalize).count (normalize title) ∧
        ∀ name, (before.map normalize).count name ≤ other.names.count name) ∧
    (∀ last, (extend other).run t = (.ok (), last) →
      ∃ columns : List Nat, columns.length = t.width ∧ columns.Nodup ∧
        (∀ name k, k < t.names.count name → k < other.names.count name ∧
          columns[t.names.idxOfNth name k]? = some (other.names.idxOfNth name k)) ∧
        last = { t with
          rows := t.rows ++ other.rows.map fun row => columns.map fun c => (row[c]?).getD .null
          indexes := [] }) ∧
    (other.Built → other.titles = t.titles →
      (extend other).run t = (.ok (), { t with rows := t.rows ++ other.rows, indexes := [] })) := by
  refine ⟨?_, fun e last h => ?_, fun last h => ?_, fun hbuilt htitles => ?_⟩
  · refine Iff.trans ?_ (@columnsFor_error_iff other.name other.names t.titles)
    cases hcolumns : columnsFor other.name other.names.zipIdx t.titles with
    | error e => simp [run_extend_error hcolumns]
    | ok columns => simp [run_extend_ok hcolumns]
  · cases hcolumns : columnsFor other.name other.names.zipIdx t.titles with
    | ok columns =>
      rw [run_extend_ok hcolumns] at h
      cases h
    | error e' =>
      rw [run_extend_error hcolumns] at h
      cases h
      obtain ⟨before, title, after, htitles, herror, hempty, hbefore⟩ := columnsFor_eq_error hcolumns
      simp only [rowsOf_zipIdx, List.length_idxsOf] at hempty hbefore
      exact ⟨rfl, before, title, after, htitles, herror, hempty, hbefore⟩
  · cases hcolumns : columnsFor other.name other.names.zipIdx t.titles with
    | error e =>
      rw [run_extend_error hcolumns] at h
      cases h
    | ok columns =>
      rw [run_extend_ok hcolumns] at h
      cases h
      exact ⟨columns, columnsFor_length hcolumns, columnsFor_nodup hcolumns,
        fun name k hk => getElem?_columnsFor hcolumns hk, rfl⟩
  · rw [run_extend, append_of_titles_eq htitles fun row hrow => ?_]
    rw [hbuilt.length_row row hrow, width, width, htitles]

/-- Titles in another order and in other letters: the second `A` takes the second `A`. A copy of the table itself
has the same titles. -/
theorem extend_by_titles_secondTitle :
    let t : Table := .derived "T" ["A", "B", "a"] [[.number 1, .number 2, .number 3]]
    let other : Table := .derived "U" ["b", "A ", "A"] [[.number 20, .number 10, .number 30]]
    (∃ last, (extend other).run t = (.ok (), last) ∧ (∃ columns : List Nat, columns.Nodup ∧ columns[2]? = some 2 ∧
      last.rows = t.rows ++ other.rows.map fun row => columns.map fun c => (row[c]?).getD .null) ∧
      last.rows = [[.number 1, .number 2, .number 3], [.number 10, .number 20, .number 30]]) ∧
    t.Built ∧ (extend t).run t = (.ok (), { t with rows := t.rows ++ t.rows, indexes := [] }) := by
  intro t other
  have hbuilt : t.Built := .withSchema _ _ _ _
  have hrun : (extend other).run t = (.ok (), { t with
      rows := [[.number 1, .number 2, .number 3], [.number 10, .number 20, .number 30]] }) := by rfl
  obtain ⟨-, -, hok, -⟩ := extend_by_titles t other
  obtain ⟨-, -, -, hsame⟩ := extend_by_titles t t
  obtain ⟨columns, -, hnodup, hcolumns, hlast⟩ := hok _ hrun
  obtain ⟨-, hsecond⟩ := hcolumns "A" 1 (by decide)
  exact ⟨⟨_, hrun, ⟨columns, hnodup, hsecond, congrArg Table.rows hlast⟩, rfl⟩, hbuilt, hsame hbuilt rfl⟩

end GridQuery
