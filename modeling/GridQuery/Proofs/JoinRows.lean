import GridQuery.Proofs.Matches

/-!
The rows of a join. Each is a row of the left table beside a row of the right one, or one of the two beside
nulls; the further rows of a full join stand behind those of a left one, and appending them leaves their
cells where they are, also where titles repeat.
-/

namespace GridQuery
set_option autoImplicit false

def joinedRows (left right : Table) (kind : JoinKind) (ms : Matches) : List Row :=
  match kind with
  | .inner => rowsByLeft left right false ms
  | .left => rowsByLeft left right true ms
  | .right => rowsByRight left right ms
  | .full => rowsByLeft left right true ms ++ unmatchedRight left right ms

def joinedTable (left right : Table) (kind : JoinKind) (ms : Matches) : Table :=
  Table.withSchema derivedName (left.titles ++ right.titles) (joinedRows left right kind ms)
    (left.schema.merge right.schema left.width)

variable {left right : Table} {ms : Matches}

/-- No kind of join fails once the matches are there. -/
theorem joined_eq_ok (left right : Table) (kind : JoinKind) (ms : Matches) :
    joined left right kind ms = .ok (joinedTable left right kind ms) := by
  cases kind with
  | inner | left | right => rfl
  | full =>
    simp only [joined]
    split
    · rename_i hnone
      have hrows : joinedRows left right .full ms = rowsByLeft left right true ms := by
        unfold joinedRows
        rw [List.isEmpty_iff.mp hnone, List.append_nil]
      unfold joinedTable
      rw [hrows]
    · rw [Table.append_of_titles_eq]
      · simp only [joinedTable, joinedRows, Table.withSchema, List.map_append]
      · rfl
      · exact (Table.Built.withSchema _ _ _ _).length_row

theorem joinedTable_width (left right : Table) (kind : JoinKind) (ms : Matches) :
    (joinedTable left right kind ms).width = left.width + right.width :=
  List.length_append

theorem joinTables_gives {σ : Type} {world : World} {runner : Runner σ} {kind : JoinKind}
    {on : Condition} {t : Table} {st st' : σ}
    (h : (joinTables world runner left right kind on).Gives st t st') :
    ∃ ms, (conditionMatches world runner left right on).Gives st ms st' ∧
      t = joinedTable left right kind ms := by
  unfold joinTables at h
  obtain ⟨ms, mid, hms, h⟩ := Run.gives_bind.mp h
  rw [joined_eq_ok] at h
  obtain ⟨ht, rfl⟩ := Run.gives_of.mp h
  exact ⟨ms, hms, (Except.ok.inj ht).symm⟩

theorem joinTables_of_matches {σ : Type} {world : World} {runner : Runner σ} {on : Condition} {st st' : σ}
    (kind : JoinKind) (h : (conditionMatches world runner left right on).Gives st ms st') :
    (joinTables world runner left right kind on).Gives st (joinedTable left right kind ms) st' :=
  Run.gives_bind.mpr ⟨ms, st', h, Run.gives_of.mpr ⟨joined_eq_ok left right kind ms, rfl⟩⟩

/-- One list for each row of the left table, of rows of the right one. -/
structure Matches.Between (left right : Table) (ms : Matches) : Prop where
  length_eq : ms.length = left.rows.length
  bounded : ∀ ids ∈ ms, ∀ r ∈ ids, r < right.rows.length

theorem Matches.Ordered.between (h : ms.Ordered left right) : ms.Between left right :=
  ⟨h.length_eq, h.bounded⟩

/-- What a row of a join is made of. -/
inductive JoinedRow (left right : Table) : Row → Prop where
  | both {l r : Row} : l ∈ left.rows → r ∈ right.rows → JoinedRow left right (l ++ r)
  | leftAlone {l : Row} : l ∈ left.rows → JoinedRow left right (l ++ nulls right)
  | rightAlone {r : Row} : r ∈ right.rows → JoinedRow left right (nulls left ++ r)

theorem nulls_length (t : Table) : (nulls t).length = t.width :=
  List.length_replicate

theorem JoinedRow.length_eq (hleft : left.Built) (hright : right.Built) {row : Row}
    (h : JoinedRow left right row) : row.length = left.width + right.width := by
  cases h with
  | both hl hr => rw [List.length_append, hleft.length_row _ hl, hright.length_row _ hr]
  | leftAlone hl => rw [List.length_append, hleft.length_row _ hl, nulls_length]
  | rightAlone hr => rw [List.length_append, hright.length_row _ hr, nulls_length]

theorem getElem?_getD_mem {rows : List Row} {id : Nat} (h : id < rows.length) :
    (rows[id]?).getD [] ∈ rows := by
  rw [List.getElem?_eq_getElem h]
  exact List.getElem_mem h

theorem joinedRow_of_mem_rowsByLeft (hms : ms.Between left right) {fill : Bool} {row : Row}
    (h : row ∈ rowsByLeft left right fill ms) : JoinedRow left right row := by
  obtain ⟨⟨l, ids⟩, hp, h⟩ := List.mem_flatMap.mp h
  obtain ⟨hl, hids⟩ := List.of_mem_zip hp
  simp only [leftRows] at h
  split at h
  · split at h
    · rw [List.mem_singleton.mp h]
      exact .leftAlone hl
    · cases h
  · obtain ⟨id, hid, rfl⟩ := List.mem_map.mp h
    exact .both hl (getElem?_getD_mem (hms.bounded ids hids id hid))

theorem lt_of_mem_leftsOf {id l : Nat} (h : l ∈ leftsOf ms id) : l < ms.length := by
  obtain ⟨m, hm, h⟩ := List.mem_flatMap.mp h
  obtain ⟨_, _, rfl⟩ := List.mem_map.mp h
  have hlt := List.snd_lt_of_mem_zipIdx hm
  omega

theorem joinedRow_of_mem_rowsByRight (hms : ms.Between left right) {row : Row}
    (h : row ∈ rowsByRight left right ms) : JoinedRow left right row := by
  obtain ⟨⟨r, id⟩, hr, h⟩ := List.mem_flatMap.mp h
  have hr := List.fst_mem_of_mem_zipIdx hr
  simp only at h
  split at h
  · rw [List.mem_singleton.mp h]
    exact .rightAlone hr
  · obtain ⟨l, hl, rfl⟩ := List.mem_map.mp h
    refine .both (getElem?_getD_mem ?_) hr
    rw [← hms.length_eq]
    exact lt_of_mem_leftsOf hl

theorem joinedRow_of_mem_unmatchedRight {row : Row} (h : row ∈ unmatchedRight left right ms) :
    JoinedRow left right row := by
  obtain ⟨r, hr, rfl⟩ := List.mem_map.mp h
  exact .rightAlone (List.fst_mem_of_mem_zipIdx (List.mem_filter.mp hr).1)

theorem joinedRow_of_mem (hms : ms.Between left right) {kind : JoinKind} {row : Row}
    (h : row ∈ joinedRows left right kind ms) : JoinedRow left right row := by
  cases kind with
  | inner | left => exact joinedRow_of_mem_rowsByLeft hms h
  | right => exact joinedRow_of_mem_rowsByRight hms h
  | full =>
    rcases List.mem_append.mp h with h | h
    · exact joinedRow_of_mem_rowsByLeft hms h
    · exact joinedRow_of_mem_unmatchedRight h

/-- Rows of the right width stand in the joined table as they are. -/
theorem joinedTable_rows {kind : JoinKind}
    (h : ∀ row ∈ joinedRows left right kind ms, row.length = left.width + right.width) :
    (joinedTable left right kind ms).rows = joinedRows left right kind ms := by
  refine (List.map_congr_left fun row hrow => ?_).trans (List.map_id _)
  apply fitRow_eq_self
  rw [h row hrow]
  exact List.length_append.symm

theorem joinedTable_rows_of_between (hleft : left.Built) (hright : right.Built)
    (hms : ms.Between left right) (kind : JoinKind) :
    (joinedTable left right kind ms).rows = joinedRows left right kind ms :=
  joinedTable_rows fun _ hrow => (joinedRow_of_mem hms hrow).length_eq hleft hright

theorem joinedRow_of_mem_joinedTable (hleft : left.Built) (hright : right.Built)
    (hms : ms.Between left right) {kind : JoinKind} {row : Row}
    (h : row ∈ (joinedTable left right kind ms).rows) : JoinedRow left right row := by
  rw [joinedTable_rows_of_between hleft hright hms] at h
  exact joinedRow_of_mem hms h

end GridQuery
