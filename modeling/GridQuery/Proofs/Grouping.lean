import GridQuery.Proofs.Distinct
import GridQuery.Proofs.Opened

/-!
Groups as lists of row numbers. Grouping sorts and cuts the rows of cells that a statement makes; the same on
the numbers of the rows it opens says which of them are in a group, whatever other cells are made of them. A
statement with keys then shows, for each group, what its fields read on the first row or fold over all.
-/

namespace GridQuery
set_option autoImplicit false

section Numbered

variable {keys : List Nat} {row row' : Nat → Row}

/-- Cuts row numbers into runs as their rows are cut. -/
def numberedRuns (keys : List Nat) (row : Nat → Row) (ids : List Nat) : List (List Nat) :=
  match ids with
  | [] => []
  | i :: rest =>
    (i :: rest.takeWhile fun j => compareKeys (row i) (row j) keys = .eq) ::
      numberedRuns keys row (rest.dropWhile fun j => compareKeys (row i) (row j) keys = .eq)
termination_by ids.length
decreasing_by
  have := (List.dropWhile_suffix (fun j => decide (compareKeys (row i) (row j) keys = .eq))
    (l := rest)).length_le
  simp only [List.length_cons]
  omega

/-- The groups of row numbers by the key cells of their rows. -/
def rowGroups (keys : List Nat) (row : Nat → Row) (ids : List Nat) : List (List Nat) :=
  numberedRuns keys row (ids.mergeSort fun i j => compareKeys (row i) (row j) keys != .gt)

theorem map_numberedRuns (ids : List Nat) :
    (numberedRuns keys row ids).map (List.map row) = runs keys (ids.map row) := by
  induction ids using numberedRuns.induct keys row with
  | case1 => rw [numberedRuns, List.map_nil, List.map_nil, runs]
  | case2 i rest ih =>
    rw [numberedRuns, List.map_cons, List.map_cons, ih, List.map_cons, runs, List.takeWhile_map,
      List.dropWhile_map]
    rfl

/-- The rows of the groups are what grouping makes of the rows. -/
theorem map_rowGroups (ids : List Nat) :
    (rowGroups keys row ids).map (List.map row) = runs keys (sortByKeys keys (ids.map row)) := by
  unfold rowGroups sortByKeys
  rw [map_numberedRuns]
  congr 1
  exact List.map_mergeSort fun _ _ _ _ => rfl

theorem numberedRuns_flatten (ids : List Nat) : (numberedRuns keys row ids).flatten = ids := by
  induction ids using numberedRuns.induct keys row with
  | case1 => rw [numberedRuns, List.flatten_nil]
  | case2 i rest ih =>
    rw [numberedRuns, List.flatten_cons, ih, List.cons_append, List.takeWhile_append_dropWhile]

/-- Every row is in one group, once. -/
theorem rowGroups_perm (keys : List Nat) (row : Nat → Row) (ids : List Nat) :
    (rowGroups keys row ids).flatten.Perm ids := by
  unfold rowGroups
  rw [numberedRuns_flatten]
  exact List.mergeSort_perm ids _

theorem ne_nil_of_mem_rowGroups {ids group : List Nat} (h : group ∈ rowGroups keys row ids) :
    group ≠ [] := by
  unfold rowGroups at h
  generalize ids.mergeSort (fun i j => compareKeys (row i) (row j) keys != .gt) = sorted at h
  induction sorted using numberedRuns.induct keys row with
  | case1 =>
    rw [numberedRuns] at h
    cases h
  | case2 i rest ih =>
    rw [numberedRuns] at h
    rcases List.mem_cons.mp h with rfl | h
    · exact List.cons_ne_nil _ _
    · exact ih h

theorem mem_of_mem_rowGroups {ids group : List Nat} (h : group ∈ rowGroups keys row ids) {i : Nat}
    (hi : i ∈ group) : i ∈ ids :=
  (rowGroups_perm keys row ids).mem_iff.mp (List.mem_flatten.mpr ⟨group, h, hi⟩)

theorem compareKeys_of_sameCells {a a' b b' : Row} (ha : ∀ k ∈ keys, a[k]? = a'[k]?)
    (hb : ∀ k ∈ keys, b[k]? = b'[k]?) : compareKeys a b keys = compareKeys a' b' keys := by
  induction keys with
  | nil => rfl
  | cons k keys ih =>
    obtain ⟨hak, ha⟩ := List.forall_mem_cons.mp ha
    obtain ⟨hbk, hb⟩ := List.forall_mem_cons.mp hb
    rw [compareKeys, compareKeys, ih ha hb, compareSlot, compareSlot, hak, hbk]

/-- A stretch and what is behind it depend on what is said of the items of the list. -/
theorem while_congr {α : Type} {p q : α → Bool} {items : List α} (h : ∀ i ∈ items, p i = q i) :
    items.takeWhile p = items.takeWhile q ∧ items.dropWhile p = items.dropWhile q := by
  induction items with
  | nil => exact ⟨rfl, rfl⟩
  | cons i items ih =>
    obtain ⟨hi, hrest⟩ := List.forall_mem_cons.mp h
    obtain ⟨htake, hdrop⟩ := ih hrest
    simp only [List.takeWhile_cons, List.dropWhile_cons, hi, htake, hdrop, and_self]

/-- Rows that compare by some keys as others do by theirs make the same runs. -/
theorem runs_map {f : Row → Row} {others : List Nat} {rows : List Row}
    (h : ∀ a ∈ rows, ∀ b ∈ rows, compareKeys (f a) (f b) others = compareKeys a b keys) :
    runs others (rows.map f) = (runs keys rows).map (List.map f) := by
  induction rows using runs.induct keys with
  | case1 => rw [List.map_nil, runs, runs, List.map_nil]
  | case2 row rest ih =>
    have hrow : ∀ r ∈ rest, decide (compareKeys (f row) (f r) others = .eq) =
        decide (compareKeys row r keys = .eq) := by
      intro r hr
      rw [h row List.mem_cons_self r (List.mem_cons_of_mem row hr)]
    obtain ⟨htake, hdrop⟩ := while_congr hrow
    have hbehind := (List.dropWhile_suffix
      (fun r => decide (compareKeys row r keys = .eq)) (l := rest)).subset
    have hrest := ih fun a ha b hb =>
      h a (List.mem_cons_of_mem row (hbehind ha)) b (List.mem_cons_of_mem row (hbehind hb))
    rw [List.map_cons, runs, runs, List.map_cons, List.map_cons, ← hrest, List.takeWhile_map, List.dropWhile_map]
    simp only [Function.comp_def]
    rw [htake, hdrop]

/-- Rows that compare and are compressed as others are make the same groups. -/
theorem groupBy_map {f : Row → Row} {others : List Nat} {fields fields' : Fields} {rows : List Row}
    (hkeys : ∀ a ∈ rows, ∀ b ∈ rows, compareKeys (f a) (f b) others = compareKeys a b keys)
    (hcompress : ∀ run, run ≠ [] → run ⊆ rows → compress fields' (run.map f) = f (compress fields run)) :
    groupBy fields' others (rows.map f) = (groupBy fields keys rows).map f := by
  have hsort : sortByKeys others (rows.map f) = (sortByKeys keys rows).map f :=
    (List.map_mergeSort fun a ha b hb => by rw [hkeys a ha b hb]).symm
  have hin {row : Row} (hrow : row ∈ sortByKeys keys rows) : row ∈ rows := List.mem_mergeSort.mp hrow
  unfold groupBy
  rw [hsort, runs_map fun a ha b hb => hkeys a (hin ha) b (hin hb), List.map_map, List.map_map]
  refine List.map_congr_left fun run hrun => ?_
  obtain ⟨row, rest, rfl, _⟩ := runs_eq_cons hrun
  exact hcompress _ (List.cons_ne_nil row rest) fun r hr => hin (mem_of_mem_runs hrun hr)

theorem numberedRuns_congr {ids : List Nat}
    (h : ∀ i ∈ ids, ∀ k ∈ keys, (row i)[k]? = (row' i)[k]?) :
    numberedRuns keys row ids = numberedRuns keys row' ids := by
  induction ids using numberedRuns.induct keys row with
  | case1 => rw [numberedRuns, numberedRuns]
  | case2 i rest ih =>
    obtain ⟨hi, hrest⟩ := List.forall_mem_cons.mp h
    have hsame : ∀ j ∈ rest, decide (compareKeys (row i) (row j) keys = .eq) =
        decide (compareKeys (row' i) (row' j) keys = .eq) := by
      intro j hj
      rw [compareKeys_of_sameCells hi (hrest j hj)]
    obtain ⟨htake, hdrop⟩ := while_congr hsame
    have hbehind := (List.dropWhile_suffix
      (fun j => decide (compareKeys (row i) (row j) keys = .eq)) (l := rest)).subset
    rw [numberedRuns, numberedRuns, ih fun j hj => hrest j (hbehind hj), htake, hdrop]

/-- Groups depend on the key cells alone. -/
theorem rowGroups_congr {ids : List Nat} (h : ∀ i ∈ ids, ∀ k ∈ keys, (row i)[k]? = (row' i)[k]?) :
    rowGroups keys row ids = rowGroups keys row' ids := by
  have hsort : (ids.mergeSort fun i j => compareKeys (row i) (row j) keys != .gt) =
      ids.mergeSort fun i j => compareKeys (row' i) (row' j) keys != .gt := by
    have hmap := List.map_mergeSort (r := fun i j => compareKeys (row i) (row j) keys != .gt)
      (s := fun i j => compareKeys (row' i) (row' j) keys != .gt) (f := id) (l := ids) (by
        intro i hi j hj
        rw [id, id, compareKeys_of_sameCells (h i hi) (h j hj)])
    rwa [List.map_id, List.map_id] at hmap
  unfold rowGroups
  rw [hsort]
  apply numberedRuns_congr
  intro i hi
  exact h i (List.mem_mergeSort.mp hi)

end Numbered

section Shown

variable {fields pointed : Fields} {cell : FieldKind → Nat → Cell}

/-- What a field shows for a group: an aggregate its fold over the rows of the group, any other field what
it reads on the first of them. -/
def groupCell (cell : FieldKind → Nat → Cell) (group : List Nat) (f : Field) : Cell :=
  match f.aggregate with
  | some a => a.fold (group.map (cell f.kind))
  | none => cell f.kind (group.headD 0)

theorem getElem?_fieldsRow (i slot : Nat) :
    (fieldsRow fields cell i)[slot]? = fields[slot]?.map fun f => cell f.kind i :=
  List.getElem?_map

theorem slotCells_fieldsRow {slot : Nat} {f : Field} (hf : fields[slot]? = some f) (group : List Nat) :
    slotCells (group.map (fieldsRow fields cell)) slot = group.map (cell f.kind) := by
  unfold slotCells
  rw [List.filterMap_map, ← List.filterMap_eq_map]
  congr 1
  funext i
  simp only [Function.comp_apply, getElem?_fieldsRow, hf, Option.map_some]

/-- A group becomes the row of what its fields show for it. -/
theorem compress_fieldsRow (h : pointed.map Field.unpointed = fields.map Field.unpointed)
    {group : List Nat} (hgroup : group ≠ []) :
    compress pointed (group.map (fieldsRow fields cell)) = fields.map (groupCell cell group) := by
  obtain ⟨i, rest, rfl⟩ := List.exists_cons_of_ne_nil hgroup
  have haggregates : pointed.map Field.aggregate = fields.map Field.aggregate :=
    map_eq_of_unpointed h fun _ => rfl
  apply List.ext_getElem?
  intro slot
  rw [List.map_cons, getElem?_compress, List.getElem?_map, getElem?_fieldsRow]
  cases hf : fields[slot]? with
  | none => rfl
  | some f =>
    have haggregate : (pointed[slot]?).bind Field.aggregate = f.aggregate := by
      have hslot := congrArg (fun as => as[slot]?) haggregates
      simp only [List.getElem?_map, hf, Option.map_some] at hslot
      obtain ⟨g, hg, hsame⟩ := Option.map_eq_some_iff.mp hslot
      rw [hg, Option.bind_some, hsame]
    have hcells : slotCells (fieldsRow fields cell i :: rest.map (fieldsRow fields cell)) slot =
        (i :: rest).map (cell f.kind) := slotCells_fieldsRow hf (i :: rest)
    rw [Option.map_some, Option.map_some, Option.map_some]
    unfold foldedCell groupCell
    rw [haggregate]
    cases ha : f.aggregate with
    | none => rfl
    | some a => exact congrArg (fun cells => some (a.fold cells)) hcells

/-- Grouping makes of the rows of fields what the fields show for each group. -/
theorem groupBy_fieldsRow (h : pointed.map Field.unpointed = fields.map Field.unpointed) (keys : List Nat)
    (ids : List Nat) : groupBy pointed keys (ids.map (fieldsRow fields cell)) =
      (rowGroups keys (fieldsRow fields cell) ids).map fun group => fields.map (groupCell cell group) := by
  rw [groupBy, ← map_rowGroups, List.map_map]
  apply List.map_congr_left
  intro group hgroup
  exact compress_fieldsRow h (ne_nil_of_mem_rowGroups hgroup)

/-- Rows as a statement shows them, with `DISTINCT` the first of those with the same text alone. -/
def shownOnce (distinct : Bool) (rows : List Row) : List Row :=
  if distinct then keepFirst Row.signature [] rows else rows

theorem keepFirst_congr {α : Type} {text text' : α → String} {items : List α}
    (h : ∀ a ∈ items, text a = text' a) (seen : List String) :
    keepFirst text seen items = keepFirst text' seen items := by
  induction items generalizing seen with
  | nil => rfl
  | cons a items ih =>
    obtain ⟨ha, hrest⟩ := List.forall_mem_cons.mp h
    rw [keepFirst, keepFirst, ha, ih hrest, ih hrest]

/-- Fields that are shown are shown wherever they point. -/
theorem temporary_of_unpointed (h : pointed.map Field.unpointed = fields.map Field.unpointed)
    (hshown : ∀ f ∈ fields, f.temporary = false) : ∀ f ∈ pointed, f.temporary = false := by
  have htemporary : pointed.map Field.temporary = fields.map Field.temporary :=
    map_eq_of_unpointed h fun _ => rfl
  intro f hf
  have hin : f.temporary ∈ fields.map Field.temporary := htemporary ▸ List.mem_map_of_mem hf
  obtain ⟨g, hg, hsame⟩ := List.mem_map.mp hin
  rw [← hsame, hshown g hg]

/-- Pointed fields show what the fields show. -/
theorem shown_of_unpointed (h : pointed.map Field.unpointed = fields.map Field.unpointed)
    (hshown : ∀ f ∈ fields, f.temporary = false) :
    pointed.selectedCount = fields.length ∧ pointed.titles = fields.map Field.title := by
  have htitles := Fields.titles_of_shown (temporary_of_unpointed h hshown)
  constructor
  · have hcount : pointed.selectedCount = pointed.titles.length := (List.length_map Field.title).symm
    rw [hcount, htitles, List.length_map]
    simpa only [List.length_map] using congrArg List.length h
  · rw [htitles]
    exact map_eq_of_unpointed h fun _ => rfl

theorem dropRepeats_of_length {fields : Fields} {rows : List Row}
    (h : ∀ row ∈ rows, row.length ≤ fields.selectedCount) :
    dropRepeats fields rows = keepFirst Row.signature [] rows := by
  unfold dropRepeats
  apply keepFirst_congr
  intro row hrow
  rw [List.take_of_length_le (h row hrow)]

/-- What is shown of rows under keys, where all fields are shown and nothing is ordered or cut off. -/
theorem cut_grouped_fieldsRow (h : pointed.map Field.unpointed = fields.map Field.unpointed)
    (hshown : ∀ f ∈ fields, f.temporary = false) {keys : List Nat} (hkeys : keys ≠ []) (distinct : Bool)
    (ids : List Nat) :
    cut pointed none (sortRows [] (grouped pointed keys distinct (ids.map (fieldsRow fields cell)))) =
      shownOnce distinct ((rowGroups keys (fieldsRow fields cell) ids).map fun group =>
        fields.map (groupCell cell group)) := by
  obtain ⟨hcount, _⟩ := shown_of_unpointed h hshown
  have hgroups : groupBy pointed keys (ids.map (fieldsRow fields cell)) = _ := groupBy_fieldsRow h keys ids
  have hwidth : ∀ row ∈ (rowGroups keys (fieldsRow fields cell) ids).map fun group =>
      fields.map (groupCell cell group), row.length ≤ pointed.selectedCount := by
    intro row hrow
    obtain ⟨group, _, rfl⟩ := List.mem_map.mp hrow
    rw [hcount, List.length_map]
  have hnone : keys.isEmpty = false := List.isEmpty_eq_false_iff.mpr hkeys
  have hrows : grouped pointed keys distinct (ids.map (fieldsRow fields cell)) =
      shownOnce distinct ((rowGroups keys (fieldsRow fields cell) ids).map fun group =>
        fields.map (groupCell cell group)) := by
    simp only [grouped, hnone, Bool.false_and, Bool.false_eq_true, if_false, hgroups, shownOnce,
      dropRepeats_of_length hwidth]
  have hsub : ∀ row ∈ shownOnce distinct ((rowGroups keys (fieldsRow fields cell) ids).map fun group =>
      fields.map (groupCell cell group)), row.take pointed.selectedCount = row := by
    intro row hrow
    apply List.take_of_length_le
    apply hwidth
    unfold shownOnce at hrow
    split at hrow
    · exact (keepFirst_sublist _ _ _).subset hrow
    · exact hrow
  rw [hrows]
  exact (List.map_congr_left hsub).trans (List.map_id _)

end Shown

/-- A statement with keys that hides no field and asks for no order shows its groups, each by what the fields
show for it. -/
theorem runPlain_iff_groups {world : World} {working : Table} {depth : Nat} {memo : ResultMemo}
    {sources : List Table} {s : Statement} {ids : List Nat} {plan : Layout} {r : ResultSet}
    (hopened : (opened world (runnerAt remembered world depth) s).Settles memo (sources, working, ids))
    (hplan : layout sources s = .ok plan)
    (hone : (rowsAt world working depth).scope.OneFormula (plan.fields.map Field.kind))
    (hgroups : s.groupBy ≠ []) (hhaving : s.having = none) (horder : s.orderBy = [])
    (hlimit : s.limit = none) (hshown : ∀ f ∈ plan.fields, f.temporary = false) :
    let cell := (rowsAt world working depth).fieldCell sources memo
    (runPlain world (runnerAt remembered world depth) s).Settles memo r ↔
      Reads (rowsAt world working depth) sources memo plan.fields ids ∧
      r = ⟨plan.fields.map Field.title, shownOnce s.distinct
        ((rowGroups plan.groupKeys (fieldsRow plan.fields cell) ids).map fun group =>
          plan.fields.map (groupCell cell group))⟩ := by
  intro cell
  obtain ⟨hkeys, hnone⟩ := layout_keys hplan
  have hsome : plan.groupKeys ≠ [] := by
    intro hempty
    rw [hempty] at hkeys
    exact hgroups (List.length_eq_zero_iff.mp hkeys.symm)
  have hresult {pointed : Fields} (hpointed : pointed.map Field.unpointed = plan.fields.map Field.unpointed) :
      (⟨pointed.titles, cut pointed s.limit (sortRows plan.orderKeys (grouped pointed plan.groupKeys
        s.distinct (ids.map (fieldsRow plan.fields cell))))⟩ : ResultSet) =
      ⟨plan.fields.map Field.title, shownOnce s.distinct
        ((rowGroups plan.groupKeys (fieldsRow plan.fields cell) ids).map fun group =>
          plan.fields.map (groupCell cell group))⟩ := by
    rw [hnone horder, hlimit, (shown_of_unpointed hpointed hshown).2,
      cut_grouped_fieldsRow hpointed hshown hsome]
  rw [runPlain_eq, hhaving]
  constructor
  · intro h
    obtain ⟨⟨plan', pointed, cells⟩, mid, hmade, h⟩ := Run.gives_bind.mp h
    obtain ⟨rows, mid', hrows, h⟩ := Run.gives_bind.mp h
    obtain ⟨rfl, rfl⟩ := Run.gives_pure.mp hrows
    obtain ⟨rfl, rfl⟩ := Run.gives_pure.mp h
    obtain ⟨sources', working', ids', hopened', hplan', hpointed⟩ := opened_of_madeRows hmade
    cases hopened.unique hopened'
    rw [hplan] at hplan'
    cases hplan'
    obtain ⟨rfl, hreads⟩ := (madeRows_iff_reads hopened hplan hone).mp ⟨pointed, hmade⟩
    exact ⟨hreads, hresult hpointed⟩
  · rintro ⟨hreads, rfl⟩
    obtain ⟨pointed, hmade⟩ := (madeRows_iff_reads hopened hplan hone).mpr ⟨rfl, hreads⟩
    obtain ⟨_, _, _, _, _, hpointed⟩ := opened_of_madeRows hmade
    refine Run.gives_bind.mpr ⟨_, memo, hmade, Run.gives_bind.mpr ⟨_, memo, Run.gives_pure.mpr ⟨rfl, rfl⟩,
      Run.gives_pure.mpr ⟨?_, rfl⟩⟩⟩
    exact (hresult hpointed).symm

end GridQuery
