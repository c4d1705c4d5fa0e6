import GridQuery.Proofs.Ahead
import GridQuery.Proofs.Expansion
import GridQuery.Proofs.InOrder

/-!
The rows of a pivot. A pivot runs as another statement, and that one shows the groups of the statement
without the pivot, in their order: plain items show what they show there, and an aggregate shows, for each
value that was collected, its fold over the rows of the group with that value.
-/

namespace GridQuery
set_option autoImplicit false

/-- What the texts of a pivoting statement must not run into: its keys keep their fields whatever titles the
pivot adds, expressions of one text are one, and no column is written like what the pivot generates. -/
structure PivotNames (scope : Scope) (sources : List Table) (pivot : Expr) (values : List Cell)
    (keys : List Expr) (rest : List SelectItem) (front later spread : Fields) : Prop where
  keys : ∀ e ∈ keys, Fields.Ahead sources front (later ++ spread) e
  formulas : scope.OneFormula ((front ++ later ++ spread).map Field.kind)
  unwritten : ∀ item ∈ rest, Unwritten scope pivot values item

namespace PivotNames

variable {scope : Scope} {sources : List Table} {pivot : Expr} {values : List Cell} {keys : List Expr}
  {rest : List SelectItem} {front later spread : Fields}

theorem keys_later (h : PivotNames scope sources pivot values keys rest front later spread) :
    ∀ e ∈ keys, Fields.Ahead sources front later e :=
  fun e he => (h.keys e he).mono (List.subset_append_left later spread)

theorem keys_spread (h : PivotNames scope sources pivot values keys rest front later spread) :
    ∀ e ∈ keys, Fields.Ahead sources front spread e :=
  fun e he => (h.keys e he).mono (List.subset_append_right later spread)

theorem formulas_later (h : PivotNames scope sources pivot values keys rest front later spread) :
    scope.OneFormula ((front ++ later).map Field.kind) :=
  h.formulas.mono (List.map_subset _ (List.subset_append_left _ _))

theorem formulas_spread (h : PivotNames scope sources pivot values keys rest front later spread) :
    scope.OneFormula ((front ++ spread).map Field.kind) := by
  apply h.formulas.mono
  apply List.map_subset
  rw [List.append_assoc]
  exact List.append_subset.mpr ⟨List.subset_append_left _ _,
    fun f hf => List.mem_append_right _ (List.mem_append_right _ hf)⟩

end PivotNames

section Settled

variable {world : World} {working : Table} {depth : Nat} {memo : ResultMemo} {sources : List Table}
  {ids : List Nat} {s : Statement} {pivot : Expr} {values : List Cell} {ahead rest : List SelectItem}
  {front later spread : Fields} {r : ResultSet}

theorem flatMap_pivotItem_plain (h : ∀ item ∈ ahead, item.expr.aggregate? = none) :
    ahead.flatMap (pivotItem pivot values) = ahead := by
  have hone : ∀ item ∈ ahead, pivotItem pivot values item = [item] := by
    intro item hitem
    rw [pivotItem, h item hitem]
  rw [List.flatMap_congr hone, List.flatMap_singleton']

/-- The keys of a statement, as slots of its fields in front. -/
def keySlots (sources : List Table) (front : Fields) (keys : List Expr) : List Nat :=
  keys.map fun e => (front.find? sources e).getD 0

theorem lt_of_mem_keySlots {keys : List Expr} (h : ∀ e ∈ keys, Fields.Ahead sources front later e)
    {slot : Nat} (hslot : slot ∈ keySlots sources front keys) : slot < front.length := by
  obtain ⟨e, he, rfl⟩ := List.mem_map.mp hslot
  obtain ⟨slot, hfind⟩ := Option.isSome_iff_exists.mp (Fields.find?_append (h e he)).2
  rw [hfind]
  exact Fields.lt_of_find? hfind

/-- Rows are grouped by the fields in front, whatever stands behind them. -/
theorem rowGroups_front {keys : List Expr} (h : ∀ e ∈ keys, Fields.Ahead sources front later e)
    (cell : FieldKind → Nat → Cell) (ids : List Nat) :
    rowGroups (keySlots sources front keys) (fieldsRow (front ++ later) cell) ids =
      rowGroups (keySlots sources front keys) (fieldsRow front cell) ids := by
  apply rowGroups_congr
  intro i _ slot hslot
  rw [getElem?_fieldsRow, getElem?_fieldsRow, List.getElem?_append_left (lt_of_mem_keySlots h hslot)]

/-- The groups of a statement whose keys are ahead, on what its nested statements gave. -/
theorem settles_grouped
    (hopened : (opened world (runnerAt remembered world depth) s).Settles memo (sources, working, ids))
    (hselect : Fields.ofSelect sources s.items = .ok (front ++ later))
    (hkeys : ∀ e ∈ s.groupBy, Fields.Ahead sources front later e)
    (hone : (rowsAt world working depth).scope.OneFormula ((front ++ later).map Field.kind))
    (hgroups : s.groupBy ≠ []) (hhaving : s.having = none) (horder : s.orderBy = [])
    (hlimit : s.limit = none) :
    let cell := (rowsAt world working depth).fieldCell sources memo
    (runPlain world (runnerAt remembered world depth) s).Settles memo r ↔
      Reads (rowsAt world working depth) sources memo (front ++ later) ids ∧
      r = ⟨(front ++ later).map Field.title, shownOnce s.distinct
        ((rowGroups (keySlots sources front s.groupBy) (fieldsRow front cell) ids).map fun group =>
          (front ++ later).map (groupCell cell group))⟩ := by
  intro cell
  have hplan := layout_ahead hselect hkeys hhaving horder
  have hresult := runPlain_iff_groups (r := r) hopened hplan hone hgroups hhaving horder hlimit
    (Fields.ofSelect_shown hselect)
  rw [← rowGroups_front hkeys]
  exact hresult

/-- What a pivot shows, on what its nested statements gave. -/
theorem settles_pivoted
    (hopened : (opened world (runnerAt remembered world depth) s).Settles memo (sources, working, ids))
    (hitems : s.items = ahead ++ rest) (hahead : ∀ item ∈ ahead, item.expr.aggregate? = none)
    (hstars : ∀ item ∈ rest, StarsCounted item) (hgroups : s.groupBy ≠ []) (hhaving : s.having = none)
    (horder : s.orderBy = []) (hlimit : s.limit = none) (hfront : Fields.ofSelect sources ahead = .ok front)
    (hlater : Fields.ofSelect sources rest = .ok later)
    (hspread : Fields.ofSelect sources (rest.flatMap (pivotItem pivot values)) = .ok spread)
    (hnames : PivotNames (rowsAt world working depth).scope sources pivot values s.groupBy rest front later
      spread)
    (h : (runPlain world (runnerAt remembered world depth) (pivoted s pivot values)).Settles memo r) :
    let cell := (rowsAt world working depth).fieldCell sources memo
    let pivotCell := fun i => ((rowsAt world working depth).evaluated pivot i).settled memo
    (∀ i ∈ ids, ∀ f ∈ front ++ later,
      PivotRead (rowsAt world working depth) sources memo pivot values i f) ∧
    r = ⟨(front ++ later).flatMap (pivotTitles values), shownOnce s.distinct
      ((rowGroups (keySlots sources front s.groupBy) (fieldsRow front cell) ids).map fun group =>
        (front ++ later).flatMap (pivotCells values pivotCell cell group))⟩ := by
  intro cell pivotCell
  have hcolumn := opened_column? hopened
  have hall : Fields.ofSelect sources s.items = .ok (front ++ later) := by
    rw [hitems]
    exact Fields.ofSelect_append.mpr ⟨front, later, hfront, hlater, rfl⟩
  have hpivoted : Fields.ofSelect sources (s.items.flatMap (pivotItem pivot values)) =
      .ok (front ++ spread) := by
    rw [hitems, List.flatMap_append, flatMap_pivotItem_plain hahead]
    exact Fields.ofSelect_append.mpr ⟨front, spread, hfront, hspread, rfl⟩
  have hplain {item : SelectItem} (hitem : item ∈ s.items) :
      item.expr.aggregate? = none ∨ item ∈ rest := by
    rw [hitems] at hitem
    exact (List.mem_append.mp hitem).imp_left (hahead item)
  have hwritten : ∀ item ∈ s.items, Unwritten (rowsAt world working depth).scope pivot values item := by
    intro item hitem
    rcases hplain hitem with hnone | hrest
    · exact ⟨fun hcall => by simp [hnone] at hcall, fun hcall => by simp [hnone] at hcall⟩
    · exact hnames.unwritten item hrest
  have hcounted : ∀ item ∈ s.items, StarsCounted item := by
    intro item hitem
    rcases hplain hitem with hnone | hrest
    · exact fun call table hcall => by simp [hnone] at hcall
    · exact hstars item hrest
  obtain ⟨hreads, hresult⟩ := (settles_grouped (s := pivoted s pivot values) hopened hpivoted
    hnames.keys_spread hnames.formulas_spread hgroups hhaving horder hlimit).mp h
  refine ⟨fun i hi => pivoted_reads hcolumn hwritten hall hpivoted hreads hi, ?_⟩
  rw [hresult, pivoted_titles hall hpivoted]
  have hrows : ((rowGroups (keySlots sources front s.groupBy) (fieldsRow front cell) ids).map fun group =>
      (front ++ spread).map (groupCell cell group)) =
      (rowGroups (keySlots sources front s.groupBy) (fieldsRow front cell) ids).map fun group =>
        (front ++ later).flatMap (pivotCells values pivotCell cell group) := by
    apply List.map_congr_left
    intro group hgroup
    exact pivoted_show hcolumn hwritten hcounted hall hpivoted hreads fun i hi =>
      mem_of_mem_rowGroups hgroup hi
  exact congrArg (fun rows => (⟨_, shownOnce s.distinct rows⟩ : ResultSet)) hrows

/-- A statement with a pivot has keys; it collects values, and then runs as another statement. -/
theorem runPivot_gives {kept : ResultMemo} (hpivot : s.pivot = some pivot)
    (h : (runPivot world (runnerAt remembered world depth) s).Gives memo r kept) :
    s.groupBy ≠ [] ∧ ∃ found mid,
      (remembered (runPlain world (runnerAt remembered world depth)) (pivotValues s pivot)).Gives memo found
        mid ∧
      (runPlain world (runnerAt remembered world depth) (pivoted s pivot (found.column 0))).Gives mid r
        kept := by
  simp only [runPivot, hpivot] at h
  split at h
  · exact absurd h Run.not_gives_throw
  · rename_i hsome
    exact ⟨fun hnone => hsome (List.isEmpty_iff.mpr hnone), Run.gives_bind.mp h⟩

/-- A pivot folds, for each value that was collected, every aggregate over the rows of the group with that
value; its plain items, and its groups with their order, are those of the statement without the pivot. With
`DISTINCT` each of the two leaves out what repeats among its own rows. -/
theorem pivot_folds_restricted {all kept : ResultMemo} {collected : ResultSet}
    (hpivot : s.pivot = some pivot) (hhaving : s.having = none) (horder : s.orderBy = [])
    (hlimit : s.limit = none) (hitems : s.items = ahead ++ rest)
    (hahead : ∀ item ∈ ahead, item.expr.aggregate? = none) (hstars : ∀ item ∈ rest, StarsCounted item)
    (h : (runPivot world (runnerAt remembered world depth) s).Gives memo r kept) (hkept : kept.KeptIn all)
    (hvalues : (remembered (runPlain world (runnerAt remembered world depth)) (pivotValues s pivot)).Settles
      all collected)
    (hopened : (opened world (runnerAt remembered world depth) s).Settles all (sources, working, ids))
    (hfront : Fields.ofSelect sources ahead = .ok front) (hlater : Fields.ofSelect sources rest = .ok later)
    (hspread : Fields.ofSelect sources (rest.flatMap (pivotItem pivot (collected.column 0))) = .ok spread)
    (hnames : PivotNames (rowsAt world working depth).scope sources pivot (collected.column 0) s.groupBy rest
      front later spread) :
    let values := collected.column 0
    let cell := (rowsAt world working depth).fieldCell sources all
    let pivotCell := fun i => ((rowsAt world working depth).evaluated pivot i).settled all
    let groups := rowGroups (keySlots sources front s.groupBy) (fieldsRow front cell) ids
    r = ⟨(front ++ later).flatMap (pivotTitles values), shownOnce s.distinct (groups.map fun group =>
      (front ++ later).flatMap (pivotCells values pivotCell cell group))⟩ ∧
    groups.flatten.Perm ids ∧
    (∀ i ∈ ids, ∀ f ∈ front ++ later,
      PivotRead (rowsAt world working depth) sources all pivot values i f) ∧
    ∀ {memo₀ kept₀ : ResultMemo} {r₀ : ResultSet},
      (runPivot world (runnerAt remembered world depth) { s with pivot := none }).Gives memo₀ r₀ kept₀ →
      kept₀.KeptIn all →
      r₀ = ⟨(front ++ later).map Field.title, shownOnce s.distinct (groups.map fun group =>
        (front ++ later).map (groupCell cell group))⟩ := by
  intro values cell pivotCell groups
  obtain ⟨hgroups, found, mid, hfound, h⟩ := runPivot_gives hpivot h
  have hplain := repeatable_runPlain world depth (pivoted s pivot (found.column 0))
  -- what the statement collected on its way is what it would collect now
  have hmid : mid.KeptIn all := (hplain.grows_of_gives h).trans hkept
  have hsame : found = collected :=
    ((repeatable_runPlain world depth (pivotValues s pivot)).remembered.again hfound hmid).unique hvalues |>.1
  subst hsame
  obtain ⟨hreads, hresult⟩ := settles_pivoted hopened hitems hahead hstars hgroups hhaving horder hlimit
    hfront hlater hspread hnames (hplain.again h hkept)
  refine ⟨hresult, rowGroups_perm _ _ ids, hreads, ?_⟩
  intro memo₀ kept₀ r₀ h₀ hkept₀
  have hselect : Fields.ofSelect sources s.items = .ok (front ++ later) := by
    rw [hitems]
    exact Fields.ofSelect_append.mpr ⟨front, later, hfront, hlater, rfl⟩
  have hagain := (repeatable_runPivot world depth { s with pivot := none }).again h₀ hkept₀
  have hunpivoted : (opened world (runnerAt remembered world depth) { s with pivot := none }).Settles all
      (sources, working, ids) := hopened
  exact ((settles_grouped hunpivoted hselect hnames.keys_later hnames.formulas_later hgroups hhaving horder
    hlimit).mp hagain).2

end Settled

/-- Letters with numbers. -/
def pivotTable : Table :=
  .derived "T" ["k", "p", "n"] [[.text "x", .text "a", .number 1], [.text "x", .text "a", .number 1],
    [.text "x", .text "b", .number 2], [.text "y", .text "b", .number 3]]

def pivotWorld : World := ⟨.ofList [pivotTable], .empty, .midnight ⟨2020, 1, 1⟩⟩

def keyItem : SelectItem := ⟨.column none "k", "k", none⟩

def countItem : SelectItem := ⟨.call "COUNT" false [.star none], "COUNT(*)", none⟩

/-- `COUNT(*)` and `SUM(DISTINCT n)` -/
def foldItems : List SelectItem :=
  [countItem, ⟨.call "SUM" true [.column none "n"], "SUM(DISTINCT n)", none⟩]

/-- `SELECT k, COUNT(*), SUM(DISTINCT n) FROM T GROUP BY k PIVOT p` -/
def letterPivot : Statement :=
  ⟨false, keyItem :: foldItems, .table "T" none, [], none, [.column none "k"], none, [], none,
    some (.column none "p"), []⟩

def letterValues : ResultSet := ⟨["p"], [[.text "a"], [.text "b"]]⟩

def letterMemo : ResultMemo := [((pivotValues letterPivot (.column none "p")).text, letterValues)]

def letterShown : ResultSet :=
  ⟨["k", "a COUNT(*)", "b COUNT(*)", "a SUM(DISTINCT n)", "b SUM(DISTINCT n)"],
    [[.text "x", .number 2, .number 1, .number 1, .number 2],
      [.text "y", .number 0, .number 1, .number 0, .number 3]]⟩

def letterPlain : ResultSet :=
  ⟨["k", "COUNT(*)", "SUM(DISTINCT n)"],
    [[.text "x", .number 3, .number 3], [.text "y", .number 1, .number 3]]⟩

/-- The fields of a select list over the letters. -/
def letterFields (items : List SelectItem) : Fields :=
  (Fields.ofSelect [pivotTable] items).toOption.getD []

theorem runPivot_letters :
    (runPivot pivotWorld (runnerAt remembered pivotWorld 0) letterPivot).Gives [] letterShown letterMemo := by
  have hcollected : (runInOrder pivotWorld (runnerAt remembered pivotWorld 0)
      (pivotValues letterPivot (.column none "p"))).Gives [] (some letterValues) [] := by decide +kernel
  apply runPivot_of_inOrder rfl (List.cons_ne_nil _ _) hcollected rfl
  decide +kernel

theorem runPivot_lettersPlain : (runPivot pivotWorld (runnerAt remembered pivotWorld 0)
    { letterPivot with pivot := none }).Gives [] letterPlain [] := by
  change (runPlain _ _ _).Gives _ _ _
  apply runPlain_of_inOrder
  decide +kernel

theorem starsCounted_letters : ∀ item ∈ foldItems, StarsCounted item := by
  intro item hitem call table hcall hstar
  simp only [foldItems, countItem, List.mem_cons, List.not_mem_nil, or_false] at hitem
  rcases hitem with rfl | rfl <;> cases hcall
  · rfl
  · simp at hstar

theorem pivotNames_letters : PivotNames (rowsAt pivotWorld pivotTable 0).scope [pivotTable] (.column none "p")
    (letterValues.column 0) letterPivot.groupBy foldItems (letterFields [keyItem]) (letterFields foldItems)
    (letterFields (foldItems.flatMap (pivotItem (.column none "p") (letterValues.column 0)))) where
  keys := by
    intro e he
    rw [List.mem_singleton.mp he]
    exact .spelled (by simp) (by decide +kernel)
  formulas := .of_nodup (by decide +kernel)
  unwritten := by
    intro item hitem
    simp only [foldItems, countItem, List.mem_cons, List.not_mem_nil, or_false] at hitem
    constructor
    · intro call hcall
      rcases hitem with rfl | rfl <;> cases hcall <;> decide +kernel
    · intro call q hcall hargs
      rcases hitem with rfl | rfl <;> cases hcall <;> cases hargs

theorem pivot_folds_restricted_letters :
    (runPivot pivotWorld (runnerAt remembered pivotWorld 0) letterPivot).Gives [] letterShown letterMemo ∧
    (runPivot pivotWorld (runnerAt remembered pivotWorld 0) { letterPivot with pivot := none }).Gives []
      letterPlain [] ∧
    ∃ (groups : List (List Nat)) (pivotCell : Nat → Cell) (cell : FieldKind → Nat → Cell),
      groups.flatten.Perm [0, 1, 2, 3] ∧
      letterPlain.rows = groups.map (fun group =>
        (letterFields [keyItem] ++ letterFields foldItems).map (groupCell cell group)) ∧
      letterShown.rows = groups.map (fun group =>
        (letterFields [keyItem] ++ letterFields foldItems).flatMap
          (pivotCells [.text "a", .text "b"] pivotCell cell group)) := by
  have hkept : ResultMemo.KeptIn [] letterMemo := fun _ _ h => by cases h
  have hvalues : (remembered (runPlain pivotWorld (runnerAt remembered pivotWorld 0))
      (pivotValues letterPivot (.column none "p"))).Settles letterMemo letterValues :=
    gives_remembered.mpr (Or.inl ⟨List.lookup_cons_self, rfl⟩)
  have hopened : (opened pivotWorld (runnerAt remembered pivotWorld 0) letterPivot).Settles letterMemo
      ([pivotTable], pivotTable, [0, 1, 2, 3]) := rfl
  have hitems : letterPivot.items = [keyItem] ++ foldItems := rfl
  have hahead : ∀ item ∈ [keyItem], item.expr.aggregate? = none := by decide +kernel
  obtain ⟨hshown, hperm, _, hplain⟩ := pivot_folds_restricted rfl rfl rfl rfl hitems hahead
    starsCounted_letters runPivot_letters (.refl letterMemo) hvalues hopened rfl rfl rfl pivotNames_letters
  exact ⟨runPivot_letters, runPivot_lettersPlain, _, _, _, hperm,
    congrArg ResultSet.rows (hplain runPivot_lettersPlain hkept), congrArg ResultSet.rows hshown⟩

/-- Two keys that are written alike. -/
def alikeKeys : World :=
  ⟨.ofList [.derived "T" ["k", "p"] [[.boolean true, .text "a"], [.text "true", .text "b"]]], .empty,
    .midnight ⟨2020, 1, 1⟩⟩

/-- `SELECT DISTINCT k, COUNT(*) FROM T GROUP BY k` -/
def alikeCounts : Statement :=
  ⟨true, [keyItem, countItem], .table "T" none, [], none, [.column none "k"], none, [], none, none, []⟩

/-- Two letters with one value, which is the front of a key. -/
def titleWorld : World :=
  ⟨.ofList [.derived "T" ["a b", "p"] [[.text "m", .text "X.`a"], [.text "n", .text "X.`a"]]], .empty,
    .midnight ⟨2020, 1, 1⟩⟩

/-- The key is written otherwise than where it is selected, and the value and the title of the count together
are written like the key. -/
def titleCounts : Statement :=
  ⟨false, [⟨.column none "a b", "`a b`", none⟩, ⟨.call "COUNT" false [.star none], "COUNT(*)", some "b`"⟩],
    .table "T" (some "X"), [], none, [.column (some "X") "a b"], none, [], none, none, []⟩

/-- A column that is written like a statement. -/
def nestedWorld : World :=
  ⟨.ofList [.derived "T" ["k", "p", "(SELECT n FROM U)"] [[.text "x", .text "a", .number 7]],
    .derived "U" ["n"] [[.number 1]]], .empty, .midnight ⟨2020, 1, 1⟩⟩

/-- `SELECT n FROM U` -/
def nestedNumber : Statement :=
  ⟨false, [⟨.column none "n", "n", none⟩], .table "U" none, [], none, [], none, [], none, none, []⟩

/-- `SELECT k, SUM((SELECT n FROM U)) FROM T GROUP BY k` -/
def nestedSums : Statement :=
  ⟨false, [keyItem, ⟨.call "SUM" false [.subquery nestedNumber], "SUM((SELECT n FROM U))", none⟩],
    .table "T" none, [], none, [.column none "k"], none, [], none, none, []⟩

/-- What a statement shows whose rows come in order, and what it shows with a pivot. -/
theorem execute_with_pivot {world : World} {depth : Nat} {s : Statement} {pivot : Expr} {kept : ResultMemo}
    {r shown values : ResultSet} (hpivot : s.pivot = none) (hgroups : s.groupBy ≠ [])
    (hoperations : s.operations = [])
    (hbinds : world.binds.require s.maxBind = .ok () ∧
      world.binds.require { s with pivot := some pivot }.maxBind = .ok ())
    (hdepth : s.depth = depth + 1 ∧ { s with pivot := some pivot }.depth = depth + 1)
    (hplain : (runInOrder world (runnerAt remembered world depth) s).Gives [] (some r) kept)
    (hvalues : (runInOrder world (runnerAt remembered world depth) (pivotValues s pivot)).Gives []
      (some values) [])
    (hshown : (runInOrder world (runnerAt remembered world depth)
      (pivoted s pivot (values.column 0))).Gives [((pivotValues s pivot).text, values)] (some shown)
        [((pivotValues s pivot).text, values)]) :
    execute world s = .ok r ∧ execute world { s with pivot := some pivot } = .ok shown :=
  ⟨execute_of_run hbinds.1 hdepth.1 (run_of_inOrder hpivot hoperations hplain),
    execute_of_run hbinds.2 hdepth.2 (run_of_inOrder_pivot rfl hgroups hoperations hvalues rfl hshown)⟩

/-- Other groups, and another fold. With `DISTINCT` the second group of the first statement repeats the first
one, and in the pivot it does not, as the two have other counts. In the second statement the key means a
column, and in the pivot the count that goes by its spelling. In the third one the aggregate folds what a
nested statement gives, and in the pivot what stands in the column of that spelling. -/
theorem pivot_shows_others :
    (execute alikeKeys alikeCounts = .ok ⟨["k", "COUNT(*)"], [[.boolean true, .number 1]]⟩ ∧
    execute alikeKeys { alikeCounts with pivot := some (.column none "p") } =
      .ok ⟨["k", "a COUNT(*)", "b COUNT(*)"],
        [[.boolean true, .number 1, .number 0], [.text "true", .number 0, .number 1]]⟩) ∧
    (execute titleWorld titleCounts =
      .ok ⟨["`a b`", "b`"], [[.text "m", .number 1], [.text "n", .number 1]]⟩ ∧
    execute titleWorld { titleCounts with pivot := some (.column none "p") } =
      .ok ⟨["`a b`", "X.`a b`"], [[.text "m", .number 2]]⟩) ∧
    execute nestedWorld nestedSums =
      .ok ⟨["k", "SUM((SELECT n FROM U))"], [[.text "x", .number 1]]⟩ ∧
    execute nestedWorld { nestedSums with pivot := some (.column none "p") } =
      .ok ⟨["k", "a SUM((SELECT n FROM U))"], [[.text "x", .number 7]]⟩ := by
  have halikePlain : (runInOrder alikeKeys (runnerAt remembered alikeKeys 0) alikeCounts).Gives []
      (some ⟨["k", "COUNT(*)"], [[.boolean true, .number 1]]⟩) [] := by decide +kernel
  have halike : (runInOrder alikeKeys (runnerAt remembered alikeKeys 0)
      (pivotValues alikeCounts (.column none "p"))).Gives []
        (some ⟨["p"], [[.text "a"], [.text "b"]]⟩) [] := by decide +kernel
  have htitlePlain : (runInOrder titleWorld (runnerAt remembered titleWorld 0) titleCounts).Gives []
      (some ⟨["`a b`", "b`"], [[.text "m", .number 1], [.text "n", .number 1]]⟩) [] := by decide +kernel
  have htitle : (runInOrder titleWorld (runnerAt remembered titleWorld 0)
      (pivotValues titleCounts (.column none "p"))).Gives [] (some ⟨["p"], [[.text "X.`a"]]⟩) [] := by
    decide +kernel
  have hnestedPlain : (runInOrder nestedWorld (runnerAt remembered nestedWorld 1) nestedSums).Gives []
      (some ⟨["k", "SUM((SELECT n FROM U))"], [[.text "x", .number 1]]⟩)
      [(nestedNumber.text, ⟨["n"], [[.number 1]]⟩)] := by decide +kernel
  have hnested : (runInOrder nestedWorld (runnerAt remembered nestedWorld 1)
      (pivotValues nestedSums (.column none "p"))).Gives [] (some ⟨["p"], [[.text "a"]]⟩) [] := by
    decide +kernel
  refine ⟨?_, ?_, ?_⟩
  · exact execute_with_pivot rfl (List.cons_ne_nil _ _) rfl (by decide +kernel) (by decide +kernel)
      halikePlain halike (by decide +kernel)
  · exact execute_with_pivot rfl (List.cons_ne_nil _ _) rfl (by decide +kernel) (by decide +kernel)
      htitlePlain htitle (by decide +kernel)
  · exact execute_with_pivot rfl (List.cons_ne_nil _ _) rfl (by decide +kernel) (by decide +kernel)
      hnestedPlain hnested (by decide +kernel)

end GridQuery
