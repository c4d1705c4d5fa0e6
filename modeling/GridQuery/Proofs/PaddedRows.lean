import Mathlib.Data.List.InsertIdx
import GridQuery.Proofs.MovedColumns
import GridQuery.Proofs.OrderedRows
import GridQuery.Proofs.Extremes

/-!
Rows with one more cell. A hidden field among the others puts a cell into every row. Where that cell is the same
in all rows, the rows are grouped, kept and ordered as without it, and show the same.
-/

namespace GridQuery
set_option autoImplicit false

/-! ### Lists with one more item -/

/-- Where the item at index `k` ends up once another one is put in at `p`. -/
def movedIndex (p k : Nat) : Nat :=
  if k < p then k else k + 1

theorem movedIndex_of_lt {p k : Nat} (h : k < p) : movedIndex p k = k :=
  if_pos h

theorem movedIndex_ne (p k : Nat) : movedIndex p k ≠ p := by
  unfold movedIndex
  split <;> omega

theorem eq_or_movedIndex (p i : Nat) : i = p ∨ ∃ k, i = movedIndex p k := by
  rcases Nat.lt_trichotomy i p with h | h | h
  · exact .inr ⟨i, (movedIndex_of_lt h).symm⟩
  · exact .inl h
  · refine .inr ⟨i - 1, ?_⟩
    rw [movedIndex, if_neg (by omega)]
    omega

section Inserted

variable {α : Type} {l : List α} {p : Nat} {x : α}

theorem getElem?_movedIndex (k : Nat) : (l.insertIdx p x)[movedIndex p k]? = l[k]? := by
  rw [List.getElem?_insertIdx, movedIndex]
  by_cases hk : k < p
  · rw [if_pos hk, if_pos hk]
  · rw [if_neg hk, if_neg (by omega), if_neg (by omega), Nat.add_sub_cancel]

theorem getElem?_inserted (hp : p ≤ l.length) : (l.insertIdx p x)[p]? = some x := by
  rw [List.getElem?_insertIdx, if_neg (Nat.lt_irrefl p), if_pos rfl, if_pos hp]

theorem insertIdx_length_append (front behind : List α) (x : α) :
    (front ++ behind).insertIdx front.length x = front ++ x :: behind := by
  induction front with
  | nil => rfl
  | cons a front ih => rw [List.cons_append, List.length_cons, List.insertIdx_succ_cons, ih, List.cons_append]

theorem insertIdx_append (hp : p ≤ l.length) (more : List α) :
    (l ++ more).insertIdx p x = l.insertIdx p x ++ more := by
  have hinsert (behind : List α) := insertIdx_length_append (l.take p) behind x
  simp only [List.length_take_of_le hp] at hinsert
  conv => lhs; rw [← List.take_append_drop p l, List.append_assoc, hinsert]
  conv => rhs; rw [← List.take_append_drop p l, hinsert]
  rw [List.append_assoc, List.cons_append]

theorem filter_insertIdx {q : α → Bool} (hx : q x = false) : (l.insertIdx p x).filter q = l.filter q := by
  induction l generalizing p with
  | nil => cases p <;> simp [hx]
  | cons a l ih =>
    cases p with
    | zero => simp [hx]
    | succ p => simp [List.insertIdx_succ_cons, List.filter_cons, ih]

theorem findIdx?_insertIdx {q : α → Bool} (hp : p ≤ l.length) (hx : q x = false) :
    (l.insertIdx p x).findIdx? q = (l.findIdx? q).map (movedIndex p) := by
  induction l generalizing p with
  | nil =>
    obtain rfl : p = 0 := Nat.le_zero.mp hp
    simp [List.findIdx?_cons, hx]
  | cons a l ih =>
    cases p with
    | zero =>
      rw [List.insertIdx_zero, List.findIdx?_cons, hx]
      rfl
    | succ p =>
      rw [List.insertIdx_succ_cons, List.findIdx?_cons, List.findIdx?_cons, ih (Nat.le_of_succ_le_succ hp)]
      split
      · rfl
      · rw [Option.map_map, Option.map_map]
        refine congrArg (fun f => Option.map f (l.findIdx? q)) (funext fun k => ?_)
        simp only [Function.comp_apply, movedIndex, Nat.add_lt_add_iff_right]
        split <;> rfl

end Inserted

/-! ### Fields with one more among them -/

/-! ### Groups of rows with one more cell -/

section Grouped

variable {fields : Fields} {f : Field} {p : Nat} {x : Cell}

theorem Fields.selectedCount_insertIdx (hhidden : f.temporary = true) :
    Fields.selectedCount (fields.insertIdx p f) = fields.selectedCount := by
  unfold Fields.selectedCount
  rw [filter_insertIdx (by rw [hhidden]; rfl)]

theorem Fields.titles_insertIdx (hhidden : f.temporary = true) :
    Fields.titles (fields.insertIdx p f) = fields.titles := by
  unfold Fields.titles
  rw [filter_insertIdx (by rw [hhidden]; rfl)]

theorem Fields.hasAggregates_insertIdx (hp : p ≤ fields.length) (hplain : f.aggregate = none) :
    Fields.hasAggregates (fields.insertIdx p f) = fields.hasAggregates := by
  unfold Fields.hasAggregates
  rw [Bool.eq_iff_iff, List.any_eq_true, List.any_eq_true]
  simp [List.mem_insertIdx hp, or_and_right, exists_or, Field.isAggregate, hplain]

/-- Where all fields from a slot on are hidden, what is shown stands in front of it. -/
theorem shown_lt (hp : p ≤ fields.length) (hbehind : ∀ g ∈ fields.drop p, g.temporary = true) :
    fields.selectedCount ≤ p ∧ ∀ k ∈ plainSlots fields, k < p := by
  have hfront : (fields.take p).length = p := List.length_take_of_le hp
  rw [← List.take_append_drop p fields, Fields.selectedCount_append hbehind, plainSlots_append hbehind]
  refine ⟨(List.length_filter_le _ _).trans hfront.le, fun k hk => ?_⟩
  exact hfront ▸ lt_of_mem_plainSlots hk

/-- Among the hidden fields one more leaves the slots that are shown. -/
theorem plainSlots_insertIdx (hp : p ≤ fields.length) (hhidden : f.temporary = true)
    (hbehind : ∀ g ∈ fields.drop p, g.temporary = true) :
    plainSlots (fields.insertIdx p f) = plainSlots fields := by
  have hmore : ∀ g ∈ f :: fields.drop p, g.temporary = true := List.forall_mem_cons.mpr ⟨hhidden, hbehind⟩
  have hinsert := insertIdx_length_append (fields.take p) (fields.drop p) f
  rw [List.take_append_drop, List.length_take_of_le hp] at hinsert
  conv => rhs; rw [← List.take_append_drop p fields]
  rw [hinsert, plainSlots_append hbehind, plainSlots_append hmore]

theorem foldedCell_insertIdx (run : List Row) (first : Cell) (k : Nat) :
    foldedCell (fields.insertIdx p f) (run.map fun row => row.insertIdx p x) first (movedIndex p k) =
      foldedCell fields run first k := by
  have hcells : slotCells (run.map fun row => row.insertIdx p x) (movedIndex p k) = slotCells run k := by
    unfold slotCells
    rw [List.filterMap_map]
    refine List.filterMap_congr fun row _ => ?_
    exact getElem?_movedIndex k
  unfold foldedCell
  rw [hcells, getElem?_movedIndex]

/-- A run becomes the row that it would without the further cells, and that of the first one; a run without rows
has none. -/
theorem compress_insertIdx (hp : p ≤ fields.length) (hplain : f.aggregate = none) {run : List Row}
    (hrun : ∀ row ∈ run, row.length = fields.length) (hx : run = [] → x = .null) :
    compress (fields.insertIdx p f) (run.map fun row => row.insertIdx p x) =
      (compress fields run).insertIdx p x := by
  have hlength : (fields.insertIdx p f).length = fields.length + 1 := List.length_insertIdx_of_le_length hp f
  have hfirst : ((run.map fun row => row.insertIdx p x).head?).getD
      (List.replicate (fields.insertIdx p f).length .null) =
      ((run.head?).getD (List.replicate fields.length .null)).insertIdx p x := by
    cases run with
    | nil =>
      rw [hx rfl, hlength]
      refine (List.eq_replicate_iff.mpr ⟨?_, fun c hc => ?_⟩).symm
      · rw [List.head?_nil, Option.getD_none, List.length_insertIdx_of_le_length (by simpa using hp),
          List.length_replicate]
      · rcases List.eq_or_mem_of_mem_insertIdx hc with rfl | hc
        · rfl
        · exact List.eq_of_mem_replicate hc
    | cons row rest => rfl
  have hwidth : ((run.head?).getD (List.replicate fields.length .null)).length = fields.length := by
    cases run with
    | nil => exact List.length_replicate
    | cons row rest => exact hrun row List.mem_cons_self
  apply List.ext_getElem?
  intro i
  unfold compress
  rw [hfirst]
  generalize (run.head?).getD (List.replicate fields.length .null) = first at hwidth
  rw [← hwidth] at hp
  simp only [List.getElem?_map, List.getElem?_zipIdx, Option.map_map, Nat.zero_add]
  rcases eq_or_movedIndex p i with rfl | ⟨k, rfl⟩
  · have hnone : ((fields.insertIdx i f)[i]?).bind Field.aggregate = none := by
      rw [getElem?_inserted (hwidth ▸ hp), Option.bind_some, hplain]
    rw [getElem?_inserted hp, getElem?_inserted (by simpa using hp)]
    simp [foldedCell, hnone]
  · rw [getElem?_movedIndex, getElem?_movedIndex]
    simp only [List.getElem?_map, List.getElem?_zipIdx, Option.map_map, Nat.zero_add]
    refine congrArg (fun g => Option.map g first[k]?) (funext fun c => ?_)
    exact foldedCell_insertIdx run c k

/-- The cell that grouping leaves in one row where it was `c` in all: `c`, or null where there were no rows. -/
def groupedCell (c : Cell) (rows : List Row) : Cell :=
  if rows.isEmpty then .null else c

/-- A hidden field behind those of the keys, with the same cell in every row, has no part in grouping. -/
theorem grouped_insertIdx (hp : p ≤ fields.length) (hplain : f.aggregate = none) (hhidden : f.temporary = true)
    (hbehind : ∀ g ∈ fields.drop p, g.temporary = true) {keys : List Nat} (hkeys : ∀ k ∈ keys, k < p)
    {rows : List Row} (hrows : ∀ row ∈ rows, row.length = fields.length) (distinct : Bool) :
    grouped (fields.insertIdx p f) keys distinct (rows.map fun row => row.insertIdx p x) =
      (grouped fields keys distinct rows).map fun row => row.insertIdx p (groupedCell x rows) := by
  obtain ⟨hcount, hplain'⟩ := shown_lt hp hbehind
  have hslots : ∀ k ∈ (if keys.isEmpty then plainSlots fields else keys), k < p := by
    split
    · exact hplain'
    · exact hkeys
  have hrows' : (rows.map fun row => row.insertIdx p x) =
      rows.map fun row => row.insertIdx p (groupedCell x rows) := by
    cases rows <;> rfl
  have hcell : rows = [] → groupedCell x rows = .null := fun h => by rw [h]; rfl
  rw [hrows']
  generalize groupedCell x rows = y at hcell
  have hsame (row : Row) : ∀ k ∈ (if keys.isEmpty then plainSlots fields else keys),
      (row.insertIdx p y)[k]? = row[k]? :=
    fun k hk => List.getElem?_insertIdx_of_lt (hslots k hk)
  unfold grouped
  rw [Fields.hasAggregates_insertIdx hp hplain, plainSlots_insertIdx hp hhidden hbehind]
  split
  · rw [compress_insertIdx hp hplain hrows hcell, List.map_singleton]
  · split
    · rfl
    · have hgroups := groupBy_map (fun a _ b _ => compareKeys_of_sameCells (hsame a) (hsame b)) fun run hne hrun =>
        compress_insertIdx (f := f) hp hplain (fun row hrow => hrows row (hrun hrow)) fun h => absurd h hne
      simp only [hgroups]
      split
      · unfold dropRepeats
        rw [keepFirst_map, Fields.selectedCount_insertIdx hhidden]
        simp only [List.take_insertIdx_eq_take_of_le _ _ _ _ hcount]
      · rfl

end Grouped

/-! ### Groups that are kept -/

section Kept

variable {fields : Fields} {f : Field} {p : Nat}

/-- Made of spellings, a schema has the column of the first one that comes to a name; none is empty. -/
theorem find?_ofSpellings (spellings : List (String × Nat)) (name : String) :
    (Schema.ofSpellings spellings).find? name =
      (spellings.find? fun s => name != "" && normalize s.1 == name).map Prod.snd := by
  have hfrom (start : Schema) : (spellings.foldl (fun s p => s.insert (normalize p.1) p.2) start).find? name =
      (start.find? name).or ((spellings.find? fun s => name != "" && normalize s.1 == name).map Prod.snd) := by
    induction spellings generalizing start with
    | nil => exact (Option.or_none).symm
    | cons p spellings ih =>
      rw [List.foldl_cons, ih, List.find?_cons]
      by_cases hempty : normalize p.1 = ""
      · have hother : (name != "" && normalize p.1 == name) = false := by
          rw [hempty]
          by_cases hname : name = ""
          · rw [hname]
            rfl
          · simp [Ne.symm hname]
        rw [hother, Schema.insert, if_pos (.inl hempty)]
      · rw [Schema.find?_insert start hempty, Option.or_assoc]
        by_cases hsame : name = normalize p.1
        · subst hsame
          have hself : (normalize p.1 != "" && normalize p.1 == normalize p.1) = true := by simpa using hempty
          rw [if_pos rfl, hself, Option.some_or, Option.map_some]
        · have hother : (normalize p.1 == name) = false := by simpa using Ne.symm hsame
          simp [hsame, hother]
  exact hfrom .empty

/-- Whether a field answers to a name in the schema of the fields. -/
def Field.isNamed (name : String) (f : Field) : Bool :=
  f.spellings.any fun s => normalize name != "" && normalize s == normalize name

/-- In the schema of some fields a name leads to the first field that answers to it. -/
theorem Fields.column?_schema (fields : Fields) (name : String) :
    fields.schema.column? name = fields.findIdx? (Field.isNamed name) := by
  have hfrom (start : Nat) : (((fields.zipIdx start).flatMap fun f => f.1.spellings.map fun s => (s, f.2)).find?
      fun s => normalize name != "" && normalize s.1 == normalize name).map Prod.snd =
      (fields.findIdx? (Field.isNamed name)).map (· + start) := by
    induction fields generalizing start with
    | nil => rfl
    | cons f fields ih =>
      rw [List.zipIdx_cons, List.flatMap_cons, List.find?_append, List.find?_map, List.findIdx?_cons, Option.map_or,
        ih]
      cases hany : f.isNamed name with
      | true =>
        obtain ⟨s, hs⟩ := Option.isSome_iff_exists.mp (List.find?_isSome.mpr (List.any_eq_true.mp hany))
        simp [hs]
      | false =>
        have hnone := List.find?_eq_none.mpr fun s hs => List.any_eq_false.mp hany s hs
        simp [Function.comp_def, hnone, Nat.add_assoc, Nat.add_comm 1]
  unfold Schema.column? Fields.schema
  rw [find?_ofSpellings, hfrom 0]
  simp

theorem insertIdx_widths (hp : p ≤ fields.length) {rows : List Row}
    (hrows : ∀ row ∈ rows, row.length = fields.length) (x : Cell) :
    ∀ row ∈ rows.map fun row => row.insertIdx p x, row.length = (fields.insertIdx p f).length := by
  intro row hrow
  obtain ⟨r, hr, rfl⟩ := List.mem_map.mp hrow
  rw [List.length_insertIdx_of_le_length (hrows r hr ▸ hp), hrows r hr, List.length_insertIdx_of_le_length hp]

/-- With a further field, and a cell for it in each row, the table that `HAVING` is read on has all other columns
under the names that the field does not answer to. -/
theorem havingTable_moved (hp : p ≤ fields.length) {rows : List Row}
    (hrows : ∀ row ∈ rows, row.length = fields.length) (x : Cell) :
    (havingTable fields rows).Moved
      (havingTable (fields.insertIdx p f) (rows.map fun row => row.insertIdx p x)) (movedIndex p)
      fun name => f.isNamed name = false := by
  have hwidths := insertIdx_widths (f := f) hp hrows x
  constructor
  · rw [havingTable_rows hrows, havingTable_rows hwidths, List.length_map]
  · intro name hname
    change (Fields.schema _).column? name = ((Fields.schema _).column? name).map _
    rw [Fields.column?_schema, Fields.column?_schema, findIdx?_insertIdx hp hname]
  · intro row column
    unfold Table.cell
    rw [havingTable_rows hrows, havingTable_rows hwidths, List.getElem?_map]
    cases rows[row]? with
    | none => rfl
    | some r =>
      simp only [Option.map_some, Option.bind_some]
      rw [getElem?_movedIndex]

/-- `HAVING` keeps the same groups whatever further field there is, unless it looks that field up. -/
theorem keepGroups_insertIdx {σ : Type} {world : World} {runner : Runner σ} (hp : p ≤ fields.length)
    {rows : List Row} (hrows : ∀ row ∈ rows, row.length = fields.length) (x : Cell) {having : Option Condition}
    (hnames : ∀ c, having = some c → ∀ name, c.LooksUp world.tables name → f.isNamed name = false) :
    keepGroups world runner (fields.insertIdx p f) (rows.map fun row => row.insertIdx p x) having = (do
      let kept ← keepGroups world runner fields rows having
      pure (kept.map fun row => row.insertIdx p x)) := by
  cases having with
  | none => simp only [keepGroups, pure_bind]
  | some c =>
    have hmoved := havingTable_moved (f := f) hp hrows x
    have hgroups : Rows.Moved ⟨world, havingTable fields rows, runner⟩
        ⟨world, havingTable (fields.insertIdx p f) (rows.map fun row => row.insertIdx p x), runner⟩ (movedIndex p)
        fun name => f.isNamed name = false := ⟨rfl, rfl, hmoved⟩
    have hmatching := hgroups.matching_eq hnames
    have hpadded : (havingTable (fields.insertIdx p f) (rows.map fun row => row.insertIdx p x)).rows =
        rows.map fun row => row.insertIdx p x := havingTable_rows (insertIdx_widths hp hrows x)
    change (do
      let ids ← Rows.matching ⟨world, havingTable (fields.insertIdx p f) _, runner⟩ (some c)
      pure (ids.filterMap fun i => (havingTable (fields.insertIdx p f) _).rows[i]?)) = (do
      let kept ← (do
        let ids ← Rows.matching ⟨world, havingTable fields rows, runner⟩ (some c)
        pure (ids.filterMap fun i => (havingTable fields rows).rows[i]?))
      pure (kept.map fun row => row.insertIdx p x))
    rw [hmatching, hpadded, havingTable_rows hrows]
    simp only [bind_assoc, pure_bind, List.map_filterMap, List.getElem?_map]

end Kept

/-! ### Orders -/

/-- Rows with equal cells in a slot compare alike without the keys of that slot. -/
theorem compareRows_filter {slot : Nat} {a b : Row} (h : a[slot]? = b[slot]?) (keys : List (Nat × Direction)) :
    compareRows a b (keys.filter fun key => key.1 != slot) = compareRows a b keys := by
  have hslot : compareSlot a b slot = .eq := by
    unfold compareSlot
    rw [h]
    cases b[slot]? with
    | none => rfl
    | some c => exact Cell.sortOrder_self c
  induction keys with
  | nil => rfl
  | cons key keys ih =>
    obtain ⟨k, d⟩ := key
    rw [List.filter_cons, compareRows]
    split
    · rw [compareRows, ih]
    · rename_i hk
      obtain rfl : k = slot := by simpa using hk
      rw [hslot, ih]
      cases d <;> rfl

/-- Rows that compare by some keys as others do by theirs are sorted as they are. -/
theorem sortRows_map {f : Row → Row} {keys others : List (Nat × Direction)} {rows : List Row}
    (h : ∀ a ∈ rows, ∀ b ∈ rows, compareRows (f a) (f b) others = compareRows a b keys) :
    sortRows others (rows.map f) = (sortRows keys rows).map f := by
  have hsort (keys : List (Nat × Direction)) (rows : List Row) :
      sortRows keys rows = rows.mergeSort fun a b => compareRows a b keys != .gt := by
    cases keys with
    | nil => exact (List.mergeSort_of_pairwise (List.pairwise_of_forall fun _ _ => rfl)).symm
    | cons => rfl
  rw [hsort, hsort]
  exact (List.map_mergeSort fun a ha b hb => by rw [h a ha b hb]).symm

end GridQuery
