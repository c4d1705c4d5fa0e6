import Mathlib.Data.List.Perm.Basic
import GridQuery.Proofs.InnerJoin

/-!
Outer joins beside the inner join. Seen from the other table, a join has the mirrored matches, and its rows
have their two blocks swapped; so what is said of left joins is said of right joins, too. Each outer join has
the rows of the inner one and, once each and beside nulls, the rows that its kind fills up.
-/

namespace GridQuery
set_option autoImplicit false

/-- The matches seen from the right table: for each of its rows the left rows that it matches. -/
def Matches.mirrored (right : Table) (ms : Matches) : Matches :=
  (List.range right.rows.length).map (leftsOf ms)

/-- The first `width` items behind the others. -/
def swapBlocks {α : Type} (width : Nat) (items : List α) : List α :=
  items.drop width ++ items.take width

/-- The left rows that match nothing. -/
def Matches.loneLeft (left : Table) (ms : Matches) : List Row :=
  ((left.rows.zip ms).filter fun p => p.2.isEmpty).map Prod.fst

/-- The right rows that nothing matches. -/
def Matches.loneRight (right : Table) (ms : Matches) : List Row :=
  (right.rows.zipIdx.filter fun r => !(ms.any fun m => m.contains r.2)).map Prod.fst

theorem swapBlocks_append {α : Type} {width : Nat} {xs : List α} (h : xs.length = width) (ys : List α) :
    swapBlocks width (xs ++ ys) = ys ++ xs := by
  subst h
  simp [swapBlocks]

section Lists

/-- Two lists run through one within the other, in either order. -/
theorem flatMap_comm_perm {α β γ : Type} (xs : List α) (ys : List β) (f : α → β → List γ) :
    (xs.flatMap fun x => ys.flatMap fun y => f x y).Perm
      (ys.flatMap fun y => xs.flatMap fun x => f x y) := by
  induction xs with
  | nil => simp
  | cons x xs ih =>
    simp only [List.flatMap_cons]
    exact (ih.append_left _).trans (List.flatMap_append_perm ys (f x) _)

/-- Numbers sorted into the places that they name. -/
theorem flatMap_places_perm (ids : List Nat) (count : Nat) :
    ((List.range count).flatMap fun r => ids.filter fun i => i == r).Perm
      (ids.filter fun i => decide (i < count)) := by
  induction count with
  | zero => simp
  | succ count ih =>
    rw [List.range_succ, List.flatMap_append, List.flatMap_singleton]
    have hsplit := List.filter_append_perm (fun i => decide (i < count))
      (ids.filter fun i => decide (i < count + 1))
    have hbelow : (ids.filter fun i => decide (i < count + 1)).filter (fun i => decide (i < count)) =
        ids.filter fun i => decide (i < count) := by
      rw [List.filter_filter]
      refine List.filter_congr fun i _ => ?_
      rw [Bool.eq_iff_iff]
      simp only [Bool.and_eq_true, decide_eq_true_eq]
      omega
    have hlast : (ids.filter fun i => decide (i < count + 1)).filter (fun i => !decide (i < count)) =
        ids.filter fun i => i == count := by
      rw [List.filter_filter]
      refine List.filter_congr fun i _ => ?_
      rw [Bool.eq_iff_iff]
      simp only [Bool.and_eq_true, Bool.not_eq_true', decide_eq_false_iff_not, decide_eq_true_eq,
        beq_iff_eq]
      omega
    rw [hbelow, hlast] at hsplit
    exact (ih.append_right _).trans hsplit

end Lists

variable {left right : Table} {ms : Matches}

section Mirrored

theorem mem_leftsOf {l r : Nat} : l ∈ leftsOf ms r ↔ ∃ ids, ms[l]? = some ids ∧ r ∈ ids := by
  simp only [leftsOf, List.mem_flatMap, List.mem_map, List.mem_filter, beq_iff_eq]
  constructor
  · rintro ⟨⟨ids, l'⟩, hids, i, ⟨hi, rfl⟩, rfl⟩
    exact ⟨ids, List.mk_mem_zipIdx_iff_getElem?.mp hids, hi⟩
  · rintro ⟨ids, hids, hr⟩
    exact ⟨(ids, l), List.mk_mem_zipIdx_iff_getElem?.mpr hids, r, ⟨hr, rfl⟩, rfl⟩

theorem Matches.Between.mirrored (h : ms.Between left right) :
    (ms.mirrored right).Between right left where
  length_eq := by rw [Matches.mirrored, List.length_map, List.length_range]
  bounded := by
    intro ids hids l hl
    obtain ⟨r, _, rfl⟩ := List.mem_map.mp hids
    rw [← h.length_eq]
    exact lt_of_mem_leftsOf hl

theorem zip_mirrored (right : Table) (ms : Matches) :
    right.rows.zip (ms.mirrored right) = right.rows.zipIdx.map fun r => (r.1, leftsOf ms r.2) := by
  unfold Matches.mirrored
  rw [List.zip_map_right, List.zipIdx_eq_zip_range', List.range_eq_range']
  rfl

/-- A row without matches in the mirrored ones is one that nothing matches. -/
theorem loneLeft_mirrored (right : Table) (ms : Matches) :
    (ms.mirrored right).loneLeft right = ms.loneRight right := by
  have hempty (r : Nat) : (leftsOf ms r).isEmpty = !(ms.any fun m => m.contains r) := by
    rw [Bool.eq_iff_iff, List.isEmpty_iff, List.eq_nil_iff_forall_not_mem]
    simp only [mem_leftsOf, Bool.not_eq_true', List.any_eq_false, List.contains_iff_mem]
    constructor
    · intro h ids hids hr
      obtain ⟨l, hl⟩ := List.mem_iff_getElem?.mp hids
      exact h l ⟨ids, hl, hr⟩
    · rintro h l ⟨ids, hids, hr⟩
      exact h ids (List.mem_of_getElem? hids) hr
  unfold Matches.loneLeft Matches.loneRight
  rw [zip_mirrored, List.filter_map, List.map_map]
  simp only [Function.comp_def, hempty]

theorem map_swapBlocks_leftRows {row : Row} (h : row.length = right.width) (fill : Bool)
    (ids : List Nat) :
    (leftRows left fill row ids).map (swapBlocks right.width) =
      if ids.isEmpty then (if fill then [nulls left ++ row] else [])
      else ids.map fun l => (left.rows[l]?).getD [] ++ row := by
  unfold leftRows
  split
  · split
    · simp [swapBlocks_append h]
    · rfl
  · rw [List.map_map]
    exact List.map_congr_left fun l _ => swapBlocks_append h _

/-- The rows of the mirrored join from the right table, with their blocks swapped. -/
theorem map_swapBlocks_rowsByLeft (hright : right.Built) (fill : Bool) :
    (rowsByLeft right left fill (ms.mirrored right)).map (swapBlocks right.width) =
      right.rows.zipIdx.flatMap fun r =>
        if (leftsOf ms r.2).isEmpty then (if fill then [nulls left ++ r.1] else [])
        else (leftsOf ms r.2).map fun l => (left.rows[l]?).getD [] ++ r.1 := by
  unfold rowsByLeft
  rw [zip_mirrored, List.flatMap_map, List.map_flatMap, List.flatMap_def, List.flatMap_def]
  congr 1
  refine List.map_congr_left fun r hr => ?_
  exact map_swapBlocks_leftRows (hright.length_row _ (List.fst_mem_of_mem_zipIdx hr)) fill _

theorem rowsByRight_eq_mirrored (hright : right.Built) :
    rowsByRight left right ms =
      (rowsByLeft right left true (ms.mirrored right)).map (swapBlocks right.width) :=
  (map_swapBlocks_rowsByLeft hright true).symm

theorem zip_eq_map_zipIdx (h : ms.length = left.rows.length) :
    left.rows.zip ms = ms.zipIdx.map fun m => ((left.rows[m.2]?).getD [], m.1) := by
  apply List.ext_getElem
  · simp [h]
  · intro i hi _
    have hlt : i < left.rows.length := by
      rw [List.length_zip] at hi
      omega
    simp [hlt]

/-- The row of a pair of rows, by their numbers. -/
def pairRow (left right : Table) (l r : Nat) : Row :=
  (left.rows[l]?).getD [] ++ (right.rows[r]?).getD []

theorem rowsByLeft_eq_pairs (h : ms.length = left.rows.length) :
    rowsByLeft left right false ms = ms.zipIdx.flatMap fun m => m.1.map (pairRow left right m.2) := by
  unfold rowsByLeft
  rw [zip_eq_map_zipIdx h, List.flatMap_map]
  simp only [leftRows_false]
  rfl

theorem mirrored_eq_pairs (hright : right.Built) :
    (rowsByLeft right left false (ms.mirrored right)).map (swapBlocks right.width) =
      (List.range right.rows.length).flatMap fun r =>
        (leftsOf ms r).map fun l => pairRow left right l r := by
  have hrows : right.rows.zipIdx =
      (List.range right.rows.length).map fun r => ((right.rows[r]?).getD [], r) := by
    apply List.ext_getElem
    · simp
    · intro r hr _
      have hlt : r < right.rows.length := by simpa using hr
      simp [hlt]
  rw [map_swapBlocks_rowsByLeft hright, hrows, List.flatMap_map]
  congr 1
  funext r
  cases leftsOf ms r <;> rfl

/-- The pairs of an inner join are the same from either side. -/
theorem rowsByLeft_mirrored_perm (hright : right.Built) (h : ms.Between left right) :
    ((rowsByLeft right left false (ms.mirrored right)).map (swapBlocks right.width)).Perm
      (rowsByLeft left right false ms) := by
  have hlefts (r : Nat) : ((leftsOf ms r).map fun l => pairRow left right l r) =
      ms.zipIdx.flatMap fun m => (m.1.filter fun i => i == r).map (pairRow left right m.2) := by
    unfold leftsOf
    rw [List.map_flatMap]
    congr 1
    funext m
    rw [List.map_map]
    refine List.map_congr_left fun i hi => ?_
    obtain rfl : i = r := by simpa using (List.mem_filter.mp hi).2
    rfl
  have hplaces : ∀ m ∈ ms.zipIdx, ((List.range right.rows.length).flatMap fun r =>
      (m.1.filter fun i => i == r).map (pairRow left right m.2)).Perm
        (m.1.map (pairRow left right m.2)) := by
    intro m hm
    have hall : (m.1.filter fun i => decide (i < right.rows.length)) = m.1 := by
      refine List.filter_eq_self.mpr fun i hi => ?_
      exact decide_eq_true (h.bounded m.1 (List.fst_mem_of_mem_zipIdx hm) i hi)
    rw [← List.map_flatMap]
    exact ((flatMap_places_perm m.1 right.rows.length).trans (.of_eq hall)).map _
  rw [mirrored_eq_pairs hright, rowsByLeft_eq_pairs h.length_eq]
  simp only [hlefts]
  exact (flatMap_comm_perm _ _ _).trans (List.Perm.flatMap_left _ hplaces)

end Mirrored

section Filled

/-- A left join has the rows of the inner one, and once each the left rows that match nothing. -/
theorem rowsByLeft_perm (left right : Table) (ms : Matches) :
    (rowsByLeft left right true ms).Perm (rowsByLeft left right false ms ++
      (ms.loneLeft left).map fun l => l ++ nulls right) := by
  unfold rowsByLeft Matches.loneLeft
  induction left.rows.zip ms with
  | nil => exact .nil
  | cons p ps ih =>
    obtain ⟨row, ids⟩ := p
    simp only [List.flatMap_cons]
    cases ids with
    | nil => exact (ih.cons _).trans List.perm_middle.symm
    | cons id ids =>
      rw [List.append_assoc]
      exact ih.append_left _

/-- A right join has the rows of the inner one, and once each the right rows that nothing matches. -/
theorem rowsByRight_perm (hright : right.Built) (h : ms.Between left right) :
    (rowsByRight left right ms).Perm (rowsByLeft left right false ms ++
      (ms.loneRight right).map fun r => nulls left ++ r) := by
  have hlone : ((ms.loneRight right).map fun r => r ++ nulls left).map (swapBlocks right.width) =
      (ms.loneRight right).map fun r => nulls left ++ r := by
    rw [List.map_map]
    refine List.map_congr_left fun r hr => ?_
    obtain ⟨p, hp, rfl⟩ := List.mem_map.mp hr
    exact swapBlocks_append
      (hright.length_row _ (List.fst_mem_of_mem_zipIdx (List.mem_filter.mp hp).1)) _
  have hfilled := (rowsByLeft_perm right left (ms.mirrored right)).map (swapBlocks right.width)
  rw [List.map_append, loneLeft_mirrored, hlone] at hfilled
  rw [rowsByRight_eq_mirrored hright]
  exact hfilled.trans ((rowsByLeft_mirrored_perm hright h).append_right _)

theorem unmatchedRight_eq (left right : Table) (ms : Matches) :
    unmatchedRight left right ms = (ms.loneRight right).map fun r => nulls left ++ r := by
  unfold unmatchedRight Matches.loneRight
  rw [List.map_map]
  rfl

theorem leftRows_block (right : Table) (row : Row) (ids : List Nat) :
    (leftRows right true row ids).length = max 1 ids.length ∧
      ∀ r ∈ leftRows right true row ids, row <+: r := by
  cases ids with
  | nil => simp [leftRows]
  | cons id ids =>
    simp only [leftRows, List.isEmpty_cons, Bool.false_eq_true, if_false, List.length_map,
      List.length_cons, List.mem_map]
    refine ⟨by omega, ?_⟩
    rintro _ ⟨i, _, rfl⟩
    exact List.prefix_append _ _

end Filled

/-- For any matches of two tables, whatever their titles, all four kinds of join succeed. The inner join is
within the left and the right one, and these are within the full one. The left join has the pairs of the
inner one and, beside nulls, the left rows that match nothing, the right join likewise; the full join is the
left one and behind it the right rows that nothing matches. Each left row begins as many rows of the left
join as it has matches, but at least one. -/
theorem outer_joins_extend_inner {left right : Table} {ms : Matches} (hleft : left.Built)
    (hright : right.Built) (hms : ms.Between left right) :
    ∃ i l r f : Table, joined left right .inner ms = .ok i ∧ joined left right .left ms = .ok l ∧
      joined left right .right ms = .ok r ∧ joined left right .full ms = .ok f ∧
      (i.rows.Subperm l.rows ∧ i.rows.Subperm r.rows ∧ l.rows.Subperm f.rows ∧
        r.rows.Subperm f.rows) ∧
      (i.rows = (left.rows.zip ms).flatMap fun p => p.2.map fun id =>
        p.1 ++ (right.rows[id]?).getD []) ∧
      l.rows.Perm (i.rows ++ (ms.loneLeft left).map fun l => l ++ nulls right) ∧
      r.rows.Perm (i.rows ++ (ms.loneRight right).map fun r => nulls left ++ r) ∧
      f.rows = l.rows ++ (ms.loneRight right).map (fun r => nulls left ++ r) ∧
      ∃ blocks, l.rows = blocks.flatten ∧
        List.Forall₂ (fun p block => block.length = max 1 p.2.length ∧ ∀ row ∈ block, p.1 <+: row)
          (left.rows.zip ms) blocks := by
  have hl := rowsByLeft_perm left right ms
  have hr := rowsByRight_perm hright hms
  have hf : joinedRows left right .full ms = rowsByLeft left right true ms ++
      (ms.loneRight right).map fun r => nulls left ++ r := by
    rw [← unmatchedRight_eq]
    rfl
  have hil : (rowsByLeft left right false ms).Subperm (rowsByLeft left right true ms) :=
    (List.sublist_append_left _ _).subperm.trans hl.symm.subperm
  refine ⟨_, _, _, _, joined_eq_ok left right .inner ms, joined_eq_ok left right .left ms,
    joined_eq_ok left right .right ms, joined_eq_ok left right .full ms, ?_⟩
  simp only [joinedTable_rows_of_between hleft hright hms, hf]
  refine ⟨⟨hil, ?_, ?_, ?_⟩, ?_, hl, hr, rfl, ?_⟩
  · exact (List.sublist_append_left _ _).subperm.trans hr.symm.subperm
  · exact (List.sublist_append_left _ _).subperm
  · exact hr.subperm.trans ((List.subperm_append_right _).mpr hil)
  · simp only [joinedRows, rowsByLeft, leftRows_false]
  · refine ⟨(left.rows.zip ms).map fun p => leftRows right true p.1 p.2, ?_, ?_⟩
    · simp only [joinedRows, rowsByLeft, List.flatMap_def]
    · rw [List.forall₂_map_right_iff, List.forall₂_same]
      exact fun p _ => leftRows_block right p.1 p.2

/-- The tables share and repeat a title; one row of each has no match, and one left row has two. -/
theorem outer_joins_extend_inner_sameTitles :
    let left := Table.derived "T" ["A", "A"] [[.text "x", .number 1], [.text "y", .number 2]]
    let right := Table.derived "U" ["A"] [[.text "x"], [.text "z"], [.text "X"]]
    let ms : Matches := [[0, 2], []]
    left.Built ∧ right.Built ∧ ms.Between left right ∧
    ∃ i r f : Table, joined left right .inner ms = .ok i ∧ joined left right .right ms = .ok r ∧
      joined left right .full ms = .ok f ∧ i.rows.Subperm r.rows ∧ r.rows.Subperm f.rows ∧
      i.rows = [[.text "x", .number 1, .text "x"], [.text "x", .number 1, .text "X"]] ∧
      r.rows = [[.text "x", .number 1, .text "x"], [.null, .null, .text "z"],
        [.text "x", .number 1, .text "X"]] ∧
      f.rows = [[.text "x", .number 1, .text "x"], [.text "x", .number 1, .text "X"],
        [.text "y", .number 2, .null], [.null, .null, .text "z"]] := by
  intro left right ms
  have hleft : left.Built := .withSchema _ _ _ _
  have hright : right.Built := .withSchema _ _ _ _
  have hms : ms.Between left right := ⟨by decide, by decide⟩
  obtain ⟨i, l, r, f, hi, hl, hr, hf, ⟨_, hir, _, hrf⟩, _⟩ := outer_joins_extend_inner hleft hright hms
  refine ⟨hleft, hright, hms, i, r, f, hi, hr, hf, hir, hrf, ?_, ?_, ?_⟩
  · cases (joined_eq_ok left right .inner ms).symm.trans hi
    decide +kernel
  · cases (joined_eq_ok left right .right ms).symm.trans hr
    decide +kernel
  · cases (joined_eq_ok left right .full ms).symm.trans hf
    decide +kernel

end GridQuery
