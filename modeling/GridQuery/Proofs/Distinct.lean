import GridQuery.Proofs.InOrder
import GridQuery.Proofs.Locality
import GridQuery.Proofs.Rectangular
import GridQuery.Proofs.RowSets

/-!
What a distinct statement shows. Of groups that show the same it keeps the first, before `HAVING` is looked
at, and `HAVING` may see more of a group than it shows. Where it says the same of groups that show the same,
a statement with keys shows the same rows with `DISTINCT` and without.
-/

namespace GridQuery
set_option autoImplicit false

section Alike

/-- Each row that is like one of these is like one of those, and the other way around. -/
def SameSets (xs ys : List Row) : Prop :=
  ∀ row, xs.any (alike row) = ys.any (alike row)

theorem any_alike_iff {rows : List Row} {row : Row} :
    rows.any (alike row) = true ↔ ∃ r ∈ rows, r.signature = row.signature := by
  simp only [List.any_eq_true, alike, beq_iff_eq]
  exact exists_congr fun r => and_congr_right fun _ => eq_comm

/-- What is left out has the text of an earlier item. -/
theorem keepFirst_represents {α : Type} (text : α → String) {items : List α} (seen : List String)
    {a : α} (ha : a ∈ items) : text a ∈ seen ∨ ∃ b ∈ keepFirst text seen items, text b = text a := by
  induction items generalizing seen with
  | nil => cases ha
  | cons first items ih =>
    unfold keepFirst
    rcases List.mem_cons.mp ha with rfl | ha
    · by_cases hseen : text a ∈ seen
      · exact Or.inl hseen
      · rw [if_neg hseen]
        exact Or.inr ⟨a, List.mem_cons_self, rfl⟩
    · by_cases hseen : text first ∈ seen
      · rw [if_pos hseen]
        exact ih seen ha
      · rw [if_neg hseen]
        rcases ih (text first :: seen) ha with hmem | ⟨b, hb, he⟩
        · rcases List.mem_cons.mp hmem with he | hmem
          · exact Or.inr ⟨first, List.mem_cons_self, he.symm⟩
          · exact Or.inl hmem
        · exact Or.inr ⟨b, List.mem_cons_of_mem _ hb, he⟩

theorem any_alike_keepFirst (rows : List Row) (row : Row) :
    (keepFirst Row.signature [] rows).any (alike row) = rows.any (alike row) := by
  rw [Bool.eq_iff_iff, any_alike_iff, any_alike_iff]
  constructor
  · rintro ⟨r, hr, he⟩
    exact ⟨r, (keepFirst_sublist _ _ _).subset hr, he⟩
  · rintro ⟨r, hr, he⟩
    rcases keepFirst_represents Row.signature [] hr with hnone | ⟨b, hb, hb'⟩
    · cases hnone
    · exact ⟨b, hb, hb'.trans he⟩

theorem any_alike_filter (p : String → Bool) (rows : List Row) (row : Row) :
    (rows.filter fun r => p r.signature).any (alike row) = (p row.signature && rows.any (alike row)) := by
  rw [Bool.eq_iff_iff, Bool.and_eq_true, any_alike_iff, any_alike_iff]
  constructor
  · rintro ⟨r, hr, he⟩
    obtain ⟨hr, hp⟩ := List.mem_filter.mp hr
    exact ⟨he ▸ hp, r, hr, he⟩
  · rintro ⟨hp, r, hr, he⟩
    exact ⟨r, List.mem_filter.mpr ⟨hr, he.symm ▸ hp⟩, he⟩

/-- A set operation looks at the rows of its left operand as a set. -/
theorem SameSets.combineRows {xs ys : List Row} (h : SameSets xs ys) (op : SetOperator)
    (right : List Row) : SameSets (combineRows op xs right) (combineRows op ys right) := by
  intro row
  cases op with
  | unionAll => simp only [GridQuery.combineRows, List.any_append, h row]
  | union => simp only [GridQuery.combineRows, any_alike_keepFirst, List.any_append, h row]
  | intersect =>
    simp only [GridQuery.combineRows, any_alike_keepFirst]
    rw [any_alike_filter (fun s => (right.map Row.signature).contains s),
      any_alike_filter (fun s => (right.map Row.signature).contains s), h row]
  | except =>
    simp only [GridQuery.combineRows]
    rw [any_alike_filter (fun s => !(right.map Row.signature).contains s),
      any_alike_filter (fun s => !(right.map Row.signature).contains s), h row]

theorem repeatable_combineAll (world : World) (depth : Nat) (left : ResultSet)
    (operations : List SetOperation) :
    Repeatable (combineAll (runnerAt remembered world depth) left operations) := by
  have hsteps : ∀ o ∈ operations, repeating.rel ((runnerAt remembered world depth).run o.statement)
      ((runnerAt remembered world depth).run o.statement) :=
    fun o _ => repeatable_run world depth o.statement
  exact repeating.combineAll left hsteps

theorem sameSets_combineAll {world : World} {depth : Nat} {left left' r r' : ResultSet}
    {operations : List SetOperation} {memo : ResultMemo} (h : SameSets left.rows left'.rows)
    (hr : (combineAll (runnerAt remembered world depth) left operations).Settles memo r)
    (hr' : (combineAll (runnerAt remembered world depth) left' operations).Settles memo r') :
    SameSets r.rows r'.rows := by
  have hagain := repeatable_combineAll world depth
  induction operations generalizing left left' with
  | nil =>
    rw [Run.settles_pure.mp hr, Run.settles_pure.mp hr']
    exact h
  | cons o operations ih =>
    obtain ⟨right, hright, hr⟩ := (Run.settles_bind (repeatable_run world depth o.statement)
      fun _ => (Repeatable.of _).bind fun both _ => hagain both operations).mp hr
    obtain ⟨right', hright', hr'⟩ := (Run.settles_bind (repeatable_run world depth o.statement)
      fun _ => (Repeatable.of _).bind fun both _ => hagain both operations).mp hr'
    obtain ⟨both, hboth, hr⟩ := (Run.settles_bind (.of _) fun both => hagain both operations).mp hr
    obtain ⟨both', hboth', hr'⟩ := (Run.settles_bind (.of _) fun both => hagain both operations).mp hr'
    obtain rfl := hright.unique hright'
    rw [Run.settles_of, ResultSet.combine] at hboth hboth'
    split at hboth
    · split at hboth'
      · cases hboth
        cases hboth'
        exact ih (h.combineRows o.operator right.rows) hr hr'
      · cases hboth'
    · cases hboth

end Alike

section Verdicts

variable {σ : Type} {world : World} {runner : Runner σ}

/-- The table that `HAVING` is read on. -/
def havingTable (fields : Fields) (rows : List Row) : Table :=
  .withSchema "HAVING" (fields.map Field.title) rows fields.schema

/-- The groups of a statement with keys, and the numbers of those that `HAVING` keeps. -/
def verdicts (world : World) (runner : Runner σ) (s : Statement) :
    Run σ (Fields × List Row × List Nat) := do
  let t ← expanded world runner s
  let (plan, fields, cells) ← madeRows world runner t
  let groups := groupBy fields plan.groupKeys cells
  let ids ← Rows.matching ⟨world, havingTable fields groups, runner⟩ t.having
  pure (fields, groups, ids)

/-- `HAVING` keeps both or neither of two groups that show alike rows. -/
def HavingSeesShown (world : World) (depth : Nat) (s : Statement) (memo : ResultMemo) : Prop :=
  ∀ {fields : Fields} {groups : List Row} {ids : List Nat} {kept : ResultMemo},
    (verdicts world (runnerAt remembered world depth) s).Gives memo (fields, groups, ids) kept →
    ∀ {i j : Nat} {a b : Row}, groups[i]? = some a → groups[j]? = some b →
      alike (a.take fields.selectedCount) (b.take fields.selectedCount) = true → (i ∈ ids ↔ j ∈ ids)

variable {fields : Fields} {rows : List Row}

theorem havingTable_rows (hrows : ∀ row ∈ rows, row.length = fields.length) :
    (havingTable fields rows).rows = rows := by
  change rows.map (fitRow (fields.map Field.title).length) = rows
  conv => rhs; rw [← List.map_id rows]
  apply List.map_congr_left
  intro row hrow
  apply fitRow_eq_self
  rw [List.length_map]
  exact hrows row hrow

/-- The groups that `HAVING` keeps are those with the numbers that it selects. -/
theorem keepGroups_gives {having : Option Condition} {kept : List Row} {st st' : σ}
    (hrows : ∀ row ∈ rows, row.length = fields.length)
    (h : (keepGroups world runner fields rows having).Gives st kept st') :
    ∃ ids, (Rows.matching ⟨world, havingTable fields rows, runner⟩ having).Gives st ids st' ∧
      ∀ row, row ∈ kept ↔ ∃ i ∈ ids, rows[i]? = some row := by
  cases having with
  | none =>
    obtain ⟨rfl, rfl⟩ := Run.gives_pure.mp h
    refine ⟨List.range kept.length, ?_, ?_⟩
    · have hlength : (havingTable fields kept).rows.length = kept.length := by
        rw [havingTable_rows hrows]
      exact Run.gives_pure.mpr ⟨congrArg List.range hlength.symm, rfl⟩
    · intro row
      rw [List.mem_iff_getElem?]
      constructor
      · rintro ⟨i, hi⟩
        exact ⟨i, List.mem_range.mpr (List.getElem?_eq_some_iff.mp hi).1, hi⟩
      · rintro ⟨i, _, hi⟩
        exact ⟨i, hi⟩
  | some c =>
    obtain ⟨ids, mid, hids, h⟩ := Run.gives_bind.mp h
    obtain ⟨rfl, rfl⟩ := Run.gives_pure.mp h
    refine ⟨ids, hids, ?_⟩
    intro row
    change row ∈ ids.filterMap (fun i => (havingTable fields rows).rows[i]?) ↔ _
    rw [havingTable_rows hrows, List.mem_filterMap]

/-- Groups of the same cells are one group to `HAVING`, among whichever others they stand. -/
theorem having_local {depth : Nat} {memo : ResultMemo} {having : Option Condition}
    {groups others : List Row} (hgroups : ∀ row ∈ groups, row.length = fields.length)
    (hothers : ∀ row ∈ others, row.length = fields.length) {ids ids' : List Nat}
    (h : ((rowsAt world (havingTable fields groups) depth).matching having).Settles memo ids)
    (h' : ((rowsAt world (havingTable fields others) depth).matching having).Settles memo ids')
    {i j : Nat} {row : Row} (hi : groups[i]? = some row) (hj : others[j]? = some row) :
    i ∈ ids ↔ j ∈ ids' := by
  have hsame : (rowsAt world (havingTable fields groups) depth).SameRow
      (rowsAt world (havingTable fields others) depth) i j := by
    refine ⟨rfl, rfl, rfl, fun c => ?_⟩
    change (havingTable fields groups).cell i c = (havingTable fields others).cell j c
    rw [Table.cell, Table.cell, havingTable_rows hgroups, havingTable_rows hothers, hi, hj]
  apply mem_matching_local hsame h h'
  · rw [havingTable_rows hgroups]
    exact (List.getElem?_eq_some_iff.mp hi).1
  · rw [havingTable_rows hothers]
    exact (List.getElem?_eq_some_iff.mp hj).1

end Verdicts

section Plain

variable {σ : Type} {world : World} {runner : Runner σ} {s : Statement}

/-- A statement with keys and without a limit shows the groups that `HAVING` keeps of all, or of the first
of those that show the same. -/
theorem runPlain_groups {distinct : Bool} {r : ResultSet} {st st' : σ} (hgroups : s.groupBy ≠ [])
    (hlimit : s.limit = none) (h : (runPlain world runner { s with distinct }).Gives st r st') :
    ∃ plan fields cells mid ids, (madeRows world runner s).Gives st (plan, fields, cells) mid ∧
      let groups := groupBy fields plan.groupKeys cells
      let looked := if distinct then dropRepeats fields groups else groups
      (∀ row ∈ groups, row.length = fields.length) ∧
      (Rows.matching ⟨world, havingTable fields looked, runner⟩ s.having).Gives mid ids st' ∧
      r.titles = fields.titles ∧
      ∀ row, row ∈ r.rows ↔
        ∃ i ∈ ids, ∃ group, looked[i]? = some group ∧ row = group.take fields.selectedCount := by
  rw [runPlain_eq] at h
  obtain ⟨⟨plan, fields, cells⟩, mid, hmade, h⟩ := Run.gives_bind.mp h
  obtain ⟨kept, last, hkept, h⟩ := Run.gives_bind.mp h
  obtain ⟨rfl, rfl⟩ := Run.gives_pure.mp h
  have hmade : (madeRows world runner s).Gives st (plan, fields, cells) mid := hmade
  obtain ⟨_, _, _, hplan, _⟩ := madeRows_layout hmade
  have hkeys := layout_groupKeys_isEmpty hplan hgroups
  have hwidths : ∀ row ∈ groupBy fields plan.groupKeys cells, row.length = fields.length :=
    groupBy_length (madeRows_widths hmade).1
  have hlooked : grouped fields plan.groupKeys distinct cells =
      if distinct then dropRepeats fields (groupBy fields plan.groupKeys cells)
      else groupBy fields plan.groupKeys cells := by
    simp only [grouped, hkeys, Bool.false_and, Bool.false_eq_true, if_false]
  have hlookedWidths : ∀ row ∈ grouped fields plan.groupKeys distinct cells,
      row.length = fields.length := grouped_length (madeRows_widths hmade).1
  obtain ⟨ids, hids, hmem⟩ := keepGroups_gives hlookedWidths hkept
  rw [hlooked] at hids hmem
  refine ⟨plan, fields, cells, mid, ids, hmade, hwidths, hids, rfl, ?_⟩
  have hsorted := sortRows_perm plan.orderKeys kept
  intro row
  change row ∈ cut fields s.limit (sortRows plan.orderKeys kept) ↔ _
  rw [hlimit]
  change row ∈ (sortRows plan.orderKeys kept).map (fun g => g.take fields.selectedCount) ↔ _
  rw [List.mem_map]
  constructor
  · rintro ⟨g, hg, rfl⟩
    obtain ⟨i, hi, hrow⟩ := (hmem g).mp (hsorted.mem_iff.mp hg)
    exact ⟨i, hi, g, hrow, rfl⟩
  · rintro ⟨i, hi, g, hrow, rfl⟩
    exact ⟨g, hsorted.mem_iff.mpr ((hmem g).mpr ⟨i, hi, hrow⟩), rfl⟩

end Plain

section Repeats

variable {world : World} {depth : Nat} {memo : ResultMemo} {fields : Fields} {groups : List Row}

/-- Where `HAVING` sees what is shown, dropping repeats before it loses no row that it would keep. -/
theorem sameSets_dropRepeats {having : Option Condition} {ids ids' : List Nat} {xs ys : List Row}
    (hwidths : ∀ row ∈ groups, row.length = fields.length)
    (h : ((rowsAt world (havingTable fields (dropRepeats fields groups)) depth).matching
      having).Settles memo ids)
    (h' : ((rowsAt world (havingTable fields groups) depth).matching having).Settles memo ids')
    (hseen : ∀ {i j : Nat} {a b : Row}, groups[i]? = some a → groups[j]? = some b →
      alike (a.take fields.selectedCount) (b.take fields.selectedCount) = true → (i ∈ ids' ↔ j ∈ ids'))
    (hxs : ∀ row, row ∈ xs ↔ ∃ i ∈ ids, ∃ group, (dropRepeats fields groups)[i]? = some group ∧
      row = group.take fields.selectedCount)
    (hys : ∀ row, row ∈ ys ↔ ∃ i ∈ ids', ∃ group, groups[i]? = some group ∧
      row = group.take fields.selectedCount) : SameSets xs ys := by
  have hsub : (dropRepeats fields groups).Sublist groups := keepFirst_sublist _ _ _
  have hfirstWidths : ∀ row ∈ dropRepeats fields groups, row.length = fields.length :=
    fun row hrow => hwidths row (hsub.subset hrow)
  intro row
  rw [Bool.eq_iff_iff, any_alike_iff, any_alike_iff]
  constructor
  · rintro ⟨_, hx, he⟩
    obtain ⟨i, hi, group, hgroup, rfl⟩ := (hxs _).mp hx
    obtain ⟨j, hj⟩ := List.mem_iff_getElem?.mp (hsub.subset (List.mem_of_getElem? hgroup))
    have hkept : j ∈ ids' := (having_local hfirstWidths hwidths h h' hgroup hj).mp hi
    exact ⟨_, (hys _).mpr ⟨j, hkept, group, hj, rfl⟩, he⟩
  · rintro ⟨_, hy, he⟩
    obtain ⟨j, hj, group, hgroup, rfl⟩ := (hys _).mp hy
    rcases keepFirst_represents (fun row => Row.signature (row.take fields.selectedCount)) []
      (List.mem_of_getElem? hgroup) with hnone | ⟨first, hfirst, hsame⟩
    · cases hnone
    · obtain ⟨i, hi⟩ := List.mem_iff_getElem?.mp hfirst
      obtain ⟨k, hk⟩ := List.mem_iff_getElem?.mp (hsub.subset hfirst)
      -- the group that stands for this one is kept as this one is, among all groups and alone
      have hall : k ∈ ids' := (hseen hk hgroup (beq_iff_eq.mpr hsame)).mpr hj
      have hkept : i ∈ ids := (having_local hfirstWidths hwidths h h' hi hk).mpr hall
      exact ⟨_, (hxs _).mpr ⟨i, hkept, first, hi, rfl⟩, hsame.trans he⟩

/-- On rows of one width whose texts come apart in one way, sets of rows are the same cell by cell. -/
theorem SameSets.byCells {xs ys : List Row} {width : Nat} (h : SameSets xs ys)
    (hxs : ∀ row ∈ xs, row.length = width ∧ Separable row)
    (hys : ∀ row ∈ ys, row.length = width ∧ Separable row) (row : Row) :
    xs.any (alikeByCells row) = ys.any (alikeByCells row) := by
  have hone {xs ys : List Row} (h : SameSets xs ys)
      (hxs : ∀ row ∈ xs, row.length = width ∧ Separable row)
      (hys : ∀ row ∈ ys, row.length = width ∧ Separable row)
      (hrow : xs.any (alikeByCells row) = true) : ys.any (alikeByCells row) = true := by
    obtain ⟨x, hx, hcells⟩ := List.any_eq_true.mp hrow
    have hself : xs.any (alike x) = true := any_alike_iff.mpr ⟨x, hx, rfl⟩
    rw [h x] at hself
    obtain ⟨y, hy, hlike⟩ := List.any_eq_true.mp hself
    obtain ⟨hxwidth, hxparts⟩ := hxs x hx
    obtain ⟨hywidth, hyparts⟩ := hys y hy
    rw [alike_eq_alikeByCells (hxwidth.trans hywidth.symm) hxparts hyparts] at hlike
    unfold alikeByCells at hcells hlike
    rw [beq_iff_eq] at hcells hlike
    refine List.any_eq_true.mpr ⟨y, hy, ?_⟩
    unfold alikeByCells
    rw [beq_iff_eq, hcells, hlike]
  have hback : SameSets ys xs := fun row => (h row).symm
  rw [Bool.eq_iff_iff]
  exact ⟨hone h hxs hys, hone hback hys hxs⟩

end Repeats

/-- What a statement with keys and without a limit runs, with `DISTINCT` or without. -/
theorem run_groups {world : World} {depth : Nat} {s : Statement} {distinct : Bool} {r : ResultSet}
    {memo kept : ResultMemo} (hgroups : s.groupBy ≠ []) (hlimit : s.limit = none)
    (h : (run remembered world (depth + 1) { s with distinct }).Gives memo r kept) :
    ∃ t start plan fields cells mid ids left last,
      (expanded world (runnerAt remembered world depth) s).Gives memo t start ∧
      (madeRows world (runnerAt remembered world depth) t).Gives start (plan, fields, cells) mid ∧
      let groups := groupBy fields plan.groupKeys cells
      let looked := if distinct then dropRepeats fields groups else groups
      (∀ row ∈ groups, row.length = fields.length) ∧
      ((rowsAt world (havingTable fields looked) depth).matching t.having).Gives mid ids last ∧
      left.titles = fields.titles ∧
      (∀ row, row ∈ left.rows ↔
        ∃ i ∈ ids, ∃ group, looked[i]? = some group ∧ row = group.take fields.selectedCount) ∧
      (combineAll (runnerAt remembered world depth) left s.operations).Gives last r kept := by
  change (runWith world (runnerAt remembered world depth) { s with distinct }).Gives memo r kept at h
  obtain ⟨left, last, hleft, hcombine⟩ := Run.gives_bind.mp h
  rw [runPivot_eq, expanded_distinct, bind_assoc] at hleft
  obtain ⟨t, start, ht, hleft⟩ := Run.gives_bind.mp hleft
  rw [pure_bind] at hleft
  obtain ⟨items, pivot, hexpanded⟩ := expanded_gives ht
  have htgroups : t.groupBy ≠ [] := by
    rw [hexpanded]
    exact hgroups
  have htlimit : t.limit = none := by
    rw [hexpanded]
    exact hlimit
  obtain ⟨plan, fields, cells, mid, ids, hmade, hwidths, hids, htitles, hrows⟩ :=
    runPlain_groups htgroups htlimit hleft
  exact ⟨t, start, plan, fields, cells, mid, ids, left, last, ht, hmade, hwidths, hids, htitles, hrows,
    hcombine⟩

/-- A statement with keys and without a limit shows the same rows with `DISTINCT` and without, if `HAVING`
says the same of groups that show the same. Rows are the same by their joined texts; where these come apart
in one way, cell by cell. -/
theorem distinct_shows_same {world : World} {depth : Nat} {s : Statement} {memo keptD keptN : ResultMemo}
    {rD rN : ResultSet} (hgroups : s.groupBy ≠ []) (hlimit : s.limit = none)
    (hD : (run remembered world (depth + 1) { s with distinct := true }).Gives memo rD keptD)
    (hN : (run remembered world (depth + 1) { s with distinct := false }).Gives memo rN keptN)
    (hagree : keptD.Agree keptN) (hseen : HavingSeesShown world depth s memo) :
    (∀ row, rD.rows.any (alike row) = rN.rows.any (alike row)) ∧
    ((∀ row ∈ rD.rows ++ rN.rows, Separable row) →
      ∀ row, rD.rows.any (alikeByCells row) = rN.rows.any (alikeByCells row)) := by
  obtain ⟨t, start, plan, fields, cells, mid, idsD, leftD, lastD, ht, hmade, hwidths, hidsD, htitlesD,
    hrowsD, hcombineD⟩ := run_groups hgroups hlimit hD
  obtain ⟨t', start', plan', fields', cells', mid', idsN, leftN, lastN, ht', hmade', _, hidsN, htitlesN,
    hrowsN, hcombineN⟩ := run_groups hgroups hlimit hN
  obtain ⟨rfl, rfl⟩ := ht.unique ht'
  obtain ⟨hsame, rfl⟩ := hmade.unique hmade'
  obtain ⟨rfl, rfl, rfl⟩ : plan = plan' ∧ fields = fields' ∧ cells = cells' := by simpa using hsame
  simp only [if_true, Bool.false_eq_true, if_false] at hidsD hidsN hrowsD hrowsN
  have hverdicts : (verdicts world (runnerAt remembered world depth) s).Gives memo
      (fields, groupBy fields plan.groupKeys cells, idsN) lastN :=
    Run.gives_bind.mpr ⟨t, start, ht, Run.gives_bind.mpr ⟨_, mid, hmade,
      Run.gives_bind.mpr ⟨idsN, lastN, hidsN, Run.gives_pure.mpr ⟨rfl, rfl⟩⟩⟩⟩
  -- from here on both runs are looked at on what the two of them kept
  have hagain (left : ResultSet) := repeatable_combineAll world depth left s.operations
  have hmatching (table : Table) : Repeatable ((rowsAt world table depth).matching t.having) :=
    Lockstep.matching (repeating_reads world depth) (fun _ _ _ _ => trivial) fun _ _ _ _ => trivial
  have hkeptD : keptD.KeptIn (keptD ++ keptN) := ResultMemo.keptIn_append_left keptD keptN
  have hkeptN : keptN.KeptIn (keptD ++ keptN) := hagree.keptIn_append_right
  have hsettledD := (hmatching _).again hidsD (((hagain leftD).grows_of_gives hcombineD).trans hkeptD)
  have hsettledN := (hmatching _).again hidsN (((hagain leftN).grows_of_gives hcombineN).trans hkeptN)
  have hleft : SameSets leftD.rows leftN.rows :=
    sameSets_dropRepeats hwidths hsettledD hsettledN (hseen hverdicts) hrowsD hrowsN
  have hresult : SameSets rD.rows rN.rows := sameSets_combineAll hleft
    ((hagain leftD).again hcombineD hkeptD) ((hagain leftN).again hcombineN hkeptN)
  refine ⟨hresult, fun hparts => ?_⟩
  have htitles : rN.titles = rD.titles := by
    rw [combineAll_titles hcombineD, combineAll_titles hcombineN, htitlesD, htitlesN]
  apply hresult.byCells
  · intro row hrow
    exact ⟨run_even hD row hrow, hparts row (List.mem_append_left _ hrow)⟩
  · intro row hrow
    rw [← htitles]
    exact ⟨run_even hN row hrow, hparts row (List.mem_append_right _ hrow)⟩

/-- Without `HAVING` all groups are kept. -/
theorem havingSeesShown_of_none (world : World) (depth : Nat) {s : Statement} (memo : ResultMemo)
    (h : s.having = none) : HavingSeesShown world depth s memo := by
  intro fields groups ids kept hverdicts i j a b hi hj _
  obtain ⟨t, _, ht, hverdicts⟩ := Run.gives_bind.mp hverdicts
  obtain ⟨⟨plan, fields', cells⟩, _, hmade, hverdicts⟩ := Run.gives_bind.mp hverdicts
  obtain ⟨ids', _, hids, hverdicts⟩ := Run.gives_bind.mp hverdicts
  obtain ⟨rfl, rfl, rfl⟩ : fields = fields' ∧ groups = groupBy fields' plan.groupKeys cells ∧ ids = ids' := by
    simpa using (Run.gives_pure.mp hverdicts).1
  obtain ⟨items, pivot, rfl⟩ := expanded_gives ht
  simp only [h] at hids
  have hall : ids = List.range (havingTable fields (groupBy fields plan.groupKeys cells)).rows.length :=
    (Run.gives_pure.mp hids).1
  rw [havingTable_rows (groupBy_length (madeRows_widths hmade).1)] at hall
  have hin {k : Nat} {row : Row} (hk : (groupBy fields plan.groupKeys cells)[k]? = some row) : k ∈ ids := by
    rw [hall]
    exact List.mem_range.mpr (List.getElem?_eq_some_iff.mp hk).1
  exact iff_of_true (hin hi) (hin hj)

/-- Two groups that show the same and have another number. -/
def twiceWorld : World :=
  ⟨.ofList [.derived "T" ["A", "B"] [[.text "x", .number 1], [.text "x", .number 2]]], .empty,
    .midnight ⟨2020, 1, 1⟩⟩

/-- `SELECT A FROM T GROUP BY A, B` -/
def bothGroups : Statement :=
  ⟨false, [⟨.column none "A", "A", none⟩], .table "T" none, [], none,
    [.column none "A", .column none "B"], none, [], none, none, []⟩

theorem distinct_shows_same_bothGroups :
    bothGroups.groupBy ≠ [] ∧ bothGroups.limit = none ∧ HavingSeesShown twiceWorld 0 bothGroups [] ∧
    (run remembered twiceWorld 1 { bothGroups with distinct := true }).Gives []
      ⟨["A"], [[.text "x"]]⟩ [] ∧
    (run remembered twiceWorld 1 { bothGroups with distinct := false }).Gives []
      ⟨["A"], [[.text "x"], [.text "x"]]⟩ [] ∧
    ∀ row, [[Cell.text "x"]].any (alikeByCells row) =
      [[Cell.text "x"], [Cell.text "x"]].any (alikeByCells row) := by
  have hgroups : bothGroups.groupBy ≠ [] := by simp [bothGroups]
  have hseen : HavingSeesShown twiceWorld 0 bothGroups [] := havingSeesShown_of_none twiceWorld 0 [] rfl
  have hD := run_of_inOrder rfl rfl (by decide +kernel :
    (runInOrder twiceWorld (runnerAt remembered twiceWorld 0) { bothGroups with distinct := true }).Gives
      [] (some ⟨["A"], [[.text "x"]]⟩) [])
  have hN := run_of_inOrder rfl rfl (by decide +kernel :
    (runInOrder twiceWorld (runnerAt remembered twiceWorld 0) { bothGroups with distinct := false }).Gives
      [] (some ⟨["A"], [[.text "x"], [.text "x"]]⟩) [])
  have hagree := (ResultMemo.KeptIn.refl []).agree
  have hsame := (distinct_shows_same hgroups rfl hD hN hagree hseen).2 (by decide +kernel)
  exact ⟨hgroups, rfl, hseen, hD, hN, hsame⟩

/-- `SELECT A FROM T GROUP BY A, B HAVING B > 1` -/
def secondGroup : Statement :=
  { bothGroups with having := some (.compare .gt (.column none "B") (.literal (.number 1))) }

/-- `HAVING` sees a number that the groups do not show: it would keep the second group, and the first one
stands for both. -/
theorem distinct_hides_kept_group :
    execute twiceWorld { secondGroup with distinct := false } = .ok ⟨["A"], [[.text "x"]]⟩ ∧
    execute twiceWorld { secondGroup with distinct := true } = .ok ⟨["A"], []⟩ := by
  constructor
  · exact execute_of_run (by decide +kernel) (by decide +kernel) (run_of_inOrder rfl rfl (by decide +kernel :
      (runInOrder twiceWorld (runnerAt remembered twiceWorld 0)
        { secondGroup with distinct := false }).Gives [] (some ⟨["A"], [[.text "x"]]⟩) []))
  · exact execute_of_run (by decide +kernel) (by decide +kernel) (run_of_inOrder rfl rfl (by decide +kernel :
      (runInOrder twiceWorld (runnerAt remembered twiceWorld 0)
        { secondGroup with distinct := true }).Gives [] (some ⟨["A"], []⟩) []))

end GridQuery
