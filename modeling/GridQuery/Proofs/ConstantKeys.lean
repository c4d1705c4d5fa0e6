import GridQuery.Proofs.ConstantFields
import GridQuery.Proofs.NamedTables

/-!
Constants as keys. Binding leaves a constant where a key was an outer column. As long as the constant is no
number, and its text names nothing else, ordering by it changes nothing, and grouping by it alone makes one group
of all rows. A number is the place of an item instead.
-/

namespace GridQuery
set_option autoImplicit false

/-! ### Groups and orders by one cell -/

section Constant

variable {fields : Fields} {rows : List Row} {slot : Nat} {c : Cell}

theorem compress_constant (hslot : slot < fields.length) (hplain : (fields[slot]?).bind Field.aggregate = none)
    (hrows : ∀ row ∈ rows, row[slot]? = some c) : (compress fields rows)[slot]? = some (groupedCell c rows) := by
  have hfold (first : Cell) : foldedCell fields rows first slot = first := by
    unfold foldedCell
    rw [hplain]
  unfold compress
  simp only [List.getElem?_map, List.getElem?_zipIdx, Option.map_map, Nat.zero_add, Function.comp_def, hfold]
  cases rows with
  | nil => simp [hslot, groupedCell]
  | cons row rest => simp [hrows row List.mem_cons_self, groupedCell]

/-- A field with the same cell in all rows has one cell in all groups, too. -/
theorem grouped_constant (hslot : slot < fields.length) (hplain : (fields[slot]?).bind Field.aggregate = none)
    (hrows : ∀ row ∈ rows, row[slot]? = some c) (keys : List Nat) (distinct : Bool) :
    ∀ row ∈ grouped fields keys distinct rows, row[slot]? = some (groupedCell c rows) := by
  have hgroups (keys : List Nat) : ∀ row ∈ groupBy fields keys rows, row[slot]? = some (groupedCell c rows) := by
    intro row hrow
    obtain ⟨run, hrun, rfl⟩ := List.mem_map.mp hrow
    obtain ⟨first, rest, rfl, _⟩ := runs_eq_cons hrun
    have hin : ∀ r ∈ first :: rest, r ∈ rows := fun r hr => List.mem_mergeSort.mp (mem_of_mem_runs hrun hr)
    obtain ⟨a, others, rfl⟩ := List.exists_cons_of_ne_nil (List.ne_nil_of_mem (hin first List.mem_cons_self))
    exact compress_constant hslot hplain fun r hr => hrows r (hin r hr)
  intro row hrow
  unfold grouped at hrow
  split at hrow
  · rw [List.mem_singleton.mp hrow]
    exact compress_constant hslot hplain hrows
  · split at hrow
    · obtain ⟨a, others, rfl⟩ := List.exists_cons_of_ne_nil (List.ne_nil_of_mem hrow)
      exact hrows row hrow
    · simp only at hrow
      split at hrow
      · exact hgroups _ row ((keepFirst_sublist _ _ _).subset hrow)
      · exact hgroups _ row hrow

/-- Grouped by a field with the same cell in all of them, rows are one group. -/
theorem grouped_by_constant (hrows : ∀ row ∈ rows, row[slot]? = some c) (distinct : Bool) :
    grouped fields [slot] distinct rows = if rows = [] then [] else [compress fields rows] := by
  have hsame : ∀ a ∈ rows, ∀ b ∈ rows, compareKeys a b [slot] = .eq := by
    intro a ha b hb
    simp only [compareKeys, compareSlot, hrows a ha, hrows b hb, Cell.sortOrder_self]
    rfl
  have hsort : sortByKeys [slot] rows = rows := by
    apply List.mergeSort_of_pairwise
    refine List.Pairwise.imp_of_mem (R := fun _ _ => True) (fun ha hb _ => ?_) (List.pairwise_of_forall fun _ _ => trivial)
    rw [hsame _ ha _ hb]
    rfl
  have hgroups : groupBy fields [slot] rows = if rows = [] then [] else [compress fields rows] := by
    unfold groupBy
    rw [hsort]
    cases rows with
    | nil => rw [runs, List.map_nil, if_pos rfl]
    | cons row rest =>
      have hall : ∀ r ∈ rest, decide (compareKeys row r [slot] = .eq) = true := fun r hr =>
        decide_eq_true (hsame row List.mem_cons_self r (List.mem_cons_of_mem row hr))
      rw [runs, List.takeWhile_eq_self_iff.mpr hall, List.dropWhile_eq_nil_iff.mpr hall, runs,
        if_neg (List.cons_ne_nil _ _)]
      rfl
  simp only [grouped, List.isEmpty_cons, Bool.false_and, Bool.false_eq_true, if_false, hgroups]
  cases distinct with
  | false => rfl
  | true =>
    by_cases hempty : rows = []
    · simp [hempty, dropRepeats, keepFirst]
    · simp [hempty, dropRepeats, keepFirst]

/-- Keys of a slot with one cell in all rows may come and go. -/
theorem sortRows_constant {x : Cell} (hrows : ∀ row ∈ rows, row[slot]? = some x)
    {keys more : List (Nat × Direction)}
    (hkeys : (more.filter fun key => key.1 != slot) = keys.filter fun key => key.1 != slot) :
    sortRows more rows = sortRows keys rows := by
  have hsort : sortRows more (rows.map id) = (sortRows keys rows).map id := sortRows_map fun a ha b hb => by
    have hsame : a[slot]? = b[slot]? := (hrows a ha).trans (hrows b hb).symm
    rw [id, id, ← compareRows_filter hsame more, hkeys, compareRows_filter hsame keys]
  rwa [List.map_id, List.map_id] at hsort

theorem sortRows_insertIdx {p : Nat} {x : Cell} (hrows : ∀ row ∈ rows, p ≤ row.length)
    {keys more : List (Nat × Direction)}
    (hkeys : (more.filter fun key => key.1 != p) = keys.map fun key => (movedIndex p key.1, key.2)) :
    sortRows more (rows.map fun row => row.insertIdx p x) =
      (sortRows keys rows).map fun row => row.insertIdx p x := by
  have hmoved (a b : Row) (keys : List (Nat × Direction)) :
      compareRows (a.insertIdx p x) (b.insertIdx p x) (keys.map fun key => (movedIndex p key.1, key.2)) =
        compareRows a b keys := by
    induction keys with
    | nil => rfl
    | cons key keys ih =>
      rw [List.map_cons, compareRows, compareRows, ih, compareSlot, compareSlot, getElem?_movedIndex,
        getElem?_movedIndex]
  refine sortRows_map fun a ha b hb => ?_
  have hsame : (a.insertIdx p x)[p]? = (b.insertIdx p x)[p]? := by
    rw [getElem?_inserted (hrows a ha), getElem?_inserted (hrows b hb)]
  rw [← compareRows_filter hsame more, hkeys, hmoved]

end Constant

/-! ### Runs with a constant in the order -/

section Runs

variable {σ : Type} {world : World} {runner : Runner σ} {s : Statement} {c : Cell} {st : σ}

/-- What a statement does with its sources once it is planned. -/
def finished (world : World) (runner : Runner σ) (s : Statement) (first : Table) (others : List Table)
    (plan : Layout) : Run σ ResultSet := do
  let (working, fields) ← joinFrom world runner 1 first plan.fields s.joins others
  let rows : Rows σ := ⟨world, working, runner⟩
  let ids ← rows.matching s.filter
  let formulas ← Run.of (rows.scope.fieldFormulas [] fields)
  let cells ← rows.cells formulas ids
  let groups ← keepGroups world runner fields (grouped fields plan.groupKeys s.distinct cells) s.having
  pure ⟨fields.titles, cut fields s.limit (sortRows plan.orderKeys groups)⟩

theorem runPlain_eq_finished (world : World) (runner : Runner σ) (s : Statement) :
    runPlain world runner s = (do
      let first ← sourceTable world runner s.source
      let others ← sourceTables world runner s.joins
      let plan ← Run.of (layout (first :: others) s)
      finished world runner s first others plan) := rfl

/-- Joins leave a field that is no column where it is. -/
theorem joinFrom_insertIdx {f : Field} (hf : ∀ source column, f.kind ≠ .column source column) (p position : Nat)
    (working : Table) (fields : Fields) (joins : List JoinClause) (sources : List Table) :
    joinFrom world runner position working (fields.insertIdx p f) joins sources = (do
      let (t, pointed) ← joinFrom world runner position working fields joins sources
      pure (t, pointed.insertIdx p f)) := by
  induction joins generalizing position working fields sources with
  | nil => simp only [joinFrom, pure_bind]
  | cons j joins ih =>
    cases sources with
    | nil => exact (throw_bind _ _).symm
    | cons right sources =>
      have hrepoint : Fields.repoint (fields.insertIdx p f) position working.width =
          (fields.repoint position working.width).insertIdx p f := by
        unfold Fields.repoint
        rw [List.map_insertIdx]
        congr 1
        split
        · exact absurd ‹_› (hf _ _)
        · rfl
      simp only [joinFrom, hrepoint, ih, bind_assoc]

theorem mem_of_mem_keepGroups {fields : Fields} {rows kept : List Row} {having : Option Condition} {st' : σ}
    (hrows : ∀ row ∈ rows, row.length = fields.length)
    (h : (keepGroups world runner fields rows having).Gives st kept st') : kept ⊆ rows := by
  obtain ⟨ids, _, hkept⟩ := keepGroups_gives hrows h
  intro row hrow
  obtain ⟨i, _, hi⟩ := (hkept row).mp hrow
  exact List.mem_of_getElem? hi

/-- What joins leave of the fields that a plan has. -/
theorem pointed_of_plan {first working : Table} {others : List Table} {joins : List JoinClause}
    {fields pointed : Fields} {st' : σ} (hname : fields.KeepName c)
    (h : (joinFrom world runner 1 first fields joins others).Gives st (working, pointed) st') :
    pointed.length = fields.length ∧ (∀ f ∈ pointed, Scope.WrittenAlone c f) ∧
      pointed.map Field.kind = fields.map Field.kind ∧ pointed.map Field.aggregate = fields.map Field.aggregate ∧
      pointed.map Field.temporary = fields.map Field.temporary := by
  have hunpointed := joinFrom_unpointed h
  have hkinds : pointed.map Field.kind = fields.map Field.kind := map_eq_of_unpointed hunpointed fun _ => rfl
  refine ⟨by simpa using congrArg List.length hunpointed, fun f hf e hkind htext => ?_, hkinds,
    map_eq_of_unpointed hunpointed fun _ => rfl, map_eq_of_unpointed hunpointed fun _ => rfl⟩
  have hmem : FieldKind.calculated e ∈ fields.map Field.kind := hkinds ▸ hkind ▸ List.mem_map_of_mem hf
  obtain ⟨g, hg, hgkind⟩ := List.mem_map.mp hmem
  exact hname.written g hg e hgkind htext

/-- Further keys of a slot whose field is a constant do not change what a statement comes to. -/
theorem finished_there {first : Table} {others : List Table} {plan : Layout} {slot : Nat}
    {more : List (Nat × Direction)} (hname : plan.fields.KeepName c)
    (hfound : plan.fields.findSpelling? c.constantName = some slot)
    (hkeys : (more.filter fun key => key.1 != slot) = plan.orderKeys.filter fun key => key.1 != slot) :
    (finished world runner s first others { plan with orderKeys := more }).run st =
      (finished world runner s first others plan).run st := by
  obtain ⟨hslot, hspelled, _⟩ := List.findIdx?_eq_some_iff_getElem.mp hfound
  obtain ⟨hkind, hplain⟩ := hname.spelled _ (List.getElem_mem hslot) hspelled
  refine Run.run_bind_congr (m := joinFrom world runner 1 first plan.fields s.joins others)
    fun (working, pointed) mid hjoined => ?_
  obtain ⟨hlength, hwritten, hkinds, haggregates, _⟩ := pointed_of_plan hname hjoined
  have hslot' : slot < pointed.length := hlength ▸ hslot
  have hkind' : (pointed[slot]?).map Field.kind = some (.calculated (.literal c)) := by
    rw [← List.getElem?_map, hkinds, List.getElem?_map, List.getElem?_eq_getElem hslot, Option.map_some, hkind]
  have hplain' : (pointed[slot]?).bind Field.aggregate = none := by
    have haggregate : (pointed[slot]?).map Field.aggregate = some none := by
      rw [← List.getElem?_map, haggregates, List.getElem?_map, List.getElem?_eq_getElem hslot, Option.map_some,
        hplain]
    rw [List.getElem?_eq_getElem hslot'] at haggregate ⊢
    exact Option.some.inj haggregate
  refine Run.run_bind_congr fun ids mid _ => Run.run_bind_congr fun formulas mid hformulas => ?_
  have hformulas := (Run.gives_of.mp hformulas).1
  have hconst := Scope.fieldFormulas_constant (Scope.remembersConstant_nil c) hwritten hformulas hkind'
  refine Run.run_bind_congr fun cells mid hcells => Run.run_bind_congr fun groups mid hgroups => ?_
  have hcell := grouped_constant hslot' hplain' (Rows.cells_constant hconst hcells) plan.groupKeys s.distinct
  have hwidths : ∀ row ∈ cells, row.length = pointed.length := fun row hrow =>
    (Rows.cells_length hcells row hrow).trans (Scope.fieldFormulas_length hformulas)
  have hkept := mem_of_mem_keepGroups (grouped_length hwidths) hgroups
  simp only [sortRows_constant (fun row hrow => hcell row (hkept hrow)) hkeys]

/-- A further hidden field for a constant, and keys of its slot, do not change what a statement comes to, unless
`HAVING` looks that field up. -/
theorem finished_added {first : Table} {others : List Table} {plan : Layout} {p : Nat}
    {more : List (Nat × Direction)} (hname : plan.fields.KeepName c) (hp : p ≤ plan.fields.length)
    (hbehind : ∀ f ∈ plan.fields.drop p, f.temporary = true) (hgroups : ∀ k ∈ plan.groupKeys, k < p)
    (hkeys : (more.filter fun key => key.1 != p) = plan.orderKeys.map fun key => (movedIndex p key.1, key.2))
    (hhaving : ∀ h, s.having = some h → ∀ name, h.LooksUp world.tables name →
      (constantField c).isNamed name = false) :
    (finished world runner s first others
        ⟨plan.fields.insertIdx p (constantField c), plan.groupKeys, more⟩).run st =
      (finished world runner s first others plan).run st := by
  unfold finished
  simp only [joinFrom_insertIdx (f := constantField c) (fun _ _ h => by cases h), bind_assoc, pure_bind]
  refine Run.run_bind_congr fun (working, pointed) mid hjoined => ?_
  obtain ⟨hlength, hwritten, _, _, htemporary⟩ := pointed_of_plan hname hjoined
  have hp' : p ≤ pointed.length := hlength ▸ hp
  have hbehind' : ∀ f ∈ pointed.drop p, f.temporary = true := by
    have hdrop := congrArg (List.drop p) htemporary
    rw [← List.map_drop, ← List.map_drop] at hdrop
    intro f hf
    have hmem : f.temporary ∈ (plan.fields.drop p).map Field.temporary := hdrop ▸ List.mem_map_of_mem hf
    obtain ⟨g, hg, hsame⟩ := List.mem_map.mp hmem
    exact hsame ▸ hbehind g hg
  refine Run.run_bind_congr fun ids mid _ => ?_
  simp only [Scope.fieldFormulas_insertIdx hp' (Scope.remembersConstant_nil c) hwritten]
  cases hformulas : Scope.fieldFormulas _ [] pointed with
  | error e => rfl
  | ok formulas =>
    have hp'' : p ≤ formulas.length := (Scope.fieldFormulas_length hformulas).symm ▸ hp'
    simp only [Except.map, Run.of, pure_bind, Rows.cells_insertIdx hp'', bind_assoc]
    refine Run.run_bind_congr fun cells mid hcells => ?_
    have hwidths : ∀ row ∈ cells, row.length = pointed.length := fun row hrow =>
      (Rows.cells_length hcells row hrow).trans (Scope.fieldFormulas_length hformulas)
    have hgrouped := grouped_insertIdx (f := constantField c) (x := c) hp' rfl rfl hbehind' hgroups hwidths
      s.distinct
    simp only [hgrouped, keepGroups_insertIdx hp' (grouped_length hwidths) _ hhaving, bind_assoc, pure_bind]
    refine Run.run_bind_congr fun groups mid hkept => ?_
    have hgroupWidths := keepGroups_length (grouped_length hwidths) hkept
    obtain ⟨hshown, _⟩ := shown_lt hp' hbehind'
    rw [sortRows_insertIdx (fun row hrow => (hgroupWidths row hrow).symm ▸ hp') hkeys,
      Fields.titles_insertIdx rfl]
    simp only [cut, Fields.selectedCount_insertIdx (f := constantField c) rfl, List.map_map, Function.comp_def,
      List.take_insertIdx_eq_take_of_le _ _ _ _ hshown]

theorem finished_padded {first : Table} {others : List Table} {plan plan' : Layout} {start : Nat}
    (hname : plan.fields.KeepName c) (hgroups : plan'.groupKeys = plan.groupKeys)
    (hpadded : Fields.Padded c start plan.orderKeys plan.fields plan'.orderKeys plan'.fields)
    (hstart : ∀ k ∈ plan.groupKeys, k < start) (hbehind : ∀ f ∈ plan.fields.drop start, f.temporary = true)
    (hhaving : ∀ h, s.having = some h → ∀ name, h.LooksUp world.tables name →
      (constantField c).isNamed name = false) :
    (finished world runner s first others plan').run st = (finished world runner s first others plan).run st := by
  obtain ⟨fields', groupKeys', keys'⟩ := plan'
  simp only at hgroups hpadded
  subst hgroups
  cases hpadded with
  | same => rfl
  | there hfound hkeys => exact finished_there hname hfound hkeys
  | @added p _ hle hp hkeys =>
    refine finished_added hname hp (fun f hf => hbehind f ?_) (fun k hk => Nat.lt_of_lt_of_le (hstart k hk) hle)
      hkeys hhaving
    exact (List.drop_sublist_drop_left plan.fields hle).subset hf

/-- Where the name of a constant means that constant among the fields, a statement runs as without the entries of
the constant in its order. -/
theorem runPlain_without (hnumber : ∀ x, c ≠ .number x)
    (horders : ∀ o ∈ s.orderBy, o.expr ≠ .literal c → c.constantName ∉ o.expr.clauseNames)
    (hhaving : ∀ h, s.having = some h → ∀ name, h.LooksUp world.tables name →
      (constantField c).isNamed name = false)
    (hname : ∀ sources mid plan, (allSources world runner s).Gives st sources mid →
      layout sources { s with orderBy := Fields.withoutConstant c s.orderBy } = .ok plan →
        plan.fields.KeepName c) :
    (runPlain world runner s).run st =
      (runPlain world runner { s with orderBy := Fields.withoutConstant c s.orderBy }).run st := by
  rw [runPlain_eq_finished, runPlain_eq_finished]
  refine Run.run_bind_congr fun first mid hfirst => Run.run_bind_congr fun others mid' hothers => ?_
  have hsources : (allSources world runner s).Gives st (first :: others) mid' :=
    Run.gives_bind.mpr ⟨first, mid, hfirst, Run.gives_bind.mpr ⟨others, mid', hothers,
      Run.gives_pure.mpr ⟨rfl, rfl⟩⟩⟩
  rcases layout_padded (first :: others) hnumber horders with
    ⟨e, hall, hnone⟩ | ⟨plan, plan', start, hnone, hall, hgroups, hpadded, hstart, hbehind⟩
  · simp only [hall, hnone]
    rfl
  · simp only [hall, hnone]
    exact finished_padded (hname _ _ _ hsources hnone) hgroups hpadded hstart hbehind hhaving

/-- Among the fields that a statement plans the name of a constant means that constant. -/
def Statement.KeepsName (world : World) (runner : Runner σ) (st : σ) (s : Statement) (c : Cell) : Prop :=
  ∀ t sources mid plan, (firstOperand world runner s).Gives st (t, sources) mid →
    layout sources t = .ok plan → plan.fields.KeepName c

/-- Two orders that differ in entries of a constant alone make no difference. -/
theorem run_sameOrder {keep : Keeping σ} {depth : Nat} {orderBy : List OrderItem} (hnumber : ∀ x, c ≠ .number x)
    (hname : s.KeepsName world (runnerAt keep world depth) st c)
    (horders : ∀ o ∈ s.orderBy, o.expr ≠ .literal c → c.constantName ∉ o.expr.clauseNames)
    (hhaving : ∀ h, s.having = some h → ∀ name, h.LooksUp world.tables name →
      (constantField c).isNamed name = false)
    (hsub : orderBy ⊆ s.orderBy)
    (hsame : Fields.withoutConstant c orderBy = Fields.withoutConstant c s.orderBy) :
    (run keep world (depth + 1) { s with orderBy }).run st = (run keep world (depth + 1) s).run st := by
  have hpivot : (runPivot world (runnerAt keep world depth) { s with orderBy }).run st =
      (runPivot world (runnerAt keep world depth) s).run st := by
    rw [runPivot_eq, runPivot_eq, expanded_orderBy]
    simp only [bind_assoc, pure_bind]
    refine Run.run_bind_congr fun t mid ht => ?_
    obtain ⟨items, pivot, rfl⟩ := expanded_gives ht
    have hkeep : ∀ sources mid' plan,
        (allSources world (runnerAt keep world depth) { s with items, pivot }).Gives mid sources mid' →
        layout sources { s with items, pivot, orderBy := Fields.withoutConstant c s.orderBy } = .ok plan →
          plan.fields.KeepName c := by
      intro sources mid' plan hsources hplan
      have hfirst : (firstOperand world (runnerAt keep world depth) s).Gives st
          ({ s with items, pivot }, sources) mid' :=
        Run.gives_bind.mpr ⟨_, mid, ht, Run.gives_bind.mpr ⟨sources, mid', hsources,
          Run.gives_pure.mpr ⟨rfl, rfl⟩⟩⟩
      rcases layout_padded (s := { s with items, pivot }) sources hnumber horders with
        ⟨e, _, hnone⟩ | ⟨plan₁, plan₂, _, hnone, hall, _, hpadded, _⟩
      · cases hplan.symm.trans hnone
      · obtain rfl := Except.ok.inj (hplan.symm.trans hnone)
        exact (hname _ _ _ _ hfirst hall).of_subset hpadded.subset
    have hwhole := runPlain_without (s := { s with items, pivot }) hnumber horders hhaving hkeep
    have hpart := runPlain_without (s := { s with items, pivot, orderBy }) hnumber
      (fun o ho => horders o (hsub ho)) hhaving (by rw [hsame]; exact hkeep)
    rw [hwhole, hpart]
    simp only [hsame]
  change (runWith world (runnerAt keep world depth) _).run st =
    (runWith world (runnerAt keep world depth) _).run st
  unfold runWith
  rw [Run.run_bind, Run.run_bind, hpivot]

/-- Planning resolves a constant as the one key of groups to a field of it. -/
theorem groupKeys_constant {sources : List Table} {plan : Layout} (hnumber : ∀ x, c ≠ .number x)
    (hkey : s.groupBy = [.literal c]) (hplan : layout sources s = .ok plan) (hname : plan.fields.KeepName c) :
    ∃ slot, plan.groupKeys = [slot] ∧
      (plan.fields[slot]?).map Field.kind = some (.calculated (.literal c)) := by
  obtain ⟨selected, fs₁, fs₂, _, _, _, hgroup, hhaving, horder, _⟩ := layout_steps hplan
  obtain ⟨forHaving, hfs₂, _⟩ := Fields.resolveAll_append hhaving
  obtain ⟨forOrder, hfields, _⟩ := Fields.resolveAll_append horder
  rw [hfs₂] at hfields
  rw [hkey] at hgroup
  obtain ⟨⟨slot, gs⟩, hslot, hgroup⟩ := bind_eq_ok.mp hgroup
  obtain ⟨hkeys, rfl⟩ := Prod.mk.inj (Except.ok.inj hgroup)
  refine ⟨slot, hkeys.symm, ?_⟩
  cases hfound : selected.findSpelling? c.constantName with
  | some found =>
    rw [Fields.resolve_constant_there hnumber hfound] at hslot
    obtain ⟨rfl, rfl⟩ := Prod.mk.inj (Except.ok.inj hslot)
    obtain ⟨hk, hspelled, _⟩ := List.findIdx?_eq_some_iff_getElem.mp hfound
    have hthere : plan.fields[found]? = some selected[found] := by
      rw [hfields, List.append_assoc, List.getElem?_append_left hk, List.getElem?_eq_getElem hk]
    rw [hthere, Option.map_some, (hname.spelled _ (List.mem_of_getElem? hthere) hspelled).1]
  | none =>
    rw [Fields.resolve_constant_added hnumber hfound] at hslot
    cases hslot
    rw [hfields]
    simp [constantField]

/-- A statement whose one key is a constant makes one group of all its rows. -/
theorem grouped_by_literal {t : Statement} {plan : Layout} {fields : Fields} {cells : List Row} {st' : σ}
    (hnumber : ∀ x, c ≠ .number x) (hkey : t.groupBy = [.literal c])
    (hmade : (madeRows world runner t).Gives st (plan, fields, cells) st') (hname : plan.fields.KeepName c) :
    grouped fields plan.groupKeys t.distinct cells = if cells = [] then [] else [compress fields cells] := by
  obtain ⟨first, _, _, hmade⟩ := Run.gives_bind.mp hmade
  obtain ⟨others, _, _, hmade⟩ := Run.gives_bind.mp hmade
  obtain ⟨_, _, hplan, hmade⟩ := Run.gives_bind.mp hmade
  obtain ⟨⟨working, pointed⟩, _, hjoined, hmade⟩ := Run.gives_bind.mp hmade
  obtain ⟨ids, _, _, hmade⟩ := Run.gives_bind.mp hmade
  obtain ⟨formulas, _, hformulas, hmade⟩ := Run.gives_bind.mp hmade
  obtain ⟨rows, _, hrows, hmade⟩ := Run.gives_bind.mp hmade
  cases (Run.gives_pure.mp hmade).1
  obtain ⟨_, hwritten, hkinds, _, _⟩ := pointed_of_plan hname hjoined
  obtain ⟨slot, hslot, hkind⟩ := groupKeys_constant hnumber hkey (Run.gives_of.mp hplan).1 hname
  rw [← List.getElem?_map, ← hkinds, List.getElem?_map] at hkind
  have hconst := Scope.fieldFormulas_constant (Scope.remembersConstant_nil c) hwritten
    (Run.gives_of.mp hformulas).1 hkind
  rw [hslot]
  exact grouped_by_constant (Rows.cells_constant hconst hrows) t.distinct

end Runs

/-! ### Outer columns as keys -/

/-- Nothing that a statement looks up is written like a constant, but the constant. -/
structure Statement.SparesName (ts : Tables) (s : Statement) (c : Cell) : Prop where
  order : ∀ o ∈ s.orderBy, o.expr ≠ .literal c → c.constantName ∉ o.expr.clauseNames
  having : ∀ h, s.having = some h → ∀ name, h.LooksUp ts name → (constantField c).isNamed name = false

section OuterKeys

variable {σ : Type} {world : World} {keep : Keeping σ} {depth : Nat} {st : σ} {outer : Table} {q : Statement}
  {table : Option String} {name : String} {column : Nat}

/-- An outer column as a key is a constant, unless its cell is a number, or something else is written like the cell:
entries of it in the order make no difference, and as the one key of groups it makes one of all rows. -/
theorem outer_key_constant (row : Nat)
    (hfree : knownIn (scopeOf world.tables q.items q.source q.joins) (columnSpelling table name) = false)
    (hcolumn : outer.column? (columnSpelling table name) = some column)
    (hnumber : ∀ x, outer.cell row column ≠ .number x)
    (hspares : (q.bindOuter world.tables outer row).SparesName world.tables (outer.cell row column))
    (hkeeps : (q.bindOuter world.tables outer row).KeepsName world (runnerAt keep world depth) st
      (outer.cell row column)) :
    (∀ before d after, q.orderBy = before ++ ⟨.column table name, d⟩ :: after →
      (run keep world (depth + 1)
          (Statement.bindOuter world.tables outer row { q with orderBy := before ++ after })).run st =
        (run keep world (depth + 1) (q.bindOuter world.tables outer row)).run st) ∧
    (q.groupBy = [.column table name] → ∀ t mid plan fields cells last,
      (expanded world (runnerAt keep world depth) (q.bindOuter world.tables outer row)).Gives st t mid →
      (madeRows world (runnerAt keep world depth) t).Gives mid (plan, fields, cells) last →
        grouped fields plan.groupKeys t.distinct cells = if cells = [] then [] else [compress fields cells]) := by
  obtain ⟨distinct, items, source, joins, filter, groupBy, having, orderBy, limit, pivot, operations⟩ := q
  have hbound : outerExpr (scopeOf world.tables items source joins ++ []) (outer.cellNamed row) table name =
      .literal (outer.cell row column) := by
    rw [List.append_nil]
    unfold outerExpr Table.cellNamed
    rw [if_neg (by simpa using hfree), hcolumn]
    rfl
  refine ⟨fun before d after horder => ?_, fun hgroup t mid plan fields cells last ht hmade => ?_⟩
  · obtain rfl : orderBy = _ := horder
    refine run_sameOrder hnumber hkeeps hspares.order hspares.having ?_ ?_
    · simp only [Statement.bindOuter, Statement.bindIn, ordersBind_eq_map, List.map_append, List.map_cons]
      exact (List.Sublist.append_left (List.sublist_cons_self _ _) _).subset
    · have hconstant : Expr.isConstant (outer.cell row column) (.literal (outer.cell row column)) = true :=
        Expr.isConstant_iff.mpr rfl
      simp only [Statement.bindOuter, Statement.bindIn, ordersBind_eq_map, List.map_append, List.map_cons,
        Expr.bindOuter, hbound, Fields.withoutConstant, List.filter_append]
      rw [List.filter_cons_of_neg (by simp [hconstant])]
  · obtain ⟨items', pivot', rfl⟩ := expanded_gives ht
    refine grouped_by_literal hnumber ?_ hmade ?_
    · obtain rfl : groupBy = _ := hgroup
      simp only [Statement.bindOuter, Statement.bindIn, exprsBind, Expr.bindOuter, hbound]
    · obtain ⟨sources, mid', hsources, hplan, _⟩ := madeRows_layout hmade
      exact hkeeps _ sources mid' plan (Run.gives_bind.mpr ⟨_, mid, ht, Run.gives_bind.mpr ⟨sources, mid', hsources,
          Run.gives_pure.mpr ⟨rfl, rfl⟩⟩⟩) hplan

end OuterKeys

/-! ### Outer cells of two kinds -/

/-- Two rows in order. -/
def keysTable : Table :=
  .derived "T" ["A"] [[.text "x"], [.text "y"]]

def keysWorld : World :=
  ⟨.ofList [keysTable], .empty, .midnight ⟨2020, 1, 1⟩⟩

/-- An outer table with one cell. -/
def oneCell (c : Cell) : Table :=
  .derived "O" ["N"] [[c]]

/-- `SELECT A FROM T` with keys. -/
def keyedBy (groupBy : List Expr) (orderBy : List OrderItem) : Statement :=
  ⟨false, [⟨.column none "A", "A", none⟩], .table "T" none, [], none, groupBy, none, orderBy, none, none, []⟩

/-- `SELECT A FROM T GROUP BY O.N ORDER BY O.N` where `O.N` is a text. -/
theorem outer_key_constant_text :
    let bound := (keyedBy [.column (some "O") "N"] [⟨.column (some "O") "N", .asc⟩]).bindOuter keysWorld.tables
      (oneCell (.text "q")) 0
    (run remembered keysWorld 1 ((keyedBy [.column (some "O") "N"] []).bindOuter keysWorld.tables
        (oneCell (.text "q")) 0)).run [] = (run remembered keysWorld 1 bound).run [] ∧
      ∀ t mid plan fields cells last, (expanded keysWorld (runnerAt remembered keysWorld 0) bound).Gives [] t mid →
        (madeRows keysWorld (runnerAt remembered keysWorld 0) t).Gives mid (plan, fields, cells) last →
          grouped fields plan.groupKeys t.distinct cells = if cells = [] then [] else [compress fields cells] := by
  let q := keyedBy [.column (some "O") "N"] [⟨.column (some "O") "N", .asc⟩]
  have hfree : knownIn (scopeOf keysWorld.tables q.items q.source q.joins) (columnSpelling (some "O") "N") = false := by
    decide +kernel
  have hcolumn : (oneCell (.text "q")).column? (columnSpelling (some "O") "N") = some 0 := by decide +kernel
  let bound := q.bindOuter keysWorld.tables (oneCell (.text "q")) 0
  have hspares : bound.SparesName keysWorld.tables (.text "q") := by
    have hall : (bound.orderBy.all fun o => o.expr.isConstant (.text "q")) = true := by decide +kernel
    exact ⟨fun o ho hne => absurd (Expr.isConstant_iff.mp (List.all_eq_true.mp hall o ho)) hne, fun _ h => by cases h⟩
  have hkeeps : bound.KeepsName keysWorld (runnerAt remembered keysWorld 0) [] (.text "q") := by
    intro t sources mid plan hoperand hplan
    obtain ⟨_, _, ht, hoperand⟩ := Run.gives_bind.mp hoperand
    obtain ⟨rfl, _⟩ := Run.gives_pure.mp ht
    obtain ⟨_, _, hsources, hoperand⟩ := Run.gives_bind.mp hoperand
    obtain ⟨rfl, rfl⟩ := Prod.mk.inj (Run.gives_pure.mp hoperand).1
    obtain ⟨first, _, hfirst, hsources⟩ := Run.gives_bind.mp hsources
    obtain ⟨others, _, hothers, hsources⟩ := Run.gives_bind.mp hsources
    obtain ⟨rfl, _⟩ := Run.gives_pure.mp hsources
    obtain ⟨table, _, htable, hfirst⟩ := Run.gives_bind.mp hfirst
    obtain ⟨rfl, _⟩ := Run.gives_pure.mp hfirst
    obtain ⟨rfl, _⟩ := Run.gives_pure.mp hothers
    obtain rfl := Except.ok.inj (Run.gives_of.mp htable).1
    have hkeep : ((layout [keysTable.withAlias none] bound).map fun plan => decide (plan.fields.KeepName (.text "q"))) =
        .ok true := by decide +kernel
    change layout [keysTable.withAlias none] bound = .ok plan at hplan
    rw [hplan] at hkeep
    exact of_decide_eq_true (Except.ok.inj hkeep)
  obtain ⟨horder, hgroup⟩ := outer_key_constant 0 hfree hcolumn (fun _ h => by cases h) hspares hkeeps
  exact ⟨horder [] .asc [] rfl, hgroup rfl⟩

/-- A number in the place of an outer column is the place of an item: an order by it can fail, and groups by it
are those of the item. -/
theorem outer_key_number :
    execute keysWorld ((keyedBy [] [⟨.column (some "O") "N", .asc⟩]).bindOuter keysWorld.tables
        (oneCell (.number 5)) 0) =
      .error (.ordinalRange "ORDER BY" "5") ∧
    execute keysWorld ((keyedBy [.column (some "O") "N"] []).bindOuter keysWorld.tables
        (oneCell (.number 1)) 0) = .ok ⟨["A"], [[.text "x"], [.text "y"]]⟩ := by
  refine ⟨by decide +kernel, ?_⟩
  have hgroups : (runInOrder keysWorld (runnerAt remembered keysWorld 0)
      ((keyedBy [.column (some "O") "N"] []).bindOuter keysWorld.tables (oneCell (.number 1)) 0)).Gives []
        (some ⟨["A"], [[.text "x"], [.text "y"]]⟩) [] := by decide +kernel
  exact execute_of_run rfl (by decide +kernel) (run_of_inOrder rfl rfl hgroups)

end GridQuery
