import GridQuery.Proofs.Anew
import GridQuery.Proofs.Grouping

/-!
`HAVING` splits the groups. What it names may bring hidden fields along; they stand behind the fields of the
statement without it, so the groups are the same groups and show the same cells. Of these a condition keeps
some rows, and its negation the others.
-/

namespace GridQuery
set_option autoImplicit false

/-! ### Rows by their numbers -/

/-- Of some rows those with a wanted number, in order. -/
def rowsWhere (wanted : Nat → Bool) (rows : List Row) : List Row :=
  (rows.zipIdx.filter fun r => wanted r.2).map Prod.fst

theorem rowsWhere_map (wanted : Nat → Bool) (f : Row → Row) (rows : List Row) :
    rowsWhere wanted (rows.map f) = (rowsWhere wanted rows).map f := by
  unfold rowsWhere
  rw [List.zipIdx_map, List.filter_map, List.map_map, List.map_map]
  rfl

theorem filterMap_getElem? (wanted : Nat → Bool) (rows : List Row) :
    (((List.range rows.length).filter wanted).filterMap fun i => rows[i]?) = rowsWhere wanted rows := by
  have hfrom (start : Nat) : (((List.range' start rows.length).filter wanted).filterMap
      fun i => rows[i - start]?) = ((rows.zipIdx start).filter fun r => wanted r.2).map Prod.fst := by
    induction rows generalizing start with
    | nil => rfl
    | cons row rows ih =>
      have hrest : (((List.range' (start + 1) rows.length).filter wanted).filterMap
          fun i => (row :: rows)[i - start]?) =
          (((rows.zipIdx (start + 1)).filter fun r => wanted r.2).map Prod.fst) := by
        rw [← ih (start + 1)]
        refine List.filterMap_congr fun i hi => ?_
        have hle : start + 1 ≤ i := (List.mem_range'_1.mp (List.mem_filter.mp hi).1).1
        rw [show i - start = i - (start + 1) + 1 by omega, List.getElem?_cons_succ]
      rw [List.length_cons, List.range'_succ, List.zipIdx_cons, List.filter_cons, List.filter_cons]
      cases wanted start with
      | true =>
        simp only [if_true, List.map_cons, ← hrest]
        rw [List.filterMap_cons_some (b := row) (by simp)]
      | false => simpa using hrest
  simpa [rowsWhere, List.range_eq_range'] using hfrom 0

theorem filter_contains_of_sublist {ids all : List Nat} (h : ids.Sublist all) (hnodup : all.Nodup) :
    (all.filter fun i => ids.contains i) = ids := by
  induction h with
  | slnil => rfl
  | @cons ids all a hsub ih =>
    obtain ⟨ha, hrest⟩ := List.nodup_cons.mp hnodup
    have hout : a ∉ ids := fun hin => ha (hsub.subset hin)
    rw [List.filter_cons_of_neg (by simpa using hout), ih hrest]
  | @cons_cons ids all a hsub ih =>
    obtain ⟨ha, hrest⟩ := List.nodup_cons.mp hnodup
    have hsame : (all.filter fun i => (a :: ids).contains i) = all.filter fun i => ids.contains i := by
      refine List.filter_congr fun i hi => ?_
      have hne : i ≠ a := fun he => ha (he ▸ hi)
      simp [hne]
    rw [List.filter_cons_of_pos (by simp), hsame, ih hrest]

/-- Two results share the rows of a third one out between them, each row unchanged and in its order. -/
structure ResultSet.SplitsInto (whole kept rest : ResultSet) : Prop where
  kept_titles : kept.titles = whole.titles
  rest_titles : rest.titles = whole.titles
  rows : ∃ wanted : Nat → Bool, kept.rows = rowsWhere wanted whole.rows ∧
    rest.rows = rowsWhere (fun i => !wanted i) whole.rows

theorem ResultSet.SplitsInto.perm {whole kept rest : ResultSet} (h : whole.SplitsInto kept rest) :
    (kept.rows ++ rest.rows).Perm whole.rows := by
  obtain ⟨wanted, hkept, hrest⟩ := h.rows
  have hparts := (List.filter_append_perm (fun r : Row × Nat => wanted r.2) whole.rows.zipIdx).map Prod.fst
  rw [List.map_append, List.zipIdx_map_fst] at hparts
  rw [hkept, hrest]
  exact hparts

/-! ### Fields behind -/

section Behind

variable {σ : Type} {world : World} {runner : Runner σ} {st st' : σ}

theorem layout_without_having {sources : List Table} {s : Statement} {c : Condition} {plan more : Layout}
    (horder : s.orderBy = []) (h : layout sources { s with having := none } = .ok plan)
    (hmore : layout sources { s with having := some c } = .ok more) :
    more.groupKeys = plan.groupKeys ∧ ∃ added, more.fields = plan.fields ++ added ∧
      ∀ f ∈ added, f.temporary = true := by
  obtain ⟨selected, fs₁, fs₂, _, _, hselected, h₁, h₂, h₃, _⟩ := layout_steps h
  obtain ⟨selected', fs₁', fs₂', _, _, hselected', h₁', h₂', h₃', _⟩ := layout_steps hmore
  simp only [horder, List.map_nil, Option.map_none, Option.getD_none] at h₂ h₃ h₃'
  cases h₂
  cases h₃
  cases h₃'
  obtain rfl : selected = selected' := Except.ok.inj (hselected.symm.trans hselected')
  have hsame := Except.ok.inj (h₁.symm.trans h₁')
  obtain ⟨hkeys, hfields⟩ := Prod.mk.inj hsame
  obtain ⟨added, hadded, hhidden⟩ := Fields.resolveAll_append h₂'
  refine ⟨hkeys.symm, added, ?_, fun f hf => ?_⟩
  · rw [hadded, ← hfields]
  · obtain ⟨e, _, hf⟩ := hhidden f hf
    exact Fields.hidden_temporary hf

theorem Fields.repoint_append (fs more : Fields) (source offset : Nat) :
    (fs ++ more).repoint source offset = fs.repoint source offset ++ more.repoint source offset :=
  List.map_append

theorem Fields.repoint_temporary {fs : Fields} (h : ∀ f ∈ fs, f.temporary = true) (source offset : Nat) :
    ∀ f ∈ fs.repoint source offset, f.temporary = true := by
  intro g hg
  obtain ⟨f, hf, rfl⟩ := List.mem_map.mp hg
  split
  · split <;> exact h f hf
  · exact h f hf

/-- Joins point fields at their columns one by one, so those behind change nothing for those in front. -/
theorem joinFrom_append {joins : List JoinClause} {position : Nat} {working t : Table}
    {fields more pointed : Fields} {sources : List Table} (hmore : ∀ f ∈ more, f.temporary = true)
    (h : (joinFrom world runner position working (fields ++ more) joins sources).Gives st (t, pointed) st') :
    ∃ front behind, pointed = front ++ behind ∧ (∀ f ∈ behind, f.temporary = true) ∧
      (joinFrom world runner position working fields joins sources).Gives st (t, front) st' := by
  induction joins generalizing position working fields more sources st with
  | nil =>
    obtain ⟨he, rfl⟩ := Run.gives_pure.mp h
    cases he
    exact ⟨fields, more, rfl, hmore, Run.gives_pure.mpr ⟨rfl, rfl⟩⟩
  | cons j joins ih =>
    cases sources with
    | nil => exact absurd h Run.not_gives_throw
    | cons right sources =>
      obtain ⟨next, mid, hnext, h⟩ := Run.gives_bind.mp h
      rw [Fields.repoint_append] at h
      obtain ⟨front, behind, hpointed, hhidden, hfront⟩ := ih (Fields.repoint_temporary hmore _ _) h
      exact ⟨front, behind, hpointed, hhidden, Run.gives_bind.mpr ⟨next, mid, hnext, hfront⟩⟩

theorem fieldFormulas_append {s : Scope} {memo : FormulaMemo} {fields more : Fields}
    {formulas : List Formula} (h : s.fieldFormulas memo (fields ++ more) = .ok formulas) :
    ∃ front behind, formulas = front ++ behind ∧ s.fieldFormulas memo fields = .ok front := by
  induction fields generalizing memo formulas with
  | nil => exact ⟨[], formulas, rfl, rfl⟩
  | cons f fields ih =>
    rw [List.cons_append, Scope.fieldFormulas] at h
    obtain ⟨⟨x, memo'⟩, hx, h⟩ := bind_eq_ok.mp h
    obtain ⟨xs, hxs, h⟩ := bind_eq_ok.mp h
    cases h
    obtain ⟨front, behind, rfl, hfront⟩ := ih hxs
    exact ⟨x :: front, behind, rfl, bind_eq_ok.mpr ⟨(x, memo'), hx, bind_eq_ok.mpr ⟨front, hfront, rfl⟩⟩⟩

theorem values_append {r : Rows σ} {row : Nat} {front behind : List Formula} {cells : List Cell}
    (h : (r.values row (front ++ behind)).Gives st cells st') :
    ∃ mid, (r.values row front).Gives st (cells.take front.length) mid := by
  induction front generalizing cells st st' with
  | nil =>
    refine ⟨st, ?_⟩
    rw [List.length_nil, List.take_zero, Rows.values]
    exact Run.gives_pure.mpr ⟨rfl, rfl⟩
  | cons f front ih =>
    rw [List.cons_append, Rows.values] at h
    obtain ⟨x, mid, hx, h⟩ := Run.gives_bind.mp h
    obtain ⟨xs, mid', hxs, h⟩ := Run.gives_bind.mp h
    obtain ⟨rfl, _⟩ := Run.gives_pure.mp h
    obtain ⟨last, hfront⟩ := ih hxs
    refine ⟨last, ?_⟩
    rw [List.length_cons, List.take_succ_cons, Rows.values]
    exact Run.gives_bind.mpr ⟨x, mid, hx, Run.gives_bind.mpr ⟨_, last, hfront,
      Run.gives_pure.mpr ⟨rfl, rfl⟩⟩⟩

end Behind

/-! ### Grouping by keys in front -/

section Grouped

variable {fields : Fields} (more : Fields)

theorem foldedCell_take (run : List Row) {first : Cell} {slot : Nat} (h : slot < fields.length) :
    foldedCell fields (run.map fun row => row.take fields.length) first slot =
      foldedCell (fields ++ more) run first slot := by
  have hcells : slotCells (run.map fun row => row.take fields.length) slot = slotCells run slot := by
    unfold slotCells
    rw [List.filterMap_map]
    refine List.filterMap_congr fun row _ => ?_
    exact List.getElem?_take_of_lt h
  unfold foldedCell
  rw [hcells, List.getElem?_append_left h]

theorem compress_take (run : List Row) :
    compress fields (run.map fun row => row.take fields.length) =
      (compress (fields ++ more) run).take fields.length := by
  have hfirst : ((run.map fun row => row.take fields.length).head?).getD
      (List.replicate fields.length .null) =
      ((run.head?).getD (List.replicate (fields ++ more).length .null)).take fields.length := by
    cases run with
    | nil => simp
    | cons row rest => rfl
  unfold compress
  rw [hfirst]
  generalize (run.head?).getD (List.replicate (fields ++ more).length .null) = first
  apply List.ext_getElem?
  intro slot
  by_cases hslot : slot < fields.length
  · rw [List.getElem?_take_of_lt hslot]
    simp only [List.getElem?_map, List.getElem?_zipIdx, List.getElem?_take_of_lt hslot, Nat.zero_add,
      Option.map_map]
    refine congrArg (fun f => Option.map f first[slot]?) (funext fun c => ?_)
    exact foldedCell_take more run hslot
  · rw [List.getElem?_eq_none (by simp; omega), List.getElem?_eq_none (by simp; omega)]

/-- Cells behind those of the keys have no part in which rows make a group. -/
theorem groupBy_take {keys : List Nat} (hkeys : ∀ k ∈ keys, k < fields.length) (rows : List Row) :
    groupBy fields keys (rows.map fun row => row.take fields.length) =
      (groupBy (fields ++ more) keys rows).map fun row => row.take fields.length := by
  have hsame (row : Row) : ∀ k ∈ keys, (row.take fields.length)[k]? = row[k]? :=
    fun k hk => List.getElem?_take_of_lt (hkeys k hk)
  exact groupBy_map (fun a _ b _ => compareKeys_of_sameCells (hsame a) (hsame b))
    fun run _ _ => compress_take more run

end Grouped

/-! ### Runs that keep nothing -/

section Anew

variable {world : World} {runner : Runner Unit} {s : Statement} {c : Condition}

theorem cells_append {r : Rows Unit} {front behind : List Formula} {ids : List Nat} {rows : List Row}
    (h : (r.cells (front ++ behind) ids).Gives () rows ()) :
    (r.cells front ids).Gives () (rows.map fun row => row.take front.length) () := by
  induction ids generalizing rows with
  | nil =>
    obtain ⟨rfl, _⟩ := Run.gives_pure.mp h
    exact Run.gives_pure.mpr ⟨rfl, rfl⟩
  | cons id ids ih =>
    obtain ⟨cells, _, hcells, h⟩ := Run.gives_bind.mp h
    obtain ⟨others, _, hothers, h⟩ := Run.gives_bind.mp h
    obtain ⟨rfl, _⟩ := Run.gives_pure.mp h
    obtain ⟨_, hfront⟩ := values_append hcells
    exact Run.gives_bind.mpr ⟨_, (), hfront, Run.gives_bind.mpr ⟨_, (), ih hothers,
      Run.gives_pure.mpr ⟨rfl, rfl⟩⟩⟩

/-- Where two statements make their rows of the same sources, and the one plans hidden fields behind those of
the other, its rows have the rows of the other in front. -/
theorem madeRows_behind (s s' : Statement) {plan plan' : Layout} {fields fields' : Fields}
    {cells cells' : List Row} (hsource : s'.source = s.source) (hjoins : s'.joins = s.joins)
    (hfilter : s'.filter = s.filter)
    (hbehind : ∀ {sources}, layout sources s = .ok plan → layout sources s' = .ok plan' →
      ∃ added, plan'.fields = plan.fields ++ added ∧ ∀ f ∈ added, f.temporary = true)
    (h : (madeRows world runner s).Gives () (plan, fields, cells) ())
    (hmore : (madeRows world runner s').Gives () (plan', fields', cells') ()) :
    (∃ sources, layout sources s = .ok plan ∧ layout sources s' = .ok plan') ∧
      fields.map Field.unpointed = plan.fields.map Field.unpointed ∧
      fields'.map Field.unpointed = plan'.fields.map Field.unpointed ∧
      ∃ added, fields' = fields ++ added ∧ (∀ f ∈ added, f.temporary = true) ∧
        cells = cells'.map fun row => row.take fields.length := by
  obtain ⟨first, _, hfirst, h⟩ := Run.gives_bind.mp h
  obtain ⟨others, _, hothers, h⟩ := Run.gives_bind.mp h
  obtain ⟨_, _, hplan, h⟩ := Run.gives_bind.mp h
  obtain ⟨⟨working, fs⟩, _, hjoin, h⟩ := Run.gives_bind.mp h
  obtain ⟨ids, _, hids, h⟩ := Run.gives_bind.mp h
  obtain ⟨formulas, _, hformulas, h⟩ := Run.gives_bind.mp h
  obtain ⟨rows, _, hrows, h⟩ := Run.gives_bind.mp h
  cases (Run.gives_pure.mp h).1
  unfold madeRows at hmore
  rw [hsource, hjoins, hfilter] at hmore
  obtain ⟨first', _, hfirst', hmore⟩ := Run.gives_bind.mp hmore
  obtain ⟨others', _, hothers', hmore⟩ := Run.gives_bind.mp hmore
  obtain ⟨_, _, hplan', hmore⟩ := Run.gives_bind.mp hmore
  obtain ⟨⟨working', fs'⟩, _, hjoin', hmore⟩ := Run.gives_bind.mp hmore
  obtain ⟨ids', _, hids', hmore⟩ := Run.gives_bind.mp hmore
  obtain ⟨formulas', _, hformulas', hmore⟩ := Run.gives_bind.mp hmore
  obtain ⟨rows', _, hrows', hmore⟩ := Run.gives_bind.mp hmore
  cases (Run.gives_pure.mp hmore).1
  obtain rfl := (hfirst.unique hfirst').1
  obtain rfl := (hothers.unique hothers').1
  have hplan := (Run.gives_of.mp hplan).1
  have hplan' := (Run.gives_of.mp hplan').1
  have hunpointed := joinFrom_unpointed hjoin
  have hunpointed' := joinFrom_unpointed hjoin'
  obtain ⟨behind, hfields, hhidden⟩ := hbehind hplan hplan'
  rw [hfields] at hjoin'
  obtain ⟨front, added, rfl, htemporary, hfront⟩ := joinFrom_append hhidden hjoin'
  obtain ⟨rfl, rfl⟩ := Prod.mk.inj (hjoin.unique hfront).1
  obtain rfl := (hids.unique hids').1
  obtain ⟨inFront, inBack, rfl, hinFront⟩ := fieldFormulas_append (Run.gives_of.mp hformulas').1
  have hformulas := (Run.gives_of.mp hformulas).1
  obtain rfl : formulas = inFront := Except.ok.inj (hformulas.symm.trans hinFront)
  refine ⟨⟨first :: others, hplan, hplan'⟩, hunpointed, hunpointed', added, rfl, htemporary, ?_⟩
  rw [← Scope.fieldFormulas_length hformulas]
  exact (hrows.unique (cells_append hrows')).1

/-- The rows made for a statement with `HAVING` have those made without it in front. -/
theorem madeRows_without_having {plan plan' : Layout} {fields fields' : Fields} {cells cells' : List Row}
    (horder : s.orderBy = [])
    (h : (madeRows world runner { s with having := none }).Gives () (plan, fields, cells) ())
    (hmore : (madeRows world runner { s with having := some c }).Gives () (plan', fields', cells') ()) :
    plan'.groupKeys = plan.groupKeys ∧ ∃ added, fields' = fields ++ added ∧
      (∀ f ∈ added, f.temporary = true) ∧ cells = cells'.map fun row => row.take fields.length := by
  obtain ⟨⟨sources, hplan, hplan'⟩, _, _, hrows⟩ := madeRows_behind
    { s with having := none } { s with having := some c } rfl rfl rfl
    (fun hplan hplan' => (layout_without_having horder hplan hplan').2) h hmore
  exact ⟨(layout_without_having horder hplan hplan').1, hrows⟩

/-- The condition and its negation ask for the same fields. -/
theorem madeRows_not : madeRows world runner { s with having := some (.not c) } =
    madeRows world runner { s with having := some c } := by
  unfold madeRows layout
  simp only [Option.map_some, groupParts, Condition.parts]

theorem runPlain_grouped {r : ResultSet} (hgroups : s.groupBy ≠ []) (horder : s.orderBy = [])
    (hlimit : s.limit = none) (hdistinct : s.distinct = false)
    (h : (runPlain world runner s).Gives () r ()) :
    ∃ plan fields cells kept, (madeRows world runner s).Gives () (plan, fields, cells) () ∧
      (keepGroups world runner fields (groupBy fields plan.groupKeys cells) s.having).Gives () kept () ∧
      r = ⟨fields.titles, kept.map fun row => row.take fields.selectedCount⟩ := by
  rw [runPlain_eq] at h
  obtain ⟨⟨plan, fields, cells⟩, _, hmade, h⟩ := Run.gives_bind.mp h
  obtain ⟨kept, _, hkept, h⟩ := Run.gives_bind.mp h
  obtain ⟨rfl, _⟩ := Run.gives_pure.mp h
  obtain ⟨_, _, _, hplan, _⟩ := madeRows_layout hmade
  have hgrouped : grouped fields plan.groupKeys s.distinct cells =
      groupBy fields plan.groupKeys cells := by
    simp only [grouped, hdistinct, layout_groupKeys_isEmpty hplan hgroups, Bool.false_and,
      Bool.false_eq_true, if_false]
  rw [hgrouped] at hkept
  refine ⟨plan, fields, cells, kept, hmade, hkept, ?_⟩
  rw [(layout_keys hplan).2 horder, hlimit]
  rfl

theorem keepGroups_some {fields : Fields} {groups kept : List Row}
    (hgroups : ∀ row ∈ groups, row.length = fields.length)
    (h : (keepGroups world runner fields groups (some c)).Gives () kept ()) :
    ∃ ids, (Rows.select ⟨world, havingTable fields groups, runner⟩ (List.range groups.length) c).Gives
      () ids () ∧ kept = ids.filterMap fun i => groups[i]? := by
  obtain ⟨ids, _, hids, h⟩ := Run.gives_bind.mp h
  obtain ⟨rfl, _⟩ := Run.gives_pure.mp h
  change (Rows.select ⟨world, havingTable fields groups, runner⟩
    (List.range (havingTable fields groups).rows.length) c).Gives () ids () at hids
  change ∃ ids', _ ∧ ids.filterMap (fun i => (havingTable fields groups).rows[i]?) = _
  rw [havingTable_rows hgroups] at hids ⊢
  exact ⟨ids, hids, rfl⟩

/-- Of some groups a condition keeps those with the numbers that it selects, and its negation the others. -/
theorem keepGroups_splits {fields : Fields} {groups kept rest : List Row}
    (hgroups : ∀ row ∈ groups, row.length = fields.length)
    (h : (keepGroups world runner fields groups (some c)).Gives () kept ())
    (hnot : (keepGroups world runner fields groups (some (.not c))).Gives () rest ()) :
    ∃ wanted, kept = rowsWhere wanted groups ∧ rest = rowsWhere (fun i => !wanted i) groups := by
  obtain ⟨ids, hids, rfl⟩ := keepGroups_some hgroups h
  obtain ⟨others, hothers, rfl⟩ := keepGroups_some hgroups hnot
  simp only [Rows.select] at hothers
  obtain ⟨hits, _, hhits, hothers⟩ := Run.gives_bind.mp hothers
  obtain ⟨rfl, _⟩ := Run.gives_pure.mp hothers
  obtain rfl := (hids.unique hhits).1
  have hsublist : ids.Sublist (List.range groups.length) := Rows.select_sublist hids
  refine ⟨ids.contains, ?_, filterMap_getElem? _ groups⟩
  rw [← filterMap_getElem?, filter_contains_of_sublist hsublist List.nodup_range]

/-- The groups of one statement, those that a condition keeps, and those that its negation keeps. -/
theorem runPlain_splits {whole kept rest : ResultSet} (hgroups : s.groupBy ≠ []) (horder : s.orderBy = [])
    (hlimit : s.limit = none) (hdistinct : s.distinct = false)
    (h : (runPlain world runner { s with having := none }).Gives () whole ())
    (hkept : (runPlain world runner { s with having := some c }).Gives () kept ())
    (hrest : (runPlain world runner { s with having := some (.not c) }).Gives () rest ()) :
    whole.SplitsInto kept rest := by
  obtain ⟨plan, fields, cells, groups, hmade, hall, rfl⟩ :=
    runPlain_grouped (s := { s with having := none }) hgroups horder hlimit hdistinct h
  obtain ⟨plan', fields', cells', rows, hmade', hrows, rfl⟩ :=
    runPlain_grouped (s := { s with having := some c }) hgroups horder hlimit hdistinct hkept
  obtain ⟨plan'', fields'', cells'', others, hmade'', hothers, rfl⟩ :=
    runPlain_grouped (s := { s with having := some (.not c) }) hgroups horder hlimit hdistinct hrest
  rw [madeRows_not] at hmade''
  obtain ⟨rfl, rfl, rfl⟩ : plan' = plan'' ∧ fields' = fields'' ∧ cells' = cells'' := by
    simpa using (hmade'.unique hmade'').1
  have hwidths : ∀ row ∈ groupBy fields' plan'.groupKeys cells', row.length = fields'.length :=
    groupBy_length (madeRows_widths hmade').1
  obtain ⟨wanted, rfl, rfl⟩ := keepGroups_splits hwidths hrows hothers
  obtain ⟨hkeys, added, rfl, hhidden, rfl⟩ := madeRows_without_having horder hmade hmade'
  obtain ⟨rfl, _⟩ := Run.gives_pure.mp hall
  rw [groupBy_take added (madeRows_widths hmade).2.1, ← hkeys]
  have htitles : (fields ++ added).titles = fields.titles := by
    rw [Fields.titles_append, Fields.titles_of_hidden hhidden, List.append_nil]
  have hcount : (fields ++ added).selectedCount = fields.selectedCount := by
    rw [Fields.selectedCount_eq_titles, Fields.selectedCount_eq_titles, htitles]
  have hshown : ((fun row : Row => row.take fields.selectedCount) ∘ fun row => row.take fields.length) =
      fun row : Row => row.take fields.selectedCount := by
    funext row
    rw [Function.comp_apply, List.take_take]
    exact congrArg (List.take · row) (Nat.min_eq_left (List.length_filter_le _ _))
  refine ⟨htitles, htitles, wanted, ?_, ?_⟩ <;>
    simp only [hcount, List.map_map, hshown, rowsWhere_map]

end Anew

/-! ### More depth -/

/-- What the first run gives, the second one gives. -/
def giving (σ : Type) : Lockstep σ σ where
  rel m n := ∀ st a st', m.Gives st a st' → n.Gives st a st'
  pure _ _ _ _ h := h
  throw _ _ _ _ h := h
  bind hm hf st b st' h := by
    obtain ⟨a, mid, ha, hb⟩ := Run.gives_bind.mp h
    exact Run.gives_bind.mpr ⟨a, mid, hm _ _ _ ha, hf a ⟨st, mid, ha⟩ _ _ _ hb⟩

theorem giving_anew (σ : Type) : (giving σ).Keeps anew anew :=
  fun h => h

/-- A result stays the result at every greater depth. -/
theorem run_anew_of_le {world : World} {s : Statement} {r : ResultSet} {depth more : Nat}
    (hle : depth ≤ more) (h : (run anew world depth s).Gives () r ()) :
    (run anew world more s).Gives () r () := by
  have hstep (depth : Nat) : ∀ s, (giving Unit).rel (run anew world depth s) (run anew world (depth + 1) s) := by
    induction depth with
    | zero => exact fun _ _ _ _ h => absurd h Run.not_gives_throw
    | succ depth ih =>
      exact fun s => Lockstep.runWith (giving_anew Unit) (.refl world s) fun q _ =>
        Lockstep.nested_of_run (giving_anew Unit) (fun q _ => ih q) (.refl world q)
  induction hle with
  | refl => exact h
  | step _ ih => exact hstep _ s _ _ _ ih

theorem depth_without_having (s : Statement) (c : Condition) :
    ({ s with having := none } : Statement).depth ≤ ({ s with having := some c } : Statement).depth := by
  have hclause : nesting.clause none ≤ nesting.clause (some c) := Nat.zero_le _
  simp only [Statement.depth, Tally.statement]
  exact Nat.succ_le_succ (max_le_max le_rfl (max_le_max le_rfl (max_le_max le_rfl (max_le_max le_rfl
    (max_le_max le_rfl (max_le_max hclause le_rfl))))))

theorem depth_not (s : Statement) (c : Condition) :
    ({ s with having := some (.not c) } : Statement).depth =
      ({ s with having := some c } : Statement).depth := rfl

theorem run_of_executeAnew {world : World} {s : Statement} {r : ResultSet}
    (h : executeAnew world s = .ok r) : (run anew world s.depth s).Gives () r () := by
  obtain ⟨_, _, h⟩ := bind_eq_ok.mp h
  exact Prod.ext h rfl

/-! ### The split -/

/-- With keys, and without order, limit, `DISTINCT` and pivot, a condition and its negation share out the
groups of a statement. Where set operations follow, each of the three results is what they make of the groups,
of those that the condition keeps, and of the others. Running nested statements again is to come to what the
query keeps. -/
theorem having_splits_groups {world : World} {s : Statement} {c : Condition} {r r₁ r₂ : ResultSet}
    (hgroups : s.groupBy ≠ []) (horder : s.orderBy = []) (hlimit : s.limit = none)
    (hdistinct : s.distinct = false) (hpivot : s.pivot = none)
    (hkept : ∀ having ∈ [none, some c, some (.not c)],
      execute world { s with having } = executeAnew world { s with having })
    (h : execute world { s with having := none } = .ok r)
    (h₁ : execute world { s with having := some c } = .ok r₁)
    (h₂ : execute world { s with having := some (.not c) } = .ok r₂) :
    (s.operations = [] → r.SplitsInto r₁ r₂) ∧
    ∃ depth whole kept rest,
      (run anew world (depth + 1) { s with having := none, operations := [] }).Gives () whole () ∧
      (run anew world (depth + 1) { s with having := some c, operations := [] }).Gives () kept () ∧
      (run anew world (depth + 1) { s with having := some (.not c), operations := [] }).Gives () rest () ∧
      whole.SplitsInto kept rest ∧
      (combineAll (runnerAt anew world depth) whole s.operations).Gives () r () ∧
      (combineAll (runnerAt anew world depth) kept s.operations).Gives () r₁ () ∧
      (combineAll (runnerAt anew world depth) rest s.operations).Gives () r₂ () := by
  have alone {depth : Nat} {having : Option Condition} {left : ResultSet}
      (h : (runPlain world (runnerAt anew world depth) { s with having }).Gives () left ()) :
      (run anew world (depth + 1) { s with having, operations := [] }).Gives () left () :=
    (run_without_pivot (s := { s with having, operations := [] }) hpivot).mpr
      ⟨left, (), h, Run.gives_pure.mpr ⟨rfl, rfl⟩⟩
  rw [hkept _ (by simp)] at h h₁ h₂
  obtain ⟨depth, hdepth⟩ : ∃ depth, ({ s with having := some c } : Statement).depth = depth + 1 := ⟨_, rfl⟩
  have hle := depth_without_having s c
  rw [hdepth] at hle
  have hnot := run_of_executeAnew h₂
  rw [depth_not, hdepth] at hnot
  have hyes := run_of_executeAnew h₁
  rw [hdepth] at hyes
  obtain ⟨whole, _, hwhole, hr⟩ := (run_without_pivot (s := { s with having := none }) hpivot).mp
    (run_anew_of_le hle (run_of_executeAnew h))
  obtain ⟨kept, _, hkeptRows, hr₁⟩ := (run_without_pivot (s := { s with having := some c }) hpivot).mp hyes
  obtain ⟨rest, _, hrest, hr₂⟩ := (run_without_pivot (s := { s with having := some (.not c) }) hpivot).mp hnot
  have hsplits := runPlain_splits hgroups horder hlimit hdistinct hwhole hkeptRows hrest
  refine ⟨fun hnone => ?_, depth, whole, kept, rest, alone hwhole, alone hkeptRows, alone hrest,
    hsplits, hr, hr₁, hr₂⟩
  rw [hnone] at hr hr₁ hr₂
  obtain ⟨rfl, _⟩ := Run.gives_pure.mp hr
  obtain ⟨rfl, _⟩ := Run.gives_pure.mp hr₁
  obtain ⟨rfl, _⟩ := Run.gives_pure.mp hr₂
  exact hsplits

/-- Letters, and a table with another one. -/
def lettersWorld : World :=
  ⟨.ofList [.derived "T" ["A"] [[.text "x"], [.text "x"], [.text "y"]], .derived "U" ["B"] [[.text "z"]]],
    .empty, .midnight ⟨2020, 1, 1⟩⟩

/-- `SELECT A FROM T GROUP BY A` -/
def eachLetter : Statement :=
  ⟨false, [⟨.column none "A", "A", none⟩], .table "T" none, [], none, [.column none "A"], none, [], none,
    none, []⟩

/-- `COUNT(*) > 1` -/
def moreThanOnce : Condition :=
  .compare .gt (.call "COUNT" false [.star none]) (.literal (.number 1))

/-- A statement without a pivot comes to what its set operations make of its rows, whether the query keeps
results or not. -/
theorem execute_both_of_runPlain {world : World} {s : Statement} {r : ResultSet} (left : ResultSet) (depth : Nat)
    (hbinds : world.binds.require s.maxBind = .ok ()) (hdepth : s.depth = depth + 1) (hpivot : s.pivot = none)
    (h : (runPlain world (runnerAt remembered world depth) s).Gives [] left [])
    (hcombine : (combineAll (runnerAt remembered world depth) left s.operations).Gives [] r [])
    (hanew : (runPlain world (runnerAt anew world depth) s).Gives () left ())
    (hcombineAnew : (combineAll (runnerAt anew world depth) left s.operations).Gives () r ()) :
    execute world s = .ok r ∧ executeAnew world s = .ok r := by
  refine ⟨execute_of_run hbinds hdepth ((run_without_pivot hpivot).mpr ⟨left, [], h, hcombine⟩), ?_⟩
  refine bind_eq_ok.mpr ⟨(), hbinds, ?_⟩
  rw [hdepth]
  exact congrArg Prod.fst ((run_without_pivot hpivot).mpr ⟨left, (), hanew, hcombineAnew⟩)

theorem execute_both_of_inOrder {world : World} {s : Statement} {r : ResultSet} (left : ResultSet) (depth : Nat)
    (hbinds : world.binds.require s.maxBind = .ok ()) (hdepth : s.depth = depth + 1) (hpivot : s.pivot = none)
    (h : (runInOrder world (runnerAt remembered world depth) s).Gives [] (some left) [])
    (hcombine : (combineAll (runnerAt remembered world depth) left s.operations).Gives [] r [])
    (hanew : (runInOrder world (runnerAt anew world depth) s).Gives () (some left) ())
    (hcombineAnew : (combineAll (runnerAt anew world depth) left s.operations).Gives () r ()) :
    execute world s = .ok r ∧ executeAnew world s = .ok r :=
  execute_both_of_runPlain left depth hbinds hdepth hpivot (runPlain_of_inOrder h) hcombine
    (runPlain_of_inOrder hanew) hcombineAnew

theorem having_splits_groups_eachLetter :
    let whole : ResultSet := ⟨["A"], [[.text "x"], [.text "y"]]⟩
    let kept : ResultSet := ⟨["A"], [[.text "x"]]⟩
    let rest : ResultSet := ⟨["A"], [[.text "y"]]⟩
    execute lettersWorld { eachLetter with having := none } = .ok whole ∧
    execute lettersWorld { eachLetter with having := some moreThanOnce } = .ok kept ∧
    execute lettersWorld { eachLetter with having := some (.not moreThanOnce) } = .ok rest ∧
    whole.SplitsInto kept rest := by
  intro whole kept rest
  have hwhole : execute lettersWorld { eachLetter with having := none } = .ok whole ∧
      executeAnew lettersWorld { eachLetter with having := none } = .ok whole :=
    execute_both_of_inOrder whole 0 (by decide +kernel) (by decide +kernel) rfl (by decide +kernel)
      (by decide +kernel) (by decide +kernel) (by decide +kernel)
  have hkept : execute lettersWorld { eachLetter with having := some moreThanOnce } = .ok kept ∧
      executeAnew lettersWorld { eachLetter with having := some moreThanOnce } = .ok kept :=
    execute_both_of_inOrder kept 0 (by decide +kernel) (by decide +kernel) rfl (by decide +kernel)
      (by decide +kernel) (by decide +kernel) (by decide +kernel)
  have hrest : execute lettersWorld { eachLetter with having := some (.not moreThanOnce) } = .ok rest ∧
      executeAnew lettersWorld { eachLetter with having := some (.not moreThanOnce) } = .ok rest :=
    execute_both_of_inOrder rest 0 (by decide +kernel) (by decide +kernel) rfl (by decide +kernel)
      (by decide +kernel) (by decide +kernel) (by decide +kernel)
  have hsame : ∀ having ∈ [none, some moreThanOnce, some (.not moreThanOnce)],
      execute lettersWorld { eachLetter with having } = executeAnew lettersWorld { eachLetter with having } := by
    simp only [List.forall_mem_cons, List.not_mem_nil, false_implies, implies_true, and_true]
    exact ⟨hwhole.1.trans hwhole.2.symm, hkept.1.trans hkept.2.symm, hrest.1.trans hrest.2.symm⟩
  exact ⟨hwhole.1, hkept.1, hrest.1, (having_splits_groups (List.cons_ne_nil _ _) rfl rfl rfl rfl hsame
    hwhole.1 hkept.1 hrest.1).1 rfl⟩

/-- `SELECT A FROM T GROUP BY A UNION ALL SELECT B FROM U` -/
def eachLetterAndOther : Statement :=
  { eachLetter with operations := [⟨.unionAll, ⟨false, [⟨.column none "B", "B", none⟩], .table "U" none, [],
    none, [], none, [], none, none, []⟩⟩] }

/-- The other operand comes to what the condition keeps and to what its negation keeps. -/
theorem united_row_in_both :
    let world := lettersWorld
    let s := eachLetterAndOther
    let c := moreThanOnce
    let whole : ResultSet := ⟨["A"], [[.text "x"], [.text "y"], [.text "z"]]⟩
    let kept : ResultSet := ⟨["A"], [[.text "x"], [.text "z"]]⟩
    let rest : ResultSet := ⟨["A"], [[.text "y"], [.text "z"]]⟩
    s.groupBy ≠ [] ∧ s.orderBy = [] ∧ s.limit = none ∧ s.distinct = false ∧ s.pivot = none ∧
    (execute world { s with having := none } = .ok whole ∧
      executeAnew world { s with having := none } = .ok whole) ∧
    (execute world { s with having := some c } = .ok kept ∧
      executeAnew world { s with having := some c } = .ok kept) ∧
    (execute world { s with having := some (.not c) } = .ok rest ∧
      executeAnew world { s with having := some (.not c) } = .ok rest) ∧
    ¬ whole.SplitsInto kept rest := by
  intro world s c whole kept rest
  refine ⟨List.cons_ne_nil _ _, rfl, rfl, rfl, rfl, ?_, ?_, ?_, fun h => ?_⟩
  · exact execute_both_of_inOrder ⟨["A"], [[.text "x"], [.text "y"]]⟩ 1 (by decide +kernel) (by decide +kernel)
      rfl (by decide +kernel) (by decide +kernel) (by decide +kernel) (by decide +kernel)
  · exact execute_both_of_inOrder ⟨["A"], [[.text "x"]]⟩ 1 (by decide +kernel) (by decide +kernel) rfl
      (by decide +kernel) (by decide +kernel) (by decide +kernel) (by decide +kernel)
  · exact execute_both_of_inOrder ⟨["A"], [[.text "y"]]⟩ 1 (by decide +kernel) (by decide +kernel) rfl
      (by decide +kernel) (by decide +kernel) (by decide +kernel) (by decide +kernel)
  · have hlength := h.perm.length_eq
    simp [whole, kept, rest] at hlength

end GridQuery
