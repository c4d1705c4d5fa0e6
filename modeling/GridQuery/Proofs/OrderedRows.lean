import GridQuery.Proofs.Collected
import GridQuery.Proofs.HavingSplit

/-!
`ORDER BY` only reorders. What it names may bring hidden fields along; they stand behind the fields of the
statement without it and have no part in grouping, in `DISTINCT` and in what is shown. So the rows that are
sorted show the rows of the statement without it, and sorting them is stable.
-/

namespace GridQuery
set_option autoImplicit false

/-! ### Stable sorts -/

/-- The stable sort of rows by keys: the same rows, ascending, and rows that are equal on all keys in the order
they came. -/
structure SortedInto (keys : List (Nat × Direction)) (rows sorted : List Row) : Prop where
  perm : sorted.Perm rows
  ascending : sorted.Pairwise fun a b => compareRows a b keys ≠ .gt
  stable : ∀ row ∈ rows, (sorted.filter fun r => compareRows row r keys = .eq) =
    rows.filter fun r => compareRows row r keys = .eq

theorem sortRows_sortedInto {keys : List (Nat × Direction)} {rows : List Row}
    (hrows : ∀ row ∈ rows, Keyed (keys.map Prod.fst) row) : SortedInto keys rows (sortRows keys rows) := by
  cases keys with
  | nil =>
    refine ⟨.refl rows, List.pairwise_of_forall fun _ _ => ?_, fun _ _ => rfl⟩
    simp [compareRows]
  | cons key keys =>
    let cmp (a b : Row) := compareRows a b (key :: keys)
    have hcmp : Std.TransCmp fun a b : KeyedRow ((key :: keys).map Prod.fst) => cmp a b :=
      compareRows_transCmp (key :: keys) fun _ h => h
    exact ⟨sortRows_perm _ rows, mergeSort_pairwise cmp hcmp hrows,
      fun row hrow => filter_eq_mergeSort cmp hcmp hrows (hrows row hrow)⟩

/-- Where rows that are equal on all keys are the same row, there is one way to sort. -/
theorem sortRows_eq {keys : List (Nat × Direction)} {rows sorted : List Row}
    (hrows : ∀ row ∈ rows, Keyed (keys.map Prod.fst) row) (hperm : sorted.Perm rows)
    (hsorted : sorted.Pairwise fun a b => compareRows a b keys ≠ .gt)
    (hsame : ∀ a ∈ rows, ∀ b ∈ rows, compareRows a b keys = .eq → a = b) : sortRows keys rows = sorted := by
  have hsort := sortRows_sortedInto hrows
  refine List.Perm.eq_of_pairwise (fun a b ha hb hab hba => ?_) hsort.ascending hsorted
    (hsort.perm.trans hperm.symm)
  have ha : a ∈ rows := hsort.perm.mem_iff.mp ha
  have hb : b ∈ rows := hperm.mem_iff.mp hb
  have hswap := (compareRows_transCmp keys fun _ h => h).eq_swap (a := ⟨a, hrows a ha⟩) (b := ⟨b, hrows b hb⟩)
  refine hsame a ha b hb ?_
  simp only at hswap
  cases ho : compareRows b a keys <;> simp_all

/-! ### Grouping with fields behind -/

section Grouped

variable {fields more : Fields}

theorem plainSlots_append (hhidden : ∀ f ∈ more, f.temporary = true) :
    plainSlots (fields ++ more) = plainSlots fields := by
  have hnone : ((more.zipIdx (0 + fields.length)).filter fun f => !f.1.temporary && !f.1.isAggregate) = [] := by
    apply List.filter_eq_nil_iff.mpr
    intro f hf
    simp [hhidden f.1 (List.fst_mem_of_mem_zipIdx hf)]
  rw [plainSlots, List.zipIdx_append, List.filter_append, hnone, List.append_nil, plainSlots]

theorem Fields.selectedCount_append (hhidden : ∀ f ∈ more, f.temporary = true) :
    (fields ++ more).selectedCount = fields.selectedCount := by
  rw [Fields.selectedCount_eq_titles, Fields.selectedCount_eq_titles, Fields.titles_append,
    Fields.titles_of_hidden hhidden, List.append_nil]

/-- A row shows the same without the cells behind those of the fields. -/
theorem take_selectedCount (fields : Fields) (row : Row) :
    (row.take fields.length).take fields.selectedCount = row.take fields.selectedCount := by
  rw [List.take_take]
  exact congrArg (List.take · row) (Nat.min_eq_left (List.length_filter_le _ _))

theorem dropRepeats_take (hhidden : ∀ f ∈ more, f.temporary = true) (rows : List Row) :
    dropRepeats fields (rows.map fun row => row.take fields.length) =
      (dropRepeats (fields ++ more) rows).map fun row => row.take fields.length := by
  unfold dropRepeats
  rw [keepFirst_map, Fields.selectedCount_append hhidden]
  simp only [take_selectedCount]

/-- Hidden fields behind have no part in grouping, as long as they bring no aggregate where there is none. -/
theorem grouped_take {keys : List Nat} (hkeys : ∀ k ∈ keys, k < fields.length)
    (hhidden : ∀ f ∈ more, f.temporary = true)
    (haggregates : keys = [] → (fields ++ more).hasAggregates = fields.hasAggregates)
    (distinct : Bool) (rows : List Row) :
    grouped fields keys distinct (rows.map fun row => row.take fields.length) =
      (grouped (fields ++ more) keys distinct rows).map fun row => row.take fields.length := by
  have hslots : ∀ k ∈ (if keys.isEmpty then plainSlots fields else keys), k < fields.length := by
    split
    · exact fun k hk => lt_of_mem_plainSlots hk
    · exact hkeys
  have hone : (keys.isEmpty && (fields ++ more).hasAggregates) = (keys.isEmpty && fields.hasAggregates) := by
    cases keys with
    | nil => rw [haggregates rfl]
    | cons => rfl
  unfold grouped
  rw [hone, plainSlots_append hhidden]
  split
  · rw [compress_take more, List.map_singleton]
  · split
    · rfl
    · simp only
      rw [groupBy_take more hslots]
      split
      · exact dropRepeats_take hhidden _
      · rfl

end Grouped

/-! ### Fields for an order -/

section Layouts

variable {sources : List Table} {s : Statement} {orderBy : List OrderItem} {plan more : Layout}

/-- An order resolves to keys with its directions, and adds hidden fields for its expressions behind. -/
theorem layout_without_order (h : layout sources { s with orderBy := [] } = .ok plan)
    (hmore : layout sources { s with orderBy } = .ok more) :
    more.groupKeys = plan.groupKeys ∧ more.orderKeys.map Prod.snd = orderBy.map OrderItem.direction ∧
      ∃ added, more.fields = plan.fields ++ added ∧
        ∀ f ∈ added, ∃ o ∈ orderBy, Fields.hidden sources "ORDER BY" o.expr = .ok f := by
  obtain ⟨selected, fs₁, fs₂, _, _, hselected, h₁, h₂, h₃, _⟩ := layout_steps h
  obtain ⟨selected', fs₁', fs₂', _, slots, hselected', h₁', h₂', h₃', hkeys⟩ := layout_steps hmore
  cases h₃
  obtain rfl : selected = selected' := Except.ok.inj (hselected.symm.trans hselected')
  obtain ⟨hgroups, rfl⟩ := Prod.mk.inj (Except.ok.inj (h₁.symm.trans h₁'))
  obtain ⟨_, hfields⟩ := Prod.mk.inj (Except.ok.inj (h₂.symm.trans h₂'))
  obtain ⟨added, hadded, hhidden⟩ := Fields.resolveAll_append h₃'
  have hlength := Fields.resolveAll_length h₃'
  refine ⟨hgroups.symm, ?_, added, ?_, fun f hf => ?_⟩
  · rw [hkeys, List.map_snd_zip (by simpa using hlength.ge)]
  · rw [hadded, ← hfields]
  · obtain ⟨e, he, hf⟩ := hhidden f hf
    obtain ⟨o, ho, rfl⟩ := List.mem_map.mp he
    exact ⟨o, ho, hf⟩

theorem Fields.hidden_plain {clause : String} {e : Expr} {f : Field} (hplain : e.aggregate? = none)
    (h : Fields.hidden sources clause e = .ok f) : f.aggregate = none := by
  obtain ⟨g, hg, rfl⟩ := Fields.hidden_eq_ok h
  rw [Field.ofExpr_plain hplain] at hg
  exact (Field.ofValue_aggregate hg : g.aggregate = none)

/-- A select list with an aggregate has a field that folds. -/
theorem Fields.ofSelect_hasAggregates {items : List SelectItem} {fs : Fields}
    (h : Fields.ofSelect sources items = .ok fs) {item : SelectItem} (hitem : item ∈ items)
    (haggregate : item.expr.aggregate?.isSome = true) : fs.hasAggregates = true := by
  obtain ⟨before, after, rfl⟩ := List.append_of_mem hitem
  obtain ⟨_, gs, _, hgs, rfl⟩ := Fields.ofSelect_append.mp h
  obtain ⟨fs, hfs, hgs⟩ := bind_eq_ok.mp hgs
  obtain ⟨others, _, hgs⟩ := bind_eq_ok.mp hgs
  cases hgs
  obtain ⟨call, hcall⟩ := Option.isSome_iff_exists.mp haggregate
  obtain ⟨_, _, f, _, _, rfl, _, hf, _⟩ := Fields.ofItem_aggregate hcall hfs
  simp [Fields.hasAggregates, Field.isAggregate, hf]

/-- An order by aggregates only where there are some already makes no aggregates out of none. -/
theorem hasAggregates_without_order
    (haggregates : (∃ item ∈ s.items, item.expr.aggregate?.isSome = true) ∨
      ∀ o ∈ orderBy, o.expr.aggregate? = none)
    (h : layout sources { s with orderBy := [] } = .ok plan)
    (hmore : layout sources { s with orderBy } = .ok more) :
    more.fields.hasAggregates = plan.fields.hasAggregates := by
  obtain ⟨_, _, added, hfields, hadded⟩ := layout_without_order h hmore
  rw [hfields]
  unfold Fields.hasAggregates
  rw [List.any_append]
  rcases haggregates with ⟨item, hitem, haggregate⟩ | hplain
  · obtain ⟨selected, behind, hselected, hplan, _⟩ := layout_append h
    have hsome := Fields.ofSelect_hasAggregates hselected hitem haggregate
    unfold Fields.hasAggregates at hsome
    rw [hplan, List.any_append, hsome, Bool.true_or, Bool.true_or]
  · have hnone : added.any Field.isAggregate = false := by
      apply List.any_eq_false.mpr
      intro f hf
      obtain ⟨o, ho, hf⟩ := hadded f hf
      simp [Field.isAggregate, Fields.hidden_plain (hplain o ho) hf]
    rw [hnone, Bool.or_false]

end Layouts

/-! ### What is ordered -/

/-- What a statement without `HAVING` puts in order: its groups, with a cell for each of its fields, hidden ones
too; and its plan, which has the keys. -/
def orderable {σ : Type} (world : World) (runner : Runner σ) (s : Statement) :
    Run σ (Layout × Fields × List Row) := do
  let t ← expanded world runner s
  let (plan, fields, cells) ← madeRows world runner t
  pure (plan, fields, grouped fields plan.groupKeys t.distinct cells)

/-- One result shows the beginnings of the rows that a statement puts in order, the other one those of their
stable sort by the keys of its `ORDER BY`. -/
structure Statement.Reorders (world : World) (runner : Runner Unit) (s : Statement)
    (whole ordered : ResultSet) : Prop where
  titles : ordered.titles = whole.titles
  rows : ∃ plan fields full sorted, (orderable world runner s).Gives () (plan, fields, full) () ∧
    plan.orderKeys.map Prod.snd = s.orderBy.map OrderItem.direction ∧
    SortedInto plan.orderKeys full sorted ∧
    whole.rows = full.map (fun row => row.take fields.selectedCount) ∧
    ordered.rows = sorted.map fun row => row.take fields.selectedCount

/-- The groups of a statement have a cell for each key of its order. -/
theorem keepGroups_keyed {σ : Type} {world : World} {runner : Runner σ} {s : Statement} {plan : Layout}
    {fields : Fields} {cells groups : List Row} {having : Option Condition} {st st' mid last : σ}
    (hmade : (madeRows world runner s).Gives st (plan, fields, cells) st')
    (hgroups : (keepGroups world runner fields (grouped fields plan.groupKeys s.distinct cells) having).Gives
      mid groups last) :
    ∀ row ∈ groups, Keyed (plan.orderKeys.map Prod.fst) row := by
  obtain ⟨hwidths, _, hkeys⟩ := madeRows_widths hmade
  intro row hrow slot hslot
  obtain ⟨key, hkey, rfl⟩ := List.mem_map.mp hslot
  rw [keepGroups_length (grouped_length hwidths) hgroups row hrow]
  exact hkeys key hkey

section Reorders

variable {world : World} {runner : Runner Unit} {s : Statement} {orderBy : List OrderItem}
  {whole ordered : ResultSet}

theorem Statement.Reorders.perm (h : s.Reorders world runner whole ordered) :
    ordered.rows.Perm whole.rows := by
  obtain ⟨_, _, full, sorted, _, _, hsorted, hwhole, hordered⟩ := h.rows
  rw [hwhole, hordered]
  exact hsorted.perm.map _

theorem runPlain_grouped_rows {r : ResultSet} (hhaving : s.having = none) (hlimit : s.limit = none)
    (h : (runPlain world runner s).Gives () r ()) :
    ∃ plan fields cells, (madeRows world runner s).Gives () (plan, fields, cells) () ∧
      r = ⟨fields.titles, (sortRows plan.orderKeys (grouped fields plan.groupKeys s.distinct cells)).map
        fun row => row.take fields.selectedCount⟩ := by
  rw [runPlain_eq] at h
  obtain ⟨⟨plan, fields, cells⟩, _, hmade, h⟩ := Run.gives_bind.mp h
  obtain ⟨kept, _, hkept, h⟩ := Run.gives_bind.mp h
  obtain ⟨rfl, _⟩ := Run.gives_pure.mp h
  rw [hhaving] at hkept
  obtain ⟨rfl, _⟩ := Run.gives_pure.mp hkept
  exact ⟨plan, fields, cells, hmade, by rw [hlimit]; rfl⟩

/-- Rows with an order and rows without one, of a statement whose pivot is expanded. -/
theorem runPlain_reorders {t : Statement} (hexpanded : (expanded world runner s).Gives () t ())
    (hhaving : t.having = none) (hlimit : t.limit = none)
    (haggregates : t.groupBy ≠ [] ∨ (∃ item ∈ t.items, item.expr.aggregate?.isSome = true) ∨
      ∀ o ∈ orderBy, o.expr.aggregate? = none)
    (h : (runPlain world runner { t with orderBy := [] }).Gives () whole ())
    (hmore : (runPlain world runner { t with orderBy }).Gives () ordered ()) :
    ({ s with orderBy } : Statement).Reorders world runner whole ordered := by
  obtain ⟨plan, fields, cells, hmade, rfl⟩ :=
    runPlain_grouped_rows (s := { t with orderBy := [] }) hhaving hlimit h
  obtain ⟨plan', fields', cells', hmade', rfl⟩ :=
    runPlain_grouped_rows (s := { t with orderBy }) hhaving hlimit hmore
  obtain ⟨⟨sources, hplan, hplan'⟩, hpointed, hpointed', added, rfl, hhidden, rfl⟩ :=
    madeRows_behind { t with orderBy := [] } { t with orderBy } rfl rfl rfl
      (fun hplan hplan' => by
        obtain ⟨_, _, added, hfields, hadded⟩ := layout_without_order hplan hplan'
        refine ⟨added, hfields, fun f hf => ?_⟩
        obtain ⟨_, _, hf⟩ := hadded f hf
        exact Fields.hidden_temporary hf) hmade hmade'
  obtain ⟨hgroupKeys, horderKeys, _⟩ := layout_without_order hplan hplan'
  obtain ⟨_, hkeys, _⟩ := madeRows_widths hmade
  have hnone : plan.groupKeys = [] → (fields ++ added).hasAggregates = fields.hasAggregates := by
    intro hempty
    have hgroups : t.groupBy = [] := by
      by_contra hne
      have hsome := layout_groupKeys_isEmpty hplan hne
      rw [hempty] at hsome
      cases hsome
    have hlook {fs gs : Fields} (hsame : fs.map Field.unpointed = gs.map Field.unpointed) :
        fs.hasAggregates = gs.hasAggregates := by
      have hmap : fs.map Field.isAggregate = gs.map Field.isAggregate :=
        map_eq_of_unpointed hsame fun _ => rfl
      simpa [Fields.hasAggregates, List.any_map] using congrArg (List.any · id) hmap
    rw [hlook hpointed, hlook hpointed']
    exact hasAggregates_without_order (haggregates.resolve_left (not_not_intro hgroups)) hplan hplan'
  have hgrouped := grouped_take hkeys hhidden hnone t.distinct cells'
  have hkept : (keepGroups world runner (fields ++ added)
      (grouped (fields ++ added) plan'.groupKeys t.distinct cells') none).Gives () _ () :=
    Run.gives_pure.mpr ⟨rfl, rfl⟩
  have hcount : (fields ++ added).selectedCount = fields.selectedCount := Fields.selectedCount_append hhidden
  refine ⟨?_, plan', fields ++ added, grouped (fields ++ added) plan'.groupKeys t.distinct cells', _, ?_,
    horderKeys, sortRows_sortedInto (keepGroups_keyed hmade' hkept), ?_, rfl⟩
  · change (fields ++ added).titles = fields.titles
    rw [Fields.titles_append, Fields.titles_of_hidden hhidden, List.append_nil]
  · unfold orderable
    rw [expanded_orderBy]
    refine Run.gives_bind.mpr ⟨{ t with orderBy }, (), Run.gives_bind.mpr ⟨t, (), hexpanded,
      Run.gives_pure.mpr ⟨rfl, rfl⟩⟩, ?_⟩
    exact Run.gives_bind.mpr ⟨_, (), hmade', Run.gives_pure.mpr ⟨rfl, rfl⟩⟩
  · have hunsorted : plan.orderKeys = [] := (layout_keys hplan).2 rfl
    simp only [hunsorted, sortRows, List.isEmpty_nil, if_true]
    rw [hgrouped, hgroupKeys, List.map_map, hcount]
    exact List.map_congr_left fun row _ => take_selectedCount fields row

theorem runPivot_reorders (hhaving : s.having = none) (hlimit : s.limit = none)
    (haggregates : s.groupBy ≠ [] ∨ (∃ item ∈ s.items, item.expr.aggregate?.isSome = true) ∨
      ∀ o ∈ orderBy, o.expr.aggregate? = none)
    (h : (runPivot world runner { s with orderBy := [] }).Gives () whole ())
    (hmore : (runPivot world runner { s with orderBy }).Gives () ordered ()) :
    ({ s with orderBy } : Statement).Reorders world runner whole ordered := by
  rw [runPivot_eq, expanded_orderBy] at h hmore
  obtain ⟨_, _, hexpanded, h⟩ := Run.gives_bind.mp h
  obtain ⟨t, _, ht, hexpanded⟩ := Run.gives_bind.mp hexpanded
  obtain ⟨rfl, _⟩ := Run.gives_pure.mp hexpanded
  obtain ⟨_, _, hexpanded, hmore⟩ := Run.gives_bind.mp hmore
  obtain ⟨t', _, ht', hexpanded⟩ := Run.gives_bind.mp hexpanded
  obtain ⟨rfl, _⟩ := Run.gives_pure.mp hexpanded
  obtain rfl := (ht.unique ht').1
  have haggregates' : t.groupBy ≠ [] ∨ (∃ item ∈ t.items, item.expr.aggregate?.isSome = true) ∨
      ∀ o ∈ orderBy, o.expr.aggregate? = none := by
    unfold expanded at ht
    split at ht
    · rwa [(Run.gives_pure.mp ht).1]
    · split at ht
      · exact absurd ht Run.not_gives_throw
      · rename_i hgroups
        obtain ⟨_, _, _, ht⟩ := Run.gives_bind.mp ht
        rw [(Run.gives_pure.mp ht).1]
        exact Or.inl fun hempty => hgroups (by simpa [pivoted] using hempty)
  obtain ⟨items, pivot, rfl⟩ := expanded_gives ht
  exact runPlain_reorders ht hhaving hlimit haggregates' h hmore

end Reorders

/-! ### Runs into a given order -/

/-- Running with the groups in an order that is given; none where it is not the only one asked for. -/
def runInto {σ : Type} (world : World) (runner : Runner σ) (s : Statement) (sorted : List Row) :
    Run σ (Option ResultSet) := do
  let (plan, fields, cells) ← madeRows world runner s
  match groupedInOrder fields plan.groupKeys s.distinct cells with
  | none => pure none
  | some rows => do
    let groups ← keepGroups world runner fields rows s.having
    pure (if sorted.Perm groups ∧ (sorted.Pairwise fun a b => compareRows a b plan.orderKeys ≠ .gt) ∧
        ∀ a ∈ groups, ∀ b ∈ groups, compareRows a b plan.orderKeys = .eq → a = b then
      some ⟨fields.titles, cut fields s.limit sorted⟩ else none)

theorem runPlain_of_into {σ : Type} {world : World} {runner : Runner σ} {s : Statement} (sorted : List Row)
    {r : ResultSet} {st st' : σ} (h : (runInto world runner s sorted).Gives st (some r) st') :
    (runPlain world runner s).Gives st r st' := by
  obtain ⟨⟨plan, fields, cells⟩, mid, hmade, h⟩ := Run.gives_bind.mp h
  rw [runPlain_eq]
  refine Run.gives_bind.mpr ⟨⟨plan, fields, cells⟩, mid, hmade, ?_⟩
  simp only at h ⊢
  split at h
  · cases (Run.gives_pure.mp h).1
  · rename_i rows hrows
    obtain ⟨groups, last, hgroups, h⟩ := Run.gives_bind.mp h
    rw [grouped_of_inOrder hrows]
    refine Run.gives_bind.mpr ⟨groups, last, hgroups, ?_⟩
    obtain ⟨hresult, rfl⟩ := Run.gives_pure.mp h
    split at hresult
    · rename_i hgiven
      obtain ⟨hperm, hsorted, hsame⟩ := hgiven
      rw [← grouped_of_inOrder hrows] at hgroups
      rw [sortRows_eq (keepGroups_keyed hmade hgroups) hperm hsorted hsame]
      exact Run.gives_pure.mpr ⟨Option.some.inj hresult, rfl⟩
    · cases hresult

/-! ### With an order and without one -/

theorem depth_without_order (s : Statement) (orderBy : List OrderItem) :
    ({ s with orderBy := [] } : Statement).depth ≤ ({ s with orderBy } : Statement).depth := by
  have hclause : nesting.orders [] ≤ nesting.orders orderBy := Nat.zero_le _
  simp only [Statement.depth, Tally.statement]
  exact Nat.succ_le_succ (max_le_max le_rfl (max_le_max le_rfl (max_le_max le_rfl (max_le_max le_rfl
    (max_le_max le_rfl (max_le_max le_rfl (max_le_max hclause le_rfl)))))))

/-- Without `HAVING` and limit, an order only reorders what a statement shows: the rows with it are those without
it in the stable sort by the cells of the keys. Where set operations follow, each of the two results is what they
make of the rows with the order and of those without it. Running nested statements again is to come to what the
query keeps. -/
theorem order_only_reorders {world : World} {s : Statement} {orderBy : List OrderItem} {r r' : ResultSet}
    (hhaving : s.having = none) (hlimit : s.limit = none)
    (haggregates : s.groupBy ≠ [] ∨ (∃ item ∈ s.items, item.expr.aggregate?.isSome = true) ∨
      ∀ o ∈ orderBy, o.expr.aggregate? = none)
    (hkept : ∀ order ∈ [[], orderBy],
      execute world { s with orderBy := order } = executeAnew world { s with orderBy := order })
    (h : execute world { s with orderBy := [] } = .ok r)
    (h' : execute world { s with orderBy } = .ok r') :
    ∃ depth whole ordered,
      (run anew world (depth + 1) { s with orderBy := [], operations := [] }).Gives () whole () ∧
      (run anew world (depth + 1) { s with orderBy, operations := [] }).Gives () ordered () ∧
      ({ s with orderBy } : Statement).Reorders world (runnerAt anew world depth) whole ordered ∧
      (combineAll (runnerAt anew world depth) whole s.operations).Gives () r () ∧
      (combineAll (runnerAt anew world depth) ordered s.operations).Gives () r' () ∧
      (s.operations = [] → r = whole ∧ r' = ordered) := by
  have alone {depth : Nat} {order : List OrderItem} {left : ResultSet}
      (h : (runPivot world (runnerAt anew world depth) { s with orderBy := order }).Gives () left ()) :
      (run anew world (depth + 1) { s with orderBy := order, operations := [] }).Gives () left () :=
    Run.gives_bind.mpr ⟨left, (), h, Run.gives_pure.mpr ⟨rfl, rfl⟩⟩
  rw [hkept _ (by simp)] at h h'
  obtain ⟨depth, hdepth⟩ : ∃ depth, ({ s with orderBy } : Statement).depth = depth + 1 := ⟨_, rfl⟩
  have hle := depth_without_order s orderBy
  have hwith := run_of_executeAnew h'
  rw [hdepth] at hle hwith
  have hwithout := run_anew_of_le hle (run_of_executeAnew h)
  obtain ⟨whole, _, hwhole, hr⟩ := Run.gives_bind.mp hwithout
  obtain ⟨ordered, _, hordered, hr'⟩ := Run.gives_bind.mp hwith
  refine ⟨depth, whole, ordered, alone hwhole, alone hordered,
    runPivot_reorders hhaving hlimit haggregates hwhole hordered, hr, hr', fun hnone => ?_⟩
  change (combineAll _ whole s.operations).Gives () r () at hr
  change (combineAll _ ordered s.operations).Gives () r' () at hr'
  rw [hnone] at hr hr'
  exact ⟨(Run.gives_pure.mp hr).1, (Run.gives_pure.mp hr').1⟩

theorem order_only_reorders_dearestFirst :
    let whole : ResultSet := ⟨["A"], [[.text "tea"], [.text "ink"]]⟩
    let ordered : ResultSet := ⟨["A"], [[.text "ink"], [.text "tea"]]⟩
    execute pricesWorld { dearestFirst with orderBy := [] } = .ok whole ∧
    execute pricesWorld { dearestFirst with orderBy := [⟨.column none "B", .desc⟩] } = .ok ordered ∧
    ∃ depth, ({ dearestFirst with orderBy := [⟨.column none "B", .desc⟩] } : Statement).Reorders pricesWorld
      (runnerAt anew pricesWorld depth) whole ordered := by
  intro whole ordered
  have hwhole : execute pricesWorld { dearestFirst with orderBy := [] } = .ok whole ∧
      executeAnew pricesWorld { dearestFirst with orderBy := [] } = .ok whole :=
    execute_both_of_inOrder whole 0 (by decide +kernel) (by decide +kernel) rfl (by decide +kernel)
      (by decide +kernel) (by decide +kernel) (by decide +kernel)
  let sorted : List Row := [[.text "ink", .text "10"], [.text "tea", .number 9]]
  have hordered : execute pricesWorld { dearestFirst with orderBy := [⟨.column none "B", .desc⟩] } = .ok ordered ∧
      executeAnew pricesWorld { dearestFirst with orderBy := [⟨.column none "B", .desc⟩] } = .ok ordered :=
    execute_both_of_runPlain ordered 0 (by decide +kernel) (by decide +kernel) rfl
      (runPlain_of_into sorted (by decide +kernel)) (by decide +kernel)
      (runPlain_of_into sorted (by decide +kernel)) (by decide +kernel)
  have hkept : ∀ order ∈ [[], [⟨.column none "B", .desc⟩]],
      execute pricesWorld { dearestFirst with orderBy := order } =
        executeAnew pricesWorld { dearestFirst with orderBy := order } := by
    simp only [List.forall_mem_cons, List.not_mem_nil, false_implies, implies_true, and_true]
    exact ⟨hwhole.1.trans hwhole.2.symm, hordered.1.trans hordered.2.symm⟩
  obtain ⟨depth, _, _, _, _, hreorders, _, _, hsame⟩ := order_only_reorders (s := dearestFirst) rfl rfl
    (Or.inr (Or.inr (by decide +kernel))) hkept hwhole.1 hordered.1
  obtain ⟨rfl, rfl⟩ := hsame rfl
  exact ⟨hwhole.1, hordered.1, depth, hreorders⟩

/-- `SELECT B FROM U ORDER BY B UNION ALL SELECT A FROM T` -/
def orderedThenLetters : Statement :=
  ⟨false, [⟨.column none "B", "B", none⟩], .table "U" none, [], none, [], none, [⟨.column none "B", .asc⟩], none,
    none, [⟨.unionAll, ⟨false, [⟨.column none "A", "A", none⟩], .table "T" none, [], none, [], none, [], none,
      none, []⟩⟩]⟩

/-- The order is that of the first operand; the rows of the other one stay behind. -/
theorem united_rows_unordered :
    let world := lettersWorld
    let s := orderedThenLetters
    let r : ResultSet := ⟨["B"], [[.text "z"], [.text "x"], [.text "x"], [.text "y"]]⟩
    s.having = none ∧ s.limit = none ∧ (∀ o ∈ s.orderBy, o.expr.aggregate? = none) ∧
    (execute world { s with orderBy := [] } = .ok r ∧ executeAnew world { s with orderBy := [] } = .ok r) ∧
    (execute world s = .ok r ∧ executeAnew world s = .ok r) ∧
    (layout [.derived "U" ["B"] [[.text "z"]]] s).map Layout.orderKeys = .ok [(0, .asc)] ∧
    ¬ SortedInto [(0, .asc)] r.rows r.rows := by
  intro world s r
  refine ⟨rfl, rfl, by decide +kernel, ?_, ?_, by decide +kernel, fun h => ?_⟩
  · exact execute_both_of_inOrder ⟨["B"], [[.text "z"]]⟩ 1 (by decide +kernel) (by decide +kernel) rfl
      (by decide +kernel) (by decide +kernel) (by decide +kernel) (by decide +kernel)
  · exact execute_both_of_inOrder ⟨["B"], [[.text "z"]]⟩ 1 (by decide +kernel) (by decide +kernel) rfl
      (by decide +kernel) (by decide +kernel) (by decide +kernel) (by decide +kernel)
  · have hpairs := h.ascending
    revert hpairs
    decide +kernel

end GridQuery
