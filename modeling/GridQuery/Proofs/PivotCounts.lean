import GridQuery.Proofs.PivotRows
import GridQuery.Proofs.SteadyCells
import GridQuery.Proofs.Visible

/-!
Counting in a pivot. Each row of a group has one of the values that were collected, if `=` relates the same
cells as collecting does. Then the counts of a group, over all values, come to the number of its rows.
-/

namespace GridQuery
set_option autoImplicit false

/-- One more row is counted once for each value that it has. -/
theorem sum_countP_cons {α β : Type} (rel : α → β → Bool) (a : α) (as : List α) (bs : List β) :
    (bs.map fun b => (a :: as).countP fun a => rel a b).sum =
      bs.countP (rel a) + (bs.map fun b => as.countP fun a => rel a b).sum := by
  induction bs with
  | nil => rfl
  | cons b bs ih =>
    rw [List.map_cons, List.sum_cons, ih, List.map_cons, List.sum_cons, List.countP_cons, List.countP_cons]
    omega

/-- Rows that have one value each are as many as the values count. -/
theorem sum_countP {α β : Type} {rel : α → β → Bool} {as : List α} {bs : List β}
    (h : ∀ a ∈ as, bs.countP (rel a) = 1) : (bs.map fun b => as.countP fun a => rel a b).sum = as.length := by
  induction as with
  | nil => simp
  | cons a as ih =>
    obtain ⟨ha, hrest⟩ := List.forall_mem_cons.mp h
    rw [sum_countP_cons, ha, ih hrest, List.length_cons, Nat.add_comm]

namespace Fields

variable {sources : List Table}

/-- A selected expression is ahead as a key, whatever is selected behind it. -/
theorem ahead_of_item {item : SelectItem} {front : Fields} (later : Fields)
    (h : ofItem sources item = .ok front) (hstar : ∀ qualifier, item.expr ≠ .star qualifier)
    (hnumber : ∀ x, item.expr ≠ .literal (.number x)) : Ahead sources front later item.expr := by
  apply Ahead.spelled hnumber
  have hne : normalize item.expr.text ≠ "" := normalize_ne_empty (Expr.visible_text hnumber)
  obtain ⟨g, _, rfl⟩ := ofItem_one hstar h
  rw [findSpelling?, List.findIdx?_cons, Field.contains_spell hne, if_pos rfl]
  rfl

/-- A count of rows has one field, which folds a star. -/
theorem ofItem_count {item : SelectItem} {call : AggregateCall} (hcall : item.expr.aggregate? = some call)
    (hcount : call.aggregator = .count ∧ call.distinct = false ∧ call.args = [.star none]) :
    ∃ f, ofItem sources item = .ok [f] ∧ f.kind = .star ∧ f.aggregate = some ⟨.count, false⟩ ∧
      f.title = item.title := by
  have hfield : ∃ f, Field.ofExpr sources item.title item.expr = .ok f := by
    unfold Field.ofExpr
    simp only [hcall, hcount.2.2]
    exact ⟨_, rfl⟩
  obtain ⟨f, hf⟩ := hfield
  have hitem : ofItem sources item = .ok [f.spell item.expr.text] := by
    unfold ofItem
    split
    · rename_i qualifier hstar
      rw [hstar] at hcall
      cases hcall
    · exact bind_eq_ok.mpr ⟨f, hf, rfl⟩
  obtain ⟨argument, star, counted, hargs, hargument, hone, hkind, hfolds, htitle⟩ :=
    ofItem_aggregate hcall hitem
  rw [hcount.2.2] at hargs
  cases hargs
  refine ⟨counted, hitem.trans (congrArg _ hone), ?_, ?_, htitle⟩
  · rw [hkind]
    exact (Field.ofValue_star hargument).mpr ⟨none, rfl⟩
  · rw [hfolds, hcount.1, hcount.2.1]

end Fields

/-- The expression of a calculated field is the one that the field is of. -/
theorem Field.ofValue_calculated {sources : List Table} {title : String} {e e' : Expr} {f : Field}
    (h : ofValue sources title e = .ok f) (hkind : f.kind = .calculated e') : e' = e := by
  cases e with
  | column table name =>
    obtain ⟨s, c, _, hcolumn, _⟩ := ofValue_column h
    rw [hcolumn] at hkind
    cases hkind
  | star qualifier =>
    rw [(ofValue_star h).mpr ⟨qualifier, rfl⟩] at hkind
    cases hkind
  | subquery q =>
    cases h
    cases hkind
  | literal | bind | binary | unary | call | case | ite | list | paren =>
    simp only [ofValue] at h
    split at h
    · cases h
    · cases h
      cases hkind
      rfl

/-- A count is the number of cells that take part. -/
theorem fold_count {c : Cell} (hc : c.takesPart = true) (group : List Nat) :
    (⟨.count, false⟩ : Aggregate).fold (group.map fun _ => c) = .number (Float.ofNat group.length) := by
  have hall : (group.map fun _ => c).filter Cell.takesPart = group.map fun _ => c := by
    apply List.filter_eq_self.mpr
    intro x hx
    obtain ⟨_, _, rfl⟩ := List.mem_map.mp hx
    exact hc
  rw [Aggregate.fold, hall, Aggregator.fold]
  simp only [Bool.false_eq_true, if_false, List.length_map]

/-- What a key and a count show in a pivot. -/
theorem flatMap_pivotTitles {f folded : Field} {a : Aggregate} (hf : f.aggregate = none)
    (ha : folded.aggregate = some a) (values : List Cell) :
    ([f] ++ [folded]).flatMap (pivotTitles values) =
      f.title :: values.map fun v => v.key ++ " " ++ folded.title := by
  simp only [List.cons_append, List.nil_append, List.flatMap_cons, List.flatMap_nil, List.append_nil,
    pivotTitles, hf, ha]

theorem flatMap_pivotCells {f folded : Field} {cell : FieldKind → Nat → Cell} {c : Cell}
    (hf : f.aggregate = none) (hfolded : folded.aggregate = some ⟨.count, false⟩) (hc : c.takesPart = true)
    (hcell : ∀ i, cell folded.kind i = c) (values : List Cell) (pivotCell : Nat → Cell) (group : List Nat) :
    ([f] ++ [folded]).flatMap (pivotCells values pivotCell cell group) =
      cell f.kind (group.headD 0) :: values.map fun v =>
        .number (Float.ofNat (group.countP fun i => (pivotCell i).looseEq v)) := by
  have hfold (v : Cell) : (⟨.count, false⟩ : Aggregate).fold
      ((group.filter fun i => (pivotCell i).looseEq v).map (cell folded.kind)) =
        .number (Float.ofNat (group.countP fun i => (pivotCell i).looseEq v)) := by
    rw [show cell folded.kind = fun _ => c from funext hcell, fold_count hc, List.countP_eq_length_filter]
  simp only [List.cons_append, List.nil_append, List.flatMap_cons, List.flatMap_nil, List.append_nil,
    pivotCells, hf, hfolded, groupCell, hfold]

/-- One key in front has the first slot. -/
theorem keySlots_single {sources : List Table} {f : Field} {later : Fields} {e : Expr}
    (h : Fields.Ahead sources [f] later e) : keySlots sources [f] [e] = [0] := by
  have hahead : ∀ e' ∈ [e], Fields.Ahead sources [f] later e' := by
    intro e' he'
    rw [List.mem_singleton.mp he']
    exact h
  have hlt : (Fields.find? [f] sources e).getD 0 < 1 :=
    lt_of_mem_keySlots hahead (List.mem_singleton.mpr rfl)
  rw [keySlots, List.map_singleton, Nat.lt_one_iff.mp hlt]

theorem Expr.self_mem_parts (e : Expr) : e ∈ e.parts := by
  cases e <;> simp [Expr.parts]

section Settled

variable {world : World} {working : Table} {depth : Nat} {memo : ResultMemo} {sources : List Table}
  {ids : List Nat} {s : Statement} {pivot : Expr}

theorem evaluated_eq_fieldValue
    (hcolumn : ∀ name, working.column? name = (resolveFrom 0 name sources).map (placeOf sources))
    {title : String} {e : Expr} {g : Field} (hg : Field.ofValue sources title e = .ok g)
    (hstar : ∀ qualifier, e ≠ .star qualifier)
    (hnested : ∀ q, e = .subquery q → (rowsAt world working depth).scope.written? e = none) (i : Nat) :
    (rowsAt world working depth).evaluated e i =
      (rowsAt world working depth).fieldValue sources g.kind i := by
  have hkind : g.kind ≠ .star := by
    intro hstarred
    obtain ⟨qualifier, hqualifier⟩ := (Field.ofValue_star hg).mp hstarred
    exact hstar qualifier hqualifier
  unfold Rows.evaluated Rows.fieldValue
  rw [formula_eq_kindFormula hcolumn hg hkind hnested]

/-- Over an aggregate, something is collected always: one row of all that is left. -/
theorem collects_of_aggregate {values : ResultSet} {call : AggregateCall}
    (hcall : pivot.aggregate? = some call)
    (h : (runPlain world (runnerAt remembered world depth) (pivotValues s pivot)).Settles memo values) :
    values.column 0 ≠ [] := by
  rw [runPlain_eq] at h
  obtain ⟨⟨plan, pointed, cells⟩, mid, hmade, h⟩ := Run.gives_bind.mp h
  obtain ⟨rows, mid', hrows, h⟩ := Run.gives_bind.mp h
  obtain ⟨rfl, rfl⟩ := Run.gives_pure.mp hrows
  obtain ⟨rfl, rfl⟩ := Run.gives_pure.mp h
  obtain ⟨sources, working, ids, _, hplan, hpointed⟩ := opened_of_madeRows hmade
  obtain ⟨fields, slot, hitem, hresolve, hkeys⟩ := layout_pivotValues hplan
  obtain ⟨_, _, f, _, _, rfl, _, hfold, _⟩ := Fields.ofItem_aggregate hcall hitem
  have hf : f ∈ plan.fields := by
    rcases Fields.resolve_eq_ok hresolve with ⟨hsame, _⟩ | ⟨added, _, hmore, _⟩
    · exact hsame ▸ List.mem_singleton.mpr rfl
    · exact hmore ▸ List.mem_cons_self
  have hisAggregate : pointed.map Field.isAggregate = plan.fields.map Field.isAggregate :=
    map_eq_of_unpointed hpointed fun _ => rfl
  have hfolds : pointed.hasAggregates = true := by
    have hany : (pointed.map Field.isAggregate).any id = true := by
      rw [hisAggregate]
      apply List.any_eq_true.mpr
      exact ⟨true, List.mem_map.mpr ⟨f, hf, by rw [Field.isAggregate, hfold]; rfl⟩, rfl⟩
    rwa [List.any_map] at hany
  have hgrouped : grouped pointed plan.groupKeys (pivotValues s pivot).distinct cells =
      [compress pointed cells] := by
    simp only [grouped, hkeys, List.isEmpty_nil, hfolds, Bool.and_self, if_true]
  intro hnone
  have hrows := List.map_eq_nil_iff.mp (List.map_eq_nil_iff.mp hnone)
  have hlength := (sortRows_perm plan.orderKeys [compress pointed cells]).length_eq
  rw [← hgrouped, hrows, hgrouped] at hlength
  cases hlength

/-- The pivot expression of a statement that runs is no aggregate: choices would have it within them. -/
theorem pivot_plain {values : ResultSet} {item : SelectItem} {call : AggregateCall} {fs : Fields}
    (hitem : item.expr.aggregate? = some call)
    (hvalues : (runPlain world (runnerAt remembered world depth) (pivotValues s pivot)).Settles memo values)
    (h : Fields.ofSelect sources (pivotItem pivot (values.column 0) item) = .ok fs) :
    pivot.aggregate? = none := by
  by_contra hsome
  obtain ⟨folded, hfolded⟩ := Option.ne_none_iff_exists'.mp hsome
  obtain ⟨v, others, hfirst⟩ := List.exists_cons_of_ne_nil (collects_of_aggregate hfolded hvalues)
  rw [hfirst] at h
  simp only [pivotItem, hitem, List.map_cons, Fields.ofSelect] at h
  obtain ⟨gs, hgs, _⟩ := bind_eq_ok.mp h
  have hcontains : (pivotCase call pivot v).containsAggregate = true := by
    apply List.any_eq_true.mpr
    refine ⟨pivot, ?_, Option.isSome_iff_ne_none.mpr hsome⟩
    simp [pivotCase, Expr.parts, branchesParts, Condition.parts, Expr.self_mem_parts]
  have hpivot : (pivotCall call pivot v).aggregate? =
      some ⟨call.aggregator, call.name, call.distinct, [pivotCase call pivot v]⟩ := by
    rw [pivotCall_eq, Expr.aggregate?, Expr.aggregate?_name hitem, Option.map_some]
  obtain ⟨argument, g, _, hargs, hg, _⟩ := Fields.ofItem_aggregate hpivot hgs
  cases hargs
  rw [pivotCase] at hg hcontains
  simp only [Field.ofValue] at hg
  rw [if_pos hcontains] at hg
  cases hg

/-- A statement that runs has fields for its select list. -/
theorem ofSelect_of_settles {r : ResultSet} (hhaving : s.having = none)
    (hopened : (opened world (runnerAt remembered world depth) s).Settles memo (sources, working, ids))
    (h : (runPlain world (runnerAt remembered world depth) s).Settles memo r) :
    ∃ fs, Fields.ofSelect sources s.items = .ok fs := by
  rw [runPlain_eq, hhaving] at h
  obtain ⟨⟨plan, pointed, cells⟩, mid, hmade, h⟩ := Run.gives_bind.mp h
  obtain ⟨groups, mid', hgroups, h⟩ := Run.gives_bind.mp h
  obtain ⟨rfl, rfl⟩ := Run.gives_pure.mp hgroups
  obtain ⟨_, rfl⟩ := Run.gives_pure.mp h
  obtain ⟨sources', working', ids', hopened', hplan, _⟩ := opened_of_madeRows hmade
  cases hopened.unique hopened'
  obtain ⟨fs, _, _, _, _, hfs, _⟩ := layout_steps hplan
  exact ⟨fs, hfs⟩

/-- So it has fields for what a pivot makes of its last item. -/
theorem ofSelect_pivotItem {keyItem countItem : SelectItem} {values : List Cell} {r : ResultSet}
    (hitems : s.items = [keyItem, countItem]) (hhaving : s.having = none)
    (hopened : (opened world (runnerAt remembered world depth) s).Settles memo (sources, working, ids))
    (h : (runPlain world (runnerAt remembered world depth) (pivoted s pivot values)).Settles memo r) :
    ∃ spread, Fields.ofSelect sources (pivotItem pivot values countItem) = .ok spread := by
  have hselected : ∃ fs, Fields.ofSelect sources (pivoted s pivot values).items = .ok fs :=
    ofSelect_of_settles hhaving hopened h
  obtain ⟨selected, hselected⟩ := hselected
  have hpivoted : (pivoted s pivot values).items =
      pivotItem pivot values keyItem ++ pivotItem pivot values countItem := by
    rw [pivoted, hitems, List.flatMap_cons, List.flatMap_singleton]
  rw [hpivoted] at hselected
  obtain ⟨_, spread, _, hspread, _⟩ := Fields.ofSelect_append.mp hselected
  exact ⟨spread, hspread⟩

/-- Where `=` relates the pivot cells that collecting takes for one, every row has one of the values. -/
theorem counted_once {values : ResultSet}
    (hopened : (opened world (runnerAt remembered world depth) s).Settles memo (sources, working, ids))
    (hplain : pivot.aggregate? = none) (hstar : ∀ qualifier, pivot ≠ .star qualifier)
    (hnested : ∀ q, pivot = .subquery q → (rowsAt world working depth).scope.written? pivot = none)
    (hown : (runPlain world (runnerAt remembered world depth) (pivotValues s pivot)).Settles memo values)
    (hequal : EqualityCollects
      (ids.map fun i => ((rowsAt world working depth).evaluated pivot i).settled memo)) :
    let pivotCell := fun i => ((rowsAt world working depth).evaluated pivot i).settled memo
    ∀ i ∈ ids, ((rowsAt world working depth).evaluated pivot i).Settles memo (pivotCell i) ∧
      (values.column 0).countP (fun v => (pivotCell i).looseEq v) = 1 := by
  intro pivotCell i hi
  obtain ⟨g, hg, hreads, hperm⟩ := settles_pivotValues hopened hplain hstar hown
  have hevaluated (j : Nat) : (rowsAt world working depth).evaluated pivot j =
      (rowsAt world working depth).fieldValue sources g.kind j :=
    evaluated_eq_fieldValue (opened_column? hopened) hg hstar hnested j
  have hcells : pivotCell = (rowsAt world working depth).fieldCell sources memo g.kind := by
    funext j
    exact congrArg (fun m => Run.settled m memo) (hevaluated j)
  have hcollects : EqualityCollects (ids.map pivotCell) := hequal
  rw [hcells] at hcollects ⊢
  constructor
  · rw [hevaluated]
    exact hreads i hi
  · rw [hperm.countP_eq]
    exact countP_collected hcollects hi

/-- What the choices that a pivot makes must not run into: an expression of the text of one, or a column that
is written like one or like the pivot expression. -/
structure ChoicesOwn (scope : Scope) (key : Expr) (call : AggregateCall) (pivot : Expr) (values : List Cell) :
    Prop where
  formulas : scope.OneFormula
    (.calculated key :: values.map fun v => .calculated (pivotCase call pivot v))
  written : ∀ v ∈ values, scope.written? (pivotCase call pivot v) = none
  nested : ∀ q, pivot = .subquery q → scope.written? pivot = none

/-- A key, a count and its choices do not run into one another. -/
theorem ChoicesOwn.names {scope : Scope} {keyItem countItem : SelectItem} {call : AggregateCall}
    {values : List Cell} {f folded : Field} {spread : Fields}
    (h : ChoicesOwn scope keyItem.expr call pivot values) (hkey : keyItem.expr.aggregate? = none)
    (hkeyStar : ∀ qualifier, keyItem.expr ≠ .star qualifier)
    (hnumber : ∀ x, keyItem.expr ≠ .literal (.number x)) (hcount : countItem.expr.aggregate? = some call)
    (hargs : call.args = [.star none]) (hfield : Fields.ofItem sources keyItem = .ok [f])
    (hfolded : folded.kind = .star)
    (hspread : Fields.ofSelect sources (pivotItem pivot values countItem) = .ok spread) :
    PivotNames scope sources pivot values [keyItem.expr] [countItem] [f] [folded] spread where
  keys := by
    intro e he
    rw [List.mem_singleton.mp he]
    exact Fields.ahead_of_item _ hfield hkeyStar hnumber
  formulas := by
    apply h.formulas.of_calculated
    intro e he
    obtain ⟨k, hk, hkind⟩ := List.mem_map.mp he
    rcases List.mem_append.mp hk with hk | hk
    · rcases List.mem_cons.mp hk with hf | hf
      · obtain ⟨g, hg, hspelled⟩ := Fields.ofItem_one hkeyStar hfield
        rw [Field.ofExpr_plain hkey] at hg
        rw [hf, (List.cons.inj hspelled).1, Field.spell_kind] at hkind
        rw [Field.ofValue_calculated hg hkind]
        exact List.mem_cons_self
      · rw [List.mem_singleton.mp hf, hfolded] at hkind
        cases hkind
    · simp only [pivotItem, hcount] at hspread
      obtain ⟨v, hv, hchoice, _⟩ := exists_of_forall₂ (ofSelect_pivotCalls hcount hspread).flip hk
      rw [hchoice] at hkind
      rw [← FieldKind.calculated.inj hkind]
      exact List.mem_cons_of_mem _ (List.mem_map.mpr ⟨v, hv, rfl⟩)
  unwritten := by
    intro item hitem
    rw [List.mem_singleton.mp hitem]
    constructor
    · intro call' hcall' v hv
      rw [hcount] at hcall'
      rw [← Option.some.inj hcall']
      exact h.written v hv
    · intro call' q hcall' hsub
      rw [hcount] at hcall'
      rw [← Option.some.inj hcall', hargs] at hsub
      cases hsub

/-- Where `=` relates the pivot cells that collecting takes for one, a pivot counts every row of a group under
one value, so the counts of the group come to the number of its rows. -/
theorem pivot_counts_rows_once {keyItem countItem : SelectItem} {call : AggregateCall} {f : Field}
    {values r : ResultSet} {kept : ResultMemo} (hpivot : s.pivot = some pivot)
    (hstar : ∀ qualifier, pivot ≠ .star qualifier) (hitems : s.items = [keyItem, countItem])
    (hgroup : s.groupBy = [keyItem.expr]) (hkey : keyItem.expr.aggregate? = none)
    (hkeyStar : ∀ qualifier, keyItem.expr ≠ .star qualifier)
    (hnumber : ∀ x, keyItem.expr ≠ .literal (.number x))
    (hcount : countItem.expr.aggregate? = some call)
    (hcall : call.aggregator = .count ∧ call.distinct = false ∧ call.args = [.star none])
    (hdistinct : s.distinct = false) (hhaving : s.having = none) (horder : s.orderBy = [])
    (hlimit : s.limit = none)
    (h : (runPivot world (runnerAt remembered world depth) s).Gives memo r kept)
    (hvalues : (remembered (runPlain world (runnerAt remembered world depth)) (pivotValues s pivot)).Settles
      kept values)
    (hown : (runPlain world (runnerAt remembered world depth) (pivotValues s pivot)).Settles kept values)
    (hopened : (opened world (runnerAt remembered world depth) s).Settles kept (sources, working, ids))
    (hfield : Fields.ofItem sources keyItem = .ok [f])
    (hchoices : ChoicesOwn (rowsAt world working depth).scope keyItem.expr call pivot (values.column 0))
    (hequal : EqualityCollects
      (ids.map fun i => ((rowsAt world working depth).evaluated pivot i).settled kept)) :
    let keyCell := (rowsAt world working depth).fieldCell sources kept f.kind
    let pivotCell := fun i => ((rowsAt world working depth).evaluated pivot i).settled kept
    let groups := rowGroups [0] (fun i => [keyCell i]) ids
    let counted := fun (group : List Nat) (v : Cell) => group.countP fun i => (pivotCell i).looseEq v
    r = ⟨f.title :: (values.column 0).map (fun v => v.key ++ " " ++ countItem.title), groups.map fun group =>
      keyCell (group.headD 0) :: (values.column 0).map fun v => .number (Float.ofNat (counted group v))⟩ ∧
    groups.flatten.Perm ids ∧
    (∀ i ∈ ids, ((rowsAt world working depth).evaluated pivot i).Settles kept (pivotCell i) ∧
      (values.column 0).countP (fun v => (pivotCell i).looseEq v) = 1) ∧
    ∀ group ∈ groups, ((values.column 0).map (counted group)).sum = group.length := by
  intro keyCell pivotCell groups counted
  obtain ⟨hgroups, found, mid, hfound, h⟩ := runPivot_gives hpivot h
  -- what the statement collected on its way is what it would collect now
  have hrepeat := repeatable_runPlain world depth (pivoted s pivot (found.column 0))
  have hsame : found = values := ((repeatable_runPlain world depth (pivotValues s pivot)).remembered.again
    hfound (hrepeat.grows_of_gives h)).unique hvalues |>.1
  subst hsame
  have hagain := hrepeat.again h (.refl kept)
  obtain ⟨spread, hspread⟩ := ofSelect_pivotItem hitems hhaving hopened hagain
  have hplain : pivot.aggregate? = none := pivot_plain hcount hown hspread
  have honce := counted_once hopened hplain hstar hchoices.nested hown hequal
  have hcounts : ∃ g, Fields.ofItem sources countItem = .ok [g] ∧ g.kind = .star ∧
      g.aggregate = some ⟨.count, false⟩ ∧ g.title = countItem.title := Fields.ofItem_count hcount hcall
  obtain ⟨folded, hfolded, hfoldedStar, hfolds, htitle⟩ := hcounts
  have hnames : PivotNames (rowsAt world working depth).scope sources pivot (found.column 0) s.groupBy
      [countItem] [f] [folded] spread := by
    rw [hgroup]
    exact hchoices.names hkey hkeyStar hnumber hcount hcall.2.2 hfield hfoldedStar hspread
  have hahead : ∀ item ∈ [keyItem], item.expr.aggregate? = none := by
    intro item hitem
    rw [List.mem_singleton.mp hitem]
    exact hkey
  have hstars : ∀ item ∈ [countItem], StarsCounted item := by
    intro item hitem call' _ hcall' _
    rw [List.mem_singleton.mp hitem, hcount] at hcall'
    rw [← Option.some.inj hcall']
    exact hcall.1
  obtain ⟨_, hresult⟩ := settles_pivoted hopened (hitems : s.items = [keyItem] ++ [countItem]) hahead
    hstars hgroups hhaving horder hlimit (Fields.ofSelect_singleton.trans hfield)
    (Fields.ofSelect_singleton.trans hfolded) (by simpa using hspread) hnames hagain
  have hplainKey : f.aggregate = none := Fields.ofItem_plain hkey hfield f (List.mem_singleton.mpr rfl)
  have hslots : keySlots sources [f] s.groupBy = [0] := by
    rw [hgroup]
    exact keySlots_single (Fields.ahead_of_item [] hfield hkeyStar hnumber)
  have hcell (i : Nat) : (rowsAt world working depth).fieldCell sources kept folded.kind i = .text "*" := by
    rw [hfoldedStar]
    exact fieldCell_star i
  refine ⟨?_, rowGroups_perm _ _ ids, honce, ?_⟩
  · rw [hresult, hslots, hdistinct, flatMap_pivotTitles hplainKey hfolds, htitle]
    apply congrArg (ResultSet.mk _)
    apply List.map_congr_left
    intro group _
    exact flatMap_pivotCells hplainKey hfolds rfl hcell _ _ group
  · intro group hgroup
    exact sum_countP fun i hi => (honce i (mem_of_mem_rowGroups hgroup hi)).2

end Settled

/-- `SELECT k, COUNT(*) FROM T GROUP BY k PIVOT p` -/
def letterCounts : Statement :=
  { letterPivot with items := [keyItem, countItem] }

def countsShown : ResultSet :=
  ⟨["k", "a COUNT(*)", "b COUNT(*)"],
    [[.text "x", .number 2, .number 1], [.text "y", .number 0, .number 1]]⟩

theorem pivot_counts_rows_once_letters :
    (runPivot pivotWorld (runnerAt remembered pivotWorld 0) letterCounts).Gives [] countsShown letterMemo ∧
    ∃ (groups : List (List Nat)) (keyCell : Nat → Cell) (counted : List Nat → Cell → Nat),
      groups.flatten.Perm [0, 1, 2, 3] ∧
      countsShown.rows = groups.map (fun group =>
        keyCell (group.headD 0) :: [Cell.text "a", .text "b"].map fun v =>
          .number (Float.ofNat (counted group v))) ∧
      ∀ group ∈ groups, ([Cell.text "a", .text "b"].map (counted group)).sum = group.length := by
  have hcollected : (runInOrder pivotWorld (runnerAt remembered pivotWorld 0)
      (pivotValues letterCounts (.column none "p"))).Gives [] (some letterValues) [] := by decide +kernel
  have hown : (runPlain pivotWorld (runnerAt remembered pivotWorld 0)
      (pivotValues letterCounts (.column none "p"))).Settles letterMemo letterValues :=
    (repeatable_runPlain pivotWorld 0 _).again (runPlain_of_inOrder hcollected) fun _ _ h => by cases h
  have hruns : (runPivot pivotWorld (runnerAt remembered pivotWorld 0) letterCounts).Gives [] countsShown
      letterMemo := by
    apply runPivot_of_inOrder rfl (List.cons_ne_nil _ _) hcollected rfl
    decide +kernel
  have hvalues : (remembered (runPlain pivotWorld (runnerAt remembered pivotWorld 0))
      (pivotValues letterCounts (.column none "p"))).Settles letterMemo letterValues :=
    gives_remembered.mpr (Or.inl ⟨List.lookup_cons_self, rfl⟩)
  have hopened : (opened pivotWorld (runnerAt remembered pivotWorld 0) letterCounts).Settles letterMemo
      ([pivotTable], pivotTable, [0, 1, 2, 3]) := rfl
  have hfield : ∃ f, Fields.ofItem [pivotTable] keyItem = .ok [f] := ⟨_, rfl⟩
  obtain ⟨f, hfield⟩ := hfield
  have hchoices : ChoicesOwn (rowsAt pivotWorld pivotTable 0).scope keyItem.expr
      ⟨.count, "COUNT", false, [.star none]⟩ (.column none "p") (letterValues.column 0) :=
    ⟨.of_nodup (by decide +kernel), by decide +kernel, fun _ h => by cases h⟩
  have hsteady : EqualityCollects ([0, 1, 2, 3].map fun i =>
      ((rowsAt pivotWorld pivotTable 0).evaluated (.column none "p") i).settled letterMemo) :=
    .of_steady (by decide +kernel)
  obtain ⟨hshown, hperm, _, hsums⟩ := pivot_counts_rows_once rfl (fun _ h => by cases h) rfl rfl rfl
    (fun _ h => by cases h) (fun _ h => by cases h) rfl ⟨rfl, rfl, rfl⟩ rfl rfl rfl rfl hruns hvalues hown
    hopened hfield hchoices hsteady
  exact ⟨hruns, _, _, _, hperm, congrArg ResultSet.rows hshown, hsums⟩

/-- One day, written in two ways. -/
def dayWorld : World :=
  ⟨.ofList [.derived "T" ["k", "p"] [[.text "a", .text "2022-06-01"], [.text "a", .text "06/01/2022"]]],
    .empty, .midnight ⟨2020, 1, 1⟩⟩

/-- The two texts sort as one day, so one of them is collected, and `=` tells them apart: the pivot counts one
of the two rows of the group. -/
theorem pivot_loses_row :
    execute dayWorld { letterCounts with pivot := none } =
      .ok ⟨["k", "COUNT(*)"], [[.text "a", .number 2]]⟩ ∧
    execute dayWorld { letterCounts with pivot := some (.column none "p") } =
      .ok ⟨["k", "2022-06-01 COUNT(*)"], [[.text "a", .number 1]]⟩ := by
  have hplain : (runInOrder dayWorld (runnerAt remembered dayWorld 0)
      { letterCounts with pivot := none }).Gives []
        (some ⟨["k", "COUNT(*)"], [[.text "a", .number 2]]⟩) [] := by decide +kernel
  have hcollected : (runInOrder dayWorld (runnerAt remembered dayWorld 0)
      (pivotValues { letterCounts with pivot := none } (.column none "p"))).Gives []
        (some ⟨["p"], [[.text "2022-06-01"]]⟩) [] := by decide +kernel
  exact execute_with_pivot rfl (List.cons_ne_nil _ _) rfl (by decide +kernel) (by decide +kernel)
    hplain hcollected (by decide +kernel)

end GridQuery
