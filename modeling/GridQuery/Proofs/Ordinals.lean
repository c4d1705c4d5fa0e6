import GridQuery.Proofs.Ahead
import GridQuery.Proofs.ClauseReferences
import GridQuery.Proofs.OrderedRows
import GridQuery.Proofs.Visible

/-!
Numbers as keys. A key of `GROUP BY` that is a number means the column at that place of the select list. A
pivot puts its columns in the place of the aggregates; where it leaves the items ahead of an item in their
places, and no column ahead takes the name of the item's expression, the number of the item and its expression
are one key.
-/

namespace GridQuery
set_option autoImplicit false

/-! ### Two ways to name a column -/

/-- A number that names the place `n`. -/
def NamesPlace (x : Float) (n : Nat) : Prop :=
  ∃ m exponent, Number.parts x = .finite false m exponent ∧ Number.isWhole m exponent = true ∧
    Number.wholePart m exponent = n

namespace Fields

variable {sources : List Table} {fs : Fields} {clause : String}

theorem resolve_place {x : Float} {n : Nat} (h : NamesPlace x (n + 1)) (hn : n < fs.selectedCount) :
    fs.resolve sources clause (.literal (.number x)) = .ok (n, fs) := by
  obtain ⟨m, exponent, hparts, hwhole, hvalue⟩ := h
  have hin : n + 1 ≤ fs.selectedCount := hn
  have hordinal : fs.ordinal? clause (.literal (.number x)) = .ok (some n) := by
    simp only [ordinal?, hparts, hwhole, hvalue]
    simp [hin]
  exact bind_eq_ok.mpr ⟨some n, hordinal, rfl⟩

theorem resolve_spelled {e : Expr} {slot : Nat} (hnumber : ∀ x, e ≠ .literal (.number x))
    (h : fs.findSpelling? (normalize e.text) = some slot) : fs.resolve sources clause e = .ok (slot, fs) := by
  have hfind : fs.find? sources e = some slot := by
    unfold find?
    rw [h]
  refine bind_eq_ok.mpr ⟨none, ordinal?_eq_none hnumber, ?_⟩
  simp only [hfind]

/-- Keys that differ in one expression, which names a column that is there either way, are resolved alike but
for that one slot. -/
theorem resolveAll_swap {a b : Expr} {i j : Nat} (before after : List Expr)
    (ha : ∀ added : Fields, (∀ f ∈ added, f.temporary = true) →
      (fs ++ added).resolve sources clause a = .ok (i, fs ++ added))
    (hb : ∀ added : Fields, (∀ f ∈ added, f.temporary = true) →
      (fs ++ added).resolve sources clause b = .ok (j, fs ++ added)) :
    fs.resolveAll sources clause (before ++ b :: after) =
        (fs.resolveAll sources clause (before ++ a :: after)).map (fun p => (p.1.set before.length j, p.2)) ∧
      ∀ p, fs.resolveAll sources clause (before ++ a :: after) = .ok p → p.1[before.length]? = some i := by
  induction before generalizing fs with
  | nil =>
    have ha := ha [] (by simp)
    have hb := hb [] (by simp)
    rw [List.append_nil] at ha hb
    simp only [List.nil_append, resolveAll, ha, hb, bind, Except.bind]
    cases fs.resolveAll sources clause after with
    | error e => exact ⟨rfl, fun _ h => by cases h⟩
    | ok p => exact ⟨rfl, fun _ h => by cases h; rfl⟩
  | cons e before ih =>
    simp only [List.cons_append, resolveAll, bind, Except.bind]
    cases he : fs.resolve sources clause e with
    | error err => exact ⟨rfl, fun _ h => by cases h⟩
    | ok p =>
      obtain ⟨slot, gs⟩ := p
      obtain ⟨added, rfl, hadded⟩ : ∃ added, gs = fs ++ added ∧ ∀ f ∈ added, f.temporary = true := by
        rcases resolve_cases he with ⟨rfl, _⟩ | ⟨f, hf, rfl, _⟩
        · exact ⟨[], (List.append_nil _).symm, by simp⟩
        · exact ⟨[f], rfl, by simpa using hidden_temporary hf⟩
      have hlater {more : Fields} (hmore : ∀ f ∈ more, f.temporary = true) :
          ∀ f ∈ added ++ more, f.temporary = true :=
        fun f hf => (List.mem_append.mp hf).elim (hadded f) (hmore f)
      have hstays {e : Expr} {slot : Nat} (h : ∀ added : Fields, (∀ f ∈ added, f.temporary = true) →
          (fs ++ added).resolve sources clause e = .ok (slot, fs ++ added)) :
          ∀ more : Fields, (∀ f ∈ more, f.temporary = true) →
            ((fs ++ added) ++ more).resolve sources clause e = .ok (slot, (fs ++ added) ++ more) := by
        intro more hmore
        rw [List.append_assoc]
        exact h _ (hlater hmore)
      obtain ⟨hswap, hslot⟩ := ih (hstays ha) (hstays hb)
      simp only [hswap]
      cases hrest : (fs ++ added).resolveAll sources clause (before ++ a :: after) with
      | error err => exact ⟨rfl, fun _ h => by cases h⟩
      | ok p => exact ⟨rfl, fun _ h => by cases h; exact hslot p hrest⟩

end Fields

/-- Plans for keys that differ in one expression, which names a column of the select list either way, differ in
one slot. -/
theorem layout_swap {sources : List Table} {s : Statement} {a b : Expr} {i j : Nat} (before after : List Expr)
    (h : ∀ selected : Fields, Fields.ofSelect sources s.items = .ok selected →
      ∀ added : Fields, (∀ f ∈ added, f.temporary = true) →
        (selected ++ added).resolve sources "GROUP BY" a = .ok (i, selected ++ added) ∧
          (selected ++ added).resolve sources "GROUP BY" b = .ok (j, selected ++ added)) :
    layout sources { s with groupBy := before ++ b :: after } =
        (layout sources { s with groupBy := before ++ a :: after }).map (fun plan =>
          { plan with groupKeys := plan.groupKeys.set before.length j }) ∧
      ∀ plan, layout sources { s with groupBy := before ++ a :: after } = .ok plan →
        plan.groupKeys[before.length]? = some i := by
  simp only [layout, bind, Except.bind]
  cases hselected : Fields.ofSelect sources s.items with
  | error e => exact ⟨rfl, fun _ h => by cases h⟩
  | ok selected =>
    obtain ⟨hswap, hslot⟩ := Fields.resolveAll_swap before after
      (fun added hadded => (h selected hselected added hadded).1)
      (fun added hadded => (h selected hselected added hadded).2)
    simp only [hswap]
    cases hgroups : selected.resolveAll sources "GROUP BY" (before ++ a :: after) with
    | error e => exact ⟨rfl, fun _ h => by cases h⟩
    | ok p =>
      have hin := hslot p hgroups
      simp only [Except.map]
      cases p.2.resolveAll sources "HAVING" ((s.having.map groupParts).getD []) with
      | error e => exact ⟨rfl, fun _ h => by cases h⟩
      | ok q =>
        simp only
        cases q.2.resolveAll sources "ORDER BY" (s.orderBy.map OrderItem.expr) with
        | error e => exact ⟨rfl, fun _ h => by cases h⟩
        | ok r => exact ⟨rfl, fun _ h => by cases h; exact hin⟩

/-! ### Slots with equal cells -/

section Slots

variable {rows : List Row}

/-- Rows with equal cells in two slots compare by either alike. -/
theorem compareKeys_set {keys : List Nat} {place i j : Nat} (hplace : keys[place]? = some i)
    (hsame : ∀ row ∈ rows, row[i]? = row[j]?) {a b : Row} (ha : a ∈ rows) (hb : b ∈ rows) :
    compareKeys a b (keys.set place j) = compareKeys a b keys := by
  induction keys generalizing place with
  | nil => cases hplace
  | cons k keys ih =>
    cases place with
    | zero =>
      cases hplace
      rw [List.set_cons_zero, compareKeys, compareKeys, compareSlot, compareSlot, hsame a ha, hsame b hb]
    | succ place =>
      rw [List.set_cons_succ, compareKeys, compareKeys, ih (by simpa using hplace)]

/-- Where two slots have equal cells in every row, a key may be either. -/
theorem grouped_set {keys : List Nat} {place i j : Nat} (hplace : keys[place]? = some i)
    (hsame : ∀ row ∈ rows, row[i]? = row[j]?) (fields : Fields) (distinct : Bool) :
    grouped fields (keys.set place j) distinct rows = grouped fields keys distinct rows := by
  have hkeys : keys.isEmpty = false := by
    cases keys with
    | nil => cases hplace
    | cons => rfl
  have hset : (keys.set place j).isEmpty = false := by simpa using hkeys
  have hgroups : groupBy fields (keys.set place j) (rows.map id) = (groupBy fields keys rows).map id :=
    groupBy_map (fun a ha b hb => compareKeys_set hplace hsame ha hb) fun run _ _ => by rw [List.map_id, id]
  rw [List.map_id, List.map_id] at hgroups
  simp only [grouped, hkeys, hset, Bool.false_and, Bool.false_eq_true, if_false, hgroups]

end Slots

/-! ### Columns of one kind -/

namespace Scope

variable {s : Scope} {memo later : FormulaMemo} {sources : List Table}

/-- The formula that the next field of a kind gets, where that is settled. -/
def held (s : Scope) (sources : List Table) (memo : FormulaMemo) (kind : FieldKind) : Option Formula :=
  match kind with
  | .column source column => some (.slot (placeOf sources (source, column)))
  | .calculated e => memo.lookup e.text
  | .subquery q => some (s.subquery q)
  | .star => some (.const (.text "*"))

theorem recall_keeps {e : Expr} {x : Formula} (h : s.recall memo e = .ok (x, later)) :
    (∀ text y, memo.lookup text = some y → later.lookup text = some y) ∧ later.lookup e.text = some x ∧
      ∀ y, memo.lookup e.text = some y → x = y := by
  unfold Scope.recall at h
  cases hlookup : memo.lookup e.text with
  | some y =>
    rw [hlookup] at h
    cases h
    exact ⟨fun _ _ h => h, hlookup, fun z hz => Option.some.inj hz⟩
  | none =>
    rw [hlookup] at h
    obtain ⟨y, hy, hpair⟩ := bind_eq_ok.mp h
    cases hpair
    refine ⟨fun text z hz => ?_, List.lookup_cons_self, nofun⟩
    have hne : (text == e.text) = false := by
      rw [beq_eq_false_iff_ne]
      rintro rfl
      rw [hlookup] at hz
      cases hz
    rwa [List.lookup_cons, hne]

/-- A field gets the formula that its kind holds, and from then on its kind holds it. -/
theorem fieldFormula_held {f : Field} (hplaced : Placed sources f) {x : Formula}
    (h : s.fieldFormula memo f = .ok (x, later)) :
    (∀ kind y, s.held sources memo kind = some y → s.held sources later kind = some y) ∧
      s.held sources later f.kind = some x ∧ ∀ y, s.held sources memo f.kind = some y → x = y := by
  unfold fieldFormula at h
  cases hkind : f.kind with
  | column source column =>
    simp only [hkind, hplaced hkind] at h
    cases h
    exact ⟨fun _ _ h => h, rfl, fun y hy => Option.some.inj hy⟩
  | calculated e =>
    simp only [hkind] at h
    obtain ⟨hkeeps, hlater, hx⟩ := recall_keeps h
    refine ⟨fun kind y hy => ?_, hlater, hx⟩
    cases kind with
    | calculated e' => exact hkeeps e'.text y hy
    | column | subquery | star => exact hy
  | subquery q =>
    simp only [hkind] at h
    cases h
    exact ⟨fun _ _ h => h, rfl, fun y hy => Option.some.inj hy⟩
  | star =>
    simp only [hkind] at h
    cases h
    exact ⟨fun _ _ h => h, rfl, fun y hy => Option.some.inj hy⟩

theorem fieldFormulas_held {fields : Fields} (hplaced : ∀ f ∈ fields, Placed sources f)
    {formulas : List Formula} (h : s.fieldFormulas memo fields = .ok formulas) {kind : FieldKind} {y : Formula}
    (hheld : s.held sources memo kind = some y) {slot : Nat}
    (hslot : (fields[slot]?).map Field.kind = some kind) : formulas[slot]? = some y := by
  induction fields generalizing memo formulas slot with
  | nil => cases hslot
  | cons f fields ih =>
    obtain ⟨hf, hrest⟩ := List.forall_mem_cons.mp hplaced
    obtain ⟨⟨x, later⟩, hx, h⟩ := bind_eq_ok.mp h
    obtain ⟨xs, hxs, h⟩ := bind_eq_ok.mp h
    cases h
    obtain ⟨hkeeps, _, hsame⟩ := fieldFormula_held hf hx
    cases slot with
    | zero =>
      cases hslot
      rw [hsame y hheld]
      rfl
    | succ slot => exact ih hrest hxs (hkeeps kind y hheld) hslot

/-- Fields of one kind have one formula. -/
theorem fieldFormulas_sameKind {fields : Fields} (hplaced : ∀ f ∈ fields, Placed sources f)
    {formulas : List Formula} (h : s.fieldFormulas memo fields = .ok formulas) {kind : FieldKind} {i j : Nat}
    (hi : (fields[i]?).map Field.kind = some kind) (hj : (fields[j]?).map Field.kind = some kind) :
    ∃ x, formulas[i]? = some x ∧ formulas[j]? = some x := by
  induction fields generalizing memo formulas i j with
  | nil => cases hi
  | cons f fields ih =>
    obtain ⟨hf, hrest⟩ := List.forall_mem_cons.mp hplaced
    obtain ⟨⟨x, later⟩, hx, h⟩ := bind_eq_ok.mp h
    obtain ⟨xs, hxs, h⟩ := bind_eq_ok.mp h
    cases h
    obtain ⟨_, hlater, _⟩ := fieldFormula_held hf hx
    have hbehind {slot : Nat} (hkind : f.kind = kind) (hslot : (fields[slot]?).map Field.kind = some kind) :
        xs[slot]? = some x :=
      fieldFormulas_held hrest hxs (hkind ▸ hlater) hslot
    cases i with
    | zero =>
      cases j with
      | zero => exact ⟨x, rfl, rfl⟩
      | succ j => exact ⟨x, rfl, hbehind (Option.some.inj hi) hj⟩
    | succ i =>
      cases j with
      | zero => exact ⟨x, hbehind (Option.some.inj hj) hi, rfl⟩
      | succ j => exact ih hrest hxs hi hj

end Scope

/-- Slots with one formula have equal cells: the second time a formula finds what it found the first time. -/
theorem values_sameFormula {world : World} {table : Table} {depth : Nat} {formulas : List Formula} {row : Nat}
    {memo : ResultMemo} {cells : List Cell}
    (h : ((rowsAt world table depth).values row formulas).Settles memo cells) {slot : Nat} {x : Formula}
    (hx : formulas[slot]? = some x) :
    ∃ c, cells[slot]? = some c ∧ ((rowsAt world table depth).value row x).Settles memo c := by
  induction formulas generalizing cells slot with
  | nil => cases hx
  | cons f formulas ih =>
    rw [Rows.values] at h
    obtain ⟨c, hc, h⟩ := (Run.settles_bind (repeatable_value world table depth row f)
      fun _ => (repeatable_values world depth table row formulas).bind fun _ _ => .pure _).mp h
    obtain ⟨cs, hcs, h⟩ := (Run.settles_bind (repeatable_values world depth table row formulas)
      fun _ => .pure _).mp h
    rw [Run.settles_pure.mp h]
    cases slot with
    | zero =>
      cases hx
      exact ⟨c, rfl, hc⟩
    | succ slot => exact ih hcs hx

theorem cells_sameFormula {world : World} {table : Table} {depth : Nat} {formulas : List Formula}
    {ids : List Nat} {memo memo' : ResultMemo} {rows : List Row}
    (h : ((rowsAt world table depth).cells formulas ids).Gives memo rows memo') {i j : Nat} {x : Formula}
    (hi : formulas[i]? = some x) (hj : formulas[j]? = some x) : ∀ row ∈ rows, row[i]? = row[j]? := by
  have hsettles := settles_cells_iff.mp ((repeatable_cells world depth table formulas ids).again h (.refl memo'))
  obtain ⟨hlength, hvalues⟩ := List.forall₂_iff_get.mp hsettles
  intro row hrow
  obtain ⟨k, hk, rfl⟩ := List.mem_iff_getElem.mp hrow
  have hvalues := hvalues k (hlength ▸ hk) hk
  obtain ⟨c, hc, hci⟩ := values_sameFormula hvalues hi
  obtain ⟨d, hd, hdj⟩ := values_sameFormula hvalues hj
  exact hc.trans ((congrArg some (hci.unique hdj)).trans hd.symm)

/-! ### Keys that name one column -/

/-- Two expressions name columns of the select list that read the same, whatever hidden fields stand behind. -/
def Fields.OneColumn (sources : List Table) (selected : Fields) (a b : Expr) : Prop :=
  ∃ i j kind, (selected[i]?).map Field.kind = some kind ∧ (selected[j]?).map Field.kind = some kind ∧
    ∀ added : Fields, (∀ f ∈ added, f.temporary = true) →
      (selected ++ added).resolve sources "GROUP BY" a = .ok (i, selected ++ added) ∧
        (selected ++ added).resolve sources "GROUP BY" b = .ok (j, selected ++ added)

section Runs

variable {world : World} {depth : Nat} {s : Statement} {a b : Expr} (before after : List Expr)

/-- A statement whose keys name columns that read the same runs alike with either. -/
theorem runPlain_swap {memo : ResultMemo}
    (h : ∀ sources memo' selected,
      (allSources world (runnerAt remembered world depth) s).Gives memo sources memo' →
        Fields.ofSelect sources s.items = .ok selected → selected.OneColumn sources a b) :
    (runPlain world (runnerAt remembered world depth) { s with groupBy := before ++ b :: after }).run memo =
      (runPlain world (runnerAt remembered world depth) { s with groupBy := before ++ a :: after }).run memo := by
  refine Run.run_bind_congr fun first mid hfirst => Run.run_bind_congr fun others mid' hothers => ?_
  have hsources : (allSources world (runnerAt remembered world depth) s).Gives memo (first :: others) mid' :=
    Run.gives_bind.mpr ⟨first, mid, hfirst, Run.gives_bind.mpr ⟨others, mid', hothers,
      Run.gives_pure.mpr ⟨rfl, rfl⟩⟩⟩
  obtain ⟨i, j, hcolumn⟩ : ∃ i j, ∀ selected, Fields.ofSelect (first :: others) s.items = .ok selected →
      ∃ kind, (selected[i]?).map Field.kind = some kind ∧ (selected[j]?).map Field.kind = some kind ∧
        ∀ added : Fields, (∀ f ∈ added, f.temporary = true) →
          (selected ++ added).resolve (first :: others) "GROUP BY" a = .ok (i, selected ++ added) ∧
            (selected ++ added).resolve (first :: others) "GROUP BY" b = .ok (j, selected ++ added) := by
    cases hselected : Fields.ofSelect (first :: others) s.items with
    | error e => exact ⟨0, 0, nofun⟩
    | ok selected =>
      obtain ⟨i, j, kind, hcolumn⟩ := h _ _ selected hsources hselected
      exact ⟨i, j, fun _ heq => Except.ok.inj heq ▸ ⟨kind, hcolumn⟩⟩
  obtain ⟨hswap, hplace⟩ := layout_swap before after fun selected hselected =>
    (hcolumn selected hselected).choose_spec.2.2
  simp only [hswap]
  cases hplan : layout (first :: others) { s with groupBy := before ++ a :: after } with
  | error e => rfl
  | ok plan =>
    refine Run.run_bind_congr (m := joinFrom world (runnerAt remembered world depth) 1 first plan.fields s.joins
      others) fun (working, pointed) mid hjoined => ?_
    refine Run.run_bind_congr fun ids mid _ => Run.run_bind_congr fun formulas mid hformulas => ?_
    refine Run.run_bind_congr fun cells mid hcells => ?_
    have hsame : ∀ row ∈ cells, row[i]? = row[j]? := by
      obtain ⟨selected, added, hselected, hfields, _⟩ := layout_append hplan
      obtain ⟨kind, hi, hj, _⟩ := hcolumn selected hselected
      have hpointed {slot : Nat} (hslot : (selected[slot]?).map Field.kind = some kind) :
          (pointed[slot]?).map Field.kind = some kind := by
        have hkinds := joinFrom_kinds hjoined
        rw [hfields, List.map_append] at hkinds
        rw [← List.getElem?_map] at hslot ⊢
        rw [hkinds, List.getElem?_append_left (List.getElem?_eq_some_iff.mp hslot).1, hslot]
      have hplaced := joinFrom_placed hothers (layout_eq_ok hplan).1 hjoined
      obtain ⟨x, hxi, hxj⟩ := Scope.fieldFormulas_sameKind hplaced (Run.gives_of.mp hformulas).1
        (hpointed hi) (hpointed hj)
      exact cells_sameFormula hcells hxi hxj
    simp only [grouped_set (hplace plan hplan) hsame]

/-- From what is kept, a statement collects the values of its pivot, and then has the tables of its sources. -/
def Statement.Collects (world : World) (depth : Nat) (memo : ResultMemo) (s : Statement) (pivot : Expr)
    (values : List Cell) (sources : List Table) : Prop :=
  ∃ r mid memo', values = r.column 0 ∧
    (remembered (runPlain world (runnerAt remembered world depth)) (pivotValues s pivot)).Gives memo r mid ∧
      (allSources world (runnerAt remembered world depth) s).Gives mid sources memo'

theorem run_swap {memo : ResultMemo} {pivot : Expr} (hpivot : s.pivot = some pivot)
    (h : ∀ values sources selected, s.Collects world depth memo pivot values sources →
      Fields.ofSelect sources (s.items.flatMap (pivotItem pivot values)) = .ok selected →
        selected.OneColumn sources a b) :
    (run remembered world (depth + 1) { s with groupBy := before ++ b :: after }).run memo =
      (run remembered world (depth + 1) { s with groupBy := before ++ a :: after }).run memo := by
  have hkeys (e : Expr) : (before ++ e :: after).isEmpty = false := by simp
  have hfirst : (runPivot world (runnerAt remembered world depth)
      { s with groupBy := before ++ b :: after }).run memo =
        (runPivot world (runnerAt remembered world depth) { s with groupBy := before ++ a :: after }).run memo := by
    simp only [runPivot, hpivot, hkeys, Bool.false_eq_true, if_false]
    refine Run.run_bind_congr (m := remembered _ _) fun r mid hr => ?_
    exact runPlain_swap (s := pivoted s pivot (r.column 0)) before after
      fun sources memo' selected hsources => h _ sources selected ⟨r, mid, memo', rfl, hr, hsources⟩
  change (runWith world (runnerAt remembered world depth) _).run memo =
    (runWith world (runnerAt remembered world depth) _).run memo
  unfold runWith
  rw [Run.run_bind, Run.run_bind, hfirst]

end Runs

/-! ### The number of an item -/

/-- With the values that a pivot collects, the items ahead of an item come to one column each, and the first of
these columns that answers to the text of the item's expression, if one does, reads what the expression reads. -/
def Statement.LeavesPlace (world : World) (depth : Nat) (memo : ResultMemo) (s : Statement) (pivot : Expr)
    (ahead : List SelectItem) (item : SelectItem) : Prop :=
  ∀ values sources fs g, s.Collects world depth memo pivot values sources →
    Fields.ofSelect sources (ahead.flatMap (pivotItem pivot values)) = .ok fs →
    Field.ofExpr sources item.title item.expr = .ok g →
      fs.length = ahead.length ∧
        ∀ f, List.find? (fun f => f.spellings.contains (normalize item.expr.text)) fs = some f → f.kind = g.kind

namespace Fields

variable {sources : List Table} {front : Fields} {g : Field} {e : Expr} (back : Fields)

/-- Between other columns, an expression is the column in front that answers to its text, or its own. -/
theorem findSpelling?_between (hne : normalize e.text ≠ "")
    (hfront : ∀ f, List.find? (fun f => f.spellings.contains (normalize e.text)) front = some f →
      f.kind = g.kind) :
    ∃ j, (front ++ g.spell e.text :: back).findSpelling? (normalize e.text) = some j ∧
      ((front ++ g.spell e.text :: back)[j]?).map Field.kind = some g.kind := by
  have hself := Field.contains_spell (f := g) hne
  cases hfind : List.find? (fun f : Field => f.spellings.contains (normalize e.text)) front with
  | some f =>
    obtain ⟨hspelled, j, hj, rfl, hbefore⟩ := List.find?_eq_some_iff_getElem.mp hfind
    have hfound : front.findSpelling? (normalize e.text) = some j :=
      List.findIdx?_eq_some_iff_getElem.mpr ⟨hj, hspelled, fun k hk => by simpa using hbefore k hk⟩
    refine ⟨j, (findSpelling?_append (.inl (by rw [hfound]; rfl))).trans hfound, ?_⟩
    rw [List.getElem?_append_left hj, List.getElem?_eq_getElem hj, Option.map_some, hfront _ hfind]
  | none =>
    have hnone : front.findIdx? (fun f => f.spellings.contains (normalize e.text)) = none :=
      List.findIdx?_eq_none_iff.mpr fun f hf => by simpa using List.find?_eq_none.mp hfind f hf
    refine ⟨front.length, ?_, by simp⟩
    rw [findSpelling?, List.findIdx?_append, hnone, List.findIdx?_cons, hself]
    simp

theorem oneColumn_between {x : Float} (hplace : NamesPlace x (front.length + 1))
    (hnumber : ∀ y, e ≠ .literal (.number y))
    (hshown : ∀ f ∈ front ++ g.spell e.text :: back, f.temporary = false)
    (hfront : ∀ f, List.find? (fun f => f.spellings.contains (normalize e.text)) front = some f →
      f.kind = g.kind) :
    OneColumn sources (front ++ g.spell e.text :: back) (.literal (.number x)) e := by
  have hne : normalize e.text ≠ "" := normalize_ne_empty (Expr.visible_text hnumber)
  obtain ⟨j, hfound, hj⟩ := findSpelling?_between back hne hfront
  refine ⟨front.length, j, g.kind, by simp, hj, fun added hadded => ⟨?_, ?_⟩⟩
  · apply resolve_place hplace
    rw [selectedCount_append hadded, selectedCount, List.filter_eq_self.mpr (by simpa using hshown)]
    simp
  · apply resolve_spelled hnumber
    rw [findSpelling?_append (.inl (by rw [hfound]; rfl)), hfound]

end Fields

section Items

variable {world : World} {s : Statement} {pivot : Expr} {x : Float} {ahead rest : List SelectItem}
  {item : SelectItem}

theorem oneColumn_of_leavesPlace (hitems : s.items = ahead ++ item :: rest)
    (hplace : NamesPlace x (ahead.length + 1)) (hplain : item.expr.aggregate? = none)
    (hstar : ∀ qualifier, item.expr ≠ .star qualifier) (hnumber : ∀ y, item.expr ≠ .literal (.number y))
    {depth : Nat} {memo : ResultMemo} (hahead : s.LeavesPlace world depth memo pivot ahead item)
    {values : List Cell} {sources : List Table} {selected : Fields}
    (hvalues : s.Collects world depth memo pivot values sources)
    (hselected : Fields.ofSelect sources (s.items.flatMap (pivotItem pivot values)) = .ok selected) :
    selected.OneColumn sources (.literal (.number x)) item.expr := by
  have hstays : pivotItem pivot values item = [item] := by
    unfold pivotItem
    rw [hplain]
  have hshown := Fields.ofSelect_shown hselected
  rw [hitems, List.flatMap_append, List.flatMap_cons, hstays, List.singleton_append] at hselected
  obtain ⟨front, behind, hfront, hbehind, rfl⟩ := Fields.ofSelect_append.mp hselected
  obtain ⟨own, hown, hbehind⟩ := bind_eq_ok.mp hbehind
  obtain ⟨back, _, hbehind⟩ := bind_eq_ok.mp hbehind
  cases hbehind
  obtain ⟨g, hg, rfl⟩ := Fields.ofItem_one hstar hown
  obtain ⟨hlength, hfirst⟩ := hahead values sources front g hvalues hfront hg
  rw [List.singleton_append] at hshown ⊢
  exact Fields.oneColumn_between back (hlength ▸ hplace) hnumber hshown hfirst

/-! ### How far statements reach -/

namespace Tally

variable {m : Tally Nat} (hboth : m.both = max) (hzero : m.zero = 0)

include hboth hzero in
theorem exprs_append (es es' : List Expr) : m.exprs (es ++ es') = max (m.exprs es) (m.exprs es') := by
  induction es with
  | nil => simp [exprs, hzero]
  | cons e es ih => simp [exprs, hboth, ih, Nat.max_assoc]

include hboth in
theorem expr_le_items {items : List SelectItem} {item : SelectItem} (h : item ∈ items) :
    m.expr item.expr ≤ m.items items := by
  induction items with
  | nil => cases h
  | cons first items ih =>
    obtain ⟨e, title, alias?⟩ := first
    simp only [Tally.items, hboth]
    rcases List.mem_cons.mp h with rfl | h
    · exact Nat.le_max_left _ _
    · exact (ih h).trans (Nat.le_max_right _ _)

include hboth hzero in
/-- A key that comes to no more than the select list has no part in the count of a statement. -/
theorem statement_key {s : Statement} {before after : List Expr} {e : Expr} (h : m.expr e ≤ m.items s.items) :
    m.statement { s with groupBy := before ++ e :: after } =
      m.statement { s with groupBy := before ++ after } := by
  obtain ⟨distinct, items, source, joins, filter, groupBy, having, orderBy, limit, pivot, operations⟩ := s
  have hle : max (m.items items) (m.expr e) = m.items items := Nat.max_eq_left h
  simp only [statement, exprs_append hboth hzero, exprs, hboth]
  refine congrArg m.nested ?_
  conv_rhs => rw [← hle]
  ac_rfl

end Tally

/-- Where a pivot leaves the place of a plain item, its number as a key is as good as its expression. -/
theorem execute_groupBy_place (before after : List Expr) (hpivot : s.pivot = some pivot)
    (hitems : s.items = ahead ++ item :: rest) (hplace : NamesPlace x (ahead.length + 1))
    (hplain : item.expr.aggregate? = none) (hstar : ∀ qualifier, item.expr ≠ .star qualifier)
    (hnumber : ∀ y, item.expr ≠ .literal (.number y))
    (hahead : ∀ depth, s.LeavesPlace world depth [] pivot ahead item) :
    execute world { s with groupBy := before ++ item.expr :: after } =
      execute world { s with groupBy := before ++ .literal (.number x) :: after } := by
  have hrun : ∀ depth, (run remembered world depth { s with groupBy := before ++ item.expr :: after }).run [] =
      (run remembered world depth { s with groupBy := before ++ .literal (.number x) :: after }).run []
    | 0 => rfl
    | depth + 1 => run_swap before after hpivot fun _ _ _ hvalues hselected =>
      oneColumn_of_leavesPlace hitems hplace hplain hstar hnumber (hahead depth) hvalues hselected
  have hmem : item ∈ s.items := by
    rw [hitems]
    exact List.mem_append_right _ List.mem_cons_self
  have hcount (m : Tally Nat) (hboth : m.both = max) (hzero : m.zero = 0) :
      m.statement { s with groupBy := before ++ item.expr :: after } =
        m.statement { s with groupBy := before ++ .literal (.number x) :: after } := by
    rw [m.statement_key hboth hzero (m.expr_le_items hboth hmem), m.statement_key hboth hzero]
    rw [Tally.expr, hzero]
    exact Nat.zero_le _
  simp only [execute, Statement.maxBind, Statement.depth, hcount highestBind rfl rfl, hcount nesting rfl rfl, hrun]

end Items

/-- A key, a day and a place to pivot by. -/
def placesTable : Table :=
  .derived "T" ["k", "j", "p"] [[.text "a", .text "m", .text "u"], [.text "a", .text "n", .text "v"]]

def placesWorld : World :=
  ⟨.ofList [placesTable], .empty, .midnight ⟨2020, 1, 1⟩⟩

/-- Items of `k`, `j` and `COUNT(*)` from `T`, pivoted by `p`. -/
def placesOf (items : List SelectItem) (groupBy : List Expr) : Statement :=
  ⟨false, items, .table "T" none, [], none, groupBy, none, [], none, some (.column none "p"), []⟩

def placeColumn (name : String) (alias? : Option String) : SelectItem :=
  ⟨.column none name, name, alias?⟩

def placeCount : SelectItem :=
  ⟨.call "COUNT" false [.star none], "COUNT(*)", none⟩

/-- `SELECT k AS h, j, COUNT(*) FROM T GROUP BY 2, h PIVOT p` -/
theorem execute_groupBy_place_second :
    execute placesWorld (placesOf [placeColumn "k" (some "h"), placeColumn "j" none, placeCount]
        [.column none "j", .column none "h"]) =
      execute placesWorld (placesOf [placeColumn "k" (some "h"), placeColumn "j" none, placeCount]
        [.literal (.number 2), .column none "h"]) := by
  let s := placesOf [placeColumn "k" (some "h"), placeColumn "j" none, placeCount] []
  have hplace : NamesPlace 2 2 := ⟨_, _, by rfl, by decide +kernel, by decide +kernel⟩
  have hahead (depth : Nat) : s.LeavesPlace placesWorld depth [] (.column none "p")
      [placeColumn "k" (some "h")] (placeColumn "j" none) := by
    intro values sources fs g ⟨_, _, _, _, _, hsources⟩ hfs _
    obtain ⟨first, _, hfirst, hsources⟩ := Run.gives_bind.mp hsources
    obtain ⟨others, _, hothers, hsources⟩ := Run.gives_bind.mp hsources
    obtain ⟨rfl, _⟩ := Run.gives_pure.mp hsources
    obtain ⟨table, _, htable, hfirst⟩ := Run.gives_bind.mp hfirst
    obtain ⟨rfl, _⟩ := Run.gives_pure.mp hfirst
    obtain ⟨rfl, _⟩ := Run.gives_pure.mp hothers
    obtain rfl := Except.ok.inj (Run.gives_of.mp htable).1
    have hnames : (Fields.ofSelect [placesTable.withAlias none] [placeColumn "k" (some "h")]).map (fun fs =>
        (fs.length, fs.any fun f => f.spellings.contains (normalize "j"))) = .ok (1, false) := by decide +kernel
    change Fields.ofSelect [placesTable.withAlias none] [placeColumn "k" (some "h")] = .ok fs at hfs
    rw [hfs] at hnames
    obtain ⟨hlength, hnone⟩ := Prod.mk.inj (Except.ok.inj hnames)
    refine ⟨hlength, fun f hf => ?_⟩
    have hspelled := List.find?_some hf
    exact absurd hspelled (List.any_eq_false.mp hnone f (List.mem_of_find?_eq_some hf))
  have hitems : s.items = [placeColumn "k" (some "h")] ++ placeColumn "j" none :: [placeCount] := rfl
  exact execute_groupBy_place [] [.column none "h"] rfl hitems hplace rfl (fun _ h => by cases h)
    (fun _ h => by cases h) hahead

/-- A title that is the name of the item behind takes its place, and so do the columns that a pivot puts in the
place of an aggregate. -/
theorem groupBy_place_taken :
    (execute placesWorld (placesOf [placeColumn "k" (some "j"), placeColumn "j" none, placeCount]
          [.literal (.number 2)]) =
        .ok ⟨["j", "j", "u COUNT(*)", "v COUNT(*)"],
          [[.text "a", .text "m", .number 1, .number 0], [.text "a", .text "n", .number 0, .number 1]]⟩ ∧
      execute placesWorld (placesOf [placeColumn "k" (some "j"), placeColumn "j" none, placeCount]
          [.column none "j"]) =
        .ok ⟨["j", "j", "u COUNT(*)", "v COUNT(*)"], [[.text "a", .text "m", .number 1, .number 1]]⟩) ∧
    execute placesWorld (placesOf [placeCount, placeColumn "k" none] [.literal (.number 2)]) =
      .ok ⟨["u COUNT(*)", "v COUNT(*)", "k"],
        [[.number 1, .number 0, .text "a"], [.number 0, .number 1, .text "a"]]⟩ ∧
    execute placesWorld (placesOf [placeCount, placeColumn "k" none] [.column none "k"]) =
      .ok ⟨["u COUNT(*)", "v COUNT(*)", "k"], [[.number 1, .number 1, .text "a"]]⟩ := by
  have hcollected (items : List SelectItem) (groupBy : List Expr) :
      (runInOrder placesWorld (runnerAt remembered placesWorld 0)
        (pivotValues (placesOf items groupBy) (.column none "p"))).Gives []
          (some ⟨["p"], [[.text "u"], [.text "v"]]⟩) [] := by
    change (runInOrder placesWorld (runnerAt remembered placesWorld 0)
      (pivotValues (placesOf [] []) (.column none "p"))).Gives [] _ []
    decide +kernel
  have hexecute {items : List SelectItem} {groupBy : List Expr} {r : ResultSet} (hgroups : groupBy ≠ [])
      (hbinds : (placesOf items groupBy).maxBind = 0) (hdepth : (placesOf items groupBy).depth = 1)
      (h :
        let kept : ResultMemo := [((pivotValues (placesOf items groupBy) (.column none "p")).text,
          ⟨["p"], [[.text "u"], [.text "v"]]⟩)]
        (runInOrder placesWorld (runnerAt remembered placesWorld 0)
          (pivoted (placesOf items groupBy) (.column none "p") [.text "u", .text "v"])).Gives kept (some r) kept) :
      execute placesWorld (placesOf items groupBy) = .ok r := by
    have hrun := run_of_inOrder_pivot (s := placesOf items groupBy) rfl hgroups rfl (hcollected items groupBy) rfl h
    exact execute_of_run (by rw [hbinds]; rfl) hdepth hrun
  exact ⟨⟨hexecute (List.cons_ne_nil _ _) (by decide +kernel) (by decide +kernel) (by decide +kernel),
      hexecute (List.cons_ne_nil _ _) (by decide +kernel) (by decide +kernel) (by decide +kernel)⟩,
    hexecute (List.cons_ne_nil _ _) (by decide +kernel) (by decide +kernel) (by decide +kernel),
    hexecute (List.cons_ne_nil _ _) (by decide +kernel) (by decide +kernel) (by decide +kernel)⟩

end GridQuery
