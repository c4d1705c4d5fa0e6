import GridQuery.Proofs.Pointed

/-!
Names of columns before and after joins. A select item finds its column by asking one source after the
other, a condition and an expression by asking the joined table, whose schema was merged join by join.
Both find the same column, or none, so a name reads the same cell wherever it stands.
-/

namespace GridQuery
set_option autoImplicit false

theorem resolveFrom_append (first : Nat) (spelling : String) (sources : List Table) (t : Table) :
    resolveFrom first spelling (sources ++ [t]) = (resolveFrom first spelling sources).or
      ((t.column? spelling).map fun c => (first + sources.length, c)) := by
  induction sources generalizing first with
  | nil =>
    simp only [List.nil_append, resolveFrom, List.length_nil, Nat.add_zero, Option.none_or]
    cases t.column? spelling <;> rfl
  | cons source sources ih =>
    simp only [List.cons_append, resolveFrom]
    cases source.column? spelling with
    | some c => rfl
    | none =>
      rw [ih, List.length_cons, Nat.add_right_comm, Nat.add_assoc]

/-- Where a column that was found in the sources stands among all their columns. -/
def placeOf (sources : List Table) (found : Nat × Nat) : Nat :=
  columnsBefore sources found.1 + found.2

/-- Columns of sources have places of their own. -/
theorem placeOf_inj {sources : List Table} {s s' c c' : Nat} {source source' : Table}
    (hs : sources[s]? = some source) (hc : c < source.width) (hs' : sources[s']? = some source')
    (hc' : c' < source'.width) (h : placeOf sources (s, c) = placeOf sources (s', c')) :
    s = s' ∧ c = c' := by
  simp only [placeOf] at h
  induction sources generalizing s s' with
  | nil => cases hs
  | cons t sources ih =>
    cases s with
    | zero =>
      cases hs
      cases s' with
      | zero =>
        simp only [columnsBefore] at h
        exact ⟨rfl, by omega⟩
      | succ s' =>
        simp only [columnsBefore] at h
        omega
    | succ s =>
      cases s' with
      | zero =>
        cases hs'
        simp only [columnsBefore] at h
        omega
      | succ s' =>
        simp only [columnsBefore] at h
        obtain ⟨rfl, rfl⟩ := ih hs hs' (by omega)
        exact ⟨rfl, rfl⟩

theorem resolveColumn_bound {sources : List Table} (hnamed : ∀ source ∈ sources, source.Named)
    {table : Option String} {name : String} {s c : Nat}
    (h : resolveColumn sources table name = some (s, c)) :
    ∃ source, sources[s]? = some source ∧ c < source.width := by
  obtain ⟨source, hsource, hcolumn⟩ := resolveFrom_eq_some h
  have hwidth := (hnamed source (List.mem_of_getElem? hsource)).lt_of_column? hcolumn
  exact ⟨source, hsource, hwidth⟩

/-- The field of a select item that is a column, as the sources have it. -/
theorem Fields.ofItem_column {sources : List Table} {item : SelectItem} {table : Option String}
    {name : String} {g : Field} (hexpr : item.expr = .column table name)
    (h : ofItem sources item = .ok [g]) :
    ∃ s c, resolveColumn sources table name = some (s, c) ∧ g.kind = .column s c := by
  unfold ofItem at h
  rw [hexpr] at h
  obtain ⟨f, hf, h⟩ := bind_eq_ok.mp h
  have hg : f.spell _ = g := (List.cons.inj (Except.ok.inj h)).1
  have hvalue : Field.ofValue sources item.title (.column table name) = .ok f := hf
  obtain ⟨s, c, hresolve, hkind, _⟩ := Field.ofValue_column hvalue
  refine ⟨s, c, hresolve, ?_⟩
  rw [← hg, Field.spell_kind, hkind]

theorem joinedTable_column? {left right : Table} (hright : right.Named) (kind : JoinKind) (ms : Matches)
    (name : String) : (joinedTable left right kind ms).column? name =
      (left.column? name).or ((right.column? name).map fun c => c + left.width) :=
  Schema.find?_merge left.schema hright.ne_empty left.width (normalize name)

section Chain

variable {σ : Type} {world : World} {runner : Runner σ} {first t : Table} {others : List Table}
  {joins : List JoinClause} {fields pointed : Fields} {st st' : σ}

/-- The joined table knows a column by the place of the one that the sources know. -/
theorem joinFrom_column? (hnamed : ∀ source ∈ chainSources first joins others, source.Named)
    (h : (joinFrom world runner 1 first fields joins others).Gives st (t, pointed) st')
    (name : String) : t.column? name =
      (resolveFrom 0 name (chainSources first joins others)).map
        (placeOf (chainSources first joins others)) := by
  let sources := chainSources first joins others
  have hstart : first.width = columnsBefore sources 1 ∧ first.column? name =
      (resolveFrom 0 name (sources.take 1)).map (placeOf sources) := by
    constructor
    · simp [sources, chainSources, columnsBefore]
    · simp only [sources, chainSources, List.take_succ_cons, List.take_zero, resolveFrom]
      cases first.column? name with
      | none => rfl
      | some c => simp [placeOf, columnsBefore]
  obtain ⟨last, hlast, _, hcolumn⟩ := joinFrom_invariant sources
    (fun count working _ => working.width = columnsBefore sources count ∧ working.column? name =
      (resolveFrom 0 name (sources.take count)).map (placeOf sources))
    (by
      intro count working right next fs kind on st st' hright hworking hnext
      obtain ⟨hwidth, hknown⟩ := hworking
      obtain ⟨ms, _, rfl⟩ := joinTables_gives hnext
      have hcount : count ≤ sources.length := (List.getElem?_eq_some_iff.mp hright).1.le
      constructor
      · rw [joinedTable_width, columnsBefore_succ hright, hwidth]
      · rw [joinedTable_column? (hnamed right (List.mem_of_getElem? hright)), hknown,
          List.take_add_one, hright, Option.toList_some, resolveFrom_append, Option.map_or,
          Option.map_map, List.length_take_of_le hcount, hwidth]
        congr 2
        funext c
        simp only [placeOf, Function.comp_apply, Nat.zero_add]
        exact Nat.add_comm _ _)
    rfl hstart h
  rwa [List.take_of_length_le hlast] at hcolumn

/-- A field of a column is read where the joins have moved that column. -/
theorem fieldFormula_pointed (hmade : Fields.Made (chainSources first joins others) fields)
    (h : (joinFrom world runner 1 first fields joins others).Gives st (t, pointed) st') {i : Nat}
    {g : Field} {s c : Nat} (hi : fields[i]? = some g) (hkind : g.kind = .column s c) :
    ∃ f, pointed[i]? = some f ∧ ∀ (scope : Scope) (memo : FormulaMemo),
      scope.fieldFormula memo f =
        .ok (.slot (placeOf (chainSources first joins others) (s, c)), memo) := by
  have hkinds : (pointed.map Field.kind)[i]? = some (.column s c) := by
    rw [joinFrom_kinds h, List.getElem?_map, hi, ← hkind]
    rfl
  rw [List.getElem?_map] at hkinds
  obtain ⟨f, hf, hfkind⟩ := Option.map_eq_some_iff.mp hkinds
  obtain ⟨source, _, _, hphysical⟩ := joinFrom_pointed hmade h f (List.mem_of_getElem? hf) hfkind
  refine ⟨f, hf, ?_⟩
  intro scope memo
  simp only [Scope.fieldFormula, hfkind, hphysical, placeOf]

end Chain

/-- After a chain of joins the sources and the joined table know the same columns by the same names. So a
name that is selected is read where conditions and expressions read it. -/
theorem resolveColumn_iff_column? {σ : Type} {world : World} {runner : Runner σ} {first t : Table}
    {others : List Table} {joins : List JoinClause} {fields pointed : Fields} {st st' : σ}
    (hnamed : ∀ source ∈ chainSources first joins others, source.Named)
    (h : (joinFrom world runner 1 first fields joins others).Gives st (t, pointed) st') :
    (∀ (table : Option String) (name : String),
      (∀ s c, resolveColumn (chainSources first joins others) table name = some (s, c) ↔
        ∃ source, (chainSources first joins others)[s]? = some source ∧ c < source.width ∧
          t.column? (columnSpelling table name) =
            some (columnsBefore (chainSources first joins others) s + c)) ∧
      (resolveColumn (chainSources first joins others) table name = none ↔
        t.column? (columnSpelling table name) = none)) ∧
    (Fields.Made (chainSources first joins others) fields →
      ∀ {item : SelectItem} {table : Option String} {name : String} {g : Field} {i : Nat},
        item.expr = .column table name →
        Fields.ofItem (chainSources first joins others) item = .ok [g] → fields[i]? = some g →
        ∃ f slot, pointed[i]? = some f ∧
          (∀ memo, (Rows.scope ⟨world, t, runner⟩).fieldFormula memo f = .ok (.slot slot, memo)) ∧
          (Rows.scope ⟨world, t, runner⟩).formula (.column table name) = .ok (.slot slot)) := by
  have hknown (table : Option String) (name : String) :
      t.column? (columnSpelling table name) =
        (resolveColumn (chainSources first joins others) table name).map
          (placeOf (chainSources first joins others)) := joinFrom_column? hnamed h _
  constructor
  · intro table name
    constructor
    · intro s c
      constructor
      · intro hresolve
        obtain ⟨source, hsource, hwidth⟩ := resolveColumn_bound hnamed hresolve
        refine ⟨source, hsource, hwidth, ?_⟩
        rw [hknown, hresolve]
        rfl
      · rintro ⟨source, hsource, hwidth, hcolumn⟩
        rw [hknown] at hcolumn
        obtain ⟨⟨s', c'⟩, hresolve, hplace⟩ := Option.map_eq_some_iff.mp hcolumn
        obtain ⟨source', hsource', hwidth'⟩ := resolveColumn_bound hnamed hresolve
        obtain ⟨rfl, rfl⟩ := placeOf_inj hsource' hwidth' hsource hwidth hplace
        exact hresolve
    · rw [hknown, Option.map_eq_none_iff]
  · intro hmade item table name g i hexpr hitem hi
    obtain ⟨s, c, hresolve, hkind⟩ := Fields.ofItem_column hexpr hitem
    obtain ⟨f, hf, hformula⟩ := fieldFormula_pointed hmade h hi hkind
    refine ⟨f, _, hf, hformula _, ?_⟩
    apply Rows.formula_column
    rw [hknown, hresolve]
    rfl

/-- A table beside itself, where only an alias tells the columns apart. -/
theorem resolveColumn_iff_column?_selfJoin :
    let table := Table.derived "T" ["A", "B"] [[.text "x", .text "y"], [.text "y", .text "z"]]
    let first := table.withAlias (some "X")
    let others := [table.withAlias (some "Y")]
    let joins : List JoinClause := [⟨.inner, .table "T" (some "Y"),
      .compare .eq (.column (some "X") "B") (.column (some "Y") "A")⟩]
    let sources := chainSources first joins others
    let item : SelectItem := ⟨.column (some "Y") "A", "A", none⟩
    (∀ source ∈ sources, source.Named) ∧
    ∃ (fields pointed : Fields) (t : Table) (kept : ResultMemo), Fields.Made sources fields ∧
      (joinFrom emptyWorld (runnerAt remembered emptyWorld 0) 1 first fields joins others).Gives []
        (t, pointed) kept ∧
      t.rows = [[.text "x", .text "y", .text "y", .text "z"]] ∧
      t.column? "Y.A" = some 2 ∧ t.column? "Z.A" = none ∧
      ∃ f slot, pointed[0]? = some f ∧
        (∀ memo, (rowsAt emptyWorld t 0).scope.fieldFormula memo f = .ok (.slot slot, memo)) ∧
        (rowsAt emptyWorld t 0).scope.formula item.expr = .ok (.slot slot) := by
  intro table first others joins sources item
  have hnamed : ∀ source ∈ sources, source.Named := by
    intro source hsource
    simp only [sources, chainSources, others, joins, List.length_cons, List.length_nil,
      List.take_succ_cons, List.take_nil, List.mem_cons, List.not_mem_nil, or_false] at hsource
    rcases hsource with rfl | rfl
    all_goals exact Table.withAlias_named _ _
  refine ⟨hnamed, ?_⟩
  have hall : ((Fields.ofItem sources item).bind fun fields =>
      ((joinFrom emptyWorld (runnerAt remembered emptyWorld 0) 1 first fields joins others).run
        []).1.map fun made => (made.1.rows, fields.length)) =
      .ok ([[.text "x", .text "y", .text "y", .text "z"]], 1) := by
    decide +kernel
  obtain ⟨fields, hitem, hall⟩ := bind_eq_ok.mp hall
  rcases hrun : (joinFrom emptyWorld (runnerAt remembered emptyWorld 0) 1 first fields joins
    others).run [] with ⟨e | ⟨t, pointed⟩, kept⟩
  · rw [hrun] at hall
    cases hall
  · rw [hrun] at hall
    obtain ⟨hrows, hlength⟩ := Prod.mk.inj (Except.ok.inj hall)
    obtain ⟨g, rfl⟩ := List.length_eq_one_iff.mp hlength
    have hselect : Fields.ofSelect sources [item] = .ok [g] := by
      simp only [Fields.ofSelect, hitem]
      rfl
    have hmade : Fields.Made sources [g] := .ofSelect hselect
    obtain ⟨hnames, hreads⟩ := resolveColumn_iff_column? hnamed hrun
    refine ⟨[g], pointed, t, kept, hmade, hrun, hrows, ?_, ?_, hreads hmade rfl hitem rfl⟩
    · obtain ⟨_, _, _, hcolumn⟩ := ((hnames (some "Y") "A").1 1 0).mp (by decide +kernel)
      exact hcolumn
    · exact (hnames (some "Z") "A").2.mp (by decide +kernel)

end GridQuery
