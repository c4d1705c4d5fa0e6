import GridQuery.Proofs.Anew
import GridQuery.Proofs.Fields
import GridQuery.Proofs.Names

/-!
Titles told before a statement runs. Binding a statement to an outer row goes by the titles that the
texts of its nested statements tell, and the statements show the titles that their fields have. A star is
read twice, once over sources in the text and once over tables; where the two readings mean the same
sources under the same names, what is told is what is shown.
-/

namespace GridQuery
set_option autoImplicit false

/-- Every table is kept under its own name. -/
def Tables.Keyed (ts : Tables) : Prop :=
  ∀ e ∈ ts.entries, e.1 = normalize e.2.name

namespace Tables

theorem Keyed.empty : Tables.empty.Keyed := by
  intro e he
  cases he

theorem mem_put {key : String} {t : Table} {entries : List (String × Table)} {e : String × Table}
    (h : e ∈ put key t entries) : e = (key, t) ∨ e ∈ entries := by
  induction entries with
  | nil => exact Or.inl (List.mem_singleton.mp h)
  | cons first entries ih =>
    unfold put at h
    split at h
    · rcases List.mem_cons.mp h with rfl | h
      · exact Or.inl rfl
      · exact Or.inr (List.mem_cons_of_mem first h)
    · rcases List.mem_cons.mp h with rfl | h
      · exact Or.inr List.mem_cons_self
      · exact (ih h).imp_right (List.mem_cons_of_mem first)

theorem Keyed.insert {ts : Tables} (h : ts.Keyed) (t : Table) : (ts.insert t).Keyed := by
  intro e he
  rcases mem_put he with rfl | he
  · rfl
  · exact h e he

theorem keyed_ofList (tables : List Table) : (Tables.ofList tables).Keyed := by
  have hfold (start : Tables) (h : start.Keyed) : (tables.foldl Tables.insert start).Keyed := by
    induction tables generalizing start with
    | nil => exact h
    | cons t tables ih => exact ih _ (h.insert t)
  exact hfold empty .empty

theorem Keyed.normalize_name {ts : Tables} (h : ts.Keyed) {name : String} {t : Table}
    (ht : ts.get? name = some t) : normalize t.name = normalize name :=
  (h _ (mem_of_lookup ht)).symm

end Tables

section Told

/-- A star with that qualifier stands for the columns of a source with that name. -/
def means (qualifier : Option String) (name : String) : Bool :=
  qualifier.all fun q => normalize q == normalize name

/-- A star names a stored table as the text of the statement does: if it goes by the table's own name,
then not past an alias, and that name is the stored one up to how it is written. -/
def Tables.told (ts : Tables) (name : String) (alias? : Option String) (star : Option String) : Bool :=
  !means star name ||
    match alias? with
    | some a => means star a
    | none => (ts.get? name).all fun t => normalize (t.name ++ ".") == normalize (name ++ ".")

/-- The qualifiers of the stars among select items. -/
def starQualifiers (items : List SelectItem) : List (Option String) :=
  items.filterMap fun item =>
    match item.expr with
    | .star qualifier => some qualifier
    | _ => none

mutual

/-- The text tells the titles: no pivot makes new columns, and the stars name their sources as the text
does. A nested statement that no star shows may tell what it likes. -/
def Statement.told (ts : Tables) : Statement → Bool
  | ⟨_, items, source, joins, _, _, _, _, _, pivot, _⟩ =>
    (pivot.isNone || items.all fun item => item.expr.aggregate?.isNone) &&
      (source.told ts (starQualifiers items) && joinsTold ts (starQualifiers items) joins)

def Source.told (ts : Tables) (stars : List (Option String)) : Source → Bool
  | .table name alias? => stars.all (ts.told name alias?)
  | .query q alias? => q.told ts || !stars.any fun star => means star (alias?.getD subqueryName)

def joinsTold (ts : Tables) (stars : List (Option String)) : List JoinClause → Bool
  | [] => true
  | ⟨_, source, _⟩ :: joins => source.told ts stars && joinsTold ts stars joins

end

end Told

section Shown

/-- The titles of the columns of tables that a star stands for. -/
def starTitles (qualifier : Option String) (tables : List Table) : List String :=
  (tables.filter (Fields.starMeans qualifier)).flatMap fun t =>
    t.titles.map fun title => normalize (t.reference ++ "." ++ title)

/-- The titles that an item shows over tables. -/
def shownTitles (tables : List Table) (item : SelectItem) : List String :=
  match item.expr with
  | .star qualifier => starTitles qualifier tables
  | _ => [item.title]

namespace Field

theorem ofValue_shown {sources : List Table} {title : String} {e : Expr} {f : Field}
    (h : ofValue sources title e = .ok f) : f.title = title ∧ f.temporary = false := by
  cases e with
  | column table name =>
    simp only [ofValue] at h
    split at h
    · cases h
      constructor
      · split <;> simp [ofKind]
      · split <;> simp [ofKind]
    · cases h
  | star qualifier =>
    cases qualifier with
    | none =>
      cases h
      exact ⟨rfl, rfl⟩
    | some q => cases h
  | subquery q =>
    cases h
    exact ⟨rfl, rfl⟩
  | literal | bind | binary | unary | call | case | ite | list | paren =>
    simp only [ofValue] at h
    split at h
    · cases h
    · cases h
      exact ⟨rfl, rfl⟩

theorem ofExpr_shown {sources : List Table} {title : String} {e : Expr} {f : Field}
    (h : ofExpr sources title e = .ok f) : f.title = title ∧ f.temporary = false := by
  unfold ofExpr at h
  split at h
  · exact ofValue_shown h
  · split at h
    · obtain ⟨g, hg, h⟩ := bind_eq_ok.mp h
      have hshown := ofValue_shown hg
      cases h
      exact hshown
    · cases h

end Field

namespace Fields

variable {sources : List Table}

theorem titles_append (fs gs : Fields) : titles (fs ++ gs) = titles fs ++ titles gs := by
  simp [titles]

/-- Fields that are all shown show their titles. -/
theorem titles_of_shown {fs : Fields} (h : ∀ f ∈ fs, f.temporary = false) :
    titles fs = fs.map Field.title := by
  unfold titles
  rw [List.filter_eq_self.mpr]
  intro f hf
  simp [h f hf]

theorem ofSource_shown {index : Nat} {source : Table} {f : Field} (hf : f ∈ ofSource index source) :
    f.temporary = false := by
  obtain ⟨t, _, rfl⟩ := List.mem_map.mp hf
  simp [Field.ofKind]

/-- The fields of a select list are shown. -/
theorem ofSelect_shown {items : List SelectItem} {fs : Fields} (h : ofSelect sources items = .ok fs) :
    ∀ f ∈ fs, f.temporary = false := by
  intro f hf
  obtain ⟨item, _, gs, hgs, hf⟩ := mem_ofSelect h hf
  rcases mem_ofItem hgs hf with ⟨s, source, _, hf⟩ | ⟨g, hg, hspelled⟩
  · exact ofSource_shown hf
  · rw [hspelled, Field.spell_temporary]
    exact (Field.ofExpr_shown hg).2

theorem ofSource_titles (index : Nat) (source : Table) :
    titles (ofSource index source) =
      source.titles.map fun title => normalize (source.reference ++ "." ++ title) := by
  have htitles : (ofSource index source).map Field.title = (source.titles.zipIdx.map Prod.fst).map
      fun title => normalize (source.reference ++ "." ++ title) := by
    unfold ofSource
    rw [List.map_map, List.map_map]
    apply List.map_congr_left
    intro t _
    simp [Field.ofKind]
  rw [titles_of_shown fun f hf => ofSource_shown hf, htitles, List.zipIdx_map_fst]

theorem ofStar_titles {qualifier : Option String} {fs : Fields}
    (h : ofStar sources qualifier = .ok fs) : titles fs = starTitles qualifier sources := by
  have hflat (numbered : List (Table × Nat)) :
      titles (numbered.flatMap fun s => ofSource s.2 s.1) =
        (numbered.map Prod.fst).flatMap fun t =>
          t.titles.map fun title => normalize (t.reference ++ "." ++ title) := by
    induction numbered with
    | nil => rfl
    | cons s numbered ih =>
      rw [List.flatMap_cons, titles_append, ofSource_titles, ih, List.map_cons, List.flatMap_cons]
  have hmeant : (sources.zipIdx.filter fun s => starMeans qualifier s.1).map Prod.fst =
      sources.filter (starMeans qualifier) := by
    have hmap := List.filter_map (p := starMeans qualifier) (f := Prod.fst) (l := sources.zipIdx)
    rw [List.zipIdx_map_fst] at hmap
    exact hmap.symm
  simp only [ofStar] at h
  split at h
  · cases h
  · cases h
    rw [hflat, hmeant, starTitles]

theorem ofItem_titles {item : SelectItem} {fs : Fields} (h : ofItem sources item = .ok fs) :
    titles fs = shownTitles sources item := by
  unfold ofItem at h
  unfold shownTitles
  cases he : item.expr with
  | star qualifier =>
    simp only [he] at h ⊢
    exact ofStar_titles h
  | literal | column | bind | binary | unary | call | case | ite | subquery | list | paren =>
    simp only [he] at h ⊢
    obtain ⟨g, hg, h⟩ := bind_eq_ok.mp h
    obtain ⟨htitle, hshown⟩ := Field.ofExpr_shown hg
    cases h
    rw [titles_of_shown (by simpa using hshown)]
    simp [htitle]

theorem ofSelect_titles {items : List SelectItem} {fs : Fields}
    (h : ofSelect sources items = .ok fs) : titles fs = items.flatMap (shownTitles sources) := by
  induction items generalizing fs with
  | nil =>
    cases h
    rfl
  | cons item items ih =>
    unfold ofSelect at h
    obtain ⟨gs, hgs, h⟩ := bind_eq_ok.mp h
    obtain ⟨others, hothers, h⟩ := bind_eq_ok.mp h
    cases h
    rw [titles_append, ofItem_titles hgs, ih hothers, List.flatMap_cons]

/-- Hidden fields show no titles. -/
theorem titles_of_hidden {fs : Fields} (h : ∀ f ∈ fs, f.temporary = true) : titles fs = [] := by
  unfold titles
  rw [List.filter_eq_nil_iff.mpr, List.map_nil]
  intro f hf
  simp [h f hf]

theorem hidden_temporary {clause : String} {e : Expr} {f : Field} (h : hidden sources clause e = .ok f) :
    f.temporary = true := by
  obtain ⟨g, _, rfl⟩ := hidden_eq_ok h
  rfl

theorem titles_unpointed (fs : Fields) : titles (fs.map Field.unpointed) = fs.titles := by
  unfold titles
  rw [List.filter_map, List.map_map]
  rfl

end Fields

/-- The fields of a statement: those of its select items, which are shown, and behind them those that its
clauses added, which are not. -/
structure VisibleFirst (sources : List Table) (s : Statement) (fields selected added : Fields) :
    Prop where
  eq_append : fields = selected ++ added
  ofItems : Fields.ofSelect sources s.items = .ok selected
  shown : ∀ f ∈ selected, f.temporary = false
  hidden : ∀ f ∈ added, f.temporary = true
  forClause : ∀ f ∈ added, ∃ clause, ∃ e ∈ s.clauseExprs, Fields.hidden sources clause e = .ok f

theorem VisibleFirst.titles_eq {sources : List Table} {s : Statement} {fields selected added : Fields}
    (h : VisibleFirst sources s fields selected added) : fields.titles = selected.map Field.title := by
  rw [h.eq_append, Fields.titles_append, Fields.titles_of_shown h.shown, Fields.titles_of_hidden h.hidden,
    List.append_nil]

theorem layout_visibleFirst {sources : List Table} {s : Statement} {plan : Layout}
    (h : layout sources s = .ok plan) :
    ∃ selected added, VisibleFirst sources s plan.fields selected added := by
  obtain ⟨selected, added, hselected, hfields, hadded⟩ := layout_append h
  refine ⟨selected, added, hfields, hselected, Fields.ofSelect_shown hselected, ?_, hadded⟩
  intro f hf
  obtain ⟨_, e, _, hmade⟩ := hadded f hf
  exact Fields.hidden_temporary hmade

theorem layout_titles {sources : List Table} {s : Statement} {plan : Layout}
    (h : layout sources s = .ok plan) : plan.fields.titles = s.items.flatMap (shownTitles sources) := by
  obtain ⟨selected, added, hvisible⟩ := layout_visibleFirst h
  rw [hvisible.titles_eq, ← Fields.titles_of_shown hvisible.shown, Fields.ofSelect_titles hvisible.ofItems]

variable {σ : Type} {world : World} {runner : Runner σ}

theorem joinFrom_titles {first t : Table} {others : List Table} {joins : List JoinClause}
    {fields pointed : Fields} {st st' : σ}
    (h : (joinFrom world runner 1 first fields joins others).Gives st (t, pointed) st') :
    pointed.titles = fields.titles := by
  rw [← Fields.titles_unpointed pointed, joinFrom_unpointed h, Fields.titles_unpointed]

/-- A statement shows the titles of its select items over the tables of its sources. -/
theorem runPlain_titles {s : Statement} {r : ResultSet} {st st' : σ}
    (h : (runPlain world runner s).Gives st r st') :
    ∃ first others mid mid' last, (sourceTable world runner s.source).Gives st first mid ∧
      (sourceTables world runner s.joins).Gives mid' others last ∧
      r.titles = s.items.flatMap (shownTitles (first :: others)) := by
  unfold runPlain at h
  obtain ⟨first, mid, hfirst, h⟩ := Run.gives_bind.mp h
  obtain ⟨others, last, hothers, h⟩ := Run.gives_bind.mp h
  obtain ⟨plan, _, hplan, h⟩ := Run.gives_bind.mp h
  obtain ⟨⟨working, fields⟩, _, hjoin, h⟩ := Run.gives_bind.mp h
  obtain ⟨ids, _, _, h⟩ := Run.gives_bind.mp h
  obtain ⟨formulas, _, _, h⟩ := Run.gives_bind.mp h
  obtain ⟨cells, _, _, h⟩ := Run.gives_bind.mp h
  obtain ⟨groups, _, _, h⟩ := Run.gives_bind.mp h
  refine ⟨first, others, mid, mid, last, hfirst, hothers, ?_⟩
  rw [(Run.gives_pure.mp h).1]
  change fields.titles = _
  rw [joinFrom_titles hjoin, layout_titles (Run.gives_of.mp hplan).1]

end Shown

section Agreement

variable {σ : Type} {world : World} {runner : Runner σ}

/-- Nested statements whose texts tell their titles show those. -/
def Runner.Titled (runner : Runner σ) (ts : Tables) : Prop :=
  ∀ {q : Statement} {r : ResultSet} {st st' : σ}, (runner.kept q).Gives st r st' →
    q.told ts = true → r.titles = q.titles ts

theorem starMeans_eq (star : Option String) (t : Table) :
    Fields.starMeans star t = (means star t.reference || means star t.name) := by
  cases star with
  | none => rfl
  | some q =>
    rw [Bool.eq_iff_iff]
    simp only [Fields.starMeans, means, Option.all_some, Bool.or_eq_true, beq_iff_eq]
    exact or_congr eq_comm eq_comm

theorem means_congr {a b : String} (h : normalize a = normalize b) (star : Option String) :
    means star a = means star b := by
  unfold means
  rw [h]

/-- The titles that the text of a statement tells for a star. -/
def toldTitles (star : Option String) (sources : List (String × List String)) : List String :=
  (sources.filter fun s => means star s.1).flatMap fun s =>
    s.2.map fun title => normalize (s.1 ++ "." ++ title)

theorem starTitles_cons (star : Option String) (t : Table) (tables : List Table) :
    starTitles star (t :: tables) = starTitles star [t] ++ starTitles star tables := by
  unfold starTitles
  rw [← List.flatMap_append, ← List.filter_append, List.singleton_append]

theorem toldTitles_cons (star : Option String) (s : String × List String)
    (sources : List (String × List String)) :
    toldTitles star (s :: sources) = toldTitles star [s] ++ toldTitles star sources := by
  unfold toldTitles
  rw [← List.flatMap_append, ← List.filter_append, List.singleton_append]

/-- A table that a star means just where it means the name, with columns that are named alike then. -/
theorem starTitles_singleton {star : Option String} {t : Table} {name : String}
    {titles : List String} (hmeans : Fields.starMeans star t = means star name)
    (hnames : means star name = true →
      (t.titles.map fun title => normalize (t.reference ++ "." ++ title)) =
        titles.map fun title => normalize (name ++ "." ++ title)) :
    starTitles star [t] = toldTitles star [(name, titles)] := by
  unfold starTitles toldTitles
  by_cases hm : means star name = true
  · simp [hmeans, hm, hnames hm]
  · simp [hmeans, hm]

/-- A pivot whose select list has no aggregates makes no columns. -/
theorem flatMap_pivotItem {items : List SelectItem} (pivot : Expr) (values : List Cell)
    (h : items.all (fun item => item.expr.aggregate?.isNone) = true) :
    items.flatMap (pivotItem pivot values) = items := by
  induction items with
  | nil => rfl
  | cons item items ih =>
    rw [List.all_cons, Bool.and_eq_true, Option.isNone_iff_eq_none] at h
    rw [List.flatMap_cons, ih h.2, pivotItem, h.1]
    rfl

theorem Statement.titles_eq (ts : Tables) (s : Statement) :
    s.titles ts = s.items.flatMap
      (itemTitles ((s.source.referenceName, s.source.titles ts) :: joinTitles ts s.joins)) := by
  cases s
  rfl

theorem Statement.told_iff {ts : Tables} {s : Statement} :
    s.told ts = true ↔
      (s.pivot = none ∨ s.items.all (fun item => item.expr.aggregate?.isNone) = true) ∧
        s.source.told ts (starQualifiers s.items) = true ∧
        joinsTold ts (starQualifiers s.items) s.joins = true := by
  cases s
  simp only [Statement.told, Bool.and_eq_true, Bool.or_eq_true, Option.isNone_iff_eq_none]

variable (hkeyed : world.tables.Keyed) (hrunner : runner.Titled world.tables)

include hkeyed

theorem starTitles_stored {name : String} {alias? star : Option String} {stored : Table}
    (hstored : world.tables.get? name = some stored)
    (htold : world.tables.told name alias? star = true) :
    starTitles star [stored.withAlias alias?] =
      toldTitles star [(alias?.getD name, world.tables.titlesOf name)] := by
  have hname := hkeyed.normalize_name hstored
  have htitles : world.tables.titlesOf name = stored.titles := by
    simp [Tables.titlesOf, hstored]
  unfold Tables.told at htold
  rw [Bool.or_eq_true, Bool.not_eq_true'] at htold
  rw [htitles]
  apply starTitles_singleton
  · rw [starMeans_eq]
    change (means star (alias?.getD stored.name) || means star stored.name) = _
    rw [means_congr hname]
    cases alias? with
    | none =>
      change (means star stored.name || means star name) = means star name
      rw [means_congr hname, Bool.or_self]
    | some a =>
      change (means star a || means star name) = means star a
      rcases htold with hother | halias
      · rw [hother, Bool.or_false]
      · rw [show means star a = true from halias, Bool.true_or]
  · intro hm
    cases alias? with
    | some a => rfl
    | none =>
      have hspelled := htold.resolve_left (by simpa using hm)
      rw [hstored, Option.all_some, beq_iff_eq] at hspelled
      apply List.map_congr_left
      intro title _
      exact normalize_qualified_congr hspelled title

include hrunner

/-- A star over a table, and over the source in the text that the table is of, shows the same titles. -/
theorem starTitles_source {s : Source} {t : Table} {st st' : σ}
    (h : (sourceTable world runner s).Gives st t st') {stars : List (Option String)}
    (htold : s.told world.tables stars = true) {star : Option String} (hstar : star ∈ stars) :
    starTitles star [t] = toldTitles star [(s.referenceName, s.titles world.tables)] := by
  cases s with
  | table name alias? =>
    obtain ⟨stored, _, hstored, h⟩ := Run.gives_bind.mp h
    obtain ⟨rfl, _⟩ := Run.gives_pure.mp h
    have hrequire := (Run.gives_of.mp hstored).1
    unfold Tables.require at hrequire
    split at hrequire
    · rename_i t ht
      cases hrequire
      rw [Source.told] at htold
      have hone := starTitles_stored hkeyed ht (List.all_eq_true.mp htold star hstar)
      simpa only [Source.referenceName, Source.reference?, Option.getD_some, Source.titles] using hone
    · cases hrequire
  | query q alias? =>
    obtain ⟨r, _, hr, h⟩ := Run.gives_bind.mp h
    obtain ⟨rfl, _⟩ := Run.gives_pure.mp h
    have hreference : (Source.query q alias?).referenceName = alias?.getD subqueryName := by
      cases alias? <;> rfl
    rw [hreference, Source.titles]
    apply starTitles_singleton
    · rw [starMeans_eq]
      exact Bool.or_self _
    · intro hm
      rw [Source.told, Bool.or_eq_true, Bool.not_eq_true'] at htold
      have hq : q.told world.tables = true := by
        refine htold.resolve_right fun hnone => ?_
        have hany : (stars.any fun star => means star (alias?.getD subqueryName)) = true :=
          List.any_eq_true.mpr ⟨star, hstar, hm⟩
        rw [hany] at hnone
        cases hnone
      rw [← hrunner hr hq]
      rfl

theorem starTitles_joined {joins : List JoinClause} {others : List Table} {st st' : σ}
    (h : (sourceTables world runner joins).Gives st others st') {stars : List (Option String)}
    (htold : joinsTold world.tables stars joins = true) {star : Option String}
    (hstar : star ∈ stars) :
    starTitles star others = toldTitles star (joinTitles world.tables joins) := by
  induction joins generalizing others st st' with
  | nil =>
    obtain ⟨rfl, _⟩ := Run.gives_pure.mp h
    simp [starTitles, toldTitles, joinTitles]
  | cons j joins ih =>
    obtain ⟨kind, source, on⟩ := j
    obtain ⟨t, mid, ht, h⟩ := Run.gives_bind.mp h
    obtain ⟨rest, mid', hrest, h⟩ := Run.gives_bind.mp h
    obtain ⟨rfl, _⟩ := Run.gives_pure.mp h
    rw [joinsTold, Bool.and_eq_true] at htold
    have hfirst := starTitles_source hkeyed hrunner ht htold.1 hstar
    rw [joinTitles, starTitles_cons, hfirst, ih hrest htold.2, ← toldTitles_cons]

theorem runPlain_told {s : Statement} {r : ResultSet} {st st' : σ}
    (h : (runPlain world runner s).Gives st r st')
    (hsource : s.source.told world.tables (starQualifiers s.items) = true)
    (hjoins : joinsTold world.tables (starQualifiers s.items) s.joins = true) :
    r.titles = s.items.flatMap
      (itemTitles ((s.source.referenceName, s.source.titles world.tables) ::
        joinTitles world.tables s.joins)) := by
  obtain ⟨first, others, _, _, _, hfirst, hothers, htitles⟩ := runPlain_titles h
  rw [htitles, List.flatMap_def, List.flatMap_def]
  congr 1
  apply List.map_congr_left
  intro item hitem
  cases he : item.expr with
  | star star =>
    have hstar : star ∈ starQualifiers s.items :=
      List.mem_filterMap.mpr ⟨item, hitem, by rw [he]⟩
    simp only [shownTitles, itemTitles, he]
    rw [starTitles_cons, starTitles_source hkeyed hrunner hfirst hsource hstar,
      starTitles_joined hkeyed hrunner hothers hjoins hstar, ← toldTitles_cons]
    rfl
  | literal | column | bind | binary | unary | call | case | ite | subquery | list | paren =>
    simp only [shownTitles, itemTitles, he]

theorem runPivot_told {s : Statement} {r : ResultSet} {st st' : σ}
    (h : (runPivot world runner s).Gives st r st') (htold : s.told world.tables = true) :
    r.titles = s.titles world.tables := by
  obtain ⟨hpivot, hsource, hjoins⟩ := Statement.told_iff.mp htold
  rw [Statement.titles_eq]
  unfold runPivot at h
  split at h
  · exact runPlain_told hkeyed hrunner h hsource hjoins
  · rename_i pivot hp
    split at h
    · exact absurd h Run.not_gives_throw
    · obtain ⟨values, _, _, h⟩ := Run.gives_bind.mp h
      have hnone : s.items.all (fun item => item.expr.aggregate?.isNone) = true := by
        simpa [hp] using hpivot
      have hitems := flatMap_pivotItem pivot (values.column 0) hnone
      rw [pivoted, hitems] at h
      exact runPlain_told hkeyed hrunner h hsource hjoins

end Agreement

/-- Set operations keep the titles of the first operand. -/
theorem combineAll_titles {σ : Type} {runner : Runner σ} {left r : ResultSet}
    {operations : List SetOperation} {st st' : σ}
    (h : (combineAll runner left operations).Gives st r st') : r.titles = left.titles := by
  induction operations generalizing left st with
  | nil => rw [(Run.gives_pure.mp h).1]
  | cons o operations ih =>
    obtain ⟨right, _, _, h⟩ := Run.gives_bind.mp h
    obtain ⟨both, _, hboth, h⟩ := Run.gives_bind.mp h
    rw [ih h]
    have hcombine := (Run.gives_of.mp hboth).1
    unfold ResultSet.combine at hcombine
    split at hcombine
    · cases hcombine
      rfl
    · cases hcombine

section Runs

variable {world : World}

/-- Every statement shows what its text tells, the statements in it being run again each time. -/
theorem run_anew_told {σ : Type} (hkeyed : world.tables.Keyed) (depth : Nat) {s : Statement}
    {r : ResultSet} {st st' : σ} (h : (run anew world depth s).Gives st r st')
    (htold : s.told world.tables = true) : r.titles = s.titles world.tables := by
  induction depth generalizing s r st st' with
  | zero => exact absurd h Run.not_gives_throw
  | succ depth ih =>
    change (runWith world (runnerAt anew world depth) s).Gives st r st' at h
    obtain ⟨first, _, hfirst, h⟩ := Run.gives_bind.mp h
    have hnested : (runnerAt anew world depth : Runner σ).Titled world.tables := by
      intro q r' st st' hq hqtold
      exact ih hq hqtold
    rw [combineAll_titles h]
    exact runPivot_told hkeyed hnested hfirst htold

/-- What a query that remembers results comes to, without them, if what it keeps stays unseen. -/
theorem run_anew_of_execute {s : Statement} {r : ResultSet} (hsame : (met world s).Consistent)
    (h : execute world s = .ok r) : (run anew world s.depth s).Gives () r () := by
  have hmirrors := (mirroring (met world s)).run (mirroring_remembered hsame) s.depth (.refl world s)
  have hempty : ResultMemo.From [] [] := by
    intro text r hr
    cases hr
  have hvalue := hmirrors.value_eq hempty (List.Subset.refl _)
  have hanew := noting.run noting_noted s.depth (.refl world s) []
  obtain ⟨_, _, hrun⟩ := bind_eq_ok.mp h
  rw [hvalue, hanew] at hrun
  exact Prod.ext hrun rfl

/-- Where its text tells the titles of a statement, its result has those titles; so binding to an outer row
leaves every column alone that the statement offers as a source. -/
theorem execute_titles {world : World} {q : Statement} {r : ResultSet}
    (hkeyed : world.tables.Keyed) (hsame : (met world q).Consistent)
    (htold : q.told world.tables = true) (h : execute world q = .ok r) :
    r.titles = q.titles world.tables ∧
      ∀ (alias? : Option String) (items : List SelectItem) (joins : List JoinClause)
        (scopes : List Schema) (cell : String → Option Cell) (table : Option String) (name : String),
        ((Table.derived (alias?.getD subqueryName) r.titles r.rows).column?
          (columnSpelling table name)).isSome →
        outerExpr (scopeOf world.tables items (.query q alias?) joins ++ scopes) cell table name =
          .column table name := by
  have htitles := run_anew_told hkeyed q.depth (run_anew_of_execute hsame h) htold
  refine ⟨htitles, ?_⟩
  intro alias? items joins scopes cell table name hcolumn
  have hknown : knownIn (scopeOf world.tables items (.query q alias?) joins ++ scopes)
      (columnSpelling table name) = true := by
    apply List.any_eq_true.mpr
    refine ⟨(Source.query q alias?).schema world.tables, by simp [scopeOf], ?_⟩
    rw [Source.schema, ← htitles]
    exact hcolumn
  rw [outerExpr, if_pos hknown]

end Runs

/-- `O` and `T` have a column of one name; `O` also has one titled like a count for the value `x`. -/
def sameColumnWorld : World :=
  ⟨.ofList [.derived "O" ["A", "x N"] [[.text "outer", .number 99]],
    .derived "T" ["A", "P"] [[.text "inner", .text "x"]]], .empty, .midnight ⟨2020, 1, 1⟩⟩

/-- Stars over a table with an alias and over a nested statement with a star of its own. -/
def nestedStars : String :=
  "SELECT X.*, Y.* FROM T AS X INNER JOIN (SELECT * FROM T) AS Y ON X.A = Y.`T.A`"

theorem execute_titles_nestedStars :
    ∃ s r, Parser.parseStatement nestedStars = .ok s ∧ execute sameColumnWorld s = .ok r ∧
      r.titles = ["X.A", "X.P", "Y.T.A", "Y.T.P"] ∧
      s.titles sameColumnWorld.tables = ["X.A", "X.P", "Y.T.A", "Y.T.P"] := by
  have hruns : (Parser.parseStatement nestedStars).map (fun s =>
      (execute sameColumnWorld s |>.toOption.map ResultSet.titles,
        decide (met sameColumnWorld s).Consistent, s.told sameColumnWorld.tables)) =
        .ok (some ["X.A", "X.P", "Y.T.A", "Y.T.P"], true, true) := by decide +kernel
  cases hs : Parser.parseStatement nestedStars with
  | error e =>
    rw [hs] at hruns
    cases hruns
  | ok s =>
    rw [hs] at hruns
    simp only [Except.map, Except.ok.injEq, Prod.mk.injEq, decide_eq_true_eq] at hruns
    obtain ⟨htitles, hsame, htold⟩ := hruns
    cases hr : execute sameColumnWorld s with
    | error e =>
      rw [hr] at htitles
      cases htitles
    | ok r =>
      rw [hr] at htitles
      have hshown : r.titles = ["X.A", "X.P", "Y.T.A", "Y.T.P"] := Option.some.inj htitles
      have htext := execute_titles (Tables.keyed_ofList _) hsame htold hr
      exact ⟨s, r, rfl, hr, hshown, htext.1.symm.trans hshown⟩

/-- A star that goes by the name of a table with an alias, and a pivot with a count. -/
def unseenStar : String := "SELECT T.* FROM T AS X"

def unseenPivot : String := "SELECT A, COUNT(*) AS N FROM T GROUP BY A PIVOT P"

/-- Their texts tell other titles than they show, and a column of the outer row of the same name takes the
place of the one that is not told. -/
theorem titles_ne_execute_titles :
    (Parser.parseStatement unseenStar).map (fun s => s.titles sameColumnWorld.tables) = .ok [] ∧
    query sameColumnWorld unseenStar = .ok ⟨["X.A", "X.P"], [[.text "inner", .text "x"]]⟩ ∧
    query sameColumnWorld "SELECT (SELECT A FROM (SELECT T.* FROM T AS X) AS S) AS V FROM O" =
      .ok ⟨["V"], [[.text "outer"]]⟩ ∧
    (Parser.parseStatement unseenPivot).map (fun s => s.titles sameColumnWorld.tables) =
      .ok ["A", "N"] ∧
    query sameColumnWorld unseenPivot = .ok ⟨["A", "x N"], [[.text "inner", .number 1]]⟩ ∧
    query sameColumnWorld ("SELECT (SELECT `x N` FROM (SELECT A, COUNT(*) AS N FROM T GROUP BY A " ++
      "PIVOT P) AS S) AS V FROM O") = .ok ⟨["V"], [[.number 99]]⟩ := by
  refine ⟨?_, ?_, ?_, ?_, ?_, ?_⟩ <;> decide +kernel

end GridQuery
