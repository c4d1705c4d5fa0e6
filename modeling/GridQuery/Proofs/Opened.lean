import GridQuery.Proofs.JoinedColumns
import GridQuery.Proofs.Selection
import GridQuery.Proofs.Sorting

/-!
What a statement reads. Its sources and joins make one table, its filter selects rows of that table, and each
of its fields reads one cell of a row. Once the results of nested statements are kept, a field is a function
of rows, and the rows that a statement makes are the cells of its fields on the rows that it selects.
-/

namespace GridQuery
set_option autoImplicit false

/-- What a run gives that adds nothing to `memo`. -/
def Run.settled {α : Type} [Inhabited α] (m : Run ResultMemo α) (memo : ResultMemo) : α :=
  match (m.run memo).1 with
  | .ok a => a
  | .error _ => default

theorem Run.Settles.settled_eq {α : Type} [Inhabited α] {m : Run ResultMemo α} {memo : ResultMemo} {a : α}
    (h : m.Settles memo a) : m.settled memo = a := by
  have hrun : m.run memo = (.ok a, memo) := h
  unfold Run.settled
  rw [hrun]

section Sources

variable {σ : Type} {world : World} {runner : Runner σ} {st st' : σ}

/-- The sources of a statement, the table that its joins make of them, and the rows of that table that pass
its filter. -/
def opened (world : World) (runner : Runner σ) (s : Statement) : Run σ (List Table × Table × List Nat) := do
  let first ← sourceTable world runner s.source
  let others ← sourceTables world runner s.joins
  let joined ← joinFrom world runner 1 first [] s.joins others
  let ids ← Rows.matching ⟨world, joined.1, runner⟩ s.filter
  pure (first :: others, joined.1, ids)

theorem sourceTables_gives {joins : List JoinClause} {others : List Table}
    (h : (sourceTables world runner joins).Gives st others st') :
    others.length = joins.length ∧ ∀ t ∈ others, t.Named := by
  induction joins generalizing others st st' with
  | nil =>
    rw [(Run.gives_pure.mp h).1]
    exact ⟨rfl, by simp⟩
  | cons j joins ih =>
    obtain ⟨t, _, ht, h⟩ := Run.gives_bind.mp h
    obtain ⟨ts, _, hts, h⟩ := Run.gives_bind.mp h
    rw [(Run.gives_pure.mp h).1]
    obtain ⟨hlength, hnamed⟩ := ih hts
    refine ⟨congrArg (· + 1) hlength, ?_⟩
    intro u hu
    rcases List.mem_cons.mp hu with rfl | hu
    · exact sourceTable_named ht
    · exact hnamed u hu

/-- The sources that were made are the ones that the joins take. -/
theorem chainSources_of_gives {joins : List JoinClause} {others : List Table} (first : Table)
    (h : (sourceTables world runner joins).Gives st others st') :
    chainSources first joins others = first :: others := by
  unfold chainSources
  rw [List.take_of_length_le (sourceTables_gives h).1.le]

/-- The joined table knows a column by the place of the one that the sources know. -/
theorem joined_column? {source : Source} {joins : List JoinClause} {first t : Table} {others : List Table}
    {fields pointed : Fields} {mid mid' last last' : σ} (hfirst : (sourceTable world runner source).Gives mid first mid')
    (hothers : (sourceTables world runner joins).Gives last others last')
    (hjoined : (joinFrom world runner 1 first fields joins others).Gives st (t, pointed) st') (name : String) :
    t.column? name = (resolveFrom 0 name (first :: others)).map (placeOf (first :: others)) := by
  have hchain := chainSources_of_gives first hothers
  have hnamed : ∀ table ∈ chainSources first joins others, table.Named := by
    rw [hchain]
    exact List.forall_mem_cons.mpr ⟨sourceTable_named hfirst, (sourceTables_gives hothers).2⟩
  have hcolumn := joinFrom_column? hnamed hjoined name
  rwa [hchain] at hcolumn

/-- Which table joins make does not depend on the fields that they point at it. -/
theorem joinFrom_otherFields {joins : List JoinClause} {position : Nat} {working t : Table}
    {fields pointed : Fields} {sources : List Table} (others : Fields)
    (h : (joinFrom world runner position working fields joins sources).Gives st (t, pointed) st') :
    ∃ pointed', (joinFrom world runner position working others joins sources).Gives st (t, pointed') st' := by
  induction joins generalizing position working fields others sources st with
  | nil =>
    obtain ⟨he, rfl⟩ := Run.gives_pure.mp h
    cases he
    exact ⟨others, Run.gives_pure.mpr ⟨rfl, rfl⟩⟩
  | cons j joins ih =>
    cases sources with
    | nil => exact absurd h (by simpa only [joinFrom] using Run.not_gives_throw)
    | cons right sources =>
      simp only [joinFrom] at h ⊢
      obtain ⟨next, mid, hnext, h⟩ := Run.gives_bind.mp h
      obtain ⟨pointed', hpointed⟩ := ih (others.repoint position working.width) h
      exact ⟨pointed', Run.gives_bind.mpr ⟨next, mid, hnext, hpointed⟩⟩

end Sources

section Repeated

variable (world : World) (depth : Nat)

theorem repeatable_sourceTable (source : Source) :
    Repeatable (sourceTable world (runnerAt remembered world depth) source) :=
  Lockstep.sourceTable (repeating_reads world depth) (fun _ _ => trivial) fun _ _ _ => rfl

theorem repeatable_sourceTables (joins : List JoinClause) :
    Repeatable (sourceTables world (runnerAt remembered world depth) joins) :=
  Lockstep.sourceTables (repeating_reads world depth) (fun _ _ _ _ => trivial) fun _ _ _ _ _ => rfl

theorem repeatable_joinFrom (position : Nat) (working : Table) (fields : Fields)
    (joins : List JoinClause) (sources : List Table) :
    Repeatable (joinFrom world (runnerAt remembered world depth) position working fields joins sources) :=
  Lockstep.joinFrom (repeating_reads world depth) (fun _ _ _ _ => trivial) (fun _ _ _ _ => trivial) position
    working fields sources

theorem repeatable_matching (table : Table) (filter : Option Condition) :
    Repeatable ((rowsAt world table depth).matching filter) :=
  Lockstep.matching (repeating_reads world depth) (fun _ _ _ _ => trivial) fun _ _ _ _ => trivial

theorem repeatable_values (table : Table) (row : Nat) (formulas : List Formula) :
    Repeatable ((rowsAt world table depth).values row formulas) :=
  Lockstep.values (repeating_reads world depth) row formulas fun _ _ => trivial

theorem repeatable_cells (table : Table) (formulas : List Formula) (ids : List Nat) :
    Repeatable ((rowsAt world table depth).cells formulas ids) :=
  Lockstep.cells (repeating_reads world depth) (fun _ _ => trivial) ids

theorem repeatable_runPlain (s : Statement) :
    Repeatable (runPlain world (runnerAt remembered world depth) s) :=
  repeating.runPlain (.refl world s) fun q _ => (repeating_reads world depth).nested q trivial

theorem repeatable_runPivot (s : Statement) :
    Repeatable (runPivot world (runnerAt remembered world depth) s) :=
  repeating.runPivot repeating_remembered (.refl world s) fun q _ =>
    (repeating_reads world depth).nested q trivial

end Repeated

/-- The expression of a calculated field. -/
def FieldKind.calculated? : FieldKind → Option Expr
  | .calculated e => some e
  | .column .. | .subquery _ | .star => none

namespace Scope

/-- The formula of what a field reads, a column by its place among the columns of all sources. -/
def kindFormula (s : Scope) (sources : List Table) : FieldKind → Except QueryError Formula
  | .column source column => .ok (.slot (placeOf sources (source, column)))
  | .calculated e => s.formula e
  | .subquery q => .ok (s.subquery q)
  | .star => .ok (.const (.text "*"))

/-- Expressions of one text have one formula, so it is all one which of them was remembered. -/
def OneFormula (s : Scope) (kinds : List FieldKind) : Prop :=
  ∀ a b : Expr, .calculated a ∈ kinds → .calculated b ∈ kinds → a.text = b.text →
    s.formula a = s.formula b

theorem OneFormula.of_nodup {s : Scope} {kinds : List FieldKind}
    (h : ((kinds.filterMap FieldKind.calculated?).map Expr.text).Nodup) : s.OneFormula kinds := by
  intro a b ha hb htext
  have hmem {e : Expr} (he : .calculated e ∈ kinds) : e ∈ kinds.filterMap FieldKind.calculated? :=
    List.mem_filterMap.mpr ⟨_, he, rfl⟩
  rw [List.inj_on_of_nodup_map h (hmem ha) (hmem hb) htext]

/-- What is remembered is the formula of every expression that has the text. -/
def Recalls (s : Scope) (kinds : List FieldKind) (memo : FormulaMemo) : Prop :=
  ∀ (x : Formula) {e : Expr}, memo.lookup e.text = some x → .calculated e ∈ kinds → s.formula e = .ok x

variable {s : Scope} {sources : List Table} {kinds : List FieldKind} {memo : FormulaMemo}

theorem OneFormula.of_calculated {more : List FieldKind} (h : s.OneFormula more)
    (hsub : ∀ e, .calculated e ∈ kinds → .calculated e ∈ more) : s.OneFormula kinds :=
  fun a b ha hb => h a b (hsub a ha) (hsub b hb)

theorem OneFormula.mono {more : List FieldKind} (h : s.OneFormula more) (hsub : kinds ⊆ more) :
    s.OneFormula kinds :=
  h.of_calculated fun _ he => hsub he

theorem recall_eq_ok (h : s.OneFormula kinds) (hmemo : s.Recalls kinds memo) {e : Expr}
    (he : .calculated e ∈ kinds) {x : Formula} {later : FormulaMemo}
    (hx : s.recall memo e = .ok (x, later)) : s.formula e = .ok x ∧ s.Recalls kinds later := by
  unfold Scope.recall at hx
  cases hlookup : memo.lookup e.text with
  | some y =>
    rw [hlookup] at hx
    cases hx
    exact ⟨hmemo x hlookup he, hmemo⟩
  | none =>
    rw [hlookup] at hx
    obtain ⟨y, hy, hpair⟩ := bind_eq_ok.mp hx
    cases hpair
    refine ⟨hy, ?_⟩
    intro z a hz ha
    rw [List.lookup_cons] at hz
    split at hz
    · rename_i hsame
      cases hz
      rw [h a e ha he (beq_iff_eq.mp hsame), hy]
    · exact hmemo z hz ha

theorem exists_recall (hmemo : s.Recalls kinds memo) {e : Expr} (he : .calculated e ∈ kinds) {x : Formula}
    (hx : s.formula e = .ok x) : ∃ later, s.recall memo e = .ok (x, later) := by
  unfold Scope.recall
  cases hlookup : memo.lookup e.text with
  | some y =>
    have hy := hmemo y hlookup he
    rw [hx, Except.ok.injEq] at hy
    exact ⟨memo, by rw [hy]⟩
  | none => exact ⟨(e.text, x) :: memo, bind_eq_ok.mpr ⟨x, hx, rfl⟩⟩

/-- A field of a column is pointed at the place of that column among the columns of all sources. -/
def Placed (sources : List Table) (f : Field) : Prop :=
  ∀ {source column : Nat}, f.kind = .column source column →
    f.physical? = some (placeOf sources (source, column))

theorem fieldFormula_eq_ok (h : s.OneFormula kinds) (hmemo : s.Recalls kinds memo) {f : Field}
    (hf : f.kind ∈ kinds) (hplaced : Placed sources f) {x : Formula} {later : FormulaMemo}
    (hx : s.fieldFormula memo f = .ok (x, later)) :
    s.kindFormula sources f.kind = .ok x ∧ s.Recalls kinds later := by
  unfold fieldFormula at hx
  cases hkind : f.kind with
  | column source column =>
    simp only [hkind, hplaced hkind] at hx
    cases hx
    exact ⟨rfl, hmemo⟩
  | calculated e =>
    rw [hkind] at hf
    simp only [hkind] at hx
    exact recall_eq_ok h hmemo hf hx
  | subquery q =>
    simp only [hkind] at hx
    cases hx
    exact ⟨rfl, hmemo⟩
  | star =>
    simp only [hkind] at hx
    cases hx
    exact ⟨rfl, hmemo⟩

theorem exists_fieldFormula (hmemo : s.Recalls kinds memo) {f : Field} (hf : f.kind ∈ kinds)
    (hplaced : Placed sources f) {x : Formula} (hx : s.kindFormula sources f.kind = .ok x) :
    ∃ later, s.fieldFormula memo f = .ok (x, later) := by
  unfold fieldFormula
  cases hkind : f.kind with
  | column source column =>
    rw [hkind] at hx
    cases hx
    simp only [hplaced hkind]
    exact ⟨memo, rfl⟩
  | calculated e =>
    rw [hkind] at hf hx
    exact exists_recall hmemo hf hx
  | subquery q =>
    rw [hkind] at hx
    cases hx
    exact ⟨memo, rfl⟩
  | star =>
    rw [hkind] at hx
    cases hx
    exact ⟨memo, rfl⟩

/-- Where the memo makes no difference, each field has the formula of what it reads. -/
theorem fieldFormulas_iff {fields : Fields} (h : s.OneFormula (fields.map Field.kind))
    (hplaced : ∀ f ∈ fields, Placed sources f) {xs : List Formula} :
    s.fieldFormulas [] fields = .ok xs ↔
      List.Forall₂ (fun f x => s.kindFormula sources f.kind = .ok x) fields xs := by
  have hpart (part : Fields) (hsub : part ⊆ fields) : ∀ {memo xs},
      s.Recalls (fields.map Field.kind) memo → (s.fieldFormulas memo part = .ok xs ↔
        List.Forall₂ (fun f x => s.kindFormula sources f.kind = .ok x) part xs) := by
    induction part with
    | nil =>
      intro memo xs _
      rw [fieldFormulas, Except.ok.injEq, List.forall₂_nil_left_iff]
      exact eq_comm
    | cons f part ih =>
      intro memo xs hmemo
      obtain ⟨hf, hrest⟩ := List.cons_subset.mp hsub
      have hkind : f.kind ∈ fields.map Field.kind := List.mem_map_of_mem hf
      unfold fieldFormulas
      constructor
      · intro hall
        obtain ⟨⟨x, later⟩, hx, hall⟩ := bind_eq_ok.mp hall
        obtain ⟨ys, hys, hall⟩ := bind_eq_ok.mp hall
        cases hall
        obtain ⟨hformula, hrecalls⟩ := fieldFormula_eq_ok h hmemo hkind (hplaced f hf) hx
        exact .cons hformula ((ih hrest hrecalls).mp hys)
      · intro hall
        cases hall with
        | cons hformula hys =>
          obtain ⟨later, hx⟩ := exists_fieldFormula hmemo hkind (hplaced f hf) hformula
          obtain ⟨_, hrecalls⟩ := fieldFormula_eq_ok h hmemo hkind (hplaced f hf) hx
          exact bind_eq_ok.mpr ⟨_, hx, bind_eq_ok.mpr ⟨_, (ih hrest hrecalls).mpr hys, rfl⟩⟩
  exact hpart fields (List.Subset.refl fields) fun _ _ hlookup => by cases hlookup

end Scope

/-- The fields that joins have pointed stand where the sources have them. -/
theorem joinFrom_placed {σ : Type} {world : World} {runner : Runner σ} {joins : List JoinClause} {first t : Table}
    {others : List Table} {fields pointed : Fields} {st st' mid mid' : σ}
    (hothers : (sourceTables world runner joins).Gives mid others mid')
    (hmade : Fields.Made (first :: others) fields)
    (hjoined : (joinFrom world runner 1 first fields joins others).Gives st (t, pointed) st') :
    ∀ f ∈ pointed, Scope.Placed (first :: others) f := by
  intro f hf source column hkind
  have hchain := chainSources_of_gives first hothers
  rw [← hchain] at hmade
  obtain ⟨_, _, _, hphysical⟩ := joinFrom_pointed hmade hjoined f hf hkind
  rwa [hchain] at hphysical

namespace Rows

/-- What a field reads on a row. -/
def fieldValue {σ : Type} (r : Rows σ) (sources : List Table) (kind : FieldKind) (row : Nat) : Run σ Cell := do
  let f ← Run.of (r.scope.kindFormula sources kind)
  r.value row f

/-- The cell that a field reads on a row, with the results of nested statements that `memo` keeps. -/
def fieldCell (r : Rows ResultMemo) (sources : List Table) (memo : ResultMemo) (kind : FieldKind)
    (row : Nat) : Cell :=
  (r.fieldValue sources kind row).settled memo

end Rows

/-- The row that fields make of the cells that they read. -/
def fieldsRow (fields : Fields) (cell : FieldKind → Nat → Cell) (i : Nat) : Row :=
  fields.map fun f => cell f.kind i

section Read

variable {world : World} {working : Table} {depth : Nat} {memo : ResultMemo} {sources : List Table}

theorem settles_fieldValue {kind : FieldKind} {row : Nat} {x : Formula} {c : Cell}
    (hx : (rowsAt world working depth).scope.kindFormula sources kind = .ok x) :
    ((rowsAt world working depth).fieldValue sources kind row).Settles memo c ↔
      ((rowsAt world working depth).value row x).Settles memo c := by
  unfold Rows.fieldValue
  rw [hx]
  exact Iff.rfl

/-- The cells of a row are what its fields read on it. -/
theorem settles_values_iff {fields : Fields} {formulas : List Formula} {row : Nat} {cells : List Cell}
    (h : List.Forall₂ (fun f x =>
      (rowsAt world working depth).scope.kindFormula sources f.kind = .ok x) fields formulas) :
    ((rowsAt world working depth).values row formulas).Settles memo cells ↔
      List.Forall₂ (fun f c => ((rowsAt world working depth).fieldValue sources f.kind row).Settles memo c)
        fields cells := by
  induction h generalizing cells with
  | nil =>
    rw [Rows.values, Run.settles_pure, List.forall₂_nil_left_iff]
  | @cons f x fields formulas hx _ ih =>
    rw [Rows.values, Run.settles_bind (repeatable_value world working depth row x)
      fun _ => (repeatable_values world depth working row formulas).bind fun _ _ => .pure _]
    constructor
    · rintro ⟨c, hc, hrest⟩
      obtain ⟨cs, hcs, hrest⟩ := (Run.settles_bind (repeatable_values world depth working row formulas)
        fun _ => .pure _).mp hrest
      rw [Run.settles_pure.mp hrest]
      exact .cons ((settles_fieldValue hx).mpr hc) (ih.mp hcs)
    · intro hall
      cases hall with
      | @cons _ c _ cs hc hcs =>
        refine ⟨c, (settles_fieldValue hx).mp hc, ?_⟩
        exact (Run.settles_bind (repeatable_values world depth working row formulas)
          fun _ => .pure _).mpr ⟨cs, ih.mpr hcs, Run.settles_pure.mpr rfl⟩

theorem settles_cells_iff {formulas : List Formula} {ids : List Nat} {rows : List Row} :
    ((rowsAt world working depth).cells formulas ids).Settles memo rows ↔
      List.Forall₂ (fun i row => ((rowsAt world working depth).values i formulas).Settles memo row)
        ids rows := by
  induction ids generalizing rows with
  | nil => rw [Rows.cells, Run.settles_pure, List.forall₂_nil_left_iff]
  | cons i ids ih =>
    rw [Rows.cells, Run.settles_bind (repeatable_values world depth working i formulas)
      fun _ => (repeatable_cells world depth working formulas ids).bind fun _ _ => .pure _]
    constructor
    · rintro ⟨row, hrow, hrest⟩
      obtain ⟨others, hothers, hrest⟩ := (Run.settles_bind
        (repeatable_cells world depth working formulas ids) fun _ => .pure _).mp hrest
      rw [Run.settles_pure.mp hrest]
      exact .cons hrow (ih.mp hothers)
    · intro hall
      cases hall with
      | @cons _ row _ others hrow hothers =>
        refine ⟨row, hrow, ?_⟩
        exact (Run.settles_bind (repeatable_cells world depth working formulas ids)
          fun _ => .pure _).mpr ⟨others, ih.mpr hothers, Run.settles_pure.mpr rfl⟩

/-- Values that are found one by one are those of a function that finds them. -/
theorem forall₂_iff_map {α β : Type} {p : α → β → Prop} {g : α → β} {as : List α} {bs : List β}
    (hg : ∀ a b, p a b → g a = b) : List.Forall₂ p as bs ↔ bs = as.map g ∧ ∀ a ∈ as, p a (g a) := by
  constructor
  · intro h
    induction h with
    | nil => exact ⟨rfl, by simp⟩
    | @cons a b as bs hab _ ih =>
      obtain ⟨hbs, hall⟩ := ih
      have hone : g a = b := hg a b hab
      refine ⟨by rw [List.map_cons, hone, ← hbs], ?_⟩
      intro c hc
      rcases List.mem_cons.mp hc with rfl | hc
      · rw [hone]
        exact hab
      · exact hall c hc
  · rintro ⟨rfl, hall⟩
    rw [List.forall₂_map_right_iff, List.forall₂_same]
    exact hall

theorem exists_forall₂_iff {α β : Type} {p : α → β → Prop} {as : List α} :
    (∃ bs, List.Forall₂ p as bs) ↔ ∀ a ∈ as, ∃ b, p a b := by
  induction as with
  | nil => simp
  | cons a as ih =>
    rw [List.forall_mem_cons, ← ih]
    constructor
    · rintro ⟨_, hall⟩
      cases hall with
      | cons hab hrest => exact ⟨⟨_, hab⟩, _, hrest⟩
    · rintro ⟨⟨b, hab⟩, bs, hrest⟩
      exact ⟨b :: bs, .cons hab hrest⟩

/-- The rows that fields make are the cells that they read. -/
theorem settles_cells_fields {fields : Fields} {formulas : List Formula} {ids : List Nat} {rows : List Row}
    (h : List.Forall₂ (fun f x =>
      (rowsAt world working depth).scope.kindFormula sources f.kind = .ok x) fields formulas) :
    ((rowsAt world working depth).cells formulas ids).Settles memo rows ↔
      rows = ids.map (fieldsRow fields ((rowsAt world working depth).fieldCell sources memo)) ∧
      ∀ i ∈ ids, ∀ f ∈ fields, ((rowsAt world working depth).fieldValue sources f.kind i).Settles memo
        ((rowsAt world working depth).fieldCell sources memo f.kind i) := by
  have hrow (i : Nat) (row : Row) : ((rowsAt world working depth).values i formulas).Settles memo row ↔
      row = fieldsRow fields ((rowsAt world working depth).fieldCell sources memo) i ∧
        ∀ f ∈ fields, ((rowsAt world working depth).fieldValue sources f.kind i).Settles memo
          ((rowsAt world working depth).fieldCell sources memo f.kind i) := by
    rw [settles_values_iff h]
    exact forall₂_iff_map fun _ _ hc => hc.settled_eq
  rw [settles_cells_iff, forall₂_iff_map fun i row hcells => ((hrow i row).mp hcells).1.symm]
  apply and_congr_right
  intro _
  apply forall₂_congr
  intro i _
  rw [hrow, and_iff_right rfl]

/-- What a statement opens settles step by step. -/
theorem settles_opened {s : Statement} {ids : List Nat} :
    (opened world (runnerAt remembered world depth) s).Settles memo (sources, working, ids) ↔
      ∃ first others pointed, sources = first :: others ∧
        (sourceTable world (runnerAt remembered world depth) s.source).Settles memo first ∧
        (sourceTables world (runnerAt remembered world depth) s.joins).Settles memo others ∧
        (joinFrom world (runnerAt remembered world depth) 1 first [] s.joins others).Settles memo
          (working, pointed) ∧
        ((rowsAt world working depth).matching s.filter).Settles memo ids := by
  constructor
  · intro h
    obtain ⟨first, mid₁, hfirst, h⟩ := Run.gives_bind.mp h
    obtain ⟨others, mid₂, hothers, h⟩ := Run.gives_bind.mp h
    obtain ⟨⟨t, pointed⟩, mid₃, hjoined, h⟩ := Run.gives_bind.mp h
    obtain ⟨rows, mid₄, hrows, h⟩ := Run.gives_bind.mp h
    obtain ⟨hopened, rfl⟩ := Run.gives_pure.mp h
    obtain ⟨rfl, rfl, rfl⟩ : sources = first :: others ∧ working = t ∧ ids = rows := by simpa using hopened
    -- each step adds to what is kept at most what is kept in the end
    have hmatching := repeatable_matching world depth working s.filter
    have hjoin := repeatable_joinFrom world depth 1 first [] s.joins others
    have hsources := repeatable_sourceTables world depth s.joins
    have h₃ := hmatching.grows_of_gives hrows
    have h₂ := (hjoin.grows_of_gives hjoined).trans h₃
    have h₁ := (hsources.grows_of_gives hothers).trans h₂
    exact ⟨first, others, pointed, rfl, (repeatable_sourceTable world depth s.source).again hfirst h₁,
      hsources.again hothers h₂, hjoin.again hjoined h₃, hmatching.again hrows (.refl _)⟩
  · rintro ⟨first, others, pointed, rfl, hfirst, hothers, hjoined, hrows⟩
    exact Run.gives_bind.mpr ⟨first, memo, hfirst, Run.gives_bind.mpr ⟨others, memo, hothers,
      Run.gives_bind.mpr ⟨_, memo, hjoined, Run.gives_bind.mpr ⟨ids, memo, hrows,
        Run.gives_pure.mpr ⟨rfl, rfl⟩⟩⟩⟩⟩

/-- The opened table knows a column by the place of the one that the sources know. -/
theorem opened_column? {s : Statement} {ids : List Nat}
    (h : (opened world (runnerAt remembered world depth) s).Settles memo (sources, working, ids))
    (name : String) : working.column? name = (resolveFrom 0 name sources).map (placeOf sources) := by
  obtain ⟨first, others, pointed, rfl, hfirst, hothers, hjoined, _⟩ := settles_opened.mp h
  exact joined_column? hfirst hothers hjoined name

section Made

variable {s : Statement} {ids : List Nat} {plan : Layout}

/-- Every field has a formula, and reads a cell on each of some rows. -/
structure Reads (r : Rows ResultMemo) (sources : List Table) (memo : ResultMemo) (fields : Fields)
    (ids : List Nat) : Prop where
  formula : ∀ f ∈ fields, ∃ x, r.scope.kindFormula sources f.kind = .ok x
  value : ∀ i ∈ ids, ∀ f ∈ fields,
    (r.fieldValue sources f.kind i).Settles memo (r.fieldCell sources memo f.kind i)

theorem Reads.mono {r : Rows ResultMemo} {fields more : Fields} (h : Reads r sources memo more ids)
    (hsub : fields ⊆ more) : Reads r sources memo fields ids where
  formula := fun f hf => h.formula f (hsub hf)
  value := fun i hi f hf => h.value i hi f (hsub hf)

/-- The fields of a plan, once the joins have pointed them, read what they read before. -/
theorem fieldFormulas_pointed {first : Table} {others : List Table} {pointed : Fields}
    (hothers : (sourceTables world (runnerAt remembered world depth) s.joins).Settles memo others)
    (hplan : layout (first :: others) s = .ok plan)
    (hjoined : (joinFrom world (runnerAt remembered world depth) 1 first plan.fields s.joins others).Settles
      memo (working, pointed))
    {scope : Scope} (hone : scope.OneFormula (plan.fields.map Field.kind)) {formulas : List Formula} :
    scope.fieldFormulas [] pointed = .ok formulas ↔
      List.Forall₂ (fun f x => scope.kindFormula (first :: others) f.kind = .ok x) plan.fields
        formulas := by
  have hplaced := joinFrom_placed hothers (layout_eq_ok hplan).1 hjoined
  have hkinds := joinFrom_kinds hjoined
  rw [Scope.fieldFormulas_iff (hkinds ▸ hone) hplaced]
  have hmap (fields : Fields) : List.Forall₂ (fun f x =>
      scope.kindFormula (first :: others) f.kind = .ok x) fields formulas ↔
      List.Forall₂ (fun kind x => scope.kindFormula (first :: others) kind = .ok x)
        (fields.map Field.kind) formulas := by
    rw [List.forall₂_map_left_iff]
  rw [hmap pointed, hmap plan.fields, hkinds]

/-- Making rows settles step by step. -/
theorem settles_madeRows_steps {pointed : Fields} {cells : List Row} :
    (madeRows world (runnerAt remembered world depth) s).Settles memo (plan, pointed, cells) ↔
      ∃ first others working ids formulas,
        (sourceTable world (runnerAt remembered world depth) s.source).Settles memo first ∧
        (sourceTables world (runnerAt remembered world depth) s.joins).Settles memo others ∧
        layout (first :: others) s = .ok plan ∧
        (joinFrom world (runnerAt remembered world depth) 1 first plan.fields s.joins others).Settles memo
          (working, pointed) ∧
        ((rowsAt world working depth).matching s.filter).Settles memo ids ∧
        (rowsAt world working depth).scope.fieldFormulas [] pointed = .ok formulas ∧
        ((rowsAt world working depth).cells formulas ids).Settles memo cells := by
  constructor
  · intro h
    obtain ⟨first, mid₁, hfirst, h⟩ := Run.gives_bind.mp h
    obtain ⟨others, mid₂, hothers, h⟩ := Run.gives_bind.mp h
    obtain ⟨plan', mid₃, hplan, h⟩ := Run.gives_bind.mp h
    obtain ⟨⟨t, pointed'⟩, mid₄, hjoined, h⟩ := Run.gives_bind.mp h
    obtain ⟨ids, mid₅, hids, h⟩ := Run.gives_bind.mp h
    obtain ⟨formulas, mid₆, hformulas, h⟩ := Run.gives_bind.mp h
    obtain ⟨rows, mid₇, hrows, h⟩ := Run.gives_bind.mp h
    obtain ⟨hmade, rfl⟩ := Run.gives_pure.mp h
    cases hmade
    obtain ⟨hlayout, rfl⟩ := Run.gives_of.mp hplan
    obtain ⟨hlooked, rfl⟩ := Run.gives_of.mp hformulas
    have hcells := repeatable_cells world depth t formulas ids
    have hmatching := repeatable_matching world depth t s.filter
    have hjoin := repeatable_joinFrom world depth 1 first plan.fields s.joins others
    have hsources := repeatable_sourceTables world depth s.joins
    have h₅ := hcells.grows_of_gives hrows
    have h₄ := (hmatching.grows_of_gives hids).trans h₅
    have h₂ := (hjoin.grows_of_gives hjoined).trans h₄
    have h₁ := (hsources.grows_of_gives hothers).trans h₂
    exact ⟨first, others, t, ids, formulas,
      (repeatable_sourceTable world depth s.source).again hfirst h₁, hsources.again hothers h₂, hlayout,
      hjoin.again hjoined h₄, hmatching.again hids h₅, hlooked, hcells.again hrows (.refl _)⟩
  · rintro ⟨first, others, t, ids, formulas, hfirst, hothers, hplan, hjoined, hids, hformulas, hrows⟩
    exact Run.gives_bind.mpr ⟨first, memo, hfirst, Run.gives_bind.mpr ⟨others, memo, hothers,
      Run.gives_bind.mpr ⟨plan, memo, Run.settles_of.mpr hplan, Run.gives_bind.mpr ⟨_, memo, hjoined,
        Run.gives_bind.mpr ⟨ids, memo, hids, Run.gives_bind.mpr ⟨formulas, memo,
          Run.settles_of.mpr hformulas, Run.gives_bind.mpr ⟨cells, memo, hrows,
            Run.gives_pure.mpr ⟨rfl, rfl⟩⟩⟩⟩⟩⟩⟩⟩

/-- A statement that makes rows opens what it reads, and has a plan for it. -/
theorem opened_of_madeRows {pointed : Fields} {cells : List Row}
    (h : (madeRows world (runnerAt remembered world depth) s).Settles memo (plan, pointed, cells)) :
    ∃ sources working ids,
      (opened world (runnerAt remembered world depth) s).Settles memo (sources, working, ids) ∧
      layout sources s = .ok plan ∧ pointed.map Field.unpointed = plan.fields.map Field.unpointed := by
  obtain ⟨first, others, t, ids, formulas, hfirst, hothers, hplan, hjoined, hids, _, _⟩ :=
    settles_madeRows_steps.mp h
  obtain ⟨pointed', hjoined'⟩ := joinFrom_otherFields [] hjoined
  exact ⟨first :: others, t, ids,
    settles_opened.mpr ⟨first, others, pointed', rfl, hfirst, hothers, hjoined', hids⟩, hplan,
    joinFrom_unpointed hjoined⟩

/-- The rows that a statement makes are what the fields of its plan read on the rows that it opens. -/
theorem madeRows_iff_reads
    (hopened : (opened world (runnerAt remembered world depth) s).Settles memo (sources, working, ids))
    (hplan : layout sources s = .ok plan)
    (hone : (rowsAt world working depth).scope.OneFormula (plan.fields.map Field.kind)) {cells : List Row} :
    (∃ pointed, (madeRows world (runnerAt remembered world depth) s).Settles memo (plan, pointed, cells)) ↔
      cells = ids.map (fieldsRow plan.fields ((rowsAt world working depth).fieldCell sources memo)) ∧
        Reads (rowsAt world working depth) sources memo plan.fields ids := by
  obtain ⟨first, others, _, rfl, hfirst, hothers, hjoined, hids⟩ := settles_opened.mp hopened
  constructor
  · rintro ⟨pointed, hmade⟩
    obtain ⟨first', others', t, ids', formulas, hfirst', hothers', hplan', hjoined', hids', hformulas,
      hcells⟩ := settles_madeRows_steps.mp hmade
    obtain rfl := hfirst.unique hfirst'
    obtain rfl := hothers.unique hothers'
    obtain ⟨_, hagain⟩ := joinFrom_otherFields [] hjoined'
    cases hjoined.unique hagain
    obtain rfl := hids.unique hids'
    have hall := (fieldFormulas_pointed hothers hplan hjoined' hone).mp hformulas
    obtain ⟨hrows, hvalues⟩ := (settles_cells_fields hall).mp hcells
    exact ⟨hrows, exists_forall₂_iff.mp ⟨formulas, hall⟩, hvalues⟩
  · rintro ⟨hrows, hreads⟩
    obtain ⟨pointed, hpointed⟩ := joinFrom_otherFields plan.fields hjoined
    obtain ⟨formulas, hall⟩ := exists_forall₂_iff.mpr hreads.formula
    exact ⟨pointed, settles_madeRows_steps.mpr ⟨first, others, working, ids, formulas, hfirst, hothers,
      hplan, hpointed, hids, (fieldFormulas_pointed hothers hplan hpointed hone).mpr hall,
      (settles_cells_fields hall).mpr ⟨hrows, hreads.value⟩⟩⟩

end Made

end Read

end GridQuery
