import GridQuery.Proofs.Faults
import GridQuery.Proofs.Opened
import GridQuery.Proofs.Rectangular

/-!
Faults in filters. The filter reads a comparison when it comes to it. It comes to every one, but for those in
an `AND` whose terms ahead have left no row; so whether a fault is found may depend on the rows.
-/

namespace GridQuery
set_option autoImplicit false

/-! ### What stands around a comparison -/

/-- What stands around a part of a condition: connectives with their other terms, and negations. -/
inductive Around where
  | here
  | term (op : Connective) (ahead : List Condition) (inner : Around) (behind : List Condition)
  | not (inner : Around)

namespace Around

/-- The whole condition, with a part in its place. -/
def plug : Around → Condition → Condition
  | here, c => c
  | term op ahead inner behind, c => .logic op (ahead ++ inner.plug c :: behind)
  | not inner, c => .not (inner.plug c)

/-- The part stands in no `AND`. -/
def apart : Around → Prop
  | here => True
  | term .and _ _ _ => False
  | term .or _ inner _ => inner.apart
  | not inner => inner.apart

variable {σ : Type}

/-- Of some candidates, the terms ahead in an `AND` around the part leave none. -/
def RunsOut (r : Rows σ) : Around → σ → List Nat → Prop
  | here, _, _ => False
  | term .and ahead inner _, st, rows =>
    ∃ ids mid, (r.narrow rows ahead).Gives st ids mid ∧ (ids = [] ∨ inner.RunsOut r mid ids)
  | term .or ahead inner _, st, rows =>
    ∃ hits mid, (r.gather rows ahead).Gives st hits mid ∧ inner.RunsOut r mid rows
  | not inner, st, rows => inner.RunsOut r st rows

theorem not_runsOut_of_apart {r : Rows σ} : ∀ (around : Around), around.apart → ∀ {st : σ} {rows : List Nat},
    ¬ around.RunsOut r st rows
  | here, _, _, _ => id
  | term .and _ _ _, h, _, _ => h.elim
  | term .or _ inner _, h, _, _ => fun ⟨_, _, _, hin⟩ => not_runsOut_of_apart inner h hin
  | not inner, h, _, _ => not_runsOut_of_apart inner h

end Around

mutual

/-- Whatever is looked up in a condition stands in one of its comparisons. -/
theorem exists_plug_of_mem_lookups {known : String → Bool} {p : Expr} : ∀ {c : Condition},
    p ∈ c.lookups known → ∃ around op a b, c = Around.plug around (.compare op a b) ∧
      p ∈ (Condition.compare op a b).lookups known
  | .compare op a b, h => ⟨.here, op, a, b, rfl, h⟩
  | .logic connective terms, h => by
    simp only [Condition.lookups] at h
    obtain ⟨ahead, c, behind, rfl, around, op, a, b, rfl, hp⟩ := exists_plug_of_mem_termsLookups h
    exact ⟨.term connective ahead around behind, op, a, b, rfl, hp⟩
  | .not c, h => by
    simp only [Condition.lookups] at h
    obtain ⟨around, op, a, b, rfl, hp⟩ := exists_plug_of_mem_lookups h
    exact ⟨.not around, op, a, b, rfl, hp⟩
  | .exists _ _, h => by simp [Condition.lookups] at h

theorem exists_plug_of_mem_termsLookups {known : String → Bool} {p : Expr} : ∀ {cs : List Condition},
    p ∈ termsLookups known cs → ∃ ahead c behind, cs = ahead ++ c :: behind ∧
      ∃ around op a b, c = Around.plug around (.compare op a b) ∧
        p ∈ (Condition.compare op a b).lookups known
  | [], h => by simp [termsLookups] at h
  | c :: cs, h => by
    simp only [termsLookups, List.mem_append] at h
    rcases h with h | h
    · exact ⟨[], c, cs, rfl, exists_plug_of_mem_lookups h⟩
    · obtain ⟨ahead, d, behind, rfl, hin⟩ := exists_plug_of_mem_termsLookups h
      exact ⟨c :: ahead, d, behind, rfl, hin⟩

end

/-! ### The filter -/

namespace Rows

variable {σ : Type} {r : Rows σ}

theorem narrow_nil (cs : List Condition) : r.narrow [] cs = pure [] := by
  cases cs <;> rfl

theorem narrow_append {ahead cs : List Condition} {rows ids : List Nat} {st st' : σ}
    (h : (r.narrow rows (ahead ++ cs)).Gives st ids st') :
    ∃ left mid, (r.narrow rows ahead).Gives st left mid ∧ (r.narrow left cs).Gives mid ids st' := by
  induction ahead generalizing rows st with
  | nil => exact ⟨rows, st, Run.gives_pure.mpr ⟨rfl, rfl⟩, h⟩
  | cons c ahead ih =>
    cases rows with
    | nil =>
      rw [narrow_nil] at h
      refine ⟨[], st, ?_, ?_⟩ <;> rw [narrow_nil]
      · exact Run.gives_pure.mpr ⟨rfl, rfl⟩
      · exact h
    | cons row rows =>
      simp only [List.cons_append, narrow, List.isEmpty_cons, Bool.false_eq_true, if_false] at h ⊢
      obtain ⟨selected, mid, hselected, h⟩ := Run.gives_bind.mp h
      obtain ⟨left, mid', hleft, hrest⟩ := ih h
      exact ⟨left, mid', Run.gives_bind.mpr ⟨selected, mid, hselected, hleft⟩, hrest⟩

theorem gather_append {ahead cs : List Condition} {rows ids : List Nat} {st st' : σ}
    (h : (r.gather rows (ahead ++ cs)).Gives st ids st') :
    ∃ hits others mid, (r.gather rows ahead).Gives st hits mid ∧ (r.gather rows cs).Gives mid others st' := by
  induction ahead generalizing ids st with
  | nil => exact ⟨[], ids, st, Run.gives_pure.mpr ⟨rfl, rfl⟩, h⟩
  | cons c ahead ih =>
    simp only [List.cons_append, gather] at h ⊢
    obtain ⟨selected, mid, hselected, h⟩ := Run.gives_bind.mp h
    obtain ⟨_, mid', hrest, h⟩ := Run.gives_bind.mp h
    obtain ⟨_, rfl⟩ := Run.gives_pure.mp h
    obtain ⟨hits, others, mid'', hhits, hothers⟩ := ih hrest
    exact ⟨selected ++ hits, others, mid'', Run.gives_bind.mpr ⟨selected, mid, hselected,
      Run.gives_bind.mpr ⟨hits, mid'', hhits, Run.gives_pure.mpr ⟨rfl, rfl⟩⟩⟩, hothers⟩

/-- Where a part cannot be selected by and the whole condition selects, the filter has not come to the part. -/
theorem runsOut_of_select {c : Condition}
    (hfails : ∀ {rows ids : List Nat} {st st' : σ}, ¬ (r.select rows c).Gives st ids st') :
    ∀ (around : Around) {rows ids : List Nat} {st st' : σ},
      (r.select rows (around.plug c)).Gives st ids st' → around.RunsOut r st rows
  | .here, _, _, _, _, h => hfails h
  | .term .and ahead inner behind, rows, _, st, _, h => by
    simp only [Around.plug, select] at h
    obtain ⟨left, mid, hleft, h⟩ := narrow_append h
    refine ⟨left, mid, hleft, ?_⟩
    cases left with
    | nil => exact .inl rfl
    | cons row left =>
      simp only [narrow, List.isEmpty_cons, Bool.false_eq_true, if_false] at h
      obtain ⟨selected, _, hselected, _⟩ := Run.gives_bind.mp h
      exact .inr (runsOut_of_select hfails inner hselected)
  | .term .or ahead inner behind, rows, _, st, _, h => by
    simp only [Around.plug, select] at h
    obtain ⟨hits, _, hhits, _⟩ := Run.gives_bind.mp h
    obtain ⟨hits, others, mid, hahead, h⟩ := gather_append hhits
    simp only [gather] at h
    obtain ⟨selected, _, hselected, _⟩ := Run.gives_bind.mp h
    exact ⟨hits, mid, hahead, runsOut_of_select hfails inner hselected⟩
  | .not inner, rows, _, st, _, h => by
    simp only [Around.plug, select] at h
    obtain ⟨hits, _, hhits, _⟩ := Run.gives_bind.mp h
    exact runsOut_of_select hfails inner hhits

theorem not_select_faulty {op : Comparison} {a b : Expr}
    (hfaulty : (Condition.compare op a b).Faulty r.scope.known) {rows ids : List Nat} {st st' : σ} :
    ¬ (r.select rows (.compare op a b)).Gives st ids st' := by
  intro h
  obtain ⟨p, hp, hfault⟩ := hfaulty
  simp only [select, leaf] at h
  obtain ⟨t, _, ht, _⟩ := Run.gives_bind.mp h
  exact Scope.test_faultless (Run.gives_of.mp ht).1 p hp hfault

end Rows

/-! ### Titles -/

/-- A table without its rows. -/
def Table.emptied (t : Table) : Table :=
  { t with rows := [], indexes := [] }

theorem Table.emptied_withAlias (t : Table) (alias? : Option String) :
    (t.withAlias alias?).emptied = t.emptied.withAlias alias? := by
  simp only [Table.emptied, Table.withAlias]

/-- Whether some source knows a spelling. -/
def knownTo (sources : List Table) (spelling : String) : Bool :=
  (resolveFrom 0 spelling sources).isSome

theorem resolveFrom_emptied (first : Nat) (spelling : String) (sources : List Table) :
    resolveFrom first spelling (sources.map Table.emptied) = resolveFrom first spelling sources := by
  induction sources generalizing first with
  | nil => rfl
  | cons t sources ih =>
    simp only [List.map_cons, resolveFrom, ih]
    rfl

theorem knownTo_eq_of_emptied {sources others : List Table}
    (h : sources.map Table.emptied = others.map Table.emptied) : knownTo sources = knownTo others := by
  funext spelling
  unfold knownTo
  rw [← resolveFrom_emptied, h, resolveFrom_emptied]

section Statements

variable {σ : Type} {world : World} {runner : Runner σ} {s q : Statement}

/-- The table that the sources and the joins of a statement make. -/
def joinedSources (world : World) (runner : Runner σ) (s : Statement) : Run σ Table := do
  let first ← sourceTable world runner s.source
  let others ← sourceTables world runner s.joins
  let joined ← joinFrom world runner 1 first [] s.joins others
  pure joined.1

/-- The joined table knows the columns that the sources know. -/
theorem joinedSources_gives {t : Table} {st st' : σ} (h : (joinedSources world runner s).Gives st t st') :
    ∃ sources mid, (allSources world runner s).Gives st sources mid ∧
      (fun name => (t.column? name).isSome) = knownTo sources := by
  obtain ⟨first, mid, hfirst, h⟩ := Run.gives_bind.mp h
  obtain ⟨others, mid', hothers, h⟩ := Run.gives_bind.mp h
  obtain ⟨⟨working, pointed⟩, _, hjoined, h⟩ := Run.gives_bind.mp h
  obtain ⟨rfl, _⟩ := Run.gives_pure.mp h
  refine ⟨first :: others, mid', ?_, ?_⟩
  · exact Run.gives_bind.mpr ⟨first, mid, hfirst, Run.gives_bind.mpr ⟨others, mid', hothers,
      Run.gives_pure.mpr ⟨rfl, rfl⟩⟩⟩
  · have hchain := chainSources_of_gives first hothers
    have hnamed : ∀ source ∈ chainSources first s.joins others, source.Named := by
      rw [hchain]
      exact List.forall_mem_cons.mpr ⟨sourceTable_named hfirst, (sourceTables_gives hothers).2⟩
    funext name
    have hcolumn := joinFrom_column? hnamed hjoined name
    rw [hchain] at hcolumn
    simp only [hcolumn, Option.isSome_map]
    rfl

/-- The filter of a statement has selected rows of the joined table. -/
theorem runPlain_selects {c : Condition} {r : ResultSet} {st st' : σ} (hfilter : s.filter = some c)
    (h : (runPlain world runner s).Gives st r st') :
    ∃ working mid ids last, (joinedSources world runner s).Gives st working mid ∧
      (Rows.select ⟨world, working, runner⟩ (List.range working.rows.length) c).Gives mid ids last := by
  obtain ⟨first, mid₁, hfirst, h⟩ := Run.gives_bind.mp h
  obtain ⟨others, mid₂, hothers, h⟩ := Run.gives_bind.mp h
  obtain ⟨plan, _, hplan, h⟩ := Run.gives_bind.mp h
  obtain ⟨⟨working, fields⟩, mid₃, hjoined, h⟩ := Run.gives_bind.mp h
  obtain ⟨ids, mid₄, hids, _⟩ := Run.gives_bind.mp h
  obtain rfl := (Run.gives_of.mp hplan).2
  obtain ⟨pointed, hjoined⟩ := joinFrom_otherFields [] hjoined
  rw [hfilter] at hids
  refine ⟨working, mid₃, ids, mid₄, ?_, hids⟩
  exact Run.gives_bind.mpr ⟨first, mid₁, hfirst, Run.gives_bind.mpr ⟨others, _, hothers,
    Run.gives_bind.mpr ⟨(working, pointed), mid₃, hjoined, Run.gives_pure.mpr ⟨rfl, rfl⟩⟩⟩⟩

/-- The statement itself, the right operands of its set operations, and theirs. -/
inductive Statement.Operand : Statement → Statement → Prop where
  | itself {s : Statement} : Operand s s
  | later {s q : Statement} {o : SetOperation} (ho : o ∈ s.operations) (h : Operand o.statement q) : Operand s q

/-- Running the first statement, at most so deep and from what is kept, comes to running the second one, with
a runner of the second depth and from what is kept then. -/
inductive ComesTo (keep : Keeping σ) (world : World) : Nat → Statement → σ → Nat → Statement → σ → Prop where
  | itself {depth : Nat} {s : Statement} {st : σ} : ComesTo keep world (depth + 1) s st depth s st
  | later {depth last : Nat} {s q : Statement} {ahead behind : List SetOperation} {o : SetOperation}
      {left both : ResultSet} {st mid mid' st' : σ} (hoperations : s.operations = ahead ++ o :: behind)
      (hleft : (runPivot world (runnerAt keep world depth) s).Gives st left mid)
      (hboth : (combineAll (runnerAt keep world depth) left ahead).Gives mid both mid')
      (h : ComesTo keep world depth o.statement mid' last q st') : ComesTo keep world (depth + 1) s st last q st'

theorem combineAll_append {ahead operations : List SetOperation} {left r : ResultSet} {st st' : σ}
    (h : (combineAll runner left (ahead ++ operations)).Gives st r st') :
    ∃ both mid, (combineAll runner left ahead).Gives st both mid ∧
      (combineAll runner both operations).Gives mid r st' := by
  induction ahead generalizing left st with
  | nil => exact ⟨left, st, Run.gives_pure.mpr ⟨rfl, rfl⟩, h⟩
  | cons o ahead ih =>
    obtain ⟨right, mid, hright, h⟩ := Run.gives_bind.mp h
    obtain ⟨combined, mid', hcombined, h⟩ := Run.gives_bind.mp h
    obtain ⟨both, last, hboth, hrest⟩ := ih h
    exact ⟨both, last, Run.gives_bind.mpr ⟨right, mid, hright,
      Run.gives_bind.mpr ⟨combined, mid', hcombined, hboth⟩⟩, hrest⟩

/-- A statement that comes to a result has run its operands. -/
theorem run_operand {keep : Keeping σ} (hq : s.Operand q) {depth : Nat} {r : ResultSet} {st st' : σ}
    (h : (run keep world depth s).Gives st r st') : ∃ last mid x mid',
      ComesTo keep world depth s st last q mid ∧ (runPivot world (runnerAt keep world last) q).Gives mid x mid' := by
  induction hq generalizing depth r st st' with
  | itself =>
    cases depth with
    | zero => exact absurd h Run.not_gives_throw
    | succ depth =>
      obtain ⟨x, mid, hx, _⟩ := Run.gives_bind.mp h
      exact ⟨depth, st, x, mid, .itself, hx⟩
  | later ho _ ih =>
    cases depth with
    | zero => exact absurd h Run.not_gives_throw
    | succ depth =>
      obtain ⟨left, mid, hleft, h⟩ := Run.gives_bind.mp h
      obtain ⟨ahead, behind, hoperations⟩ := List.append_of_mem ho
      rw [hoperations] at h
      obtain ⟨both, mid', hboth, h⟩ := combineAll_append h
      obtain ⟨right, _, hright, _⟩ := Run.gives_bind.mp h
      obtain ⟨last, start, x, stop, hcomes, hx⟩ := ih hright
      exact ⟨last, start, x, stop, .later hoperations hleft hboth hcomes, hx⟩

end Statements

/-! ### Faults and contents -/

namespace Statement

/-- A condition has a fault, judged by the titles of the sources that a statement finds. -/
def FaultyOver (world : World) (q : Statement) (c : Condition) : Prop :=
  ∀ {depth : Nat} {memo memo' : ResultMemo} {sources : List Table},
    (allSources world (runnerAt remembered world depth) q).Gives memo sources memo' →
      c.Faulty (knownTo sources)

/-- The sources that a statement finds in one world have the titles of those it finds in another one; their
rows may be any. -/
def SameTitles (given world : World) (q : Statement) : Prop :=
  ∀ {depth : Nat} {memo memo' : ResultMemo} {sources : List Table},
    (allSources world (runnerAt remembered world depth) q).Gives memo sources memo' →
      ∃ start last found, (allSources given (runnerAt remembered given depth) q).Gives start found last ∧
        found.map Table.emptied = sources.map Table.emptied

/-- When the statement `s` is executed and comes to its operand `q`, no row is left ahead of a part of the
filter of `q`, in an `AND` around it. -/
def RunsOut (world : World) (s q : Statement) (around : Around) : Prop :=
  ∃ depth memo start memo' t working,
    ComesTo remembered world s.depth s [] depth q memo ∧
    (expanded world (runnerAt remembered world depth) q).Gives memo t start ∧
    (joinedSources world (runnerAt remembered world depth) q).Gives start working memo' ∧
    around.RunsOut (rowsAt world working depth) memo' (List.range working.rows.length)

theorem not_runsOut_of_apart {world : World} {s q : Statement} {around : Around} (h : around.apart) :
    ¬ s.RunsOut world q around :=
  fun ⟨_, _, _, _, _, _, _, _, _, hout⟩ => around.not_runsOut_of_apart h hout

end Statement

section Tables

variable {given world : World}

theorem require_of_emptied {name : String} {t : Table}
    (hsame : (given.tables.get? name).map Table.emptied = (world.tables.get? name).map Table.emptied)
    (h : world.tables.require name = .ok t) :
    ∃ found, given.tables.require name = .ok found ∧ found.emptied = t.emptied := by
  unfold Tables.require at h ⊢
  cases hworld : world.tables.get? name with
  | none =>
    rw [hworld] at h
    cases h
  | some u =>
    rw [hworld] at h hsame
    cases h
    obtain ⟨found, hfound, he⟩ := Option.map_eq_some_iff.mp hsame
    exact ⟨found, by rw [hfound], he⟩

variable (htables : ∀ name,
  (given.tables.get? name).map Table.emptied = (world.tables.get? name).map Table.emptied)

include htables

theorem sourceTable_of_emptied {runner : Runner ResultMemo} (runner' : Runner ResultMemo) {name : String}
    {alias? : Option String} {t : Table} {memo memo' : ResultMemo}
    (h : (sourceTable world runner (.table name alias?)).Gives memo t memo') :
    ∃ found, (sourceTable given runner' (.table name alias?)).Gives memo found memo' ∧
      found.emptied = t.emptied := by
  obtain ⟨u, mid, hu, halias⟩ := Run.gives_bind.mp h
  obtain ⟨rfl, rfl⟩ := Run.gives_pure.mp halias
  obtain ⟨hrequired, rfl⟩ := Run.gives_of.mp hu
  obtain ⟨found, hfound, he⟩ := require_of_emptied (htables name) hrequired
  refine ⟨found.withAlias alias?, ?_, by rw [Table.emptied_withAlias, he, Table.emptied_withAlias]⟩
  exact Run.gives_bind.mpr ⟨found, _, Run.gives_of.mpr ⟨hfound, rfl⟩, Run.gives_pure.mpr ⟨rfl, rfl⟩⟩

theorem sourceTables_of_emptied {runner : Runner ResultMemo} (runner' : Runner ResultMemo)
    {joins : List JoinClause} (hjoins : ∀ j ∈ joins, ∃ name alias?, j.source = .table name alias?) {ts : List Table}
    {memo memo' : ResultMemo} (h : (sourceTables world runner joins).Gives memo ts memo') :
    ∃ found, (sourceTables given runner' joins).Gives memo found memo' ∧
      found.map Table.emptied = ts.map Table.emptied := by
  induction joins generalizing ts memo with
  | nil =>
    obtain ⟨rfl, rfl⟩ := Run.gives_pure.mp h
    exact ⟨[], Run.gives_pure.mpr ⟨rfl, rfl⟩, rfl⟩
  | cons j joins ih =>
    obtain ⟨⟨name, alias?, hj⟩, hjoins⟩ := List.forall_mem_cons.mp hjoins
    obtain ⟨t, mid, ht, h⟩ := Run.gives_bind.mp h
    obtain ⟨ts, last, hts, h⟩ := Run.gives_bind.mp h
    obtain ⟨rfl, rfl⟩ := Run.gives_pure.mp h
    rw [hj] at ht
    obtain ⟨u, hu, he⟩ := sourceTable_of_emptied htables runner' ht
    obtain ⟨us, hus, hes⟩ := ih hjoins hts
    refine ⟨u :: us, ?_, by rw [List.map_cons, List.map_cons, he, hes]⟩
    rw [← hj] at hu
    exact Run.gives_bind.mpr ⟨u, mid, hu, Run.gives_bind.mpr ⟨us, _, hus, Run.gives_pure.mpr ⟨rfl, rfl⟩⟩⟩

/-- A statement over tables finds the same titles whatever the rows of the tables are. -/
theorem Statement.sameTitles_of_tables {q : Statement} (hsource : ∃ name alias?, q.source = .table name alias?)
    (hjoins : ∀ j ∈ q.joins, ∃ name alias?, j.source = .table name alias?) : q.SameTitles given world := by
  intro depth memo memo' sources h
  obtain ⟨name, alias?, hname⟩ := hsource
  obtain ⟨first, mid, hfirst, h⟩ := Run.gives_bind.mp h
  obtain ⟨others, _, hothers, h⟩ := Run.gives_bind.mp h
  obtain ⟨rfl, rfl⟩ := Run.gives_pure.mp h
  rw [hname] at hfirst
  obtain ⟨u, hu, he⟩ := sourceTable_of_emptied htables (runnerAt remembered given depth) hfirst
  obtain ⟨us, hus, hes⟩ := sourceTables_of_emptied htables (runnerAt remembered given depth) hjoins hothers
  rw [← hname] at hu
  refine ⟨memo, memo', u :: us, ?_, by rw [List.map_cons, List.map_cons, he, hes]⟩
  exact Run.gives_bind.mpr ⟨u, mid, hu, Run.gives_bind.mpr ⟨us, _, hus, Run.gives_pure.mpr ⟨rfl, rfl⟩⟩⟩

end Tables

/-- A table `T` of letters. -/
def lettersIn (letters : List String) : World :=
  ⟨.ofList [.derived "T" ["A"] (letters.map fun a => [.text a])], .empty, .midnight ⟨2020, 1, 1⟩⟩

theorem lettersIn_get? (letters : List String) (name : String) :
    ((lettersIn letters).tables.get? name).map Table.emptied =
      if normalize name = "T" then some (Table.derived "T" ["A"] []) else none := by
  have hkey : normalize "T" = "T" := by decide
  have hentries : (lettersIn letters).tables.entries =
      [("T", .derived "T" ["A"] (letters.map fun a => [.text a]))] := by
    change Tables.put (normalize "T") _ [] = _
    rw [hkey]
    rfl
  unfold Tables.get?
  rw [hentries]
  by_cases hname : normalize name = "T"
  · rw [if_pos hname, hname]
    rfl
  · rw [if_neg hname, List.lookup_cons, beq_false_of_ne hname]
    rfl

/-- `A = 'x'` -/
def isX : Condition :=
  .compare .eq (.column none "A") (.literal (.text "x"))

/-- `nope = 'y'` -/
def nopeIsY : Condition :=
  .compare .eq (.column none "nope") (.literal (.text "y"))

/-- `SELECT A FROM T WHERE A = 'x' AND nope = 'y'` -/
def missingColumn : Statement :=
  ⟨false, [⟨.column none "A", "A", none⟩], .table "T" none, [], some (.logic .and [isX, nopeIsY]), [], none,
    [], none, none, []⟩

/-- The column is missing whatever the letters are. -/
theorem missingColumn_faulty : missingColumn.FaultyOver (lettersIn []) nopeIsY := by
  intro depth memo memo' sources h
  have hsources : (allSources (lettersIn []) (runnerAt remembered (lettersIn []) depth) missingColumn).Gives
      memo [(Table.derived "T" ["A"] []).withAlias none] memo := rfl
  obtain rfl := (h.unique hsources).1
  refine ⟨.column none "nope", by simp [nopeIsY, Condition.lookups, Expr.lookups], ?_⟩
  exact .unknownColumn (by decide) (by decide)

theorem missingColumn_sameTitles (letters : List String) :
    missingColumn.SameTitles (lettersIn []) (lettersIn letters) :=
  Statement.sameTitles_of_tables (fun name => by rw [lettersIn_get?, lettersIn_get?]) ⟨"T", none, rfl⟩
    (by simp [missingColumn])

section Filters

variable {given world : World} {s q : Statement} {around : Around} {op : Comparison} {a b : Expr}

/-- A statement that comes to a result has not read the comparison with the fault. -/
theorem runsOut_of_execute {r : ResultSet} (hq : s.Operand q)
    (hfilter : q.filter = some (around.plug (.compare op a b)))
    (hfault : q.FaultyOver given (.compare op a b)) (htitles : q.SameTitles given world)
    (h : execute world s = .ok r) : s.RunsOut world q around := by
  obtain ⟨_, _, hresult⟩ := bind_eq_ok.mp h
  have hrun : (run remembered world s.depth s).Gives [] r ((run remembered world s.depth s).run []).2 :=
    Prod.ext hresult rfl
  obtain ⟨depth, memo, x, memo', hcomes, hx⟩ := run_operand hq hrun
  rw [runPivot_eq] at hx
  obtain ⟨t, start, ht, hx⟩ := Run.gives_bind.mp hx
  obtain ⟨items, pivot, rfl⟩ := expanded_gives ht
  obtain ⟨working, mid, ids, last, hworking, hids⟩ :=
    runPlain_selects (s := { q with items, pivot }) hfilter hx
  have hworking : (joinedSources world (runnerAt remembered world depth) q).Gives start working mid := hworking
  obtain ⟨sources, _, hsources, hknown⟩ := joinedSources_gives hworking
  obtain ⟨_, _, found, hfound, hsame⟩ := htitles hsources
  have hfaulty : (Condition.compare op a b).Faulty (rowsAt world working depth).scope.known := by
    change (Condition.compare op a b).Faulty fun name => (working.column? name).isSome
    rw [hknown, ← knownTo_eq_of_emptied hsame]
    exact hfault hfound
  exact ⟨depth, memo, start, mid, _, working, hcomes, ht, hworking,
    Rows.runsOut_of_select (fun {_ _ _ _} => Rows.not_select_faulty hfaulty) around hids⟩

theorem exists_error {x : Except QueryError ResultSet} (h : ∀ r, x ≠ .ok r) : ∃ e, x = .error e := by
  cases x with
  | error e => exact ⟨e, rfl⟩
  | ok r => exact absurd rfl (h r)

/-- A fault in no `AND` is found, whatever the rows are. -/
theorem apart_fault_fails (hq : s.Operand q) (hfilter : q.filter = some (around.plug (.compare op a b)))
    (hapart : around.apart) (hfault : q.FaultyOver given (.compare op a b))
    (htitles : q.SameTitles given world) : ∃ e, execute world s = .error e :=
  exists_error fun _ hresult =>
    Statement.not_runsOut_of_apart hapart (runsOut_of_execute hq hfilter hfault htitles hresult)

/-- A statement whose filter, or that of an operand, has a fault in a comparison fails on all rows that the
tables may have, unless these run out ahead of the comparison in an `AND` around it. The fault is one of the
titles: it need be known only for some contents of the tables that have them. -/
theorem faulty_filter_fails (hq : s.Operand q) (hfilter : q.filter = some (around.plug (.compare op a b)))
    (hfault : q.FaultyOver given (.compare op a b)) (htitles : q.SameTitles given world)
    (hreached : ¬ s.RunsOut world q around) : ∃ e, execute world s = .error e :=
  exists_error fun _ hresult => hreached (runsOut_of_execute hq hfilter hfault htitles hresult)

end Filters

theorem faulty_filter_fails_missingColumn :
    let around := Around.term .and [isX] .here []
    missingColumn.Operand missingColumn ∧ missingColumn.filter = some (around.plug nopeIsY) ∧
    missingColumn.FaultyOver (lettersIn []) nopeIsY ∧
    missingColumn.SameTitles (lettersIn []) (lettersIn ["x"]) ∧
    ¬ missingColumn.RunsOut (lettersIn ["x"]) missingColumn around ∧
    ∃ e, execute (lettersIn ["x"]) missingColumn = .error e := by
  intro around
  have hreached : ¬ missingColumn.RunsOut (lettersIn ["x"]) missingColumn around := by
    rintro ⟨depth, _, memo, memo', _, working, _, _, hworking, ids, mid, hids, hout⟩
    have hjoined : (joinedSources (lettersIn ["x"]) (runnerAt remembered (lettersIn ["x"]) depth)
        missingColumn).Gives memo ((Table.derived "T" ["A"] [[.text "x"]]).withAlias none) memo := rfl
    obtain ⟨rfl, rfl⟩ := hworking.unique hjoined
    have hone : ((rowsAt (lettersIn ["x"]) ((Table.derived "T" ["A"] [[.text "x"]]).withAlias none)
        depth).narrow [0] [isX]).Gives memo' [0] memo' := rfl
    obtain rfl := (hids.unique hone).1
    exact hout.elim (List.cons_ne_nil _ _) id
  exact ⟨.itself, rfl, missingColumn_faulty, missingColumn_sameTitles ["x"], hreached,
    faulty_filter_fails .itself rfl missingColumn_faulty (missingColumn_sameTitles ["x"]) hreached⟩

/-- The missing column is found where the letter is there, and is not where no row is left ahead of it. -/
theorem missingColumn_found_by_rows :
    missingColumn.filter = some (.logic .and [isX, nopeIsY]) ∧
    missingColumn.FaultyOver (lettersIn []) nopeIsY ∧
    (∀ letters, missingColumn.SameTitles (lettersIn []) (lettersIn letters)) ∧
    execute (lettersIn ["x"]) missingColumn = .error (.unknownColumn "nope") ∧
    execute (lettersIn ["z"]) missingColumn = .ok ⟨["A"], []⟩ ∧
    execute (lettersIn []) missingColumn = .ok ⟨["A"], []⟩ :=
  ⟨rfl, missingColumn_faulty, missingColumn_sameTitles, by decide +kernel, by decide +kernel, by decide +kernel⟩

end GridQuery
