import GridQuery.Proofs.InOrder
import GridQuery.Proofs.Titles

/-!
The shape of results. A statement works on rows with a cell for each of its fields, those of the select list
in front and hidden ones behind, and shows the beginnings of them; so every row that it shows has a cell for
each title, and the titles are those of the select list alone. Set operations keep that so.
-/

namespace GridQuery
set_option autoImplicit false

section Runs

variable {σ : Type} {world : World} {runner : Runner σ} {s : Statement} {st st' : σ}

/-- The tables that the sources of a statement are. -/
def allSources (world : World) (runner : Runner σ) (s : Statement) : Run σ (List Table) := do
  let first ← sourceTable world runner s.source
  let others ← sourceTables world runner s.joins
  pure (first :: others)

/-- The first operand of a statement, its pivot expanded, and the tables of its sources. -/
def firstOperand (world : World) (runner : Runner σ) (s : Statement) :
    Run σ (Statement × List Table) := do
  let t ← expanded world runner s
  let sources ← allSources world runner t
  pure (t, sources)

theorem Fields.selectedCount_eq_titles (fs : Fields) : fs.selectedCount = fs.titles.length :=
  (List.length_map Field.title).symm

/-- The rows are made for the fields that the sources give; joins point them at other columns only. -/
theorem madeRows_layout {plan : Layout} {fields : Fields} {cells : List Row}
    (h : (madeRows world runner s).Gives st (plan, fields, cells) st') :
    ∃ sources mid, (allSources world runner s).Gives st sources mid ∧ layout sources s = .ok plan ∧
      fields.titles = plan.fields.titles ∧ fields.length = plan.fields.length := by
  unfold madeRows at h
  obtain ⟨first, mid₁, hfirst, h⟩ := Run.gives_bind.mp h
  obtain ⟨others, mid₂, hothers, h⟩ := Run.gives_bind.mp h
  obtain ⟨plan', mid₃, hplan, h⟩ := Run.gives_bind.mp h
  obtain ⟨⟨working, fields'⟩, _, hjoin, h⟩ := Run.gives_bind.mp h
  obtain ⟨ids, _, _, h⟩ := Run.gives_bind.mp h
  obtain ⟨formulas, _, _, h⟩ := Run.gives_bind.mp h
  obtain ⟨cells', _, _, h⟩ := Run.gives_bind.mp h
  cases (Run.gives_pure.mp h).1
  refine ⟨first :: others, mid₂, ?_, (Run.gives_of.mp hplan).1, joinFrom_titles hjoin, ?_⟩
  · refine Run.gives_bind.mpr ⟨first, mid₁, hfirst, ?_⟩
    exact Run.gives_bind.mpr ⟨others, mid₂, hothers, Run.gives_pure.mpr ⟨rfl, rfl⟩⟩
  · simpa only [List.length_map] using congrArg List.length (joinFrom_kinds hjoin)

/-- What a statement shows: the titles of its select items, and the beginnings of rows that have a cell for
each field. -/
theorem runPlain_shown {r : ResultSet} (h : (runPlain world runner s).Gives st r st') :
    ∃ sources mid plan selected added, (allSources world runner s).Gives st sources mid ∧
      layout sources s = .ok plan ∧ VisibleFirst sources s plan.fields selected added ∧
      r.titles = selected.map Field.title ∧
      ∃ rows : List Row, (∀ row ∈ rows, row.length = selected.length + added.length) ∧
        r.rows = rows.map fun row => row.take selected.length := by
  rw [runPlain_eq] at h
  obtain ⟨⟨plan, fields, cells⟩, mid, hmade, h⟩ := Run.gives_bind.mp h
  obtain ⟨kept, last, hkept, h⟩ := Run.gives_bind.mp h
  obtain ⟨rfl, _⟩ := Run.gives_pure.mp h
  obtain ⟨sources, mid', hsources, hplan, htitles, hlength⟩ := madeRows_layout hmade
  obtain ⟨selected, added, hvisible⟩ := layout_visibleFirst hplan
  have hshown : fields.titles = selected.map Field.title := htitles.trans hvisible.titles_eq
  have hcount : fields.selectedCount = selected.length := by
    rw [Fields.selectedCount_eq_titles, hshown, List.length_map]
  refine ⟨sources, mid', plan, selected, added, hsources, hplan, hvisible, hshown, ?_⟩
  have hwidths := keepGroups_length (grouped_length (madeRows_widths hmade).1) hkept
  obtain ⟨rows, hshownRows, hrows⟩ := cut_prefix fields s.limit (sortRows plan.orderKeys kept)
  rw [hcount] at hrows
  refine ⟨rows, ?_, hrows⟩
  intro row hrow
  rw [← List.length_append, ← hvisible.eq_append, ← hlength]
  exact hwidths row ((sortRows_perm plan.orderKeys kept).mem_iff.mp (hshownRows.subset hrow))

/-- Every row of a result has a cell for each title. -/
def ResultSet.Even (r : ResultSet) : Prop :=
  ∀ row ∈ r.rows, row.length = r.titles.length

theorem runPlain_even {r : ResultSet} (h : (runPlain world runner s).Gives st r st') : r.Even := by
  obtain ⟨_, _, _, selected, added, _, _, _, htitles, rows, hwidths, hrows⟩ := runPlain_shown h
  intro row hrow
  rw [hrows] at hrow
  obtain ⟨full, hfull, rfl⟩ := List.mem_map.mp hrow
  rw [htitles, List.length_map, List.length_take, hwidths full hfull]
  omega

theorem mem_combineRows {op : SetOperator} {left right : List Row} {row : Row}
    (h : row ∈ combineRows op left right) : row ∈ left ∨ row ∈ right := by
  cases op with
  | unionAll => exact List.mem_append.mp h
  | union => exact List.mem_append.mp ((keepFirst_sublist _ _ _).subset h)
  | intersect => exact Or.inl (List.mem_filter.mp ((keepFirst_sublist _ _ _).subset h)).1
  | except => exact Or.inl (List.mem_filter.mp h).1

theorem combineAll_even {left r : ResultSet} {operations : List SetOperation}
    (hleft : left.Even)
    (hright : ∀ {s : Statement} {r : ResultSet} {st st' : σ}, (runner.run s).Gives st r st' → r.Even)
    (h : (combineAll runner left operations).Gives st r st') : r.Even := by
  induction operations generalizing left st with
  | nil =>
    rw [(Run.gives_pure.mp h).1]
    exact hleft
  | cons o operations ih =>
    obtain ⟨right, _, hrun, h⟩ := Run.gives_bind.mp h
    obtain ⟨both, _, hboth, h⟩ := Run.gives_bind.mp h
    have hcombine := (Run.gives_of.mp hboth).1
    unfold ResultSet.combine at hcombine
    split at hcombine
    · rename_i htitles
      cases hcombine
      apply ih _ h
      intro row hrow
      -- operands are combined only under equally many titles
      rcases mem_combineRows hrow with hrow | hrow
      · exact hleft row hrow
      · exact (hright hrun row hrow).trans htitles.symm
    · cases hcombine

/-- The rows of every result have a cell for each title. -/
theorem run_even {keep : Keeping σ} {depth : Nat} {r : ResultSet}
    (h : (run keep world depth s).Gives st r st') : r.Even := by
  induction depth generalizing s r st st' with
  | zero => exact absurd h Run.not_gives_throw
  | succ depth ih =>
    change (runWith world (runnerAt keep world depth) s).Gives st r st' at h
    obtain ⟨first, _, hfirst, h⟩ := Run.gives_bind.mp h
    rw [runPivot_eq] at hfirst
    obtain ⟨t, _, _, hfirst⟩ := Run.gives_bind.mp hfirst
    exact combineAll_even (runPlain_even hfirst) (fun hs => ih hs) h

/-- The titles of a result are those of the select items of its first operand. -/
theorem run_titles {keep : Keeping σ} {depth : Nat} {r : ResultSet}
    (h : (run keep world (depth + 1) s).Gives st r st') :
    ∃ t sources mid plan selected added,
      (firstOperand world (runnerAt keep world depth) s).Gives st (t, sources) mid ∧
      layout sources t = .ok plan ∧ VisibleFirst sources t plan.fields selected added ∧
      r.titles = selected.map Field.title := by
  change (runWith world (runnerAt keep world depth) s).Gives st r st' at h
  obtain ⟨first, _, hfirst, h⟩ := Run.gives_bind.mp h
  rw [runPivot_eq] at hfirst
  obtain ⟨t, mid, ht, hfirst⟩ := Run.gives_bind.mp hfirst
  obtain ⟨sources, mid', plan, selected, added, hsources, hplan, hvisible, htitles, _⟩ :=
    runPlain_shown hfirst
  refine ⟨t, sources, mid', plan, selected, added, ?_, hplan, hvisible, ?_⟩
  · refine Run.gives_bind.mpr ⟨t, mid, ht, ?_⟩
    exact Run.gives_bind.mpr ⟨sources, mid', hsources, Run.gives_pure.mpr ⟨rfl, rfl⟩⟩
  · rw [combineAll_titles h, htitles]

end Runs

/-- Every result is rectangular: a row has a cell for each title. The titles are those of the visible select
items of the first operand over its sources, stars written out; the fields that grouping, `HAVING` and
ordering added stand behind them, hidden. -/
theorem execute_rectangular {world : World} {s : Statement} {r : ResultSet}
    (h : execute world s = .ok r) :
    (∀ row ∈ r.rows, row.length = r.titles.length) ∧
    ∃ t sources kept plan selected added,
      (firstOperand world (runnerAt remembered world (s.depth - 1)) s).Gives [] (t, sources) kept ∧
      layout sources t = .ok plan ∧ VisibleFirst sources t plan.fields selected added ∧
      r.titles = selected.map Field.title ∧
      r.titles = t.items.flatMap (shownTitles sources) := by
  obtain ⟨_, _, hresult⟩ := bind_eq_ok.mp h
  obtain ⟨last, hrun⟩ : ∃ last, (run remembered world s.depth s).Gives [] r last :=
    ⟨((run remembered world s.depth s).run []).2, Prod.ext hresult rfl⟩
  refine ⟨run_even hrun, ?_⟩
  cases hdepth : s.depth with
  | zero =>
    rw [hdepth] at hrun
    exact absurd hrun Run.not_gives_throw
  | succ depth =>
    rw [hdepth] at hrun
    obtain ⟨t, sources, kept, plan, selected, added, hfirst, hplan, hvisible, htitles⟩ := run_titles hrun
    refine ⟨t, sources, kept, plan, selected, added, hfirst, hplan, hvisible, htitles, ?_⟩
    rw [htitles, ← hvisible.titles_eq, layout_titles hplan]

/-- `SELECT A FROM T GROUP BY A, B HAVING COUNT(*) > 0 ORDER BY B`: of the fields A, B and COUNT(*) one is
shown. -/
theorem execute_rectangular_hiddenFields :
    let world : World := ⟨.ofList [.derived "T" ["A", "B"] [[.text "x", .number 1], [.text "y", .number 2]]],
      .empty, .midnight ⟨2020, 1, 1⟩⟩
    let s : Statement := ⟨false, [⟨.column none "A", "A", none⟩], .table "T" none, [], none,
      [.column none "A", .column none "B"],
      some (.compare .gt (.call "COUNT" false [.star none]) (.literal (.number 0))),
      [⟨.column none "B", .asc⟩], none, none, []⟩
    let r : ResultSet := ⟨["A"], [[.text "x"], [.text "y"]]⟩
    execute world s = .ok r ∧ (∀ row ∈ r.rows, row.length = 1) ∧
    ∃ sources kept plan selected added,
      (firstOperand world (runnerAt remembered world 0) s).Gives [] (s, sources) kept ∧
      layout sources s = .ok plan ∧ VisibleFirst sources s plan.fields selected added ∧
      selected.map Field.title = ["A"] := by
  intro world s r
  have hrun : (runInOrder world (runnerAt remembered world 0) s).Gives [] (some r) [] := by decide +kernel
  have hresult : execute world s = .ok r :=
    execute_of_run (by decide +kernel) (by decide +kernel) (run_of_inOrder rfl rfl hrun)
  obtain ⟨heven, t, sources, kept, plan, selected, added, hfirst, hplan, hvisible, htitles, _⟩ :=
    execute_rectangular hresult
  have hdepth : s.depth - 1 = 0 := by decide +kernel
  rw [hdepth] at hfirst
  obtain ⟨_, _, ht, hsources⟩ := Run.gives_bind.mp hfirst
  obtain ⟨_, _, _, hpair⟩ := Run.gives_bind.mp hsources
  cases (Run.gives_pure.mp hpair).1
  obtain rfl : t = s := (Run.gives_pure.mp ht).1
  exact ⟨hresult, heven, sources, kept, plan, selected, added, hfirst, hplan, hvisible, htitles.symm⟩

end GridQuery
