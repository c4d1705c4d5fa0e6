import GridQuery.Proofs.Sorting

/-!
Pivoting as rewriting. A statement with a pivot first collects values and then runs as another statement,
which differs in its select list alone.
-/

namespace GridQuery
set_option autoImplicit false

variable {σ : Type} {world : World} {runner : Runner σ} {s : Statement}

/-- The statement that runs in the place of one that may have a pivot. -/
def expanded (world : World) (runner : Runner σ) (s : Statement) : Run σ Statement :=
  match s.pivot with
  | none => pure s
  | some pivot =>
    if s.groupBy.isEmpty then throw .pivotWithoutGroup
    else do
      let values ← runner.keep (runPlain world runner) (pivotValues s pivot)
      pure (pivoted s pivot (values.column 0))

theorem throw_bind {α β : Type} (e : QueryError) (f : α → Run σ β) :
    (throw e : Run σ α) >>= f = throw e := rfl

theorem runPivot_eq (world : World) (runner : Runner σ) (s : Statement) :
    runPivot world runner s = (do
      let t ← expanded world runner s
      runPlain world runner t) := by
  cases hp : s.pivot with
  | none => simp only [runPivot, expanded, hp, pure_bind]
  | some pivot =>
    simp only [runPivot, expanded, hp]
    split
    · rw [throw_bind]
    · simp only [bind_assoc, pure_bind]

/-- Only the select list and the pivot are another. -/
theorem expanded_gives {t : Statement} {st st' : σ} (h : (expanded world runner s).Gives st t st') :
    ∃ items pivot, t = { s with items, pivot } := by
  unfold expanded at h
  split at h
  · rw [(Run.gives_pure.mp h).1]
    exact ⟨s.items, s.pivot, by cases s; rfl⟩
  · rename_i pivot _
    split at h
    · exact absurd h Run.not_gives_throw
    · obtain ⟨values, _, _, h⟩ := Run.gives_bind.mp h
      rw [(Run.gives_pure.mp h).1]
      exact ⟨s.items.flatMap (pivotItem pivot (values.column 0)), none, rfl⟩

/-- What neither the pivot nor the keys nor the select list have a part in goes through expanding unchanged. -/
theorem expanded_update (world : World) (runner : Runner σ) (s : Statement) (update : Statement → Statement)
    (hpivot : (update s).pivot = s.pivot) (hgroups : (update s).groupBy = s.groupBy)
    (hvalues : ∀ pivot, pivotValues (update s) pivot = pivotValues s pivot)
    (hpivoted : ∀ pivot values, pivoted (update s) pivot values = update (pivoted s pivot values)) :
    expanded world runner (update s) = (do
      let t ← expanded world runner s
      pure (update t)) := by
  unfold expanded
  rw [hpivot, hgroups]
  cases s.pivot with
  | none => simp only [pure_bind]
  | some pivot =>
    simp only
    split
    · rw [throw_bind]
    · simp only [hvalues, hpivoted, bind_assoc, pure_bind]

theorem expanded_distinct (world : World) (runner : Runner σ) (s : Statement) (distinct : Bool) :
    expanded world runner { s with distinct } = (do
      let t ← expanded world runner s
      pure { t with distinct }) :=
  expanded_update world runner s (fun t => { t with distinct }) rfl rfl (fun _ => rfl) fun _ _ => rfl

theorem expanded_orderBy (world : World) (runner : Runner σ) (s : Statement) (orderBy : List OrderItem) :
    expanded world runner { s with orderBy } = (do
      let t ← expanded world runner s
      pure { t with orderBy }) :=
  expanded_update world runner s (fun t => { t with orderBy }) rfl rfl (fun _ => rfl) fun _ _ => rfl

end GridQuery
