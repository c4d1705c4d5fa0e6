import GridQuery.Proofs.Runs

/-!
Chains of joins. What holds of the first source and is kept by each join holds of the joined table; this
is the one induction on chains.
-/

namespace GridQuery
set_option autoImplicit false

/-- The sources that a chain of joins takes: the first one, and one for each join. -/
def chainSources (first : Table) (joins : List JoinClause) (others : List Table) : List Table :=
  first :: others.take joins.length

variable {σ : Type} {world : World} {runner : Runner σ}

/-- The induction on a chain. What holds is said of the working table and the fields while `count` of the
sources are in it; each join takes the next one. -/
theorem joinFrom_invariant (sources : List Table) (holds : Nat → Table → Fields → Prop)
    (hstep : ∀ {count : Nat} {working right next : Table} {fields : Fields} {kind : JoinKind}
      {on : Condition} {st st' : σ}, sources[count]? = some right → holds count working fields →
      (joinTables world runner working right kind on).Gives st next st' →
      holds (count + 1) next (fields.repoint count working.width))
    {joins : List JoinClause} {count : Nat} {working t : Table} {fields pointed : Fields}
    {rest : List Table} {st st' : σ} (hrest : rest.take joins.length = sources.drop count)
    (hholds : holds count working fields)
    (h : (joinFrom world runner count working fields joins rest).Gives st (t, pointed) st') :
    ∃ last, sources.length ≤ last ∧ holds last t pointed := by
  induction joins generalizing count working fields rest st with
  | nil =>
    simp only [joinFrom, Run.gives_pure, Prod.mk.injEq] at h
    obtain ⟨⟨rfl, rfl⟩, _⟩ := h
    exact ⟨count, List.drop_eq_nil_iff.mp hrest.symm, hholds⟩
  | cons j joins ih =>
    cases rest with
    | nil => exact absurd h (by simpa only [joinFrom] using Run.not_gives_throw)
    | cons right rest =>
      simp only [joinFrom] at h
      obtain ⟨next, mid, hnext, h⟩ := Run.gives_bind.mp h
      rw [List.length_cons, List.take_succ_cons] at hrest
      have hright : sources[count]? = some right := by
        rw [← Nat.add_zero count, ← List.getElem?_drop, ← hrest]
        rfl
      have htail : rest.take joins.length = sources.drop (count + 1) := by
        rw [← List.tail_drop, ← hrest]
        rfl
      exact ih htail (hstep hright hholds hnext) h

/-- A field that no join has pointed anywhere. -/
def Field.unpointed (f : Field) : Field := { f with derived := none }

theorem Fields.unpointed_repoint (fs : Fields) (source offset : Nat) :
    (fs.repoint source offset).map Field.unpointed = fs.map Field.unpointed := by
  unfold Fields.repoint
  rw [List.map_map]
  refine List.map_congr_left fun f _ => ?_
  simp only [Function.comp_apply]
  split
  · split <;> rfl
  · rfl

/-- Joins point fields elsewhere and leave them the same otherwise. -/
theorem joinFrom_unpointed {first t : Table} {others : List Table} {joins : List JoinClause}
    {fields pointed : Fields} {st st' : σ}
    (h : (joinFrom world runner 1 first fields joins others).Gives st (t, pointed) st') :
    pointed.map Field.unpointed = fields.map Field.unpointed := by
  obtain ⟨_, _, hsame⟩ := joinFrom_invariant (chainSources first joins others)
    (fun _ _ fs => fs.map Field.unpointed = fields.map Field.unpointed)
    (fun _ hsame _ => (Fields.unpointed_repoint _ _ _).trans hsame) rfl rfl h
  exact hsame

/-- What does not look at where a field is pointed is the same before joins and after them. -/
theorem map_eq_of_unpointed {α : Type} {fields pointed : Fields}
    (h : pointed.map Field.unpointed = fields.map Field.unpointed) {look : Field → α}
    (hlook : ∀ f, look f.unpointed = look f) : pointed.map look = fields.map look := by
  have hsame := congrArg (List.map look) h
  rw [List.map_map, List.map_map] at hsame
  rwa [show look ∘ Field.unpointed = look from funext hlook] at hsame

theorem joinFrom_kinds {first t : Table} {others : List Table} {joins : List JoinClause}
    {fields pointed : Fields} {st st' : σ}
    (h : (joinFrom world runner 1 first fields joins others).Gives st (t, pointed) st') :
    pointed.map Field.kind = fields.map Field.kind :=
  map_eq_of_unpointed (joinFrom_unpointed h) fun _ => rfl

/-- Joins move fields, and leave what they compute as it is. -/
theorem joinFrom_kind {first t : Table} {others : List Table} {joins : List JoinClause}
    {fields pointed : Fields} {st st' : σ}
    (h : (joinFrom world runner 1 first fields joins others).Gives st (t, pointed) st')
    {f : Field} (hf : f ∈ pointed) : ∃ g ∈ fields, f.kind = g.kind := by
  have hkind : f.kind ∈ fields.map Field.kind := joinFrom_kinds h ▸ List.mem_map_of_mem hf
  obtain ⟨g, hg, he⟩ := List.mem_map.mp hkind
  exact ⟨g, hg, he.symm⟩

end GridQuery
