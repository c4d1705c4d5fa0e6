import GridQuery.Proofs.Runs

/-!
Where the fields of a statement come from. Each is of an item of the select list or was added, hidden,
for an expression of a clause; what is said of fields later needs to look at these two makers alone.
-/

namespace GridQuery
set_option autoImplicit false

namespace Field

/-- A field that is spelled in one more way is otherwise the field that it was. -/
theorem spell_eq (f : Field) (spelling : String) :
    f.spell spelling = { f with spellings := (f.spell spelling).spellings } := by
  simp only [spell]
  split <;> rfl

theorem spellColumn_eq (f : Field) (source : Table) (column : Nat) :
    f.spellColumn source column = { f with spellings := (f.spellColumn source column).spellings } := by
  have hspell (g : Field) (spelling : String) (h : g = { f with spellings := g.spellings }) :
      g.spell spelling = { f with spellings := (g.spell spelling).spellings } := by
    rw [spell_eq, h]
  unfold spellColumn
  split
  · rfl
  · rename_i title _
    have htitled := hspell _ (source.name ++ "." ++ title) (hspell f title rfl)
    split
    · exact hspell _ _ htitled
    · exact htitled

@[simp] theorem spell_kind (f : Field) (spelling : String) : (f.spell spelling).kind = f.kind := by
  rw [spell_eq]

@[simp] theorem spell_title (f : Field) (spelling : String) : (f.spell spelling).title = f.title := by
  rw [spell_eq]

@[simp] theorem spell_derived (f : Field) (spelling : String) : (f.spell spelling).derived = f.derived := by
  rw [spell_eq]

@[simp] theorem spell_aggregate (f : Field) (spelling : String) :
    (f.spell spelling).aggregate = f.aggregate := by
  rw [spell_eq]

@[simp] theorem spell_temporary (f : Field) (spelling : String) :
    (f.spell spelling).temporary = f.temporary := by
  rw [spell_eq]

/-- A field answers to what it is spelled. -/
theorem contains_spell {f : Field} {spelling : String} (h : normalize spelling ≠ "") :
    (f.spell spelling).spellings.contains (normalize spelling) = true := by
  rw [List.contains_iff_mem, spell]
  split
  · rename_i hthere
    exact hthere.resolve_left h
  · exact List.mem_append_right _ (List.mem_singleton.mpr rfl)

@[simp] theorem spellColumn_kind (f : Field) (source : Table) (column : Nat) :
    (f.spellColumn source column).kind = f.kind := by
  rw [spellColumn_eq]

@[simp] theorem spellColumn_title (f : Field) (source : Table) (column : Nat) :
    (f.spellColumn source column).title = f.title := by
  rw [spellColumn_eq]

@[simp] theorem spellColumn_derived (f : Field) (source : Table) (column : Nat) :
    (f.spellColumn source column).derived = f.derived := by
  rw [spellColumn_eq]

@[simp] theorem spellColumn_aggregate (f : Field) (source : Table) (column : Nat) :
    (f.spellColumn source column).aggregate = f.aggregate := by
  rw [spellColumn_eq]

@[simp] theorem spellColumn_temporary (f : Field) (source : Table) (column : Nat) :
    (f.spellColumn source column).temporary = f.temporary := by
  rw [spellColumn_eq]

end Field

namespace Fields

variable {sources : List Table}

theorem ofSource_aggregate {index : Nat} {source : Table} {f : Field} (hf : f ∈ ofSource index source) :
    f.aggregate = none := by
  obtain ⟨t, _, rfl⟩ := List.mem_map.mp hf
  rw [Field.spellColumn_aggregate, Field.ofKind]

/-- A field of a select item is a column that a star stands for, or the field of the expression. -/
theorem mem_ofItem {item : SelectItem} {fs : Fields} (h : ofItem sources item = .ok fs) {f : Field}
    (hf : f ∈ fs) :
    (∃ s source, sources[s]? = some source ∧ f ∈ ofSource s source) ∨
      ∃ g, Field.ofExpr sources item.title item.expr = .ok g ∧ f = g.spell item.expr.text := by
  unfold ofItem at h
  split at h
  · simp only [ofStar] at h
    split at h
    · cases h
    · cases h
      obtain ⟨⟨source, s⟩, hs, hf⟩ := List.mem_flatMap.mp hf
      have hsource := List.mk_mem_zipIdx_iff_getElem?.mp (List.mem_filter.mp hs).1
      exact Or.inl ⟨s, source, hsource, hf⟩
  · obtain ⟨g, hg, h⟩ := bind_eq_ok.mp h
    cases h
    exact Or.inr ⟨g, hg, List.mem_singleton.mp hf⟩

theorem mem_ofSelect {items : List SelectItem} {fs : Fields} (h : ofSelect sources items = .ok fs)
    {f : Field} (hf : f ∈ fs) : ∃ item ∈ items, ∃ gs, ofItem sources item = .ok gs ∧ f ∈ gs := by
  induction items generalizing fs with
  | nil =>
    cases h
    cases hf
  | cons item items ih =>
    unfold ofSelect at h
    obtain ⟨gs, hgs, h⟩ := bind_eq_ok.mp h
    obtain ⟨others, hothers, h⟩ := bind_eq_ok.mp h
    cases h
    rcases List.mem_append.mp hf with hf | hf
    · exact ⟨item, List.mem_cons_self, gs, hgs, hf⟩
    · obtain ⟨other, hother, hs, hhs, hf⟩ := ih hothers hf
      exact ⟨other, List.mem_cons_of_mem _ hother, hs, hhs, hf⟩

theorem hidden_eq_ok {clause : String} {e : Expr} {f : Field} (h : hidden sources clause e = .ok f) :
    ∃ g, Field.ofExpr sources e.text e = .ok g ∧ f = { g with temporary := true } := by
  have hmake {f : Field} (hf : hidden.make sources clause e = .ok f) :
      ∃ g, Field.ofExpr sources e.text e = .ok g ∧ f = { g with temporary := true } := by
    unfold hidden.make at hf
    split at hf
    · rename_i g hg
      exact ⟨g, hg, (Except.ok.inj hf).symm⟩
    · cases hf
  unfold hidden at h
  split at h
  · split at h
    · cases h
    · exact hmake h
  · exact hmake h

/-- What resolving an expression does: it finds a field, or adds a hidden one at the end. -/
theorem resolve_cases {fs fs' : Fields} {clause : String} {e : Expr} {slot : Nat}
    (h : fs.resolve sources clause e = .ok (slot, fs')) :
    (fs' = fs ∧ (fs.ordinal? clause e = .ok (some slot) ∨ fs.find? sources e = some slot)) ∨
      ∃ f, hidden sources clause e = .ok f ∧ fs' = fs ++ [f] ∧ slot = fs.length := by
  unfold resolve at h
  obtain ⟨o, ho, h⟩ := bind_eq_ok.mp h
  cases o with
  | some found =>
    cases h
    exact Or.inl ⟨rfl, Or.inl ho⟩
  | none =>
    cases hfind : fs.find? sources e with
    | some found =>
      simp only [hfind] at h
      cases h
      exact Or.inl ⟨rfl, Or.inr rfl⟩
    | none =>
      simp only [hfind] at h
      obtain ⟨f, hf, h⟩ := bind_eq_ok.mp h
      cases h
      exact Or.inr ⟨f, hf, rfl, rfl⟩

/-- Clauses leave the fields that are there in front, and add hidden ones for their expressions behind. -/
theorem resolveAll_append {clause : String} {es : List Expr} {fs fs' : Fields} {slots : List Nat}
    (h : resolveAll fs sources clause es = .ok (slots, fs')) :
    ∃ added, fs' = fs ++ added ∧ ∀ f ∈ added, ∃ e ∈ es, hidden sources clause e = .ok f := by
  induction es generalizing fs slots with
  | nil =>
    cases h
    exact ⟨[], (List.append_nil _).symm, by simp⟩
  | cons e es ih =>
    unfold resolveAll at h
    obtain ⟨⟨slot, gs⟩, hgs, h⟩ := bind_eq_ok.mp h
    obtain ⟨⟨others, hs⟩, hhs, h⟩ := bind_eq_ok.mp h
    cases h
    obtain ⟨added, rfl, hadded⟩ := ih hhs
    have hlater : ∀ f ∈ added, ∃ e' ∈ e :: es, hidden sources clause e' = .ok f := by
      intro f hf
      obtain ⟨e', he', hmade⟩ := hadded f hf
      exact ⟨e', List.mem_cons_of_mem e he', hmade⟩
    rcases resolve_cases hgs with ⟨rfl, _⟩ | ⟨g, hg, rfl, _⟩
    · exact ⟨added, rfl, hlater⟩
    · refine ⟨g :: added, List.append_assoc fs [g] added, ?_⟩
      exact List.forall_mem_cons.mpr ⟨⟨e, List.mem_cons_self, hg⟩, hlater⟩

theorem resolveAll_length {clause : String} {es : List Expr} {fs fs' : Fields} {slots : List Nat}
    (h : resolveAll fs sources clause es = .ok (slots, fs')) : slots.length = es.length := by
  induction es generalizing fs slots with
  | nil =>
    cases h
    rfl
  | cons e es ih =>
    unfold resolveAll at h
    obtain ⟨⟨slot, gs⟩, _, h⟩ := bind_eq_ok.mp h
    obtain ⟨⟨others, hs⟩, hhs, h⟩ := bind_eq_ok.mp h
    cases h
    exact congrArg (· + 1) (ih hhs)

end Fields

section Layouts

variable {sources : List Table} {s : Statement} {plan : Layout}

/-- Planning starts with the fields of the select list and resolves the clauses one after the other. -/
theorem layout_steps (h : layout sources s = .ok plan) :
    ∃ selected fs₁ fs₂ : Fields, ∃ havingKeys slots : List Nat,
      Fields.ofSelect sources s.items = .ok selected ∧
      selected.resolveAll sources "GROUP BY" s.groupBy = .ok (plan.groupKeys, fs₁) ∧
      fs₁.resolveAll sources "HAVING" ((s.having.map groupParts).getD []) = .ok (havingKeys, fs₂) ∧
      fs₂.resolveAll sources "ORDER BY" (s.orderBy.map OrderItem.expr) = .ok (slots, plan.fields) ∧
      plan.orderKeys = slots.zip (s.orderBy.map OrderItem.direction) := by
  unfold layout at h
  obtain ⟨selected, hselected, h⟩ := bind_eq_ok.mp h
  obtain ⟨⟨groupKeys, fs₁⟩, h₁, h⟩ := bind_eq_ok.mp h
  obtain ⟨⟨havingKeys, fs₂⟩, h₂, h⟩ := bind_eq_ok.mp h
  obtain ⟨⟨slots, fs₃⟩, h₃, h⟩ := bind_eq_ok.mp h
  cases h
  exact ⟨selected, fs₁, fs₂, havingKeys, slots, hselected, h₁, h₂, h₃, rfl⟩

/-- A plan has a slot for each key, and no order where none is asked for. -/
theorem layout_keys (h : layout sources s = .ok plan) :
    plan.groupKeys.length = s.groupBy.length ∧ (s.orderBy = [] → plan.orderKeys = []) := by
  obtain ⟨_, _, _, _, slots, _, hgroups, _, _, horder⟩ := layout_steps h
  refine ⟨Fields.resolveAll_length hgroups, ?_⟩
  intro hnone
  rw [horder, hnone, List.map_nil, List.zip_nil_right]

theorem layout_groupKeys_isEmpty (h : layout sources s = .ok plan) (hgroups : s.groupBy ≠ []) :
    plan.groupKeys.isEmpty = false := by
  rw [List.isEmpty_eq_false_iff, ne_eq, ← List.length_eq_zero_iff, (layout_keys h).1,
    List.length_eq_zero_iff]
  exact hgroups

/-- The expressions of the clauses that may need hidden fields. -/
def Statement.clauseExprs (s : Statement) : List Expr :=
  s.groupBy ++ ((s.having.map groupParts).getD [] ++ s.orderBy.map OrderItem.expr)

theorem mem_clauseExprs {e : Expr} : e ∈ s.clauseExprs ↔
    e ∈ s.groupBy ∨ (∃ c, s.having = some c ∧ e ∈ groupParts c) ∨ ∃ o ∈ s.orderBy, o.expr = e := by
  unfold Statement.clauseExprs
  rw [List.mem_append, List.mem_append, List.mem_map]
  cases s.having <;> simp

/-- Behind the fields of the select list stand hidden ones, each for an expression of a clause. -/
theorem layout_append (h : layout sources s = .ok plan) :
    ∃ selected added, Fields.ofSelect sources s.items = .ok selected ∧ plan.fields = selected ++ added ∧
      ∀ f ∈ added, ∃ clause, ∃ e ∈ s.clauseExprs, Fields.hidden sources clause e = .ok f := by
  obtain ⟨selected, fs₁, fs₂, _, _, hselected, h₁, h₂, h₃, _⟩ := layout_steps h
  obtain ⟨forGroups, rfl, hgroups⟩ := Fields.resolveAll_append h₁
  obtain ⟨forHaving, rfl, hhaving⟩ := Fields.resolveAll_append h₂
  obtain ⟨forOrder, hfields, horder⟩ := Fields.resolveAll_append h₃
  refine ⟨selected, forGroups ++ (forHaving ++ forOrder), hselected, ?_, ?_⟩
  · simp only [hfields, List.append_assoc]
  · unfold Statement.clauseExprs
    intro f hf
    rcases List.mem_append.mp hf with hf | hf
    · obtain ⟨e, he, hmade⟩ := hgroups f hf
      exact ⟨_, e, List.mem_append_left _ he, hmade⟩
    · rcases List.mem_append.mp hf with hf | hf
      · obtain ⟨e, he, hmade⟩ := hhaving f hf
        exact ⟨_, e, List.mem_append_right _ (List.mem_append_left _ he), hmade⟩
      · obtain ⟨e, he, hmade⟩ := horder f hf
        exact ⟨_, e, List.mem_append_right _ (List.mem_append_right _ he), hmade⟩

theorem mem_layout (h : layout sources s = .ok plan) {f : Field} (hf : f ∈ plan.fields) :
    (∃ item ∈ s.items, ∃ fs, Fields.ofItem sources item = .ok fs ∧ f ∈ fs) ∨
      ∃ clause, ∃ e ∈ s.clauseExprs, Fields.hidden sources clause e = .ok f := by
  obtain ⟨selected, added, hselected, hfields, hadded⟩ := layout_append h
  rw [hfields] at hf
  exact (List.mem_append.mp hf).imp (Fields.mem_ofSelect hselected) (hadded f)

end Layouts

end GridQuery
