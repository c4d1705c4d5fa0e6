import GridQuery.Proofs.Planning
import GridQuery.Proofs.Spellings

/-!
The fields of a statement. Those of the select list come first; resolving an expression of a clause
gives the slot of a field that is there, or adds one hidden field at the end and gives its slot. So
slots stay good while further clauses are resolved, and every column field is a column of a source,
not yet moved by a join.
-/

namespace GridQuery
set_option autoImplicit false

/-- A column is looked up in the sources after a first one as in all of them, one further on. -/
theorem resolveFrom_succ (first : Nat) (spelling : String) (sources : List Table) :
    resolveFrom (first + 1) spelling sources =
      (resolveFrom first spelling sources).map fun p => (p.1 + 1, p.2) := by
  induction sources generalizing first with
  | nil => rfl
  | cons t sources ih =>
    unfold resolveFrom
    cases t.column? spelling with
    | some c => rfl
    | none => exact ih (first + 1)

theorem resolveFrom_eq_some {spelling : String} {sources : List Table} {s c : Nat}
    (h : resolveFrom 0 spelling sources = some (s, c)) :
    ∃ source, sources[s]? = some source ∧ source.column? spelling = some c := by
  induction sources generalizing s with
  | nil => cases h
  | cons t sources ih =>
    unfold resolveFrom at h
    cases hcolumn : t.column? spelling with
    | some column =>
      rw [hcolumn] at h
      cases h
      exact ⟨t, rfl, hcolumn⟩
    | none =>
      rw [hcolumn] at h
      simp only [resolveFrom_succ] at h
      obtain ⟨⟨s', c'⟩, hrest, he⟩ := Option.map_eq_some_iff.mp h
      cases he
      obtain ⟨source, hsource, hknown⟩ := ih hrest
      exact ⟨source, hsource, hknown⟩

namespace Field

/-- A field that no join has moved; one of a column is of a source that is there. -/
structure Fresh (sources : List Table) (f : Field) : Prop where
  derived_eq : f.derived = none
  column : ∀ {s c : Nat}, f.kind = .column s c →
    ∃ source, sources[s]? = some source ∧ (source.Named → c < source.width)

variable {sources : List Table}

theorem Fresh.congr {f g : Field} (h : f.Fresh sources) (hkind : g.kind = f.kind)
    (hderived : g.derived = f.derived) : g.Fresh sources where
  derived_eq := hderived.trans h.derived_eq
  column := fun hcolumn => h.column (hkind.symm.trans hcolumn)

theorem ofValue_column {title : String} {table : Option String} {name : String} {f : Field}
    (h : ofValue sources title (.column table name) = .ok f) :
    ∃ s c, resolveColumn sources table name = some (s, c) ∧ f.kind = .column s c ∧
      f.derived = none := by
  simp only [ofValue] at h
  cases hresolve : resolveColumn sources table name with
  | none =>
    rw [hresolve] at h
    cases h
  | some p =>
    obtain ⟨s, c⟩ := p
    rw [hresolve] at h
    cases h
    refine ⟨s, c, rfl, ?_, ?_⟩
    · split <;> simp [ofKind]
    · split <;> simp [ofKind]

theorem ofValue_fresh {title : String} {e : Expr} {f : Field} (h : ofValue sources title e = .ok f) :
    f.Fresh sources := by
  cases e with
  | column table name =>
    obtain ⟨s, c, hresolve, hkind, hderived⟩ := ofValue_column h
    obtain ⟨source, hsource, hcolumn⟩ := resolveFrom_eq_some hresolve
    constructor
    · exact hderived
    · intro s' c' hkind'
      rw [hkind] at hkind'
      cases hkind'
      exact ⟨source, hsource, fun hnamed => hnamed.lt_of_column? hcolumn⟩
  | star qualifier =>
    cases qualifier with
    | none =>
      cases h
      exact ⟨rfl, fun hkind => by cases hkind⟩
    | some q => cases h
  | subquery q =>
    cases h
    exact ⟨rfl, fun hkind => by cases hkind⟩
  | literal | bind | binary | unary | call | case | ite | list | paren =>
    simp only [ofValue] at h
    split at h
    · cases h
    · cases h
      exact ⟨rfl, fun hkind => by cases hkind⟩

theorem ofExpr_fresh {title : String} {e : Expr} {f : Field} (h : ofExpr sources title e = .ok f) :
    f.Fresh sources := by
  unfold ofExpr at h
  split at h
  · exact ofValue_fresh h
  · split at h
    · obtain ⟨g, hg, h⟩ := bind_eq_ok.mp h
      cases h
      exact (ofValue_fresh hg).congr rfl rfl
    · cases h

end Field

namespace Fields

variable {sources : List Table}

theorem ofSource_fresh {s : Nat} {source : Table} (hsource : sources[s]? = some source)
    {f : Field} (hf : f ∈ ofSource s source) : f.Fresh sources := by
  obtain ⟨t, ht, rfl⟩ := List.mem_map.mp hf
  have hcolumn : t.2 < source.width := Schema.lt_of_mem_zipIdx ht
  constructor
  · rw [Field.spellColumn_derived]
    rfl
  · intro s' c' hkind
    rw [Field.spellColumn_kind] at hkind
    cases hkind
    exact ⟨source, hsource, fun _ => hcolumn⟩

theorem ofItem_fresh {item : SelectItem} {fs : Fields} (h : ofItem sources item = .ok fs) {f : Field}
    (hf : f ∈ fs) : f.Fresh sources := by
  rcases mem_ofItem h hf with ⟨s, source, hsource, hf⟩ | ⟨g, hg, he⟩
  · exact ofSource_fresh hsource hf
  · rw [he]
    exact (Field.ofExpr_fresh hg).congr (g.spell_kind _) (g.spell_derived _)

theorem hidden_fresh {clause : String} {e : Expr} {f : Field} (h : hidden sources clause e = .ok f) :
    f.Fresh sources := by
  obtain ⟨g, hg, rfl⟩ := hidden_eq_ok h
  exact (Field.ofExpr_fresh hg).congr rfl rfl

/-- An ordinal is the number of a shown field, so it gives the slot of one. -/
theorem lt_selectedCount_of_ordinal? {fs : Fields} {clause : String} {e : Expr} {slot : Nat}
    (h : fs.ordinal? clause e = .ok (some slot)) : slot < fs.selectedCount := by
  unfold ordinal? at h
  split at h
  · split at h
    · rename_i negative m exponent _
      simp only at h
      split at h
      · rename_i hin
        simp only [Bool.and_eq_true, decide_eq_true_eq] at hin
        cases h
        omega
      · cases h
    · cases h
  · cases h

theorem lt_of_ordinal? {fs : Fields} {clause : String} {e : Expr} {slot : Nat}
    (h : fs.ordinal? clause e = .ok (some slot)) : slot < fs.length :=
  Nat.lt_of_lt_of_le (lt_selectedCount_of_ordinal? h) (List.length_filter_le _ _)

theorem lt_of_findSpelling? {fs : Fields} {spelling : String} {slot : Nat}
    (h : fs.findSpelling? spelling = some slot) : slot < fs.length :=
  (List.findIdx?_eq_some_iff_getElem.mp h).1

theorem lt_of_find? {fs : Fields} : ∀ {e : Expr} {slot : Nat}, fs.find? sources e = some slot →
    slot < fs.length
  | e, slot, h => by
    unfold find? at h
    split at h
    · rename_i hspelling
      cases h
      exact lt_of_findSpelling? hspelling
    · split at h
      · split at h
        · rename_i hname
          cases h
          split at hname
          · exact lt_of_findSpelling? hname
          · cases hname
        · obtain ⟨p, _, hp⟩ := Option.bind_eq_some_iff.mp h
          exact (List.findIdx?_eq_some_iff_getElem.mp hp).1
      · exact lt_of_find? h
      · cases h

/-- Resolving an expression gives a slot that is there then. -/
theorem resolve_eq_ok {fs fs' : Fields} {clause : String} {e : Expr} {slot : Nat}
    (h : fs.resolve sources clause e = .ok (slot, fs')) :
    (fs' = fs ∧ slot < fs.length) ∨
      ∃ f, hidden sources clause e = .ok f ∧ fs' = fs ++ [f] ∧ slot = fs.length := by
  rcases resolve_cases h with ⟨rfl, hordinal | hfound⟩ | hnew
  · exact Or.inl ⟨rfl, lt_of_ordinal? hordinal⟩
  · exact Or.inl ⟨rfl, lt_of_find? hfound⟩
  · exact Or.inr hnew

/-- The fields that a select list and the expressions of clauses lead to. -/
inductive Made (sources : List Table) : Fields → Prop where
  | ofSelect {items : List SelectItem} {fs : Fields} :
    ofSelect sources items = .ok fs → Made sources fs
  | resolve {fs fs' : Fields} {clause : String} {e : Expr} {slot : Nat} : Made sources fs →
    fs.resolve sources clause e = .ok (slot, fs') → Made sources fs'

theorem Made.fresh {fs : Fields} (h : Made sources fs) : ∀ f ∈ fs, f.Fresh sources := by
  induction h with
  | ofSelect hselect =>
    intro f hf
    obtain ⟨item, _, gs, hgs, hf⟩ := mem_ofSelect hselect hf
    exact ofItem_fresh hgs hf
  | resolve _ hresolve ih =>
    rcases resolve_eq_ok hresolve with ⟨rfl, _⟩ | ⟨added, hadded, rfl, _⟩
    · exact ih
    · intro f hf
      rcases List.mem_append.mp hf with hf | hf
      · exact ih f hf
      · rw [List.mem_singleton.mp hf]
        exact hidden_fresh hadded

theorem resolveAll_eq_ok {clause : String} {es : List Expr} {fs fs' : Fields} {slots : List Nat}
    (h : resolveAll fs sources clause es = .ok (slots, fs')) :
    (Made sources fs → Made sources fs') ∧ fs.length ≤ fs'.length ∧ ∀ slot ∈ slots, slot < fs'.length := by
  induction es generalizing fs slots with
  | nil =>
    cases h
    exact ⟨id, Nat.le_refl _, by simp⟩
  | cons e es ih =>
    unfold resolveAll at h
    obtain ⟨⟨slot, gs⟩, hgs, h⟩ := bind_eq_ok.mp h
    obtain ⟨⟨others, hs⟩, hhs, h⟩ := bind_eq_ok.mp h
    cases h
    obtain ⟨hmade, hlength, hothers⟩ := ih hhs
    have hfirst : fs.length ≤ gs.length ∧ slot < gs.length := by
      rcases resolve_eq_ok hgs with ⟨rfl, hslot⟩ | ⟨f, _, rfl, rfl⟩
      · exact ⟨Nat.le_refl _, hslot⟩
      · simp
    refine ⟨fun hfs => hmade (.resolve hfs hgs), by omega, ?_⟩
    intro k hk
    rcases List.mem_cons.mp hk with rfl | hk
    · omega
    · exact hothers k hk

end Fields

/-- The fields of a statement are made from its sources, and its grouping and its order refer to slots
that are there. -/
theorem layout_eq_ok {sources : List Table} {s : Statement} {plan : Layout}
    (h : layout sources s = .ok plan) : Fields.Made sources plan.fields ∧
      (∀ slot ∈ plan.groupKeys, slot < plan.fields.length) ∧
      ∀ key ∈ plan.orderKeys, key.1 < plan.fields.length := by
  obtain ⟨selected, fs₁, fs₂, _, slots, hselected, h₁, h₂, h₃, hkeys⟩ := layout_steps h
  obtain ⟨hmade₁, _, hgroup⟩ := Fields.resolveAll_eq_ok h₁
  obtain ⟨hmade₂, hlength₂, _⟩ := Fields.resolveAll_eq_ok h₂
  obtain ⟨hmade₃, hlength₃, horder⟩ := Fields.resolveAll_eq_ok h₃
  refine ⟨hmade₃ (hmade₂ (hmade₁ (.ofSelect hselected))), ?_, ?_⟩
  · intro slot hslot
    have hlt := hgroup slot hslot
    omega
  · intro key hkey
    rw [hkeys] at hkey
    exact horder key.1 (List.of_mem_zip hkey).1

end GridQuery
