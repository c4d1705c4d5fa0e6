import GridQuery.Proofs.Nested
import GridQuery.Proofs.Runs

/-!
Spellings of columns. A schema answers with the first column that took a spelling, so the schema of two
tables side by side answers as the left one does, and where that has nothing, as the right one does
behind the columns of the left. The schemas that tables are given name columns of the table only.
-/

namespace GridQuery
set_option autoImplicit false

namespace Schema

/-- Every spelling is a text, and the column it stands for is one of the first `width`. -/
structure Names (s : Schema) (width : Nat) : Prop where
  ne_empty : ∀ p ∈ s.spellings, p.1 ≠ ""
  lt_width : ∀ p ∈ s.spellings, p.2 < width

theorem Names.empty (width : Nat) : Names Schema.empty width where
  ne_empty := by simp [Schema.empty]
  lt_width := by simp [Schema.empty]

theorem Names.insert {s : Schema} {width : Nat} (h : s.Names width) (spelling : String)
    {column : Nat} (hcolumn : column < width) : (s.insert spelling column).Names width := by
  unfold Schema.insert
  split
  · exact h
  · rename_i hnew
    constructor
    · intro p hp
      rcases List.mem_append.mp hp with hp | hp
      · exact h.ne_empty p hp
      · rw [List.mem_singleton.mp hp]
        exact fun he => hnew (Or.inl he)
    · intro p hp
      rcases List.mem_append.mp hp with hp | hp
      · exact h.lt_width p hp
      · rw [List.mem_singleton.mp hp]
        exact hcolumn

theorem Names.lt_of_column? {s : Schema} {width : Nat} (h : s.Names width) {name : String}
    {column : Nat} (hcolumn : s.column? name = some column) : column < width :=
  h.lt_width _ (mem_of_lookup hcolumn)

theorem Names.addSpellings {s : Schema} {width : Nat} (h : s.Names width) (table : String)
    (alias? : Option String) (title : String) {column : Nat} (hcolumn : column < width) :
    (s.addSpellings table alias? title column).Names width := by
  have hbare : (s.insert title column).Names width := h.insert title hcolumn
  have htable : (if table = "" then s.insert title column
      else (s.insert title column).insert (normalize table ++ "." ++ title) column).Names width := by
    split
    · exact hbare
    · exact hbare.insert _ hcolumn
  cases alias? with
  | none => exact htable
  | some a => exact htable.insert _ hcolumn

theorem Names.foldl {α : Type} {width : Nat} {step : Schema → α → Schema} {items : List α}
    {s : Schema} (h : s.Names width)
    (hstep : ∀ a ∈ items, ∀ s : Schema, s.Names width → (step s a).Names width) :
    (items.foldl step s).Names width := by
  induction items generalizing s with
  | nil => exact h
  | cons a items ih =>
    apply ih
    · exact hstep a List.mem_cons_self s h
    · intro b hb
      exact hstep b (List.mem_cons_of_mem a hb)

theorem lt_of_mem_zipIdx {titles : List String} {t : String × Nat} (h : t ∈ titles.zipIdx) :
    t.2 < titles.length := by
  have hlt := List.snd_lt_of_mem_zipIdx h
  omega

/-- The schema of a table made by a query, or named in one, names the columns that have titles. -/
theorem lenient_names (table : String) (alias? : Option String) (titles : List String) :
    (lenient table alias? titles).Names titles.length := by
  unfold lenient
  apply Names.foldl
  · apply Names.foldl (Names.empty _)
    intro t ht s hs
    exact hs.addSpellings _ _ _ (lt_of_mem_zipIdx ht)
  · intro t ht s hs
    split
    · exact hs.addSpellings _ _ _ (lt_of_mem_zipIdx ht)
    · exact hs

theorem find?_insert (s : Schema) {spelling : String} (h : spelling ≠ "") (column : Nat)
    (name : String) : (s.insert spelling column).find? name =
      (s.find? name).or (if name = spelling then some column else none) := by
  have hone : ([(spelling, column)] : List (String × Nat)).lookup name =
      if name = spelling then some column else none := by
    by_cases he : name = spelling
    · rw [he, List.lookup_cons_self, if_pos rfl]
    · have hbeq : (name == spelling) = false := by simpa using he
      rw [List.lookup_cons, hbeq, if_neg he]
      rfl
  unfold insert
  split
  · rename_i htaken
    have hsome : (s.find? spelling).isSome := htaken.resolve_left h
    obtain ⟨old, hold⟩ := Option.isSome_iff_exists.mp hsome
    by_cases he : name = spelling
    · rw [he, hold]
      rfl
    · rw [if_neg he, Option.or_none]
  · unfold find?
    rw [List.lookup_append, hone]

/-- Side by side, the left schema answers first, and the right one behind its columns. -/
theorem find?_merge (left : Schema) {right : Schema} (h : ∀ p ∈ right.spellings, p.1 ≠ "")
    (offset : Nat) (name : String) : (left.merge right offset).find? name =
      (left.find? name).or ((right.find? name).map fun c => c + offset) := by
  obtain ⟨spellings⟩ := right
  induction spellings generalizing left with
  | nil =>
    change left.find? name = (left.find? name).or none
    rw [Option.or_none]
  | cons p spellings ih =>
    have hrest := ih (left.insert p.1 (p.2 + offset)) fun q hq => h q (List.mem_cons_of_mem p hq)
    have hfirst := find?_insert left (h p List.mem_cons_self) (p.2 + offset) name
    change ((left.insert p.1 (p.2 + offset)).merge ⟨spellings⟩ offset).find? name = _
    rw [hrest, hfirst, Option.or_assoc]
    congr 1
    unfold find?
    by_cases he : name = p.1
    · rw [if_pos he, he, List.lookup_cons_self]
      rfl
    · have hbeq : (name == p.1) = false := by simpa using he
      rw [if_neg he, List.lookup_cons, hbeq]
      rfl

end Schema

namespace Table

/-- The spellings of a table stand for columns of it. -/
def Named (t : Table) : Prop :=
  t.schema.Names t.width

theorem withAlias_named (t : Table) (alias? : Option String) : (t.withAlias alias?).Named := by
  unfold Named withAlias width
  exact Schema.lenient_names t.name alias? t.titles

theorem derived_named (name : String) (titles : List String) (rows : List Row) :
    (derived name titles rows).Named := by
  unfold Named derived withSchema width
  exact Schema.lenient_names name none titles

end Table

/-- Whatever a statement reads from, its spellings stand for columns of it. -/
theorem sourceTable_named {σ : Type} {world : World} {runner : Runner σ} {source : Source}
    {st st' : σ} {t : Table} (h : (sourceTable world runner source).Gives st t st') : t.Named := by
  cases source with
  | table name alias? =>
    obtain ⟨stored, mid, _, h⟩ := Run.gives_bind.mp h
    rw [(Run.gives_pure.mp h).1]
    exact stored.withAlias_named alias?
  | query q alias? =>
    obtain ⟨r, mid, _, h⟩ := Run.gives_bind.mp h
    rw [(Run.gives_pure.mp h).1]
    exact Table.derived_named _ _ _

end GridQuery
