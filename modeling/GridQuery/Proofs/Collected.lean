import GridQuery.Proofs.Expansion

/-!
The values that a pivot collects. They are the cells of the pivot expression on the rows that are left, the
first of those that sort alike, and of these the first with each text. Counting takes another equality, that
of `=`. Where the two relate the same cells, each row has one of the values.
-/

namespace GridQuery
set_option autoImplicit false

theorem keepFirst_map {α β : Type} (text : β → String) (g : α → β) (items : List α) (seen : List String) :
    keepFirst text seen (items.map g) = (keepFirst (fun a => text (g a)) seen items).map g := by
  induction items generalizing seen with
  | nil => rfl
  | cons a items ih =>
    rw [List.map_cons, keepFirst, keepFirst]
    split
    · exact ih seen
    · rw [List.map_cons, ih]

/-- The items that are kept have other texts than one another. -/
theorem keepFirst_pairwise {α : Type} (text : α → String) (items : List α) (seen : List String) :
    (∀ a ∈ keepFirst text seen items, text a ∉ seen) ∧
      (keepFirst text seen items).Pairwise fun a b => text a ≠ text b := by
  induction items generalizing seen with
  | nil => exact ⟨by simp [keepFirst], .nil⟩
  | cons a items ih =>
    rw [keepFirst]
    split
    · exact ih seen
    · rename_i hnew
      obtain ⟨hfresh, hpairwise⟩ := ih (text a :: seen)
      refine ⟨?_, .cons ?_ hpairwise⟩
      · intro b hb
        rcases List.mem_cons.mp hb with rfl | hb
        · exact hnew
        · exact fun hin => hfresh b hb (List.mem_cons_of_mem _ hin)
      · intro b hb hsame
        exact hfresh b hb (hsame ▸ List.mem_cons_self)

/-- One item of a list has a property if some item has it and no two have it. -/
theorem countP_eq_one {α : Type} {p : α → Bool} {as : List α} (hsome : ∃ a ∈ as, p a = true)
    (hone : as.Pairwise fun a b => p a = true → p b = false) : as.countP p = 1 := by
  induction as with
  | nil =>
    obtain ⟨a, ha, _⟩ := hsome
    cases ha
  | cons a as ih =>
    obtain ⟨hfirst, hrest⟩ := List.pairwise_cons.mp hone
    cases hp : p a with
    | true =>
      have hnone : as.countP p = 0 := List.countP_eq_zero.mpr fun b hb => by simp [hfirst b hb hp]
      rw [List.countP_cons_of_pos hp, hnone]
    | false =>
      obtain ⟨b, hb, hpb⟩ := hsome
      have hin : b ∈ as := by
        rcases List.mem_cons.mp hb with rfl | hb
        · rw [hp] at hpb
          cases hpb
        · exact hb
      rw [List.countP_cons_of_neg (by simp [hp]), ih ⟨b, hin, hpb⟩ hrest]

section Cells

variable {c : Nat → Cell} {ids : List Nat}

/-- The rows of cells that sort alike. -/
def alikeRows (c : Nat → Cell) (ids : List Nat) : List (List Nat) :=
  rowGroups [0] (fun i => [c i]) ids

/-- Of the cells that sort alike the first one, and of these the first with each text. -/
def collectedCells (c : Nat → Cell) (ids : List Nat) : List Cell :=
  keepFirst Cell.key [] ((alikeRows c ids).map fun group => c (group.headD 0))

theorem compareKeys_single (a b : Cell) : compareKeys [a] [b] [0] = a.sortOrder b := by
  rw [compareKeys, compareKeys, Ordering.then_eq]
  rfl

theorem headD_mem {group : List Nat} (h : group ≠ []) : group.headD 0 ∈ group := by
  obtain ⟨i, rest, rfl⟩ := List.exists_cons_of_ne_nil h
  exact List.mem_cons_self

/-- The rows of a group sort alike, and the groups ascend. -/
theorem alikeRows_classes :
    (∀ group ∈ alikeRows c ids, ∀ i ∈ group, ∀ j ∈ group, (c i).sortOrder (c j) = .eq) ∧
      (alikeRows c ids).Pairwise fun a b => ∀ i ∈ a, ∀ j ∈ b, (c i).sortOrder (c j) = .lt := by
  have hkeyed : ∀ row ∈ ids.map fun i => [c i], Keyed [0] row := by
    intro row hrow
    obtain ⟨i, _, rfl⟩ := List.mem_map.mp hrow
    exact fun k hk => by simpa using hk
  have hsortedKeyed : ∀ row ∈ sortByKeys [0] (ids.map fun i => [c i]), Keyed [0] row :=
    fun row hrow => hkeyed row ((sortByKeys_perm [0] _).subset hrow)
  have hruns : (alikeRows c ids).map (List.map fun i => [c i]) =
      runs [0] (sortByKeys [0] (ids.map fun i => [c i])) := map_rowGroups ids
  constructor
  · intro group hgroup i hi j hj
    have hrun : group.map (fun i => [c i]) ∈ runs [0] (sortByKeys [0] (ids.map fun i => [c i])) :=
      hruns ▸ List.mem_map_of_mem hgroup
    have hcell {k : Nat} (hk : k ∈ group) : [c k] ∈ group.map fun i => [c i] := List.mem_map_of_mem hk
    have hkeys {k : Nat} (hk : k ∈ group) : Keyed [0] [c k] :=
      hsortedKeyed _ (mem_of_mem_runs hrun (hcell hk))
    rw [← compareKeys_single, ← sameKeys_eq_true (hkeys hi) (hkeys hj)]
    exact sameKeys_of_mem_run hsortedKeyed hrun (hcell hi) (hcell hj)
  · have hascend := runs_pairwise hsortedKeyed (sortByKeys_pairwise hkeyed)
    rw [← hruns, List.pairwise_map] at hascend
    apply hascend.imp
    intro a b hab i hi j hj
    rw [← compareKeys_single]
    exact hab [c i] (List.mem_map_of_mem hi) [c j] (List.mem_map_of_mem hj)

/-- What stands first in a group. -/
theorem mem_heads {v : Cell} (h : v ∈ (alikeRows c ids).map fun group => c (group.headD 0)) :
    ∃ i ∈ ids, v = c i := by
  obtain ⟨group, hgroup, rfl⟩ := List.mem_map.mp h
  exact ⟨_, mem_of_mem_rowGroups hgroup (headD_mem (ne_nil_of_mem_rowGroups hgroup)), rfl⟩

theorem mem_of_mem_collected {v : Cell} (h : v ∈ collectedCells c ids) : ∃ i ∈ ids, v = c i :=
  mem_heads ((keepFirst_sublist _ _ _).subset h)

/-- Every cell sorts like one that has the text of a value. -/
theorem exists_collected {i : Nat} (hi : i ∈ ids) :
    ∃ j ∈ ids, (c i).sortOrder (c j) = .eq ∧ ∃ v ∈ collectedCells c ids, v.key = (c j).key := by
  have hflat : i ∈ (alikeRows c ids).flatten := (rowGroups_perm [0] _ ids).mem_iff.mpr hi
  obtain ⟨group, hgroup, hin⟩ := List.mem_flatten.mp hflat
  have hhead := headD_mem (ne_nil_of_mem_rowGroups hgroup)
  refine ⟨group.headD 0, mem_of_mem_rowGroups hgroup hhead,
    alikeRows_classes.1 group hgroup i hin _ hhead, ?_⟩
  have hcell : c (group.headD 0) ∈ (alikeRows c ids).map fun group => c (group.headD 0) :=
    List.mem_map_of_mem hgroup
  exact (keepFirst_represents Cell.key [] hcell).resolve_left List.not_mem_nil

/-- No two values sort alike or have one text. -/
theorem collected_pairwise :
    (collectedCells c ids).Pairwise fun v w => v.sortOrder w ≠ .eq ∧ v.key ≠ w.key := by
  have hheads : ((alikeRows c ids).map fun group => c (group.headD 0)).Pairwise fun v w =>
      v.sortOrder w ≠ .eq := by
    rw [List.pairwise_map]
    apply alikeRows_classes.2.imp_of_mem
    intro a b ha hb hab
    rw [hab _ (headD_mem (ne_nil_of_mem_rowGroups ha)) _ (headD_mem (ne_nil_of_mem_rowGroups hb))]
    decide
  exact (hheads.sublist (keepFirst_sublist _ _ _)).and (keepFirst_pairwise Cell.key _ []).2

/-- On some cells `=` is an equivalence, and holds of two of them exactly if they sort alike or have one
text. -/
structure EqualityCollects (cells : List Cell) : Prop where
  same : ∀ a ∈ cells, ∀ b ∈ cells, a.looseEq b = true ↔ a.sortOrder b = .eq ∨ a.key = b.key
  trans : ∀ a ∈ cells, ∀ b ∈ cells, ∀ d ∈ cells, a.looseEq b = true → b.looseEq d = true →
    a.looseEq d = true

/-- Then every cell equals one of the values. -/
theorem countP_collected (h : EqualityCollects (ids.map c)) {i : Nat} (hi : i ∈ ids) :
    (collectedCells c ids).countP (fun v => (c i).looseEq v) = 1 := by
  have hcell {j : Nat} (hj : j ∈ ids) : c j ∈ ids.map c := List.mem_map_of_mem hj
  have hvalue {v : Cell} (hv : v ∈ collectedCells c ids) : v ∈ ids.map c := by
    obtain ⟨j, hj, rfl⟩ := mem_of_mem_collected hv
    exact hcell hj
  have hsymm {a b : Cell} (ha : a ∈ ids.map c) (hb : b ∈ ids.map c) (hab : a.looseEq b = true) :
      b.looseEq a = true := by
    rw [h.same b hb a ha]
    apply ((h.same a ha b hb).mp hab).imp _ Eq.symm
    intro hsort
    rw [Cell.sortOrder_transCmp.eq_swap, hsort]
    rfl
  obtain ⟨j, hj, hsort, v, hv, hkey⟩ := exists_collected hi
  have hij : (c i).looseEq (c j) = true := (h.same _ (hcell hi) _ (hcell hj)).mpr (Or.inl hsort)
  have hjv : (c j).looseEq v = true := (h.same _ (hcell hj) v (hvalue hv)).mpr (Or.inr hkey.symm)
  have hiv : (c i).looseEq v = true := h.trans _ (hcell hi) _ (hcell hj) v (hvalue hv) hij hjv
  refine countP_eq_one ⟨v, hv, hiv⟩ ?_
  -- two values that the cell equals would equal one another, and no two values do
  apply collected_pairwise.imp_of_mem
  intro v w hv hw hne hiv
  rw [Bool.eq_false_iff]
  intro hiw
  have hvi := hsymm (hcell hi) (hvalue hv) hiv
  have hvw := h.trans v (hvalue hv) _ (hcell hi) w (hvalue hw) hvi hiw
  exact ((h.same v (hvalue hv) w (hvalue hw)).mp hvw).elim hne.1 hne.2

end Cells

section Planned

variable {sources : List Table} {s : Statement} {pivot : Expr}

/-- Of some fields the first one alone is shown, and none is an aggregate. -/
def OneShown (fields : Fields) : Prop :=
  ∃ n, (fields.map fun f => (f.temporary, f.aggregate)) = (false, none) :: List.replicate n (true, none)

theorem OneShown.of_unpointed {fields pointed : Fields} (h : OneShown fields)
    (hpointed : pointed.map Field.unpointed = fields.map Field.unpointed) : OneShown pointed := by
  obtain ⟨n, hn⟩ := h
  exact ⟨n, (map_eq_of_unpointed hpointed fun _ => rfl).trans hn⟩

theorem OneShown.counts {fields : Fields} (h : OneShown fields) :
    fields.selectedCount = 1 ∧ fields.hasAggregates = false ∧ plainSlots fields = [0] := by
  obtain ⟨n, hn⟩ := h
  obtain ⟨f, hidden, rfl, hf, hhidden⟩ := List.map_eq_cons_iff.mp hn
  obtain ⟨hshown, hplain⟩ := Prod.mk.inj hf
  have hall : ∀ g ∈ hidden, g.temporary = true ∧ g.aggregate = none := by
    intro g hg
    have hin : (g.temporary, g.aggregate) ∈ List.replicate n (true, none) :=
      hhidden ▸ List.mem_map_of_mem hg
    exact Prod.mk.inj (List.eq_of_mem_replicate hin)
  refine ⟨?_, ?_, ?_⟩
  · have hnone : (hidden.filter fun g => !g.temporary) = [] :=
      List.filter_eq_nil_iff.mpr fun g hg => by simp [(hall g hg).1]
    rw [Fields.selectedCount, List.filter_cons_of_pos (by simp [hshown]), hnone, List.length_singleton]
  · apply List.any_eq_false.mpr
    intro g hg
    rw [Field.isAggregate]
    rcases List.mem_cons.mp hg with rfl | hg
    · simp [hplain]
    · simp [(hall g hg).2]
  · have hnone : ((hidden.zipIdx 1).filter fun g => !g.1.temporary && !g.1.isAggregate) = [] := by
      apply List.filter_eq_nil_iff.mpr
      intro g hg
      simp [(hall g.1 (List.fst_mem_of_mem_zipIdx hg)).1]
    rw [plainSlots, List.zipIdx_cons, List.filter_cons_of_pos (by simp [hshown, Field.isAggregate, hplain]),
      hnone, List.map_singleton]

/-- What a field of an expression reads does not depend on its title. -/
theorem Field.ofValue_kind {title title' : String} {e : Expr} {f g : Field}
    (hf : ofValue sources title e = .ok f) (hg : ofValue sources title' e = .ok g) : f.kind = g.kind := by
  cases e with
  | column table name =>
    obtain ⟨s, c, hresolve, hkind, _⟩ := ofValue_column hf
    obtain ⟨s', c', hresolve', hkind', _⟩ := ofValue_column hg
    rw [hresolve] at hresolve'
    cases hresolve'
    rw [hkind, hkind']
  | star qualifier =>
    cases qualifier with
    | none =>
      cases hf
      cases hg
      rfl
    | some q => cases hf
  | subquery q =>
    cases hf
    cases hg
    rfl
  | literal | bind | binary | unary | call | case | ite | list | paren =>
    simp only [ofValue] at hf hg
    split at hf
    · cases hf
    · rename_i hplain
      rw [if_neg hplain] at hg
      cases hf
      cases hg
      rfl

/-- Planning the collection takes the fields of the pivot expression, and finds or adds one to order by. -/
theorem layout_pivotValues {plan : Layout} (h : layout sources (pivotValues s pivot) = .ok plan) :
    ∃ fields slot, Fields.ofItem sources ⟨pivot, pivot.text, none⟩ = .ok fields ∧
      fields.resolve sources "ORDER BY" pivot = .ok (slot, plan.fields) ∧ plan.groupKeys = [] := by
  obtain ⟨fields, fs₁, fs₂, havingKeys, slots, hselect, hgroups, hhaving, horder, _⟩ := layout_steps h
  obtain ⟨hkeys, rfl⟩ := Prod.mk.inj (Except.ok.inj hgroups)
  cases hhaving
  obtain ⟨⟨slot, fs₃⟩, hresolve, horder⟩ := bind_eq_ok.mp horder
  obtain ⟨⟨others, fs₄⟩, hrest, horder⟩ := bind_eq_ok.mp horder
  cases hrest
  obtain ⟨_, rfl⟩ := Prod.mk.inj (Except.ok.inj horder)
  exact ⟨fields, slot, Fields.ofSelect_singleton.symm.trans hselect, hresolve, hkeys.symm⟩

/-- The collection shows the field of the pivot expression; where ordering does not find it, the hidden field
that it adds reads the same. -/
theorem collecting_fields {fields more : Fields} {slot : Nat} (hplain : pivot.aggregate? = none)
    (hstar : ∀ qualifier, pivot ≠ .star qualifier)
    (hitem : Fields.ofItem sources ⟨pivot, pivot.text, none⟩ = .ok fields)
    (hresolve : fields.resolve sources "ORDER BY" pivot = .ok (slot, more)) :
    ∃ g, Field.ofValue sources pivot.text pivot = .ok g ∧ OneShown more ∧ ∀ f ∈ more, f.kind = g.kind := by
  obtain ⟨g, hg, rfl⟩ := Fields.ofItem_one hstar hitem
  rw [Field.ofExpr_plain hplain] at hg
  have hshown : g.temporary = false := (Field.ofValue_shown hg).2
  have hfolds : g.aggregate = none := Field.ofValue_aggregate hg
  refine ⟨g, hg, ?_⟩
  rcases Fields.resolve_eq_ok hresolve with ⟨hsame, _⟩ | ⟨added, hadded, hmore, _⟩
  · rw [hsame]
    refine ⟨⟨0, by simp [hshown, hfolds]⟩, ?_⟩
    intro f hf
    rw [List.mem_singleton.mp hf, Field.spell_kind]
  · obtain ⟨a, ha, hhidden⟩ := Fields.hidden_eq_ok hadded
    rw [Field.ofExpr_plain hplain] at ha
    have hsame := Field.ofValue_kind ha hg
    have hkind : added.kind = g.kind := by
      rw [hhidden]
      exact hsame
    rw [hmore]
    refine ⟨⟨1, by simp [hshown, hfolds, hhidden, Field.ofValue_aggregate ha]⟩, ?_⟩
    intro f hf
    rcases List.mem_append.mp hf with hf | hf
    · rw [List.mem_singleton.mp hf, Field.spell_kind]
    · rw [List.mem_singleton.mp hf, hkind]

end Planned

section Shown

variable {fields pointed : Fields} {cell : FieldKind → Nat → Cell} {kind : FieldKind}

theorem signature_singleton (a : Cell) : Row.signature [a] = a.key := by
  rw [Row.signature, List.map_singleton]
  exact String.intercalate_singleton

/-- The first field of a collection reads the cell, and shows it for a group. -/
theorem OneShown.first (hone : OneShown fields) (hkind : ∀ f ∈ fields, f.kind = kind) (i : Nat)
    (group : List Nat) : (fieldsRow fields cell i)[0]? = some (cell kind i) ∧
      (fields.map (groupCell cell group)).take 1 = [cell kind (group.headD 0)] := by
  obtain ⟨n, hn⟩ := hone
  obtain ⟨f, hidden, rfl, hf, _⟩ := List.map_eq_cons_iff.mp hn
  have hread : f.kind = kind := hkind f List.mem_cons_self
  have hplain : f.aggregate = none := (Prod.mk.inj hf).2
  constructor
  · rw [fieldsRow, List.map_cons, List.getElem?_cons_zero, hread]
  · rw [List.map_cons, List.take_succ_cons, List.take_zero, groupCell, hplain, hread]

/-- The shown column of a collection has the collected cells. -/
theorem column_collected (hone : OneShown fields)
    (hpointed : pointed.map Field.unpointed = fields.map Field.unpointed)
    (hkind : ∀ f ∈ fields, f.kind = kind) (orderKeys : List (Nat × Direction)) (titles : List String)
    (ids : List Nat) :
    ((⟨titles, cut pointed none (sortRows orderKeys (grouped pointed [] true
      (ids.map (fieldsRow fields cell))))⟩ : ResultSet).column 0).Perm (collectedCells (cell kind) ids) := by
  obtain ⟨hcount, hfolds, hslots⟩ := (hone.of_unpointed hpointed).counts
  let head := fun group : List Nat => cell kind (group.headD 0)
  let shown := fun group : List Nat => fields.map (groupCell cell group)
  let kept := keepFirst (fun group => (head group).key) [] (alikeRows (cell kind) ids)
  have hrows : rowGroups [0] (fieldsRow fields cell) ids = alikeRows (cell kind) ids := by
    apply rowGroups_congr
    intro i _ k hk
    rw [List.mem_singleton.mp hk, (hone.first hkind i []).1]
    rfl
  have hgrouped : grouped pointed [] true (ids.map (fieldsRow fields cell)) = kept.map shown := by
    simp only [grouped, List.isEmpty_nil, hfolds, Bool.and_false, Bool.false_eq_true, if_false,
      Bool.not_true, if_true, hslots]
    rw [groupBy_fieldsRow hpointed, hrows, dropRepeats, keepFirst_map, hcount]
    congr 1
    apply keepFirst_congr
    intro group _
    rw [(hone.first hkind 0 group).2, signature_singleton]
  have hcells : collectedCells (cell kind) ids = kept.map head := keepFirst_map Cell.key head _ []
  have hcolumn : ((kept.map shown).map fun row => ((row.take 1)[0]?).getD .null) = kept.map head := by
    rw [List.map_map]
    apply List.map_congr_left
    intro group _
    rw [Function.comp_apply, (hone.first hkind 0 group).2]
    rfl
  rw [hcells, ← hcolumn, hgrouped, ResultSet.column, cut, List.map_map, hcount]
  exact (sortRows_perm orderKeys (kept.map shown)).map _

end Shown

section Settled

variable {world : World} {working : Table} {depth : Nat} {memo : ResultMemo} {sources : List Table}
  {ids : List Nat} {s : Statement} {pivot : Expr} {values : ResultSet}

theorem OneFormula.of_same {scope : Scope} {kinds : List FieldKind} {kind : FieldKind}
    (h : ∀ k ∈ kinds, k = kind) : scope.OneFormula kinds := by
  intro a b ha hb _
  have hsame : FieldKind.calculated a = .calculated b := (h _ ha).trans (h _ hb).symm
  rw [FieldKind.calculated.inj hsame]

/-- Collecting gives the cells that the pivot expression has on the rows that the statement opens. -/
theorem settles_pivotValues
    (hopened : (opened world (runnerAt remembered world depth) s).Settles memo (sources, working, ids))
    (hplain : pivot.aggregate? = none) (hstar : ∀ qualifier, pivot ≠ .star qualifier)
    (h : (runPlain world (runnerAt remembered world depth) (pivotValues s pivot)).Settles memo values) :
    ∃ g, Field.ofValue sources pivot.text pivot = .ok g ∧
      (∀ i ∈ ids, ((rowsAt world working depth).fieldValue sources g.kind i).Settles memo
        ((rowsAt world working depth).fieldCell sources memo g.kind i)) ∧
      (values.column 0).Perm
        (collectedCells ((rowsAt world working depth).fieldCell sources memo g.kind) ids) := by
  rw [runPlain_eq] at h
  obtain ⟨⟨plan, pointed, cells⟩, mid, hmade, h⟩ := Run.gives_bind.mp h
  obtain ⟨rows, mid', hrows, h⟩ := Run.gives_bind.mp h
  obtain ⟨rfl, rfl⟩ := Run.gives_pure.mp hrows
  obtain ⟨rfl, rfl⟩ := Run.gives_pure.mp h
  obtain ⟨sources', working', ids', hopened', hplan, hpointed⟩ := opened_of_madeRows hmade
  cases hopened.unique hopened'
  obtain ⟨fields, slot, hitem, hresolve, hkeys⟩ := layout_pivotValues hplan
  obtain ⟨g, hg, hone, hkind⟩ := collecting_fields hplain hstar hitem hresolve
  have hformulas : (rowsAt world working depth).scope.OneFormula (plan.fields.map Field.kind) := by
    apply OneFormula.of_same
    intro k hk
    obtain ⟨f, hf, rfl⟩ := List.mem_map.mp hk
    exact hkind f hf
  obtain ⟨rfl, hreads⟩ := (madeRows_iff_reads (s := pivotValues s pivot) hopened hplan hformulas).mp
    ⟨pointed, hmade⟩
  refine ⟨g, hg, ?_, ?_⟩
  · intro i hi
    obtain ⟨n, hn⟩ := hone
    obtain ⟨f, hidden, hfields, _, _⟩ := List.map_eq_cons_iff.mp hn
    have hf : f ∈ plan.fields := hfields ▸ List.mem_cons_self
    rw [← hkind f hf]
    exact hreads.value i hi f hf
  · rw [hkeys]
    exact column_collected hone hpointed hkind plan.orderKeys pointed.titles ids

end Settled

end GridQuery
