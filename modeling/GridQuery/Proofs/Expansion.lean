import GridQuery.Proofs.Grouping
import GridQuery.Proofs.Pivoting

/-!
The select list that a pivot makes. An item without an aggregate stays; one with an aggregate becomes an item
for each pivot value, with the same aggregate over a choice: the argument where the pivot expression equals
the value, and null elsewhere. Nulls take part in no fold, so each of the new items folds the rows with its
value.
-/

namespace GridQuery
set_option autoImplicit false

/-- The argument of an aggregate on the rows with one pivot value, and null on the others. -/
def pivotCase (call : AggregateCall) (pivot : Expr) (value : Cell) : Expr :=
  .case [(.compare .eq pivot (.literal value), pivotArgument call.args)] (some (.literal .null))

theorem pivotCall_eq (call : AggregateCall) (pivot : Expr) (value : Cell) :
    pivotCall call pivot value = .call call.name call.distinct [pivotCase call pivot value] := rfl

/-- A call goes by a name of its aggregate. -/
theorem Expr.aggregate?_name {e : Expr} {call : AggregateCall} (h : e.aggregate? = some call) :
    Aggregator.ofName? call.name = some call.aggregator := by
  fun_induction Expr.aggregate? e with
  | case1 name distinct args =>
    obtain ⟨a, ha, rfl⟩ := Option.map_eq_some_iff.mp h
    exact ha
  | case2 e ih => exact ih h
  | case3 => cases h

namespace Field

variable {sources : List Table}

theorem ofValue_aggregate {title : String} {e : Expr} {f : Field} (h : ofValue sources title e = .ok f) :
    f.aggregate = none := by
  cases e with
  | column table name =>
    simp only [ofValue] at h
    split at h
    · cases h
      split <;> simp [ofKind]
    · cases h
  | star qualifier =>
    cases qualifier with
    | none =>
      cases h
      rfl
    | some q => cases h
  | subquery q =>
    cases h
    rfl
  | literal | bind | binary | unary | call | case | ite | list | paren =>
    simp only [ofValue] at h
    split at h
    · cases h
    · cases h
      rfl

theorem ofValue_star {title : String} {e : Expr} {f : Field} (h : ofValue sources title e = .ok f) :
    f.kind = .star ↔ ∃ qualifier, e = .star qualifier := by
  cases e with
  | star qualifier =>
    cases qualifier with
    | none =>
      cases h
      exact iff_of_true rfl ⟨none, rfl⟩
    | some q => cases h
  | column table name =>
    obtain ⟨s, c, _, hkind, _⟩ := ofValue_column h
    simp [hkind]
  | subquery q =>
    cases h
    simp [ofKind]
  | literal | bind | binary | unary | call | case | ite | list | paren =>
    simp only [ofValue] at h
    split at h
    · cases h
    · cases h
      simp [ofKind]

theorem ofExpr_plain {title : String} {e : Expr} (h : e.aggregate? = none) :
    ofExpr sources title e = ofValue sources title e := by
  unfold ofExpr
  rw [h]

end Field

namespace Fields

variable {sources : List Table}

theorem ofSelect_append {items others : List SelectItem} {fs : Fields} :
    ofSelect sources (items ++ others) = .ok fs ↔
      ∃ gs hs, ofSelect sources items = .ok gs ∧ ofSelect sources others = .ok hs ∧ fs = gs ++ hs := by
  induction items generalizing fs with
  | nil =>
    rw [List.nil_append]
    constructor
    · intro h
      exact ⟨[], fs, rfl, h, rfl⟩
    · rintro ⟨gs, hs, hgs, hhs, rfl⟩
      cases hgs
      exact hhs
  | cons item items ih =>
    rw [List.cons_append, ofSelect, ofSelect]
    constructor
    · intro h
      obtain ⟨first, hfirst, h⟩ := bind_eq_ok.mp h
      obtain ⟨rest, hrest, h⟩ := bind_eq_ok.mp h
      obtain ⟨gs, hs, hgs, hhs, rfl⟩ := ih.mp hrest
      cases h
      refine ⟨first ++ gs, hs, ?_, hhs, (List.append_assoc first gs hs).symm⟩
      exact bind_eq_ok.mpr ⟨first, hfirst, bind_eq_ok.mpr ⟨gs, hgs, rfl⟩⟩
    · rintro ⟨_, hs, hall, hhs, rfl⟩
      obtain ⟨first, hfirst, hall⟩ := bind_eq_ok.mp hall
      obtain ⟨gs, hgs, hall⟩ := bind_eq_ok.mp hall
      cases hall
      refine bind_eq_ok.mpr ⟨first, hfirst, bind_eq_ok.mpr ⟨gs ++ hs, ih.mpr ⟨gs, hs, hgs, hhs, rfl⟩, ?_⟩⟩
      rw [List.append_assoc]

theorem ofSelect_singleton {item : SelectItem} : ofSelect sources [item] = ofItem sources item := by
  rw [ofSelect, ofSelect]
  cases ofItem sources item with
  | error e => rfl
  | ok fs => exact congrArg Except.ok (List.append_nil fs)

/-- The fields of an item without an aggregate fold nothing. -/
theorem ofItem_plain {item : SelectItem} {fs : Fields} (hplain : item.expr.aggregate? = none)
    (h : ofItem sources item = .ok fs) : ∀ f ∈ fs, f.aggregate = none := by
  intro f hf
  rcases mem_ofItem h hf with ⟨s, source, _, hf⟩ | ⟨g, hg, he⟩
  · exact ofSource_aggregate hf
  · rw [Field.ofExpr_plain hplain] at hg
    rw [he, Field.spell_aggregate]
    exact Field.ofValue_aggregate hg

/-- An item that is no star has one field, which answers to the text of the expression. -/
theorem ofItem_one {item : SelectItem} {fs : Fields} (hstar : ∀ qualifier, item.expr ≠ .star qualifier)
    (h : ofItem sources item = .ok fs) :
    ∃ g, Field.ofExpr sources item.title item.expr = .ok g ∧ fs = [g.spell item.expr.text] := by
  unfold ofItem at h
  split at h
  · rename_i qualifier hqualifier
    exact absurd hqualifier (hstar qualifier)
  · obtain ⟨g, hg, h⟩ := bind_eq_ok.mp h
    cases h
    exact ⟨g, hg, rfl⟩

/-- The field of an item with an aggregate folds what the field of its argument reads. -/
theorem ofItem_aggregate {item : SelectItem} {call : AggregateCall} {fs : Fields}
    (hcall : item.expr.aggregate? = some call) (h : ofItem sources item = .ok fs) :
    ∃ argument g f, call.args = [argument] ∧ Field.ofValue sources item.title argument = .ok g ∧
      fs = [f] ∧ f.kind = g.kind ∧ f.aggregate = some ⟨call.aggregator, call.distinct⟩ ∧
      f.title = item.title := by
  have hstar : ∀ qualifier, item.expr ≠ .star qualifier := by
    intro qualifier hqualifier
    rw [hqualifier] at hcall
    cases hcall
  obtain ⟨f, hf, rfl⟩ := ofItem_one hstar h
  unfold Field.ofExpr at hf
  rw [hcall] at hf
  simp only at hf
  split at hf
  · rename_i argument hargs
    obtain ⟨g, hg, hf⟩ := bind_eq_ok.mp hf
    obtain ⟨htitle, _⟩ := Field.ofValue_shown hg
    cases hf
    exact ⟨argument, g, _, hargs, hg, rfl, by simp, by simp, by simpa using htitle⟩
  · cases hf

/-- The field of an aggregate over one pivot value folds a choice. -/
theorem ofItem_pivotCall {e : Expr} {call : AggregateCall} (hcall : e.aggregate? = some call)
    {pivot : Expr} {value : Cell} {text title : String} {fs : Fields}
    (h : ofItem sources ⟨pivotCall call pivot value, text, some title⟩ = .ok fs) :
    ∃ f, fs = [f] ∧ f.kind = .calculated (pivotCase call pivot value) ∧
      f.aggregate = some ⟨call.aggregator, call.distinct⟩ ∧ f.title = title := by
  have hpivot : (pivotCall call pivot value).aggregate? =
      some ⟨call.aggregator, call.name, call.distinct, [pivotCase call pivot value]⟩ := by
    rw [pivotCall_eq, Expr.aggregate?, Expr.aggregate?_name hcall, Option.map_some]
  obtain ⟨argument, g, f, hargs, hg, rfl, hkind, haggregate, htitle⟩ := ofItem_aggregate hpivot h
  cases hargs
  refine ⟨f, rfl, ?_, haggregate, htitle⟩
  rw [hkind]
  simp only [pivotCase, Field.ofValue] at hg
  split at hg
  · cases hg
  · cases hg
    rfl

end Fields

section Chosen

variable {world : World} {working : Table} {depth : Nat} {memo : ResultMemo} {sources : List Table}

/-- An expression has the formula of the field that it is the value of. -/
theorem formula_eq_kindFormula
    (hcolumn : ∀ name, working.column? name = (resolveFrom 0 name sources).map (placeOf sources))
    {title : String} {e : Expr} {g : Field} (hg : Field.ofValue sources title e = .ok g)
    (hstar : g.kind ≠ .star)
    (hnested : ∀ q, e = .subquery q → (rowsAt world working depth).scope.written? e = none) :
    (rowsAt world working depth).scope.formula e =
      (rowsAt world working depth).scope.kindFormula sources g.kind := by
  cases e with
  | column table name =>
    obtain ⟨s, c, hresolve, hkind, _⟩ := Field.ofValue_column hg
    rw [hkind]
    apply Rows.formula_column
    rw [show (rowsAt world working depth).table = working from rfl, hcolumn]
    unfold resolveColumn at hresolve
    rw [hresolve]
    rfl
  | star qualifier => exact absurd ((Field.ofValue_star hg).mpr ⟨qualifier, rfl⟩) hstar
  | subquery q =>
    cases hg
    rw [Scope.formula, hnested q rfl]
    rfl
  | literal | bind | binary | unary | call | case | ite | list | paren =>
    simp only [Field.ofValue] at hg
    split at hg
    · cases hg
    · cases hg
      rfl

theorem formula_pivotCase {s : Scope} {call : AggregateCall} {pivot : Expr} {value : Cell} {x : Formula}
    (hwritten : s.written? (pivotCase call pivot value) = none)
    (h : s.formula (pivotCase call pivot value) = .ok x) :
    ∃ looked taken, s.formula pivot = .ok looked ∧ s.formula (pivotArgument call.args) = .ok taken ∧
      x = .case [(.compare .eq looked (.const value) none, taken)] (some (.const .null)) := by
  unfold pivotCase at hwritten h
  rw [Scope.formula, hwritten] at h
  obtain ⟨branches, hbranches, h⟩ := bind_eq_ok.mp h
  obtain ⟨otherwise, hotherwise, h⟩ := bind_eq_ok.mp h
  rw [Scope.branches] at hbranches
  obtain ⟨test, htest, hbranches⟩ := bind_eq_ok.mp hbranches
  obtain ⟨taken, htaken, hbranches⟩ := bind_eq_ok.mp hbranches
  rw [Scope.test] at htest
  obtain ⟨looked, hlooked, htest⟩ := bind_eq_ok.mp htest
  refine ⟨looked, taken, hlooked, htaken, ?_⟩
  cases htest
  cases hbranches
  cases hotherwise
  cases h
  rfl

/-- The choice reads what the pivot expression is on the row, and then either its argument or null. -/
theorem settles_choice {i : Nat} {looked taken : Formula} {value c : Cell}
    (h : ((rowsAt world working depth).value i
      (.case [(.compare .eq looked (.const value) none, taken)] (some (.const .null)))).Settles memo c) :
    ∃ x, ((rowsAt world working depth).value i looked).Settles memo x ∧
      if x.looseEq value then ((rowsAt world working depth).value i taken).Settles memo c
      else c = .null := by
  rw [Rows.value] at h
  obtain ⟨chosen, mid, hchosen, h⟩ := Run.gives_bind.mp h
  rw [Rows.choice] at hchosen
  obtain ⟨hit, mid₁, hhit, hchosen⟩ := Run.gives_bind.mp hchosen
  rw [Rows.holds] at hhit
  obtain ⟨x, mid₂, hx, hhit⟩ := Run.gives_bind.mp hhit
  simp only [reduceCtorEq, or_self, if_false] at hhit
  obtain ⟨y, _, hy, hhit⟩ := Run.gives_bind.mp hhit
  rw [Rows.value] at hy
  obtain ⟨rfl, rfl⟩ := Run.gives_pure.mp hy
  obtain ⟨rfl, rfl⟩ := Run.gives_pure.mp hhit
  have hagain := repeatable_value world working depth i
  refine ⟨x, ?_⟩
  cases heq : x.looseEq y with
  | true =>
    simp only [Cell.holds, heq, if_true] at hchosen
    obtain ⟨d, _, hd, hchosen⟩ := Run.gives_bind.mp hchosen
    obtain ⟨rfl, rfl⟩ := Run.gives_pure.mp hchosen
    obtain ⟨rfl, rfl⟩ := Run.gives_pure.mp h
    exact ⟨(hagain looked).again hx ((hagain taken).grows_of_gives hd),
      (hagain taken).again hd (.refl _)⟩
  | false =>
    simp only [Cell.holds, heq, Bool.false_eq_true, if_false, Rows.choice] at hchosen
    obtain ⟨rfl, rfl⟩ := Run.gives_pure.mp hchosen
    simp only [Rows.optional, Rows.value] at h
    obtain ⟨rfl, rfl⟩ := Run.gives_pure.mp h
    exact ⟨hx, by simp⟩

/-- What a pivot folds of an argument on a row: a star counts one. -/
def counted (cell : FieldKind → Nat → Cell) (kind : FieldKind) (i : Nat) : Cell :=
  match kind with
  | .star => .number 1.0
  | kind => cell kind i

theorem counted_of_ne {cell : FieldKind → Nat → Cell} {kind : FieldKind} (h : kind ≠ .star) (i : Nat) :
    counted cell kind i = cell kind i := by
  cases kind with
  | star => exact absurd rfl h
  | column | calculated | subquery => rfl

/-- What stands in the place of an argument reads what the argument does, and one for a star. -/
theorem settles_pivotArgument
    (hcolumn : ∀ name, working.column? name = (resolveFrom 0 name sources).map (placeOf sources))
    {title : String} {e : Expr} {g : Field} (hg : Field.ofValue sources title e = .ok g)
    (hnested : ∀ q, e = .subquery q → (rowsAt world working depth).scope.written? e = none)
    {taken : Formula} (htaken : (rowsAt world working depth).scope.formula (pivotArgument [e]) = .ok taken)
    {i : Nat} {c : Cell} (hc : ((rowsAt world working depth).value i taken).Settles memo c) :
    ((rowsAt world working depth).fieldValue sources g.kind i).Settles memo
        ((rowsAt world working depth).fieldCell sources memo g.kind i) ∧
      c = counted ((rowsAt world working depth).fieldCell sources memo) g.kind i := by
  by_cases hstar : g.kind = .star
  · obtain ⟨qualifier, rfl⟩ := (Field.ofValue_star hg).mp hstar
    rw [pivotArgument, Scope.formula] at htaken
    cases htaken
    rw [Rows.value] at hc
    rw [Run.settles_pure.mp hc, hstar]
    exact ⟨Run.gives_pure.mpr ⟨rfl, rfl⟩, rfl⟩
  · have hargument : pivotArgument [e] = e := by
      cases e with
      | star qualifier => exact absurd ((Field.ofValue_star hg).mpr ⟨qualifier, rfl⟩) hstar
      | literal | column | bind | binary | unary | call | case | ite | subquery | list | paren => rfl
    rw [hargument, formula_eq_kindFormula hcolumn hg hstar hnested] at htaken
    have hread := (settles_fieldValue htaken).mpr hc
    have hcell : (rowsAt world working depth).fieldCell sources memo g.kind i = c := hread.settled_eq
    rw [counted_of_ne hstar, hcell]
    exact ⟨hread, rfl⟩

/-- On a row the choice reads the argument if the pivot expression equals the value there, and null if not. -/
theorem cell_pivotCase
    (hcolumn : ∀ name, working.column? name = (resolveFrom 0 name sources).map (placeOf sources))
    {title : String} {call : AggregateCall} {e pivot : Expr} {g : Field} {value c : Cell} {i : Nat}
    (hargs : call.args = [e]) (hg : Field.ofValue sources title e = .ok g)
    (hnested : ∀ q, e = .subquery q → (rowsAt world working depth).scope.written? e = none)
    (hwritten : (rowsAt world working depth).scope.written? (pivotCase call pivot value) = none)
    (hc : ((rowsAt world working depth).fieldValue sources
      (.calculated (pivotCase call pivot value)) i).Settles memo c) :
    ∃ x, ((rowsAt world working depth).evaluated pivot i).Settles memo x ∧
      (x.looseEq value = true → ((rowsAt world working depth).fieldValue sources g.kind i).Settles memo
        ((rowsAt world working depth).fieldCell sources memo g.kind i)) ∧
      c = if x.looseEq value then
        counted ((rowsAt world working depth).fieldCell sources memo) g.kind i else .null := by
  obtain ⟨f, hf, hvalue⟩ := (Run.settles_bind (.of _)
    fun f => repeatable_value world working depth i f).mp hc
  obtain ⟨looked, taken, hlooked, htaken, rfl⟩ := formula_pivotCase hwritten (Run.settles_of.mp hf)
  obtain ⟨x, hx, hchoice⟩ := settles_choice hvalue
  refine ⟨x, Run.gives_bind.mpr ⟨looked, memo, Run.settles_of.mpr hlooked, hx⟩, ?_⟩
  rw [hargs] at htaken
  cases heq : x.looseEq value with
  | true =>
    rw [heq, if_pos rfl] at hchoice
    obtain ⟨hread, hcell⟩ := settles_pivotArgument hcolumn hg hnested htaken hchoice
    exact ⟨fun _ => hread, by rw [if_pos rfl, hcell]⟩
  | false =>
    rw [heq, if_neg Bool.false_ne_true] at hchoice
    exact ⟨fun h => absurd h Bool.false_ne_true, by rw [if_neg Bool.false_ne_true, hchoice]⟩

end Chosen

section Folded

/-- Nulls take part in no fold. -/
theorem fold_restricted (a : Aggregate) (p : Nat → Bool) (x : Nat → Cell) (group : List Nat) :
    a.fold (group.map fun i => if p i then x i else .null) = a.fold ((group.filter p).map x) := by
  have htaking : (group.map fun i => if p i then x i else .null).filter Cell.takesPart =
      ((group.filter p).map x).filter Cell.takesPart := by
    induction group with
    | nil => rfl
    | cons i group ih =>
      rw [List.map_cons, List.filter_cons, ih, List.filter_cons]
      cases hp : p i with
      | true => simp only [if_true, List.map_cons, List.filter_cons]
      | false => rfl
  unfold Aggregate.fold
  rw [htaking]

theorem keepFirst_same {c : Cell} (group : List Nat) :
    keepFirst Cell.key [] (group.map fun _ => c) = (group.take 1).map fun _ => c := by
  have hseen (group : List Nat) : keepFirst Cell.key [c.key] (group.map fun _ => c) = [] := by
    induction group with
    | nil => rfl
    | cons i group ih =>
      rw [List.map_cons, keepFirst, if_pos (List.mem_singleton.mpr rfl)]
      exact ih
  cases group with
  | nil => rfl
  | cons i group =>
    rw [List.map_cons, keepFirst, if_neg (List.not_mem_nil), hseen]
    rfl

/-- A count does not look at what it counts, as long as that takes part. -/
theorem fold_count_same {a : Aggregate} (ha : a.aggregator = .count) {c d : Cell} (hc : c.takesPart = true)
    (hd : d.takesPart = true) (group : List Nat) :
    a.fold (group.map fun _ => c) = a.fold (group.map fun _ => d) := by
  have hall {e : Cell} (he : e.takesPart = true) :
      (group.map fun _ => e).filter Cell.takesPart = group.map fun _ => e := by
    apply List.filter_eq_self.mpr
    intro x hx
    obtain ⟨_, _, rfl⟩ := List.mem_map.mp hx
    exact he
  unfold Aggregate.fold
  rw [hall hc, hall hd, ha, Aggregator.fold, Aggregator.fold]
  cases a.distinct with
  | false => simp only [Bool.false_eq_true, if_false, List.length_map]
  | true => simp only [if_true, keepFirst_same, List.length_map]

end Folded

section Spread

/-- The titles that a field has in a pivot: an aggregate one for each value, the value before its own. -/
def pivotTitles (values : List Cell) (f : Field) : List String :=
  match f.aggregate with
  | some _ => values.map fun v => v.key ++ " " ++ f.title
  | none => [f.title]

/-- What a field shows for a group in a pivot: an aggregate, for each value, its fold over the rows of the
group whose pivot cell equals the value. -/
def pivotCells (values : List Cell) (pivotCell : Nat → Cell) (cell : FieldKind → Nat → Cell)
    (group : List Nat) (f : Field) : List Cell :=
  match f.aggregate with
  | some a => values.map fun v => a.fold ((group.filter fun i => (pivotCell i).looseEq v).map (cell f.kind))
  | none => [groupCell cell group f]

variable {world : World} {working : Table} {depth : Nat} {memo : ResultMemo} {sources : List Table}

theorem fieldCell_star (i : Nat) :
    (rowsAt world working depth).fieldCell sources memo .star i = .text "*" := rfl

theorem map_eq_map_of_forall₂ {α β γ : Type} {p : α → β → Prop} {look : β → γ} {look' : α → γ}
    {as : List α} {bs : List β} (h : List.Forall₂ p as bs)
    (hlook : ∀ a ∈ as, ∀ b ∈ bs, p a b → look b = look' a) : bs.map look = as.map look' := by
  induction h with
  | nil => rfl
  | @cons a b as bs hab _ ih =>
    rw [List.map_cons, List.map_cons, hlook a List.mem_cons_self b List.mem_cons_self hab, ih]
    intro a ha b hb
    exact hlook a (List.mem_cons_of_mem _ ha) b (List.mem_cons_of_mem _ hb)

theorem exists_of_forall₂ {α β : Type} {p : α → β → Prop} {as : List α} {bs : List β}
    (h : List.Forall₂ p as bs) {a : α} (ha : a ∈ as) : ∃ b ∈ bs, p a b := by
  induction h with
  | nil => cases ha
  | @cons c b as bs hcb _ ih =>
    rcases List.mem_cons.mp ha with rfl | ha
    · exact ⟨b, List.mem_cons_self, hcb⟩
    · obtain ⟨d, hd, hp⟩ := ih ha
      exact ⟨d, List.mem_cons_of_mem b hd, hp⟩

/-- The fields of the items that a pivot makes of an aggregate. -/
theorem ofSelect_pivotCalls {e : Expr} {call : AggregateCall} (hcall : e.aggregate? = some call)
    {pivot : Expr} {title : String} {values : List Cell} {fs : Fields}
    (h : Fields.ofSelect sources (values.map fun v =>
      ⟨pivotCall call pivot v, (pivotCall call pivot v).text, some (v.key ++ " " ++ title)⟩) = .ok fs) :
    List.Forall₂ (fun v f => f.kind = .calculated (pivotCase call pivot v) ∧
      f.aggregate = some ⟨call.aggregator, call.distinct⟩ ∧ f.title = v.key ++ " " ++ title) values fs := by
  induction values generalizing fs with
  | nil =>
    cases h
    exact .nil
  | cons v values ih =>
    rw [List.map_cons, Fields.ofSelect] at h
    obtain ⟨gs, hgs, h⟩ := bind_eq_ok.mp h
    obtain ⟨others, hothers, h⟩ := bind_eq_ok.mp h
    cases h
    obtain ⟨f, rfl, hf⟩ := Fields.ofItem_pivotCall hcall hgs
    exact .cons hf (ih hothers)

/-- No column of the table is written like what a pivot makes of an aggregate, or like a statement that one
folds. -/
structure Unwritten (scope : Scope) (pivot : Expr) (values : List Cell) (item : SelectItem) : Prop where
  choice : ∀ {call : AggregateCall}, item.expr.aggregate? = some call → ∀ v ∈ values,
    scope.written? (pivotCase call pivot v) = none
  nested : ∀ {call : AggregateCall} {q : Statement}, item.expr.aggregate? = some call →
    call.args = [.subquery q] → scope.written? (.subquery q) = none

/-- A star stands under a count alone. -/
def StarsCounted (item : SelectItem) : Prop :=
  ∀ (call : AggregateCall) (table : Option String), item.expr.aggregate? = some call →
    .star table ∈ call.args → call.aggregator = .count

variable {pivot : Expr} {values : List Cell} {ids : List Nat}

/-- One aggregate: its items show, for each value, the fold over the rows with that value. -/
theorem pivotCalls_show
    (hcolumn : ∀ name, working.column? name = (resolveFrom 0 name sources).map (placeOf sources))
    {item : SelectItem} {call : AggregateCall} (hcall : item.expr.aggregate? = some call)
    (hwritten : Unwritten (rowsAt world working depth).scope pivot values item) (hstars : StarsCounted item)
    {fs gs : Fields} (hfs : Fields.ofItem sources item = .ok fs)
    (hgs : Fields.ofSelect sources (pivotItem pivot values item) = .ok gs)
    (hreads : Reads (rowsAt world working depth) sources memo gs ids) {group : List Nat}
    (hgroup : group ⊆ ids) :
    gs.map (groupCell ((rowsAt world working depth).fieldCell sources memo) group) =
      fs.flatMap (pivotCells values (fun i => ((rowsAt world working depth).evaluated pivot i).settled memo)
        ((rowsAt world working depth).fieldCell sources memo) group) := by
  obtain ⟨argument, g, f, hargs, hg, rfl, hkind, haggregate, htitle⟩ := Fields.ofItem_aggregate hcall hfs
  simp only [pivotItem, hcall] at hgs
  rw [List.flatMap_cons, List.flatMap_nil, List.append_nil, pivotCells, haggregate, hkind]
  apply map_eq_map_of_forall₂ (ofSelect_pivotCalls hcall hgs)
  intro v hv h hh hfacts
  obtain ⟨hchoice, hfold, _⟩ := hfacts
  have hnested : ∀ q, argument = .subquery q →
      (rowsAt world working depth).scope.written? argument = none := by
    rintro q rfl
    exact hwritten.nested hcall hargs
  have hcells : group.map ((rowsAt world working depth).fieldCell sources memo h.kind) =
      group.map fun i =>
        if (((rowsAt world working depth).evaluated pivot i).settled memo).looseEq v then
          counted ((rowsAt world working depth).fieldCell sources memo) g.kind i else .null := by
    apply List.map_congr_left
    intro i hi
    have hread := hreads.value i (hgroup hi) h hh
    rw [hchoice] at hread ⊢
    obtain ⟨x, hx, _, hcell⟩ :=
      cell_pivotCase hcolumn hargs hg hnested (hwritten.choice hcall v hv) hread
    rw [hcell, hx.settled_eq]
  rw [groupCell, hfold]
  simp only
  rw [hcells, fold_restricted]
  by_cases hstar : g.kind = .star
  · obtain ⟨qualifier, rfl⟩ := (Field.ofValue_star hg).mp hstar
    have hcount : call.aggregator = .count := by
      apply hstars call qualifier hcall
      rw [hargs]
      exact List.mem_singleton.mpr rfl
    rw [hstar]
    exact fold_count_same hcount rfl (by decide) _
  · have hsame : counted ((rowsAt world working depth).fieldCell sources memo) g.kind =
        (rowsAt world working depth).fieldCell sources memo g.kind := funext (counted_of_ne hstar)
    rw [hsame]

theorem pivotItem_titles {item : SelectItem} {fs gs : Fields} (hfs : Fields.ofItem sources item = .ok fs)
    (hgs : Fields.ofSelect sources (pivotItem pivot values item) = .ok gs) :
    gs.map Field.title = fs.flatMap (pivotTitles values) := by
  cases hcall : item.expr.aggregate? with
  | none =>
    simp only [pivotItem, hcall, Fields.ofSelect_singleton, hfs] at hgs
    cases hgs
    rw [List.map_eq_flatMap]
    apply List.flatMap_congr
    intro f hf
    rw [pivotTitles, Fields.ofItem_plain hcall hfs f hf]
  | some call =>
    obtain ⟨_, _, f, _, _, rfl, _, haggregate, htitle⟩ := Fields.ofItem_aggregate hcall hfs
    simp only [pivotItem, hcall] at hgs
    rw [List.flatMap_cons, List.flatMap_nil, List.append_nil, pivotTitles, haggregate, htitle]
    apply map_eq_map_of_forall₂ (ofSelect_pivotCalls hcall hgs)
    intro v _ h _ hfacts
    exact hfacts.2.2

theorem pivotItem_show
    (hcolumn : ∀ name, working.column? name = (resolveFrom 0 name sources).map (placeOf sources))
    {item : SelectItem} (hwritten : Unwritten (rowsAt world working depth).scope pivot values item)
    (hstars : StarsCounted item) {fs gs : Fields} (hfs : Fields.ofItem sources item = .ok fs)
    (hgs : Fields.ofSelect sources (pivotItem pivot values item) = .ok gs)
    (hreads : Reads (rowsAt world working depth) sources memo gs ids) {group : List Nat}
    (hgroup : group ⊆ ids) :
    gs.map (groupCell ((rowsAt world working depth).fieldCell sources memo) group) =
      fs.flatMap (pivotCells values (fun i => ((rowsAt world working depth).evaluated pivot i).settled memo)
        ((rowsAt world working depth).fieldCell sources memo) group) := by
  cases hcall : item.expr.aggregate? with
  | none =>
    simp only [pivotItem, hcall, Fields.ofSelect_singleton, hfs] at hgs
    cases hgs
    rw [List.map_eq_flatMap]
    apply List.flatMap_congr
    intro f hf
    rw [pivotCells, Fields.ofItem_plain hcall hfs f hf]
  | some call => exact pivotCalls_show hcolumn hcall hwritten hstars hfs hgs hreads hgroup

/-- The titles of the select list that a pivot makes. -/
theorem pivoted_titles {items : List SelectItem} {fs gs : Fields}
    (hfs : Fields.ofSelect sources items = .ok fs)
    (hgs : Fields.ofSelect sources (items.flatMap (pivotItem pivot values)) = .ok gs) :
    gs.map Field.title = fs.flatMap (pivotTitles values) := by
  induction items generalizing fs gs with
  | nil =>
    cases hfs
    cases hgs
    rfl
  | cons item items ih =>
    rw [Fields.ofSelect] at hfs
    obtain ⟨first, hfirst, hfs⟩ := bind_eq_ok.mp hfs
    obtain ⟨rest, hrest, hfs⟩ := bind_eq_ok.mp hfs
    cases hfs
    rw [List.flatMap_cons] at hgs
    obtain ⟨firsts, others, hfirsts, hothers, rfl⟩ := Fields.ofSelect_append.mp hgs
    rw [List.map_append, List.flatMap_append, pivotItem_titles hfirst hfirsts, ih hrest hothers]

/-- What the select list that a pivot makes shows for a group. -/
theorem pivoted_show
    (hcolumn : ∀ name, working.column? name = (resolveFrom 0 name sources).map (placeOf sources))
    {items : List SelectItem}
    (hwritten : ∀ item ∈ items, Unwritten (rowsAt world working depth).scope pivot values item)
    (hstars : ∀ item ∈ items, StarsCounted item) {fs gs : Fields}
    (hfs : Fields.ofSelect sources items = .ok fs)
    (hgs : Fields.ofSelect sources (items.flatMap (pivotItem pivot values)) = .ok gs)
    (hreads : Reads (rowsAt world working depth) sources memo gs ids) {group : List Nat}
    (hgroup : group ⊆ ids) :
    gs.map (groupCell ((rowsAt world working depth).fieldCell sources memo) group) =
      fs.flatMap (pivotCells values (fun i => ((rowsAt world working depth).evaluated pivot i).settled memo)
        ((rowsAt world working depth).fieldCell sources memo) group) := by
  induction items generalizing fs gs with
  | nil =>
    cases hfs
    cases hgs
    rfl
  | cons item items ih =>
    rw [Fields.ofSelect] at hfs
    obtain ⟨first, hfirst, hfs⟩ := bind_eq_ok.mp hfs
    obtain ⟨rest, hrest, hfs⟩ := bind_eq_ok.mp hfs
    cases hfs
    rw [List.flatMap_cons] at hgs
    obtain ⟨firsts, others, hfirsts, hothers, rfl⟩ := Fields.ofSelect_append.mp hgs
    obtain ⟨hwrittenFirst, hwritten⟩ := List.forall_mem_cons.mp hwritten
    obtain ⟨hstarsFirst, hstars⟩ := List.forall_mem_cons.mp hstars
    have hreadsFirst := hreads.mono (List.subset_append_left firsts others)
    have hreadsRest := hreads.mono (List.subset_append_right firsts others)
    rw [List.map_append, List.flatMap_append,
      pivotItem_show hcolumn hwrittenFirst hstarsFirst hfirst hfirsts hreadsFirst hgroup,
      ih hwritten hstars hrest hothers hreadsRest]

/-- What a pivot reads on a row: a field that it keeps, and under an aggregate the pivot expression, with what
is folded wherever that equals a value. -/
def PivotRead (r : Rows ResultMemo) (sources : List Table) (memo : ResultMemo) (pivot : Expr)
    (values : List Cell) (i : Nat) (f : Field) : Prop :=
  let read := (r.fieldValue sources f.kind i).Settles memo (r.fieldCell sources memo f.kind i)
  let pivotCell := (r.evaluated pivot i).settled memo
  (f.aggregate = none → read) ∧ (f.aggregate ≠ none → ∀ v ∈ values,
    (r.evaluated pivot i).Settles memo pivotCell ∧ (pivotCell.looseEq v = true → read))

theorem pivotItem_reads
    (hcolumn : ∀ name, working.column? name = (resolveFrom 0 name sources).map (placeOf sources))
    {item : SelectItem} (hwritten : Unwritten (rowsAt world working depth).scope pivot values item)
    {fs gs : Fields} (hfs : Fields.ofItem sources item = .ok fs)
    (hgs : Fields.ofSelect sources (pivotItem pivot values item) = .ok gs)
    (hreads : Reads (rowsAt world working depth) sources memo gs ids) {i : Nat} (hi : i ∈ ids) :
    ∀ f ∈ fs, PivotRead (rowsAt world working depth) sources memo pivot values i f := by
  intro f hf
  cases hcall : item.expr.aggregate? with
  | none =>
    simp only [pivotItem, hcall, Fields.ofSelect_singleton, hfs] at hgs
    cases hgs
    exact ⟨fun _ => hreads.value i hi f hf, fun hsome => absurd (Fields.ofItem_plain hcall hfs f hf) hsome⟩
  | some call =>
    obtain ⟨argument, g, _, hargs, hg, rfl, hkind, haggregate, _⟩ := Fields.ofItem_aggregate hcall hfs
    rw [List.mem_singleton.mp hf]
    refine ⟨fun hnone => absurd (haggregate.symm.trans hnone) (Option.some_ne_none _), ?_⟩
    intro _ v hv
    simp only [pivotItem, hcall] at hgs
    obtain ⟨h, hh, hchoice, _⟩ := exists_of_forall₂ (ofSelect_pivotCalls hcall hgs) hv
    have hread := hreads.value i hi h hh
    have hnested : ∀ q, argument = .subquery q →
        (rowsAt world working depth).scope.written? argument = none := by
      rintro q rfl
      exact hwritten.nested hcall hargs
    rw [hchoice] at hread
    obtain ⟨x, hx, htaken, _⟩ :=
      cell_pivotCase hcolumn hargs hg hnested (hwritten.choice hcall v hv) hread
    rw [hx.settled_eq, hkind]
    exact ⟨hx, htaken⟩

/-- What a pivot reads, it reads on every row. -/
theorem pivoted_reads
    (hcolumn : ∀ name, working.column? name = (resolveFrom 0 name sources).map (placeOf sources))
    {items : List SelectItem}
    (hwritten : ∀ item ∈ items, Unwritten (rowsAt world working depth).scope pivot values item)
    {fs gs : Fields} (hfs : Fields.ofSelect sources items = .ok fs)
    (hgs : Fields.ofSelect sources (items.flatMap (pivotItem pivot values)) = .ok gs)
    (hreads : Reads (rowsAt world working depth) sources memo gs ids) {i : Nat} (hi : i ∈ ids) :
    ∀ f ∈ fs, PivotRead (rowsAt world working depth) sources memo pivot values i f := by
  induction items generalizing fs gs with
  | nil =>
    cases hfs
    simp
  | cons item items ih =>
    rw [Fields.ofSelect] at hfs
    obtain ⟨first, hfirst, hfs⟩ := bind_eq_ok.mp hfs
    obtain ⟨rest, hrest, hfs⟩ := bind_eq_ok.mp hfs
    cases hfs
    rw [List.flatMap_cons] at hgs
    obtain ⟨firsts, others, hfirsts, hothers, rfl⟩ := Fields.ofSelect_append.mp hgs
    obtain ⟨hwrittenFirst, hwritten⟩ := List.forall_mem_cons.mp hwritten
    intro f hf
    rcases List.mem_append.mp hf with hf | hf
    · exact pivotItem_reads hcolumn hwrittenFirst hfirst hfirsts
        (hreads.mono (List.subset_append_left firsts others)) hi f hf
    · exact ih hwritten hrest hothers (hreads.mono (List.subset_append_right firsts others)) f hf

end Spread

end GridQuery
