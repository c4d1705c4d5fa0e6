import GridQuery.Proofs.Alike
import GridQuery.Proofs.Expansion

/-!
Expressions of clauses and the fields they refer to. A clause looks for a field by the normalized text of its
expression, then by that of what the brackets around it hold, then by the column it is, and adds a hidden
field where none is found. The field stands for the expression on every row, unless it answers to the text as
a title or as the text of some other expression.
-/

namespace GridQuery
set_option autoImplicit false

/-! ### What an expression of a clause asks for -/

theorem ExprsAlike.headD {es es' : List Expr} {e e' : Expr} (h : ExprsAlike es es')
    (he : e.Alike e') : (es.head?.getD e).Alike (es'.head?.getD e') := by
  cases h with
  | nil => exact he
  | cons hf _ => exact hf

namespace Expr

/-- An expression and what its outer brackets hold, from the outside in. -/
def layers : Expr → List Expr
  | .paren a => .paren a :: a.layers
  | e => [e]

/-- The aggregate that an expression is, also within brackets. -/
def folding (e : Expr) : Option Aggregate :=
  e.aggregate?.map fun call => ⟨call.aggregator, call.distinct⟩

/-- What an expression reads on each row: an aggregate reads its argument. -/
def reads (e : Expr) : Expr :=
  match e.aggregate? with
  | some c => c.args.head?.getD e
  | none => e

/-- The column of the sources that an expression is, or is written like. -/
def source? (sources : List Table) (e : Expr) : Option (Nat × Nat) :=
  match e with
  | .column table name => resolveColumn sources table name
  | .literal _ | .bind _ => none
  | e => if e.aggregate?.isSome then none else resolveFrom 0 e.text sources

/-- Nested statements and stars. -/
def isBlock : Expr → Bool
  | .subquery _ | .star _ => true
  | _ => false

theorem self_mem_layers (e : Expr) : e ∈ e.layers := by
  cases e <;> simp [layers]

/-- A layer is an aggregate where the expression is. -/
theorem aggregate?_layer {e l : Expr} (h : l ∈ e.layers) : l.aggregate? = e.aggregate? := by
  fun_induction layers e with
  | case1 a ih =>
    rcases List.mem_cons.mp h with rfl | h
    · rfl
    · exact ih h
  | case2 e => rw [List.mem_singleton.mp h]

theorem folding_layer {e l : Expr} (h : l ∈ e.layers) : l.folding = e.folding := by
  rw [folding, folding, aggregate?_layer h]

theorem reads_of_plain {e : Expr} (h : e.aggregate? = none) : e.reads = e := by
  rw [reads, h]

/-- What a layer reads is what the expression reads, or the two are no aggregate of anything. -/
theorem reads_layer {e l : Expr} (h : l ∈ e.layers) :
    l.reads = e.reads ∨ (l.reads = l ∧ e.reads = e) := by
  unfold reads
  rw [aggregate?_layer h]
  split
  · rename_i call hcall
    cases call.args with
    | nil => exact .inr ⟨rfl, rfl⟩
    | cons a args => exact .inl rfl
  · exact .inr ⟨rfl, rfl⟩

namespace Alike

variable {e e' : Expr}

theorem isBlock_eq (h : e.Alike e') : e.isBlock = e'.isBlock := by
  cases h <;> rfl

/-- Expressions that are alike are calls of one aggregate, with arguments that are alike. -/
theorem aggregate? (h : e.Alike e') :
    (e.aggregate? = none ∧ e'.aggregate? = none) ∨
      ∃ c c', e.aggregate? = some c ∧ e'.aggregate? = some c' ∧ c.aggregator = c'.aggregator ∧
        c.distinct = c'.distinct ∧ ExprsAlike c.args c'.args := by
  fun_induction Expr.aggregate? e generalizing e' with
  | case1 name distinct args =>
    cases h with
    | @call _ name' _ _ args' hname hargs _ =>
      have hsame : Aggregator.ofName? name' = Aggregator.ofName? name := by
        rw [Aggregator.ofName?, Aggregator.ofName?, hname]
      rw [Expr.aggregate?, hsame]
      cases Aggregator.ofName? name with
      | none => exact .inl ⟨rfl, rfl⟩
      | some a => exact .inr ⟨_, _, rfl, rfl, rfl, rfl, hargs⟩
  | case2 a ih =>
    cases h with
    | paren ha => simpa only [Expr.aggregate?] using ih ha
  | case3 e hcall hparen =>
    refine .inl ⟨rfl, ?_⟩
    cases h with
    | call => exact absurd rfl (hcall _ _ _)
    | paren => exact absurd rfl (hparen _)
    | _ => rfl

theorem folding_eq (h : e.Alike e') : e.folding = e'.folding := by
  rcases h.aggregate? with ⟨hnone, hnone'⟩ | ⟨call, call', hcall, hcall', ha, hd, _⟩
  · rw [folding, folding, hnone, hnone']
  · rw [folding, folding, hcall, hcall', Option.map_some, Option.map_some, ha, hd]

theorem reads (h : e.Alike e') : e.reads.Alike e'.reads := by
  rcases h.aggregate? with ⟨hnone, hnone'⟩ | ⟨call, call', hcall, hcall', _, _, hargs⟩
  · rwa [reads_of_plain hnone, reads_of_plain hnone']
  · unfold Expr.reads
    rw [hcall, hcall']
    exact hargs.headD h

end Alike

end Expr

/-! ### Fields that stand for expressions -/

namespace Field

/-- The field was made of the expression. -/
def IsOf (sources : List Table) (f : Field) (e : Expr) : Prop :=
  ∃ title g, Field.ofExpr sources title e = .ok g ∧ f.kind = g.kind ∧ f.aggregate = g.aggregate

/-- The field was made of the expression, up to how names are written, or is the column that the
expression is or is written like. -/
def StandsFor (sources : List Table) (f : Field) (e : Expr) : Prop :=
  (∃ e', e'.Alike e ∧ f.IsOf sources e') ∨
    (f.aggregate = none ∧ ∃ p, e.source? sources = some p ∧ f.kind = .column p.1 p.2)

/-- The field folds what the expression folds, and has the formula of what the expression reads. -/
structure Means {σ : Type} (r : Rows σ) (sources : List Table) (f : Field) (e : Expr) : Prop where
  folding : f.aggregate = e.folding
  formula : Carries id (r.scope.kindFormula sources f.kind) (r.scope.formula e.reads)

end Field

theorem Interchangeable.resolveFrom_eq {a b : String} (h : Interchangeable a b) (first : Nat)
    (sources : List Table) : resolveFrom first a sources = resolveFrom first b sources := by
  induction sources generalizing first with
  | nil => rfl
  | cons t sources ih => rw [resolveFrom, resolveFrom, h.column?_eq, ih]

section

variable {σ : Type} {r : Rows σ} {sources : List Table}

variable (hcolumn : ∀ name, r.table.column? name = (resolveFrom 0 name sources).map (placeOf sources))

include hcolumn

theorem written?_eq_none {e : Expr} (h : resolveFrom 0 e.text sources = none) :
    r.scope.written? e = none := by
  have htable : r.scope.written? e = r.table.column? e.text := rfl
  rw [htable, hcolumn, h]
  rfl

/-- The field of an expression that folds nothing has the formula of the expression. -/
theorem kindFormula_ofValue {title : String} {e : Expr} {g : Field}
    (hg : Field.ofValue sources title e = .ok g)
    (hblock : e.isBlock = true → resolveFrom 0 e.text sources = none) :
    r.scope.kindFormula sources g.kind = r.scope.formula e := by
  -- A star has no column for its kind, so the general fact on kinds and formulas leaves it out.
  by_cases hstar : g.kind = .star
  · obtain ⟨qualifier, rfl⟩ := (Field.ofValue_star hg).mp hstar
    rw [hstar, Scope.formula, written?_eq_none hcolumn (hblock rfl)]
    rfl
  · have hscope : r.scope = (rowsAt r.world r.table 0).scope := rfl
    rw [hscope]
    refine (formula_eq_kindFormula hcolumn hg hstar fun q hq => ?_).symm
    subst hq
    exact written?_eq_none hcolumn (hblock rfl)

theorem means_of_isOf {f : Field} {e : Expr} (h : f.IsOf sources e)
    (hblock : e.reads.isBlock = true → resolveFrom 0 e.reads.text sources = none) :
    f.Means r sources e := by
  obtain ⟨title, g, hg, hkind, haggregate⟩ := h
  unfold Field.ofExpr at hg
  cases hcall : e.aggregate? with
  | none =>
    rw [Expr.reads_of_plain hcall] at hblock
    rw [hcall] at hg
    refine ⟨?_, ?_⟩
    · rw [haggregate, Field.ofValue_aggregate hg, Expr.folding, hcall, Option.map_none]
    · rw [Expr.reads_of_plain hcall, hkind, kindFormula_ofValue hcolumn hg hblock]
      exact .refl _
  | some call =>
    rw [hcall] at hg
    dsimp only at hg
    split at hg
    · rename_i argument hargs
      have hreads : e.reads = argument := by
        rw [Expr.reads, hcall]
        dsimp only
        rw [hargs]
        rfl
      rw [hreads] at hblock
      obtain ⟨v, hv, hg⟩ := bind_eq_ok.mp hg
      cases hg
      refine ⟨?_, ?_⟩
      · rw [haggregate, Expr.folding, hcall, Option.map_some]
      · rw [hreads, hkind, kindFormula_ofValue hcolumn hv hblock]
        exact .refl _
    · cases hg

theorem formula_source {e : Expr} {p : Nat × Nat} (h : e.source? sources = some p) :
    e.aggregate? = none ∧ r.scope.formula e = .ok (.slot (placeOf sources p)) := by
  have hwritten : resolveFrom 0 e.text sources = some p →
      r.scope.written? e = some (placeOf sources p) := by
    intro hp
    have htable : r.scope.written? e = r.table.column? e.text := rfl
    rw [htable, hcolumn, hp]
    rfl
  cases e with
  | column table name =>
    refine ⟨rfl, Rows.formula_column ?_⟩
    have hresolve : resolveColumn sources table name = some p := h
    unfold resolveColumn at hresolve
    rw [hcolumn, hresolve]
    rfl
  | literal | bind => cases h
  | binary | unary | call | case | ite | subquery | list | star | paren =>
    simp only [Expr.source?] at h
    split at h
    · cases h
    · rename_i hplain
      refine ⟨Option.not_isSome_iff_eq_none.mp hplain, ?_⟩
      rw [Scope.formula, hwritten h]

theorem means_of_source {f : Field} {e : Expr} {p : Nat × Nat} (hp : e.source? sources = some p)
    (haggregate : f.aggregate = none) (hkind : f.kind = .column p.1 p.2) : f.Means r sources e := by
  obtain ⟨hplain, hformula⟩ := formula_source hcolumn hp
  refine ⟨?_, ?_⟩
  · rw [haggregate, Expr.folding, hplain, Option.map_none]
  · rw [Expr.reads_of_plain hplain, hformula, hkind]
    exact .refl _

theorem means_of_standsFor {f : Field} {e : Expr} (h : f.StandsFor sources e)
    (hblock : e.reads.isBlock = true → resolveFrom 0 e.reads.text sources = none) :
    f.Means r sources e := by
  rcases h with ⟨e', halike, hof⟩ | ⟨haggregate, p, hp, hkind⟩
  · have hmeans : f.Means r sources e' := by
      refine means_of_isOf hcolumn hof fun hb => ?_
      rw [halike.reads.isBlock_eq] at hb
      rw [halike.reads.text.resolveFrom_eq, hblock hb]
    exact ⟨hmeans.folding.trans halike.folding_eq,
      hmeans.formula.trans (r.scope.formula_alike halike.reads)⟩
  · exact means_of_source hcolumn hp haggregate hkind

/-- Brackets are looked through where nothing is written like them. -/
theorem formula_layer {e l : Expr} (h : l ∈ e.layers)
    (hbrackets : ∀ a, Expr.paren a ∈ e.layers → resolveFrom 0 (Expr.paren a).text sources = none) :
    r.scope.formula e = r.scope.formula l := by
  fun_induction Expr.layers e with
  | case1 a ih =>
    rcases List.mem_cons.mp h with rfl | h
    · rfl
    · rw [Scope.formula, written?_eq_none hcolumn (hbrackets a List.mem_cons_self)]
      exact ih h fun b hb => hbrackets b (List.mem_cons_of_mem _ hb)
  | case2 e => rw [List.mem_singleton.mp h]

theorem means_of_layer {f : Field} {e l : Expr} (h : l ∈ e.layers)
    (hbrackets : ∀ a, Expr.paren a ∈ e.layers → resolveFrom 0 (Expr.paren a).text sources = none)
    (hf : f.Means r sources l) : f.Means r sources e := by
  refine ⟨hf.folding.trans (Expr.folding_layer h), ?_⟩
  have hformula : r.scope.formula e.reads = r.scope.formula l.reads := by
    rcases Expr.reads_layer h with hsame | ⟨hl, he⟩
    · rw [hsame]
    · rw [hl, he, formula_layer hcolumn h hbrackets]
  rw [hformula]
  exact hf.formula

end

/-! ### The field that a clause finds -/

namespace Fields

variable {sources : List Table} {fs : Fields}

/-- A field is found by the text of a layer, or the innermost one is a column, and the field is found by
its bare name or by the column that it is. -/
theorem find?_cases {e : Expr} {slot : Nat} (h : fs.find? sources e = some slot) :
    ∃ l ∈ e.layers, fs.findSpelling? (normalize l.text) = some slot ∨
      ∃ table name, l = .column table name ∧
        ((table = none ∧ fs.findSpelling? (normalize name) = some slot) ∨
          ∃ p, resolveColumn sources table name = some p ∧ fs.findColumn? p.1 p.2 = some slot) := by
  fun_induction Expr.layers e with
  | case1 a ih =>
    unfold find? at h
    split at h
    · rename_i found hfound
      cases h
      exact ⟨_, List.mem_cons_self, .inl hfound⟩
    · obtain ⟨l, hl, hfind⟩ := ih h
      exact ⟨l, List.mem_cons_of_mem _ hl, hfind⟩
  | case2 e hparen =>
    refine ⟨e, List.mem_singleton_self e, ?_⟩
    unfold find? at h
    split at h
    · rename_i found hfound
      cases h
      exact .inl hfound
    · refine .inr ?_
      split at h
      · rename_i table name _
        refine ⟨table, name, rfl, ?_⟩
        split at h
        · rename_i found hfound
          cases h
          cases table with
          | none => exact .inl ⟨rfl, hfound⟩
          | some t => cases hfound
        · obtain ⟨p, hp, hslot⟩ := Option.bind_eq_some_iff.mp h
          exact .inr ⟨p, hp, hslot⟩
      · exact absurd rfl (hparen _)
      · cases h

theorem column_of_findColumn? {s c slot : Nat} (h : fs.findColumn? s c = some slot) :
    ∃ f, fs[slot]? = some f ∧ f.aggregate = none ∧ f.kind = .column s c := by
  obtain ⟨hlt, hcolumn, _⟩ := List.findIdx?_eq_some_iff_getElem.mp h
  refine ⟨fs[slot], List.getElem?_eq_getElem hlt, ?_⟩
  unfold isColumn at hcolumn
  split at hcolumn
  · rename_i s' c' hkind
    simp only [Bool.and_eq_true, Bool.not_eq_true', beq_iff_eq] at hcolumn
    obtain ⟨⟨hplain, rfl⟩, rfl⟩ := hcolumn
    exact ⟨by simpa [Field.isAggregate] using hplain, hkind⟩
  · cases hcolumn

theorem ordinal?_eq_none {clause : String} {e : Expr} (h : ∀ x, e ≠ .literal (.number x)) :
    fs.ordinal? clause e = .ok none := by
  unfold ordinal?
  split
  · exact absurd rfl (h _)
  · rfl

end Fields

/-- No name gets in the way of what a clause refers to by an expression. -/
structure Answers (sources : List Table) (fs : Fields) (e : Expr) : Prop where
  /-- The first field that answers to a text stands for what has that text. -/
  standsFor : ∀ l ∈ e.layers, ∀ {i : Nat} {f : Field}, fs.findSpelling? (normalize l.text) = some i →
    fs[i]? = some f → f.StandsFor sources l
  /-- The first field that answers to a bare name stands for the column of that name. -/
  bare : ∀ name, Expr.column none name ∈ e.layers → ∀ {i : Nat} {f : Field},
    fs.findSpelling? (normalize name) = some i → fs[i]? = some f → f.StandsFor sources (.column none name)
  /-- Nothing is written like the brackets around what is meant. -/
  brackets : ∀ a, Expr.paren a ∈ e.layers → resolveFrom 0 (Expr.paren a).text sources = none
  /-- Nothing is written like a nested statement or a star that is meant. -/
  blocks : ∀ p ∈ e.reads :: e.layers, p.isBlock = true → resolveFrom 0 p.text sources = none

theorem Answers.block {sources : List Table} {fs : Fields} {e l : Expr} (h : Answers sources fs e)
    (hl : l ∈ e.layers) (hb : l.reads.isBlock = true) : resolveFrom 0 l.reads.text sources = none := by
  rcases Expr.reads_layer hl with hsame | ⟨hself, _⟩
  · rw [hsame] at hb ⊢
    exact h.blocks _ List.mem_cons_self hb
  · rw [hself] at hb ⊢
    exact h.blocks _ (List.mem_cons_of_mem _ hl) hb

/-- The first field that answers to a text means the expression, where it stands for a layer of it. -/
theorem Answers.means {σ : Type} {r : Rows σ} {sources : List Table}
    (hcolumn : ∀ name, r.table.column? name = (resolveFrom 0 name sources).map (placeOf sources))
    {fs : Fields} {e l : Expr} {spelling : String} {slot : Nat} (h : Answers sources fs e)
    (hl : l ∈ e.layers) (hfound : fs.findSpelling? spelling = some slot)
    (hstands : ∀ f, fs[slot]? = some f → f.StandsFor sources l) :
    ∃ f, fs[slot]? = some f ∧ f.Means r sources e := by
  have hf := List.getElem?_eq_getElem (Fields.lt_of_findSpelling? hfound)
  exact ⟨_, hf, means_of_layer hcolumn hl h.brackets
    (means_of_standsFor hcolumn (hstands _ hf) (h.block hl))⟩

theorem resolve_means {σ : Type} {r : Rows σ} {sources : List Table}
    (hcolumn : ∀ name, r.table.column? name = (resolveFrom 0 name sources).map (placeOf sources))
    {fs fs' : Fields} {clause : String} {e : Expr} {slot : Nat}
    (h : fs.resolve sources clause e = .ok (slot, fs')) (hnumber : ∀ x, e ≠ .literal (.number x))
    (hanswers : Answers sources fs e) : ∃ f, fs'[slot]? = some f ∧ f.Means r sources e := by
  rcases Fields.resolve_cases h with ⟨rfl, hordinal | hfound⟩ | ⟨f, hf, rfl, rfl⟩
  · rw [Fields.ordinal?_eq_none hnumber] at hordinal
    cases hordinal
  · obtain ⟨l, hl, hspelling | ⟨table, name, rfl, ⟨rfl, hname⟩ | ⟨p, hp, hslot⟩⟩⟩ := Fields.find?_cases hfound
    · exact hanswers.means hcolumn hl hspelling fun _ => hanswers.standsFor l hl hspelling
    · exact hanswers.means hcolumn hl hname fun _ => hanswers.bare name hl hname
    · obtain ⟨f, hf, haggregate, hkind⟩ := Fields.column_of_findColumn? hslot
      exact ⟨f, hf, means_of_layer hcolumn hl hanswers.brackets
        (means_of_source hcolumn hp haggregate hkind)⟩
  · obtain ⟨g, hg, rfl⟩ := Fields.hidden_eq_ok hf
    refine ⟨{ g with temporary := true }, by simp, ?_⟩
    exact means_of_isOf hcolumn ⟨e.text, g, hg, rfl, rfl⟩ (hanswers.block e.self_mem_layers)

/-! ### What the field reads -/

/-- What a field reads on a row, by a formula made for it alone. -/
def Rows.readField {σ : Type} (r : Rows σ) (f : Field) (row : Nat) : Run σ Cell := do
  let p ← Run.of (r.scope.fieldFormula [] f)
  r.value row p.1

section

variable {σ : Type} {r : Rows σ} {sources : List Table} {f : Field} {row : Nat} {st st' : σ} {c : Cell}

theorem gives_readField (hplaced : Scope.Placed sources f) :
    (r.readField f row).Gives st c st' ↔ (r.fieldValue sources f.kind row).Gives st c st' := by
  have hone : r.scope.OneFormula [f.kind] := by
    intro a b ha hb _
    have hkind : FieldKind.calculated a = .calculated b :=
      (List.mem_singleton.mp ha).trans (List.mem_singleton.mp hb).symm
    rw [FieldKind.calculated.inj hkind]
  have hrecalls : r.scope.Recalls [f.kind] [] := fun _ _ hlookup => by cases hlookup
  simp only [Rows.readField, Rows.fieldValue, Run.gives_bind, Run.gives_of]
  constructor
  · rintro ⟨⟨x, later⟩, mid, ⟨hx, hmid⟩, hvalue⟩
    have hformula := (Scope.fieldFormula_eq_ok hone hrecalls (List.mem_singleton_self _) hplaced hx).1
    exact ⟨x, mid, ⟨hformula, hmid⟩, hvalue⟩
  · rintro ⟨x, mid, ⟨hx, hmid⟩, hvalue⟩
    obtain ⟨later, hformula⟩ :=
      Scope.exists_fieldFormula hrecalls (List.mem_singleton_self _) hplaced hx
    exact ⟨(x, later), mid, ⟨hformula, hmid⟩, hvalue⟩

theorem Field.Means.gives_iff {e : Expr} (h : f.Means r sources e) :
    (r.fieldValue sources f.kind row).Gives st c st' ↔ (r.evaluated e.reads row).Gives st c st' := by
  simp only [Rows.fieldValue, Rows.evaluated, Run.gives_bind, Run.gives_of, h.formula.ok_iff]

end

/-- A clause whose expression finds the field of the only select item. -/
theorem resolve_of_found {sources : List Table} {item : SelectItem} {clause : String} {e : Expr} {slot : Nat}
    (hstar : ∀ qualifier, item.expr ≠ .star qualifier)
    (h : ((Fields.ofSelect sources [item]).bind fun fields =>
      (fields.resolve sources clause e).map fun p => (p.1, p.2.length)) = .ok (slot, 1)) :
    ∃ g, Field.ofExpr sources item.title item.expr = .ok g ∧
      Fields.ofSelect sources [item] = .ok [g.spell item.expr.text] ∧
      Fields.resolve [g.spell item.expr.text] sources clause e = .ok (slot, [g.spell item.expr.text]) := by
  obtain ⟨fields, hselect, h⟩ := bind_eq_ok.mp h
  have hitem := hselect
  rw [Fields.ofSelect_singleton] at hitem
  obtain ⟨g, hg, rfl⟩ := Fields.ofItem_one hstar hitem
  cases hresolve : Fields.resolve [g.spell item.expr.text] sources clause e with
  | error err =>
    rw [hresolve] at h
    cases h
  | ok p =>
    obtain ⟨found, fs'⟩ := p
    rw [hresolve] at h
    obtain ⟨rfl, hlength⟩ := Prod.mk.inj (Except.ok.inj h)
    rcases Fields.resolve_cases hresolve with ⟨rfl, _⟩ | ⟨f, _, rfl, _⟩
    · exact ⟨g, hg, hselect, hresolve⟩
    · cases hlength

/-- Clause references keep their meaning: the field that a clause finds or adds for an expression folds what
the expression folds, and on every row of the joined sources it reads what the expression reads, as long as
the fields that answer to the text of the expression are fields of it, up to how names are written. A number
is not an expression here: it points to a field by its place. -/
theorem resolve_keeps_meaning {σ : Type} {world : World} {runner : Runner σ} {first working : Table}
    {others : List Table} {joins : List JoinClause} {fs fs' fields pointed : Fields} {clause : String}
    {e : Expr} {slot : Nat} {st st' : σ}
    (hnamed : ∀ source ∈ chainSources first joins others, source.Named)
    (hresolve : fs.resolve (chainSources first joins others) clause e = .ok (slot, fs'))
    (hmade : Fields.Made (chainSources first joins others) fields) (hfields : fs' <+: fields)
    (hjoins : (joinFrom world runner 1 first fields joins others).Gives st (working, pointed) st')
    (hnumber : ∀ x, e ≠ .literal (.number x)) (hanswers : Answers (chainSources first joins others) fs e) :
    ∃ f, pointed[slot]? = some f ∧ f.aggregate = e.folding ∧ ∀ (row : Nat) (before after : σ) (c : Cell),
      (Rows.readField ⟨world, working, runner⟩ f row).Gives before c after ↔
        (Rows.evaluated ⟨world, working, runner⟩ e.reads row).Gives before c after := by
  have hcolumn (name : String) := joinFrom_column? hnamed hjoins name
  obtain ⟨g, hg, hmeans⟩ := resolve_means (r := ⟨world, working, runner⟩) hcolumn hresolve hnumber
    hanswers
  -- Later clauses add fields behind, and joins only move the columns: kind and aggregate stay.
  obtain ⟨more, rfl⟩ := hfields
  have hlt := (List.getElem?_eq_some_iff.mp hg).1
  have hall : (fs' ++ more)[slot]? = some g := by rwa [List.getElem?_append_left hlt]
  have hsame := congrArg (fun l => l[slot]?) (joinFrom_unpointed hjoins)
  simp only [List.getElem?_map, hall, Option.map_some] at hsame
  obtain ⟨f, hf, hunpointed⟩ := Option.map_eq_some_iff.mp hsame
  have hkind : f.unpointed.kind = g.unpointed.kind := by rw [hunpointed]
  have haggregate : f.unpointed.aggregate = g.unpointed.aggregate := by rw [hunpointed]
  change f.kind = g.kind at hkind
  refine ⟨f, hf, haggregate.trans hmeans.folding, fun row before after c => ?_⟩
  have hplaced : Scope.Placed (chainSources first joins others) f := by
    intro s c hcolumn
    obtain ⟨_, _, _, hphysical⟩ := joinFrom_pointed hmade hjoins f (List.mem_of_getElem? hf) hcolumn
    exact hphysical
  rw [gives_readField hplaced, hkind]
  exact hmeans.gives_iff

/-- An expression in brackets and in another case than the one that was selected. -/
theorem resolve_keeps_meaning_otherCase :
    let table := Table.derived "T" ["A", "B"] [[.text "p", .text "q"]]
    let item : SelectItem := ⟨.binary .concat (.column none "a") (.column none "b"), "a || b", none⟩
    let e : Expr := .paren (.binary .concat (.column none "A") (.column none "B"))
    ∃ fields f, Fields.ofSelect [table] [item] = .ok fields ∧
      fields.resolve [table] "ORDER BY" e = .ok (0, fields) ∧ fields[0]? = some f ∧
      f.aggregate = none ∧ ((rowsAt emptyWorld table 0).readField f 0).Gives [] (.text "pq") [] := by
  intro table item e
  have hfound : ((Fields.ofSelect [table] [item]).bind fun fields =>
      (fields.resolve [table] "ORDER BY" e).map fun p => (p.1, p.2.length)) = .ok (0, 1) := by
    decide +kernel
  obtain ⟨g, hg, hselect, hresolve⟩ := resolve_of_found (fun _ => Expr.noConfusion) hfound
  have hnamed : ∀ source ∈ chainSources table [] [], source.Named := by
    intro source hsource
    rw [List.mem_singleton.mp hsource]
    exact Table.derived_named _ _ _
  have hjoins : (joinFrom emptyWorld (runnerAt remembered emptyWorld 0) 1 table
      [g.spell item.expr.text] [] []).Gives [] (table, [g.spell item.expr.text]) [] :=
    Run.gives_pure.mpr ⟨rfl, rfl⟩
  have halike : item.expr.Alike (.binary .concat (.column none "A") (.column none "B")) :=
    .binary _ (.column_of_asciiUpper none (by decide +kernel)) (.column_of_asciiUpper none (by decide +kernel))
  have hof : (g.spell item.expr.text).IsOf [table] item.expr := ⟨_, g, hg, by simp, by simp⟩
  have hbracketed : Fields.findSpelling? [g.spell item.expr.text] (normalize e.text) = none := by
    have hnone : (Fields.ofSelect [table] [item]).map
        (fun fields => fields.findSpelling? (normalize e.text)) = .ok none := by decide +kernel
    rw [hselect] at hnone
    exact Except.ok.inj hnone
  have hanswers : Answers (chainSources table [] []) [g.spell item.expr.text] e := by
    constructor
    case standsFor =>
      intro l hl i f hspelling hf
      rcases List.mem_cons.mp hl with rfl | hl
      · cases hbracketed.symm.trans hspelling
      · rw [List.mem_singleton.mp hl, List.mem_singleton.mp (List.mem_of_getElem? hf)]
        exact .inl ⟨_, halike, hof⟩
    case bare =>
      intro name hname
      simp [e, Expr.layers] at hname
    case brackets =>
      intro a ha
      simp only [e, Expr.layers, List.mem_cons, Expr.paren.injEq, List.not_mem_nil, or_false, reduceCtorEq]
        at ha
      rw [ha]
      decide +kernel
    case blocks =>
      intro p hp hblock
      simp only [e, Expr.layers, Expr.reads, Expr.aggregate?, List.mem_cons, List.not_mem_nil, or_false] at hp
      rcases hp with rfl | rfl | rfl <;> cases hblock
  obtain ⟨f, hf, haggregate, hreads⟩ := resolve_keeps_meaning hnamed hresolve (.ofSelect hselect)
    List.prefix_rfl hjoins (fun _ => Expr.noConfusion) hanswers
  have hvalue : (Rows.evaluated ⟨emptyWorld, table, runnerAt remembered emptyWorld 0⟩ e.reads 0).Gives []
      (.text "pq") [] := by
    decide +kernel
  have hplain : e.folding = none := by decide +kernel
  exact ⟨_, f, hselect, hresolve, hf, haggregate.trans hplain, (hreads 0 [] [] _).mpr hvalue⟩

/-- A title that is written like an expression gets in its way: the clause orders by the column with the
title, which reads something else. -/
theorem aliased_field_read :
    let table := Table.derived "T" ["A", "B"] [[.text "p", .text "q"]]
    let item : SelectItem := ⟨.column none "B", "B", some "A || B"⟩
    let e : Expr := .binary .concat (.column none "A") (.column none "B")
    ∃ fields f, Fields.ofSelect [table] [item] = .ok fields ∧
      fields.resolve [table] "ORDER BY" e = .ok (0, fields) ∧ fields[0]? = some f ∧
      ((rowsAt emptyWorld table 0).readField f 0).Gives [] (.text "q") [] ∧
      ((rowsAt emptyWorld table 0).evaluated e 0).Gives [] (.text "pq") [] := by
  intro table item e
  have hfound : ((Fields.ofSelect [table] [item]).bind fun fields =>
      (fields.resolve [table] "ORDER BY" e).map fun p => (p.1, p.2.length)) = .ok (0, 1) := by
    decide +kernel
  obtain ⟨g, hg, hselect, hresolve⟩ := resolve_of_found (fun _ => Expr.noConfusion) hfound
  refine ⟨_, g.spell item.expr.text, hselect, hresolve, rfl, ?_, by decide +kernel⟩
  have hread : (Field.ofExpr [table] item.title item.expr).toOption.any (fun g =>
      decide (((rowsAt emptyWorld table 0).readField (g.spell item.expr.text) 0).Gives [] (.text "q") [])) =
        true := by
    decide +kernel
  obtain ⟨g', hg', hread⟩ := exists_of_any hread
  obtain rfl : g = g' := Except.ok.inj (hg.symm.trans hg')
  exact of_decide_eq_true hread

end GridQuery
