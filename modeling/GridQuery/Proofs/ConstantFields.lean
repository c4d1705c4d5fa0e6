import GridQuery.Proofs.Ordinals
import GridQuery.Proofs.PaddedRows

/-!
The fields of constants. A clause looks a constant up under its text, like any other expression, and adds a hidden
field for it where none answers. Beside that field all others stay what they are: expressions that do not name it
are resolved to the same fields, which have the same formulas and the same cells.
-/

namespace GridQuery
set_option autoImplicit false

theorem except_map_map {α β γ : Type} (x : Except QueryError α) (f : α → β) (g : β → γ) :
    (x.map f).map g = x.map fun a => g (f a) := by
  cases x <;> rfl

theorem map_eq_map {α β γ : Type} {x : Except QueryError α} {y : Except QueryError β} {f : α → γ} {g : β → γ}
    (h : x.map f = y.map g) :
    (∃ e, x = .error e ∧ y = .error e) ∨ ∃ a b, x = .ok a ∧ y = .ok b ∧ f a = g b := by
  cases x with
  | error e =>
    cases y with
    | error e' =>
      cases h
      exact .inl ⟨e, rfl, rfl⟩
    | ok b => cases h
  | ok a =>
    cases y with
    | error e => cases h
    | ok b => exact .inr ⟨a, b, rfl, rfl, Except.ok.inj h⟩

/-! ### Names of constants -/

/-- The name that a constant has as an expression. -/
def Cell.constantName (c : Cell) : String :=
  normalize (Expr.literal c).text

/-- The hidden field that a clause adds for a constant. -/
def constantField (c : Cell) : Field :=
  ⟨.calculated (.literal c), none, (Expr.literal c).text, [c.constantName], true, none⟩

namespace Expr

/-- Whether an expression is one constant. -/
def isConstant (c : Cell) : Expr → Bool
  | .literal d => d == c
  | _ => false

theorem isConstant_iff {c : Cell} {e : Expr} : e.isConstant c = true ↔ e = .literal c := by
  cases e <;> simp [isConstant]

/-- The names by which a clause looks an expression up among the fields. -/
def clauseNames : Expr → List String
  | .column none name => [normalize (Expr.text (.column none name)), normalize name]
  | .paren a => normalize (Expr.text (.paren a)) :: a.clauseNames
  | e => [normalize e.text]

theorem text_mem_clauseNames (e : Expr) : normalize e.text ∈ e.clauseNames := by
  unfold clauseNames
  split <;> exact List.mem_cons_self

end Expr

/-- Among some fields the name of a constant means that constant, and nothing else is written like it. -/
structure Fields.KeepName (fields : Fields) (c : Cell) : Prop where
  spelled : ∀ f ∈ fields, f.spellings.contains c.constantName = true →
    f.kind = .calculated (.literal c) ∧ f.aggregate = none
  written : ∀ f ∈ fields, ∀ e, f.kind = .calculated e → e.text = (Expr.literal c).text → e = .literal c

/-- Whether the value of a field is one constant. -/
def FieldKind.isConstant (c : Cell) : FieldKind → Bool
  | .calculated e => e.isConstant c
  | _ => false

/-- Whether the value of a field is that of an expression with a text. -/
def FieldKind.isWritten (text : String) : FieldKind → Bool
  | .calculated e => e.text == text
  | _ => false

theorem FieldKind.isConstant_iff {c : Cell} {kind : FieldKind} :
    kind.isConstant c = true ↔ kind = .calculated (.literal c) := by
  cases kind <;> simp [isConstant, Expr.isConstant_iff]

instance decidableKeepName (fields : Fields) (c : Cell) : Decidable (fields.KeepName c) :=
  decidable_of_iff
    (∀ f ∈ fields, (f.spellings.contains c.constantName = true → f.kind.isConstant c = true ∧ f.aggregate = none) ∧
      (f.kind.isWritten (Expr.literal c).text = true → f.kind.isConstant c = true)) <| by
    simp only [FieldKind.isConstant_iff]
    refine ⟨fun h => ⟨fun f hf => (h f hf).1, fun f hf e hkind htext => ?_⟩, fun h f hf => ⟨h.spelled f hf, ?_⟩⟩
    · have hwritten := (h f hf).2 (by rw [hkind]; exact beq_iff_eq.mpr htext)
      exact FieldKind.calculated.inj (hkind.symm.trans hwritten)
    · intro hwritten
      cases hkind : f.kind with
      | calculated e =>
        rw [hkind] at hwritten
        rw [h.written f hf e hkind (beq_iff_eq.mp hwritten)]
      | column | subquery | star => rw [hkind] at hwritten; cases hwritten

theorem Fields.KeepName.of_subset {fields more : Fields} {c : Cell} (h : more.KeepName c)
    (hsub : fields ⊆ more) : fields.KeepName c where
  spelled f hf := h.spelled f (hsub hf)
  written f hf := h.written f (hsub hf)

/-! ### Slots beside the field of a constant -/

namespace Fields

variable {sources : List Table} {fs : Fields} {clause : String} {c : Cell} {p : Nat}

theorem findSpelling?_insertIdx (hp : p ≤ fs.length) {name : String} (hname : name ≠ c.constantName) :
    findSpelling? (fs.insertIdx p (constantField c)) name = (fs.findSpelling? name).map (movedIndex p) := by
  apply findIdx?_insertIdx hp
  simpa [constantField] using hname

theorem find?_insertIdx (hp : p ≤ fs.length) : ∀ {e : Expr}, c.constantName ∉ e.clauseNames →
    find? (fs.insertIdx p (constantField c)) sources e = (fs.find? sources e).map (movedIndex p)
  | e, he => by
    have htext : normalize e.text ≠ c.constantName := fun h => he (h ▸ e.text_mem_clauseNames)
    unfold find?
    rw [findSpelling?_insertIdx hp htext]
    cases fs.findSpelling? (normalize e.text) with
    | some slot => rfl
    | none =>
      cases e with
      | column table name =>
        have hcolumn (s k : Nat) : findColumn? (fs.insertIdx p (constantField c)) s k =
            (fs.findColumn? s k).map (movedIndex p) := findIdx?_insertIdx hp rfl
        cases table with
        | some t =>
          simp only [Option.map_none, Option.isNone_some, Bool.false_eq_true, if_false, hcolumn]
          cases resolveColumn sources (some t) name <;> rfl
        | none =>
          have hname : normalize name ≠ c.constantName :=
            fun h => he (h ▸ List.mem_cons_of_mem _ List.mem_cons_self)
          simp only [Option.map_none, Option.isNone_none, if_true, hcolumn, findSpelling?_insertIdx hp hname]
          cases fs.findSpelling? (normalize name) with
          | some slot => rfl
          | none => cases resolveColumn sources none name <;> rfl
      | paren inner => exact find?_insertIdx hp fun h => he (List.mem_cons_of_mem _ h)
      | literal | bind | binary | unary | call | case | ite | subquery | list | star => rfl

/-- Beside a hidden constant that it does not name, an expression is resolved as without it. -/
theorem resolve_insertIdx (hp : p ≤ fs.length) (hshown : fs.selectedCount ≤ p) {e : Expr}
    (he : c.constantName ∉ e.clauseNames) :
    resolve (fs.insertIdx p (constantField c)) sources clause e =
      (fs.resolve sources clause e).map fun r => (movedIndex p r.1, r.2.insertIdx p (constantField c)) := by
  have hordinal : ordinal? (fs.insertIdx p (constantField c)) clause e = fs.ordinal? clause e := by
    unfold ordinal?
    rw [selectedCount_insertIdx rfl]
  unfold resolve
  rw [hordinal, find?_insertIdx hp he]
  cases ho : fs.ordinal? clause e with
  | error err => rfl
  | ok o =>
    cases o with
    | some slot =>
      have hslot : slot < p := (lt_selectedCount_of_ordinal? ho).trans_le hshown
      simp only [bind, Except.bind, Except.map, movedIndex_of_lt hslot]
    | none =>
      cases fs.find? sources e with
      | some slot => rfl
      | none =>
        simp only [bind, Except.bind, Option.map_none]
        cases hidden sources clause e with
        | error err => rfl
        | ok f =>
          simp only [Except.map, List.length_insertIdx_of_le_length hp, movedIndex, if_neg (Nat.not_lt.mpr hp)]
          rw [insertIdx_append hp]

theorem resolve_constant_there (hnumber : ∀ x, c ≠ .number x) {slot : Nat}
    (h : fs.findSpelling? c.constantName = some slot) :
    fs.resolve sources clause (.literal c) = .ok (slot, fs) :=
  resolve_spelled (fun x hx => hnumber x (Expr.literal.inj hx)) h

theorem resolve_constant_added (hnumber : ∀ x, c ≠ .number x) (h : fs.findSpelling? c.constantName = none) :
    fs.resolve sources clause (.literal c) = .ok (fs.length, fs ++ [constantField c]) := by
  have hfind : fs.find? sources (.literal c) = none := by
    unfold find?
    rw [show normalize (Expr.literal c).text = c.constantName from rfl, h]
  refine bind_eq_ok.mpr ⟨none, ordinal?_eq_none fun x hx => hnumber x (Expr.literal.inj hx), ?_⟩
  simp only [hfind]
  rfl

/-! ### Orders with a constant among their keys -/

/-- The slots of an order with their directions, and the fields with those that it adds. -/
def ordered (fs : Fields) (sources : List Table) (orders : List OrderItem) :
    Except QueryError (List (Nat × Direction) × Fields) :=
  (fs.resolveAll sources "ORDER BY" (orders.map OrderItem.expr)).map fun r =>
    (r.1.zip (orders.map OrderItem.direction), r.2)

theorem ordered_cons (fs : Fields) (sources : List Table) (o : OrderItem) (orders : List OrderItem) :
    fs.ordered sources (o :: orders) = (fs.resolve sources "ORDER BY" o.expr).bind fun r =>
      (r.2.ordered sources orders).map fun q => ((r.1, o.direction) :: q.1, q.2) := by
  simp only [ordered, List.map_cons, resolveAll, bind, Except.bind]
  cases fs.resolve sources "ORDER BY" o.expr with
  | error e => rfl
  | ok r =>
    simp only
    cases r.2.resolveAll sources "ORDER BY" (orders.map OrderItem.expr) <;> rfl

theorem ordered_append {orders : List OrderItem} {keys : List (Nat × Direction)} {gs : Fields}
    (h : fs.ordered sources orders = .ok (keys, gs)) :
    ∃ added, gs = fs ++ added ∧ ∀ f ∈ added, f.temporary = true := by
  unfold ordered at h
  cases hall : fs.resolveAll sources "ORDER BY" (orders.map OrderItem.expr) with
  | error e =>
    rw [hall] at h
    cases h
  | ok r =>
    rw [hall] at h
    cases h
    obtain ⟨added, hfields, hadded⟩ := resolveAll_append hall
    exact ⟨added, hfields, fun f hf => by
      obtain ⟨_, _, hf⟩ := hadded f hf
      exact hidden_temporary hf⟩

/-- An order without the constant among its keys. -/
def withoutConstant (c : Cell) (orders : List OrderItem) : List OrderItem :=
  orders.filter fun o => !o.expr.isConstant c

/-- The keys of an order that are not of a slot, with the fields. -/
def besideSlot (slot : Nat) (r : List (Nat × Direction) × Fields) : List (Nat × Direction) × Fields :=
  (r.1.filter (fun key => key.1 != slot), r.2)

/-- Once a field answers to the constant, its entries are keys of the slot of that field, and bring nothing. -/
theorem ordered_there (hnumber : ∀ x, c ≠ .number x) (sources : List Table) {slot : Nat}
    {orders : List OrderItem} (h : fs.findSpelling? c.constantName = some slot) :
    (fs.ordered sources orders).map (besideSlot slot) =
      (fs.ordered sources (withoutConstant c orders)).map (besideSlot slot) := by
  induction orders generalizing fs with
  | nil => rfl
  | cons o orders ih =>
    cases ho : o.expr.isConstant c with
    | true =>
      rw [withoutConstant, List.filter_cons_of_neg (by simp [ho]), ← withoutConstant, ← ih h, ordered_cons,
        Expr.isConstant_iff.mp ho, resolve_constant_there hnumber h, Except.bind, except_map_map]
      refine congrArg (Except.map · _) (funext fun q => ?_)
      simp [besideSlot]
    | false =>
      rw [withoutConstant, List.filter_cons_of_pos (by simp [ho]), ← withoutConstant, ordered_cons, ordered_cons]
      cases hr : fs.resolve sources "ORDER BY" o.expr with
      | error e => rfl
      | ok r =>
        obtain ⟨k, gs⟩ := r
        have hgs : gs.findSpelling? c.constantName = some slot := by
          rcases resolve_cases hr with ⟨rfl, _⟩ | ⟨f, _, rfl, _⟩
          · exact h
          · rw [findSpelling?_append (.inl (by rw [h]; rfl)), h]
        have hstep (x : Except QueryError (List (Nat × Direction) × Fields)) :
            (x.map fun q => ((k, o.direction) :: q.1, q.2)).map (besideSlot slot) =
              (x.map (besideSlot slot)).map fun q =>
                (if k != slot then (k, o.direction) :: q.1 else q.1, q.2) := by
          rw [except_map_map, except_map_map]
          simp only [besideSlot, List.filter_cons]
        simp only [Except.bind, hstep, ih hgs]

/-- Keys and fields where the hidden field of the constant stands among the others. -/
def withConstant (c : Cell) (p : Nat) (r : List (Nat × Direction) × Fields) : List (Nat × Direction) × Fields :=
  (r.1.map fun key => (movedIndex p key.1, key.2), r.2.insertIdx p (constantField c))

/-- Once the field of the constant is added, its entries are keys of its slot, and the others those that they are
without it. -/
theorem ordered_added (hnumber : ∀ x, c ≠ .number x) (sources : List Table) {orders : List OrderItem}
    (horders : ∀ o ∈ orders, o.expr ≠ .literal c → c.constantName ∉ o.expr.clauseNames) (hp : p ≤ fs.length)
    (hshown : fs.selectedCount ≤ p) (h : findSpelling? (fs.take p) c.constantName = none) :
    (ordered (fs.insertIdx p (constantField c)) sources orders).map (besideSlot p) =
      (fs.ordered sources (withoutConstant c orders)).map (withConstant c p) := by
  induction orders generalizing fs with
  | nil => rfl
  | cons o orders ih =>
    obtain ⟨hfirst, hrest⟩ := List.forall_mem_cons.mp horders
    cases ho : o.expr.isConstant c with
    | true =>
      have hfound : findSpelling? (fs.insertIdx p (constantField c)) c.constantName = some p := by
        have hnone := List.findIdx?_eq_none_iff.mp h
        refine List.findIdx?_eq_some_iff_getElem.mpr ⟨?_, ?_, fun k hk => ?_⟩
        · rw [List.length_insertIdx_of_le_length hp]
          exact Nat.lt_succ_of_le hp
        · simp [constantField]
        · rw [List.getElem_insertIdx_of_lt hk]
          simpa using hnone _ (List.mem_take_iff_getElem.mpr ⟨k, by omega, rfl⟩)
      rw [withoutConstant, List.filter_cons_of_neg (by simp [ho]), ← withoutConstant, ← ih hrest hp hshown h,
        ordered_cons, Expr.isConstant_iff.mp ho, resolve_constant_there hnumber hfound, Except.bind, except_map_map]
      refine congrArg (Except.map · _) (funext fun q => ?_)
      simp [besideSlot]
    | false =>
      have hname : c.constantName ∉ o.expr.clauseNames :=
        hfirst fun he => by rw [Expr.isConstant_iff.mpr he] at ho; cases ho
      rw [withoutConstant, List.filter_cons_of_pos (by simp [ho]), ← withoutConstant, ordered_cons, ordered_cons,
        resolve_insertIdx hp hshown hname]
      cases hr : fs.resolve sources "ORDER BY" o.expr with
      | error e => rfl
      | ok r =>
        obtain ⟨k, gs⟩ := r
        have hgs : p ≤ gs.length ∧ gs.selectedCount ≤ p ∧ findSpelling? (gs.take p) c.constantName = none := by
          rcases resolve_cases hr with ⟨rfl, _⟩ | ⟨f, hf, rfl, _⟩
          · exact ⟨hp, hshown, h⟩
          · refine ⟨by simp; omega, ?_, ?_⟩
            · rwa [selectedCount_append fun g hg => List.mem_singleton.mp hg ▸ hidden_temporary hf]
            · rwa [List.take_append_of_le_length hp]
        have hstep (x : Except QueryError (List (Nat × Direction) × Fields)) :
            (x.map fun q => ((movedIndex p k, o.direction) :: q.1, q.2)).map (besideSlot p) =
              (x.map (besideSlot p)).map fun q => ((movedIndex p k, o.direction) :: q.1, q.2) := by
          rw [except_map_map, except_map_map]
          simp [besideSlot, movedIndex_ne]
        have hstep' (x : Except QueryError (List (Nat × Direction) × Fields)) :
            (x.map fun q => ((k, o.direction) :: q.1, q.2)).map (withConstant c p) =
              (x.map (withConstant c p)).map fun q => ((movedIndex p k, o.direction) :: q.1, q.2) := by
          rw [except_map_map, except_map_map]
          rfl
        change ((ordered (gs.insertIdx p (constantField c)) sources orders).map
          fun q => ((movedIndex p k, o.direction) :: q.1, q.2)).map (besideSlot p) =
            ((gs.ordered sources (withoutConstant c orders)).map
              fun q => ((k, o.direction) :: q.1, q.2)).map (withConstant c p)
        rw [hstep, hstep', ih hrest hgs.1 hgs.2.1 hgs.2.2]

/-- How keys and fields with a constant stand to those without: as they are; with further keys of a slot whose
field is the constant; or with a hidden field for it, from a slot `start` on, and keys of its slot. -/
inductive Padded (c : Cell) (start : Nat) (keys : List (Nat × Direction)) (fs : Fields) :
    List (Nat × Direction) → Fields → Prop where
  | same : Padded c start keys fs keys fs
  | there {slot : Nat} {more : List (Nat × Direction)} : fs.findSpelling? c.constantName = some slot →
      (more.filter fun key => key.1 != slot) = keys.filter (fun key => key.1 != slot) →
      Padded c start keys fs more fs
  | added {p : Nat} {more : List (Nat × Direction)} : start ≤ p → p ≤ fs.length →
      (more.filter fun key => key.1 != p) = keys.map (fun key => (movedIndex p key.1, key.2)) →
      Padded c start keys fs more (fs.insertIdx p (constantField c))

theorem Padded.subset {start : Nat} {keys more : List (Nat × Direction)} {fs fs' : Fields}
    (h : Padded c start keys fs more fs') : fs ⊆ fs' := by
  cases h with
  | same | there => exact List.Subset.refl fs
  | added => exact List.subset_insertIdx _ _ _

theorem Padded.cons {start start' slot : Nat} {keys more : List (Nat × Direction)} {fs fs' : Fields}
    (h : Padded c start' keys fs more fs') (hle : start ≤ start') (hslot : slot < start') (d : Direction) :
    Padded c start ((slot, d) :: keys) fs ((slot, d) :: more) fs' := by
  cases h with
  | same => exact .same
  | there hfound hkeys => exact .there hfound (by rw [List.filter_cons, List.filter_cons, hkeys])
  | added hstart hp hkeys =>
    refine .added (hle.trans hstart) hp ?_
    have hbefore := Nat.lt_of_lt_of_le hslot hstart
    rw [List.filter_cons_of_pos (by simpa using hbefore.ne), hkeys, List.map_cons, movedIndex_of_lt hbefore]

/-- Orders with a constant fail as without it, and come to the same keys and fields but for those of the
constant. -/
theorem ordered_padded (hnumber : ∀ x, c ≠ .number x) (sources : List Table) {orders : List OrderItem}
    (horders : ∀ o ∈ orders, o.expr ≠ .literal c → c.constantName ∉ o.expr.clauseNames) (fs : Fields) :
    (∃ e, fs.ordered sources orders = .error e ∧ fs.ordered sources (withoutConstant c orders) = .error e) ∨
      ∃ keys gs more gs', fs.ordered sources (withoutConstant c orders) = .ok (keys, gs) ∧
        fs.ordered sources orders = .ok (more, gs') ∧ Padded c fs.length keys gs more gs' := by
  induction orders generalizing fs with
  | nil => exact .inr ⟨_, _, _, _, rfl, rfl, .same⟩
  | cons o orders ih =>
    obtain ⟨_, hrest⟩ := List.forall_mem_cons.mp horders
    cases ho : o.expr.isConstant c with
    | true =>
      have hwithout : withoutConstant c (o :: orders) = withoutConstant c orders :=
        List.filter_cons_of_neg (by simp [ho])
      rw [hwithout, ordered_cons, Expr.isConstant_iff.mp ho]
      cases hfind : fs.findSpelling? c.constantName with
      | some slot =>
        rw [resolve_constant_there hnumber hfind, Except.bind]
        rcases map_eq_map (ordered_there hnumber sources hfind) with ⟨e, hall, hnone⟩ | ⟨r, q, hall, hnone, hsame⟩
        · exact .inl ⟨e, by rw [hall]; rfl, hnone⟩
        · obtain ⟨more, gs'⟩ := r
          obtain ⟨keys, gs⟩ := q
          obtain ⟨hkeys, rfl⟩ := Prod.mk.inj hsame
          have hthere : ((slot, o.direction) :: more).filter (fun key => key.1 != slot) =
              keys.filter fun key => key.1 != slot := (List.filter_cons_of_neg (by simp)).trans hkeys
          refine .inr ⟨keys, _, _, _, hnone, by rw [hall]; rfl, .there ?_ hthere⟩
          obtain ⟨added, rfl, _⟩ := ordered_append hnone
          rw [findSpelling?_append (.inl (by rw [hfind]; rfl)), hfind]
      | none =>
        rw [resolve_constant_added hnumber hfind, Except.bind]
        have hadded := ordered_added hnumber sources hrest (p := fs.length) (Nat.le_refl _)
          (List.length_filter_le _ _) (by rwa [List.take_length])
        rw [List.insertIdx_length_self] at hadded
        rcases map_eq_map hadded with ⟨e, hall, hnone⟩ | ⟨r, q, hall, hnone, hsame⟩
        · exact .inl ⟨e, by rw [hall]; rfl, hnone⟩
        · obtain ⟨more, gs'⟩ := r
          obtain ⟨keys, gs⟩ := q
          obtain ⟨hkeys, rfl⟩ := Prod.mk.inj hsame
          obtain ⟨added, rfl, _⟩ := ordered_append hnone
          refine .inr ⟨keys, _, _, _, hnone, by rw [hall]; rfl, .added (Nat.le_refl _) (by simp) ?_⟩
          rw [← hkeys, List.filter_cons_of_neg (by simp)]
    | false =>
      have hwithout : withoutConstant c (o :: orders) = o :: withoutConstant c orders :=
        List.filter_cons_of_pos (by simp [ho])
      rw [hwithout, ordered_cons, ordered_cons]
      cases hr : fs.resolve sources "ORDER BY" o.expr with
      | error e => exact .inl ⟨e, rfl, rfl⟩
      | ok r =>
        obtain ⟨k, gs⟩ := r
        have hk : fs.length ≤ gs.length ∧ k < gs.length := by
          rcases resolve_eq_ok hr with ⟨rfl, hk⟩ | ⟨f, _, rfl, rfl⟩
          · exact ⟨Nat.le_refl _, hk⟩
          · simp
        rcases ih hrest gs with ⟨e, hall, hnone⟩ | ⟨keys, hs, more, hs', hnone, hall, hpadded⟩
        · exact .inl ⟨e, by simp only [Except.bind, hall, Except.map], by simp only [Except.bind, hnone, Except.map]⟩
        · exact .inr ⟨_, _, _, _, by simp only [Except.bind, hnone, Except.map],
            by simp only [Except.bind, hall, Except.map], hpadded.cons hk.1 hk.2 o.direction⟩

end Fields

section Layouts

variable {c : Cell} {sources : List Table} {s : Statement}

/-- Planning ends with the order, over the fields that the other clauses need. -/
theorem layout_eq_ordered (sources : List Table) (s : Statement) :
    layout sources s = (Fields.ofSelect sources s.items).bind fun selected =>
      (selected.resolveAll sources "GROUP BY" s.groupBy).bind fun groups =>
        (groups.2.resolveAll sources "HAVING" ((s.having.map groupParts).getD [])).bind fun having =>
          (having.2.ordered sources s.orderBy).map fun r => ⟨r.2, groups.1, r.1⟩ := by
  have hmap {α β : Type} (x : Except QueryError α) (f : α → β) : (x.bind fun a => .ok (f a)) = x.map f := by
    cases x <;> rfl
  simp only [Fields.ordered, except_map_map]
  simp only [← hmap]
  rfl

/-- The plan of a statement with a constant in its order is the one without it, but for the keys and the field of
the constant. -/
theorem layout_padded (sources : List Table) (hnumber : ∀ x, c ≠ .number x)
    (horders : ∀ o ∈ s.orderBy, o.expr ≠ .literal c → c.constantName ∉ o.expr.clauseNames) :
    (∃ e, layout sources s = .error e ∧
        layout sources { s with orderBy := Fields.withoutConstant c s.orderBy } = .error e) ∨
      ∃ plan plan' start, layout sources { s with orderBy := Fields.withoutConstant c s.orderBy } = .ok plan ∧
        layout sources s = .ok plan' ∧ plan'.groupKeys = plan.groupKeys ∧
        Fields.Padded c start plan.orderKeys plan.fields plan'.orderKeys plan'.fields ∧
        (∀ k ∈ plan.groupKeys, k < start) ∧ ∀ f ∈ plan.fields.drop start, f.temporary = true := by
  rw [layout_eq_ordered, layout_eq_ordered]
  cases hselected : Fields.ofSelect sources s.items with
  | error e => exact .inl ⟨e, rfl, rfl⟩
  | ok selected =>
    simp only [Except.bind]
    cases hgroups : selected.resolveAll sources "GROUP BY" s.groupBy with
    | error e => exact .inl ⟨e, rfl, rfl⟩
    | ok groups =>
      simp only
      cases hhaving : groups.2.resolveAll sources "HAVING" ((s.having.map groupParts).getD []) with
      | error e => exact .inl ⟨e, rfl, rfl⟩
      | ok having =>
        simp only
        obtain ⟨_, _, hkeys⟩ := Fields.resolveAll_eq_ok hgroups
        obtain ⟨_, hlength, _⟩ := Fields.resolveAll_eq_ok hhaving
        rcases Fields.ordered_padded hnumber sources horders having.2 with
          ⟨e, hall, hnone⟩ | ⟨keys, fs, more, fs', hnone, hall, hpadded⟩
        · exact .inl ⟨e, by rw [hall]; rfl, by rw [hnone]; rfl⟩
        · refine .inr ⟨⟨fs, groups.1, keys⟩, ⟨fs', groups.1, more⟩, having.2.length, by rw [hnone]; rfl,
            by rw [hall]; rfl, rfl, hpadded, fun k hk => ?_, ?_⟩
          · exact Nat.lt_of_lt_of_le (hkeys k hk) hlength
          · obtain ⟨added, rfl, hadded⟩ := Fields.ordered_append hnone
            rwa [List.drop_left]

end Layouts

/-! ### Formulas and cells of constants -/

namespace Scope

variable {s : Scope} {c : Cell} {memo memo' : FormulaMemo} {fields : Fields}

/-- What is remembered under the text of a constant is the constant. -/
def RemembersConstant (c : Cell) (memo : FormulaMemo) : Prop :=
  ∀ x, memo.lookup (Expr.literal c).text = some x → x = .const c

theorem remembersConstant_nil (c : Cell) : RemembersConstant c [] :=
  fun _ h => by cases h

/-- Only the constant itself is written like it. -/
def WrittenAlone (c : Cell) (f : Field) : Prop :=
  ∀ e, f.kind = .calculated e → e.text = (Expr.literal c).text → e = .literal c

theorem recall_constant (hmemo : RemembersConstant c memo) :
    ∃ later, s.recall memo (.literal c) = .ok (.const c, later) ∧ RemembersConstant c later ∧
      ∀ text, text ≠ (Expr.literal c).text → later.lookup text = memo.lookup text := by
  unfold Scope.recall
  cases hlookup : memo.lookup (Expr.literal c).text with
  | some x =>
    obtain rfl := hmemo x hlookup
    exact ⟨memo, rfl, hmemo, fun _ _ => rfl⟩
  | none =>
    refine ⟨((Expr.literal c).text, .const c) :: memo, rfl, fun x hx => ?_, fun text hne => ?_⟩
    · rw [List.lookup_cons_self] at hx
      exact (Option.some.inj hx).symm
    · rw [List.lookup_cons, beq_eq_false_iff_ne.mpr hne]

/-- A field keeps the constant remembered, and one of the constant has its formula. -/
theorem fieldFormula_constant (hmemo : RemembersConstant c memo) {f : Field} (hf : WrittenAlone c f) {x : Formula}
    (h : s.fieldFormula memo f = .ok (x, memo')) :
    RemembersConstant c memo' ∧ (f.kind = .calculated (.literal c) → x = .const c) := by
  unfold fieldFormula at h
  cases hkind : f.kind with
  | calculated e =>
    simp only [hkind] at h
    by_cases htext : e.text = (Expr.literal c).text
    · obtain rfl := hf e hkind htext
      obtain ⟨later, hrecall, hlater, _⟩ := recall_constant (s := s) hmemo
      obtain ⟨rfl, rfl⟩ := Prod.mk.inj (Except.ok.inj (hrecall.symm.trans h))
      exact ⟨hlater, fun _ => rfl⟩
    · refine ⟨?_, fun he => absurd (congrArg Expr.text (FieldKind.calculated.inj he)) htext⟩
      unfold Scope.recall at h
      cases hlookup : memo.lookup e.text with
      | some y =>
        rw [hlookup] at h
        cases h
        exact hmemo
      | none =>
        rw [hlookup] at h
        obtain ⟨y, _, hpair⟩ := bind_eq_ok.mp h
        cases hpair
        intro z hz
        rw [List.lookup_cons, beq_eq_false_iff_ne.mpr (Ne.symm htext)] at hz
        exact hmemo z hz
  | column source column =>
    simp only [hkind] at h
    split at h
    · cases h
      exact ⟨hmemo, fun he => by cases he⟩
    · cases h
  | subquery q =>
    simp only [hkind] at h
    cases h
    exact ⟨hmemo, fun he => by cases he⟩
  | star =>
    simp only [hkind] at h
    cases h
    exact ⟨hmemo, fun he => by cases he⟩

theorem fieldFormulas_constant (hmemo : RemembersConstant c memo) (hfields : ∀ f ∈ fields, WrittenAlone c f)
    {formulas : List Formula} (h : s.fieldFormulas memo fields = .ok formulas) {slot : Nat}
    (hslot : (fields[slot]?).map Field.kind = some (.calculated (.literal c))) :
    formulas[slot]? = some (.const c) := by
  induction fields generalizing memo formulas slot with
  | nil => cases hslot
  | cons f fields ih =>
    obtain ⟨hf, hrest⟩ := List.forall_mem_cons.mp hfields
    obtain ⟨⟨x, later⟩, hx, h⟩ := bind_eq_ok.mp h
    obtain ⟨xs, hxs, h⟩ := bind_eq_ok.mp h
    cases h
    obtain ⟨hlater, hconst⟩ := fieldFormula_constant hmemo hf hx
    cases slot with
    | zero => rw [hconst (Option.some.inj hslot)]; rfl
    | succ slot => exact ih hlater hrest hxs hslot

/-- Whether the constant is remembered makes no difference. -/
theorem fieldFormulas_remembered (hmemo : RemembersConstant c memo) (hmemo' : RemembersConstant c memo')
    (hsame : ∀ text, text ≠ (Expr.literal c).text → memo'.lookup text = memo.lookup text)
    (hfields : ∀ f ∈ fields, WrittenAlone c f) : s.fieldFormulas memo' fields = s.fieldFormulas memo fields := by
  induction fields generalizing memo memo' with
  | nil => rfl
  | cons f fields ih =>
    obtain ⟨hf, hrest⟩ := List.forall_mem_cons.mp hfields
    simp only [fieldFormulas, fieldFormula]
    cases hkind : f.kind with
    | column source column =>
      cases f.physical? with
      | none => rfl
      | some k => simp only [bind, Except.bind, ih hmemo hmemo' hsame hrest]
    | subquery q => simp only [bind, Except.bind, ih hmemo hmemo' hsame hrest]
    | star => simp only [bind, Except.bind, ih hmemo hmemo' hsame hrest]
    | calculated e =>
      by_cases htext : e.text = (Expr.literal c).text
      · obtain rfl := hf e hkind htext
        obtain ⟨later, hrecall, hlater, hothers⟩ := recall_constant (s := s) hmemo
        obtain ⟨later', hrecall', hlater', hothers'⟩ := recall_constant (s := s) hmemo'
        have hrest := ih hlater hlater' (fun text hne => by rw [hothers text hne, hothers' text hne, hsame text hne])
          hrest
        simp only [hrecall, hrecall', bind, Except.bind, hrest]
      · unfold Scope.recall
        simp only [hsame _ htext]
        cases memo.lookup e.text with
        | some y => simp only [bind, Except.bind, ih hmemo hmemo' hsame hrest]
        | none =>
          simp only [bind, Except.bind]
          cases s.formula e with
          | error err => rfl
          | ok y =>
            have hkeeps {m : FormulaMemo} (hm : RemembersConstant c m) : RemembersConstant c ((e.text, y) :: m) := by
              intro z hz
              rw [List.lookup_cons, beq_eq_false_iff_ne.mpr (Ne.symm htext)] at hz
              exact hm z hz
            have hsame' : ∀ text, text ≠ (Expr.literal c).text →
                List.lookup text ((e.text, y) :: memo') = List.lookup text ((e.text, y) :: memo) := by
              intro text hne
              rw [List.lookup_cons, List.lookup_cons, hsame text hne]
            simp only [ih (hkeeps hmemo) (hkeeps hmemo') hsame' hrest]

/-- The field of a constant has the constant for its formula, and leaves the others theirs. -/
theorem fieldFormulas_insertIdx {p : Nat} (hp : p ≤ fields.length) (hmemo : RemembersConstant c memo)
    (hfields : ∀ f ∈ fields, WrittenAlone c f) :
    s.fieldFormulas memo (fields.insertIdx p (constantField c)) =
      (s.fieldFormulas memo fields).map fun formulas => formulas.insertIdx p (.const c) := by
  induction p generalizing memo fields with
  | zero =>
    obtain ⟨later, hrecall, hlater, hothers⟩ := recall_constant (s := s) hmemo
    have hrest := fieldFormulas_remembered (s := s) hmemo hlater hothers hfields
    rw [List.insertIdx_zero, fieldFormulas, fieldFormula]
    simp only [constantField, hrecall, bind, Except.bind, hrest]
    cases s.fieldFormulas memo fields <;> rfl
  | succ p ih =>
    cases fields with
    | nil => cases hp
    | cons f fields =>
      obtain ⟨hf, hrest⟩ := List.forall_mem_cons.mp hfields
      rw [List.insertIdx_succ_cons, fieldFormulas, fieldFormulas]
      cases hx : s.fieldFormula memo f with
      | error e => rfl
      | ok r =>
        have hall := ih (Nat.le_of_succ_le_succ hp) (fieldFormula_constant hmemo hf hx).1 hrest
        simp only [bind, Except.bind, hall]
        cases s.fieldFormulas r.2 fields <;> rfl

end Scope

namespace Rows

variable {σ : Type} {r : Rows σ} {c : Cell} {formulas : List Formula}

theorem values_insertIdx {p : Nat} (hp : p ≤ formulas.length) (row : Nat) :
    r.values row (formulas.insertIdx p (.const c)) = (do
      let cells ← r.values row formulas
      pure (cells.insertIdx p c)) := by
  induction p generalizing formulas with
  | zero => simp only [List.insertIdx_zero, values, value, pure_bind]
  | succ p ih =>
    cases formulas with
    | nil => cases hp
    | cons f formulas =>
      simp only [List.insertIdx_succ_cons, values, ih (Nat.le_of_succ_le_succ hp), bind_assoc, pure_bind]

/-- The formula of a constant puts it into every row. -/
theorem cells_insertIdx {p : Nat} (hp : p ≤ formulas.length) (ids : List Nat) :
    r.cells (formulas.insertIdx p (.const c)) ids = (do
      let rows ← r.cells formulas ids
      pure (rows.map fun row => row.insertIdx p c)) := by
  induction ids with
  | nil => simp only [cells, pure_bind, List.map_nil]
  | cons id ids ih => simp only [cells, values_insertIdx hp, ih, bind_assoc, pure_bind, List.map_cons]

theorem values_constant {row slot : Nat} (hslot : formulas[slot]? = some (.const c)) {cells : List Cell}
    {st st' : σ} (h : (r.values row formulas).Gives st cells st') : cells[slot]? = some c := by
  induction formulas generalizing slot cells st st' with
  | nil => cases hslot
  | cons f formulas ih =>
    obtain ⟨x, _, hx, h⟩ := Run.gives_bind.mp h
    obtain ⟨xs, _, hxs, h⟩ := Run.gives_bind.mp h
    rw [(Run.gives_pure.mp h).1]
    cases slot with
    | zero =>
      obtain rfl := Option.some.inj hslot
      simp only [value] at hx
      rw [(Run.gives_pure.mp hx).1]
      rfl
    | succ slot => exact ih hslot hxs

theorem cells_constant {slot : Nat} (hslot : formulas[slot]? = some (.const c)) {ids : List Nat} {rows : List Row}
    {st st' : σ} (h : (r.cells formulas ids).Gives st rows st') : ∀ row ∈ rows, row[slot]? = some c := by
  induction ids generalizing rows st st' with
  | nil =>
    rw [(Run.gives_pure.mp h).1]
    nofun
  | cons id ids ih =>
    obtain ⟨cells, _, hcells, h⟩ := Run.gives_bind.mp h
    obtain ⟨others, _, hothers, h⟩ := Run.gives_bind.mp h
    rw [(Run.gives_pure.mp h).1]
    exact List.forall_mem_cons.mpr ⟨values_constant hslot hcells, ih hothers⟩

end Rows

end GridQuery
