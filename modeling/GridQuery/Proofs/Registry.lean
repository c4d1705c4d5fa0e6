import GridQuery.Proofs.Ordinals
import GridQuery.Proofs.PaddedRows

/-!
The fields of a statement as they are kept while its clauses are planned: one behind the other, with a map from
spellings and one from columns to their slots, in which the first field that came stays. Clauses resolve
expressions and joins move columns, in any order, also where some of it fails. The fields of the select list
stay in front and in order, and no slot ever leads behind the last field.
-/

namespace GridQuery
set_option autoImplicit false

/-! ### First come, first found -/

section FirstWins

variable {κ : Type} [BEq κ] [Hashable κ] [LawfulBEq κ] [LawfulHashable κ]

theorem getElem?_insertIfNew_or (m : Std.HashMap κ Nat) (key k : κ) (slot : Nat) :
    (m.insertIfNew key slot)[k]? = m[k]?.or (if key == k then some slot else none) := by
  rw [Std.HashMap.getElem?_insertIfNew]
  cases hthere : m[k]? with
  | some found =>
    have hmem : k ∈ m := Std.HashMap.mem_iff_isSome_getElem?.mpr (hthere ▸ rfl)
    have hkept : ¬((key == k) = true ∧ key ∉ m) := fun h => h.2 (beq_iff_eq.mp h.1 ▸ hmem)
    rw [if_neg hkept, Option.some_or]
  | none =>
    have hout : k ∉ m := fun hmem => by
      rw [Std.HashMap.mem_iff_isSome_getElem?, hthere] at hmem
      cases hmem
    by_cases hk : key = k
    · subst hk
      simp [hout]
    · simp [hk]

theorem getElem?_insertIfNew_all (keys : List κ) (slot : Nat) (m : Std.HashMap κ Nat) (k : κ) :
    (keys.foldl (fun m key => m.insertIfNew key slot) m)[k]? =
      m[k]?.or (if keys.contains k then some slot else none) := by
  induction keys generalizing m with
  | nil => rw [List.foldl_nil, List.contains_nil, if_neg Bool.false_ne_true, Option.or_none]
  | cons key keys ih =>
    rw [List.foldl_cons, ih, getElem?_insertIfNew_or, Option.or_assoc, List.contains_cons, BEq.comm]
    cases k == key with
    | true => rw [if_pos rfl, Option.some_or, Bool.true_or, if_pos rfl]
    | false => rw [if_neg Bool.false_ne_true, Option.none_or, Bool.false_or]

end FirstWins

namespace Fields

variable {fs : Fields}

theorem findSpelling?_push (fs : Fields) (f : Field) (s : String) : findSpelling? (fs ++ [f]) s =
    (fs.findSpelling? s).or (if f.spellings.contains s then some fs.length else none) := by
  unfold findSpelling?
  rw [List.findIdx?_append, List.findIdx?_singleton]
  cases f.spellings.contains s with
  | true => simp
  | false => simp

theorem findColumn?_push (fs : Fields) (f : Field) (source column : Nat) :
    findColumn? (fs ++ [f]) source column =
      (fs.findColumn? source column).or (if isColumn source column f then some fs.length else none) := by
  unfold findColumn?
  rw [List.findIdx?_append, List.findIdx?_singleton]
  cases isColumn source column f with
  | true => simp
  | false => simp

theorem lt_of_findColumn? {source column slot : Nat} (h : fs.findColumn? source column = some slot) :
    slot < fs.length :=
  (List.findIdx?_eq_some_iff_getElem.mp h).1

theorem lt_of_schema {name : String} {slot : Nat} (h : fs.schema.column? name = some slot) : slot < fs.length :=
  (List.findIdx?_eq_some_iff_getElem.mp (column?_schema fs name ▸ h)).1

end Fields

/-! ### A hidden field answers to its expression -/

namespace Field

variable {sources : List Table}

theorem mem_spell {f : Field} {s spelling : String} (h : s ∈ f.spellings) : s ∈ (f.spell spelling).spellings := by
  unfold spell
  dsimp only
  split
  · exact h
  · exact List.mem_append_left _ h

theorem mem_spellColumn {f : Field} {s : String} (h : s ∈ f.spellings) (source : Table) (column : Nat) :
    s ∈ (f.spellColumn source column).spellings := by
  unfold spellColumn
  split
  · exact h
  · dsimp only
    split
    · exact mem_spell (mem_spell (mem_spell h))
    · exact mem_spell (mem_spell h)

theorem ofValue_spelled {title : String} {e : Expr} {f : Field} (h : ofValue sources title e = .ok f) :
    normalize title ∈ f.spellings := by
  have hkind (kind : FieldKind) : normalize title ∈ (ofKind kind title).spellings := List.mem_singleton_self _
  cases e with
  | column table name =>
    simp only [ofValue] at h
    split at h
    · cases h
      split
      · exact mem_spellColumn (hkind _) _ _
      · exact hkind _
    · cases h
  | star qualifier =>
    cases qualifier with
    | none =>
      cases h
      exact hkind _
    | some q => cases h
  | subquery q =>
    cases h
    exact hkind _
  | literal | bind | binary | unary | call | case | ite | list | paren =>
    simp only [ofValue] at h
    split at h
    · cases h
    · cases h
      exact hkind _

theorem ofExpr_spelled {title : String} {e : Expr} {f : Field} (h : ofExpr sources title e = .ok f) :
    normalize title ∈ f.spellings := by
  unfold ofExpr at h
  split at h
  · exact ofValue_spelled h
  · split at h
    · obtain ⟨g, _, h⟩ := bind_eq_ok.mp h
      cases h
      exact List.mem_singleton_self _
    · cases h

end Field

namespace Fields

variable {sources : List Table} {fs : Fields}

theorem hidden_spelled {clause : String} {e : Expr} {f : Field} (h : hidden sources clause e = .ok f) :
    f.spellings.contains (normalize e.text) = true := by
  obtain ⟨g, hg, rfl⟩ := hidden_eq_ok h
  have hspelled : normalize e.text ∈ g.spellings := Field.ofExpr_spelled hg
  exact List.contains_iff_mem.mpr hspelled

/-- Where nothing is found, no field has the spelling of the expression. -/
theorem findSpelling?_of_find? {e : Expr} (h : fs.find? sources e = none) :
    fs.findSpelling? (normalize e.text) = none := by
  unfold find? at h
  split at h
  · cases h
  · assumption

theorem ordinal?_of_none {clause : String} {e : Expr} (h : fs.ordinal? clause e = .ok none) (gs : Fields) :
    gs.ordinal? clause e = .ok none := by
  refine ordinal?_eq_none fun x he => ?_
  subst he
  simp only [ordinal?] at h
  split at h
  · split at h <;> cases h
  · cases h

/-- The expression of a new hidden field finds it. -/
theorem find?_push {clause : String} {e : Expr} {f : Field} (h : fs.find? sources e = none)
    (hhidden : hidden sources clause e = .ok f) : find? (fs ++ [f]) sources e = some fs.length := by
  have hnew : findSpelling? (fs ++ [f]) (normalize e.text) = some fs.length := by
    rw [findSpelling?_push, findSpelling?_of_find? h, hidden_spelled hhidden, if_pos rfl, Option.none_or]
  rw [find?.eq_def, hnew]

/-- A number that names no place of the select list is an error. -/
theorem ordinal?_error {x : Float} (h : ¬∃ n, NamesPlace x n ∧ 1 ≤ n ∧ n ≤ fs.selectedCount)
    (clause : String) :
    fs.ordinal? clause (.literal (.number x)) =
      .error (.ordinalRange clause (Expr.literal (.number x)).text) := by
  simp only [ordinal?]
  split
  · rename_i negative m exponent hparts
    rw [if_neg]
    intro hin
    simp only [Bool.and_eq_true, Bool.not_eq_true', decide_eq_true_eq] at hin
    obtain ⟨⟨⟨hsign, hwhole⟩, hone⟩, hle⟩ := hin
    subst hsign
    exact h ⟨_, ⟨m, exponent, hparts, hwhole, rfl⟩, hone, hle⟩
  · rfl

end Fields

/-! ### Fields that a join moves -/

namespace Fields

variable {sources : List Table} {fs : Fields}

theorem repoint_repoint (fs : Fields) (source offset : Nat) :
    (fs.repoint source offset).repoint source offset = fs.repoint source offset := by
  unfold repoint
  rw [List.map_map]
  refine List.map_congr_left fun f _ => ?_
  rw [Function.comp_apply]
  cases hkind : f.kind with
  | column s c =>
    by_cases hs : s = source
    · simp only [hs, if_true]
    · simp only [hs, if_false, hkind]
  | calculated | subquery | star => simp only [hkind]

/-- Fields that joins alone tell apart answer to the same spellings and columns. -/
theorem findSpelling?_unpointed (fs : Fields) (s : String) :
    findSpelling? (fs.map Field.unpointed) s = fs.findSpelling? s := by
  unfold findSpelling?
  rw [List.findIdx?_map]
  rfl

theorem findColumn?_unpointed (fs : Fields) (source column : Nat) :
    findColumn? (fs.map Field.unpointed) source column = fs.findColumn? source column := by
  unfold findColumn?
  rw [List.findIdx?_map]
  rfl

theorem findSpelling?_repoint (fs : Fields) (source offset : Nat) (s : String) :
    (fs.repoint source offset).findSpelling? s = fs.findSpelling? s := by
  rw [← findSpelling?_unpointed, unpointed_repoint, findSpelling?_unpointed]

theorem findColumn?_repoint (fs : Fields) (source offset s c : Nat) :
    (fs.repoint source offset).findColumn? s c = fs.findColumn? s c := by
  rw [← findColumn?_unpointed, unpointed_repoint, findColumn?_unpointed]

theorem unpointed_of_fresh (h : ∀ f ∈ fs, f.Fresh sources) : fs.map Field.unpointed = fs := by
  refine (List.map_congr_left fun f hf => ?_).trans (List.map_id fs)
  rw [Field.unpointed, ← (h f hf).derived_eq]
  rfl

end Fields

/-- The columns with a further field, which is found unless it is an aggregate or no column. -/
def insertColumn (m : Std.HashMap (Nat × Nat) Nat) (f : Field) (slot : Nat) : Std.HashMap (Nat × Nat) Nat :=
  if f.isAggregate then m
  else
    match f.kind with
    | .column s c => m.insertIfNew (s, c) slot
    | _ => m

theorem getElem?_insertColumn (m : Std.HashMap (Nat × Nat) Nat) (f : Field) (slot source column : Nat) :
    (insertColumn m f slot)[(source, column)]? =
      m[(source, column)]?.or (if Fields.isColumn source column f then some slot else none) := by
  unfold insertColumn
  cases haggregate : f.isAggregate with
  | true =>
    have hnot : Fields.isColumn source column f = false := by
      unfold Fields.isColumn
      split <;> simp [haggregate]
    rw [if_pos rfl, hnot, if_neg Bool.false_ne_true, Option.or_none]
  | false =>
    rw [if_neg Bool.false_ne_true, Fields.isColumn.eq_def]
    cases f.kind with
    | column s c => simp [getElem?_insertIfNew_or, haggregate]
    | calculated | subquery | star => simp

/-- The fields of a statement with what finds them. -/
@[ext] structure Registry where
  fields : Fields
  byName : Std.HashMap String Nat
  byColumn : Std.HashMap (Nat × Nat) Nat
  /-- A spelling leads to the first field that has it. -/
  byName_eq : ∀ s, byName[s]? = fields.findSpelling? s
  /-- A column leads to the first field that is it and no aggregate. -/
  byColumn_eq : ∀ source column, byColumn[(source, column)]? = fields.findColumn? source column

namespace Registry

def empty : Registry where
  fields := []
  byName := ∅
  byColumn := ∅
  byName_eq := fun _ => Std.HashMap.getElem?_empty
  byColumn_eq := fun _ _ => Std.HashMap.getElem?_empty

/-- Puts a field behind the others. Its spellings and its column lead to it unless they lead elsewhere. -/
def push (r : Registry) (f : Field) : Registry where
  fields := r.fields ++ [f]
  byName := f.spellings.foldl (fun m s => m.insertIfNew s r.fields.length) r.byName
  byColumn := insertColumn r.byColumn f r.fields.length
  byName_eq := fun s => by rw [getElem?_insertIfNew_all, r.byName_eq, Fields.findSpelling?_push]
  byColumn_eq := fun source column => by rw [getElem?_insertColumn, r.byColumn_eq, Fields.findColumn?_push]

/-- Points the columns of a source at the joined table. What finds the fields stays as it is. -/
def repoint (r : Registry) (source offset : Nat) : Registry where
  fields := r.fields.repoint source offset
  byName := r.byName
  byColumn := r.byColumn
  byName_eq := fun s => by rw [Fields.findSpelling?_repoint, r.byName_eq]
  byColumn_eq := fun s c => by rw [Fields.findColumn?_repoint, r.byColumn_eq]

/-- The fields of a select list, one behind the other. -/
def ofSelect (sources : List Table) (items : List SelectItem) : Except QueryError Registry :=
  items.foldlM (fun r item => (Fields.ofItem sources item).map fun fs => fs.foldl push r) empty

/-- The field an expression refers to, by the maps. -/
def find? (r : Registry) (sources : List Table) (e : Expr) : Option Nat :=
  match r.byName[normalize e.text]? with
  | some slot => some slot
  | none =>
    match e with
    | .column table name =>
      match (if table.isNone then r.byName[normalize name]? else none) with
      | some slot => some slot
      | none => (resolveColumn sources table name).bind fun p => r.byColumn[p]?
    | .paren inner => find? r sources inner
    | _ => none

/-- The slot of the field a clause refers to; a hidden field is put behind the others where none is there. -/
def resolveOrAdd (sources : List Table) (clause : String) (e : Expr) : ExceptT QueryError (StateM Registry) Nat := do
  let r ← get
  match ← ExceptT.mk (pure (r.fields.ordinal? clause e)) with
  | some slot => return slot
  | none =>
    match r.find? sources e with
    | some slot => return slot
    | none =>
      let f ← ExceptT.mk (pure (Fields.hidden sources clause e))
      modify fun r => r.push f
      return r.fields.length

variable {sources : List Table}

/-- The maps find what the fields one by one would. -/
theorem find?_eq (r : Registry) (e : Expr) : r.find? sources e = r.fields.find? sources e := by
  fun_induction Fields.find? r.fields sources e with
  | case1 e slot hspelled =>
    rw [find?.eq_def, r.byName_eq, hspelled]
  | case2 table name slot hnamed hspelled =>
    rw [find?.eq_def, r.byName_eq, hspelled]
    simp only [r.byName_eq, hnamed]
  | case3 table name hnamed hspelled =>
    rw [find?.eq_def, r.byName_eq, hspelled]
    simp only [r.byName_eq, hnamed, r.byColumn_eq]
  | case4 inner hspelled ih =>
    rw [find?.eq_def, r.byName_eq, hspelled]
    exact ih
  | case5 e hspelled hcolumn hparen =>
    rw [find?.eq_def, r.byName_eq, hspelled]
    dsimp only
    split
    · exact (hcolumn _ _ rfl).elim
    · exact (hparen _ rfl).elim
    · rfl

theorem run_resolveOrAdd (clause : String) (e : Expr) (r : Registry) : (resolveOrAdd sources clause e).run r =
    match r.fields.ordinal? clause e with
    | .error err => (.error err, r)
    | .ok (some slot) => (.ok slot, r)
    | .ok none =>
      match r.fields.find? sources e with
      | some slot => (.ok slot, r)
      | none =>
        match Fields.hidden sources clause e with
        | .ok f => (.ok r.fields.length, r.push f)
        | .error err => (.error err, r) := by
  have hrun (answer : Except QueryError (Option Nat)) (h : r.fields.ordinal? clause e = answer) :
      (resolveOrAdd sources clause e).run r = ((do
        match ← ExceptT.mk (pure answer) with
        | some slot => return slot
        | none =>
          match r.fields.find? sources e with
          | some slot => return slot
          | none =>
            let f ← ExceptT.mk (pure (Fields.hidden sources clause e))
            modify fun r => r.push f
            return r.fields.length : ExceptT QueryError (StateM Registry) Nat)).run r := by
    rw [← h, ← find?_eq]
    rfl
  cases hordinal : r.fields.ordinal? clause e with
  | error err => exact hrun _ hordinal
  | ok slot? =>
    rw [hrun _ hordinal]
    cases slot? with
    | some slot => rfl
    | none =>
      cases r.fields.find? sources e with
      | some slot => rfl
      | none =>
        cases Fields.hidden sources clause e with
        | error err => rfl
        | ok f => rfl

/-- What resolving an expression does to the registry: it fails or finds a field and leaves all as it is, or it puts
a hidden field behind the others that is not found before. -/
theorem resolveOrAdd_cases (clause : String) (e : Expr) (r : Registry) :
    (∃ err, (resolveOrAdd sources clause e).run r = (.error err, r) ∧
        r.fields.resolve sources clause e = .error err) ∨
      (∃ slot, (resolveOrAdd sources clause e).run r = (.ok slot, r) ∧
        r.fields.resolve sources clause e = .ok (slot, r.fields)) ∨
      ∃ f, (resolveOrAdd sources clause e).run r = (.ok r.fields.length, r.push f) ∧
        r.fields.resolve sources clause e = .ok (r.fields.length, (r.push f).fields) ∧
        Fields.hidden sources clause e = .ok f ∧ r.fields.ordinal? clause e = .ok none ∧
        r.fields.find? sources e = none := by
  rw [run_resolveOrAdd]
  unfold Fields.resolve
  cases r.fields.ordinal? clause e with
  | error err => exact .inl ⟨err, rfl, rfl⟩
  | ok slot? =>
    cases slot? with
    | some slot => exact .inr (.inl ⟨slot, rfl, rfl⟩)
    | none =>
      cases r.fields.find? sources e with
      | some slot => exact .inr (.inl ⟨slot, rfl, rfl⟩)
      | none =>
        cases Fields.hidden sources clause e with
        | error err => exact .inl ⟨err, rfl, rfl⟩
        | ok f => exact .inr (.inr ⟨f, rfl, rfl, rfl, rfl, rfl⟩)

theorem foldl_push_fields (fs : Fields) (r : Registry) : (fs.foldl push r).fields = r.fields ++ fs := by
  induction fs generalizing r with
  | nil => exact (List.append_nil _).symm
  | cons f fs ih =>
    rw [List.foldl_cons, ih]
    exact List.append_assoc _ _ _

/-- The registry of a select list has its fields. -/
theorem ofSelect_fields (sources : List Table) (items : List SelectItem) :
    (ofSelect sources items).map fields = Fields.ofSelect sources items := by
  have hfrom (r : Registry) :
      (items.foldlM (fun r item => (Fields.ofItem sources item).map fun fs => fs.foldl push r) r).map fields =
        (Fields.ofSelect sources items).map (r.fields ++ ·) := by
    induction items generalizing r with
    | nil => exact congrArg Except.ok (List.append_nil _).symm
    | cons item items ih =>
      rw [List.foldlM_cons, Fields.ofSelect]
      cases Fields.ofItem sources item with
      | error err => rfl
      | ok fs =>
        refine (ih (fs.foldl push r)).trans ?_
        rw [foldl_push_fields]
        cases Fields.ofSelect sources items with
        | error err => rfl
        | ok others => exact congrArg Except.ok (List.append_assoc _ _ _)
  refine (hfrom empty).trans ?_
  cases Fields.ofSelect sources items with
  | error err => rfl
  | ok fs => rfl

end Registry

/-- What clauses and joins do with the fields. -/
inductive FieldCall where
  | resolveOrAdd (sources : List Table) (clause : String) (e : Expr)
  | repoint (source offset : Nat)

namespace FieldCall

/-- Does a call, also where it fails. The answer is the slot of a field; moving columns has none. -/
def act : FieldCall → ExceptT QueryError (StateM Registry) (Option Nat)
  | resolveOrAdd sources clause e => some <$> Registry.resolveOrAdd sources clause e
  | repoint source offset => do
    modify fun r => r.repoint source offset
    return none

/-- The same on the fields alone. -/
def on (fs : Fields) : FieldCall → Except QueryError (Option Nat × Fields)
  | resolveOrAdd sources clause e => (fs.resolve sources clause e).map fun p => (some p.1, p.2)
  | repoint source offset => .ok (none, fs.repoint source offset)

def run (r : Registry) (calls : List FieldCall) : Registry :=
  calls.foldl (fun r call => (call.act.run r).2) r

theorem run_resolveOrAdd (sources : List Table) (clause : String) (e : Expr) (r : Registry) :
    (resolveOrAdd sources clause e).act.run r =
      (((Registry.resolveOrAdd sources clause e).run r).1.map some,
        ((Registry.resolveOrAdd sources clause e).run r).2) := by
  unfold act
  rw [ExceptT.run_map]
  rfl

variable {r : Registry}

/-- A call fails and leaves all as it is, or gives what it gives on the fields alone, a slot that is there, and once
again the same at once. -/
theorem act_cases (call : FieldCall) (r : Registry) :
    (∃ err, call.act.run r = (.error err, r) ∧ call.on r.fields = .error err) ∨
      ∃ slot? r', call.act.run r = (.ok slot?, r') ∧ call.on r.fields = .ok (slot?, r'.fields) ∧
        (∀ slot, slot? = some slot → slot < r'.fields.length) ∧ call.act.run r' = (.ok slot?, r') := by
  cases call with
  | repoint source offset =>
    have hagain : (r.repoint source offset).repoint source offset = r.repoint source offset :=
      Registry.ext (Fields.repoint_repoint _ _ _) rfl rfl
    exact .inr ⟨none, r.repoint source offset, rfl, rfl, (fun _ h => nomatch h), congrArg (Prod.mk _) hagain⟩
  | resolveOrAdd sources clause e =>
    rw [run_resolveOrAdd, on]
    rcases Registry.resolveOrAdd_cases clause e r with ⟨err, hrun, hfields⟩ | ⟨slot, hrun, hfields⟩ |
      ⟨f, hrun, hfields, hhidden, hordinal, hfind⟩
    · rw [hrun, hfields]
      exact .inl ⟨err, rfl, rfl⟩
    · rw [hrun, hfields]
      refine .inr ⟨some slot, r, rfl, rfl, ?_, ?_⟩
      · rintro _ ⟨⟩
        rcases Fields.resolve_eq_ok hfields with ⟨_, hlt⟩ | ⟨f, _, hmore, _⟩
        · exact hlt
        · exact absurd (congrArg List.length hmore) (by simp)
      · rw [run_resolveOrAdd, hrun]
        rfl
    · rw [hrun, hfields]
      have hagain : (Registry.resolveOrAdd sources clause e).run (r.push f) = (.ok r.fields.length, r.push f) := by
        rw [Registry.run_resolveOrAdd, Fields.ordinal?_of_none hordinal]
        simp only [show (r.push f).fields = r.fields ++ [f] from rfl, Fields.find?_push hfind hhidden]
      refine .inr ⟨some r.fields.length, r.push f, rfl, rfl, ?_, ?_⟩
      · rintro _ ⟨⟩
        have hlength : (r.fields ++ [f]).length = r.fields.length + 1 := List.length_append
        exact hlength ▸ Nat.lt_succ_self _
      · rw [run_resolveOrAdd, hagain]
        rfl

end FieldCall

/-- Fields with hidden ones behind, and moved by joins. -/
def Fields.Behind (start fs : Fields) : Prop :=
  ∃ front behind : Fields, fs = front ++ behind ∧ front.map Field.unpointed = start.map Field.unpointed ∧
    ∀ f ∈ behind, f.temporary = true

namespace Fields.Behind

variable {start fs : Fields}

theorem refl (start : Fields) : start.Behind start :=
  ⟨start, [], (List.append_nil _).symm, rfl, fun _ h => by cases h⟩

theorem repoint (h : start.Behind fs) (source offset : Nat) : start.Behind (fs.repoint source offset) := by
  obtain ⟨front, behind, rfl, hfront, hbehind⟩ := h
  exact ⟨front.repoint source offset, behind.repoint source offset, repoint_append _ _ _ _,
    (unpointed_repoint _ _ _).trans hfront, repoint_temporary hbehind _ _⟩

theorem resolve (h : start.Behind fs) {sources : List Table} {clause : String} {e : Expr} {slot : Nat} {fs' : Fields}
    (hresolve : fs.resolve sources clause e = .ok (slot, fs')) : start.Behind fs' := by
  rcases resolve_cases hresolve with ⟨rfl, _⟩ | ⟨f, hf, rfl, _⟩
  · exact h
  · obtain ⟨front, behind, rfl, hfront, hbehind⟩ := h
    refine ⟨front, behind ++ [f], List.append_assoc _ _ _, hfront, fun g hg => ?_⟩
    rcases List.mem_append.mp hg with hg | hg
    · exact hbehind g hg
    · rw [List.mem_singleton.mp hg]
      exact hidden_temporary hf

theorem on (h : start.Behind fs) {call : FieldCall} {slot? : Option Nat} {fs' : Fields}
    (hcall : call.on fs = .ok (slot?, fs')) : start.Behind fs' := by
  cases call with
  | repoint source offset =>
    cases hcall
    exact h.repoint source offset
  | resolveOrAdd sources clause e =>
    rw [FieldCall.on] at hcall
    cases hresolve : fs.resolve sources clause e with
    | error err =>
      rw [hresolve] at hcall
      cases hcall
    | ok p =>
      rw [hresolve] at hcall
      cases hcall
      exact h.resolve hresolve

end Fields.Behind

namespace FieldCall

theorem act_behind {start : Fields} {r : Registry} (h : start.Behind r.fields) (call : FieldCall) :
    start.Behind (call.act.run r).2.fields := by
  rcases act_cases call r with ⟨err, hrun, _⟩ | ⟨slot?, r', hrun, hon, _⟩
  · rw [hrun]
    exact h
  · rw [hrun]
    exact h.on hon

theorem run_behind {start : Fields} (calls : List FieldCall) {r : Registry} (h : start.Behind r.fields) :
    start.Behind (run r calls).fields := by
  induction calls generalizing r with
  | nil => exact h
  | cons call calls ih => exact ih (act_behind h call)

end FieldCall

/-- Of fields with hidden ones behind, those that are shown come first, and show what they showed. -/
theorem Fields.Behind.shown {start fs : Fields} (h : start.Behind fs) (hshown : ∀ f ∈ start, f.temporary = false) :
    fs.selectedCount = start.length ∧ fs.titles = start.titles ∧
      (fs.take fs.selectedCount).map Field.unpointed = start.map Field.unpointed ∧
      ∀ {slot : Nat} {f : Field}, fs[slot]? = some f → (f.temporary = true ↔ fs.selectedCount ≤ slot) := by
  obtain ⟨front, behind, rfl, hfront, hbehind⟩ := h
  obtain ⟨hcount, htitles⟩ := shown_of_unpointed hfront hshown
  have hlength : front.length = start.length := by simpa using congrArg List.length hfront
  have hall : ∀ f ∈ front, f.temporary = false := temporary_of_unpointed hfront hshown
  rw [selectedCount_append hbehind, hcount, ← hlength]
  refine ⟨rfl, ?_, ?_, ?_⟩
  · rw [titles_append, titles_of_hidden hbehind, List.append_nil, htitles, titles_of_shown hshown]
  · rw [List.take_left, hfront]
  · intro slot f hf
    rcases Nat.lt_or_ge slot front.length with hslot | hslot
    · rw [List.getElem?_append_left hslot] at hf
      simp [hall f (List.mem_of_getElem? hf), hslot]
    · rw [List.getElem?_append_right hslot] at hf
      simp [hbehind f (List.mem_of_getElem? hf), hslot]

/-- The fields of a select list are those of its items, one item after the other. -/
theorem Fields.ofSelect_parts {sources : List Table} {items : List SelectItem} {fs : Fields}
    (h : ofSelect sources items = .ok fs) :
    ∃ parts, List.Forall₂ (fun item part => ofItem sources item = .ok part) items parts ∧ fs = parts.flatten := by
  induction items generalizing fs with
  | nil =>
    cases h
    exact ⟨[], .nil, rfl⟩
  | cons item items ih =>
    unfold ofSelect at h
    obtain ⟨part, hpart, h⟩ := bind_eq_ok.mp h
    obtain ⟨others, hothers, h⟩ := bind_eq_ok.mp h
    cases h
    obtain ⟨parts, hparts, rfl⟩ := ih hothers
    exact ⟨part :: parts, .cons hpart hparts, rfl⟩

namespace Registry

variable {sources : List Table} {clause : String}

theorem run_place {x : Float} {n : Nat} {r : Registry} (h : NamesPlace x n) (hn : 1 ≤ n)
    (hin : n ≤ r.fields.selectedCount) :
    (resolveOrAdd sources clause (.literal (.number x))).run r = (.ok (n - 1), r) := by
  obtain ⟨m, exponent, hparts, hwhole, hvalue⟩ := h
  have hordinal : r.fields.ordinal? clause (.literal (.number x)) = .ok (some (n - 1)) := by
    simp only [Fields.ordinal?, hparts, hwhole, hvalue]
    simp [hn, hin]
  rw [run_resolveOrAdd, hordinal]

theorem run_no_place {x : Float} {r : Registry}
    (h : ¬∃ n, NamesPlace x n ∧ 1 ≤ n ∧ n ≤ r.fields.selectedCount) :
    (resolveOrAdd sources clause (.literal (.number x))).run r =
      (.error (.ordinalRange clause (Expr.literal (.number x)).text), r) := by
  rw [run_resolveOrAdd, Fields.ordinal?_error h]

/-- The registry keeps the visible fields first. Whatever clauses and joins have done since it was made of a select
list, the fields of the items come first, in order and moved at most; the fields behind are hidden; the titles are
the same; names and columns lead to fields that are there; and a number leads to the field at its place, counted
from one, or is an error. A call does what it does on the fields alone. It fails and leaves the registry as it is,
or gives a slot that is there, and once again the same at once. -/
theorem shown_first {items : List SelectItem} {start : Registry} (h : ofSelect sources items = .ok start)
    (calls : List FieldCall) :
    let r := FieldCall.run start calls
    Fields.ofSelect sources items = .ok start.fields ∧
    (∃ parts, List.Forall₂ (fun item part => Fields.ofItem sources item = .ok part) items parts ∧
      (r.fields.take r.fields.selectedCount).map Field.unpointed = parts.flatten) ∧
    (∀ slot f, r.fields[slot]? = some f → (f.temporary = true ↔ r.fields.selectedCount ≤ slot)) ∧
    r.fields.titles = start.fields.titles ∧
    (∀ name slot, r.byName[name]? = some slot ∨ r.fields.schema.column? name = some slot →
      slot < r.fields.length) ∧
    (∀ (column : Nat × Nat) slot, r.byColumn[column]? = some slot → slot < r.fields.length) ∧
    (∀ (others : List Table) (clause : String) (x : Float),
      (∀ n, NamesPlace x n → 1 ≤ n → n ≤ r.fields.selectedCount →
        (resolveOrAdd others clause (.literal (.number x))).run r = (.ok (n - 1), r)) ∧
      ((¬∃ n, NamesPlace x n ∧ 1 ≤ n ∧ n ≤ r.fields.selectedCount) →
        ∃ err, (resolveOrAdd others clause (.literal (.number x))).run r = (.error err, r))) ∧
    ∀ call : FieldCall,
      (∃ err, call.act.run r = (.error err, r) ∧ call.on r.fields = .error err) ∨
        ∃ slot? r', call.act.run r = (.ok slot?, r') ∧ call.on r.fields = .ok (slot?, r'.fields) ∧
          (∀ slot, slot? = some slot → slot < r'.fields.length) ∧ call.act.run r' = (.ok slot?, r') := by
  intro r
  have hselect : Fields.ofSelect sources items = .ok start.fields := by
    rw [← ofSelect_fields, h]
    rfl
  have hbehind : start.fields.Behind r.fields := FieldCall.run_behind calls (.refl _)
  obtain ⟨-, htitles, hfront, hhidden⟩ := hbehind.shown (Fields.ofSelect_shown hselect)
  refine ⟨hselect, ?_, fun slot f => hhidden, htitles, ?_, ?_, ?_, fun call => FieldCall.act_cases call r⟩
  · obtain ⟨parts, hparts, hflat⟩ := Fields.ofSelect_parts hselect
    have hfresh := Fields.Made.fresh (.ofSelect hselect)
    exact ⟨parts, hparts, hfront.trans ((Fields.unpointed_of_fresh hfresh).trans hflat)⟩
  · rintro name slot (hname | hname)
    · exact Fields.lt_of_findSpelling? (r.byName_eq name ▸ hname)
    · exact Fields.lt_of_schema hname
  · intro column slot hcolumn
    exact Fields.lt_of_findColumn? (r.byColumn_eq column.1 column.2 ▸ hcolumn)
  · exact fun others clause x =>
      ⟨fun n hplace hn hin => run_place hplace hn hin, fun hnone => ⟨_, run_no_place hnone⟩⟩

/-- `k AS h, j`, then a hidden `p`, a join that moves all columns by three, and an unknown column: the number two
still means `j`. -/
theorem shown_first_second :
    let items := [placeColumn "k" (some "h"), placeColumn "j" none]
    let calls : List FieldCall := [.resolveOrAdd [placesTable] "ORDER BY" (.column none "p"), .repoint 0 3,
      .resolveOrAdd [placesTable] "ORDER BY" (.column none "q")]
    ∃ start, ofSelect [placesTable] items = .ok start ∧
      (FieldCall.run start calls).fields.titles = ["h", "j"] ∧
      (resolveOrAdd [placesTable] "GROUP BY" (.literal (.number 2))).run (FieldCall.run start calls) =
        (.ok 1, FieldCall.run start calls) := by
  intro items calls
  have hfields : (Fields.ofSelect [placesTable] items).map Fields.titles = .ok ["h", "j"] := by decide +kernel
  rw [← ofSelect_fields] at hfields
  cases hstart : ofSelect [placesTable] items with
  | error err =>
    rw [hstart] at hfields
    cases hfields
  | ok start =>
    rw [hstart] at hfields
    obtain ⟨-, -, -, htitles, -, -, hplaces, -⟩ := shown_first hstart calls
    have hshown : (FieldCall.run start calls).fields.titles = ["h", "j"] := htitles.trans (Except.ok.inj hfields)
    have hplace : NamesPlace 2 2 := ⟨_, _, by rfl, by decide +kernel, by decide +kernel⟩
    refine ⟨start, rfl, hshown, (hplaces [placesTable] "GROUP BY" 2).1 2 hplace (by decide) ?_⟩
    rw [Fields.selectedCount_eq_titles, hshown]
    exact Nat.le_refl 2

end Registry

end GridQuery
