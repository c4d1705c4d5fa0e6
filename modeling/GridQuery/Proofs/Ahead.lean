import GridQuery.Proofs.Fields

/-!
Keys ahead. A key that is selected in front of other fields means the field that it means without them, as
long as none of them takes its name. Then the plan of a statement has its slot, and no hidden field.
-/

namespace GridQuery
set_option autoImplicit false

variable {sources : List Table} {front later : Fields} {e : Expr}

namespace Fields

/-- What stands behind does not take a spelling: it does not have it, or a field in front has it too. -/
def Undisturbed (front later : Fields) (spelling : String) : Prop :=
  (front.findSpelling? spelling).isSome ∨ ∀ f ∈ later, spelling ∉ f.spellings

/-- A key that a field in front answers to, whatever stands behind: by its text, or as the column that the key
names, with no field behind that takes its name. -/
inductive Ahead (sources : List Table) (front later : Fields) (e : Expr) : Prop where
  | spelled : (∀ x, e ≠ .literal (.number x)) → (front.findSpelling? (normalize e.text)).isSome →
    Ahead sources front later e
  | column {table : Option String} {name : String} : e = .column table name →
    (front.find? sources e).isSome → Undisturbed front later (normalize e.text) →
    (table = none → Undisturbed front later (normalize name)) → Ahead sources front later e

theorem findSpelling?_append {spelling : String} (h : Undisturbed front later spelling) :
    (front ++ later).findSpelling? spelling = front.findSpelling? spelling := by
  unfold Undisturbed at h
  unfold findSpelling? at h ⊢
  rw [List.findIdx?_append]
  rcases h with h | h
  · obtain ⟨slot, hslot⟩ := Option.isSome_iff_exists.mp h
    rw [hslot, Option.some_or]
  · have hnone : later.findIdx? (fun f => f.spellings.contains spelling) = none := by
      rw [List.findIdx?_eq_none_iff]
      intro f hf
      simpa using h f hf
    rw [hnone, Option.map_none, Option.or_none]

theorem find?_append (h : Ahead sources front later e) :
    (front ++ later).find? sources e = front.find? sources e ∧ (front.find? sources e).isSome := by
  cases h with
  | spelled _ hspelled =>
    obtain ⟨slot, hslot⟩ := Option.isSome_iff_exists.mp hspelled
    have hall : (front ++ later).findSpelling? (normalize e.text) = some slot :=
      (findSpelling?_append (Or.inl hspelled)).trans hslot
    rw [find?.eq_def, hall, find?.eq_def, hslot]
    exact ⟨rfl, rfl⟩
  | @column table name he hfound htext hname =>
    refine ⟨?_, hfound⟩
    subst he
    have hbare : (if table.isNone then (front ++ later).findSpelling? (normalize name) else none) =
        if table.isNone then front.findSpelling? (normalize name) else none := by
      split
      · rename_i hnone
        exact findSpelling?_append (hname (Option.isNone_iff_eq_none.mp hnone))
      · rfl
    rw [find?.eq_def] at hfound ⊢
    rw [find?.eq_def front]
    simp only [findSpelling?_append htext, hbare] at hfound ⊢
    split
    · rfl
    · rename_i hnone
      simp only [hnone] at hfound
      split
      · rfl
      · rename_i hnone'
        simp only [hnone'] at hfound
        cases hresolve : resolveColumn sources table name with
        | none =>
          rw [hresolve] at hfound
          cases hfound
        | some found =>
          rw [hresolve] at hfound
          obtain ⟨slot, hslot⟩ := Option.isSome_iff_exists.mp hfound
          rw [Option.bind_some] at hslot ⊢
          rw [Option.bind_some, hslot]
          unfold findColumn? at hslot ⊢
          rw [List.findIdx?_append, hslot, Option.some_or]

theorem Ahead.mono {fewer : Fields} (h : Ahead sources front later e) (hsub : fewer ⊆ later) :
    Ahead sources front fewer e := by
  have hless {spelling : String} (hspelling : Undisturbed front later spelling) :
      Undisturbed front fewer spelling :=
    hspelling.imp_right fun hfree f hf => hfree f (hsub hf)
  cases h with
  | spelled hliteral hspelled => exact .spelled hliteral hspelled
  | column he hfound htext hname => exact .column he hfound (hless htext) fun htable => hless (hname htable)

/-- Only a number is a place in the select list. -/
theorem ordinal?_of_ne {fs : Fields} {clause : String} (h : ∀ x, e ≠ .literal (.number x)) :
    fs.ordinal? clause e = .ok none := by
  unfold ordinal?
  split
  · rename_i x
    exact absurd rfl (h x)
  · rfl

/-- A key ahead adds no field. -/
theorem resolve_ahead (h : Ahead sources front later e) (clause : String) :
    (front ++ later).resolve sources clause e = .ok ((front.find? sources e).getD 0, front ++ later) := by
  obtain ⟨hfind, hsome⟩ := find?_append h
  obtain ⟨slot, hslot⟩ := Option.isSome_iff_exists.mp hsome
  have hordinal : (front ++ later).ordinal? clause e = .ok none := by
    cases h with
    | spelled hliteral _ => exact ordinal?_of_ne hliteral
    | column he _ _ _ =>
      rw [he]
      rfl
  unfold resolve
  rw [hordinal]
  refine bind_eq_ok.mpr ⟨none, rfl, ?_⟩
  simp only [hfind, hslot, Option.getD_some]

theorem resolveAll_ahead {es : List Expr} (h : ∀ e ∈ es, Ahead sources front later e) (clause : String) :
    (front ++ later).resolveAll sources clause es =
      .ok (es.map fun e => (front.find? sources e).getD 0, front ++ later) := by
  induction es with
  | nil => rfl
  | cons e es ih =>
    obtain ⟨he, hes⟩ := List.forall_mem_cons.mp h
    rw [resolveAll]
    refine bind_eq_ok.mpr ⟨_, resolve_ahead he clause, ?_⟩
    exact bind_eq_ok.mpr ⟨_, ih hes, rfl⟩

end Fields

/-- The plan of a statement whose keys are ahead hides no field. -/
theorem layout_ahead {s : Statement} (hselect : Fields.ofSelect sources s.items = .ok (front ++ later))
    (hkeys : ∀ e ∈ s.groupBy, Fields.Ahead sources front later e) (hhaving : s.having = none)
    (horder : s.orderBy = []) : layout sources s =
      .ok ⟨front ++ later, s.groupBy.map fun e => (front.find? sources e).getD 0, []⟩ := by
  unfold layout
  rw [hhaving, horder]
  exact bind_eq_ok.mpr ⟨_, hselect, bind_eq_ok.mpr ⟨_, Fields.resolveAll_ahead hkeys "GROUP BY",
    bind_eq_ok.mpr ⟨_, rfl, bind_eq_ok.mpr ⟨_, rfl, rfl⟩⟩⟩⟩

end GridQuery
