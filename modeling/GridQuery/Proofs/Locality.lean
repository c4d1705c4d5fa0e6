import GridQuery.Proofs.Readings
import GridQuery.Proofs.Selection

/-!
What is said of a row depends on the row alone. Formulas see a table through its schema and one row, so two
tables with the same names have the same formulas, and rows of the same cells have the same values and are
selected alike, wherever they stand.
-/

namespace GridQuery
set_option autoImplicit false

namespace Scope

/-- Names mean the same in two scopes: only the rows of their tables may differ. -/
structure SameNames (s s' : Scope) : Prop where
  tables_eq : s.tables = s'.tables
  binds_eq : s.binds = s'.binds
  schema_eq : s.table.schema = s'.table.schema

namespace SameNames

variable {s s' : Scope} (h : s.SameNames s')

include h

theorem agree : s.Agree s' (fun _ => True) (fun _ => True) where
  schema_eq := h.schema_eq
  correlated_eq q _ := by
    unfold Statement.isCorrelated
    rw [h.tables_eq, funext (Table.column?_eq_of_schema h.schema_eq)]
  bind_eq n _ := by rw [h.binds_eq]

theorem test_eq (c : Condition) : s.test c = s'.test c :=
  h.agree.test_eq (fun _ _ => trivial) fun _ _ => trivial

end SameNames

end Scope

namespace Rows

variable {σ : Type}

/-- Row `i` of one table and row `j` of another have the same cells, under the same names. -/
structure SameRow (r r' : Rows σ) (i j : Nat) : Prop where
  world_eq : r.world = r'.world
  runner_eq : r.runner = r'.runner
  schema_eq : r.table.schema = r'.table.schema
  cell_eq : ∀ c, r.table.cell i c = r'.table.cell j c

namespace SameRow

variable {r r' : Rows σ} {i j : Nat}

section

variable (h : r.SameRow r' i j)

include h

theorem sameNames : r.scope.SameNames r'.scope where
  tables_eq := congrArg World.tables h.world_eq
  binds_eq := congrArg World.binds h.world_eq
  schema_eq := h.schema_eq

theorem nested_eq (q : Statement) (correlated : Bool) :
    r.nested i q correlated = r'.nested j q correlated := by
  have hcell : r.table.cellNamed i = r'.table.cellNamed j := by
    funext spelling
    unfold Table.cellNamed
    rw [Table.column?_eq_of_schema h.schema_eq, funext h.cell_eq]
  unfold Rows.nested Statement.bindOuter
  rw [h.runner_eq, h.world_eq, hcell]

theorem members_eq (f : Formula) {listed listed' : Run σ (List Cell)} {single single' : Run σ Cell}
    (hlisted : listed = listed') (hsingle : single = single') :
    r.members i f listed single = r'.members j f listed' single' := by
  subst hlisted hsingle
  cases f with
  | subquery q correlated => simp only [Rows.members, h.nested_eq]
  | const | slot | binary | negate | call | case | list => rfl

end

mutual

theorem value_eq (h : r.SameRow r' i j) : ∀ f : Formula, r.value i f = r'.value j f
  | .const c => by simp only [value]
  | .slot c => by simp only [value, h.cell_eq]
  | .binary op a b => by simp only [value, value_eq h a, value_eq h b]
  | .negate a => by simp only [value, value_eq h a]
  | .call f args => by simp only [value, values_eq h args, h.world_eq]
  | .case branches otherwise => by simp only [value, choice_eq h branches, optional_eq h otherwise]
  | .subquery q correlated => by simp only [value, h.nested_eq]
  | .list _ => by simp only [value]

theorem values_eq (h : r.SameRow r' i j) : ∀ fs : List Formula, r.values i fs = r'.values j fs
  | [] => by simp only [values]
  | f :: fs => by simp only [values, value_eq h f, values_eq h fs]

theorem choice_eq (h : r.SameRow r' i j) : ∀ bs : List (Test × Formula), r.choice i bs = r'.choice j bs
  | [] => by simp only [choice]
  | (t, f) :: bs => by simp only [choice, holds_eq h t, value_eq h f, choice_eq h bs]

theorem optional_eq (h : r.SameRow r' i j) : ∀ o : Option Formula, r.optional i o = r'.optional j o
  | none => by simp only [optional]
  | some f => by simp only [optional, value_eq h f]

theorem listed_eq (h : r.SameRow r' i j) : ∀ f : Formula, r.listed i f = r'.listed j f
  | .list items => by simp only [listed, values_eq h items]
  | .const _ | .slot _ | .binary .. | .negate _ | .call .. | .case .. | .subquery .. => by
    simp only [listed]

theorem holds_eq (h : r.SameRow r' i j) : ∀ t : Test, r.holds i t = r'.holds j t
  | .compare op a b pattern => by
    have hmembers := h.members_eq b (listed_eq h b) (value_eq h b)
    simp only [holds, value_eq h a]
    rw [hmembers, value_eq h b]
  | .logic .and terms => by simp only [holds, allHold_eq h terms]
  | .logic .or terms => by simp only [holds, anyHolds_eq h terms]
  | .not t => by simp only [holds, holds_eq h t]
  | .exists negated q correlated => by simp only [holds, h.nested_eq]

theorem allHold_eq (h : r.SameRow r' i j) : ∀ ts : List Test, r.allHold i ts = r'.allHold j ts
  | [] => by simp only [allHold]
  | t :: ts => by simp only [allHold, holds_eq h t, allHold_eq h ts]

theorem anyHolds_eq (h : r.SameRow r' i j) : ∀ ts : List Test, r.anyHolds i ts = r'.anyHolds j ts
  | [] => by simp only [anyHolds]
  | t :: ts => by simp only [anyHolds, holds_eq h t, anyHolds_eq h ts]

end

end SameRow

end Rows

section Selected

variable {world : World} {t u : Table} {depth : Nat} {memo : ResultMemo} {i j : Nat}

/-- A row that is looked at is kept or not by what the test says of it. -/
theorem keep_looks {test : Test} {rows kept : List Nat}
    (h : ((rowsAt world t depth).keep test rows).Settles memo kept) (hi : i ∈ rows) :
    ∃ b, ((rowsAt world t depth).holds i test).Settles memo b ∧ (i ∈ kept ↔ b = true) := by
  have hwhole := h
  induction rows generalizing kept with
  | nil => cases hi
  | cons first rows ih =>
    simp only [Rows.keep] at h
    obtain ⟨hit, hhit, h⟩ := (Run.settles_bind (repeatable_holds world t depth first test)
      fun _ => (repeatable_keep test rows).bind fun _ _ => .pure _).mp h
    obtain ⟨others, hothers, _⟩ := (Run.settles_bind (repeatable_keep test rows)
      fun _ => .pure _).mp h
    rcases List.mem_cons.mp hi with rfl | hin
    · exact ⟨hit, hhit, mem_keep_iff hwhole hi hhit⟩
    · obtain ⟨b, hb, _⟩ := ih hothers hin hothers
      exact ⟨b, hb, mem_keep_iff hwhole hi hb⟩

variable (hrow : (rowsAt world t depth).SameRow (rowsAt world u depth) i j)

include hrow

theorem mem_leaf_local {c : Condition} {rows rows' ids ids' : List Nat}
    (h : ((rowsAt world t depth).leaf c rows).Settles memo ids)
    (h' : ((rowsAt world u depth).leaf c rows').Settles memo ids') (hi : i ∈ rows) (hj : j ∈ rows') :
    i ∈ ids ↔ j ∈ ids' := by
  obtain ⟨test, htest, h⟩ := (Run.settles_bind (.of _) fun test => repeatable_keep test rows).mp h
  obtain ⟨test', htest', h'⟩ := (Run.settles_bind (.of _) fun test => repeatable_keep test rows').mp h'
  rw [Run.settles_of] at htest htest'
  rw [hrow.sameNames.test_eq, htest', Except.ok.injEq] at htest
  obtain ⟨b, hb, hids⟩ := keep_looks h hi
  obtain ⟨b', hb', hids'⟩ := keep_looks h' hj
  rw [hrow.holds_eq, ← htest] at hb
  rw [hids, hids', hb.unique hb']

end Selected

section Conditions

variable {world : World} {t u : Table} {depth : Nat} {memo : ResultMemo} {i j : Nat}

mutual

/-- Rows of the same cells are selected alike, whatever other candidates there are. -/
theorem mem_select_local (hrow : (rowsAt world t depth).SameRow (rowsAt world u depth) i j) :
    ∀ {c : Condition} {rows rows' ids ids' : List Nat},
    ((rowsAt world t depth).select rows c).Settles memo ids →
    ((rowsAt world u depth).select rows' c).Settles memo ids' → i ∈ rows → j ∈ rows' →
    (i ∈ ids ↔ j ∈ ids')
  | .logic .and terms, rows, rows', ids, ids', h, h', hi, hj => by
    simp only [Rows.select] at h h'
    exact mem_narrow_local hrow h h' hi hj
  | .logic .or terms, rows, rows', ids, ids', h, h', hi, hj => by
    simp only [Rows.select] at h h'
    obtain ⟨hits, hhits, h⟩ := (Run.settles_bind (repeatable_gather rows terms)
      fun _ => .pure _).mp h
    obtain ⟨hits', hhits', h'⟩ := (Run.settles_bind (repeatable_gather rows' terms)
      fun _ => .pure _).mp h'
    rw [Run.settles_pure] at h h'
    subst h h'
    have hgather := mem_gather_local hrow hhits hhits' hi hj
    simpa [hi, hj] using hgather
  | .not c, rows, rows', ids, ids', h, h', hi, hj => by
    simp only [Rows.select] at h h'
    obtain ⟨hits, hhits, h⟩ := (Run.settles_bind (repeatable_select world t depth rows c)
      fun _ => .pure _).mp h
    obtain ⟨hits', hhits', h'⟩ := (Run.settles_bind (repeatable_select world u depth rows' c)
      fun _ => .pure _).mp h'
    rw [Run.settles_pure] at h h'
    subst h h'
    have hselect := mem_select_local hrow hhits hhits' hi hj
    simpa [hi, hj] using not_congr hselect
  | .compare op a b, rows, rows', ids, ids', h, h', hi, hj => by
    simp only [Rows.select] at h h'
    exact mem_leaf_local hrow h h' hi hj
  | .exists negated q, rows, rows', ids, ids', h, h', hi, hj => by
    simp only [Rows.select] at h h'
    exact mem_leaf_local hrow h h' hi hj

theorem mem_narrow_local (hrow : (rowsAt world t depth).SameRow (rowsAt world u depth) i j) :
    ∀ {cs : List Condition} {rows rows' ids ids' : List Nat},
    ((rowsAt world t depth).narrow rows cs).Settles memo ids →
    ((rowsAt world u depth).narrow rows' cs).Settles memo ids' → i ∈ rows → j ∈ rows' →
    (i ∈ ids ↔ j ∈ ids')
  | [], rows, rows', ids, ids', h, h', hi, hj => by
    simp only [Rows.narrow, Run.settles_pure] at h h'
    subst h h'
    exact iff_of_true hi hj
  | c :: cs, rows, rows', ids, ids', h, h', hi, hj => by
    have hne : rows.isEmpty = false := List.isEmpty_eq_false_iff.mpr (List.ne_nil_of_mem hi)
    have hne' : rows'.isEmpty = false := List.isEmpty_eq_false_iff.mpr (List.ne_nil_of_mem hj)
    simp only [Rows.narrow, hne, hne', Bool.false_eq_true, if_false] at h h'
    obtain ⟨left, hleft, h⟩ := (Run.settles_bind (repeatable_select world t depth rows c)
      fun _ => repeatable_narrow _ cs).mp h
    obtain ⟨left', hleft', h'⟩ := (Run.settles_bind (repeatable_select world u depth rows' c)
      fun _ => repeatable_narrow _ cs).mp h'
    have hfirst := mem_select_local hrow hleft hleft' hi hj
    by_cases hin : i ∈ left
    · exact mem_narrow_local hrow h h' hin (hfirst.mp hin)
    · -- a candidate that the first term drops does not come back
      apply iff_of_false
      · exact fun hids => hin ((Rows.narrow_sublist h).subset hids)
      · exact fun hids => hin (hfirst.mpr ((Rows.narrow_sublist h').subset hids))

theorem mem_gather_local (hrow : (rowsAt world t depth).SameRow (rowsAt world u depth) i j) :
    ∀ {cs : List Condition} {rows rows' hits hits' : List Nat},
    ((rowsAt world t depth).gather rows cs).Settles memo hits →
    ((rowsAt world u depth).gather rows' cs).Settles memo hits' → i ∈ rows → j ∈ rows' →
    (i ∈ hits ↔ j ∈ hits')
  | [], rows, rows', hits, hits', h, h', hi, hj => by
    simp only [Rows.gather, Run.settles_pure] at h h'
    subst h h'
    simp
  | c :: cs, rows, rows', hits, hits', h, h', hi, hj => by
    simp only [Rows.gather] at h h'
    obtain ⟨ids, hids, h⟩ := (Run.settles_bind (repeatable_select world t depth rows c)
      fun _ => (repeatable_gather rows cs).bind fun _ _ => .pure _).mp h
    obtain ⟨others, hothers, h⟩ := (Run.settles_bind (repeatable_gather rows cs)
      fun _ => .pure _).mp h
    obtain ⟨ids', hids', h'⟩ := (Run.settles_bind (repeatable_select world u depth rows' c)
      fun _ => (repeatable_gather rows' cs).bind fun _ _ => .pure _).mp h'
    obtain ⟨others', hothers', h'⟩ := (Run.settles_bind (repeatable_gather rows' cs)
      fun _ => .pure _).mp h'
    rw [Run.settles_pure] at h h'
    subst h h'
    rw [List.mem_append, List.mem_append, mem_select_local hrow hids hids' hi hj,
      mem_gather_local hrow hothers hothers' hi hj]

end

theorem mem_matching_local (hrow : (rowsAt world t depth).SameRow (rowsAt world u depth) i j)
    {o : Option Condition} {ids ids' : List Nat}
    (h : ((rowsAt world t depth).matching o).Settles memo ids)
    (h' : ((rowsAt world u depth).matching o).Settles memo ids') (hi : i < t.rows.length)
    (hj : j < u.rows.length) : i ∈ ids ↔ j ∈ ids' := by
  have hin : i ∈ List.range t.rows.length := List.mem_range.mpr hi
  have hjn : j ∈ List.range u.rows.length := List.mem_range.mpr hj
  cases o with
  | none =>
    rw [Run.settles_pure.mp h, Run.settles_pure.mp h']
    exact iff_of_true hin hjn
  | some c => exact mem_select_local hrow h h' hin hjn

end Conditions

end GridQuery
