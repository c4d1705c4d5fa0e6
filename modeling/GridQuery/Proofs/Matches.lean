import GridQuery.Proofs.Replay
import GridQuery.Proofs.Tables

/-!
What a join condition matches, pair by pair. A join looks up the keys of one side in an index of the
other, and puts lists of row numbers together where the condition has a connective; read on a pair of
rows, the condition compares the texts of two values. Both come to the same pairs if the operand for the
right table is read without brackets around a column, as the index takes it. Read as it is written, an
operand in brackets stands for the column with a title written like it, where there is one, and the
pairs are the same only if that is the column within.
-/

namespace GridQuery
set_option autoImplicit false

/-- A column without the brackets around it; any other expression as it is. -/
def Expr.bare : Expr → Expr
  | .paren e =>
    match e.bare with
    | .column table name => .column table name
    | _ => .paren e
  | e => e

/-- The column that an operand stands for where it is worked out row by row. -/
def Table.writtenColumn? (t : Table) : Expr → Option Nat
  | .column table name => t.column? (columnSpelling table name)
  | .paren e => (t.column? (Expr.text (.paren e))).or (t.writtenColumn? e)
  | _ => none

/-- An operand that is a column, also within brackets, stands for that column wherever it is read. -/
def Table.readsPlainly (t : Table) (e : Expr) : Bool :=
  (t.plainColumn? e).isNone || t.writtenColumn? e == t.plainColumn? e

mutual

/-- The operands of a condition that go to the right table stand for one column each, in the index and
where they are worked out. -/
def Condition.plainFor (left right : Table) : Condition → Bool
  | .compare .eq a b =>
    match sides left right a b with
    | .ok (_, inner) => right.readsPlainly inner
    | .error _ => true
  | .logic _ terms => termsPlainFor left right terms
  | .compare .. | .not _ | .exists .. => true

def termsPlainFor (left right : Table) : List Condition → Bool
  | [] => true
  | c :: cs => c.plainFor left right && termsPlainFor left right cs

end

/-- Whether terms of some truth values hold together; without terms they do not. -/
def Connective.combine (op : Connective) (values : List Bool) : Bool :=
  match op with
  | .and => !values.isEmpty && values.all id
  | .or => values.any id

section Pairs

variable {σ : Type}

mutual

/-- Whether a join condition holds between row `l` of the left table and row `r` of the right one, by a
reading of the operand for the right table. -/
def pairHolds (world : World) (runner : Runner σ) (reading : Expr → Expr) (left right : Table) (l r : Nat) :
    Condition → Run σ Bool
  | .compare .eq a b => do
    let (outer, inner) ← Run.of (sides left right a b)
    let x ← Rows.evaluated ⟨world, left, runner⟩ outer l
    let y ← Rows.evaluated ⟨world, right, runner⟩ (reading inner) r
    pure (x.sameText y)
  | .compare op a b => throw (.unsupportedJoin (Condition.text (.compare op a b)))
  | .logic op terms => do
    let values ← termsHold world runner reading left right l r terms
    pure (op.combine values)
  | .not c => throw (.unsupportedJoin (Condition.text (.not c)))
  | .exists negated q => throw (.unsupportedJoin (Condition.text (.exists negated q)))

def termsHold (world : World) (runner : Runner σ) (reading : Expr → Expr) (left right : Table) (l r : Nat) :
    List Condition → Run σ (List Bool)
  | [] => pure []
  | c :: cs => do
    let value ← pairHolds world runner reading left right l r c
    let values ← termsHold world runner reading left right l r cs
    pure (value :: values)

end

theorem Rows.formula_column {r : Rows σ} {table : Option String} {name : String} {column : Nat}
    (h : r.table.column? (columnSpelling table name) = some column) :
    r.scope.formula (.column table name) = .ok (.slot column) := by
  have hscope : r.scope.table.column? (columnSpelling table name) = some column := h
  simp only [Scope.formula, Scope.column, hscope, Option.some_or]

theorem Rows.evaluated_of_slot (r : Rows σ) {e : Expr} {column : Nat}
    (h : r.scope.formula e = .ok (.slot column)) (row : Nat) :
    r.evaluated e row = pure (r.table.cell row column) := by
  unfold Rows.evaluated
  rw [h]
  simp only [Run.of, pure_bind, Rows.value]

theorem formula_of_writtenColumn? (s : Scope) {column written : Nat} : ∀ {e : Expr},
    s.table.plainColumn? e = some column → s.table.writtenColumn? e = some written →
    s.formula e = .ok (.slot written)
  | .column table name, _, hwritten => by
    simp only [Table.writtenColumn?] at hwritten
    simp only [Scope.formula, Scope.column, hwritten, Option.some_or]
  | .paren e, hplain, hwritten => by
    simp only [Table.plainColumn?] at hplain
    simp only [Table.writtenColumn?] at hwritten
    simp only [Scope.formula, Scope.written?]
    cases htitle : s.table.column? (Expr.text (.paren e)) with
    | some slot =>
      rw [htitle, Option.some_or] at hwritten
      cases hwritten
      rfl
    | none =>
      rw [htitle, Option.none_or] at hwritten
      exact formula_of_writtenColumn? s hplain hwritten
  | .literal _, h, _ | .bind _, h, _ | .binary .., h, _ | .unary .., h, _ | .call .., h, _
  | .case .., h, _ | .ite .., h, _ | .subquery _, h, _ | .list _, h, _ | .star _, h, _ => by
    simp [Table.plainColumn?] at h

end Pairs

theorem Table.getElem?_columnCells {t : Table} {row : Nat} (column : Nat)
    (h : row < t.rows.length) : (t.columnCells column)[row]? = some (t.cell row column) := by
  unfold Table.columnCells Table.cell
  rw [List.getElem?_map, List.getElem?_eq_getElem h]
  rfl

theorem Table.plainColumn?_eq_some {t : Table} {column : Nat} : ∀ {e : Expr},
    t.plainColumn? e = some column → ∃ table name, e.bare = .column table name ∧
      t.column? (columnSpelling table name) = some column
  | .column table name, h => ⟨table, name, by simp only [Expr.bare], h⟩
  | .paren e, h => by
    simp only [Table.plainColumn?] at h
    obtain ⟨table, name, hbare, hcolumn⟩ := plainColumn?_eq_some h
    refine ⟨table, name, ?_, hcolumn⟩
    simp only [Expr.bare, hbare]
  | .literal _, h | .bind _, h | .binary .., h | .unary .., h | .call .., h | .case .., h
  | .ite .., h | .subquery _, h | .list _, h | .star _, h => by simp [Table.plainColumn?] at h

/-- An operand that a table knows is a column of it or as it was, apart from brackets. -/
theorem Table.bare_eq_self {t : Table} : ∀ {e : Expr}, t.knows e = true → t.plainColumn? e = none →
    e.bare = e ∧ ∀ table name, e ≠ .column table name
  | .column table name, hknows, hplain => by
    simp only [Table.plainColumn?] at hplain
    simp [Table.knows, Expr.parts, hplain] at hknows
  | .paren e, hknows, hplain => by
    simp only [Table.plainColumn?] at hplain
    have hinner : t.knows e = true := by simpa [Table.knows, Expr.parts] using hknows
    obtain ⟨hself, hcolumn⟩ := bare_eq_self hinner hplain
    refine ⟨?_, by simp⟩
    simp only [Expr.bare, hself]
  | .literal _, _, _ | .bind _, _, _ | .binary .., _, _ | .unary .., _, _ | .call .., _, _
  | .case .., _, _ | .ite .., _, _ | .subquery _, _, _ | .list _, _, _ | .star _, _, _ => by
    simp [Expr.bare]

theorem Table.writtenColumn?_eq_some {t : Table} {e : Expr} {column : Nat} (h : t.readsPlainly e = true)
    (hplain : t.plainColumn? e = some column) : t.writtenColumn? e = some column := by
  simpa [Table.readsPlainly, hplain] using h

theorem sides_cases {left right : Table} {a b outer inner : Expr} (h : sides left right a b = .ok (outer, inner)) :
    (outer = a ∧ inner = b ∧ left.knows a = true ∧ right.knows b = true) ∨
      (outer = b ∧ inner = a ∧ left.knows b = true ∧ right.knows a = true) := by
  unfold sides at h
  split at h
  · rename_i hknown
    cases h
    exact Or.inl ⟨rfl, rfl, (Bool.and_eq_true _ _).mp hknown⟩
  · split at h
    · rename_i hknown
      cases h
      exact Or.inr ⟨rfl, rfl, (Bool.and_eq_true _ _).mp hknown⟩
    · cases h

theorem sides_knows {left right : Table} {a b outer inner : Expr}
    (h : sides left right a b = .ok (outer, inner)) : right.knows inner = true := by
  rcases sides_cases h with ⟨_, rfl, _, hright⟩ | ⟨_, rfl, _, hright⟩
  · exact hright
  · exact hright

section Readings

variable {σ : Type} {world : World} {runner : Runner σ} {left right : Table}

/-- An operand that stands for one thing has the same value without its brackets. -/
theorem Rows.evaluated_bare (r : Rows σ) {e : Expr} (hknows : r.table.knows e = true)
    (hplain : r.table.readsPlainly e = true) (row : Nat) : r.evaluated e.bare row = r.evaluated e row := by
  cases hcolumn : r.table.plainColumn? e with
  | some column =>
    have hwritten := Table.writtenColumn?_eq_some hplain hcolumn
    obtain ⟨table, name, hbare, hfound⟩ := Table.plainColumn?_eq_some hcolumn
    rw [hbare, r.evaluated_of_slot (Rows.formula_column hfound),
      r.evaluated_of_slot (formula_of_writtenColumn? r.scope hcolumn hwritten)]
  | none => rw [(Table.bare_eq_self hknows hcolumn).1]

mutual

theorem pairHolds_bare (l r : Nat) : ∀ {c : Condition}, c.plainFor left right = true →
    pairHolds world runner Expr.bare left right l r c = pairHolds world runner id left right l r c
  | .compare .eq a b, h => by
    simp only [Condition.plainFor] at h
    simp only [pairHolds]
    cases hsides : sides left right a b with
    | error e => rfl
    | ok operands =>
      obtain ⟨outer, inner⟩ := operands
      rw [hsides] at h
      have hvalue : Rows.evaluated (⟨world, right, runner⟩ : Rows σ) inner.bare r =
          Rows.evaluated ⟨world, right, runner⟩ inner r :=
        Rows.evaluated_bare _ (sides_knows hsides) h r
      simp only [Run.of, pure_bind, hvalue, id_eq]
  | .logic op terms, h => by
    simp only [Condition.plainFor] at h
    simp only [pairHolds, termsHold_bare l r h]
  | .compare .notEq _ _, _ | .compare .lt _ _, _ | .compare .ltEq _ _, _ | .compare .gt _ _, _
  | .compare .gtEq _ _, _ | .compare .like _ _, _ | .compare .notLike _ _, _ | .compare .isIn _ _, _
  | .compare .notIn _ _, _ | .compare .is _ _, _ | .compare .isNot _ _, _ | .not _, _
  | .exists _ _, _ => by
    simp only [pairHolds]

theorem termsHold_bare (l r : Nat) : ∀ {cs : List Condition}, termsPlainFor left right cs = true →
    termsHold world runner Expr.bare left right l r cs = termsHold world runner id left right l r cs
  | [], _ => by simp only [termsHold]
  | c :: cs, h => by
    simp only [termsPlainFor, Bool.and_eq_true] at h
    simp only [termsHold, pairHolds_bare l r h.1, termsHold_bare l r h.2]

end

end Readings

section Settled

variable {world : World} {depth : Nat} {memo : ResultMemo}

theorem repeatable_columnValues (table : Table) (f : Formula) (row count : Nat) :
    Repeatable ((rowsAt world table depth).columnValues f row count) :=
  Lockstep.columnValues (repeating_reads world depth) (fun _ _ => trivial) row count

theorem repeatable_termMatches (left right : Table) (op : Connective) (cs : List Condition) :
    Repeatable (termMatches world (runnerAt remembered world depth) left right op cs) :=
  Lockstep.termMatches (repeating_reads world depth) op cs (fun _ _ => trivial) fun _ _ => trivial

theorem repeatable_keyMatches (right : Table) (inner : Expr) (keys : List Cell) :
    Repeatable (keyMatches world (runnerAt remembered world depth) right inner keys) :=
  Lockstep.keyMatches (repeating_reads world depth) (fun _ _ => trivial) (fun _ _ => trivial) keys

theorem settles_columnValues {table : Table} {f : Formula} {row count : Nat} {xs : List Cell}
    (h : ((rowsAt world table depth).columnValues f row count).Settles memo xs) :
    xs.length = count ∧ ∀ i x, xs[i]? = some x →
      ((rowsAt world table depth).value (row + i) f).Settles memo x := by
  induction count generalizing row xs with
  | zero =>
    obtain rfl := Run.settles_pure.mp h
    exact ⟨rfl, by simp⟩
  | succ count ih =>
    obtain ⟨first, hfirst, h⟩ := (Run.settles_bind (repeatable_value world table depth row f)
      fun _ => (repeatable_columnValues table f (row + 1) count).bind fun _ _ => .pure _).mp h
    obtain ⟨others, hothers, h⟩ := (Run.settles_bind
      (repeatable_columnValues table f (row + 1) count) fun _ => .pure _).mp h
    obtain rfl := Run.settles_pure.mp h
    obtain ⟨hlength, hvalues⟩ := ih hothers
    refine ⟨congrArg (· + 1) hlength, ?_⟩
    intro i x hx
    cases i with
    | zero =>
      cases hx
      exact hfirst
    | succ i =>
      have hvalue := hvalues i x hx
      rwa [Nat.add_right_comm, Nat.add_assoc] at hvalue

/-- A column has the values that the expression has row by row. -/
theorem settles_column {table : Table} {e : Expr} {xs : List Cell}
    (h : ((rowsAt world table depth).column e).Settles memo xs) :
    xs.length = table.rows.length ∧ ∀ i x, xs[i]? = some x →
      ((rowsAt world table depth).evaluated e i).Settles memo x := by
  obtain ⟨f, hf, h⟩ := (Run.settles_bind (.of _)
    fun f => repeatable_columnValues table f 0 table.rows.length).mp h
  obtain ⟨hlength, hvalues⟩ := settles_columnValues h
  refine ⟨hlength, ?_⟩
  intro i x hx
  have hvalue := hvalues i x hx
  rw [Nat.zero_add] at hvalue
  exact Run.gives_bind.mpr ⟨f, memo, hf, hvalue⟩

/-- Keys are matched with the values that the bare operand has row by row, whether an index holds them
or they are worked out. -/
theorem settles_keyMatches {right : Table} (hright : right.Built) {inner : Expr}
    (hknows : right.knows inner = true) {keys : List Cell} {ms : Matches}
    (h : (keyMatches world (runnerAt remembered world depth) right inner keys).Settles memo ms) :
    ∃ values : List Cell, values.length = right.rows.length ∧
      ms = keys.map (fun key => values.findIdxs key.sameText) ∧
      ∀ r y, values[r]? = some y →
        ((rowsAt world right depth).evaluated inner.bare r).Settles memo y := by
  unfold keyMatches at h
  cases hplain : right.plainColumn? inner with
  | some column =>
    rw [hplain] at h
    obtain rfl := Run.settles_pure.mp h
    obtain ⟨table, name, hbare, hcolumn⟩ := Table.plainColumn?_eq_some hplain
    refine ⟨right.columnCells column, right.columnCells_length column, ?_, ?_⟩
    · exact List.map_congr_left fun key _ => hright.search_addIndex column key
    · intro r y hy
      have hr : r < right.rows.length := by
        rw [← right.columnCells_length column]
        exact (List.getElem?_eq_some_iff.mp hy).1
      rw [right.getElem?_columnCells column hr] at hy
      cases hy
      rw [hbare, (rowsAt world right depth).evaluated_of_slot (Rows.formula_column hcolumn) r]
      exact Run.settles_pure.mpr rfl
  | none =>
    rw [hplain] at h
    obtain ⟨values, hvalues, h⟩ := (Run.settles_bind (repeatable_column world right depth inner)
      fun _ => .pure _).mp h
    obtain rfl := Run.settles_pure.mp h
    obtain ⟨hcount, hinner⟩ := settles_column hvalues
    refine ⟨values, hcount, ?_, ?_⟩
    · exact List.map_congr_left fun key _ => matchesOf_indexFrom values key
    · rw [(Table.bare_eq_self hknows hplain).1]
      exact hinner

end Settled

/-- One list for each row of the left table, of rows of the right table in their order. -/
structure Matches.Ordered (left right : Table) (ms : Matches) : Prop where
  length_eq : ms.length = left.rows.length
  ascending : ∀ ids ∈ ms, ids.Pairwise (· < ·)
  bounded : ∀ ids ∈ ms, ∀ r ∈ ids, r < right.rows.length

theorem noMatches_ordered {left right : Table} : Matches.Ordered left right (left.rows.map fun _ => []) :=
  ⟨List.length_map _, by simp, by simp⟩

theorem matchesOf_ordered {left right : Table} {keys values : List Cell} (hkeys : keys.length = left.rows.length)
    (hvalues : values.length = right.rows.length) :
    Matches.Ordered left right (keys.map fun key => values.findIdxs key.sameText) where
  length_eq := (List.length_map _).trans hkeys
  ascending := by
    intro ids hids
    obtain ⟨key, _, rfl⟩ := List.mem_map.mp hids
    exact List.pairwise_findIdxs
  bounded := by
    intro ids hids r hr
    obtain ⟨key, _, rfl⟩ := List.mem_map.mp hids
    rw [← hvalues]
    exact List.lt_add_of_mem_findIdxs r hr

theorem mem_uniteRows {xs ys : List Nat} {r : Nat} : r ∈ uniteRows xs ys ↔ r ∈ xs ∨ r ∈ ys := by
  unfold uniteRows
  rw [List.mem_merge, List.mem_filter]
  by_cases hr : r ∈ xs <;> simp [hr]

/-- A merge of ascending lists without common rows ascends. -/
theorem uniteRows_ascending {xs ys : List Nat} (hxs : xs.Pairwise (· < ·))
    (hys : ys.Pairwise (· < ·)) : (uniteRows xs ys).Pairwise (· < ·) := by
  have hnew : (ys.filter fun y => !xs.contains y).Pairwise (· < ·) := hys.filter _
  have hle : (uniteRows xs ys).Pairwise (· ≤ ·) :=
    (hxs.imp Nat.le_of_lt).merge (hnew.imp Nat.le_of_lt)
  have hperm : (uniteRows xs ys).Perm (xs ++ ys.filter fun y => !xs.contains y) :=
    List.merge_perm_append _
  have hnodup : (uniteRows xs ys).Nodup := by
    refine hperm.nodup_iff.mpr (List.nodup_append.mpr ⟨?_, ?_, ?_⟩)
    · exact hxs.imp Nat.ne_of_lt
    · exact hnew.imp Nat.ne_of_lt
    · intro x hx y hy he
      subst he
      simp [hx] at hy
  exact (hle.and hnodup).imp fun ⟨hxy, hne⟩ => Nat.lt_of_le_of_ne hxy hne

def Connective.both (op : Connective) (v w : Bool) : Bool :=
  match op with
  | .and => v && w
  | .or => v || w

theorem Connective.combine_singleton (op : Connective) (v : Bool) : op.combine [v] = v := by
  cases op <;> simp [Connective.combine]

theorem Connective.combine_cons (op : Connective) (v : Bool) {vs : List Bool} (h : vs ≠ []) :
    op.combine (v :: vs) = op.both v (op.combine vs) := by
  have hempty : vs.isEmpty = false := by simpa using h
  cases op <;> simp [Connective.combine, Connective.both, hempty]

theorem decide_mem_connectRows (op : Connective) (xs ys : List Nat) (r : Nat) :
    decide (r ∈ connectRows op xs ys) = op.both (decide (r ∈ xs)) (decide (r ∈ ys)) := by
  cases op with
  | and => simp [connectRows, Connective.both]
  | or => simp [connectRows, Connective.both, mem_uniteRows]

theorem connectRows_ascending {op : Connective} {xs ys : List Nat} (hxs : xs.Pairwise (· < ·))
    (hys : ys.Pairwise (· < ·)) : (connectRows op xs ys).Pairwise (· < ·) := by
  cases op with
  | and => exact hxs.filter _
  | or => exact uniteRows_ascending hxs hys

theorem mem_or_mem_of_mem_connectRows {op : Connective} {xs ys : List Nat} {r : Nat}
    (h : r ∈ connectRows op xs ys) : r ∈ xs ∨ r ∈ ys := by
  cases op with
  | and => exact Or.inl (List.mem_filter.mp h).1
  | or => exact mem_uniteRows.mp h

theorem getElem?_combineMatches {op : Connective} {a b : Matches} {l : Nat} {ids : List Nat}
    (h : (combineMatches op a b)[l]? = some ids) :
    ∃ xs ys, a[l]? = some xs ∧ b[l]? = some ys ∧ ids = connectRows op xs ys := by
  unfold combineMatches at h
  obtain ⟨xs, ys, hxs, hys, he⟩ := List.getElem?_zipWith_eq_some.mp h
  exact ⟨xs, ys, hxs, hys, he.symm⟩

namespace Matches

theorem Ordered.combine {left right : Table} {a b : Matches} (ha : a.Ordered left right)
    (hb : b.Ordered left right) (op : Connective) : (combineMatches op a b).Ordered left right := by
  have hlist {ids : List Nat} (hids : ids ∈ combineMatches op a b) :
      ∃ xs ∈ a, ∃ ys ∈ b, ids = connectRows op xs ys := by
    obtain ⟨l, hl⟩ := List.mem_iff_getElem?.mp hids
    obtain ⟨xs, ys, hxs, hys, he⟩ := getElem?_combineMatches hl
    exact ⟨xs, List.mem_of_getElem? hxs, ys, List.mem_of_getElem? hys, he⟩
  refine ⟨?_, ?_, ?_⟩
  · simp only [combineMatches, List.length_zipWith, ha.length_eq, hb.length_eq, Nat.min_self]
  · intro ids hids
    obtain ⟨xs, hxs, ys, hys, rfl⟩ := hlist hids
    exact connectRows_ascending (ha.ascending xs hxs) (hb.ascending ys hys)
  · intro ids hids r hr
    obtain ⟨xs, hxs, ys, hys, rfl⟩ := hlist hids
    rcases mem_or_mem_of_mem_connectRows hr with hr | hr
    · exact ha.bounded xs hxs r hr
    · exact hb.bounded ys hys r hr

/-- Ordered lists that have a pair of rows exactly where a reading of the pair says true. -/
structure Read (left right : Table) (reading : Nat → Nat → Bool → Prop) (ms : Matches) : Prop
    extends Ordered left right ms where
  reads : ∀ {l r ids}, ms[l]? = some ids → r < right.rows.length → reading l r (decide (r ∈ ids))

end Matches

section Settled

variable {world : World} {left right : Table} {depth : Nat} {memo : ResultMemo}

theorem equalityMatches_read (hright : right.Built) {a b : Expr} {ms : Matches}
    (h : (equalityMatches world (runnerAt remembered world depth) left right a b).Settles memo ms) :
    ms.Read left right fun l r v =>
      (pairHolds world (runnerAt remembered world depth) Expr.bare left right l r (.compare .eq a b)).Settles
        memo v := by
  obtain ⟨⟨outer, inner⟩, hsides, h⟩ := (Run.settles_bind (.of _) fun ⟨outer, inner⟩ =>
    (repeatable_column world left depth outer).bind
      fun keys _ => repeatable_keyMatches right inner keys).mp h
  rw [Run.settles_of] at hsides
  obtain ⟨keys, hkeys, h⟩ := (Run.settles_bind (repeatable_column world left depth outer)
    fun keys => repeatable_keyMatches right inner keys).mp h
  obtain ⟨hlength, houter⟩ := settles_column hkeys
  obtain ⟨values, hcount, rfl, hinner⟩ := settles_keyMatches hright (sides_knows hsides) h
  refine ⟨matchesOf_ordered hlength hcount, ?_⟩
  intro l r ids hids hr
  rw [List.getElem?_map] at hids
  obtain ⟨x, hx, rfl⟩ := Option.map_eq_some_iff.mp hids
  rw [← hcount] at hr
  have hmem : decide (r ∈ values.findIdxs x.sameText) = x.sameText values[r] := by
    simp only [List.mem_findIdxs_iff_pos_getElem hr, Bool.decide_eq_true]
  rw [hmem]
  simp only [pairHolds]
  exact Run.gives_bind.mpr ⟨(outer, inner), memo, Run.settles_of.mpr hsides,
    Run.gives_bind.mpr ⟨x, memo, houter l x hx,
      Run.gives_bind.mpr ⟨values[r], memo, hinner r _ (List.getElem?_eq_getElem hr),
        Run.settles_pure.mpr rfl⟩⟩⟩

theorem termMatches_none {op : Connective} {cs : List Condition}
    (h : (termMatches world (runnerAt remembered world depth) left right op cs).Settles memo none) :
    cs = [] := by
  cases cs with
  | nil => rfl
  | cons c cs =>
    simp only [termMatches] at h
    obtain ⟨ms, _, _, h⟩ := Run.gives_bind.mp h
    obtain ⟨o, _, _, h⟩ := Run.gives_bind.mp h
    cases o with
    | none => cases (Run.gives_pure.mp h).1
    | some others => cases (Run.gives_pure.mp h).1

mutual

theorem conditionMatches_read (hright : right.Built) : ∀ {c : Condition} {ms : Matches},
    (conditionMatches world (runnerAt remembered world depth) left right c).Settles memo ms →
    ms.Read left right fun l r v =>
      (pairHolds world (runnerAt remembered world depth) Expr.bare left right l r c).Settles memo v
  | .compare .eq a b, ms, h => by
    simp only [conditionMatches] at h
    exact equalityMatches_read hright h
  | .logic op terms, ms, h => by
    simp only [conditionMatches] at h
    obtain ⟨o, hterms, h⟩ := (Run.settles_bind (repeatable_termMatches left right op terms)
      fun o => by cases o <;> exact .pure _).mp h
    cases o with
    | none =>
      -- without terms no pair of rows matches
      obtain rfl := Run.settles_pure.mp h
      obtain rfl := termMatches_none hterms
      refine ⟨noMatches_ordered, ?_⟩
      intro l r ids hids _
      rw [List.getElem?_map] at hids
      obtain ⟨row, _, rfl⟩ := Option.map_eq_some_iff.mp hids
      simp only [pairHolds, termsHold]
      refine Run.gives_bind.mpr ⟨[], memo, Run.settles_pure.mpr rfl, Run.settles_pure.mpr ?_⟩
      cases op <;> rfl
    | some others =>
      obtain rfl := Run.settles_pure.mp h
      obtain ⟨hordered, hreads⟩ := termMatches_read hright hterms
      refine ⟨hordered, ?_⟩
      intro l r ids hids hr
      obtain ⟨values, _, hvalues, hcombine⟩ := hreads hids hr
      simp only [pairHolds]
      exact Run.gives_bind.mpr ⟨values, memo, hvalues, Run.settles_pure.mpr hcombine⟩
  | .compare .notEq a b, ms, h | .compare .lt a b, ms, h | .compare .ltEq a b, ms, h
  | .compare .gt a b, ms, h | .compare .gtEq a b, ms, h | .compare .like a b, ms, h
  | .compare .notLike a b, ms, h | .compare .isIn a b, ms, h | .compare .notIn a b, ms, h
  | .compare .is a b, ms, h | .compare .isNot a b, ms, h | .not c, ms, h
  | .exists negated q, ms, h => by
    simp only [conditionMatches] at h
    exact absurd h Run.not_settles_throw

theorem termMatches_read (hright : right.Built) {op : Connective} : ∀ {cs : List Condition}
    {ms : Matches},
    (termMatches world (runnerAt remembered world depth) left right op cs).Settles memo (some ms) →
    ms.Read left right fun l r v => ∃ values ≠ [],
      (termsHold world (runnerAt remembered world depth) Expr.bare left right l r cs).Settles memo values ∧
        v = op.combine values
  | [], ms, h => by
    simp only [termMatches] at h
    cases Run.settles_pure.mp h
  | c :: cs, ms, h => by
    simp only [termMatches] at h
    have hrest (first : Matches) : Repeatable (do
        match ← termMatches world (runnerAt remembered world depth) left right op cs with
        | some others => pure (some (combineMatches op first others))
        | none => pure (some first)) :=
      (repeatable_termMatches left right op cs).bind fun o _ => by cases o <;> exact .pure _
    obtain ⟨first, hfirst, h⟩ := (Run.settles_bind
      (repeatable_conditionMatches world depth left right c) hrest).mp h
    obtain ⟨o, hothers, h⟩ := (Run.settles_bind (repeatable_termMatches left right op cs)
      fun o => by cases o <;> exact .pure _).mp h
    obtain ⟨hordered, hreads⟩ := conditionMatches_read hright hfirst
    cases o with
    | none =>
      obtain rfl := Option.some.inj (Run.settles_pure.mp h)
      obtain rfl := termMatches_none hothers
      refine ⟨hordered, ?_⟩
      intro l r ids hids hr
      refine ⟨[decide (r ∈ ids)], by simp, ?_, (op.combine_singleton _).symm⟩
      simp only [termsHold]
      exact Run.gives_bind.mpr ⟨_, memo, hreads hids hr, Run.settles_pure.mpr rfl⟩
    | some others =>
      obtain rfl := Option.some.inj (Run.settles_pure.mp h)
      obtain ⟨hothersOrdered, hothersReads⟩ := termMatches_read hright hothers
      refine ⟨hordered.combine hothersOrdered op, ?_⟩
      intro l r ids hids hr
      obtain ⟨xs, ys, hxs, hys, rfl⟩ := getElem?_combineMatches hids
      obtain ⟨values, hne, hvalues, hcombine⟩ := hothersReads hys hr
      refine ⟨decide (r ∈ xs) :: values, by simp, ?_, ?_⟩
      · simp only [termsHold]
        exact Run.gives_bind.mpr ⟨_, memo, hreads hxs hr,
          Run.gives_bind.mpr ⟨values, memo, hvalues, Run.settles_pure.mpr rfl⟩⟩
      · rw [decide_mem_connectRows, op.combine_cons _ hne, ← hcombine]

end

end Settled

/-- A join condition matches the pairs of rows on which it holds: it has a list for each row of the
left table, of ascending rows of the right one, and a row is in a list exactly where the condition,
read on the two rows, says so. Readings come after the join, with what it kept still there. A column in
brackets is read without them, or as it is written where both are the same column. -/
theorem mem_conditionMatches_iff_pairHolds {world : World} {left right : Table} {depth : Nat}
    {c : Condition} {memo kept : ResultMemo} {ms : Matches} (hright : right.Built)
    (h : (conditionMatches world (runnerAt remembered world depth) left right c).Gives memo ms kept) :
    ms.length = left.rows.length ∧
    (∀ ids ∈ ms, ids.Pairwise (· < ·) ∧ ∀ r ∈ ids, r < right.rows.length) ∧
    ∀ {later : ResultMemo}, kept.KeptIn later → ∀ {l r : Nat} {ids : List Nat},
      ms[l]? = some ids → r < right.rows.length →
      ∃ b, (pairHolds world (runnerAt remembered world depth) Expr.bare left right l r c).Gives
          later b later ∧
        (r ∈ ids ↔ b = true) ∧
        (c.plainFor left right = true →
          (pairHolds world (runnerAt remembered world depth) id left right l r c).Gives
            later b later) := by
  have hread {later : ResultMemo} (hlater : kept.KeptIn later) :=
    conditionMatches_read hright
      ((repeatable_conditionMatches world depth left right c).again h hlater)
  have hordered := (hread (.refl kept)).toOrdered
  refine ⟨hordered.length_eq, ?_, ?_⟩
  · intro ids hids
    exact ⟨hordered.ascending ids hids, hordered.bounded ids hids⟩
  · intro later hlater l r ids hids hr
    have hbare := (hread hlater).reads hids hr
    refine ⟨decide (r ∈ ids), hbare, decide_eq_true_iff.symm, ?_⟩
    intro hplain
    rwa [← pairHolds_bare l r hplain]

def emptyWorld : World := ⟨.empty, .empty, .midnight ⟨2020, 1, 1⟩⟩

/-- `A = (B) AND UPPER(B) = 'X'`, the second equality with its sides the other way round. -/
def sameAndX : Condition :=
  .logic .and [.compare .eq (.column none "A") (.paren (.column none "B")),
    .compare .eq (.call "UPPER" false [.column none "B"]) (.literal (.text "X"))]

theorem mem_conditionMatches_iff_pairHolds_sameAndX :
    let left := Table.derived "T" ["A"] [[.text "x"], [.text "y"]]
    let right := Table.derived "U" ["B"] [[.text "y"], [.text "x"]]
    let runner := runnerAt remembered emptyWorld 0
    right.Built ∧ ResultMemo.KeptIn [] [] ∧ sameAndX.plainFor left right = true ∧
    (conditionMatches emptyWorld runner left right sameAndX).Gives [] [[1], []] [] ∧
    ∃ b, (pairHolds emptyWorld runner id left right 0 1 sameAndX).Gives [] b [] ∧
      (1 ∈ [1] ↔ b = true) := by
  intro left right runner
  have hright : right.Built := .withSchema _ _ _ _
  have hkept := ResultMemo.KeptIn.refl []
  have hplain : sameAndX.plainFor left right = true := by decide +kernel
  have hmatches : (conditionMatches emptyWorld runner left right sameAndX).Gives []
      [[1], []] [] := by decide +kernel
  obtain ⟨_, _, hreads⟩ := mem_conditionMatches_iff_pairHolds hright hmatches
  obtain ⟨b, _, hmem, hwritten⟩ := @hreads [] hkept 0 1 [1] rfl (by decide)
  exact ⟨hright, hkept, hplain, hmatches, b, hwritten hplain, hmem⟩

/-- With a second column whose title is written like the bracketed operand, a join matches the rows by
the column in the brackets, and the condition, read as it is written, does not hold on them. -/
theorem conditionMatches_bracketed_column :
    let left := Table.derived "T" ["A"] [[.text "x"]]
    let right := Table.derived "U" ["B", "(B)"] [[.text "x", .text "y"]]
    let runner := runnerAt remembered emptyWorld 0
    let c : Condition := .compare .eq (.column none "A") (.paren (.column none "B"))
    right.Built ∧ c.plainFor left right = false ∧
    (conditionMatches emptyWorld runner left right c).Gives [] [[0]] [] ∧
    (pairHolds emptyWorld runner id left right 0 0 c).Gives [] false [] := by
  intro left right runner c
  exact ⟨.withSchema _ _ _ _, by decide +kernel, by decide +kernel, by decide +kernel⟩

end GridQuery
