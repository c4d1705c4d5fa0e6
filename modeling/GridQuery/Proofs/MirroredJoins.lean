import GridQuery.Proofs.OuterJoins

/-!
Joins from the other side. A condition on operands that belong to one table each gives the mirrored matches
when the tables change places: the operand that was looked up is then the one that is worked out, and both
come to the values that the operand has on the rows of its table. An operand in brackets needs care: looked
up, it is the column within them; worked out, it is a column with a title written like it, where there is one.
-/

namespace GridQuery
set_option autoImplicit false

/-- An operand without nested statements that belongs to one of two tables. A constant belongs to both, so
such an operand names a column. -/
def Expr.ofOneSide (left right : Table) (e : Expr) : Bool :=
  e.statements.isEmpty && (left.knows e != right.knows e)

mutual

/-- Equalities between operands of a kind, combined with `AND` and `OR`. -/
def Condition.equates (operand : Expr → Bool) : Condition → Bool
  | .compare .eq a b => operand a && operand b
  | .logic _ terms => termsEquate operand terms
  | .compare .. | .not _ | .exists .. => false

def termsEquate (operand : Expr → Bool) : List Condition → Bool
  | [] => true
  | c :: cs => c.equates operand && termsEquate operand cs

end

def JoinKind.mirrored : JoinKind → JoinKind
  | inner => inner
  | left => right
  | right => left
  | full => full

section Operands

variable {σ : Type} {world : World} {runner : Runner σ} {left right : Table}

/-- The values of an operand without nested statements are the same in every state. -/
theorem column_again {t : Table} {e : Expr} (hnone : e.statements = []) {xs : List Cell} {st st' : σ}
    (h : (Rows.column ⟨world, t, runner⟩ e).Gives st xs st') :
    st' = st ∧ (Rows.column ⟨world, t, runner⟩ e).Gives st xs st := by
  have : Nonempty σ := ⟨st⟩
  have hreads : (computing _ _).Reads world world runner runner (fun _ => False) (fun _ => True) :=
    ⟨rfl, fun _ => False.elim, fun _ _ => rfl⟩
  obtain ⟨x, hx, _⟩ : (computing _ _).rel (Rows.column ⟨world, t, runner⟩ e) (Rows.column ⟨world, t, runner⟩ e) :=
    Lockstep.column hreads (by simp [hnone]) fun _ _ => trivial
  rw [hx] at h ⊢
  obtain ⟨hxs, rfl⟩ := Run.gives_of.mp h
  exact ⟨rfl, Run.gives_of.mpr ⟨hxs, rfl⟩⟩

theorem columnValues_length {r : Rows σ} {f : Formula} {row count : Nat} {xs : List Cell} {st st' : σ}
    (h : (r.columnValues f row count).Gives st xs st') : xs.length = count := by
  induction count generalizing row xs st st' with
  | zero =>
    rw [(Run.gives_pure.mp h).1]
    rfl
  | succ count ih =>
    obtain ⟨x, _, _, h⟩ := Run.gives_bind.mp h
    obtain ⟨others, _, hothers, h⟩ := Run.gives_bind.mp h
    rw [(Run.gives_pure.mp h).1]
    exact congrArg (· + 1) (ih hothers)

theorem column_length {r : Rows σ} {e : Expr} {xs : List Cell} {st st' : σ}
    (h : (r.column e).Gives st xs st') : xs.length = r.table.rows.length := by
  obtain ⟨f, _, _, h⟩ := Run.gives_bind.mp h
  exact columnValues_length h

/-- Looked up in an index or worked out, the operand of the right table has its values on all rows. -/
theorem keyMatches_eq (hright : right.Built) {inner : Expr} (hplain : right.readsPlainly inner = true)
    (keys : List Cell) :
    keyMatches world runner right inner keys = (do
      let values ← Rows.column ⟨world, right, runner⟩ inner
      pure (keys.map fun key => values.findIdxs key.sameText)) := by
  unfold keyMatches
  cases hcolumn : right.plainColumn? inner with
  | some column =>
    have hwritten := Table.writtenColumn?_eq_some hplain hcolumn
    have hvalues : Rows.column (⟨world, right, runner⟩ : Rows σ) inner =
        pure (right.columnCells column) :=
      column_of_slot ⟨world, right, runner⟩ (formula_of_writtenColumn? _ hcolumn hwritten)
    simp only [hvalues, pure_bind]
    exact congrArg pure (List.map_congr_left fun key _ => hright.search_addIndex column key)
  | none =>
    refine congrArg (Bind.bind _) (funext fun values => congrArg pure ?_)
    exact List.map_congr_left fun key _ => matchesOf_indexFrom values key

/-- Each operand goes to its own table, whichever table comes first. -/
theorem sides_mirrored {a b outer inner : Expr} (ha : (left.knows a != right.knows a) = true)
    (h : sides left right a b = .ok (outer, inner)) : sides right left a b = .ok (inner, outer) := by
  unfold sides
  rcases sides_cases h with ⟨rfl, rfl, hleft, hright⟩ | ⟨rfl, rfl, hleft, hright⟩
  · have hother : right.knows outer = false := by simpa [hleft] using ha
    simp [hother, hleft, hright]
  · simp [hleft, hright]

end Operands

section Matching

variable {left right : Table} {ms : Matches}

theorem contains_findIdxs {α : Type} {xs : List α} {p : α → Bool} {i : Nat} (h : i < xs.length) :
    (xs.findIdxs p).contains i = p xs[i] := by
  rw [Bool.eq_iff_iff, List.contains_iff_mem, List.mem_findIdxs_iff_pos_getElem h]

/-- In matches that do not repeat a row, the left rows of a right one are those whose lists have it. -/
theorem leftsOf_eq_findIdxs (h : ∀ ids ∈ ms, ids.Nodup) (r : Nat) :
    leftsOf ms r = ms.findIdxs fun ids => ids.contains r := by
  have hfrom (ms : Matches) (h : ∀ ids ∈ ms, ids.Nodup) (first : Nat) :
      ((ms.zipIdx first).flatMap fun m => (m.1.filter fun i => i == r).map fun _ => m.2) =
        ms.findIdxs (fun ids => ids.contains r) first := by
    induction ms generalizing first with
    | nil => rfl
    | cons ids ms ih =>
      obtain ⟨hids, hms⟩ := List.forall_mem_cons.mp h
      rw [List.zipIdx_cons, List.flatMap_cons, ih hms, List.findIdxs_cons, List.filter_beq, hids.count]
      by_cases hr : r ∈ ids <;> simp [hr]
  exact hfrom ms h 0

theorem Matches.Ordered.nodup (h : ms.Ordered left right) : ∀ ids ∈ ms, ids.Nodup :=
  fun ids hids => (h.ascending ids hids).imp Nat.ne_of_lt

theorem Matches.Ordered.mirrored_eq (h : ms.Ordered left right) :
    ms.mirrored right =
      (List.range right.rows.length).map fun r => ms.findIdxs fun ids => ids.contains r := by
  unfold Matches.mirrored
  exact List.map_congr_left fun r _ => leftsOf_eq_findIdxs h.nodup r

theorem Matches.Ordered.mirrored (h : ms.Ordered left right) :
    (ms.mirrored right).Ordered right left where
  length_eq := h.between.mirrored.length_eq
  ascending := by
    rw [h.mirrored_eq]
    intro ids hids
    obtain ⟨r, _, rfl⟩ := List.mem_map.mp hids
    exact List.pairwise_findIdxs
  bounded := h.between.mirrored.bounded

theorem Matches.Ordered.mirrored_mirrored (h : ms.Ordered left right) :
    (ms.mirrored right).mirrored left = ms := by
  rw [h.mirrored.mirrored_eq, h.mirrored_eq]
  apply List.ext_getElem
  · simp [h.length_eq]
  · intro l _ hl
    have hids : ms[l] ∈ ms := List.getElem_mem hl
    rw [List.getElem_map, List.getElem_range, List.findIdxs_map]
    refine List.pairwise_findIdxs.eq_of_mem_iff (h.ascending _ hids) fun r => ?_
    rw [List.mem_findIdxs_iff_exists_getElem_pos]
    simp only [Function.comp_apply, List.getElem_range, contains_findIdxs hl, List.contains_iff_mem,
      List.length_range, exists_prop, and_iff_right_iff_imp]
    exact h.bounded _ hids r

theorem mirrored_noMatches (left right : Table) :
    Matches.mirrored right (left.rows.map fun _ => []) = right.rows.map fun _ => [] := by
  have hlefts (r : Nat) : leftsOf (left.rows.map fun _ => []) r = [] := by
    refine List.eq_nil_iff_forall_not_mem.mpr fun l hl => ?_
    obtain ⟨ids, hids, hr⟩ := mem_leftsOf.mp hl
    obtain ⟨row, _, rfl⟩ := List.mem_map.mp (List.mem_of_getElem? hids)
    cases hr
  unfold Matches.mirrored
  rw [funext hlefts, List.map_const', List.map_const', List.length_range]

/-- Matches of equal texts, seen from the other side, are those of the values with the keys. -/
theorem mirrored_findIdxs {keys values : List Cell} (hvalues : values.length = right.rows.length) :
    Matches.mirrored right (keys.map fun key => values.findIdxs key.sameText) =
      values.map fun value => keys.findIdxs value.sameText := by
  have hnodup : ∀ ids ∈ keys.map (fun key => values.findIdxs key.sameText), ids.Nodup := by
    intro ids hids
    obtain ⟨key, _, rfl⟩ := List.mem_map.mp hids
    exact List.nodup_findIdxs
  unfold Matches.mirrored
  apply List.ext_getElem
  · simp [hvalues]
  · intro r _ hr
    rw [List.length_map] at hr
    rw [List.getElem_map, List.getElem_map, List.getElem_range, leftsOf_eq_findIdxs hnodup,
      List.findIdxs_map]
    congr 1
    funext key
    rw [Function.comp_apply, contains_findIdxs hr, Cell.sameText_comm]

theorem mirrored_combineMatches {a b : Matches} (ha : a.Ordered left right) (hb : b.Ordered left right)
    (op : Connective) : (combineMatches op a b).mirrored right =
      combineMatches op (a.mirrored right) (b.mirrored right) := by
  have hlength : a.length = b.length := ha.length_eq.trans hb.length_eq.symm
  have hcontains (xs ys : List Nat) (r : Nat) :
      (connectRows op xs ys).contains r = op.both (xs.contains r) (ys.contains r) := by
    simpa only [List.contains_eq_mem] using decide_mem_connectRows op xs ys r
  rw [(ha.combine hb op).mirrored_eq, ha.mirrored_eq, hb.mirrored_eq]
  unfold combineMatches
  rw [List.zipWith_map, List.zipWith_self]
  refine List.map_congr_left fun r _ => ?_
  -- both sides look at the two lists of each left row together
  have hfirst : a.findIdxs (fun ids => ids.contains r) =
      (a.zip b).findIdxs fun p => p.1.contains r := by
    conv_lhs => rw [← List.map_fst_zip (Nat.le_of_eq hlength), List.findIdxs_map]
    rfl
  have hsecond : b.findIdxs (fun ids => ids.contains r) =
      (a.zip b).findIdxs fun p => p.2.contains r := by
    conv_lhs => rw [← List.map_snd_zip (Nat.le_of_eq hlength.symm), List.findIdxs_map]
    rfl
  rw [hfirst, hsecond, connectRows_findIdxs, ← List.map_uncurry_zip_eq_zipWith, List.findIdxs_map]
  congr 1
  funext p
  exact hcontains p.1 p.2 r

end Matching

/-- An operand of one side that stands for one thing wherever it is read. -/
def Expr.mirrorable (left right : Table) (e : Expr) : Bool :=
  e.ofOneSide left right && (left.readsPlainly e && right.readsPlainly e)

section Conditions

variable {σ : Type} {world : World} {runner : Runner σ} {left right : Table}

theorem Expr.mirrorable_iff {e : Expr} : e.mirrorable left right = true ↔
    e.statements = [] ∧ (left.knows e != right.knows e) = true ∧ left.readsPlainly e = true ∧
      right.readsPlainly e = true := by
  simp only [Expr.mirrorable, Expr.ofOneSide, Bool.and_eq_true, List.isEmpty_iff, and_assoc]

theorem Expr.mirrorable_comm (left right : Table) :
    Expr.mirrorable left right = Expr.mirrorable right left := by
  funext e
  unfold Expr.mirrorable Expr.ofOneSide
  rw [Bool.and_comm (left.readsPlainly e), bne_comm]

theorem equalityMatches_mirrored (hleft : left.Built) (hright : right.Built) {a b : Expr}
    (ha : a.mirrorable left right = true) (hb : b.mirrorable left right = true) {ms : Matches} {st st' : σ}
    (h : (equalityMatches world runner left right a b).Gives st ms st') :
    ms.Ordered left right ∧
      (equalityMatches world runner right left a b).Gives st (ms.mirrored right) st' := by
  obtain ⟨⟨outer, inner⟩, mid, hstep, hrest⟩ := Run.gives_bind.mp h
  obtain ⟨hsides, rfl⟩ := Run.gives_of.mp hstep
  obtain ⟨houter, hinner⟩ : outer.mirrorable left right = true ∧ inner.mirrorable left right = true := by
    rcases sides_cases hsides with ⟨rfl, rfl, _⟩ | ⟨rfl, rfl, _⟩
    · exact ⟨ha, hb⟩
    · exact ⟨hb, ha⟩
  obtain ⟨hnoneOuter, _, hplainOuter, _⟩ := Expr.mirrorable_iff.mp houter
  obtain ⟨hnoneInner, _, _, hplainInner⟩ := Expr.mirrorable_iff.mp hinner
  obtain ⟨keys, _, hkeyStep, hmatchStep⟩ := Run.gives_bind.mp hrest
  obtain ⟨rfl, hkeys⟩ := column_again hnoneOuter hkeyStep
  rw [keyMatches_eq hright hplainInner] at hmatchStep
  obtain ⟨values, _, hvalueStep, hend⟩ := Run.gives_bind.mp hmatchStep
  obtain ⟨rfl, hvalues⟩ := column_again hnoneInner hvalueStep
  obtain ⟨rfl, rfl⟩ := Run.gives_pure.mp hend
  have hlength : values.length = right.rows.length := column_length hvalues
  refine ⟨matchesOf_ordered (column_length hkeys) hlength, ?_⟩
  -- the operands change places, and so do the two columns of values
  refine Run.gives_bind.mpr ⟨(inner, outer), _, Run.gives_of.mpr ⟨?_, rfl⟩, ?_⟩
  · exact sides_mirrored (Expr.mirrorable_iff.mp ha).2.1 hsides
  refine Run.gives_bind.mpr ⟨values, _, hvalues, ?_⟩
  rw [keyMatches_eq hleft hplainOuter, mirrored_findIdxs hlength]
  exact Run.gives_bind.mpr ⟨keys, _, hkeys, Run.gives_pure.mpr ⟨rfl, rfl⟩⟩

mutual

/-- The tables change places, and so do the sides of all matches. -/
theorem conditionMatches_mirrored (hleft : left.Built) (hright : right.Built) : ∀ {c : Condition},
    c.equates (Expr.mirrorable left right) = true → ∀ {ms : Matches} {st st' : σ},
    (conditionMatches world runner left right c).Gives st ms st' → ms.Ordered left right ∧
      (conditionMatches world runner right left c).Gives st (ms.mirrored right) st'
  | .compare .eq a b, hc, ms, st, st', h => by
    simp only [Condition.equates, Bool.and_eq_true] at hc
    simp only [conditionMatches] at h ⊢
    exact equalityMatches_mirrored hleft hright hc.1 hc.2 h
  | .logic op terms, hc, ms, st, st', h => by
    simp only [Condition.equates] at hc
    simp only [conditionMatches] at h ⊢
    obtain ⟨found, mid, hfound, h⟩ := Run.gives_bind.mp h
    obtain ⟨hordered, hmirrored⟩ := termMatches_mirrored hleft hright hc hfound
    cases found with
    | some matched =>
      obtain ⟨rfl, rfl⟩ := Run.gives_pure.mp h
      exact ⟨hordered _ rfl, Run.gives_bind.mpr ⟨_, _, hmirrored, Run.gives_pure.mpr ⟨rfl, rfl⟩⟩⟩
    | none =>
      obtain ⟨rfl, rfl⟩ := Run.gives_pure.mp h
      rw [mirrored_noMatches]
      exact ⟨noMatches_ordered, Run.gives_bind.mpr ⟨_, _, hmirrored, Run.gives_pure.mpr ⟨rfl, rfl⟩⟩⟩
  | .compare .notEq _ _, hc, _, _, _, _ | .compare .lt _ _, hc, _, _, _, _
  | .compare .ltEq _ _, hc, _, _, _, _ | .compare .gt _ _, hc, _, _, _, _
  | .compare .gtEq _ _, hc, _, _, _, _ | .compare .like _ _, hc, _, _, _, _
  | .compare .notLike _ _, hc, _, _, _, _ | .compare .isIn _ _, hc, _, _, _, _
  | .compare .notIn _ _, hc, _, _, _, _ | .compare .is _ _, hc, _, _, _, _
  | .compare .isNot _ _, hc, _, _, _, _ | .not _, hc, _, _, _, _ | .exists .., hc, _, _, _, _ => by
    simp [Condition.equates] at hc

theorem termMatches_mirrored (hleft : left.Built) (hright : right.Built) {op : Connective} :
    ∀ {cs : List Condition}, termsEquate (Expr.mirrorable left right) cs = true →
    ∀ {found : Option Matches} {st st' : σ},
    (termMatches world runner left right op cs).Gives st found st' →
      (∀ ms, found = some ms → ms.Ordered left right) ∧
      (termMatches world runner right left op cs).Gives st (found.map (Matches.mirrored right)) st'
  | [], _, found, st, st', h => by
    simp only [termMatches] at h ⊢
    obtain ⟨rfl, rfl⟩ := Run.gives_pure.mp h
    exact ⟨fun _ hms => (by cases hms), Run.gives_pure.mpr ⟨rfl, rfl⟩⟩
  | c :: cs, hc, found, st, st', h => by
    simp only [termsEquate, Bool.and_eq_true] at hc
    simp only [termMatches] at h ⊢
    obtain ⟨first, mid, hfirst, h⟩ := Run.gives_bind.mp h
    obtain ⟨others, mid', hothers, h⟩ := Run.gives_bind.mp h
    obtain ⟨horderedFirst, hfirst⟩ := conditionMatches_mirrored hleft hright hc.1 hfirst
    obtain ⟨horderedOthers, hothers⟩ := termMatches_mirrored hleft hright hc.2 hothers
    cases others with
    | some others =>
      obtain ⟨rfl, rfl⟩ := Run.gives_pure.mp h
      have hboth := horderedFirst.combine (horderedOthers _ rfl) op
      refine ⟨fun ms hms => by cases hms; exact hboth, ?_⟩
      refine Run.gives_bind.mpr ⟨_, _, hfirst, Run.gives_bind.mpr ⟨_, _, hothers, ?_⟩⟩
      refine Run.gives_pure.mpr ⟨?_, rfl⟩
      exact congrArg some (mirrored_combineMatches horderedFirst (horderedOthers _ rfl) op)
    | none =>
      obtain ⟨rfl, rfl⟩ := Run.gives_pure.mp h
      refine ⟨fun ms hms => by cases hms; exact horderedFirst, ?_⟩
      exact Run.gives_bind.mpr ⟨_, _, hfirst, Run.gives_bind.mpr ⟨_, _, hothers,
        Run.gives_pure.mpr ⟨rfl, rfl⟩⟩⟩

end

end Conditions

section JoinedRows

variable {left right : Table} {ms : Matches}

theorem swapBlocks_swapBlocks {α : Type} {m n : Nat} {items : List α} (h : items.length = m + n) :
    swapBlocks n (swapBlocks m items) = items := by
  have hdrop : (items.drop m).length = n := by
    rw [List.length_drop]
    omega
  calc swapBlocks n (swapBlocks m items)
      _ = items.take m ++ items.drop m := swapBlocks_append hdrop (items.take m)
      _ = items := List.take_append_drop m items

theorem rowsByLeft_eq_mirrored (hleft : left.Built) (hright : right.Built) (h : ms.Ordered left right) :
    rowsByLeft left right true ms =
      (rowsByRight right left (ms.mirrored right)).map (swapBlocks right.width) := by
  rw [rowsByRight_eq_mirrored hleft, h.mirrored_mirrored, List.map_map]
  conv_lhs => rw [← List.map_id (rowsByLeft left right true ms)]
  refine List.map_congr_left fun row hrow => ?_
  have hrow := joinedRow_of_mem_rowsByLeft h.between hrow
  exact (swapBlocks_swapBlocks (hrow.length_eq hleft hright)).symm

theorem unmatchedRight_mirrored (h : ms.Ordered left right) :
    (unmatchedRight right left (ms.mirrored right)).map (swapBlocks right.width) =
      (ms.loneLeft left).map fun l => l ++ nulls right := by
  rw [unmatchedRight_eq, ← loneLeft_mirrored, h.mirrored_mirrored, List.map_map]
  exact List.map_congr_left fun row _ => swapBlocks_append (nulls_length right) row

/-- A full join is put together from the inner one and the two kinds of lone rows, in either order. -/
theorem joinedRows_full_mirrored (hright : right.Built) (h : ms.Ordered left right) :
    (joinedRows left right .full ms).Perm
      ((joinedRows right left .full (ms.mirrored right)).map (swapBlocks right.width)) := by
  simp only [joinedRows, List.map_append]
  rw [← rowsByRight_eq_mirrored hright, unmatchedRight_mirrored h, unmatchedRight_eq]
  refine ((rowsByLeft_perm left right ms).append_right _).trans ?_
  refine .trans ?_ ((rowsByRight_perm hright h.between).append_right _).symm
  rw [List.append_assoc, List.append_assoc]
  exact List.perm_append_comm.append_left _

theorem joinedRows_mirrored_perm (hleft : left.Built) (hright : right.Built) (h : ms.Ordered left right)
    (kind : JoinKind) : (joinedRows left right kind ms).Perm
      ((joinedRows right left kind.mirrored (ms.mirrored right)).map (swapBlocks right.width)) := by
  cases kind with
  | inner => exact (rowsByLeft_mirrored_perm hright h.between).symm
  | left => exact .of_eq (rowsByLeft_eq_mirrored hleft hright h)
  | right => exact .of_eq (rowsByRight_eq_mirrored hright)
  | full => exact joinedRows_full_mirrored hright h

end JoinedRows

/-- Joins can be mirrored where their conditions equate operands of one table each. One of the two joins
succeeds if the other does, and then they have the same rows, except that the columns of the two tables have
changed places; the rows of a left join and of the right join from the other side stand in the same order. -/
theorem joinTables_mirrored {σ : Type} {world : World} {runner : Runner σ} {left right : Table}
    {on : Condition} (hleft : left.Built) (hright : right.Built)
    (hon : on.equates (Expr.mirrorable left right) = true) (kind : JoinKind) (st st' : σ) :
    ((∃ t, (joinTables world runner left right kind on).Gives st t st') ↔
      ∃ t, (joinTables world runner right left kind.mirrored on).Gives st t st') ∧
    ∀ t t', (joinTables world runner left right kind on).Gives st t st' →
      (joinTables world runner right left kind.mirrored on).Gives st t' st' →
      t.titles = swapBlocks right.width t'.titles ∧
      t.rows.Perm (t'.rows.map (swapBlocks right.width)) ∧
      (kind = .left ∨ kind = .right → t.rows = t'.rows.map (swapBlocks right.width)) := by
  refine ⟨⟨?_, ?_⟩, ?_⟩
  · rintro ⟨t, h⟩
    obtain ⟨ms, hms, rfl⟩ := joinTables_gives h
    obtain ⟨_, hmirrored⟩ := conditionMatches_mirrored hleft hright hon hms
    exact ⟨_, joinTables_of_matches _ hmirrored⟩
  · rintro ⟨t, h⟩
    obtain ⟨ms, hms, rfl⟩ := joinTables_gives h
    rw [Expr.mirrorable_comm] at hon
    obtain ⟨_, hmirrored⟩ := conditionMatches_mirrored hright hleft hon hms
    exact ⟨_, joinTables_of_matches _ hmirrored⟩
  · -- both runs are determined, so the one from the other side has the mirrored matches
    intro t t' h h'
    obtain ⟨ms, hms, rfl⟩ := joinTables_gives h
    obtain ⟨hordered, hmirrored⟩ := conditionMatches_mirrored hleft hright hon hms
    obtain ⟨rfl, _⟩ := h'.unique (joinTables_of_matches _ hmirrored)
    rw [joinedTable_rows_of_between hleft hright hordered.between,
      joinedTable_rows_of_between hright hleft hordered.mirrored.between]
    refine ⟨(swapBlocks_append rfl _).symm, joinedRows_mirrored_perm hleft hright hordered kind, ?_⟩
    rintro (rfl | rfl)
    · exact rowsByLeft_eq_mirrored hleft hright hordered
    · exact rowsByRight_eq_mirrored hright

/-- `A = (B) AND 'k' || B = 'k' || A`: a column in brackets, and operands that are worked out. -/
def sameAndPrefixed : Condition :=
  .logic .and [.compare .eq (.column none "A") (.paren (.column none "B")),
    .compare .eq (.binary .concat (.literal (.text "k")) (.column none "B"))
      (.binary .concat (.literal (.text "k")) (.column none "A"))]

theorem joinTables_mirrored_sameAndPrefixed :
    let left := Table.derived "T" ["A", "N"]
      [[.text "x", .number 1], [.text "y", .number 2], [.text "x", .number 3]]
    let right := Table.derived "U" ["B"] [[.text "x"], [.text "z"], [.text "x"]]
    let runner := runnerAt remembered emptyWorld 0
    left.Built ∧ right.Built ∧ sameAndPrefixed.equates (Expr.mirrorable left right) = true ∧
    ∃ t t', (joinTables emptyWorld runner left right .left sameAndPrefixed).Gives [] t [] ∧
      (joinTables emptyWorld runner right left .right sameAndPrefixed).Gives [] t' [] ∧
      t.rows = t'.rows.map (swapBlocks 1) ∧
      t.rows = [[.text "x", .number 1, .text "x"], [.text "x", .number 1, .text "x"],
        [.text "y", .number 2, .null], [.text "x", .number 3, .text "x"],
        [.text "x", .number 3, .text "x"]] := by
  intro left right runner
  have hleft : left.Built := .withSchema _ _ _ _
  have hright : right.Built := .withSchema _ _ _ _
  have hon : sameAndPrefixed.equates (Expr.mirrorable left right) = true := by decide +kernel
  have hms : (conditionMatches emptyWorld runner left right sameAndPrefixed).Gives []
      [[0, 2], [], [0, 2]] [] := by decide +kernel
  have ht := joinTables_of_matches .left hms
  obtain ⟨hsuccess, hrows⟩ := joinTables_mirrored hleft hright hon .left [] []
  obtain ⟨t', ht'⟩ := hsuccess.mp ⟨_, ht⟩
  obtain ⟨_, _, hsame⟩ := hrows _ t' ht ht'
  exact ⟨hleft, hright, hon, _, t', ht, ht', hsame (Or.inl rfl), by decide +kernel⟩

/-- A column in brackets, where another column is titled like it: looked up it is the one, worked out the
other, so the left join of the two tables has no match and the right join from the other side has one. -/
theorem joinTables_ne_mirrored_bracketed :
    let left := Table.derived "L" ["X", "(X)"] [[.text "x", .text "y"]]
    let right := Table.derived "R" ["Y"] [[.text "x"]]
    let runner := runnerAt remembered emptyWorld 0
    let on : Condition := .compare .eq (.paren (.column none "X")) (.column none "Y")
    on.equates (Expr.ofOneSide left right) = true ∧
    ((joinTables emptyWorld runner left right .left on).run []).1.map Table.rows =
      .ok [[.text "x", .text "y", .null]] ∧
    ((joinTables emptyWorld runner right left .right on).run []).1.map Table.rows =
      .ok [[.text "x", .text "x", .text "y"]] ∧
    ([[.text "x", .text "y", .null]] : List Row) ≠
      [[.text "x", .text "x", .text "y"]].map (swapBlocks right.width) := by
  intro left right runner on
  exact ⟨by decide +kernel, by decide +kernel, by decide +kernel, by decide +kernel⟩

end GridQuery
