import GridQuery.Proofs.Pivoting
import GridQuery.Proofs.Replay

/-!
Rows that come in order. Where the rows of a statement stand in the order of its keys already, and its groups
in the order it asks for, running it sorts nothing: then the run that leaves sorting out gives the result.
-/

namespace GridQuery
set_option autoImplicit false

/-- Grouping without sorting, for rows that stand in the order of the keys. -/
def groupedInOrder (fields : Fields) (keys : List Nat) (distinct : Bool) (rows : List Row) :
    Option (List Row) :=
  if keys.isEmpty && fields.hasAggregates then some [compress fields rows]
  else if keys.isEmpty && !distinct then some rows
  else
    let slots := if keys.isEmpty then plainSlots fields else keys
    if rows.Pairwise fun a b => (compareKeys a b slots != .gt) = true then
      let groups := (runs slots rows).map (compress fields)
      some (if distinct then dropRepeats fields groups else groups)
    else none

/-- Running without sorting; none where something does not stand in order. -/
def runInOrder {σ : Type} (world : World) (runner : Runner σ) (s : Statement) :
    Run σ (Option ResultSet) := do
  let (plan, fields, cells) ← madeRows world runner s
  match groupedInOrder fields plan.groupKeys s.distinct cells with
  | none => pure none
  | some rows => do
    let groups ← keepGroups world runner fields rows s.having
    pure (if groups.Pairwise fun a b => (compareRows a b plan.orderKeys != .gt) = true then
      some ⟨fields.titles, cut fields s.limit groups⟩ else none)

theorem grouped_of_inOrder {fields : Fields} {keys : List Nat} {distinct : Bool}
    {rows groups : List Row} (h : groupedInOrder fields keys distinct rows = some groups) :
    grouped fields keys distinct rows = groups := by
  unfold groupedInOrder at h
  unfold grouped
  split at h
  · rename_i hall
    rw [if_pos hall]
    exact Option.some.inj h
  · rename_i hall
    rw [if_neg hall]
    split at h
    · rename_i hnone
      rw [if_pos hnone]
      exact Option.some.inj h
    · rename_i hnone
      rw [if_neg hnone]
      generalize (if keys.isEmpty then plainSlots fields else keys) = slots at h ⊢
      by_cases hsorted : rows.Pairwise fun a b => (compareKeys a b slots != .gt) = true
      · rw [if_pos hsorted] at h
        have hsort : sortByKeys slots rows = rows := List.mergeSort_of_pairwise hsorted
        rw [groupBy, hsort]
        exact Option.some.inj h
      · rw [if_neg hsorted] at h
        cases h

section Runs

variable {σ : Type} {world : World} {runner : Runner σ} {s : Statement} {r : ResultSet} {st st' : σ}

theorem runPlain_of_inOrder (h : (runInOrder world runner s).Gives st (some r) st') :
    (runPlain world runner s).Gives st r st' := by
  obtain ⟨⟨plan, fields, cells⟩, mid, hmade, h⟩ := Run.gives_bind.mp h
  rw [runPlain_eq]
  refine Run.gives_bind.mpr ⟨⟨plan, fields, cells⟩, mid, hmade, ?_⟩
  simp only at h ⊢
  split at h
  · cases (Run.gives_pure.mp h).1
  · rename_i rows hrows
    obtain ⟨groups, last, hgroups, h⟩ := Run.gives_bind.mp h
    rw [grouped_of_inOrder hrows]
    refine Run.gives_bind.mpr ⟨groups, last, hgroups, ?_⟩
    obtain ⟨hresult, rfl⟩ := Run.gives_pure.mp h
    split at hresult
    · rename_i hsorted
      have hsort : sortRows plan.orderKeys groups = groups := by
        unfold sortRows
        split
        · rfl
        · exact List.mergeSort_of_pairwise hsorted
      rw [hsort]
      exact Run.gives_pure.mpr ⟨Option.some.inj hresult, rfl⟩
    · cases hresult

end Runs

section Queries

variable {world : World} {s : Statement} {depth : Nat} {r : ResultSet} {memo kept : ResultMemo}

/-- Without a pivot a statement runs as it is, and set operations follow. -/
theorem run_without_pivot {σ : Type} {keep : Keeping σ} {st st' : σ} (hpivot : s.pivot = none) :
    (run keep world (depth + 1) s).Gives st r st' ↔
      ∃ left mid, (runPlain world (runnerAt keep world depth) s).Gives st left mid ∧
        (combineAll (runnerAt keep world depth) left s.operations).Gives mid r st' := by
  change (runWith world (runnerAt keep world depth) s).Gives st r st' ↔ _
  simp only [runWith, runPivot, hpivot]
  exact Run.gives_bind

/-- A statement without a pivot, with the rows of its first operand in order. -/
theorem run_of_inOrder_operations {σ : Type} {keep : Keeping σ} {left : ResultSet} {st mid st' : σ}
    (hpivot : s.pivot = none) (h : (runInOrder world (runnerAt keep world depth) s).Gives st (some left) mid)
    (hcombine : (combineAll (runnerAt keep world depth) left s.operations).Gives mid r st') :
    (run keep world (depth + 1) s).Gives st r st' :=
  (run_without_pivot hpivot).mpr ⟨left, mid, runPlain_of_inOrder h, hcombine⟩

/-- A statement without a pivot and set operations, with its rows in order. -/
theorem run_of_inOrder {σ : Type} {keep : Keeping σ} {st st' : σ} (hpivot : s.pivot = none)
    (hoperations : s.operations = [])
    (h : (runInOrder world (runnerAt keep world depth) s).Gives st (some r) st') :
    (run keep world (depth + 1) s).Gives st r st' := by
  refine run_of_inOrder_operations hpivot h ?_
  rw [hoperations]
  exact Run.gives_pure.mpr ⟨rfl, rfl⟩

/-- A statement with a pivot whose values come in order, and so do the rows of the statement that it
becomes. -/
theorem runPivot_of_inOrder {pivot : Expr} {values : ResultSet} {mid : ResultMemo}
    (hpivot : s.pivot = some pivot) (hgroups : s.groupBy ≠ [])
    (hvalues : (runInOrder world (runnerAt remembered world depth) (pivotValues s pivot)).Gives memo
      (some values) mid) (hfresh : memo.lookup (pivotValues s pivot).text = none)
    (h : (runInOrder world (runnerAt remembered world depth)
      (pivoted s pivot (values.column 0))).Gives (((pivotValues s pivot).text, values) :: mid)
        (some r) kept) :
    (runPivot world (runnerAt remembered world depth) s).Gives memo r kept := by
  have hkeys : s.groupBy.isEmpty = false := List.isEmpty_eq_false_iff.mpr hgroups
  simp only [runPivot, hpivot, hkeys, Bool.false_eq_true, if_false]
  refine Run.gives_bind.mpr ⟨values, _, ?_, runPlain_of_inOrder h⟩
  exact gives_remembered.mpr (Or.inr ⟨hfresh, mid, runPlain_of_inOrder hvalues, rfl⟩)

theorem run_of_inOrder_pivot {pivot : Expr} {values : ResultSet} {mid : ResultMemo}
    (hpivot : s.pivot = some pivot) (hgroups : s.groupBy ≠ []) (hoperations : s.operations = [])
    (hvalues : (runInOrder world (runnerAt remembered world depth) (pivotValues s pivot)).Gives memo
      (some values) mid) (hfresh : memo.lookup (pivotValues s pivot).text = none)
    (h : (runInOrder world (runnerAt remembered world depth)
      (pivoted s pivot (values.column 0))).Gives (((pivotValues s pivot).text, values) :: mid)
        (some r) kept) :
    (run remembered world (depth + 1) s).Gives memo r kept := by
  change (runWith world (runnerAt remembered world depth) s).Gives memo r kept
  refine Run.gives_bind.mpr ⟨r, kept, runPivot_of_inOrder hpivot hgroups hvalues hfresh h, ?_⟩
  rw [hoperations]
  exact Run.gives_pure.mpr ⟨rfl, rfl⟩

theorem execute_of_run (hbinds : world.binds.require s.maxBind = .ok ()) (hdepth : s.depth = depth)
    (h : (run remembered world depth s).Gives [] r kept) : execute world s = .ok r := by
  refine bind_eq_ok.mpr ⟨(), hbinds, ?_⟩
  rw [hdepth]
  exact congrArg Prod.fst h

end Queries

end GridQuery
