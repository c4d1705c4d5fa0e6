import GridQuery.Proofs.Extremes
import GridQuery.Proofs.InOrder
import GridQuery.Proofs.Sums

/-!
Grouping what was grouped. The groups of some rows ascend by their keys, so each of them is a run of its own
when they are grouped again, and an aggregate folds the one cell that it came to before. A sum, an extreme and
an empty fold are left as they are; a mean is too, unless it is the negative zero. A count is not: it would
count the one cell.
-/

namespace GridQuery
set_option autoImplicit false

/-! ### Folding once more -/

namespace Aggregate

theorem fold_singleton (a : Aggregate) (c : Cell) :
    a.fold [c] = a.aggregator.fold ([c].filter Cell.takesPart) := by
  unfold fold
  cases hc : c.takesPart with
  | false =>
    rw [List.filter_cons_of_neg (by simp [hc])]
    cases a.distinct <;> rfl
  | true =>
    rw [List.filter_cons_of_pos hc]
    cases a.distinct <;> rfl

theorem fold_number (a : Aggregate) (x : Float) : a.fold [.number x] = a.aggregator.fold [.number x] :=
  a.fold_singleton _

theorem fold_null (a : Aggregate) : a.fold [.null] = a.aggregator.fold [] :=
  a.fold_singleton _

/-- The cells that an aggregate folds all take part. -/
theorem takesPart_of_mem {a : Aggregate} {cells : List Cell} {c : Cell}
    (h : c ∈ if a.distinct then keepFirst Cell.key [] (cells.filter Cell.takesPart)
      else cells.filter Cell.takesPart) : c.takesPart = true := by
  have hin : c ∈ cells.filter Cell.takesPart := by
    split at h
    · exact (keepFirst_sublist Cell.key _ []).subset h
    · exact h
  exact (List.mem_filter.mp hin).2

end Aggregate

namespace Aggregator

theorem sumOf_number (x : Float) : sumOf [.number x] = 0.0 + x := by
  simp only [sumOf, List.foldl_cons, List.foldl_nil, Cell.asNumber?, Option.getD_some]

/-- A sum behind a zero is the sum. -/
theorem sumOf_again (cells : List Cell) : sumOf [.number (sumOf cells)] = sumOf cells := by
  rw [sumOf_number]
  unfold sumOf
  exact Number.zero_add_foldl (fun c : Cell => c.asNumber?.getD 0.0) cells

/-- One number is summed behind a zero and divided by one. -/
theorem meanOf_number (x : Float) : meanOf [.number x] = .number (0.0 + x) := by
  have hone : Float.ofNat 1 = 1.0 := rfl
  simp only [meanOf, List.filterMap_cons, Cell.asNumber?, List.filterMap_nil, List.isEmpty_cons,
    Bool.false_eq_true, if_false, List.foldl_cons, List.foldl_nil, List.length_singleton, hone, Number.over_one]

theorem meanOf_cases (cells : List Cell) : meanOf cells = .null ∨ ∃ x, meanOf cells = .number x := by
  unfold meanOf
  simp only
  split
  · exact .inl rfl
  · exact .inr ⟨_, rfl⟩

end Aggregator

namespace Aggregate

/-- An extreme is one of the cells, and alone it is the extreme. -/
theorem extreme_again (better : Ordering) {cells : List Cell} (hbetter : better ≠ .eq)
    (h : ∀ c ∈ cells, c.takesPart = true) :
    Aggregator.extremeOf better ([Aggregator.extremeOf better cells].filter Cell.takesPart) =
      Aggregator.extremeOf better cells := by
  by_cases hcells : cells = []
  · subst hcells
    rfl
  · rw [List.filter_cons_of_pos (h _ (Aggregator.extremeOf_mem hbetter hcells))]
    rfl

/-- Folding what an aggregate other than a count came to gives it again, but for the mean that a zero in front
changes. -/
theorem fold_again {a : Aggregate} (ha : a.aggregator ≠ .count) (cells : List Cell) :
    a.fold [a.fold cells] = a.fold cells ↔
      (a.aggregator = .avg → ∀ x, a.fold cells = .number x → 0.0 + x = x) := by
  obtain ⟨aggregator, distinct⟩ := a
  have htakes := fun c => @takesPart_of_mem ⟨aggregator, distinct⟩ cells c
  cases aggregator with
  | count => exact absurd rfl ha
  | sum =>
    refine iff_of_true ?_ nofun
    have hsum : ∃ kept, fold ⟨.sum, distinct⟩ cells = .number (Aggregator.sumOf kept) := ⟨_, rfl⟩
    obtain ⟨kept, hkept⟩ := hsum
    rw [hkept, fold_number]
    exact congrArg Cell.number (Aggregator.sumOf_again kept)
  | min =>
    refine iff_of_true ?_ nofun
    rw [fold_singleton]
    exact extreme_again .lt (by decide) htakes
  | max =>
    refine iff_of_true ?_ nofun
    rw [fold_singleton]
    exact extreme_again .gt (by decide) htakes
  | avg =>
    have hcases : fold ⟨.avg, distinct⟩ cells = .null ∨ ∃ x, fold ⟨.avg, distinct⟩ cells = .number x :=
      Aggregator.meanOf_cases _
    rcases hcases with hnull | ⟨x, hx⟩
    · rw [hnull, fold_null]
      refine iff_of_true rfl ?_
      intro _ x hx
      cases hx
    · rw [hx, fold_number]
      have hmean : Aggregator.avg.fold [.number x] = .number (0.0 + x) := Aggregator.meanOf_number x
      rw [hmean, Cell.number.injEq]
      constructor
      · intro h _ y hy
        cases hy
        exact h
      · intro h
        exact h rfl x rfl

end Aggregate

/-! ### Compressing once more -/

section Rows

variable {fields : Fields} {run : List Row}

/-- The means of a row are left as they are by a zero in front of them. -/
def MeansSteady (fields : Fields) (row : Row) : Prop :=
  ∀ (slot : Nat) (f : Field) (a : Aggregate) (x : Float), fields[slot]? = some f → f.aggregate = some a →
    a.aggregator = .avg → row[slot]? = some (.number x) → 0.0 + x = x

/-- Compressing a row alone folds its aggregate cells again. -/
theorem compress_singleton_iff {row : Row} :
    compress fields [row] = row ↔ ∀ (slot : Nat) (f : Field) (a : Aggregate) (c : Cell),
      fields[slot]? = some f → f.aggregate = some a → row[slot]? = some c → a.fold [c] = c := by
  have hcell (slot : Nat) {c : Cell} (hc : row[slot]? = some c) : slotCells [row] slot = [c] := by
    simp only [slotCells, List.filterMap_cons, hc, List.filterMap_nil]
  constructor
  · intro h slot f a c hf ha hc
    have hslot := getElem?_compress fields row [] slot
    rw [h, hc, Option.map_some, Option.some.injEq, foldedCell, hf, Option.bind_some, ha, hcell slot hc] at hslot
    exact hslot.symm
  · intro h
    apply List.ext_getElem?
    intro slot
    rw [getElem?_compress]
    cases hc : row[slot]? with
    | none => rfl
    | some c =>
      rw [Option.map_some, Option.some.injEq, foldedCell]
      cases hf : fields[slot]? with
      | none => rfl
      | some f =>
        rw [Option.bind_some]
        cases ha : f.aggregate with
        | none => rfl
        | some a =>
          simp only [hcell slot hc]
          exact h slot f a c hf ha hc

theorem compress_again (hcounts : ∀ f ∈ fields, ∀ a, f.aggregate = some a → a.aggregator ≠ .count)
    (hrows : ∀ row ∈ run, row.length = fields.length) :
    compress fields [compress fields run] = compress fields run ↔ MeansSteady fields (compress fields run) := by
  rw [compress_singleton_iff]
  constructor
  · intro h slot f a x hf ha havg hx
    have hfold := getElem?_compress_folded hrows hf ha
    have hagain := h slot f a _ hf ha hfold
    apply (Aggregate.fold_again (hcounts f (List.mem_of_getElem? hf) a ha) _).mp hagain havg
    exact Option.some.inj (hfold.symm.trans hx)
  · intro h slot f a c hf ha hc
    have hfold := getElem?_compress_folded hrows hf ha
    obtain rfl := Option.some.inj (hfold.symm.trans hc)
    apply (Aggregate.fold_again (hcounts f (List.mem_of_getElem? hf) a ha) _).mpr
    intro havg x hx
    rw [hx] at hc
    exact h slot f a x hf ha havg hc

end Rows

/-! ### Grouping once more -/

section Groups

variable {fields : Fields} {keys : List Nat} {rows : List Row}

/-- Rows that ascend strictly are runs of their own. -/
theorem runs_of_ascending (h : rows.Pairwise fun a b => compareKeys a b keys = .lt) :
    runs keys rows = rows.map fun row => [row] := by
  induction rows with
  | nil => rw [runs, List.map_nil]
  | cons row rest ih =>
    obtain ⟨hfirst, hrest⟩ := List.pairwise_cons.mp h
    cases rest with
    | nil => simp [runs]
    | cons next rest =>
      have hnext : (decide (compareKeys row next keys = .eq)) = false := by
        simp [hfirst next List.mem_cons_self]
      rw [runs, List.takeWhile_cons, List.dropWhile_cons, hnext, List.map_cons]
      exact congrArg _ (ih hrest)

/-- The rows that runs become ascend as the runs do, since plain cells are those of a row of the run. -/
theorem groups_ascend (hkeys : ∀ k ∈ keys, ∃ f, fields[k]? = some f ∧ f.aggregate = none)
    (hrows : ∀ row ∈ rows, row.length = fields.length) :
    (groupBy fields keys rows).Pairwise fun a b => compareKeys a b keys = .lt := by
  have hperm := sortByKeys_perm keys rows
  have hwidth : ∀ row ∈ sortByKeys keys rows, row.length = fields.length :=
    fun row hrow => hrows row (hperm.mem_iff.mp hrow)
  have hkeyed {rs : List Row} (hrs : ∀ row ∈ rs, row.length = fields.length) : ∀ row ∈ rs, Keyed keys row := by
    intro row hrow k hk
    obtain ⟨f, hf, -⟩ := hkeys k hk
    rw [hrs row hrow]
    exact (List.getElem?_eq_some_iff.mp hf).1
  have hascend := runs_pairwise (hkeyed hwidth) (sortByKeys_pairwise (hkeyed hrows))
  rw [groupBy, List.pairwise_map]
  apply hascend.imp_of_mem
  intro c d hc hd hlt
  obtain ⟨x, xs, rfl, -⟩ := runs_eq_cons hc
  obtain ⟨y, ys, rfl, -⟩ := runs_eq_cons hd
  have hsame {first : Row} {rest : List Row} (hrun : first :: rest ∈ runs keys (sortByKeys keys rows)) :
      ∀ k ∈ keys, (compress fields (first :: rest))[k]? = first[k]? := by
    intro k hk
    obtain ⟨f, hf, hplain⟩ := hkeys k hk
    rw [(mem_runs_foldsTo hwidth hrun).plain hf hplain]
    rfl
  rw [compareKeys_of_sameCells (hsame hc) (hsame hd)]
  exact hlt x List.mem_cons_self y List.mem_cons_self

/-- Grouping rows that ascend strictly compresses each of them alone. -/
theorem groupBy_of_ascending (h : rows.Pairwise fun a b => compareKeys a b keys = .lt) :
    groupBy fields keys rows = rows.map fun row => compress fields [row] := by
  have hsorted : sortByKeys keys rows = rows := by
    apply List.mergeSort_of_pairwise
    apply h.imp
    intro a b hlt
    rw [hlt]
    rfl
  rw [groupBy, hsorted, runs_of_ascending h, List.map_map]
  rfl

/-- Grouping again by the same plain keys changes nothing where no aggregate is a count, just if each mean is
one that a zero in front leaves as it is. -/
theorem grouped_again_iff (hcounts : ∀ f ∈ fields, ∀ a, f.aggregate = some a → a.aggregator ≠ .count)
    (hkeys : ∀ k ∈ keys, ∃ f, fields[k]? = some f ∧ f.aggregate = none)
    (hrows : ∀ row ∈ rows, row.length = fields.length) :
    grouped fields keys false (grouped fields keys false rows) = grouped fields keys false rows ↔
      ∀ row ∈ grouped fields keys false rows, MeansSteady fields row := by
  cases hkeysEmpty : keys.isEmpty with
  | true =>
    cases haggregates : fields.hasAggregates with
    | true =>
      have hone (rs : List Row) : grouped fields keys false rs = [compress fields rs] := by
        simp [grouped, hkeysEmpty, haggregates]
      rw [hone, hone, List.cons.injEq]
      simp only [and_true, List.mem_singleton, forall_eq]
      exact compress_again hcounts hrows
    | false =>
      have hsame (rs : List Row) : grouped fields keys false rs = rs := by
        simp [grouped, hkeysEmpty, haggregates]
      rw [hsame, hsame]
      refine iff_of_true rfl ?_
      intro row _ slot f a x hf ha
      have hall := List.any_eq_false.mp haggregates f (List.mem_of_getElem? hf)
      simp [Field.isAggregate, ha] at hall
  | false =>
    have hgroups (rs : List Row) : grouped fields keys false rs = groupBy fields keys rs := by
      simp [grouped, hkeysEmpty]
    have hself (rs : List Row) : rs.map (fun row => compress fields [row]) = rs ↔
        ∀ row ∈ rs, compress fields [row] = row := by
      rw [← List.map_inj_left, List.map_id']
    rw [hgroups, hgroups, groupBy_of_ascending (groups_ascend hkeys hrows), hself]
    apply forall₂_congr
    intro row hrow
    obtain ⟨run, hrun, rfl⟩ := List.mem_map.mp hrow
    apply compress_again hcounts
    intro r hr
    exact hrows r ((sortByKeys_perm keys rows).mem_iff.mp (mem_of_mem_runs hrun hr))

/-- Only the negative zero is a mean that a zero in front changes. -/
theorem meansSteady_of_ne {row : Row} (h : ∀ c ∈ row, c ≠ .number (-0.0)) : MeansSteady fields row := by
  intro slot f a x _ _ _ hx
  apply Number.behind_zero_iff.mpr
  rintro rfl
  exact h _ (List.mem_of_getElem? hx) rfl

end Groups

def tallied : Fields :=
  [.ofKind (.column 0 0) "A",
    { Field.ofKind (.column 0 1) "SUM(N)" with aggregate := some ⟨.sum, false⟩ },
    { Field.ofKind (.column 0 1) "AVG(DISTINCT N)" with aggregate := some ⟨.avg, true⟩ },
    { Field.ofKind (.column 0 1) "MAX(N)" with aggregate := some ⟨.max, false⟩ }]

def talliedRows : List Row :=
  [[.text "a", .number 2, .number 2, .number 2], [.text "a", .number 2, .number 2, .number 2],
    [.text "a", .text "null", .text "null", .text "null"], [.text "b", .text "x", .text "x", .text "x"]]

theorem grouped_again_iff_tallied :
    let groups : List Row :=
      [[.text "a", .number 4, .number 2, .number 2], [.text "b", .number 0, .null, .text "x"]]
    grouped tallied [0] false talliedRows = groups ∧ grouped tallied [0] false groups = groups := by
  intro groups
  have hgroups : grouped tallied [0] false talliedRows = groups := grouped_of_inOrder (by decide +kernel)
  have hcounts : ∀ f ∈ tallied, ∀ a, f.aggregate = some a → a.aggregator ≠ .count := by
    intro f hf a ha
    simp only [tallied, List.mem_cons, List.not_mem_nil, or_false] at hf
    rcases hf with rfl | rfl | rfl | rfl
    · cases ha
    all_goals
      cases ha
      decide
  have hkeys : ∀ k ∈ [0], ∃ f, tallied[k]? = some f ∧ f.aggregate = none := by
    intro k hk
    rw [List.mem_singleton.mp hk]
    exact ⟨_, rfl, rfl⟩
  have hsteady : ∀ row ∈ groups, ∀ c ∈ row, c ≠ .number (-0.0) := by decide +kernel
  have hagain := @grouped_again_iff tallied [0] talliedRows hcounts hkeys (by decide)
  rw [hgroups] at hagain
  exact ⟨hgroups, hagain.mpr fun row hrow => meansSteady_of_ne (hsteady row hrow)⟩

/-- The mean of the least negative number and zero is the negative zero, whose mean is zero. -/
example :
    let mean : Fields := [{ Field.ofKind (.column 0 0) "AVG(N)" with aggregate := some ⟨.avg, false⟩ }]
    grouped mean [] false [[.number (-5e-324)], [.number 0]] = [[.number (-0.0)]] ∧
      grouped mean [] false [[.number (-0.0)]] = [[.number 0.0]] := by
  decide +kernel

end GridQuery
