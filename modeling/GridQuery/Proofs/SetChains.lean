import GridQuery.Proofs.DistinctCells

/-!
Set operations on rows that count as one by their signatures, and chains of them. What is kept of several
rows with one signature is the first of them. A statement runs its first operand, then the others one after
another, each combined with the result so far and not with the operand in front of it.
-/

namespace GridQuery
set_option autoImplicit false

/-- The rows that are not like any earlier row. -/
def firsts (rows : List Row) : List Row :=
  (rows.zipIdx.filter fun r => !(rows.take r.2).any (alike r.1)).map Prod.fst

/-- What a set operation leaves of the rows of its operands, told by which rows are alike. -/
def operated (op : SetOperator) (left right : List Row) : List Row :=
  match op with
  | .unionAll => left ++ right
  | .union => firsts (left ++ right)
  | .intersect => (firsts left).filter fun row => right.any (alike row)
  | .except => left.filter fun row => !right.any (alike row)

section Firsts

/-- The rows that are not like any earlier row, where others stand in front of all of them. -/
def firstsBehind (before rows : List Row) : List Row :=
  (rows.zipIdx.filter fun r => !(before ++ rows.take r.2).any (alike r.1)).map Prod.fst

theorem firstsBehind_cons (before : List Row) (row : Row) (rows : List Row) :
    firstsBehind before (row :: rows) =
      if before.any (alike row) then firstsBehind (before ++ [row]) rows
      else row :: firstsBehind (before ++ [row]) rows := by
  have hrest : (((rows.zipIdx 1).filter fun r =>
      !(before ++ (row :: rows).take r.2).any (alike r.1)).map Prod.fst) =
        firstsBehind (before ++ [row]) rows := by
    have hshift : rows.zipIdx 1 = rows.zipIdx.map fun r => (r.1, r.2 + 1) := by
      rw [List.zipIdx_succ]
    rw [hshift, List.filter_map, List.map_map]
    unfold firstsBehind
    simp only [Function.comp_def, List.take_succ_cons, List.append_assoc, List.singleton_append]
  unfold firstsBehind at hrest ⊢
  rw [List.zipIdx_cons, List.filter_cons]
  simp only [List.take_zero, List.append_nil, Nat.zero_add]
  cases before.any (alike row) with
  | true => simpa using hrest
  | false => simpa using hrest

/-- A row stays if no earlier row has its signature. -/
theorem keepFirst_eq_firstsBehind {seen : List String} {before : List Row} (rows : List Row)
    (hseen : ∀ row : Row, row.signature ∈ seen ↔ before.any (alike row) = true) :
    keepFirst Row.signature seen rows = firstsBehind before rows := by
  induction rows generalizing seen before with
  | nil => rfl
  | cons row rows ih =>
    rw [keepFirst, firstsBehind_cons]
    by_cases h : row.signature ∈ seen
    · rw [if_pos h, if_pos ((hseen row).mp h)]
      apply ih
      intro other
      rw [List.any_append, Bool.or_eq_true, ← hseen other]
      constructor
      · exact Or.inl
      · intro hother
        rcases hother with hother | hother
        · exact hother
        · have hsame : other.signature = row.signature := by simpa [alike] using hother
          rw [hsame]
          exact h
    · rw [if_neg h, if_neg (fun hany => h ((hseen row).mpr hany))]
      congr 1
      apply ih
      intro other
      rw [List.any_append, Bool.or_eq_true, ← hseen other, List.mem_cons, or_comm]
      simp [alike]

theorem keepFirst_eq_firsts (rows : List Row) : keepFirst Row.signature [] rows = firsts rows := by
  change keepFirst Row.signature [] rows = firstsBehind [] rows
  apply keepFirst_eq_firstsBehind
  intro row
  simp

/-- Items that are left out with all others of their text are left out before as well as after. -/
theorem keepFirst_filter {α : Type} {text : α → String} {p : α → Bool}
    (hp : ∀ a b, text a = text b → p a = p b) {seen seen' : List String} (items : List α)
    (hseen : ∀ a, p a = true → (text a ∈ seen ↔ text a ∈ seen')) :
    keepFirst text seen (items.filter p) = (keepFirst text seen' items).filter p := by
  induction items generalizing seen seen' with
  | nil => rfl
  | cons a items ih =>
    cases hpa : p a with
    | false =>
      have hdrop : keepFirst text seen ((a :: items).filter p) = keepFirst text seen (items.filter p) := by
        rw [List.filter_cons_of_neg (by simp [hpa])]
      rw [hdrop, keepFirst]
      split
      · exact ih hseen
      · rw [List.filter_cons_of_neg (by simp [hpa])]
        apply ih
        intro b hb
        have hother : text b ≠ text a := by
          intro hsame
          rw [hp b a hsame, hpa] at hb
          cases hb
        rw [List.mem_cons, hseen b hb]
        simp [hother]
    | true =>
      rw [List.filter_cons_of_pos hpa, keepFirst, keepFirst]
      by_cases hin : text a ∈ seen
      · rw [if_pos hin, if_pos ((hseen a hpa).mp hin)]
        exact ih hseen
      · rw [if_neg hin, if_neg (fun hin' => hin ((hseen a hpa).mpr hin')), List.filter_cons_of_pos hpa]
        congr 1
        apply ih
        intro b hb
        rw [List.mem_cons, List.mem_cons, hseen b hb]

end Firsts

section Operations

theorem combineRows_eq_operated (op : SetOperator) (left right : List Row) :
    combineRows op left right = operated op left right := by
  cases op with
  | unionAll => rfl
  | union => exact keepFirst_eq_firsts (left ++ right)
  | intersect =>
    simp only [combineRows, operated, contains_map_signature]
    rw [← keepFirst_eq_firsts]
    apply keepFirst_filter
    · intro a b hsame
      have hrows : alike a = alike b := by
        funext row
        rw [alike, alike, hsame]
      rw [hrows]
    · intro _ _
      rfl
  | except => simp only [combineRows, operated, contains_map_signature]

/-- Each row of an intersection has its own signature, which is one of either side. -/
theorem operated_intersect_length (left right : List Row) :
    (operated .intersect left right).length ≤ min left.length right.length := by
  rw [← combineRows_eq_operated]
  apply Nat.le_min.mpr
  have hkept := keepFirst_sublist Row.signature
    (left.filter fun row => (right.map Row.signature).contains row.signature) []
  constructor
  · exact (hkept.trans List.filter_sublist).length_le
  · have hnodup : ((combineRows .intersect left right).map Row.signature).Nodup :=
      List.pairwise_map.mpr (keepFirst_pairwise Row.signature _ []).2
    have hsubset : (combineRows .intersect left right).map Row.signature ⊆ right.map Row.signature := by
      intro signature hin
      obtain ⟨row, hrow, rfl⟩ := List.mem_map.mp hin
      have hfilter := (List.mem_filter.mp (hkept.subset hrow)).2
      exact List.contains_iff_mem.mp hfilter
    have hlength := (List.subperm_of_subset hnodup hsubset).length_le
    simpa only [List.length_map] using hlength

theorem combine_of_widths {left right : ResultSet} (op : SetOperator)
    (h : left.titles.length = right.titles.length) :
    left.combine op right = .ok ⟨left.titles, operated op left.rows right.rows⟩ := by
  rw [ResultSet.combine, if_pos h, combineRows_eq_operated]

theorem combine_eq_ok {left right r : ResultSet} {op : SetOperator} :
    left.combine op right = .ok r ↔ right.titles.length = left.titles.length ∧
      r = ⟨left.titles, operated op left.rows right.rows⟩ := by
  by_cases h : left.titles.length = right.titles.length
  · rw [combine_of_widths op h, Except.ok.injEq]
    constructor
    · intro hr
      exact ⟨h.symm, hr.symm⟩
    · intro hr
      exact hr.2.symm
  · rw [ResultSet.combine, if_neg h]
    constructor
    · intro hr
      cases hr
    · intro hr
      exact absurd hr.1.symm h

end Operations

section Chains

variable {σ : Type}

/-- A sequence whose first step gives a value goes on from there. -/
theorem Run.run_bind_of_gives {α β : Type} {m : Run σ α} {a : α} {st mid : σ} (h : m.Gives st a mid)
    (f : α → Run σ β) : (m >>= f).run st = (f a).run mid := by
  unfold Run.Gives at h
  rw [Run.run_bind, h]

/-- Runs one more operand and combines the result so far with its result. -/
def combineNext (runner : Runner σ) (sofar : ResultSet) (o : SetOperation) : Run σ ResultSet := do
  let right ← runner.run o.statement
  Run.of (sofar.combine o.operator right)

theorem combineAll_eq_foldlM (runner : Runner σ) (left : ResultSet) (operations : List SetOperation) :
    combineAll runner left operations = operations.foldlM (combineNext runner) left := by
  induction operations generalizing left with
  | nil => rfl
  | cons o operations ih =>
    rw [combineAll, List.foldlM_cons, combineNext, bind_assoc]
    simp only [ih]

/-- The results of operands, one after another. -/
def operandResults (runner : Runner σ) (operations : List SetOperation) : Run σ (List ResultSet) :=
  operations.mapM fun o => runner.run o.statement

/-- The rows of a result after the operations with further ones, from the left. -/
def chained (rows : List Row) (operations : List SetOperation) (rights : List ResultSet) : List Row :=
  (operations.zip rights).foldl (fun rows o => operated o.1.operator rows o.2.rows) rows

theorem operandResults_cons {runner : Runner σ} {o : SetOperation} {operations : List SetOperation}
    {rights : List ResultSet} {st st' : σ} :
    (operandResults runner (o :: operations)).Gives st rights st' ↔ ∃ right mid others,
      (runner.run o.statement).Gives st right mid ∧ (operandResults runner operations).Gives mid others st' ∧
        rights = right :: others := by
  unfold operandResults
  rw [List.mapM_cons, Run.gives_bind]
  constructor
  · rintro ⟨right, mid, hright, h⟩
    obtain ⟨others, last, hothers, hpure⟩ := Run.gives_bind.mp h
    obtain ⟨rfl, rfl⟩ := Run.gives_pure.mp hpure
    exact ⟨right, mid, others, hright, hothers, rfl⟩
  · rintro ⟨right, mid, others, hright, hothers, rfl⟩
    exact ⟨right, mid, hright, Run.gives_bind.mpr ⟨others, st', hothers, Run.gives_pure.mpr ⟨rfl, rfl⟩⟩⟩

/-- A chain comes to a result if all operands do and are as wide as the first. -/
theorem combineAll_iff {runner : Runner σ} {left r : ResultSet} {operations : List SetOperation} {st st' : σ} :
    (combineAll runner left operations).Gives st r st' ↔ ∃ rights,
      (operandResults runner operations).Gives st rights st' ∧
      (∀ right ∈ rights, right.titles.length = left.titles.length) ∧
      r = ⟨left.titles, chained left.rows operations rights⟩ := by
  induction operations generalizing left r st with
  | nil =>
    unfold combineAll operandResults
    rw [List.mapM_nil, Run.gives_pure]
    constructor
    · rintro ⟨rfl, rfl⟩
      exact ⟨[], Run.gives_pure.mpr ⟨rfl, rfl⟩, by simp, rfl⟩
    · rintro ⟨rights, hrights, -, rfl⟩
      obtain ⟨rfl, rfl⟩ := Run.gives_pure.mp hrights
      exact ⟨rfl, rfl⟩
  | cons o operations ih =>
    rw [combineAll, Run.gives_bind]
    constructor
    · rintro ⟨right, mid, hright, h⟩
      obtain ⟨both, mid', hboth, h⟩ := Run.gives_bind.mp h
      obtain ⟨hcombine, rfl⟩ := Run.gives_of.mp hboth
      obtain ⟨hwidth, rfl⟩ := combine_eq_ok.mp hcombine
      obtain ⟨others, hothers, hwidths, rfl⟩ := ih.mp h
      refine ⟨right :: others, operandResults_cons.mpr ⟨right, _, others, hright, hothers, rfl⟩, ?_, rfl⟩
      intro x hx
      rcases List.mem_cons.mp hx with rfl | hx
      · exact hwidth
      · exact hwidths x hx
    · rintro ⟨rights, hrights, hwidths, rfl⟩
      obtain ⟨right, mid, others, hright, hothers, rfl⟩ := operandResults_cons.mp hrights
      have hwidth := hwidths right List.mem_cons_self
      refine ⟨right, mid, hright,
        Run.gives_bind.mpr ⟨⟨left.titles, operated o.operator left.rows right.rows⟩, mid, ?_, ?_⟩⟩
      · exact Run.gives_of.mpr ⟨combine_eq_ok.mpr ⟨hwidth, rfl⟩, rfl⟩
      · refine ih.mpr ⟨others, hothers, ?_, rfl⟩
        intro x hx
        exact hwidths x (List.mem_cons_of_mem right hx)

/-- An operand of another width than the results so far ends the chain. -/
theorem combineAll_columnCounts {runner : Runner σ} {left right : ResultSet} {ahead behind : List SetOperation}
    {o : SetOperation} {rights : List ResultSet} {st mid st' : σ}
    (hahead : (operandResults runner ahead).Gives st rights mid)
    (hwidths : ∀ x ∈ rights, x.titles.length = left.titles.length)
    (hright : (runner.run o.statement).Gives mid right st')
    (hwidth : right.titles.length ≠ left.titles.length) :
    (combineAll runner left (ahead ++ o :: behind)).run st =
      ((.error (.columnCounts o.operator left.titles.length right.titles.length), st') :
        Except QueryError ResultSet × σ) := by
  have hleft : (ahead.foldlM (combineNext runner) left).Gives st
      ⟨left.titles, chained left.rows ahead rights⟩ mid := by
    rw [← combineAll_eq_foldlM]
    exact combineAll_iff.mpr ⟨rights, hahead, hwidths, rfl⟩
  have hnext : (combineNext runner ⟨left.titles, chained left.rows ahead rights⟩ o).run mid =
      ((.error (.columnCounts o.operator left.titles.length right.titles.length), st') :
        Except QueryError ResultSet × σ) := by
    rw [combineNext, Run.run_bind_of_gives hright, ResultSet.combine, if_neg (fun h => hwidth h.symm)]
    rfl
  rw [combineAll_eq_foldlM, List.foldlM_append, Run.run_bind_of_gives hleft, List.foldlM_cons, Run.run_bind,
    hnext]

variable (keep : Keeping σ) (world : World) (depth : Nat) (s : Statement)

/-- A statement folds the results of its operands from the left. -/
theorem run_eq_foldlM : run keep world (depth + 1) s = (do
    let first ← runPivot world (runnerAt keep world depth) s
    s.operations.foldlM (combineNext (runnerAt keep world depth)) first) := by
  have hrun : run keep world (depth + 1) s =
      runPivot world (runnerAt keep world depth) s >>= fun first =>
        combineAll (runnerAt keep world depth) first s.operations := rfl
  rw [hrun]
  simp only [combineAll_eq_foldlM]

/-- A statement comes to a result just where its operands do and are as wide as the first. -/
theorem run_iff_chained {r : ResultSet} {st st' : σ} : (run keep world (depth + 1) s).Gives st r st' ↔
    ∃ left mid rights, (runPivot world (runnerAt keep world depth) s).Gives st left mid ∧
      (operandResults (runnerAt keep world depth) s.operations).Gives mid rights st' ∧
      (∀ right ∈ rights, right.titles.length = left.titles.length) ∧
      r = ⟨left.titles, chained left.rows s.operations rights⟩ := by
  rw [run_eq_foldlM, Run.gives_bind]
  constructor
  · rintro ⟨left, mid, hleft, h⟩
    rw [← combineAll_eq_foldlM] at h
    obtain ⟨rights, hrights⟩ := combineAll_iff.mp h
    exact ⟨left, mid, rights, hleft, hrights⟩
  · rintro ⟨left, mid, rights, hleft, hrights⟩
    refine ⟨left, mid, hleft, ?_⟩
    rw [← combineAll_eq_foldlM]
    exact combineAll_iff.mpr ⟨rights, hrights⟩

end Chains

/-- Set operations on results of one width go by the signatures of rows: `operated` says what is left, under
the titles of the left side, and an intersection has no more rows than either side. Results of two widths are
an error. A statement with several operations folds the results of its operands from the left, and comes to a
result just where all operands do and are as wide as the first; the first that is not ends it. -/
theorem set_operations_by_signatures :
    (∀ (op : SetOperator) (left right : ResultSet), left.titles.length = right.titles.length →
      left.combine op right = .ok ⟨left.titles, operated op left.rows right.rows⟩) ∧
    (∀ left right : List Row, (operated .intersect left right).length ≤ min left.length right.length) ∧
    (∀ (op : SetOperator) (left right : ResultSet), left.titles.length ≠ right.titles.length →
      ∃ e, left.combine op right = .error e ∧
        e = .columnCounts op left.titles.length right.titles.length ∧ e.kind = .setOperation) ∧
    ∀ (σ : Type) (keep : Keeping σ) (world : World) (depth : Nat) (s : Statement),
      let runner := runnerAt keep world depth
      (run keep world (depth + 1) s = do
        let first ← runPivot world runner s
        s.operations.foldlM (fun sofar o => do
          let right ← runner.run o.statement
          Run.of (sofar.combine o.operator right)) first) ∧
      (∀ (st : σ) (r : ResultSet) (st' : σ), (run keep world (depth + 1) s).Gives st r st' ↔
        ∃ left mid rights, (runPivot world runner s).Gives st left mid ∧
          (operandResults runner s.operations).Gives mid rights st' ∧
          (∀ right ∈ rights, right.titles.length = left.titles.length) ∧
          r = ⟨left.titles, chained left.rows s.operations rights⟩) ∧
      ∀ (ahead behind : List SetOperation) (o : SetOperation), s.operations = ahead ++ o :: behind →
        ∀ (left right : ResultSet) (rights : List ResultSet) (st mid mid' st' : σ),
          (runPivot world runner s).Gives st left mid → (operandResults runner ahead).Gives mid rights mid' →
          (∀ x ∈ rights, x.titles.length = left.titles.length) →
          (runner.run o.statement).Gives mid' right st' → right.titles.length ≠ left.titles.length →
          (run keep world (depth + 1) s).run st =
            ((.error (.columnCounts o.operator left.titles.length right.titles.length), st') :
              Except QueryError ResultSet × σ) := by
  refine ⟨fun op _ _ => combine_of_widths op, operated_intersect_length, ?_, ?_⟩
  · intro op left right hwidth
    refine ⟨_, ?_, rfl, rfl⟩
    rw [ResultSet.combine, if_neg hwidth]
  · intro σ keep world depth s runner
    refine ⟨run_eq_foldlM keep world depth s, fun _ _ _ => run_iff_chained keep world depth s, ?_⟩
    intro ahead behind o hoperations left right rights st mid mid' st' hleft hahead hwidths hright hwidth
    rw [run_eq_foldlM, Run.run_bind_of_gives hleft, ← combineAll_eq_foldlM, hoperations]
    exact combineAll_columnCounts hahead hwidths hright hwidth

/-- Numbers of which a text repeats one, beside others. -/
def someNumbers : ResultSet := ⟨["N"], [[.number 1], [.text "2"], [.number 2], [.number 4]]⟩

def otherNumbers : ResultSet := ⟨["M"], [[.text "4"], [.number 2], [.number 5]]⟩

theorem set_operations_by_signatures_numbers :
    someNumbers.combine .union otherNumbers =
      .ok ⟨["N"], [[.number 1], [.text "2"], [.number 4], [.number 5]]⟩ ∧
    someNumbers.combine .intersect otherNumbers = .ok ⟨["N"], [[.text "2"], [.number 4]]⟩ ∧
    someNumbers.combine .except ⟨["M"], [[.number 4]]⟩ = .ok ⟨["N"], [[.number 1], [.text "2"], [.number 2]]⟩ ∧
    ∃ e, someNumbers.combine .unionAll ⟨["M", "O"], []⟩ = .error e ∧ e.kind = .setOperation := by
  obtain ⟨hsame, -, hother, -⟩ := set_operations_by_signatures
  refine ⟨?_, ?_, ?_, ?_⟩
  · rw [hsame .union someNumbers otherNumbers rfl]
    decide +kernel
  · rw [hsame .intersect someNumbers otherNumbers rfl]
    decide +kernel
  · rw [hsame .except someNumbers ⟨["M"], [[.number 4]]⟩ rfl]
    decide +kernel
  · obtain ⟨e, he, -, hkind⟩ := hother .unionAll someNumbers ⟨["M", "O"], []⟩ (by decide)
    exact ⟨e, he, hkind⟩

end GridQuery
