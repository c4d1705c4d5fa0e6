import GridQuery.Proofs.DistinctCells
import Mathlib.Data.Finset.Card

/-!
What `MIN`, `MAX` and `COUNT` fold a run to, told without an order of visits. The extreme of some cells is
the first of those that no cell is beyond; which cell that is depends on the order of the rows, but not where
it sorts. The counts depend on the order in nothing.
-/

namespace GridQuery
set_option autoImplicit false

namespace Cell

theorem sortOrder_self (c : Cell) : c.sortOrder c = .eq :=
  Ordering.eq_eq_of_eq_swap (sortOrder_transCmp.eq_swap (a := c) (b := c))

section Beyond

variable {better : Ordering} {a b c : Cell}

/-- What is beyond one cell is beyond every cell that is not beyond that one. -/
theorem beyond_of_not_beyond (hbetter : better ≠ .eq) (hc : c.sortOrder b = better)
    (ha : a.sortOrder b ≠ better) : c.sortOrder a = better := by
  have htrans := sortOrder_transCmp
  cases better with
  | eq => exact absurd rfl hbetter
  | lt =>
    have hba : (b.sortOrder a).isLE = true := by
      rw [htrans.eq_swap]
      cases h : a.sortOrder b with
      | lt => exact absurd h ha
      | eq => rfl
      | gt => rfl
    exact htrans.lt_of_lt_of_isLE hc hba
  | gt =>
    have hba : (b.sortOrder a).isGE = true := by
      rw [htrans.eq_swap]
      cases h : a.sortOrder b with
      | gt => exact absurd h ha
      | eq => rfl
      | lt => rfl
    exact htrans.gt_of_gt_of_isGE hc hba

theorem not_beyond_swap (hbetter : better ≠ .eq) (h : c.sortOrder b = better) : b.sortOrder c ≠ better := by
  intro hback
  rw [sortOrder_transCmp.eq_swap, hback] at h
  cases better with
  | eq => exact hbetter rfl
  | lt => cases h
  | gt => cases h

/-- Cells of which neither is beyond the other sort alike. -/
theorem sortOrder_eq_of_not_beyond (hbetter : better ≠ .eq) (hb : b.sortOrder c ≠ better)
    (hc : c.sortOrder b ≠ better) : b.sortOrder c = .eq := by
  rw [sortOrder_transCmp.eq_swap] at hc
  cases h : b.sortOrder c with
  | eq => rfl
  | lt =>
    rw [h] at hb hc
    cases better <;> simp_all
  | gt =>
    rw [h] at hb hc
    cases better <;> simp_all

/-- None of the cells is beyond the cell. -/
def unbeaten (better : Ordering) (cells : List Cell) (c : Cell) : Bool :=
  cells.all fun d => d.sortOrder c ≠ better

theorem unbeaten_iff {cells : List Cell} :
    unbeaten better cells c = true ↔ ∀ d ∈ cells, d.sortOrder c ≠ better := by
  simp [unbeaten]

theorem unbeaten_append_singleton (cells : List Cell) :
    unbeaten better (cells ++ [b]) c = (unbeaten better cells c && decide (b.sortOrder c ≠ better)) := by
  simp [unbeaten]

/-- A running best is the first of the cells so far that none of them is beyond. -/
theorem find?_extreme (hbetter : better ≠ .eq) (best : Cell) (cells : List Cell) :
    (best :: cells).find? (unbeaten better (best :: cells)) = some (extreme better best cells) := by
  have hself (x : Cell) : x.sortOrder x ≠ better := by
    rw [sortOrder_self]
    exact hbetter.symm
  induction cells using List.reverseRecOn with
  | nil =>
    apply List.find?_cons_of_pos
    apply unbeaten_iff.mpr
    intro d hd
    rw [List.mem_singleton.mp hd]
    exact hself best
  | append_singleton cells c ih =>
    have hstep : extreme better best (cells ++ [c]) =
        if c.sortOrder (extreme better best cells) = better then c else extreme better best cells := by
      unfold extreme
      rw [List.foldl_append]
      rfl
    have hunbeaten := unbeaten_iff.mp (List.find?_some ih)
    rw [← List.cons_append, hstep]
    split
    · rename_i hbeyond
      -- all cells so far are beaten by the new one, which none of them beats
      have hnone : (best :: cells).find? (unbeaten better (best :: cells ++ [c])) = none := by
        apply List.find?_eq_none.mpr
        intro x hx
        rw [unbeaten_append_singleton]
        simp [beyond_of_not_beyond hbetter hbeyond (hunbeaten x hx)]
      rw [List.find?_append, hnone, Option.none_or]
      apply List.find?_cons_of_pos
      apply unbeaten_iff.mpr
      intro d hd
      rcases List.mem_append.mp hd with hd | hd
      · intro hdc
        exact hunbeaten d hd (beyond_of_not_beyond hbetter hdc (not_beyond_swap hbetter hbeyond))
      · rw [List.mem_singleton.mp hd]
        exact hself c
    · rename_i hnot
      -- what was beaten stays so, and the best so far is not beaten
      obtain ⟨-, before, behind, hsplit, hbefore⟩ := List.find?_eq_some_iff_append.mp ih
      apply List.find?_eq_some_iff_append.mpr
      refine ⟨?_, before, behind ++ [c], ?_, ?_⟩
      · rw [unbeaten_append_singleton, Bool.and_eq_true]
        exact ⟨List.find?_some ih, decide_eq_true hnot⟩
      · rw [hsplit, List.append_assoc, List.cons_append]
      · intro x hx
        have hbeaten := hbefore x hx
        rw [unbeaten_append_singleton]
        simp only [Bool.not_eq_true'] at hbeaten ⊢
        rw [hbeaten, Bool.false_and]

end Beyond

theorem unbeaten_lt (cells : List Cell) :
    unbeaten .lt cells = fun c => cells.all fun d => (c.sortOrder d).isLE := by
  funext c
  apply List.all_congr rfl
  intro d
  rw [sortOrder_transCmp.eq_swap (a := c)]
  cases d.sortOrder c <;> rfl

theorem unbeaten_gt (cells : List Cell) :
    unbeaten .gt cells = fun c => cells.all fun d => (c.sortOrder d).isGE := by
  funext c
  apply List.all_congr rfl
  intro d
  rw [sortOrder_transCmp.eq_swap (a := c)]
  cases d.sortOrder c <;> rfl

end Cell

namespace Aggregator

/-- No cell is beyond an extreme, which is the first such cell. -/
theorem find?_extremeOf {better : Ordering} (hbetter : better ≠ .eq) {cells : List Cell} (h : cells ≠ []) :
    cells.find? (Cell.unbeaten better cells) = some (extremeOf better cells) := by
  obtain ⟨c, cs, rfl⟩ := List.exists_cons_of_ne_nil h
  exact Cell.find?_extreme hbetter c cs

theorem extremeOf_cases {better : Ordering} (hbetter : better ≠ .eq) (cells : List Cell) :
    if cells = [] then extremeOf better cells = .null
    else cells.find? (Cell.unbeaten better cells) = some (extremeOf better cells) := by
  split
  · rename_i hnone
    rw [hnone]
    rfl
  · rename_i hsome
    exact find?_extremeOf hbetter hsome

theorem extremeOf_mem {better : Ordering} (hbetter : better ≠ .eq) {cells : List Cell} (h : cells ≠ []) :
    extremeOf better cells ∈ cells :=
  List.mem_of_find?_eq_some (find?_extremeOf hbetter h)

theorem not_beyond_extremeOf {better : Ordering} (hbetter : better ≠ .eq) {cells : List Cell} {d : Cell}
    (hd : d ∈ cells) : d.sortOrder (extremeOf better cells) ≠ better :=
  Cell.unbeaten_iff.mp (List.find?_some (find?_extremeOf hbetter (List.ne_nil_of_mem hd))) d hd

/-- The extreme of some cells sorts like that of more cells just if one of the cells does. -/
theorem extremeOf_sortOrder_iff {better : Ordering} (hbetter : better ≠ .eq) {fewer more : List Cell}
    (hsubset : fewer ⊆ more) (hfewer : fewer ≠ []) :
    (extremeOf better fewer).sortOrder (extremeOf better more) = .eq ↔
      ∃ c ∈ fewer, c.sortOrder (extremeOf better more) = .eq := by
  have hmem := extremeOf_mem hbetter hfewer
  constructor
  · intro h
    exact ⟨extremeOf better fewer, hmem, h⟩
  · rintro ⟨c, hc, hsame⟩
    apply Cell.sortOrder_eq_of_not_beyond hbetter
    · exact not_beyond_extremeOf hbetter (hsubset hmem)
    · rw [← Cell.sortOrder_transCmp.congr_left hsame]
      exact not_beyond_extremeOf hbetter hc

/-- Extremes of the same cells, in whatever order, sort alike. -/
theorem extremeOf_perm {better : Ordering} (hbetter : better ≠ .eq) {cells cells' : List Cell}
    (h : cells.Perm cells') : (extremeOf better cells).sortOrder (extremeOf better cells') = .eq := by
  by_cases hcells : cells = []
  · subst hcells
    rw [h.symm.eq_nil]
    exact Cell.sortOrder_self _
  · have hcells' : cells' ≠ [] := by
      intro hnil
      subst hnil
      exact hcells h.eq_nil
    apply (extremeOf_sortOrder_iff hbetter h.subset hcells).mpr
    refine ⟨extremeOf better cells', ?_, Cell.sortOrder_self _⟩
    exact h.mem_iff.mpr (extremeOf_mem hbetter hcells')

end Aggregator

section Counts

/-- The cells of a run that take part in the fold of a slot. -/
def takingCells (run : List Row) (slot : Nat) : List Cell :=
  (slotCells run slot).filter Cell.takesPart

theorem takingCells_perm {run run' : List Row} (h : run.Perm run') (slot : Nat) :
    (takingCells run slot).Perm (takingCells run' slot) :=
  (h.filterMap _).filter _

/-- One cell is kept for each text. -/
theorem keepFirst_key_length (cells : List Cell) :
    (keepFirst Cell.key [] cells).length = (cells.map Cell.key).toFinset.card := by
  have htexts : (cells.map Cell.key).toFinset = ((keepFirst Cell.key [] cells).map Cell.key).toFinset := by
    ext text
    rw [List.mem_toFinset, List.mem_toFinset]
    constructor
    · intro h
      obtain ⟨c, hc, rfl⟩ := List.mem_map.mp h
      obtain ⟨d, hd, hkey⟩ := (keepFirst_represents Cell.key [] hc).resolve_left List.not_mem_nil
      exact List.mem_map.mpr ⟨d, hd, hkey⟩
    · intro h
      exact ((keepFirst_sublist Cell.key cells []).map Cell.key).subset h
  rw [htexts, List.toFinset_card_of_nodup (nodup_texts cells), List.length_map]

/-- As many cells are counted in one order as in another. -/
theorem countedCells_perm {cells cells' : List Cell} (h : cells.Perm cells') (distinct : Bool) :
    (if distinct then keepFirst Cell.key [] cells else cells).length =
      (if distinct then keepFirst Cell.key [] cells' else cells').length := by
  cases distinct with
  | false => exact h.length_eq
  | true =>
    have htexts := List.toFinset_eq_of_perm _ _ (h.map Cell.key)
    simp only [if_true, keepFirst_key_length, htexts]

end Counts

section Stars

variable {σ : Type}

/-- Rows that were made by the formulas of some fields. -/
def Materialized (fields : Fields) (run : List Row) : Prop :=
  ∃ (τ : Type) (rows : Rows τ) (formulas : List Formula) (ids : List Nat) (cells : List Row) (st st' : τ),
    rows.scope.fieldFormulas [] fields = .ok formulas ∧ (rows.cells formulas ids).Gives st cells st' ∧
      run ⊆ cells

theorem Scope.fieldFormulas_star {s : Scope} {memo : FormulaMemo} {fields : List Field}
    {formulas : List Formula} (h : s.fieldFormulas memo fields = .ok formulas) {slot : Nat} {f : Field}
    (hf : fields[slot]? = some f) (hstar : f.kind = .star) : formulas[slot]? = some (.const (.text "*")) := by
  induction fields generalizing memo formulas slot with
  | nil => cases hf
  | cons g fields ih =>
    unfold fieldFormulas at h
    obtain ⟨⟨x, memo'⟩, hx, h⟩ := bind_eq_ok.mp h
    obtain ⟨xs, hxs, h⟩ := bind_eq_ok.mp h
    cases h
    cases slot with
    | zero =>
      cases hf
      unfold fieldFormula at hx
      rw [hstar] at hx
      cases hx
      rfl
    | succ slot => exact ih hxs hf

theorem Rows.values_star {r : Rows σ} {row : Nat} {formulas : List Formula} {cells : List Cell}
    {st st' : σ} (h : (r.values row formulas).Gives st cells st') {slot : Nat}
    (hstar : formulas[slot]? = some (.const (.text "*"))) : cells[slot]? = some (.text "*") := by
  induction formulas generalizing cells st st' slot with
  | nil => cases hstar
  | cons f formulas ih =>
    simp only [values] at h
    obtain ⟨x, mid, hx, h⟩ := Run.gives_bind.mp h
    obtain ⟨xs, mid', hxs, h⟩ := Run.gives_bind.mp h
    rw [(Run.gives_pure.mp h).1]
    cases slot with
    | zero =>
      cases hstar
      simp only [value, Run.gives_pure] at hx
      rw [hx.1]
      rfl
    | succ slot => exact ih hxs hstar

/-- Each row of a run stands for one cell of a star, which takes part. -/
theorem takingCells_star {fields : Fields} {run : List Row} {slot : Nat} {f : Field}
    (hmade : Materialized fields run) (hf : fields[slot]? = some f) (hstar : f.kind = .star) :
    (takingCells run slot).length = run.length := by
  obtain ⟨τ, rows, formulas, ids, cells, st, st', hformulas, hcells, hrun⟩ := hmade
  have hformula := Scope.fieldFormulas_star hformulas hf hstar
  have hslots : slotCells run slot = run.map fun _ => .text "*" := by
    unfold slotCells
    rw [← List.filterMap_eq_map]
    apply List.filterMap_congr
    intro row hrow
    obtain ⟨id, before, after, hvalues⟩ := Rows.exists_values hcells row (hrun hrow)
    exact Rows.values_star hvalues hformula
  have htakes : (Cell.text "*").takesPart = true := by decide +kernel
  unfold takingCells
  rw [hslots, List.filter_eq_self.mpr, List.length_map]
  intro c hc
  obtain ⟨_, _, rfl⟩ := List.mem_map.mp hc
  exact htakes

end Stars

/-- The cell of an aggregate is folded over its run, also over one without rows. -/
theorem getElem?_compress_folded {fields : Fields} {run : List Row} {slot : Nat} {f : Field} {a : Aggregate}
    (hrows : ∀ row ∈ run, row.length = fields.length) (hf : fields[slot]? = some f)
    (ha : f.aggregate = some a) :
    (compress fields run)[slot]? = some (a.fold (slotCells run slot)) := by
  cases run with
  | cons first rest =>
    exact (compress_foldsTo (hrows first List.mem_cons_self)).folded hf ha
  | nil =>
    obtain ⟨hslot, rfl⟩ := List.getElem?_eq_some_iff.mp hf
    unfold compress foldedCell
    simp [ha, hslot]

/-- The extremes and counts of a run: the least and the greatest of the cells that take part, of several that
sort alike the first, and null where there is none; how many cells take part, or how many texts they have, or
for a star how many rows there are. In another order of its rows a run has the same counts and extremes that
sort alike. -/
theorem extremes_and_counts {fields : Fields} {run : List Row} {slot : Nat} {f : Field} {a : Aggregate}
    (hrows : ∀ row ∈ run, row.length = fields.length) (hf : fields[slot]? = some f)
    (ha : f.aggregate = some a) :
    ∃ out, (compress fields run)[slot]? = some out ∧
      let taking := takingCells run slot
      (a = ⟨.min, false⟩ → if taking = [] then out = .null
        else taking.find? (fun c => taking.all fun d => (c.sortOrder d).isLE) = some out) ∧
      (a = ⟨.max, false⟩ → if taking = [] then out = .null
        else taking.find? (fun c => taking.all fun d => (c.sortOrder d).isGE) = some out) ∧
      (a = ⟨.count, false⟩ → out = .number (Float.ofNat taking.length)) ∧
      (a = ⟨.count, false⟩ → f.kind = .star → Materialized fields run →
        out = .number (Float.ofNat run.length)) ∧
      (a = ⟨.count, true⟩ → out = .number (Float.ofNat (taking.map Cell.key).toFinset.card)) ∧
      ∀ run' : List Row, run'.Perm run → ∃ out', (compress fields run')[slot]? = some out' ∧
        (a.aggregator = .count → out' = out) ∧
        (a = ⟨.min, false⟩ ∨ a = ⟨.max, false⟩ → out'.sortOrder out = .eq) := by
  refine ⟨_, getElem?_compress_folded hrows hf ha, ?_, ?_, ?_, ?_, ?_, ?_⟩
  · rintro rfl
    rw [← Cell.unbeaten_lt]
    exact Aggregator.extremeOf_cases (by decide) (takingCells run slot)
  · rintro rfl
    rw [← Cell.unbeaten_gt]
    exact Aggregator.extremeOf_cases (by decide) (takingCells run slot)
  · rintro rfl
    rfl
  · rintro rfl hstar hmade
    rw [← takingCells_star hmade hf hstar]
    rfl
  · rintro rfl
    rw [← keepFirst_key_length]
    rfl
  · intro run' hperm
    have hrows' : ∀ row ∈ run', row.length = fields.length := by
      intro row hrow
      exact hrows row (hperm.subset hrow)
    have htaking := takingCells_perm hperm slot
    refine ⟨_, getElem?_compress_folded hrows' hf ha, ?_, ?_⟩
    · obtain ⟨aggregator, distinct⟩ := a
      rintro rfl
      exact congrArg (fun n => Cell.number (Float.ofNat n)) (countedCells_perm htaking distinct)
    · rintro (rfl | rfl)
      · exact Aggregator.extremeOf_perm (by decide) htaking
      · exact Aggregator.extremeOf_perm (by decide) htaking

def mixedFields : Fields :=
  [{ Field.ofKind (.column 0 0) "MIN(A)" with aggregate := some ⟨.min, false⟩ },
    { Field.ofKind .star "COUNT(*)" with aggregate := some ⟨.count, false⟩ }]

/-- A number and its text among cells of other kinds. -/
def mixedCells : Table :=
  .derived "T" ["A"] [[.text "x"], [.text "1"], [.text "NULL"], [.number 1]]

def mixedRun : List Row :=
  [[.text "x", .text "*"], [.text "1", .text "*"], [.text "NULL", .text "*"], [.number 1, .text "*"]]

theorem materialized_mixedRun : Materialized mixedFields mixedRun := by
  refine ⟨ResultMemo, rowsAt ⟨.empty, .empty, .midnight ⟨2020, 1, 1⟩⟩ mixedCells 0, [.slot 0, .const (.text "*")],
    [0, 1, 2, 3], mixedRun, [], [], rfl, ?_, fun _ h => h⟩
  decide +kernel

/-- The text comes first, and backwards the number does. -/
theorem extremes_and_counts_mixed :
    (∀ row ∈ mixedRun, row.length = mixedFields.length) ∧ Materialized mixedFields mixedRun ∧
    (compress mixedFields mixedRun)[0]? = some (.text "1") ∧
    (compress mixedFields mixedRun)[1]? = some (.number (Float.ofNat 4)) ∧
    ∃ out, (compress mixedFields mixedRun.reverse)[0]? = some out ∧ out.sortOrder (.text "1") = .eq := by
  have hrows : ∀ row ∈ mixedRun, row.length = mixedFields.length := by decide
  obtain ⟨least, hleast, hmin, -, -, -, -, hback⟩ := @extremes_and_counts mixedFields mixedRun 0 _ _ hrows rfl rfl
  obtain ⟨count, hcount, -, -, -, hstar, -, -⟩ := @extremes_and_counts mixedFields mixedRun 1 _ _ hrows rfl rfl
  have hfirst : least = .text "1" := by
    have hfind := hmin rfl
    rw [if_neg (by decide +kernel)] at hfind
    apply Option.some.inj
    rw [← hfind]
    decide +kernel
  subst hfirst
  rw [hstar rfl rfl materialized_mixedRun] at hcount
  obtain ⟨out, hout, -, hsame⟩ := hback mixedRun.reverse (List.reverse_perm mixedRun)
  exact ⟨hrows, materialized_mixedRun, hleast, hcount, out, hout, hsame (.inl rfl)⟩

end GridQuery
