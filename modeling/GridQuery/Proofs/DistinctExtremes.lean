import GridQuery.Proofs.Extremes
import GridQuery.Proofs.SteadyCells

/-!
Extremes of cells with repeats left out. A distinct aggregate sees the first cell of each text alone. Texts
say less than the order of sorting: a boolean and a text may have one text and sort apart, and so may two
zeros. So a distinct extreme may fall short of the plain one, but it is never beyond it.
-/

namespace GridQuery
set_option autoImplicit false

/-- An item is kept if no other one stands before it with its text. -/
theorem mem_keepFirst_iff {α : Type} {text : α → String} {items : List α} {seen : List String} {a : α} :
    a ∈ keepFirst text seen items ↔ text a ∉ seen ∧ items.find? (fun b => text b = text a) = some a := by
  induction items generalizing seen with
  | nil => simp [keepFirst]
  | cons b items ih =>
    rw [keepFirst]
    by_cases hsame : text b = text a
    · rw [List.find?_cons_of_pos (by simpa using hsame), Option.some.injEq]
      split
      · rename_i hseen
        rw [ih]
        constructor
        · rintro ⟨hnew, -⟩
          exact absurd (hsame ▸ hseen) hnew
        · rintro ⟨hnew, -⟩
          exact absurd (hsame ▸ hseen) hnew
      · rename_i hnew
        rw [List.mem_cons, ih]
        constructor
        · rintro (rfl | ⟨hlater, -⟩)
          · exact ⟨hnew, rfl⟩
          · exact absurd (hsame ▸ List.mem_cons_self) hlater
        · rintro ⟨-, rfl⟩
          exact .inl rfl
    · rw [List.find?_cons_of_neg (by simpa using hsame)]
      split
      · exact ih
      · rw [List.mem_cons, ih, List.mem_cons, not_or]
        constructor
        · rintro (rfl | ⟨⟨-, hnew⟩, hfind⟩)
          · exact absurd rfl hsame
          · exact ⟨hnew, hfind⟩
        · rintro ⟨hnew, hfind⟩
          exact .inr ⟨⟨fun h => hsame h.symm, hnew⟩, hfind⟩

namespace Aggregator

section Distinct

variable {better : Ordering}

theorem keepFirst_ne_nil {cells : List Cell} (h : cells ≠ []) : keepFirst Cell.key [] cells ≠ [] := by
  obtain ⟨c, cs, rfl⟩ := List.exists_cons_of_ne_nil h
  simp [keepFirst]

/-- The extreme of the cells that are kept is not beyond that of all. -/
theorem not_beyond_extremeOf_keepFirst (hbetter : better ≠ .eq) (cells : List Cell) :
    (extremeOf better (keepFirst Cell.key [] cells)).sortOrder (extremeOf better cells) ≠ better := by
  by_cases hcells : cells = []
  · subst hcells
    change (extremeOf better []).sortOrder (extremeOf better []) ≠ better
    rw [Cell.sortOrder_self]
    exact hbetter.symm
  · apply not_beyond_extremeOf hbetter
    apply (keepFirst_sublist Cell.key cells []).subset
    exact extremeOf_mem hbetter (keepFirst_ne_nil hcells)

/-- The extreme of the cells that are kept sorts like that of all if one does that is kept. -/
theorem extremeOf_keepFirst_iff (hbetter : better ≠ .eq) (cells : List Cell) :
    (extremeOf better (keepFirst Cell.key [] cells)).sortOrder (extremeOf better cells) = .eq ↔
      cells = [] ∨ ∃ c ∈ cells, c.sortOrder (extremeOf better cells) = .eq ∧
        cells.find? (fun d => d.key = c.key) = some c := by
  by_cases hcells : cells = []
  · subst hcells
    simp only [true_or, iff_true]
    exact Cell.sortOrder_self _
  · rw [extremeOf_sortOrder_iff hbetter (keepFirst_sublist Cell.key cells []).subset (keepFirst_ne_nil hcells)]
    simp only [hcells, false_or]
    constructor
    · rintro ⟨c, hc, hsame⟩
      obtain ⟨-, hfirst⟩ := mem_keepFirst_iff.mp hc
      exact ⟨c, List.mem_of_find?_eq_some hfirst, hsame, hfirst⟩
    · rintro ⟨c, -, hsame, hfirst⟩
      exact ⟨c, mem_keepFirst_iff.mpr ⟨List.not_mem_nil, hfirst⟩, hsame⟩

/-- Where cells of one text sort alike, nothing is lost with the repeats. -/
theorem extremeOf_keepFirst (hbetter : better ≠ .eq) {cells : List Cell}
    (h : ∀ c ∈ cells, ∀ d ∈ cells, c.key = d.key → c.sortOrder d = .eq) :
    (extremeOf better (keepFirst Cell.key [] cells)).sortOrder (extremeOf better cells) = .eq := by
  apply (extremeOf_keepFirst_iff hbetter cells).mpr
  by_cases hcells : cells = []
  · exact .inl hcells
  · right
    have hmem := extremeOf_mem hbetter hcells
    obtain ⟨c, hc, hkey⟩ := (keepFirst_represents Cell.key [] hmem).resolve_left List.not_mem_nil
    obtain ⟨-, hfirst⟩ := mem_keepFirst_iff.mp hc
    have hin := List.mem_of_find?_eq_some hfirst
    exact ⟨c, hin, h c hin _ hmem hkey, hfirst⟩

end Distinct

end Aggregator

/-- Texts are told apart by their texts, and so are numbers that read back. -/
theorem Cell.sortOrder_of_key {cells : List Cell}
    (h : (∀ c ∈ cells, ∃ s, c = .text s) ∨ ∀ c ∈ cells, ∃ x, c = .number x ∧ legibleNumber x = true) :
    ∀ c ∈ cells, ∀ d ∈ cells, c.key = d.key → c.sortOrder d = .eq := by
  intro c hc d hd hkey
  rcases h with h | h
  · obtain ⟨s, rfl⟩ := h c hc
    obtain ⟨t, rfl⟩ := h d hd
    obtain rfl : s = t := hkey
    exact sortOrder_self _
  · obtain ⟨x, rfl, hx⟩ := h c hc
    obtain ⟨y, rfl, hy⟩ := h d hd
    obtain rfl := numberText_inj hx hy hkey
    exact sortOrder_self _

namespace Aggregator

/-- How a cell stands to one that it replaces. -/
def better : Aggregator → Ordering
  | max => .gt
  | _ => .lt

theorem better_ne_eq (m : Aggregator) : m.better ≠ .eq := by
  cases m <;> decide

theorem fold_extreme {m : Aggregator} (hm : m = min ∨ m = max) (distinct : Bool) (run : List Row) (slot : Nat) :
    (⟨m, distinct⟩ : Aggregate).fold (slotCells run slot) =
      extremeOf m.better
        (if distinct then keepFirst Cell.key [] (takingCells run slot) else takingCells run slot) := by
  rcases hm with rfl | rfl
  · rfl
  · rfl

end Aggregator

/-- A distinct extreme is not beyond the plain one of the same run. They sort alike just where no cell takes
part or some cell that sorts like the plain extreme is the first with its text. So they do where cells of one
text sort alike, as texts do among themselves, and numbers that read back. -/
theorem distinct_extreme_of_plain {fields fields' : Fields} {run : List Row} {slot : Nat} {f f' : Field}
    {m : Aggregator} (hm : m = .min ∨ m = .max) (hrows : ∀ row ∈ run, row.length = fields.length)
    (hfields : fields'.length = fields.length) (hf : fields[slot]? = some f) (hf' : fields'[slot]? = some f')
    (ha : f.aggregate = some ⟨m, true⟩) (ha' : f'.aggregate = some ⟨m, false⟩) :
    ∃ distinct plain, (compress fields run)[slot]? = some distinct ∧
      (compress fields' run)[slot]? = some plain ∧
      (m = .min → (plain.sortOrder distinct).isLE) ∧ (m = .max → (plain.sortOrder distinct).isGE) ∧
      let taking := takingCells run slot
      (distinct.sortOrder plain = .eq ↔ taking = [] ∨ ∃ c ∈ taking, c.sortOrder plain = .eq ∧
        taking.find? (fun d => d.key = c.key) = some c) ∧
      ((∀ c ∈ taking, ∀ d ∈ taking, c.key = d.key → c.sortOrder d = .eq) → distinct.sortOrder plain = .eq) ∧
      ((∀ c ∈ taking, ∃ s, c = .text s) ∨ (∀ c ∈ taking, ∃ x, c = .number x ∧ legibleNumber x = true) →
        distinct.sortOrder plain = .eq) := by
  have hrows' : ∀ row ∈ run, row.length = fields'.length := by
    intro row hrow
    rw [hrows row hrow, hfields]
  have hbeyond := Aggregator.not_beyond_extremeOf_keepFirst m.better_ne_eq (takingCells run slot)
  have hiff := Aggregator.extremeOf_keepFirst_iff m.better_ne_eq (takingCells run slot)
  have halike := @Aggregator.extremeOf_keepFirst _ m.better_ne_eq (takingCells run slot)
  refine ⟨_, _, getElem?_compress_folded hrows hf ha, getElem?_compress_folded hrows' hf' ha', ?_⟩
  rw [Aggregator.fold_extreme hm, Aggregator.fold_extreme hm]
  refine ⟨?_, ?_, hiff, halike, fun hkinds => halike (Cell.sortOrder_of_key hkinds)⟩
  · rintro rfl
    rw [Cell.sortOrder_transCmp.eq_swap]
    exact Ordering.isLE_swap.trans (Ordering.isGE_iff_ne_lt.mpr hbeyond)
  · rintro rfl
    rw [Cell.sortOrder_transCmp.eq_swap]
    exact Ordering.isGE_swap.trans (Ordering.isLE_iff_ne_gt.mpr hbeyond)

/-- The greatest of some values with and without repeats. -/
def greatestTwice : Fields :=
  [{ Field.ofKind (.column 0 0) "MAX(DISTINCT A)" with aggregate := some ⟨.max, true⟩ },
    { Field.ofKind (.column 0 0) "MAX(A)" with aggregate := some ⟨.max, false⟩ }]

theorem distinct_extreme_of_plain_texts :
    let run : List Row := [[.text "2"], [.text "10"], [.text "null"], [.text "10"]]
    ∃ distinct plain, (compress (greatestTwice.take 1) run)[0]? = some distinct ∧
      (compress (greatestTwice.drop 1) run)[0]? = some plain ∧ distinct.sortOrder plain = .eq := by
  intro run
  obtain ⟨distinct, plain, hdistinct, hplain, -, -, -, -, hkinds⟩ :=
    @distinct_extreme_of_plain (greatestTwice.take 1) (greatestTwice.drop 1) run 0 _ _ .max (.inr rfl)
      (by decide) rfl rfl rfl rfl rfl
  refine ⟨distinct, plain, hdistinct, hplain, hkinds (.inl ?_)⟩
  have htaking : takingCells run 0 = [.text "2", .text "10", .text "10"] := by decide +kernel
  rw [htaking]
  intro c hc
  simp only [List.mem_cons, List.not_mem_nil, or_false] at hc
  rcases hc with rfl | rfl | rfl
  · exact ⟨"2", rfl⟩
  · exact ⟨"10", rfl⟩
  · exact ⟨"10", rfl⟩

def mixedWorld : World :=
  ⟨.ofList [.derived "T" ["A"] [[.boolean true], [.text "true"]]], .empty, .midnight ⟨2020, 1, 1⟩⟩

/-- A boolean hides a text that sorts behind it. -/
theorem distinct_hides_extreme :
    compress greatestTwice [[.boolean true, .boolean true], [.text "true", .text "true"]] =
      [.boolean true, .text "true"] ∧
    (Cell.boolean true).sortOrder (.text "true") = .lt ∧
    query mixedWorld "SELECT MAX(DISTINCT A), MAX(A) FROM T" =
      .ok ⟨["MAX(DISTINCT A)", "MAX(A)"], [[.boolean true, .text "true"]]⟩ := by
  refine ⟨by decide +kernel, by decide +kernel, by decide +kernel⟩

end GridQuery
