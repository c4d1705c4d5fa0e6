import Mathlib.Data.List.Perm.Subperm
import GridQuery.Proofs.Collected
import GridQuery.Proofs.HavingSplit
import GridQuery.Proofs.Lexing
import GridQuery.Proofs.Wrapping

/-!
Two notions of duplicate. `COUNT(DISTINCT x)` takes the cells that take part in folds and counts their texts.
`SELECT DISTINCT x` shows, of the cells that sort alike, the first one of the table, and of these the first with
each text. So it shows at most as many cells that take part as are counted, and fewer exactly where the text of
some cell is that of none that stands first.
-/

namespace GridQuery
set_option autoImplicit false

/-! ### Texts of cells that take part -/

section Texts

open Number

theorem toLower_of_isDigit {c : Char} (h : c.isDigit = true) : c.toLower = c := by
  have hle : c.val ≤ '9'.val := by
    rw [Char.isDigit, Bool.and_eq_true] at h
    exact of_decide_eq_true h.2
  unfold Char.toLower
  rw [dif_neg]
  intro hupper
  have hletter : ¬ ('A'.val ≤ '9'.val) := by simp
  exact hletter (UInt32.le_trans hupper.1 hle)

/-- A text with a digit is not empty and not `null`. -/
theorem takesPart_of_digit {s : String} (h : ∃ c ∈ s.toList, c.isDigit = true) :
    (Cell.text s).takesPart = true := by
  obtain ⟨c, hc, hdigit⟩ := h
  have hne : s ≠ "" := by
    rintro rfl
    cases hc
  have hnull : Text.eqIgnoringAsciiCase s "null" = false := by
    rw [Bool.eq_false_iff, Text.eqIgnoringAsciiCase, ne_eq, beq_iff_eq]
    intro hlower
    have hin : c ∈ (Text.asciiLower s).toList := by
      rw [Text.asciiLower, String.toList_ofList]
      exact List.mem_map.mpr ⟨c, hc, toLower_of_isDigit hdigit⟩
    rw [hlower] at hin
    have hletters : ∀ d ∈ (Text.asciiLower "null").toList, d.isDigit = false := by
      rw [Text.asciiLower, String.toList_ofList]
      simp
    exact absurd hdigit (by simp [hletters c hin])
  simp [Cell.takesPart, hne, hnull]

theorem exists_digit (n : Nat) : ∃ c ∈ digits n, c.isDigit = true := by
  obtain ⟨c, cs, h⟩ := List.exists_cons_of_ne_nil (Lexer.digits_ne_nil n)
  have hc : c ∈ digits n := h ▸ List.mem_cons_self
  exact ⟨c, hc, Lexer.isDigit_digits n c hc⟩

theorem exists_digit_int (i : Int) : ∃ c ∈ intDigits i, c.isDigit = true := by
  obtain ⟨c, hc, hdigit⟩ := exists_digit i.natAbs
  refine ⟨c, ?_, hdigit⟩
  unfold intDigits
  split
  · exact List.mem_cons_of_mem _ hc
  · exact hc

theorem exists_digit_positional (d : Decimal) : ∃ c ∈ d.positional, c.isDigit = true := by
  obtain ⟨c, hc, hdigit⟩ := exists_digit d.coefficient
  unfold Decimal.positional
  split
  · exact ⟨'0', List.mem_singleton.mpr rfl, by decide⟩
  · split
    · exact ⟨c, List.mem_append_left _ hc, hdigit⟩
    · simp only
      split
      · refine ⟨c, ?_, hdigit⟩
        rw [← List.take_append_drop ((digits d.coefficient).length - (-d.exponent).toNat) (digits d.coefficient)]
          at hc
        rcases List.mem_append.mp hc with hc | hc
        · exact List.mem_append_left _ hc
        · exact List.mem_append_right _ (List.mem_cons_of_mem _ hc)
      · exact ⟨'0', List.mem_cons_self, by decide⟩

theorem exists_digit_numberText (x : Float) :
    numberText x ∈ ["NaN", "inf", "-inf"] ∨ ∃ c ∈ (numberText x).toList, c.isDigit = true := by
  unfold numberText plain writeWith
  cases parts x with
  | notANumber => exact .inl (by simp)
  | infinite negative => exact .inl (by cases negative <;> simp)
  | finite negative m e =>
    refine .inr ?_
    simp only
    split
    · rw [String.toList_ofList]
      exact exists_digit_int _
    · obtain ⟨c, hc, hdigit⟩ := exists_digit_positional (Decimal.shortest .up m e)
      refine ⟨c, ?_, hdigit⟩
      rw [String.toList_ofList]
      split
      · exact List.mem_cons_of_mem _ hc
      · exact hc

theorem exists_digit_momentText (m : Calendar.Moment) : ∃ c ∈ m.text.toList, c.isDigit = true := by
  obtain ⟨c, hc, hdigit⟩ := exists_digit m.date.day
  have hday : c ∈ Calendar.dayText m.date := by
    unfold Calendar.dayText
    exact List.mem_append_right _ (List.mem_cons_of_mem _ (List.mem_append_right _ hc))
  refine ⟨c, ?_, hdigit⟩
  unfold Calendar.Moment.text
  rw [String.toList_ofList]
  split
  · exact hday
  · exact List.mem_append_left _ hday

end Texts

namespace Cell

/-- Whether a cell takes part in folds shows in its text. -/
theorem takesPart_text_key (c : Cell) : (Cell.text c.key).takesPart = c.takesPart := by
  cases c with
  | null => decide
  | boolean b => cases b <;> decide
  | number x =>
    rcases exists_digit_numberText x with h | hdigit
    · have hwords : ∀ s ∈ ["NaN", "inf", "-inf"], (Cell.text s).takesPart = true := by decide
      exact hwords _ h
    · exact takesPart_of_digit hdigit
  | date m => exact takesPart_of_digit (exists_digit_momentText m)
  | text s => rfl

theorem takesPart_of_key {a b : Cell} (h : a.key = b.key) : a.takesPart = b.takesPart := by
  rw [← takesPart_text_key a, ← takesPart_text_key b, h]

end Cell

/-! ### Counting by texts -/

/-- Of some cells the first of those that sort alike. -/
def StandsFirst (cells : List Cell) (w : Cell) : Prop :=
  cells.find? (fun v => w.sortOrder v = .eq) = some w

section Counted

variable {c : Nat → Cell} {ids : List Nat}

/-- A group has all rows with cells that sort like its first one, in their order. -/
theorem map_alikeRows {group : List Nat} (hgroup : group ∈ alikeRows c ids) :
    group.map c = (ids.map c).filter fun v => (c (group.headD 0)).sortOrder v = .eq := by
  let row (i : Nat) : Row := [c i]
  have hkeyed : ∀ r ∈ ids.map row, Keyed [0] r := by
    intro r hr
    obtain ⟨i, _, rfl⟩ := List.mem_map.mp hr
    exact fun k hk => by simpa [row] using hk
  have hsortedKeyed : ∀ r ∈ sortByKeys [0] (ids.map row), Keyed [0] r :=
    fun r hr => hkeyed r ((sortByKeys_perm [0] _).subset hr)
  have hruns : (alikeRows c ids).map (List.map row) = runs [0] (sortByKeys [0] (ids.map row)) :=
    map_rowGroups ids
  have hrun : group.map row ∈ runs [0] (sortByKeys [0] (ids.map row)) :=
    hruns ▸ List.mem_map_of_mem hgroup
  have hhead : row (group.headD 0) ∈ group.map row :=
    List.mem_map_of_mem (headD_mem (ne_nil_of_mem_rowGroups hgroup))
  have hrows := runs_eq_filter hsortedKeyed (sortByKeys_pairwise hkeyed) hrun hhead
  rw [filter_sortByKeys hkeyed (hsortedKeyed _ (mem_of_mem_runs hrun hhead)), List.filter_map] at hrows
  have hcells := congrArg (List.map fun r : Row => r.headD .null) hrows
  rw [List.map_map, List.map_map] at hcells
  rw [List.filter_map]
  refine Eq.trans hcells.symm (congrArg (List.map c) (List.filter_congr fun i _ => ?_))
  simp [row, sameKeys, Bool.beq_eq_decide_eq]

/-- The cells that stand first in the groups are those of the table that do. -/
theorem mem_heads_iff {w : Cell} :
    w ∈ (alikeRows c ids).map (fun group => c (group.headD 0)) ↔ StandsFirst (ids.map c) w := by
  have hfirst {group : List Nat} (hgroup : group ∈ alikeRows c ids) :
      StandsFirst (ids.map c) (c (group.headD 0)) := by
    obtain ⟨i, rest, rfl⟩ := List.exists_cons_of_ne_nil (ne_nil_of_mem_rowGroups hgroup)
    rw [StandsFirst, ← List.head?_filter, ← map_alikeRows hgroup]
    rfl
  constructor
  · intro hw
    obtain ⟨group, hgroup, rfl⟩ := List.mem_map.mp hw
    exact hfirst hgroup
  · intro hw
    obtain ⟨i, hi, rfl⟩ := List.mem_map.mp (List.mem_of_find?_eq_some hw)
    have hflat : i ∈ (alikeRows c ids).flatten := (rowGroups_perm [0] _ ids).mem_iff.mpr hi
    obtain ⟨group, hgroup, hin⟩ := List.mem_flatten.mp hflat
    have halike : (c i).sortOrder (c (group.headD 0)) = .eq :=
      alikeRows_classes.1 group hgroup i hin _ (headD_mem (ne_nil_of_mem_rowGroups hgroup))
    -- cells that sort alike are compared alike, so both look for the same cell
    have hsame : (fun v => decide ((c i).sortOrder v = .eq)) =
        fun v => decide ((c (group.headD 0)).sortOrder v = .eq) := by
      funext v
      rw [Cell.sortOrder_transCmp.congr_left halike]
    have hgroupFirst := hfirst hgroup
    rw [StandsFirst, hsame, hgroupFirst] at hw
    exact List.mem_map.mpr ⟨group, hgroup, Option.some.inj hw⟩

/-- The texts of the collected cells that take part are those of the cells that take part and stand first. -/
theorem mem_collected_texts {text : String} :
    text ∈ ((collectedCells c ids).filter Cell.takesPart).map Cell.key ↔
      ∃ w, StandsFirst (ids.map c) w ∧ w.takesPart = true ∧ w.key = text := by
  rw [List.mem_map]
  constructor
  · rintro ⟨w, hw, rfl⟩
    obtain ⟨hw, htakes⟩ := List.mem_filter.mp hw
    exact ⟨w, mem_heads_iff.mp ((keepFirst_sublist _ _ _).subset hw), htakes, rfl⟩
  · rintro ⟨w, hw, htakes, rfl⟩
    obtain ⟨v, hv, hkey⟩ := (keepFirst_represents Cell.key [] (mem_heads_iff.mpr hw)).resolve_left
      List.not_mem_nil
    exact ⟨v, List.mem_filter.mpr ⟨hv, (Cell.takesPart_of_key hkey).trans htakes⟩, hkey⟩

theorem mem_counted_texts {cells : List Cell} {text : String} :
    text ∈ (keepFirst Cell.key [] (cells.filter Cell.takesPart)).map Cell.key ↔
      ∃ v ∈ cells, v.takesPart = true ∧ v.key = text := by
  rw [List.mem_map]
  constructor
  · rintro ⟨v, hv, rfl⟩
    obtain ⟨hv, htakes⟩ := List.mem_filter.mp ((keepFirst_sublist _ _ _).subset hv)
    exact ⟨v, hv, htakes, rfl⟩
  · rintro ⟨v, hv, htakes, rfl⟩
    exact (keepFirst_represents Cell.key [] (List.mem_filter.mpr ⟨hv, htakes⟩)).resolve_left
      List.not_mem_nil

theorem nodup_texts (cells : List Cell) : ((keepFirst Cell.key [] cells).map Cell.key).Nodup :=
  List.pairwise_map.mpr (keepFirst_pairwise Cell.key cells []).2

/-- As many texts are counted as cells are shown that take part, or more: more where the text of some cell is
that of none that stands first. -/
theorem collected_le_counted (c : Nat → Cell) (ids : List Nat) :
    (collectedCells c ids).countP Cell.takesPart ≤
        (keepFirst Cell.key [] ((ids.map c).filter Cell.takesPart)).length ∧
      ((collectedCells c ids).countP Cell.takesPart =
          (keepFirst Cell.key [] ((ids.map c).filter Cell.takesPart)).length ↔
        ∀ v ∈ ids.map c, v.takesPart = true → ∃ w, StandsFirst (ids.map c) w ∧ w.key = v.key) := by
  have hnodup : (((collectedCells c ids).filter Cell.takesPart).map Cell.key).Nodup :=
    (nodup_texts _).sublist (List.filter_sublist.map Cell.key)
  have hsub : ((collectedCells c ids).filter Cell.takesPart).map Cell.key ⊆
      (keepFirst Cell.key [] ((ids.map c).filter Cell.takesPart)).map Cell.key := by
    intro text htext
    obtain ⟨w, hw, htakes, rfl⟩ := mem_collected_texts.mp htext
    exact mem_counted_texts.mpr ⟨w, List.mem_of_find?_eq_some hw, htakes, rfl⟩
  have hsubperm := List.subperm_of_subset hnodup hsub
  have hlength := hsubperm.length_le
  rw [List.length_map, List.length_map, ← List.countP_eq_length_filter] at hlength
  refine ⟨hlength, fun heq v hv htakes => ?_, fun hall => le_antisymm hlength ?_⟩
  · have hperm := hsubperm.perm_of_length_le (by
      rw [List.length_map, List.length_map, ← List.countP_eq_length_filter, heq])
    have htext := hperm.mem_iff.mpr (mem_counted_texts.mpr ⟨v, hv, htakes, rfl⟩)
    obtain ⟨w, hw, _, hkey⟩ := mem_collected_texts.mp htext
    exact ⟨w, hw, hkey⟩
  · have hback : (keepFirst Cell.key [] ((ids.map c).filter Cell.takesPart)).map Cell.key ⊆
        ((collectedCells c ids).filter Cell.takesPart).map Cell.key := by
      intro text htext
      obtain ⟨v, hv, htakes, rfl⟩ := mem_counted_texts.mp htext
      obtain ⟨w, hw, hkey⟩ := hall v hv htakes
      exact mem_collected_texts.mpr ⟨w, hw, (Cell.takesPart_of_key hkey).trans htakes, hkey⟩
    have hle := (List.subperm_of_subset (nodup_texts _) hback).length_le
    rwa [List.length_map, List.length_map, ← List.countP_eq_length_filter] at hle

end Counted

/-! ### The two statements -/

/-- A statement over one table that shows one item of all rows. -/
def showing (distinct : Bool) (item : SelectItem) (name : String) (alias? : Option String) : Statement :=
  ⟨distinct, [item], .table name alias?, [], none, [], none, [], none, none, []⟩

section Showing

variable {σ : Type} {world : World} {runner : Runner σ} {t : Table} {name : String} {alias? : Option String}

/-- Over one table, a field of a column makes rows of the cells of the column. -/
theorem madeRows_showing (runner : Runner σ) (distinct : Bool) {item : SelectItem} {f : Field} {c : Nat} (st : σ)
    (htable : world.tables.require name = .ok t)
    (hfields : Fields.ofItem [t.withAlias alias?] item = .ok [f]) (hkind : f.kind = .column 0 c)
    (hderived : f.derived = none) :
    (madeRows world runner (showing distinct item name alias?)).Gives st
      (⟨[f], [], []⟩, [f], (List.range t.rows.length).map (fieldsRow [f] fun _ i => t.cell i c)) st := by
  have hlayout : layout [t.withAlias alias?] (showing distinct item name alias?) = .ok ⟨[f], [], []⟩ :=
    bind_eq_ok.mpr ⟨[f], Fields.ofSelect_singleton.trans hfields, rfl⟩
  have hformulas (s : Scope) : s.fieldFormulas [] [f] = .ok [.slot c] :=
    s.fieldFormulas_columns (.cons ⟨hkind, hderived⟩ .nil) []
  refine Run.gives_bind.mpr ⟨t.withAlias alias?, st, ?_, ?_⟩
  · exact Run.gives_bind.mpr ⟨t, st, Run.gives_of.mpr ⟨htable, rfl⟩, Run.gives_pure.mpr ⟨rfl, rfl⟩⟩
  refine Run.gives_bind.mpr ⟨[], st, Run.gives_pure.mpr ⟨rfl, rfl⟩, ?_⟩
  refine Run.gives_bind.mpr ⟨_, st, Run.gives_of.mpr ⟨hlayout, rfl⟩, ?_⟩
  refine Run.gives_bind.mpr ⟨(t.withAlias alias?, [f]), st, Run.gives_pure.mpr ⟨rfl, rfl⟩, ?_⟩
  refine Run.gives_bind.mpr ⟨List.range t.rows.length, st, Run.gives_pure.mpr ⟨rfl, rfl⟩, ?_⟩
  refine Run.gives_bind.mpr ⟨[.slot c], st, Run.gives_of.mpr ⟨hformulas _, rfl⟩, ?_⟩
  refine Run.gives_bind.mpr ⟨_, st, ?_, Run.gives_pure.mpr ⟨rfl, rfl⟩⟩
  change (Rows.cells _ ([c].map Formula.slot) _).Gives st _ st
  rw [Rows.cells_slots]
  exact Run.gives_pure.mpr ⟨rfl, rfl⟩

theorem runPlain_showing (runner : Runner σ) (distinct : Bool) {item : SelectItem} {f : Field} {c : Nat} (st : σ)
    (htable : world.tables.require name = .ok t)
    (hfields : Fields.ofItem [t.withAlias alias?] item = .ok [f]) (hkind : f.kind = .column 0 c)
    (hderived : f.derived = none) :
    (runPlain world runner (showing distinct item name alias?)).Gives st
      ⟨Fields.titles [f], cut [f] none (sortRows [] (grouped [f] [] distinct
        ((List.range t.rows.length).map (fieldsRow [f] fun _ i => t.cell i c))))⟩ st := by
  have hmade := madeRows_showing runner distinct st htable hfields hkind hderived
  generalize (List.range t.rows.length).map (fieldsRow [f] fun _ i => t.cell i c) = cells at hmade ⊢
  rw [runPlain_eq]
  refine Run.gives_bind.mpr ⟨_, st, hmade, ?_⟩
  exact Run.gives_bind.mpr ⟨_, st, Run.gives_pure.mpr ⟨rfl, rfl⟩, Run.gives_pure.mpr ⟨rfl, rfl⟩⟩

theorem columnCells_eq_map (t : Table) (c : Nat) :
    t.columnCells c = (List.range t.rows.length).map fun i => t.cell i c := by
  apply List.ext_getElem
  · simp [Table.columnCells]
  · intro i hi _
    have hrow : i < t.rows.length := by simpa [Table.columnCells] using hi
    simp [Table.columnCells, Table.cell, List.getElem?_eq_getElem hrow]

theorem execute_showing {distinct : Bool} {item : SelectItem} {r : ResultSet}
    (hbinds : highestBind.expr item.expr = 0) (hnested : nesting.expr item.expr = 0)
    (h : (runPlain world (runnerAt remembered world 0) (showing distinct item name alias?)).Gives [] r []) :
    execute world (showing distinct item name alias?) = .ok r := by
  have hrun : (run remembered world 1 (showing distinct item name alias?)).Gives [] r [] :=
    (run_without_pivot rfl).mpr ⟨r, [], h, Run.gives_pure.mpr ⟨rfl, rfl⟩⟩
  refine execute_of_run ?_ ?_ hrun
  · obtain ⟨e, text, as⟩ := item
    have hnone : (showing distinct ⟨e, text, as⟩ name alias?).maxBind = 0 := by
      simp [showing, Statement.maxBind, Tally.statement, Tally.items, Tally.source, Tally.joins,
        Tally.clause, Tally.exprs, Tally.orders, Tally.optional, Tally.operations, hbinds]
      rfl
    rw [hnone, Binds.require, if_neg (Nat.not_lt_zero _)]
  · obtain ⟨e, text, as⟩ := item
    simp [showing, Statement.depth, Tally.statement, Tally.items, Tally.source, Tally.joins,
        Tally.clause, Tally.exprs, Tally.orders, Tally.optional, Tally.operations, hnested]
    rfl

end Showing

section Column

variable {world : World} {t : Table} {name : String} {alias? qualifier : Option String} {x : String} {c : Nat}

/-- A column that the table knows has a field, which reads it and folds nothing. -/
theorem ofValue_known (hcolumn : resolveColumn [t.withAlias alias?] qualifier x = some (0, c))
    (title : String) : ∃ f, Field.ofValue [t.withAlias alias?] title (.column qualifier x) = .ok f ∧
      f.kind = .column 0 c ∧ f.derived = none ∧ f.temporary = false ∧ f.aggregate = none := by
  obtain ⟨f, hf⟩ : ∃ f, Field.ofValue [t.withAlias alias?] title (.column qualifier x) = .ok f := by
    simp only [Field.ofValue, hcolumn]
    exact ⟨_, rfl⟩
  obtain ⟨_, _, hresolve, hkind, hderived⟩ := Field.ofValue_column hf
  cases hcolumn.symm.trans hresolve
  exact ⟨f, hf, hkind, hderived, (Field.ofValue_shown hf).2, Field.ofValue_aggregate hf⟩

/-- `COUNT(DISTINCT x)` is the number of texts of the cells that take part. -/
theorem execute_countDistinct (htable : world.tables.require name = .ok t)
    (hcolumn : resolveColumn [t.withAlias alias?] qualifier x = some (0, c))
    (text : String) (as? : Option String) :
    execute world (showing false ⟨.call "COUNT" true [.column qualifier x], text, as?⟩ name alias?) =
      .ok ⟨[as?.getD text], [[.number (Float.ofNat
        (keepFirst Cell.key [] ((t.columnCells c).filter Cell.takesPart)).length)]]⟩ := by
  let item : SelectItem := ⟨.call "COUNT" true [.column qualifier x], text, as?⟩
  have hcall : item.expr.aggregate? = some ⟨.count, "COUNT", true, [.column qualifier x]⟩ := by
    have hname : Aggregator.ofName? "COUNT" = some .count := by decide
    change (Aggregator.ofName? "COUNT").map _ = _
    rw [hname]
    rfl
  obtain ⟨g, hg, hkind, hderived, htemporary, _⟩ := ofValue_known hcolumn item.title
  let folded : Field := { g with spellings := [normalize item.title], aggregate := some ⟨.count, true⟩ }
  have hfolded : Field.ofExpr [t.withAlias alias?] item.title item.expr = .ok folded := by
    unfold Field.ofExpr
    rw [hcall]
    exact bind_eq_ok.mpr ⟨g, hg, rfl⟩
  obtain ⟨htitle, hshown⟩ := Field.ofExpr_shown hfolded
  obtain ⟨f, hf⟩ : ∃ f, folded.spell item.expr.text = f := ⟨_, rfl⟩
  have hfs : Fields.ofItem [t.withAlias alias?] item = .ok [f] := bind_eq_ok.mpr ⟨folded, hfolded, by rw [hf]⟩
  have hreads : f.kind = .column 0 c := by rw [← hf, Field.spell_kind]; exact hkind
  have hpoints : f.derived = none := by rw [← hf, Field.spell_derived]; exact hderived
  have hfolds : f.aggregate = some ⟨.count, true⟩ := by rw [← hf, Field.spell_aggregate]
  have hvisible : f.temporary = false := by rw [← hf, Field.spell_temporary, hshown]
  have htitled : f.title = as?.getD text := by rw [← hf, Field.spell_title, htitle]; rfl
  have hcells : compress [f] ((List.range t.rows.length).map (fieldsRow [f] fun _ i => t.cell i c)) =
      [Aggregate.fold ⟨.count, true⟩ (t.columnCells c)] := by
    have hslot : slotCells ((List.range t.rows.length).map (fieldsRow [f] fun _ i => t.cell i c)) 0 =
        (List.range t.rows.length).map fun i => t.cell i c := slotCells_fieldsRow rfl _
    rw [columnCells_eq_map, ← hslot]
    unfold compress foldedCell
    cases List.range t.rows.length with
    | nil => simp [hfolds]
    | cons i ids => simp [fieldsRow, hfolds]
  have hone : Fields.selectedCount [f] = 1 := by simp [Fields.selectedCount, hvisible]
  have hgrouped : grouped [f] [] false ((List.range t.rows.length).map (fieldsRow [f] fun _ i => t.cell i c)) =
      [[Aggregate.fold ⟨.count, true⟩ (t.columnCells c)]] := by
    rw [← hcells]
    simp [grouped, Fields.hasAggregates, Field.isAggregate, hfolds]
  have hrun := runPlain_showing (runnerAt remembered world 0) false [] htable hfs
    hreads hpoints
  rw [hgrouped] at hrun
  refine execute_showing (by simp [Tally.expr, Tally.exprs, highestBind])
    (by simp [Tally.expr, Tally.exprs, nesting]) ?_
  simpa [Fields.titles, hvisible, htitled, sortRows, cut, hone, Aggregate.fold, Aggregator.fold] using hrun

/-- `SELECT DISTINCT x` shows the collected cells of the column. -/
theorem execute_distinct (htable : world.tables.require name = .ok t)
    (hcolumn : resolveColumn [t.withAlias alias?] qualifier x = some (0, c))
    (text : String) (as? : Option String) :
    ∃ r, execute world (showing true ⟨.column qualifier x, text, as?⟩ name alias?) = .ok r ∧
      (r.column 0).Perm (collectedCells (fun i => t.cell i c) (List.range t.rows.length)) := by
  let item : SelectItem := ⟨.column qualifier x, text, as?⟩
  obtain ⟨g, hg, hkind, hderived, htemporary, hfolds⟩ := ofValue_known hcolumn item.title
  let f := g.spell item.expr.text
  have hfs : Fields.ofItem [t.withAlias alias?] item = .ok [f] :=
    bind_eq_ok.mpr ⟨g, (Field.ofExpr_plain rfl).trans hg, rfl⟩
  have hreads : f.kind = .column 0 c := (g.spell_kind _).trans hkind
  have hone : OneShown [f] := ⟨0, by simp [f, htemporary, hfolds]⟩
  have hrun := runPlain_showing (runnerAt remembered world 0) true [] htable hfs hreads
    ((g.spell_derived _).trans hderived)
  refine ⟨_, execute_showing (by simp [Tally.expr, highestBind]) (by simp [Tally.expr, nesting]) hrun, ?_⟩
  have hkind : ∀ h ∈ [f], h.kind = f.kind := fun h hh => by rw [List.mem_singleton.mp hh]
  exact column_collected hone rfl hkind _ _ _

end Column

/-- Where cells that sort like one that takes part have its text, a cell of each text stands first. -/
theorem exists_standsFirst {cells : List Cell}
    (hsame : ∀ v ∈ cells, ∀ w ∈ cells, v.takesPart = true → v.sortOrder w = .eq → v.key = w.key) :
    ∀ v ∈ cells, v.takesPart = true → ∃ w, StandsFirst cells w ∧ w.key = v.key := by
  intro v hv htakes
  have hself : v.sortOrder v = .eq := Ordering.eq_eq_of_eq_swap (Cell.sortOrder_transCmp.eq_swap (a := v) (b := v))
  obtain ⟨w, hw⟩ : ∃ w, cells.find? (fun w => v.sortOrder w = .eq) = some w :=
    Option.isSome_iff_exists.mp (List.find?_isSome.mpr ⟨v, hv, decide_eq_true hself⟩)
  have halike : v.sortOrder w = .eq := by simpa using List.find?_some hw
  refine ⟨w, ?_, (hsame v hv w (List.mem_of_find?_eq_some hw) htakes halike).symm⟩
  unfold StandsFirst
  simp only [← Cell.sortOrder_transCmp.congr_left halike]
  exact hw

/-- `SELECT DISTINCT x` shows at most as many cells that take part in folds as `COUNT(DISTINCT x)` counts, and
as many exactly where each cell that takes part has the text of one that stands first among those that sort like
it. So it does where cells that sort alike have one text. -/
theorem distinct_shown_le_counted {world : World} {t : Table} {name : String}
    {alias? qualifier : Option String} {x : String} {c : Nat} (htable : world.tables.require name = .ok t)
    (hcolumn : resolveColumn [t.withAlias alias?] qualifier x = some (0, c))
    (text text' : String) (as? as'? : Option String) :
    ∃ (n : Nat) (r : ResultSet),
      execute world (showing false ⟨.call "COUNT" true [.column qualifier x], text, as?⟩ name alias?) =
        .ok ⟨[as?.getD text], [[.number (Float.ofNat n)]]⟩ ∧
      execute world (showing true ⟨.column qualifier x, text', as'?⟩ name alias?) = .ok r ∧
      (r.column 0).countP Cell.takesPart ≤ n ∧
      ((r.column 0).countP Cell.takesPart = n ↔ ∀ v ∈ t.columnCells c, v.takesPart = true →
        ∃ w, StandsFirst (t.columnCells c) w ∧ w.key = v.key) ∧
      ((∀ v ∈ t.columnCells c, ∀ w ∈ t.columnCells c, v.takesPart = true → v.sortOrder w = .eq →
        v.key = w.key) → (r.column 0).countP Cell.takesPart = n) := by
  obtain ⟨r, hshown, hcells⟩ := execute_distinct htable hcolumn text' as'?
  have hcount := hcells.countP_eq Cell.takesPart
  obtain ⟨hle, hiff⟩ := collected_le_counted (fun i => t.cell i c) (List.range t.rows.length)
  rw [← columnCells_eq_map, ← hcount] at hle hiff
  exact ⟨_, r, execute_countDistinct htable hcolumn text as?, hshown, hle, hiff,
    fun hsame => hiff.mpr (exists_standsFirst hsame)⟩

/-- A number and its text, another text, and cells that take no part. -/
def spelledNumbers : Table :=
  .derived "T" ["A"] [[.number 1], [.text "1"], [.text "x"], [.text "NULL"], [.null]]

def spelledWorld : World :=
  ⟨.ofList [spelledNumbers, .derived "U" ["A"] [[.text "1"], [.text "1.0"]]], .empty, .midnight ⟨2020, 1, 1⟩⟩

theorem distinct_shown_le_counted_spelledNumbers :
    spelledWorld.tables.require "T" = .ok spelledNumbers ∧
    ∃ (n : Nat) (r : ResultSet),
      execute spelledWorld (showing false ⟨.call "COUNT" true [.column none "A"], "COUNT(DISTINCT A)", none⟩ "T" none) =
        .ok ⟨["COUNT(DISTINCT A)"], [[.number (Float.ofNat n)]]⟩ ∧
      execute spelledWorld (showing true ⟨.column none "A", "A", none⟩ "T" none) = .ok r ∧
      (r.column 0).countP Cell.takesPart = n := by
  have htable : spelledWorld.tables.require "T" = .ok spelledNumbers := rfl
  have hcolumn : resolveColumn [spelledNumbers.withAlias none] none "A" = some (0, 0) := by decide +kernel
  obtain ⟨n, r, hcounted, hshown, _, _, hsame⟩ :=
    distinct_shown_le_counted htable hcolumn "COUNT(DISTINCT A)" "A" none none
  exact ⟨htable, n, r, hcounted, hshown, hsame (by decide +kernel)⟩

/-- Two spellings of a number are counted twice and shown once. -/
theorem counted_twice_shown_once :
    execute spelledWorld (showing false ⟨.call "COUNT" true [.column none "A"], "COUNT(DISTINCT A)", none⟩ "U" none) =
      .ok ⟨["COUNT(DISTINCT A)"], [[.number 2]]⟩ ∧
    execute spelledWorld (showing true ⟨.column none "A", "A", none⟩ "U" none) = .ok ⟨["A"], [[.text "1"]]⟩ ∧
    ([.text "1"] : List Cell).countP Cell.takesPart ≠ 2 := by
  refine ⟨?_, ?_, by decide +kernel⟩
  · exact execute_showing (by decide +kernel) (by decide +kernel) (runPlain_of_inOrder (by decide +kernel))
  · exact execute_showing (by decide +kernel) (by decide +kernel) (runPlain_of_inOrder (by decide +kernel))

end GridQuery
