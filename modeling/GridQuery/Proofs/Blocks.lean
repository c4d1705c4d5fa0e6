import Mathlib.Data.List.Forall2
import GridQuery.Proofs.Pointed

/-!
Where the cells of joined rows come from. A row at the end of a chain of joins falls into blocks, one for
each source and as wide as it: a row of the source, or nulls where a join filled up, and not everywhere.
Fields are pointed into the block of their source.
-/

namespace GridQuery
set_option autoImplicit false

/-- A row of a table, or nulls in its place. -/
def Table.Block (t : Table) (block : Row) : Prop :=
  block.length = t.width ∧ (block ∈ t.rows ∨ block = nulls t)

/-- A row falls into a block for each of some sources, in their order. -/
structure Blocks (sources : List Table) (row : Row) (blocks : List Row) : Prop where
  flatten_eq : blocks.flatten = row
  each : List.Forall₂ Table.Block sources blocks
  some_row : ∃ p ∈ sources.zip blocks, p.2 ∈ p.1.rows

theorem Table.Built.block {t : Table} (h : t.Built) {row : Row} (hrow : row ∈ t.rows) : t.Block row :=
  ⟨h.length_row row hrow, Or.inl hrow⟩

theorem Table.block_nulls (t : Table) : t.Block (nulls t) :=
  ⟨nulls_length t, Or.inr rfl⟩

theorem forall₂_nulls (sources : List Table) :
    List.Forall₂ Table.Block sources (sources.map nulls) := by
  rw [List.forall₂_map_right_iff, List.forall₂_same]
  intro t _
  exact t.block_nulls

theorem flatten_nulls (sources : List Table) (count : Nat) :
    ((sources.take count).map nulls).flatten =
      List.replicate (columnsBefore sources count) Cell.null := by
  induction sources generalizing count with
  | nil => cases count <;> rfl
  | cons t sources ih =>
    cases count with
    | zero => rfl
    | succ count =>
      rw [List.take_succ_cons, List.map_cons, List.flatten_cons, ih]
      exact List.replicate_append_replicate

section Rows

variable {sources : List Table} {right : Table} {row block : Row} {blocks : List Row}

theorem blocks_single (hright : right.Built) (hrow : row ∈ right.rows) : Blocks [right] row [row] where
  flatten_eq := by simp
  each := .cons (hright.block hrow) .nil
  some_row := ⟨(right, row), by simp, hrow⟩

theorem Blocks.concat (h : Blocks sources row blocks) (hblock : right.Block block) :
    Blocks (sources ++ [right]) (row ++ block) (blocks ++ [block]) where
  flatten_eq := by
    rw [List.flatten_append, h.flatten_eq, List.flatten_singleton]
  each := List.rel_append h.each (.cons hblock .nil)
  some_row := by
    obtain ⟨p, hp, hrow⟩ := h.some_row
    refine ⟨p, ?_, hrow⟩
    rw [List.zip_append h.each.length_eq]
    exact List.mem_append_left _ hp

theorem blocks_nulls_concat (hright : right.Built) (hrow : row ∈ right.rows) :
    Blocks (sources ++ [right]) ((sources.map nulls).flatten ++ row) (sources.map nulls ++ [row]) where
  flatten_eq := by
    rw [List.flatten_append, List.flatten_singleton]
  each := List.rel_append (forall₂_nulls sources) (.cons (hright.block hrow) .nil)
  some_row := by
    refine ⟨(right, row), ?_, hrow⟩
    rw [List.zip_append (forall₂_nulls sources).length_eq]
    exact List.mem_append_right _ List.mem_cons_self

/-- A join gives every row one block more. -/
theorem JoinedRow.blocks_succ {left : Table} {count : Nat}
    (hleft : ∀ l ∈ left.rows, ∃ blocks, Blocks (sources.take count) l blocks)
    (hwidth : left.width = columnsBefore sources count) (hright : right.Built)
    (h : JoinedRow left right row) :
    ∃ blocks, Blocks (sources.take count ++ [right]) row blocks := by
  cases h with
  | both hl hr =>
    obtain ⟨blocks, hblocks⟩ := hleft _ hl
    exact ⟨_, hblocks.concat (hright.block hr)⟩
  | leftAlone hl =>
    obtain ⟨blocks, hblocks⟩ := hleft _ hl
    exact ⟨_, hblocks.concat right.block_nulls⟩
  | rightAlone hr =>
    have hnulls : nulls left = ((sources.take count).map nulls).flatten := by
      rw [flatten_nulls, ← hwidth]
      rfl
    rw [hnulls]
    exact ⟨_, blocks_nulls_concat hright hr⟩

/-- A column of a source stands in the row behind the blocks before the one of that source. -/
theorem getElem?_flatten_blocks {source : Table} {s c : Nat}
    (h : List.Forall₂ Table.Block sources blocks) (hsource : sources[s]? = some source)
    (hc : c < source.width) : ∃ block, blocks[s]? = some block ∧ c < block.length ∧
      blocks.flatten[columnsBefore sources s + c]? = block[c]? := by
  induction h generalizing s with
  | nil => cases hsource
  | @cons t first sources blocks hfirst _ ih =>
    cases s with
    | zero =>
      cases hsource
      rw [← hfirst.1] at hc
      refine ⟨first, rfl, hc, ?_⟩
      simp only [columnsBefore, Nat.zero_add, List.flatten_cons]
      exact List.getElem?_append_left hc
    | succ s =>
      obtain ⟨block, hblock, hlt, hcell⟩ := ih hsource
      refine ⟨block, hblock, hlt, ?_⟩
      have hoffset : columnsBefore (t :: sources) (s + 1) + c =
          first.length + (columnsBefore sources s + c) := by
        rw [hfirst.1, ← Nat.add_assoc]
        rfl
      rw [hoffset, List.flatten_cons, List.getElem?_append_right (Nat.le_add_right _ _),
        Nat.add_sub_cancel_left, hcell]

end Rows

section Chain

variable {world : World} {depth : Nat} {sources : List Table}

/-- The working table with the first `count` sources in it. -/
structure Joined (sources : List Table) (count : Nat) (t : Table) : Prop where
  built : t.Built
  width_eq : t.width = columnsBefore sources count
  blocks : ∀ row ∈ t.rows, ∃ blocks, Blocks (sources.take count) row blocks

theorem Joined.step (hsources : ∀ source ∈ sources, source.Built) {count : Nat}
    {working right next : Table} {kind : JoinKind} {on : Condition} {memo kept : ResultMemo}
    (hright : sources[count]? = some right) (h : Joined sources count working)
    (hnext : (joinTables world (runnerAt remembered world depth) working right kind on).Gives memo
      next kept) : Joined sources (count + 1) next := by
  obtain ⟨ms, hms, rfl⟩ := joinTables_gives hnext
  have hbuilt : right.Built := hsources right (List.mem_of_getElem? hright)
  have hordered : ms.Ordered working right :=
    (conditionMatches_read hbuilt ((repeatable_conditionMatches world depth working right on).again
      hms (.refl kept))).toOrdered
  constructor
  · exact .withSchema _ _ _ _
  · rw [joinedTable_width, columnsBefore_succ hright, h.width_eq]
  · intro row hrow
    have hsplit := joinedRow_of_mem_joinedTable h.built hbuilt hordered.between hrow
    rw [List.take_add_one, hright]
    exact hsplit.blocks_succ h.blocks h.width_eq hbuilt

end Chain

/-- After a chain of joins every row falls into a block for each source, and a field of column `c` of source
`s` is pointed at a place whose cell, in every row, is cell `c` of block `s`. -/
theorem joinFrom_blocks {world : World} {depth : Nat} {first t : Table} {others : List Table}
    {joins : List JoinClause} {fields pointed : Fields} {memo kept : ResultMemo}
    (hsources : ∀ source ∈ chainSources first joins others, source.Built ∧ source.Named)
    (hfields : Fields.Made (chainSources first joins others) fields)
    (h : (joinFrom world (runnerAt remembered world depth) 1 first fields joins others).Gives memo
      (t, pointed) kept) :
    (∀ row ∈ t.rows, ∃ blocks, Blocks (chainSources first joins others) row blocks) ∧
    ∀ f ∈ pointed, ∀ {s c : Nat}, f.kind = .column s c →
      f.physical? = some (columnsBefore (chainSources first joins others) s + c) ∧
      ∀ {id : Nat} {row : Row} {blocks : List Row}, t.rows[id]? = some row →
        Blocks (chainSources first joins others) row blocks →
        ∃ block, blocks[s]? = some block ∧ block[c]? =
          some (t.cell id (columnsBefore (chainSources first joins others) s + c)) := by
  have hfirst : first.Built := (hsources first List.mem_cons_self).1
  have hstart : Joined (chainSources first joins others) 1 first := by
    refine ⟨hfirst, by simp [chainSources, columnsBefore], ?_⟩
    intro row hrow
    exact ⟨[row], blocks_single hfirst hrow⟩
  constructor
  · obtain ⟨last, hlast, hjoined⟩ := joinFrom_invariant (chainSources first joins others)
      (fun count working _ => Joined (chainSources first joins others) count working)
      (fun hright hworking hnext =>
        hworking.step (fun source hs => (hsources source hs).1) hright hnext)
      rfl hstart h
    have hblocks := hjoined.blocks
    rwa [List.take_of_length_le hlast] at hblocks
  · intro f hf s c hkind
    obtain ⟨source, hsource, hcolumn, hphysical⟩ := joinFrom_pointed hfields h f hf hkind
    refine ⟨hphysical, ?_⟩
    intro id row blocks hrow hblocks
    have hc := hcolumn (hsources source (List.mem_of_getElem? hsource)).2
    obtain ⟨block, hblock, hlt, hcell⟩ := getElem?_flatten_blocks hblocks.each hsource hc
    refine ⟨block, hblock, ?_⟩
    rw [hblocks.flatten_eq, List.getElem?_eq_getElem hlt] at hcell
    unfold Table.cell
    rw [hrow, Option.bind_some, hcell, List.getElem?_eq_getElem hlt]
    rfl

/-- A full and a left join; the tables share a title, and each has a row without a match. -/
theorem joinFrom_blocks_threeTables :
    let first := Table.derived "T" ["A"] [[.text "x"], [.text "y"]]
    let others := [Table.derived "U" ["A", "B"] [[.text "y", .number 1], [.text "z", .null]],
      Table.derived "V" ["B"] [[.number 2], [.number 1]]]
    let joins : List JoinClause :=
      [⟨.full, .table "U" none, .compare .eq (.column (some "T") "A") (.column (some "U") "A")⟩,
        ⟨.left, .table "V" none, .compare .eq (.column (some "U") "B") (.column (some "V") "B")⟩]
    let sources := chainSources first joins others
    (∀ source ∈ sources, source.Built ∧ source.Named) ∧
    ∃ (fields pointed : Fields) (t : Table) (kept : ResultMemo), Fields.Made sources fields ∧
      (joinFrom emptyWorld (runnerAt remembered emptyWorld 0) 1 first fields joins others).Gives []
        (t, pointed) kept ∧
      t.rows = [[.text "x", .null, .null, .null], [.text "y", .text "y", .number 1, .number 1],
        [.null, .text "z", .null, .null]] ∧
      (∀ row ∈ t.rows, ∃ blocks, Blocks sources row blocks) ∧
      pointed.map Field.physical? = [some 2] := by
  intro first others joins sources
  have hsources : ∀ source ∈ sources, source.Built ∧ source.Named := by
    intro source hsource
    simp only [sources, chainSources, others, joins, first, List.length_cons, List.length_nil,
      List.take_succ_cons, List.take_nil, List.mem_cons, List.not_mem_nil, or_false] at hsource
    rcases hsource with rfl | rfl | rfl
    all_goals exact ⟨.withSchema _ _ _ _, Table.derived_named _ _ _⟩
  refine ⟨hsources, ?_⟩
  have hall : ((Fields.ofSelect sources [⟨.column (some "U") "B", "B", none⟩]).bind fun fields =>
      ((joinFrom emptyWorld (runnerAt remembered emptyWorld 0) 1 first fields joins others).run
        []).1.map fun made => (made.1.rows, made.2.map Field.physical?)) =
      .ok ([[.text "x", .null, .null, .null], [.text "y", .text "y", .number 1, .number 1],
        [.null, .text "z", .null, .null]], [some 2]) := by
    decide +kernel
  obtain ⟨fields, hfields, hall⟩ := bind_eq_ok.mp hall
  rcases hrun : (joinFrom emptyWorld (runnerAt remembered emptyWorld 0) 1 first fields joins
    others).run [] with ⟨e | ⟨t, pointed⟩, kept⟩
  · rw [hrun] at hall
    cases hall
  · rw [hrun] at hall
    obtain ⟨hrows, hphysical⟩ := Prod.mk.inj (Except.ok.inj hall)
    have hmade : Fields.Made sources fields := .ofSelect hfields
    exact ⟨fields, pointed, t, kept, hmade, hrun, hrows, (joinFrom_blocks hsources hmade hrun).1,
      hphysical⟩

end GridQuery
