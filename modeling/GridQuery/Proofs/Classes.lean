import Mathlib.Data.List.Forall2
import GridQuery.Proofs.SortOrder

/-!
Grouping as partition. Rows whose key cells are equal in the order of sorting form a class; grouping
sorts the rows by their keys and cuts them into runs, and the runs are the classes, because the sort
is stable and its comparison is a total preorder on rows that have the keys. So each class gives one
row, and the classes ascend.
-/

namespace GridQuery
set_option autoImplicit false

/-- The key cells of two rows are equal in the order of sorting, pair by pair. -/
def sameKeys (keys : List Nat) (a b : Row) : Bool :=
  keys.all fun k =>
    match a[k]?, b[k]? with
    | some x, some y => x.sortOrder y == .eq
    | _, _ => false

section Compared

variable {keys : List Nat} {a b c : Row}

theorem sameKeys_eq_true (ha : Keyed keys a) (hb : Keyed keys b) :
    sameKeys keys a b = true ↔ compareKeys a b keys = .eq := by
  induction keys with
  | nil => exact ⟨fun _ => rfl, fun _ => rfl⟩
  | cons k keys ih =>
    have hka : k < a.length := ha k List.mem_cons_self
    have hkb : k < b.length := hb k List.mem_cons_self
    have hrest := ih (fun i hi => ha i (List.mem_cons_of_mem k hi))
      fun i hi => hb i (List.mem_cons_of_mem k hi)
    have hcell : (match a[k]?, b[k]? with
        | some x, some y => x.sortOrder y == .eq
        | _, _ => false) = (compareSlot a b k == .eq) := by
      simp only [compareSlot, List.getElem?_eq_getElem hka, List.getElem?_eq_getElem hkb]
    have hsplit : sameKeys (k :: keys) a b = ((compareSlot a b k == .eq) && sameKeys keys a b) := by
      rw [← hcell]
      rfl
    rw [hsplit, Bool.and_eq_true, hrest, beq_iff_eq, compareKeys, Ordering.then_eq_eq]

/-- Comparison by keys is a total preorder on the rows that have them. -/
theorem keyed_transCmp (keys : List Nat) :
    Std.TransCmp fun a b : KeyedRow keys => compareKeys a b keys :=
  compareKeys_transCmp keys fun _ h => h

theorem compareKeys_self (ha : Keyed keys a) : compareKeys a a keys = .eq := by
  have hswap := (keyed_transCmp keys).eq_swap (a := ⟨a, ha⟩) (b := ⟨a, ha⟩)
  exact Ordering.eq_eq_of_eq_swap hswap

theorem compareKeys_congr (ha : Keyed keys a) (hb : Keyed keys b) (hc : Keyed keys c)
    (h : compareKeys a b keys = .eq) : compareKeys a c keys = compareKeys b c keys :=
  @Std.TransCmp.congr_left _ _ (keyed_transCmp keys) ⟨a, ha⟩ ⟨b, hb⟩ ⟨c, hc⟩ h

theorem compareKeys_lt_of_lt_of_le (ha : Keyed keys a) (hb : Keyed keys b) (hc : Keyed keys c)
    (hab : compareKeys a b keys = .lt) (hbc : compareKeys b c keys ≠ .gt) :
    compareKeys a c keys = .lt :=
  @Std.TransCmp.lt_of_lt_of_isLE _ _ (keyed_transCmp keys) ⟨a, ha⟩ ⟨b, hb⟩ ⟨c, hc⟩ hab
    (Ordering.isLE_iff_ne_gt.mpr hbc)

end Compared

/-- A stable sort leaves the items of a class, which are all as good as each other, in their order. -/
theorem filter_mergeSort {α : Type} {le : α → α → Bool} {p : α → Bool}
    (htrans : ∀ a b c, le a b = true → le b c = true → le a c = true)
    (htotal : ∀ a b, (le a b || le b a) = true)
    (hclass : ∀ a b, p a = true → p b = true → le a b = true) (items : List α) :
    (items.mergeSort le).filter p = items.filter p := by
  have hpairs : (items.filter p).Pairwise fun a b => le a b = true := by
    apply List.pairwise_of_forall_mem_list
    intro a ha b hb
    exact hclass a b (List.mem_filter.mp ha).2 (List.mem_filter.mp hb).2
  have hsorted : (items.filter p).Sublist (items.mergeSort le) :=
    List.sublist_mergeSort htrans htotal hpairs List.filter_sublist
  have hinside : (items.filter p).Sublist ((items.mergeSort le).filter p) := by
    have hfilter := hsorted.filter p
    rwa [List.filter_filter, funext fun a => Bool.and_self (p a)] at hfilter
  have hlength : (items.filter p).length = ((items.mergeSort le).filter p).length :=
    ((List.mergeSort_perm items le).filter p).length_eq.symm
  exact (hinside.eq_of_length hlength).symm

/-! ### Sorting rows on which a comparison is a total preorder -/

section Sorted

variable {P : Row → Prop} (cmp : Row → Row → Ordering) {rows : List Row}

/-- Rows of a kind are sorted as rows of the type that says so, where the comparison is a total preorder
everywhere. -/
theorem mergeSort_eq_map (hrows : ∀ row ∈ rows, P row) :
    (rows.mergeSort fun a b => cmp a b != .gt) = ((rows.attachWith P hrows).mergeSort fun a b =>
      cmp a.1 b.1 != .gt).map Subtype.val := by
  have hmap := List.map_mergeSort (r := fun a b : Subtype P => cmp a.1 b.1 != .gt)
    (s := fun a b => cmp a b != .gt) (f := Subtype.val)
    (l := rows.attachWith P hrows) fun _ _ _ _ => rfl
  rw [hmap, List.attachWith_map_subtype_val]

variable (hcmp : Std.TransCmp fun a b : Subtype P => cmp a b)

include hcmp

theorem le_trans_of_transCmp (a b c : Subtype P) (hab : (cmp a.1 b.1 != .gt) = true)
    (hbc : (cmp b.1 c.1 != .gt) = true) : (cmp a.1 c.1 != .gt) = true := by
  rw [bne_iff_ne, ne_eq, ← Ordering.isLE_iff_ne_gt] at hab hbc ⊢
  exact hcmp.isLE_trans hab hbc

theorem le_total_of_transCmp (a b : Subtype P) :
    (cmp a.1 b.1 != .gt || cmp b.1 a.1 != .gt) = true := by
  have hswap := hcmp.eq_swap (a := a) (b := b)
  rw [hswap]
  cases cmp b.1 a.1 <;> rfl

theorem mergeSort_pairwise (hrows : ∀ row ∈ rows, P row) :
    (rows.mergeSort fun a b => cmp a b != .gt).Pairwise fun a b => cmp a b ≠ .gt := by
  rw [mergeSort_eq_map cmp hrows, List.pairwise_map]
  have hsorted := List.pairwise_mergeSort (le_trans_of_transCmp cmp hcmp) (le_total_of_transCmp cmp hcmp)
    (rows.attachWith P hrows)
  exact hsorted.imp fun h => bne_iff_ne.mp h

/-- Sorting keeps the rows that compare equal to one in the order they came. -/
theorem filter_eq_mergeSort (hrows : ∀ row ∈ rows, P row) {row : Row} (hrow : P row) :
    ((rows.mergeSort fun a b => cmp a b != .gt).filter fun r => cmp row r = .eq) =
      rows.filter fun r => cmp row r = .eq := by
  have hclass (a b : Subtype P) (ha : decide (cmp row a.1 = .eq) = true)
      (hb : decide (cmp row b.1 = .eq) = true) : (cmp a.1 b.1 != .gt) = true := by
    have hsame := hcmp.congr_left (a := ⟨row, hrow⟩) (b := a) (c := b) (of_decide_eq_true ha)
    rw [← hsame, of_decide_eq_true hb]
    rfl
  rw [mergeSort_eq_map cmp hrows, List.filter_map]
  have hstable := filter_mergeSort (p := (fun r => decide (cmp row r = .eq)) ∘ Subtype.val)
    (le_trans_of_transCmp cmp hcmp) (le_total_of_transCmp cmp hcmp) hclass (rows.attachWith P hrows)
  rw [hstable, ← List.filter_map, List.attachWith_map_subtype_val]

end Sorted

section ByKeys

variable {keys : List Nat} {rows : List Row}

theorem sortByKeys_perm (keys : List Nat) (rows : List Row) : (sortByKeys keys rows).Perm rows :=
  List.mergeSort_perm rows _

theorem sortByKeys_pairwise (hrows : ∀ row ∈ rows, Keyed keys row) :
    (sortByKeys keys rows).Pairwise fun a b => compareKeys a b keys ≠ .gt :=
  mergeSort_pairwise (fun a b => compareKeys a b keys) (keyed_transCmp keys) hrows

/-- Sorting keeps the rows of a class in the order they came. -/
theorem filter_sortByKeys (hrows : ∀ row ∈ rows, Keyed keys row) {row : Row} (hrow : Keyed keys row) :
    (sortByKeys keys rows).filter (sameKeys keys row) = rows.filter (sameKeys keys row) := by
  have hclass {some : List Row} (hsome : ∀ r ∈ some, Keyed keys r) :
      some.filter (sameKeys keys row) = some.filter fun r => compareKeys row r keys = .eq := by
    refine List.filter_congr fun r hr => ?_
    rw [Bool.eq_iff_iff, sameKeys_eq_true hrow (hsome r hr), decide_eq_true_iff]
  rw [hclass hrows, hclass fun r hr => hrows r ((sortByKeys_perm keys rows).mem_iff.mp hr)]
  exact filter_eq_mergeSort (fun a b => compareKeys a b keys) (keyed_transCmp keys) hrows hrow

end ByKeys

section Runs

variable {keys : List Nat}

/-- Cutting into runs loses no row and keeps their order. -/
theorem runs_flatten (keys : List Nat) (rows : List Row) : (runs keys rows).flatten = rows := by
  induction rows using runs.induct keys with
  | case1 => rw [runs, List.flatten_nil]
  | case2 row rest ih =>
    rw [runs, List.flatten_cons, ih, List.cons_append, List.takeWhile_append_dropWhile]

/-- A run begins with a row, and the others have its keys. -/
theorem runs_eq_cons {rows run : List Row} (h : run ∈ runs keys rows) :
    ∃ row rest, run = row :: rest ∧ ∀ r ∈ rest, compareKeys row r keys = .eq := by
  induction rows using runs.induct keys with
  | case1 =>
    rw [runs] at h
    cases h
  | case2 row rest ih =>
    rw [runs] at h
    rcases List.mem_cons.mp h with rfl | h
    · refine ⟨row, _, rfl, ?_⟩
      intro r hr
      exact of_decide_eq_true (List.all_eq_true.mp List.all_takeWhile r hr)
    · exact ih h

theorem mem_of_mem_runs {rows run : List Row} (h : run ∈ runs keys rows) {row : Row}
    (hrow : row ∈ run) : row ∈ rows := by
  rw [← runs_flatten keys rows]
  exact List.mem_flatten.mpr ⟨run, h, hrow⟩

/-- Behind the first run of sorted rows all keys are greater. -/
theorem lt_of_mem_dropWhile {row : Row} {rest : List Row}
    (hkeyed : ∀ r ∈ row :: rest, Keyed keys r)
    (hsorted : (row :: rest).Pairwise fun a b => compareKeys a b keys ≠ .gt) {r : Row}
    (hr : r ∈ rest.dropWhile fun r => compareKeys row r keys = .eq) :
    compareKeys row r keys = .lt := by
  obtain ⟨hfirst, hrest⟩ := List.pairwise_cons.mp hsorted
  have hsuffix := List.dropWhile_suffix (fun r => decide (compareKeys row r keys = .eq)) (l := rest)
  cases hdrop : rest.dropWhile fun r => compareKeys row r keys = .eq with
  | nil =>
    rw [hdrop] at hr
    cases hr
  | cons d others =>
    rw [hdrop] at hr hsuffix
    have hd : d ∈ rest := hsuffix.subset List.mem_cons_self
    have hne : compareKeys row d keys ≠ .eq := by
      have hhead := List.head?_dropWhile_not (fun r => decide (compareKeys row r keys = .eq)) rest
      rw [hdrop] at hhead
      exact of_decide_eq_false hhead
    have hlt : compareKeys row d keys = .lt := by
      have hle := hfirst d hd
      cases ho : compareKeys row d keys with
      | lt => rfl
      | eq => exact absurd ho hne
      | gt => exact absurd ho hle
    rcases List.mem_cons.mp hr with rfl | hr
    · exact hlt
    · have hdr : compareKeys d r keys ≠ .gt :=
        (List.pairwise_cons.mp (hrest.sublist hsuffix.sublist)).1 r hr
      have hin : r ∈ rest := hsuffix.subset (List.mem_cons_of_mem d hr)
      exact compareKeys_lt_of_lt_of_le (hkeyed row List.mem_cons_self)
        (hkeyed d (List.mem_cons_of_mem row hd)) (hkeyed r (List.mem_cons_of_mem row hin)) hlt hdr

/-- The runs of sorted rows ascend. -/
theorem runs_pairwise {rows : List Row} (hkeyed : ∀ r ∈ rows, Keyed keys r)
    (hsorted : rows.Pairwise fun a b => compareKeys a b keys ≠ .gt) :
    (runs keys rows).Pairwise fun a b => ∀ x ∈ a, ∀ y ∈ b, compareKeys x y keys = .lt := by
  induction rows using runs.induct keys with
  | case1 =>
    rw [runs]
    exact List.Pairwise.nil
  | case2 row rest ih =>
    have hsuffix := List.dropWhile_suffix (fun r => decide (compareKeys row r keys = .eq)) (l := rest)
    have hrow : Keyed keys row := hkeyed row List.mem_cons_self
    have hrest {r : Row} (hr : r ∈ rest) : Keyed keys r := hkeyed r (List.mem_cons_of_mem row hr)
    rw [runs]
    apply List.Pairwise.cons
    · intro later hlater x hx y hy
      have hbehind := mem_of_mem_runs hlater hy
      have hlt := lt_of_mem_dropWhile hkeyed hsorted hbehind
      rcases List.mem_cons.mp hx with rfl | hx
      · exact hlt
      · have hsame : compareKeys row x keys = .eq := 
          of_decide_eq_true (List.all_eq_true.mp List.all_takeWhile x hx)
        have hin : x ∈ rest := (List.takeWhile_prefix _).subset hx
        rw [← compareKeys_congr hrow (hrest hin) (hrest (hsuffix.subset hbehind)) hsame]
        exact hlt
    · apply ih
      · intro r hr
        exact hrest (hsuffix.subset hr)
      · exact (List.pairwise_cons.mp hsorted).2.sublist hsuffix.sublist

theorem sameKeys_of_mem_run {rows run : List Row} (hkeyed : ∀ r ∈ rows, Keyed keys r)
    (hrun : run ∈ runs keys rows) {row r : Row} (hrow : row ∈ run) (hr : r ∈ run) :
    sameKeys keys row r = true := by
  obtain ⟨first, rest, rfl, hrest⟩ := runs_eq_cons hrun
  have hkeys {x : Row} (hx : x ∈ first :: rest) : Keyed keys x := hkeyed x (mem_of_mem_runs hrun hx)
  have hfirst : Keyed keys first := hkeys List.mem_cons_self
  have hsame {x : Row} (hx : x ∈ first :: rest) : compareKeys first x keys = .eq := by
    rcases List.mem_cons.mp hx with rfl | hx
    · exact compareKeys_self hfirst
    · exact hrest x hx
  rw [sameKeys_eq_true (hkeys hrow) (hkeys hr),
    ← compareKeys_congr hfirst (hkeys hrow) (hkeys hr) (hsame hrow)]
  exact hsame hr

theorem sameKeys_of_lt {a b : Row} (ha : Keyed keys a) (hb : Keyed keys b)
    (h : compareKeys a b keys = .lt) : sameKeys keys a b = false ∧ sameKeys keys b a = false := by
  have hswap := (keyed_transCmp keys).eq_swap (a := ⟨b, hb⟩) (b := ⟨a, ha⟩)
  rw [h] at hswap
  constructor
  · rw [Bool.eq_false_iff, ne_eq, sameKeys_eq_true ha hb, h]
    decide
  · rw [Bool.eq_false_iff, ne_eq, sameKeys_eq_true hb ha]
    exact fun he => by rw [he] at hswap; cases hswap

/-- A run of sorted rows has all of them that have its keys. -/
theorem runs_eq_filter {rows : List Row} (hkeyed : ∀ r ∈ rows, Keyed keys r)
    (hsorted : rows.Pairwise fun a b => compareKeys a b keys ≠ .gt) {run : List Row}
    (hrun : run ∈ runs keys rows) {row : Row} (hrow : row ∈ run) :
    rows.filter (sameKeys keys row) = run := by
  have hkeys {other : List Row} (hother : other ∈ runs keys rows) {x : Row} (hx : x ∈ other) :
      Keyed keys x := hkeyed x (mem_of_mem_runs hother hx)
  obtain ⟨before, after, hsplit⟩ := List.append_of_mem hrun
  have hascend := runs_pairwise hkeyed hsorted
  rw [hsplit, List.pairwise_append, List.pairwise_cons] at hascend
  obtain ⟨_, ⟨hafter, _⟩, hbefore⟩ := hascend
  have hbeforeNil : before.flatten.filter (sameKeys keys row) = [] := by
    apply List.filter_eq_nil_iff.mpr
    intro x hx
    obtain ⟨other, hother, hx⟩ := List.mem_flatten.mp hx
    have hin : other ∈ runs keys rows := by
      rw [hsplit]
      exact List.mem_append_left _ hother
    have hlt := hbefore other hother run List.mem_cons_self x hx row hrow
    rw [(sameKeys_of_lt (hkeys hin hx) (hkeys hrun hrow) hlt).2]
    exact Bool.false_ne_true
  have hafterNil : after.flatten.filter (sameKeys keys row) = [] := by
    apply List.filter_eq_nil_iff.mpr
    intro x hx
    obtain ⟨other, hother, hx⟩ := List.mem_flatten.mp hx
    have hin : other ∈ runs keys rows := by
      rw [hsplit]
      exact List.mem_append_right _ (List.mem_cons_of_mem run hother)
    have hlt := hafter other hother row hrow x hx
    rw [(sameKeys_of_lt (hkeys hrun hrow) (hkeys hin hx) hlt).1]
    exact Bool.false_ne_true
  have hrunSelf : run.filter (sameKeys keys row) = run :=
    List.filter_eq_self.mpr fun x hx => sameKeys_of_mem_run hkeyed hrun hrow hx
  calc rows.filter (sameKeys keys row)
      = (runs keys rows).flatten.filter (sameKeys keys row) := by rw [runs_flatten]
    _ = run := by
      rw [hsplit, List.flatten_append, List.flatten_cons, List.filter_append, List.filter_append,
        hbeforeNil, hafterNil, hrunSelf, List.nil_append, List.append_nil]

end Runs

section Folded

variable {fields : Fields}

/-- A row that a class of rows becomes: plain cells are those of the first row of the class, and the
cells of aggregates are folded over the class in its order. -/
structure FoldsTo (fields : Fields) (rows : List Row) (out : Row) : Prop where
  length_eq : out.length = fields.length
  plain : ∀ {slot : Nat} {f : Field}, fields[slot]? = some f → f.aggregate = none →
    out[slot]? = rows.head?.bind fun first => first[slot]?
  folded : ∀ {slot : Nat} {f : Field} {a : Aggregate}, fields[slot]? = some f →
    f.aggregate = some a → out[slot]? = some (a.fold (slotCells rows slot))

theorem getElem?_compress (fields : Fields) (first : Row) (rest : List Row) (slot : Nat) :
    (compress fields (first :: rest))[slot]? =
      first[slot]?.map fun c => foldedCell fields (first :: rest) c slot := by
  unfold compress
  rw [List.getElem?_map, List.getElem?_zipIdx, Option.map_map]
  simp only [List.head?_cons, Option.getD_some, Nat.zero_add]
  rfl

theorem compress_foldsTo {first : Row} {rest : List Row} (h : first.length = fields.length) :
    FoldsTo fields (first :: rest) (compress fields (first :: rest)) := by
  constructor
  · unfold compress
    rw [List.length_map, List.length_zipIdx]
    exact h
  · intro slot f hf hplain
    rw [getElem?_compress]
    unfold foldedCell
    rw [hf]
    simp only [Option.bind_some, hplain, List.head?_cons]
    exact Option.map_id'
  · intro slot f a hf hfolded
    have hslot : slot < first.length := by
      rw [h]
      exact (List.getElem?_eq_some_iff.mp hf).1
    rw [getElem?_compress, List.getElem?_eq_getElem hslot]
    unfold foldedCell
    rw [hf]
    simp only [Option.bind_some, hfolded, Option.map_some]

end Folded

theorem mem_runs_foldsTo {fields : Fields} {keys : List Nat} {rows run : List Row}
    (hrows : ∀ row ∈ rows, row.length = fields.length) (hrun : run ∈ runs keys rows) :
    FoldsTo fields run (compress fields run) := by
  obtain ⟨first, rest, rfl, _⟩ := runs_eq_cons hrun
  exact compress_foldsTo (hrows first (mem_of_mem_runs hrun List.mem_cons_self))

/-- Grouping by keys gives one row for each class of rows with the same keys, folded from the rows of the
class in the order they came. The classes ascend, and every row is in one of them, once. -/
theorem grouped_foldsTo_classes {fields : Fields} {keys : List Nat} {rows : List Row}
    (hkeys : keys ≠ []) (hslots : ∀ k ∈ keys, k < fields.length)
    (hrows : ∀ row ∈ rows, row.length = fields.length) :
    ∃ classes : List (List Row),
      List.Forall₂ (FoldsTo fields) classes (grouped fields keys false rows) ∧
      (∀ c ∈ classes, ∃ row ∈ c, c = rows.filter (sameKeys keys row)) ∧
      (classes.Pairwise fun c d => ∀ x ∈ c, ∀ y ∈ d, compareKeys x y keys = .lt) ∧
      classes.flatten.Perm rows := by
  have hgrouped : grouped fields keys false rows =
      (runs keys (sortByKeys keys rows)).map (compress fields) := by
    have hempty : keys.isEmpty = false := by simpa using hkeys
    simp only [grouped, groupBy, hempty, Bool.false_and, Bool.false_eq_true, if_false]
  have hkeyed : ∀ row ∈ rows, Keyed keys row := by
    intro row hrow k hk
    rw [hrows row hrow]
    exact hslots k hk
  have hperm := sortByKeys_perm keys rows
  have hsortedKeyed : ∀ row ∈ sortByKeys keys rows, Keyed keys row :=
    fun row hrow => hkeyed row (hperm.mem_iff.mp hrow)
  have hsortedRows : ∀ row ∈ sortByKeys keys rows, row.length = fields.length :=
    fun row hrow => hrows row (hperm.mem_iff.mp hrow)
  have hsorted := sortByKeys_pairwise hkeyed
  refine ⟨runs keys (sortByKeys keys rows), ?_, ?_, ?_, ?_⟩
  · rw [hgrouped, List.forall₂_map_right_iff, List.forall₂_same]
    intro run hrun
    exact mem_runs_foldsTo hsortedRows hrun
  · intro run hrun
    obtain ⟨first, rest, hcons, _⟩ := runs_eq_cons hrun
    have hfirst : first ∈ run := by
      rw [hcons]
      exact List.mem_cons_self
    refine ⟨first, hfirst, ?_⟩
    rw [← filter_sortByKeys hkeyed (hsortedKeyed first (mem_of_mem_runs hrun hfirst)),
      runs_eq_filter hsortedKeyed hsorted hrun hfirst]
  · exact runs_pairwise hsortedKeyed hsorted
  · rw [runs_flatten]
    exact hperm

/-- The text of a number and the number are in one class. -/
theorem grouped_foldsTo_classes_nine :
    let fields : Fields := [.ofKind (.column 0 0) "A",
      { Field.ofKind (.column 0 1) "N" with aggregate := some ⟨.count, false⟩ }]
    let rows : List Row :=
      [[.text "10", .text "x"], [.text "9", .text "y"], [.number 9, .text "z"]]
    [0] ≠ [] ∧ (∀ k ∈ [0], k < fields.length) ∧ (∀ row ∈ rows, row.length = fields.length) ∧
    sameKeys [0] [.text "9", .text "y"] [.number 9, .text "z"] = true ∧
    ∃ classes : List (List Row),
      List.Forall₂ (FoldsTo fields) classes (grouped fields [0] false rows) ∧
      (∀ c ∈ classes, ∃ row ∈ c, c = rows.filter (sameKeys [0] row)) ∧
      (classes.Pairwise fun c d => ∀ x ∈ c, ∀ y ∈ d, compareKeys x y [0] = .lt) ∧
      classes.flatten.Perm rows := by
  intro fields rows
  have hkeys : [0] ≠ ([] : List Nat) := by decide
  have hslots : ∀ k ∈ [0], k < fields.length := by decide
  have hrows : ∀ row ∈ rows, row.length = fields.length := by decide
  exact ⟨hkeys, hslots, hrows, by decide +kernel, grouped_foldsTo_classes hkeys hslots hrows⟩

end GridQuery
