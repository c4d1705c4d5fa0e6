import GridQuery.Query

/-!
The order of sorting and grouping. Cells are compared through their sort keys, and two sort keys as
three values one after another, so the comparison is a total preorder whatever a text reads as. Rows
inherit it slot by slot, in either direction, as long as they have a cell in every slot.
-/

namespace GridQuery
set_option autoImplicit false

theorem transCmp_comap {α β : Type} {cmp : β → β → Ordering} (h : Std.TransCmp cmp) (f : α → β) :
    Std.TransCmp fun a b => cmp (f a) (f b) where
  eq_swap := h.eq_swap
  isLE_trans := h.isLE_trans

theorem transCmp_swap {α : Type} {cmp : α → α → Ordering} (h : Std.TransCmp cmp) :
    Std.TransCmp fun a b => (cmp a b).swap where
  eq_swap := by
    intro a b
    rw [h.eq_swap (a := a) (b := b)]
  isLE_trans := by
    intro a b c hab hbc
    rw [← h.eq_swap] at hab hbc ⊢
    exact h.isLE_trans hbc hab

namespace Number

/-- The place in the total order is the numeric one, one further down for a negative double. -/
theorem totalRank_of_rank? {x : Float} {i : Int} (h : rank? x = some i) :
    (isNegative x = true ∧ i ≤ 0 ∧ totalRank x = i - 1) ∨
      (isNegative x = false ∧ 0 ≤ i ∧ totalRank x = i) := by
  have hmagnitude : 0 ≤ Int.ofNat (x.toBits.toNat % twoPow 63) := Int.natCast_nonneg _
  unfold rank? at h
  unfold totalRank
  cases hparts : parts x with
  | notANumber =>
    rw [hparts] at h
    cases h
  | infinite | finite =>
    rw [hparts] at h
    have hrank := Option.some.inj h
    cases hnegative : isNegative x with
    | true =>
      simp only [hnegative, if_true] at hrank ⊢
      left
      exact ⟨trivial, by omega, by omega⟩
    | false =>
      simp only [hnegative, Bool.false_eq_true, if_false] at hrank ⊢
      right
      exact ⟨trivial, by omega, by omega⟩

theorem compare_congr {a b c d : Int} (hlt : a < b ↔ c < d) (heq : a = b ↔ c = d) :
    compare a b = compare c d := by
  rcases Int.lt_trichotomy a b with h | h | h
  · rw [Int.compare_eq_lt.mpr h, Int.compare_eq_lt.mpr (hlt.mp h)]
  · rw [Int.compare_eq_eq.mpr h, Int.compare_eq_eq.mpr (heq.mp h)]
  · have hcd : d < c := by omega
    rw [Int.compare_eq_gt.mpr h, Int.compare_eq_gt.mpr hcd]

/-- Doubles that compare stand in their numeric order, and of equal ones the negative stands first. -/
theorem compare_totalRank {x y : Float} {o : Ordering} (h : order? x y = some o) :
    compare (totalRank x) (totalRank y) = o.then (compare (isNegative y) (isNegative x)) := by
  unfold order? at h
  cases hx : rank? x with
  | none =>
    rw [hx] at h
    cases h
  | some i =>
    cases hy : rank? y with
    | none =>
      rw [hx, hy] at h
      cases h
    | some j =>
      rw [hx, hy] at h
      obtain rfl := Option.some.inj h
      rcases totalRank_of_rank? hx with ⟨hsignx, hi, hrankx⟩ | ⟨hsignx, hi, hrankx⟩
      · rcases totalRank_of_rank? hy with ⟨hsigny, hj, hranky⟩ | ⟨hsigny, hj, hranky⟩
        · rw [hsignx, hsigny, hrankx, hranky, compare_congr (c := i) (d := j) (by omega) (by omega)]
          exact Ordering.then_eq.symm
        · have hlt : totalRank x < totalRank y := by omega
          have hle : i < j ∨ i = j := by omega
          rw [Int.compare_eq_lt.mpr hlt, hsignx, hsigny]
          rcases hle with hij | hij
          · rw [Int.compare_eq_lt.mpr hij]
            rfl
          · rw [Int.compare_eq_eq.mpr hij]
            rfl
      · rcases totalRank_of_rank? hy with ⟨hsigny, hj, hranky⟩ | ⟨hsigny, hj, hranky⟩
        · have hgt : totalRank y < totalRank x := by omega
          have hge : j < i ∨ i = j := by omega
          rw [Int.compare_eq_gt.mpr hgt, hsignx, hsigny]
          rcases hge with hij | hij
          · rw [Int.compare_eq_gt.mpr hij]
            rfl
          · rw [Int.compare_eq_eq.mpr hij]
            rfl
        · rw [hsignx, hsigny, hrankx, hranky]
          exact Ordering.then_eq.symm

end Number

namespace Cell

namespace SortKey

/-- Where a key stands among those of its class, as far as a number says so. -/
def place : SortKey → Int
  | boolean b => b.toNat
  | number rank => rank
  | date stamp => stamp
  | null | text _ => 0

def word : SortKey → String
  | text s => s
  | null | boolean _ | number _ | date _ => ""

theorem order_eq_compareLex :
    order = compareLex (compareOn rank) (compareLex (compareOn place) (compareOn word)) := by
  funext a b
  cases a with
  | null => cases b <;> rfl
  | boolean x =>
    cases b with
    | boolean y => cases x <;> cases y <;> rfl
    | null | number | date | text => rfl
  | number x =>
    cases b with
    | number y => simp [order, compareLex, compareOn, rank, place, word]
    | null | boolean | date | text => rfl
  | date x =>
    cases b with
    | date y => simp [order, compareLex, compareOn, rank, place, word]
    | null | boolean | number | text => rfl
  | text x =>
    cases b with
    | text y => simp [order, compareLex, compareOn, rank, place, word]
    | null | boolean | number | date => rfl

theorem order_transCmp : Std.TransCmp order := by
  rw [order_eq_compareLex]
  infer_instance

end SortKey

theorem sortOrder_transCmp : Std.TransCmp sortOrder :=
  transCmp_comap SortKey.order_transCmp sortKey

end Cell

/-- A row with a cell in each of some slots. -/
def Keyed (slots : List Nat) (row : Row) : Prop :=
  ∀ slot ∈ slots, slot < row.length

abbrev KeyedRow (slots : List Nat) : Type :=
  {row : Row // Keyed slots row}

section Rows

variable {P : Row → Prop}

theorem compareSlot_eq {a b : Row} {slot : Nat} (ha : slot < a.length) (hb : slot < b.length) :
    compareSlot a b slot = a[slot].sortOrder b[slot] := by
  simp [compareSlot, ha, hb]

theorem compareSlot_transCmp {slot : Nat} (h : ∀ row, P row → slot < row.length) :
    Std.TransCmp fun a b : Subtype P => compareSlot a b slot := by
  have hcells : (fun a b : Subtype P => compareSlot a b slot) =
      fun a b => (a.1.get ⟨slot, h a a.2⟩).sortOrder (b.1.get ⟨slot, h b b.2⟩) := by
    funext a b
    exact compareSlot_eq (h a a.2) (h b b.2)
  rw [hcells]
  exact transCmp_comap Cell.sortOrder_transCmp fun a : Subtype P => a.1.get ⟨slot, h a a.2⟩

theorem Direction.apply_transCmp {α : Type} {cmp : α → α → Ordering} (h : Std.TransCmp cmp)
    (d : Direction) : Std.TransCmp fun a b => d.apply (cmp a b) := by
  cases d with
  | asc => exact h
  | desc => exact transCmp_swap h

theorem compareRows_transCmp (keys : List (Nat × Direction))
    (h : ∀ row, P row → Keyed (keys.map Prod.fst) row) :
    Std.TransCmp fun a b : Subtype P => compareRows a b keys := by
  induction keys with
  | nil =>
    exact { eq_swap := rfl, isLE_trans := fun hab _ => hab }
  | cons key keys ih =>
    obtain ⟨slot, d⟩ := key
    have hslot : Std.TransCmp fun a b : Subtype P => d.apply (compareSlot a b slot) := by
      apply Direction.apply_transCmp
      apply compareSlot_transCmp
      intro row hrow
      exact h row hrow slot List.mem_cons_self
    have hrest : Std.TransCmp fun a b : Subtype P => compareRows a b keys := by
      apply ih
      intro row hrow k hk
      exact h row hrow k (List.mem_cons_of_mem slot hk)
    exact inferInstanceAs (Std.TransCmp
      (compareLex (fun a b : Subtype P => d.apply (compareSlot a b slot))
        fun a b => compareRows a b keys))

/-- Keys of grouping are compared as keys of ordering that ascend. -/
theorem compareKeys_eq_compareRows (a b : Row) (keys : List Nat) :
    compareKeys a b keys = compareRows a b (keys.map fun k => (k, .asc)) := by
  induction keys with
  | nil => rfl
  | cons k keys ih =>
    rw [List.map_cons, compareKeys, compareRows, ih]
    rfl

theorem compareKeys_transCmp (keys : List Nat) (h : ∀ row, P row → Keyed keys row) :
    Std.TransCmp fun a b : Subtype P => compareKeys a b keys := by
  simp only [compareKeys_eq_compareRows]
  apply compareRows_transCmp
  intro row hrow
  rw [List.map_map]
  change Keyed (keys.map id) row
  rw [List.map_id]
  exact h row hrow

end Rows

end GridQuery
