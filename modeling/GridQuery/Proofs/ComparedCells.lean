import GridQuery.Cell.Comparison

/-!
The operators of equality and of order between two cells. Both read how the cells are compared off the same
pairing, by epochs, by numbers or by texts, so one order decides the six of them: equality is where it says
equal, it turns around with the sides, and it says nothing beside null or what is not a number.
-/

namespace GridQuery
set_option autoImplicit false

namespace Number

theorem rank?_eq_none_iff {x : Float} : rank? x = none ↔ parts x = .notANumber := by
  unfold rank?
  split
  · rename_i h
    exact iff_of_true rfl h
  · rename_i h
    exact iff_of_false nofun fun hparts => h hparts

theorem order?_eq_none_iff {x y : Float} :
    order? x y = none ↔ parts x = .notANumber ∨ parts y = .notANumber := by
  rw [← rank?_eq_none_iff, ← rank?_eq_none_iff]
  unfold order?
  cases rank? x <;> cases rank? y <;> simp

theorem order?_swap (x y : Float) : order? y x = (order? x y).map Ordering.swap := by
  unfold order?
  cases rank? x with
  | none => cases rank? y <;> rfl
  | some i =>
    cases rank? y with
    | none => rfl
    | some j =>
      have hswap : compare j i = (compare i j).swap := Std.OrientedCmp.eq_swap
      exact congrArg some hswap

end Number

namespace Cell

namespace Pairing

def order? : Pairing → Option Ordering
  | numeric x y => Number.order? x y
  | textual s t => some (compare s t)

def swap : Pairing → Pairing
  | numeric x y => numeric y x
  | textual s t => textual t s

theorem order?_swap (p : Pairing) : p.swap.order? = p.order?.map Ordering.swap := by
  cases p with
  | numeric x y => exact Number.order?_swap x y
  | textual s t =>
    have hswap : compare t s = (compare s t).swap := Std.OrientedCmp.eq_swap
    exact congrArg some hswap

theorem order?_eq_none_iff {p : Pairing} : p.order? = none ↔
    ∃ x y, p = numeric x y ∧ (Number.parts x = .notANumber ∨ Number.parts y = .notANumber) := by
  cases p with
  | numeric x y =>
    simp only [order?, Number.order?_eq_none_iff, numeric.injEq]
    constructor
    · exact fun h => ⟨x, y, ⟨rfl, rfl⟩, h⟩
    · rintro ⟨_, _, ⟨rfl, rfl⟩, h⟩
      exact h
  | textual s t => simp [order?]

end Pairing

variable {a b : Cell}

/-- The two are compared as epochs: one is a date, and both stand for a time. -/
def ByEpoch (a b : Cell) (x y : Float) : Prop :=
  (a.isDate = true ∨ b.isDate = true) ∧ a.epoch? = some x ∧ b.epoch? = some y

/-- The two are compared as numbers: not as epochs, and both read as a number. -/
def ByNumber (a b : Cell) (x y : Float) : Prop :=
  (¬∃ x y, ByEpoch a b x y) ∧ a.asNumber? = some x ∧ b.asNumber? = some y

theorem numericPairing_eq_numeric_iff {x y : Float} :
    numericPairing a b = .numeric x y ↔ a.asNumber? = some x ∧ b.asNumber? = some y := by
  unfold numericPairing
  cases a.asNumber? <;> cases b.asNumber? <;> simp

theorem pairing_eq_numeric_iff {x y : Float} :
    pairing a b = .numeric x y ↔ ByEpoch a b x y ∨ ByNumber a b x y := by
  unfold pairing ByNumber ByEpoch
  by_cases hdate : a.isDate = true ∨ b.isDate = true
  · rw [if_pos (by simpa using hdate)]
    cases a.epoch? <;> cases b.epoch? <;> simp [hdate, numericPairing_eq_numeric_iff]
  · rw [if_neg (by simpa using hdate)]
    simp [hdate, numericPairing_eq_numeric_iff]

theorem pairing_of_not_date (ha : a.isDate = false) (hb : b.isDate = false) :
    pairing a b = numericPairing a b := by
  rw [pairing, ha, hb]
  rfl

theorem numericPairing_swap (a b : Cell) : numericPairing b a = (numericPairing a b).swap := by
  unfold numericPairing
  cases a.asNumber? <;> cases b.asNumber? <;> rfl

theorem pairing_swap (a b : Cell) : pairing b a = (pairing a b).swap := by
  unfold pairing
  rw [Bool.or_comm]
  split
  · cases a.epoch? <;> cases b.epoch? <;> first | rfl | exact numericPairing_swap a b
  · exact numericPairing_swap a b

/-! ### One order -/

theorem order?_of_null (h : a.isNull = true ∨ b.isNull = true) : a.order? b = none := by
  rw [order?, if_pos (by simpa using h)]

theorem order?_of_nonnull (ha : a.isNull = false) (hb : b.isNull = false) :
    a.order? b = (pairing a b).order? := by
  rw [order?, ha, hb]
  simp only [Bool.or_self, Bool.false_eq_true, if_false]
  cases pairing a b <;> rfl

theorem order?_swap (a b : Cell) : b.order? a = (a.order? b).map Ordering.swap := by
  by_cases hnull : a.isNull = true ∨ b.isNull = true
  · rw [order?_of_null hnull, order?_of_null hnull.symm]
    rfl
  · simp only [not_or, Bool.not_eq_true] at hnull
    rw [order?_of_nonnull hnull.1 hnull.2, order?_of_nonnull hnull.2 hnull.1, pairing_swap,
      Pairing.order?_swap]

/-- The equality of cells that are not null is that of their order. -/
theorem looseEq_of_nonnull (ha : a.isNull = false) (hb : b.isNull = false) :
    a.looseEq b = (a.order? b == some .eq) := by
  rw [order?_of_nonnull ha hb, looseEq, ha, hb]
  simp only [Bool.or_self, Bool.false_eq_true, if_false]
  cases pairing a b with
  | numeric x y => rfl
  | textual s t =>
    rw [Bool.eq_iff_iff, beq_iff_eq, beq_iff_eq]
    simp [Pairing.order?, Std.LawfulEqCmp.compare_eq_iff_eq]

theorem looseEq_of_null (h : a.isNull = true ∨ b.isNull = true) :
    a.looseEq b = true ↔ a.isNull = true ∧ b.isNull = true := by
  rw [looseEq, if_pos (by simpa using h), Bool.and_eq_true]

theorem order?_eq_none_iff (ha : a.isNull = false) (hb : b.isNull = false) :
    a.order? b = none ↔ ∃ x y, (ByEpoch a b x y ∨ ByNumber a b x y) ∧
      (Number.parts x = .notANumber ∨ Number.parts y = .notANumber) := by
  rw [order?_of_nonnull ha hb, Pairing.order?_eq_none_iff]
  simp only [pairing_eq_numeric_iff]

theorem holds_lt_iff : holds .lt a b = true ↔ a.order? b = some .lt := by
  rw [holds, beq_iff_eq]

theorem holds_gt_iff : holds .gt a b = true ↔ a.order? b = some .gt := by
  rw [holds, beq_iff_eq]

theorem holds_ltEq_iff : holds .ltEq a b = true ↔ a.order? b = some .lt ∨ a.order? b = some .eq := by
  rw [holds, Bool.or_eq_true, beq_iff_eq, beq_iff_eq]

theorem holds_gtEq_iff : holds .gtEq a b = true ↔ a.order? b = some .gt ∨ a.order? b = some .eq := by
  rw [holds, Bool.or_eq_true, beq_iff_eq, beq_iff_eq]

theorem holds_eq_iff (ha : a.isNull = false) (hb : b.isNull = false) :
    holds .eq a b = true ↔ a.order? b = some .eq := by
  rw [holds, looseEq_of_nonnull ha hb, beq_iff_eq]

/-- What the operators say of two cells that are not null. -/
structure Coherent (a b : Cell) : Prop where
  lt_ne_eq : ¬(holds .lt a b = true ∧ holds .eq a b = true)
  lt_ne_gt : ¬(holds .lt a b = true ∧ holds .gt a b = true)
  eq_ne_gt : ¬(holds .eq a b = true ∧ holds .gt a b = true)
  trichotomy : holds .lt a b = true ∨ holds .eq a b = true ∨ holds .gt a b = true ↔
    ¬∃ x y, (ByEpoch a b x y ∨ ByNumber a b x y) ∧
      (Number.parts x = .notANumber ∨ Number.parts y = .notANumber)
  ltEq_iff : holds .ltEq a b = true ↔ holds .lt a b = true ∨ holds .eq a b = true
  gtEq_iff : holds .gtEq a b = true ↔ holds .gt a b = true ∨ holds .eq a b = true
  notEq_iff : holds .notEq a b = true ↔ ¬holds .eq a b = true
  lt_iff_gt : holds .lt a b = true ↔ holds .gt b a = true
  eq_comm : holds .eq a b = true ↔ holds .eq b a = true

/-- What they say where one of the two is null. -/
structure BesideNull (a b : Cell) : Prop where
  not_lt : holds .lt a b = false
  not_ltEq : holds .ltEq a b = false
  not_gt : holds .gt a b = false
  not_gtEq : holds .gtEq a b = false
  eq_iff : holds .eq a b = true ↔ a.isNull = true ∧ b.isNull = true

theorem coherent_of_nonnull (ha : a.isNull = false) (hb : b.isNull = false) : Coherent a b := by
  have hgt : holds .gt b a = true ↔ a.order? b = some .lt := by
    rw [holds_gt_iff, order?_swap a b]
    rcases a.order? b with _ | _ | _ | _ <;> simp
  have heq : holds .eq b a = true ↔ a.order? b = some .eq := by
    rw [holds_eq_iff hb ha, order?_swap a b]
    rcases a.order? b with _ | _ | _ | _ <;> simp
  have hnone := order?_eq_none_iff ha hb
  constructor
  case lt_ne_eq | lt_ne_gt | eq_ne_gt | trichotomy =>
    simp only [holds_lt_iff, holds_gt_iff, holds_eq_iff ha hb, ← hnone]
    rcases a.order? b with _ | _ | _ | _ <;> simp
  case ltEq_iff => rw [holds_ltEq_iff, holds_lt_iff, holds_eq_iff ha hb]
  case gtEq_iff => rw [holds_gtEq_iff, holds_gt_iff, holds_eq_iff ha hb]
  case notEq_iff => rw [holds, holds, Bool.not_eq_true', Bool.not_eq_true]
  case lt_iff_gt => rw [holds_lt_iff, hgt]
  case eq_comm => rw [holds_eq_iff ha hb, heq]

theorem besideNull (h : a.isNull = true ∨ b.isNull = true) : BesideNull a b := by
  have hnone := order?_of_null h
  constructor
  case eq_iff => exact looseEq_of_null h
  all_goals
    rw [holds, hnone]
    rfl

end Cell

/-- The comparison operators are coherent: of two cells that are not null at most one is less, equal or greater,
and one is unless they are compared as epochs or as numbers and one of these is not a number; the other
operators are made of these, and they turn around with the sides. Nothing is ordered beside null, and null
equals null alone. -/
theorem comparisons_coherent (a b : Cell) :
    (a.isNull = false ∧ b.isNull = false → Cell.Coherent a b) ∧
      (a.isNull = true ∨ b.isNull = true → Cell.BesideNull a b) :=
  ⟨fun h => Cell.coherent_of_nonnull h.1 h.2, Cell.besideNull⟩

/-- A day beside a text that reads as that day, and null beside a text. -/
theorem comparisons_coherent_day :
    (Cell.ofDay 2024 1 5).isNull = false ∧ (Cell.text "2024-01-05").isNull = false ∧
      Cell.Coherent (Cell.ofDay 2024 1 5) (.text "2024-01-05") ∧ Cell.BesideNull .null (.text "x") := by
  have hday : (Cell.ofDay 2024 1 5).isNull = false := by rfl
  have htext : (Cell.text "2024-01-05").isNull = false := by rfl
  exact ⟨hday, htext, (comparisons_coherent _ _).1 ⟨hday, htext⟩, (comparisons_coherent _ _).2 (.inl rfl)⟩

end GridQuery
