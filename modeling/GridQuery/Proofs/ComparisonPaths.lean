import GridQuery.Proofs.Compositional
import GridQuery.Proofs.Selection

/-!
A comparison in a condition against the comparison of two cells. The right side may be a constant, whose pattern
is kept for `LIKE`, a column, or a list of one item behind `IN`; whichever it is, the test comes to the
comparison of the values of both sides, except that null does not pass `NOT IN`.
-/

namespace GridQuery
set_option autoImplicit false

namespace Cell

/-- What a condition makes of the values of its two sides. -/
def tested (op : Comparison) (a b : Cell) : Bool :=
  holds op a b && !(op == .notIn && a.isNull)

theorem tested_of_ne {op : Comparison} (hop : op ≠ .notIn) (a b : Cell) : tested op a b = holds op a b := by
  rw [tested, beq_eq_false_iff_ne.mpr hop, Bool.false_and, Bool.not_false, Bool.and_true]

theorem tested_isIn (a b : Cell) : tested .isIn a b = a.inList [b] :=
  tested_of_ne (by decide) a b

theorem tested_notIn (a b : Cell) : tested .notIn a b = (!a.isNull && !a.inList [b]) := by
  simp [tested, holds, Bool.and_comm]

theorem tested_eq_holds_iff {op : Comparison} {a b : Cell} :
    tested op a b = holds op a b ↔ ¬(op = .notIn ∧ a.isNull = true) := by
  by_cases hop : op = .notIn
  · subst hop
    cases hnull : a.isNull <;> simp [tested_notIn, holds, inList, hnull]
  · exact iff_of_true (tested_of_ne hop a b) fun h => hop h.1

end Cell

namespace Formula

/-- Neither a list nor a nested statement, which are several values behind `IN`. -/
def isSingle : Formula → Bool
  | .list _ => false
  | .subquery _ _ => false
  | _ => true

end Formula

namespace Scope

/-- The test that is made of the formulas of a comparison's sides. -/
def comparison (op : Comparison) (f g : Formula) : Test :=
  .compare op f g (pattern? op g)

theorem test_compare {s : Scope} {op : Comparison} {a b : Expr} {f g : Formula} (hf : s.formula a = .ok f)
    (hg : s.formula b = .ok g) : s.test (.compare op a b) = .ok (comparison op f g) := by
  simp only [test]
  exact bind_eq_ok.mpr ⟨f, hf, bind_eq_ok.mpr ⟨g, hg, rfl⟩⟩

end Scope

namespace Rows

variable {σ : Type} {r : Rows σ} {row : Nat}

theorem members_single {g : Formula} (hsingle : g.isSingle = true) (listed : Run σ (List Cell))
    (single : Run σ Cell) :
    r.members row g listed single = (do
      let y ← single
      pure [y]) := by
  cases g with
  | list | subquery => cases hsingle
  | const | slot | binary | negate | call | case => rfl

/-- The test of a right side with a single value runs both sides and compares; the pattern that is kept for a
constant is the text of its value. -/
theorem holds_single {op : Comparison} {f g : Formula} (hsingle : g.isSingle = true) :
    r.holds row (Scope.comparison op f g) = (do
      let x ← r.value row f
      let y ← r.value row g
      pure (Cell.tested op x y)) := by
  -- the test leaves all but four operators to the comparison of cells
  cases op
  case isIn | notIn =>
    simp [Scope.comparison, holds, members_single hsingle, Cell.tested_isIn, Cell.tested_notIn]
  case like | notLike =>
    cases g <;> simp [Scope.comparison, Scope.pattern?, holds, value, Cell.tested_of_ne, Cell.holds]
  all_goals simp [Scope.comparison, Scope.pattern?, holds, Cell.tested_of_ne]

/-- So does that of a list of one item. -/
theorem holds_listed {op : Comparison} {f g : Formula} (hop : op = .isIn ∨ op = .notIn) :
    r.holds row (Scope.comparison op f (.list [g])) = (do
      let x ← r.value row f
      let y ← r.value row g
      pure (Cell.tested op x y)) := by
  rcases hop with rfl | rfl <;>
    simp [Scope.comparison, holds, members, listed, values, Cell.tested_isIn, Cell.tested_notIn]

variable {st mid st' : σ}

theorem satisfies_gives {op : Comparison} {a b : Expr} {f g : Formula} {hit : Bool}
    (hf : r.scope.formula a = .ok f) (hg : r.scope.formula b = .ok g) :
    (r.satisfies (.compare op a b) row).Gives st hit st' ↔
      (r.holds row (Scope.comparison op f g)).Gives st hit st' := by
  unfold satisfies
  rw [Scope.test_compare hf hg, Run.of, pure_bind]

/-- Sides that give values, one after the other, give the comparison of the values. -/
theorem tested_gives {op : Comparison} {x y : Run σ Cell} {a b : Cell} (hx : x.Gives st a mid)
    (hy : y.Gives mid b st') :
    Run.Gives (do
      let c ← x
      let d ← y
      pure (Cell.tested op c d)) st (Cell.tested op a b) st' :=
  Run.gives_bind.mpr ⟨a, mid, hx, Run.gives_bind.mpr ⟨b, st', hy, Run.gives_pure.mpr ⟨rfl, rfl⟩⟩⟩

/-- A right side with a single value, whatever it is: a constant, a column, or an operator on others. -/
theorem satisfies_single {op : Comparison} {left right : Expr} {g : Formula} {a b : Cell}
    (hright : r.scope.formula right = .ok g) (hsingle : g.isSingle = true)
    (ha : (r.evaluated left row).Gives st a mid) (hb : (r.value row g).Gives mid b st') :
    (r.satisfies (.compare op left right) row).Gives st (Cell.tested op a b) st' := by
  obtain ⟨f, hf, ha⟩ := evaluated_gives.mp ha
  rw [satisfies_gives hf hright, holds_single hsingle]
  exact tested_gives ha hb

theorem satisfies_listed {op : Comparison} {left item : Expr} {a b : Cell}
    (hop : op = .isIn ∨ op = .notIn) (hwritten : r.scope.written? (.list [item]) = none)
    (ha : (r.evaluated left row).Gives st a mid) (hb : (r.evaluated item row).Gives mid b st') :
    (r.satisfies (.compare op left (.list [item])) row).Gives st (Cell.tested op a b) st' := by
  obtain ⟨f, hf, ha⟩ := evaluated_gives.mp ha
  obtain ⟨g, hg, hb⟩ := evaluated_gives.mp hb
  have hlist : r.scope.formula (.list [item]) = .ok (.list [g]) := by
    simp only [Scope.formula, hwritten]
    exact bind_eq_ok.mpr ⟨[g], bind_eq_ok.mpr ⟨g, hg, bind_eq_ok.mpr ⟨[], rfl, rfl⟩⟩, rfl⟩
  rw [satisfies_gives hf hlist, holds_listed hop]
  exact tested_gives ha hb

end Rows

/-- The test of a comparison on one row gives what the comparison of the values of its sides gives, with the right
side a constant, a placeholder, a column or, behind `IN`, a list of one item; but null does not pass `NOT IN` in
the test, and it passes in the comparison of two cells. -/
theorem satisfies_compare {σ : Type} {r : Rows σ} {row : Nat} {left : Expr} {a : Cell} {st mid : σ}
    (ha : (r.evaluated left row).Gives st a mid) (op : Comparison) (b : Cell) :
    (r.satisfies (.compare op left (.literal b)) row).Gives st (Cell.tested op a b) mid ∧
      (∀ n, r.world.binds.get n = .ok b →
        (r.satisfies (.compare op left (.bind n)) row).Gives st (Cell.tested op a b) mid) ∧
      (∀ table name column, r.table.column? (columnSpelling table name) = some column →
        r.table.cell row column = b →
          (r.satisfies (.compare op left (.column table name)) row).Gives st (Cell.tested op a b) mid) ∧
      (∀ item st', op = .isIn ∨ op = .notIn → r.scope.written? (.list [item]) = none →
        (r.evaluated item row).Gives mid b st' →
          (r.satisfies (.compare op left (.list [item])) row).Gives st (Cell.tested op a b) st') ∧
      (Cell.tested op a b = Cell.holds op a b ↔ ¬(op = .notIn ∧ a.isNull = true)) := by
  have hconst : (r.value row (.const b)).Gives mid b mid := by
    rw [Rows.value]
    exact Run.gives_pure.mpr ⟨rfl, rfl⟩
  refine ⟨?literal, ?bind, ?column, ?listed, Cell.tested_eq_holds_iff⟩
  case literal => exact Rows.satisfies_single (by rw [Scope.formula]) rfl ha hconst
  case bind =>
    intro n hn
    have hformula : r.scope.formula (.bind n) = .ok (.const b) := by
      simp only [Scope.formula, Rows.scope, hn, Except.map]
    exact Rows.satisfies_single hformula rfl ha hconst
  case column =>
    rintro table name column hcolumn rfl
    refine Rows.satisfies_single (Rows.formula_column hcolumn) rfl ha ?_
    rw [Rows.value]
    exact Run.gives_pure.mpr ⟨rfl, rfl⟩
  case listed =>
    intro item st' hop hwritten hb
    exact Rows.satisfies_listed hop hwritten ha hb

/-- Null `NOT IN` a letter: the test drops it, with the letter a constant and with it in a list. -/
theorem satisfies_compare_nullLetter :
    (lettersRows.evaluated (.column none "A") 2).Gives [] .null [] ∧
      (lettersRows.satisfies (.compare .notIn (.column none "A") (.literal (.text "x"))) 2).Gives [] false [] ∧
      (lettersRows.satisfies (.compare .notIn (.column none "A") (.list [.literal (.text "x")])) 2).Gives []
        false [] := by
  have ha : (lettersRows.evaluated (.column none "A") 2).Gives [] .null [] := by rfl
  have hx : (lettersRows.evaluated (.literal (.text "x")) 2).Gives [] (.text "x") [] := by rfl
  have h := satisfies_compare ha .notIn (.text "x")
  exact ⟨ha, h.1, h.2.2.2.1 _ _ (.inr rfl) (by rfl) hx⟩

/-- Null `NOT IN` a letter: the test drops the row, the comparison of the two cells would keep it. -/
theorem satisfies_ne_holds_nullLetter :
    (lettersRows.evaluated (.column none "A") 2).Gives [] .null [] ∧
      (lettersRows.satisfies (.compare .notIn (.column none "A") (.literal (.text "x"))) 2).Gives [] false [] ∧
      Cell.holds .notIn .null (.text "x") = true :=
  ⟨by rfl, by rfl, by rfl⟩

end GridQuery
