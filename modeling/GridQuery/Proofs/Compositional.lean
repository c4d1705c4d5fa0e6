import GridQuery.Proofs.Alike
import GridQuery.Proofs.Recalled

/-!
Values made of the values of operands. An expression that no column of the table is written like has the value
that its operator makes of the values of its operands, or that its function makes of those of its arguments. A
column that is written like it answers for it, whatever its operands are.
-/

namespace GridQuery
set_option autoImplicit false

/-- A function of one row's values shares its name with no aggregate. -/
theorem Aggregator.ofName?_eq_none {name : String} {f : ScalarFunction}
    (h : ScalarFunction.ofName? name = some f) : Aggregator.ofName? name = none := by
  have hnames : ∀ a ∈ [sum, count, min, max, avg], ScalarFunction.names.lookup a.text = none := by
    decide +kernel
  unfold Aggregator.ofName?
  cases ha : [sum, count, min, max, avg].find? fun a => a.text == Text.asciiUpper name with
  | none => rfl
  | some a =>
    have hfound := List.find?_some ha
    have hcapitals : a.text = Text.asciiUpper name := beq_iff_eq.mp hfound
    have hnone := hnames a (List.mem_of_find?_eq_some ha)
    rw [hcapitals] at hnone
    cases hnone.symm.trans h

/-- The function of a call whose name is a function's that takes so many arguments. -/
theorem Scope.function_eq_ok {name : String} (text : String) {count : Nat} {f : ScalarFunction}
    (hf : ScalarFunction.ofName? name = some f) (hcount : f.arity.admits count = true) :
    function name text count = .ok f := by
  simp [function, Aggregator.ofName?_eq_none hf, hf, ScalarFunction.checkArity, hcount, Except.map]

namespace Rows

variable {σ : Type} {r : Rows σ} {row : Nat} {st mid st' : σ}

theorem evaluated_gives {e : Expr} {x : Cell} :
    (r.evaluated e row).Gives st x st' ↔ ∃ f, r.scope.formula e = .ok f ∧ (r.value row f).Gives st x st' := by
  constructor
  · intro h
    obtain ⟨f, _, hread, hvalue⟩ := Run.gives_bind.mp h
    obtain ⟨hf, rfl⟩ := Run.gives_of.mp hread
    exact ⟨f, hf, hvalue⟩
  · rintro ⟨f, hf, hvalue⟩
    exact Run.gives_bind.mpr ⟨f, st, Run.gives_of.mpr ⟨hf, rfl⟩, hvalue⟩

/-- The values of expressions, each of them evaluated by itself, one after the other. -/
def evaluatedAll (r : Rows σ) (row : Nat) : List Expr → Run σ (List Cell)
  | [] => pure []
  | e :: es => do
    let x ← r.evaluated e row
    let xs ← r.evaluatedAll row es
    pure (x :: xs)

theorem evaluated_binary {op : BinaryOp} {a b : Expr} {x y : Cell}
    (hwritten : r.scope.written? (.binary op a b) = none)
    (hx : (r.evaluated a row).Gives st x mid) (hy : (r.evaluated b row).Gives mid y st') :
    (r.evaluated (.binary op a b) row).Gives st (arithmetic op x y) st' := by
  obtain ⟨f, hf, hx⟩ := evaluated_gives.mp hx
  obtain ⟨g, hg, hy⟩ := evaluated_gives.mp hy
  have hformula : r.scope.formula (.binary op a b) = .ok (.binary op f g) := by
    simp only [Scope.formula, hwritten]
    exact bind_eq_ok.mpr ⟨f, hf, bind_eq_ok.mpr ⟨g, hg, rfl⟩⟩
  refine evaluated_gives.mpr ⟨_, hformula, ?_⟩
  simp only [value]
  exact Run.gives_bind.mpr ⟨x, mid, hx, Run.gives_bind.mpr ⟨y, st', hy, Run.gives_pure.mpr ⟨rfl, rfl⟩⟩⟩

/-- The arguments of a function that converts nothing are evaluated like any other expressions. -/
theorem arguments_of_evaluatedAll {f : ScalarFunction} (hconvert : f ≠ .convert) {args : List Expr}
    {xs : List Cell} (h : (r.evaluatedAll row args).Gives st xs st') (i : Nat) :
    ∃ formulas, r.scope.arguments f i args = .ok formulas ∧ (r.values row formulas).Gives st xs st' := by
  induction args generalizing xs st i with
  | nil =>
    refine ⟨[], by simp only [Scope.arguments], ?_⟩
    simpa only [values, evaluatedAll] using h
  | cons e es ih =>
    obtain ⟨x, mid, hx, h⟩ := Run.gives_bind.mp h
    obtain ⟨rest, _, hrest, h⟩ := Run.gives_bind.mp h
    obtain ⟨rfl, rfl⟩ := Run.gives_pure.mp h
    obtain ⟨g, hg, hx⟩ := evaluated_gives.mp hx
    obtain ⟨formulas, hformulas, hrest⟩ := ih hrest (i + 1)
    refine ⟨g :: formulas, ?_, ?_⟩
    · simp only [Scope.arguments, Scope.typeWord?_eq_none fun h => hconvert h.1]
      exact bind_eq_ok.mpr ⟨g, hg, bind_eq_ok.mpr ⟨formulas, hformulas, rfl⟩⟩
    · simp only [values]
      exact Run.gives_bind.mpr ⟨x, mid, hx,
        Run.gives_bind.mpr ⟨rest, _, hrest, Run.gives_pure.mpr ⟨rfl, rfl⟩⟩⟩

theorem evaluated_call {name : String} {distinct : Bool} {args : List Expr} {f : ScalarFunction}
    {xs : List Cell} (hwritten : r.scope.written? (.call name distinct args) = none)
    (hf : ScalarFunction.ofName? name = some f) (hconvert : f ≠ .convert)
    (hcount : f.arity.admits args.length = true) (hargs : (r.evaluatedAll row args).Gives st xs st') :
    (r.evaluated (.call name distinct args) row).Gives st (f.apply r.world.clock xs) st' := by
  obtain ⟨formulas, hformulas, hvalues⟩ := arguments_of_evaluatedAll hconvert hargs 0
  have hformula : r.scope.formula (.call name distinct args) = .ok (.call f formulas) := by
    simp only [Scope.formula, hwritten]
    exact bind_eq_ok.mpr ⟨f, Scope.function_eq_ok _ hf hcount, bind_eq_ok.mpr ⟨formulas, hformulas, rfl⟩⟩
  refine evaluated_gives.mpr ⟨_, hformula, ?_⟩
  simp only [value]
  exact Run.gives_bind.mpr ⟨xs, st', hvalues, Run.gives_pure.mpr ⟨rfl, rfl⟩⟩

end Rows

/-- Evaluation is compositional for an expression that no column of the table is written like. Whatever
expressions were read before, if those of its text have its formula, an operator makes the value of the
expression from the values of its operands, and a function but that of conversions, called with as many
arguments as it takes, from the values of its arguments. -/
theorem value_of_operands {σ : Type} {r : Rows σ} {e : Expr} {earlier : List Expr}
    (hwritten : r.scope.written? e = none)
    (hearlier : ∀ x ∈ earlier, x.text = e.text → r.scope.formula x = r.scope.formula e) :
    (∀ op a b, e = .binary op a b → ∀ (row : Nat) (st mid st' : σ) (x y : Cell),
        (r.evaluated a row).Gives st x mid → (r.evaluated b row).Gives mid y st' →
          (r.recalled (r.scope.memoAfter [] earlier) e row).Gives st (arithmetic op x y) st') ∧
      ∀ name distinct args f, e = .call name distinct args → ScalarFunction.ofName? name = some f →
        f ≠ .convert → f.arity.admits args.length = true → ∀ (row : Nat) (st st' : σ) (xs : List Cell),
          (r.evaluatedAll row args).Gives st xs st' →
            (r.recalled (r.scope.memoAfter [] earlier) e row).Gives st (f.apply r.world.clock xs) st' := by
  have hrecalled (row : Nat) : r.recalled (r.scope.memoAfter [] earlier) e row = r.evaluated e row :=
    Rows.recalled_of_recall (Scope.recall_memoAfter hearlier) row
  refine ⟨?operator, ?function⟩
  case operator =>
    rintro op a b rfl row st mid st' x y hx hy
    rw [hrecalled]
    exact Rows.evaluated_binary hwritten hx hy
  case function =>
    rintro name distinct args f rfl hf hconvert hcount row st st' xs hargs
    rw [hrecalled]
    exact Rows.evaluated_call hwritten hf hconvert hcount hargs

/-- A table whose first row, the titles, stands above one row of letters. -/
def lettersUnder (titles : List String) : Except QueryError Table :=
  Table.ofRows "T" [titles.map Cell.text, [.text "x", .text "y", .text "z"]]

def rowsAlone (t : Table) : Rows ResultMemo :=
  rowsAt ⟨.ofList [t], .empty, .midnight ⟨2020, 1, 1⟩⟩ t 0

/-- `A || B`, which may be the title of a column, too. -/
def joinedLetters : Expr :=
  .binary .concat (.column none "A") (.column none "B")

/-- `LEN(A)`, likewise. -/
def letterLength : Expr :=
  .call "LEN" false [.column none "A"]

/-- The operands and the arguments may have been read before. -/
theorem value_of_operands_otherTitles :
    ∃ t, lettersUnder ["A", "B", "A | B"] = .ok t ∧
      ((rowsAlone t).recalled ((rowsAlone t).scope.memoAfter [] [.column none "A", .column none "B"])
        joinedLetters 0).Gives [] (.text "xy") [] ∧
      ((rowsAlone t).recalled ((rowsAlone t).scope.memoAfter [] [.column none "A"]) letterLength 0).Gives []
        (ScalarFunction.length.apply (rowsAlone t).world.clock [.text "x"]) [] := by
  have hvalues : (lettersUnder ["A", "B", "A | B"]).toOption.any (fun t =>
      (rowsAlone t).scope.written? joinedLetters == none &&
        (rowsAlone t).scope.written? letterLength == none &&
        decide (((rowsAlone t).evaluated (.column none "A") 0).Gives [] (.text "x") []) &&
        decide (((rowsAlone t).evaluated (.column none "B") 0).Gives [] (.text "y") []) &&
        decide (((rowsAlone t).evaluatedAll 0 [.column none "A"]).Gives [] [.text "x"] [])) = true := by
    decide +kernel
  obtain ⟨t, ht, hfacts⟩ := exists_of_any hvalues
  simp only [Bool.and_eq_true, beq_iff_eq, decide_eq_true_eq] at hfacts
  obtain ⟨⟨⟨⟨hjoined, hlength⟩, hx⟩, hy⟩, hargs⟩ := hfacts
  refine ⟨t, ht, ?_, ?_⟩
  · refine (value_of_operands hjoined fun x hx htext => ?_).1 _ _ _ rfl 0 [] [] [] _ _ hx hy
    rcases List.mem_pair.mp hx with rfl | rfl <;> exact absurd htext (by decide +kernel)
  · refine (value_of_operands hlength fun x hx htext => ?_).2 _ _ _ .length rfl (by decide +kernel) nofun
      (by decide) 0 [] [] _ hargs
    rw [List.mem_singleton.mp hx] at htext
    exact absurd htext (by decide +kernel)

/-- A column titled `A || B` stands in for the operator, and one titled `LEN(A)` for the function. -/
theorem value_ne_of_operands_writtenAlike :
    ∃ t u, lettersUnder ["A", "B", "A || B"] = .ok t ∧ lettersUnder ["A", "B", "LEN(A)"] = .ok u ∧
      ((rowsAlone t).evaluated (.column none "A") 0).Gives [] (.text "x") [] ∧
      ((rowsAlone t).evaluated (.column none "B") 0).Gives [] (.text "y") [] ∧
      ((rowsAlone t).evaluated joinedLetters 0).Gives [] (.text "z") [] ∧
      arithmetic .concat (.text "x") (.text "y") ≠ .text "z" ∧
      ((rowsAlone u).evaluatedAll 0 [.column none "A"]).Gives [] [.text "x"] [] ∧
      ((rowsAlone u).evaluated letterLength 0).Gives [] (.text "z") [] ∧
      ScalarFunction.length.apply (rowsAlone u).world.clock [.text "x"] ≠ .text "z" := by
  have hoperator : (lettersUnder ["A", "B", "A || B"]).toOption.any (fun t =>
      decide (((rowsAlone t).evaluated (.column none "A") 0).Gives [] (.text "x") []) &&
        decide (((rowsAlone t).evaluated (.column none "B") 0).Gives [] (.text "y") []) &&
        decide (((rowsAlone t).evaluated joinedLetters 0).Gives [] (.text "z") [])) = true := by
    decide +kernel
  have hfunction : (lettersUnder ["A", "B", "LEN(A)"]).toOption.any (fun u =>
      decide (((rowsAlone u).evaluatedAll 0 [.column none "A"]).Gives [] [.text "x"] []) &&
        decide (((rowsAlone u).evaluated letterLength 0).Gives [] (.text "z") [])) = true := by
    decide +kernel
  obtain ⟨t, ht, hjoined⟩ := exists_of_any hoperator
  obtain ⟨u, hu, hlength⟩ := exists_of_any hfunction
  simp only [Bool.and_eq_true, decide_eq_true_eq] at hjoined hlength
  exact ⟨t, u, ht, hu, hjoined.1.1, hjoined.1.2, hjoined.2, by decide +kernel, hlength.1, hlength.2, nofun⟩

end GridQuery
