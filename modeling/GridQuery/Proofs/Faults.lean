import GridQuery.Proofs.Runs

/-!
Faults in conditions. A condition is read in parts, its columns and calls, and any of these may be wrong
whatever the rows are: no source has the column, nothing has the name of the function, the call has too few or
too many arguments, or it folds rows where there is one. Reading a condition that has such a part fails.
-/

namespace GridQuery
set_option autoImplicit false

/-! ### What is looked up -/

section Lookups

variable (known : String → Bool)

/-- What may be wrong in a column or a call, where some spellings are known as columns. -/
inductive Expr.Fault : Expr → Prop where
  | unknownColumn {table : Option String} {name : String}
      (hspelling : known (columnSpelling table name) = false)
      (htext : known (Expr.text (.column table name)) = false) : Fault (.column table name)
  | aggregate {name : String} {distinct : Bool} {args : List Expr}
      (h : (Aggregator.ofName? name).isSome = true) : Fault (.call name distinct args)
  | unknownFunction {name : String} {distinct : Bool} {args : List Expr}
      (h : ScalarFunction.ofName? name = none) : Fault (.call name distinct args)
  | wrongArity {name : String} {distinct : Bool} {args : List Expr} {f : ScalarFunction}
      (h : ScalarFunction.ofName? name = some f) (hcount : f.arity.admits args.length = false) :
      Fault (.call name distinct args)

mutual

/-- The columns and the calls of an expression, nested statements left aside. What is written like a column is
that column as a whole. -/
def Expr.lookups : Expr → List Expr
  | .literal _ => []
  | .column table name => [.column table name]
  | .bind _ => []
  | .binary op a b => if known (Expr.text (.binary op a b)) then [] else a.lookups ++ b.lookups
  | .unary sign a => if known (Expr.text (.unary sign a)) then [] else a.lookups
  | .call name distinct args =>
    if known (Expr.text (.call name distinct args)) then []
    else .call name distinct args :: argumentLookups (ScalarFunction.ofName? name) 0 args
  | .case branches otherwise =>
    if known (Expr.text (.case branches otherwise)) then []
    else branchesLookups branches ++ elseLookups otherwise
  | .ite c a b =>
    if known (Expr.text (.ite c a b)) then [] else c.lookups ++ (a.lookups ++ b.lookups)
  | .subquery _ => []
  | .list items => if known (Expr.text (.list items)) then [] else exprsLookups items
  | .star _ => []
  | .paren a => if known (Expr.text (.paren a)) then [] else a.lookups

def exprsLookups : List Expr → List Expr
  | [] => []
  | e :: es => e.lookups ++ exprsLookups es

/-- The word for the type of a conversion is no column. -/
def argumentLookups (f? : Option ScalarFunction) (i : Nat) : List Expr → List Expr
  | [] => []
  | e :: es =>
    (if (f?.bind fun f => Scope.typeWord? f i e).isSome then [] else e.lookups) ++
      argumentLookups f? (i + 1) es

def branchesLookups : List (Condition × Expr) → List Expr
  | [] => []
  | (c, e) :: bs => c.lookups ++ (e.lookups ++ branchesLookups bs)

def elseLookups : Option Expr → List Expr
  | none => []
  | some e => e.lookups

def Condition.lookups : Condition → List Expr
  | .compare _ a b => a.lookups ++ b.lookups
  | .logic _ terms => termsLookups terms
  | .not c => c.lookups
  | .exists .. => []

def termsLookups : List Condition → List Expr
  | [] => []
  | c :: cs => c.lookups ++ termsLookups cs

end

/-- Something that is looked up in a condition is wrong. -/
def Condition.Faulty (c : Condition) : Prop :=
  ∃ p ∈ c.lookups known, p.Fault known

end Lookups

namespace Scope

variable {s : Scope}

/-- The spellings of the columns of the table. -/
def known (s : Scope) (name : String) : Bool :=
  (s.table.column? name).isSome

theorem mem_unwritten {e p : Expr} {parts : List Expr} (h : p ∈ if s.known e.text then [] else parts) :
    s.written? e = none ∧ p ∈ parts := by
  split at h
  · cases h
  · rename_i hunknown
    exact ⟨by simpa [known, written?] using hunknown, h⟩

theorem column_faultless {table : Option String} {name : String} {f : Formula}
    (h : s.column table name = .ok f) : ¬ (Expr.column table name).Fault s.known := by
  rintro (⟨hspelling, htext⟩ | _)
  simp only [known, Option.isSome_eq_false_iff, Option.isNone_iff_eq_none] at hspelling htext
  simp [column, written?, hspelling, htext] at h

theorem call_faultless {name text : String} {args : List Expr} {f : ScalarFunction}
    (h : function name text args.length = .ok f) (distinct : Bool) :
    ScalarFunction.ofName? name = some f ∧ ¬ (Expr.call name distinct args).Fault s.known := by
  unfold function at h
  split at h
  · cases h
  · rename_i haggregate
    split at h
    · cases h
    · rename_i g hg
      unfold ScalarFunction.checkArity at h
      split at h
      · rename_i hcount
        cases h
        refine ⟨hg, ?_⟩
        rintro (_ | hcall | hunknown | ⟨hf, hother⟩)
        · exact haggregate hcall
        · rw [hg] at hunknown
          cases hunknown
        · cases hg.symm.trans hf
          rw [hcount] at hother
          cases hother
      · cases h

mutual

theorem formula_faultless : ∀ {e : Expr} {f : Formula}, s.formula e = .ok f →
    ∀ p ∈ e.lookups s.known, ¬ p.Fault s.known
  | .literal _, _, _, p, hp => by simp [Expr.lookups] at hp
  | .column table name, _, h, p, hp => by
    simp only [Expr.lookups, List.mem_singleton] at hp
    simp only [formula] at h
    exact hp ▸ column_faultless h
  | .bind _, _, _, p, hp => by simp [Expr.lookups] at hp
  | .binary op a b, _, h, p, hp => by
    obtain ⟨hnone, hp⟩ := mem_unwritten (by simpa only [Expr.lookups] using hp)
    simp only [formula, hnone] at h
    obtain ⟨x, hx, h⟩ := bind_eq_ok.mp h
    obtain ⟨y, hy, _⟩ := bind_eq_ok.mp h
    exact (List.mem_append.mp hp).elim (formula_faultless hx p) (formula_faultless hy p)
  | .unary sign a, _, h, p, hp => by
    obtain ⟨hnone, hp⟩ := mem_unwritten (by simpa only [Expr.lookups] using hp)
    simp only [formula, hnone] at h
    obtain ⟨x, hx, _⟩ := bind_eq_ok.mp h
    exact formula_faultless hx p hp
  | .call name distinct args, _, h, p, hp => by
    obtain ⟨hnone, hp⟩ := mem_unwritten (by simpa only [Expr.lookups] using hp)
    simp only [formula, hnone] at h
    obtain ⟨g, hg, h⟩ := bind_eq_ok.mp h
    obtain ⟨xs, hxs, _⟩ := bind_eq_ok.mp h
    obtain ⟨hname, hcall⟩ := call_faultless (s := s) hg distinct
    rw [hname] at hp
    rcases List.mem_cons.mp hp with rfl | hp
    · exact hcall
    · exact arguments_faultless hxs p hp
  | .case branches otherwise, _, h, p, hp => by
    obtain ⟨hnone, hp⟩ := mem_unwritten (by simpa only [Expr.lookups] using hp)
    simp only [formula, hnone] at h
    obtain ⟨bs, hbs, h⟩ := bind_eq_ok.mp h
    obtain ⟨o, ho, _⟩ := bind_eq_ok.mp h
    exact (List.mem_append.mp hp).elim (branches_faultless hbs p) (optional_faultless ho p)
  | .ite c a b, _, h, p, hp => by
    obtain ⟨hnone, hp⟩ := mem_unwritten (by simpa only [Expr.lookups] using hp)
    simp only [formula, hnone] at h
    obtain ⟨t, ht, h⟩ := bind_eq_ok.mp h
    obtain ⟨x, hx, h⟩ := bind_eq_ok.mp h
    obtain ⟨y, hy, _⟩ := bind_eq_ok.mp h
    rcases List.mem_append.mp hp with hp | hp
    · exact test_faultless ht p hp
    · exact (List.mem_append.mp hp).elim (formula_faultless hx p) (formula_faultless hy p)
  | .subquery _, _, _, p, hp => by simp [Expr.lookups] at hp
  | .list items, _, h, p, hp => by
    obtain ⟨hnone, hp⟩ := mem_unwritten (by simpa only [Expr.lookups] using hp)
    simp only [formula, hnone] at h
    obtain ⟨xs, hxs, _⟩ := bind_eq_ok.mp h
    exact formulas_faultless hxs p hp
  | .star _, _, _, p, hp => by simp [Expr.lookups] at hp
  | .paren a, _, h, p, hp => by
    obtain ⟨hnone, hp⟩ := mem_unwritten (by simpa only [Expr.lookups] using hp)
    simp only [formula, hnone] at h
    exact formula_faultless h p hp

theorem formulas_faultless : ∀ {es : List Expr} {fs : List Formula}, s.formulas es = .ok fs →
    ∀ p ∈ exprsLookups s.known es, ¬ p.Fault s.known
  | [], _, _, p, hp => by simp [exprsLookups] at hp
  | e :: es, _, h, p, hp => by
    simp only [exprsLookups, List.mem_append] at hp
    simp only [formulas] at h
    obtain ⟨x, hx, h⟩ := bind_eq_ok.mp h
    obtain ⟨xs, hxs, _⟩ := bind_eq_ok.mp h
    exact hp.elim (formula_faultless hx p) (formulas_faultless hxs p)

theorem arguments_faultless {f : ScalarFunction} : ∀ {i : Nat} {es : List Expr} {fs : List Formula},
    s.arguments f i es = .ok fs → ∀ p ∈ argumentLookups s.known (some f) i es, ¬ p.Fault s.known
  | _, [], _, _, p, hp => by simp [argumentLookups] at hp
  | i, e :: es, _, h, p, hp => by
    simp only [argumentLookups, Option.bind_some, List.mem_append] at hp
    cases hword : typeWord? f i e with
    | some word =>
      simp only [arguments, hword] at h
      obtain ⟨_, _, h⟩ := bind_eq_ok.mp h
      obtain ⟨xs, hxs, _⟩ := bind_eq_ok.mp h
      exact arguments_faultless hxs p (hp.resolve_left (by simp [hword]))
    | none =>
      simp only [arguments, hword] at h
      obtain ⟨x, hx, h⟩ := bind_eq_ok.mp h
      obtain ⟨xs, hxs, _⟩ := bind_eq_ok.mp h
      simp only [hword, Option.isSome_none, Bool.false_eq_true, if_false] at hp
      exact hp.elim (formula_faultless hx p) (arguments_faultless hxs p)

theorem branches_faultless : ∀ {bs : List (Condition × Expr)} {fs : List (Test × Formula)},
    s.branches bs = .ok fs → ∀ p ∈ branchesLookups s.known bs, ¬ p.Fault s.known
  | [], _, _, p, hp => by simp [branchesLookups] at hp
  | (c, e) :: bs, _, h, p, hp => by
    simp only [branchesLookups, List.mem_append] at hp
    simp only [branches] at h
    obtain ⟨t, ht, h⟩ := bind_eq_ok.mp h
    obtain ⟨x, hx, h⟩ := bind_eq_ok.mp h
    obtain ⟨ys, hys, _⟩ := bind_eq_ok.mp h
    exact hp.elim (test_faultless ht p) fun hp =>
      hp.elim (formula_faultless hx p) (branches_faultless hys p)

theorem optional_faultless : ∀ {o : Option Expr} {f : Option Formula}, s.optional o = .ok f →
    ∀ p ∈ elseLookups s.known o, ¬ p.Fault s.known
  | none, _, _, p, hp => by simp [elseLookups] at hp
  | some e, _, h, p, hp => by
    simp only [elseLookups] at hp
    simp only [optional] at h
    obtain ⟨x, hx, _⟩ := bind_eq_ok.mp h
    exact formula_faultless hx p hp

theorem test_faultless : ∀ {c : Condition} {t : Test}, s.test c = .ok t →
    ∀ p ∈ c.lookups s.known, ¬ p.Fault s.known
  | .compare op a b, _, h, p, hp => by
    simp only [Condition.lookups, List.mem_append] at hp
    simp only [test] at h
    obtain ⟨x, hx, h⟩ := bind_eq_ok.mp h
    obtain ⟨y, hy, _⟩ := bind_eq_ok.mp h
    exact hp.elim (formula_faultless hx p) (formula_faultless hy p)
  | .logic op terms, _, h, p, hp => by
    simp only [Condition.lookups] at hp
    simp only [test] at h
    obtain ⟨ts, hts, _⟩ := bind_eq_ok.mp h
    exact tests_faultless hts p hp
  | .not c, _, h, p, hp => by
    simp only [Condition.lookups] at hp
    simp only [test] at h
    obtain ⟨t, ht, _⟩ := bind_eq_ok.mp h
    exact test_faultless ht p hp
  | .exists _ _, _, _, p, hp => by simp [Condition.lookups] at hp

theorem tests_faultless : ∀ {cs : List Condition} {ts : List Test}, s.tests cs = .ok ts →
    ∀ p ∈ termsLookups s.known cs, ¬ p.Fault s.known
  | [], _, _, p, hp => by simp [termsLookups] at hp
  | c :: cs, _, h, p, hp => by
    simp only [termsLookups, List.mem_append] at hp
    simp only [tests] at h
    obtain ⟨t, ht, h⟩ := bind_eq_ok.mp h
    obtain ⟨ts, hts, _⟩ := bind_eq_ok.mp h
    exact hp.elim (test_faultless ht p) (tests_faultless hts p)

end

end Scope

end GridQuery
