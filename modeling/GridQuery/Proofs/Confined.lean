import GridQuery.Proofs.Formed
import GridQuery.Proofs.Replay

/-!
A query reads only what it names. The run of a statement looks at the tables behind its `FROM` and `JOIN`,
at any depth, at the values of its placeholders and at the clock; two worlds that are the same there give
it the same result, or the same error.
-/

namespace GridQuery
set_option autoImplicit false

/-! ### Placeholders of a formed statement count from one -/

section Counted

variable {n : Nat}

mutual

theorem Expr.HasBind.pos : ∀ {e : Expr}, e.HasBind n → e.Formed → 0 < n
  | .literal _, h, _ | .column _ _, h, _ | .star _, h, _ => nomatch h
  | .bind _, .bind, hf => hf.1
  | .binary _ _ _, .left h, hf => h.pos hf.1
  | .binary _ _ _, .right h, hf => h.pos hf.2.1
  | .unary _ _, .operand h, hf => h.pos hf.1
  | .call _ _ _, .arg he h, hf => exprs_pos ⟨_, he, h⟩ hf.2.2
  | .case _ _, .when hb h, hf => branches_pos ⟨_, hb, .inl h⟩ hf.2.1
  | .case _ _, .then hb h, hf => branches_pos ⟨_, hb, .inr h⟩ hf.2.1
  | .case _ _, .else he h, hf => else_pos ⟨_, he, h⟩ hf.2.2
  | .ite _ _ _, .test h, hf => h.pos hf.1
  | .ite _ _ _, .yes h, hf => h.pos hf.2.1
  | .ite _ _ _, .no h, hf => h.pos hf.2.2
  | .subquery _, .subquery h, hf => h.pos hf
  | .list _, _, hf => nomatch hf
  | .paren _, .paren h, hf => h.pos hf

theorem Expr.HasBind.pos_of_members : ∀ {e : Expr}, e.HasBind n → e.FormedMembers → 0 < n
  | .subquery _, .subquery h, hf => h.pos hf
  | .list _, .item he h, hf => exprs_pos ⟨_, he, h⟩ hf

theorem exprs_pos : ∀ {es : List Expr}, (∃ e ∈ es, e.HasBind n) → FormedExprs es → 0 < n
  | [], h, _ => by simp at h
  | _ :: _, h, hf => by
    simp only [List.mem_cons, exists_eq_or_imp] at h
    exact h.elim (·.pos hf.1) (exprs_pos · hf.2)

theorem branches_pos : ∀ {bs : List (Condition × Expr)},
    (∃ b ∈ bs, b.1.HasBind n ∨ b.2.HasBind n) → FormedBranches bs → 0 < n
  | [], h, _ => by simp at h
  | (_, _) :: _, h, hf => by
    simp only [List.mem_cons, exists_eq_or_imp] at h
    rcases h with (h | h) | h
    · exact h.pos hf.1
    · exact h.pos hf.2.1
    · exact branches_pos h hf.2.2

theorem else_pos : ∀ {o : Option Expr}, (∃ e, o = some e ∧ e.HasBind n) → FormedElse o → 0 < n
  | none, h, _ => by simp at h
  | some _, h, hf => by
    simp only [Option.some.injEq, exists_eq_left'] at h
    exact h.pos hf

theorem Condition.HasBind.pos : ∀ {c : Condition}, c.HasBind n → c.Formed → 0 < n
  | .compare _ _ _, .left h, hf => h.pos hf.1
  | .compare op _ _, .right h, hf => by
    have hright := hf.2
    split at hright
    · exact h.pos_of_members hright
    · exact h.pos hright
  | .logic _ _, .term hc h, hf => terms_pos ⟨_, hc, h⟩ hf.2.2
  | .not _, .not h, hf => h.pos hf
  | .exists _ _, .exists h, hf => h.pos hf

theorem terms_pos : ∀ {cs : List Condition}, (∃ c ∈ cs, c.HasBind n) → FormedTerms cs → 0 < n
  | [], h, _ => by simp at h
  | _ :: _, h, hf => by
    simp only [List.mem_cons, exists_eq_or_imp] at h
    exact h.elim (·.pos hf.1) (terms_pos · hf.2)

theorem clause_pos : ∀ {o : Option Condition}, (∃ c, o = some c ∧ c.HasBind n) →
    FormedCondition o → 0 < n
  | none, h, _ => by simp at h
  | some _, h, hf => by
    simp only [Option.some.injEq, exists_eq_left'] at h
    exact h.pos hf

theorem Source.HasBind.pos : ∀ {s : Source}, s.HasBind n → s.Formed → 0 < n
  | .table _ _, h, _ => nomatch h
  | .query _ _, .query h, hf => h.pos hf

theorem items_pos : ∀ {items : List SelectItem}, (∃ i ∈ items, i.expr.HasBind n) →
    FormedItems items → 0 < n
  | [], h, _ => by simp at h
  | ⟨_, _, _⟩ :: _, h, hf => by
    simp only [List.mem_cons, exists_eq_or_imp] at h
    exact h.elim (·.pos hf.1) (items_pos · hf.2)

theorem joins_pos : ∀ {joins : List JoinClause},
    (∃ j ∈ joins, j.source.HasBind n ∨ j.condition.HasBind n) → FormedJoins joins → 0 < n
  | [], h, _ => by simp at h
  | ⟨_, _, _⟩ :: _, h, hf => by
    simp only [List.mem_cons, exists_eq_or_imp] at h
    rcases h with (h | h) | h
    · exact h.pos hf.1
    · exact h.pos hf.2.1
    · exact joins_pos h hf.2.2

theorem orders_pos : ∀ {orders : List OrderItem}, (∃ o ∈ orders, o.expr.HasBind n) →
    FormedOrder orders → 0 < n
  | [], h, _ => by simp at h
  | ⟨_, _⟩ :: _, h, hf => by
    simp only [List.mem_cons, exists_eq_or_imp] at h
    exact h.elim (·.pos hf.1) (orders_pos · hf.2)

theorem operations_pos : ∀ {operations : List SetOperation},
    (∃ o ∈ operations, o.statement.HasBind n) → FormedOperations operations → 0 < n
  | [], h, _ => by simp at h
  | ⟨_, _⟩ :: _, h, hf => by
    simp only [List.mem_cons, exists_eq_or_imp] at h
    exact h.elim (·.pos hf.1) (operations_pos · hf.2.2)

theorem Statement.HasBind.pos : ∀ {s : Statement}, s.HasBind n → s.Formed → 0 < n
  | ⟨_, _, _, _, _, _, _, _, _, _, _⟩, h, hf => by
    obtain ⟨_, hitems, hsource, hjoins, hfilter, hgroup, hhaving, horder, _, hpivot, hoperations⟩ := hf
    cases h with
    | item hi h => exact items_pos ⟨_, hi, h⟩ hitems
    | source h => exact h.pos hsource
    | joined hj h => exact joins_pos ⟨_, hj, .inl h⟩ hjoins
    | on hj h => exact joins_pos ⟨_, hj, .inr h⟩ hjoins
    | filter hc h => exact clause_pos ⟨_, hc, h⟩ hfilter
    | groupBy he h => exact exprs_pos ⟨_, he, h⟩ hgroup
    | having hc h => exact clause_pos ⟨_, hc, h⟩ hhaving
    | orderBy ho h => exact orders_pos ⟨_, ho, h⟩ horder
    | pivot he h => exact else_pos ⟨_, he, h⟩ hpivot
    | operation ho h => exact operations_pos ⟨_, ho, h⟩ hoperations

end

end Counted

/-! ### Runs in two worlds -/

/-- The runs are one and the same. -/
def coinciding (σ : Type) : Lockstep σ σ where
  rel m n := m = n
  pure _ := rfl
  throw _ := rfl
  bind {_ _ m n f g} hm hf := by
    subst hm
    refine funext fun st => ?_
    change (m >>= f).run st = (m >>= g).run st
    rw [Run.run_bind, Run.run_bind]
    rcases hrun : m.run st with ⟨e | a, st'⟩
    · rfl
    · have hsecond : f a = g a := hf a ⟨st, st', hrun⟩
      change (f a).run st' = (g a).run st'
      rw [hsecond]

theorem coinciding_remembered : (coinciding ResultMemo).Keeps remembered remembered := by
  intro run₁ run₂ q h
  change run₁ q = run₂ q at h
  change remembered run₁ q = remembered run₂ q
  unfold remembered
  rw [h]

theorem run_congr {w₁ w₂ : World} {s : Statement} (agree : w₁.AgreeOn w₂ s) (depth : Nat) :
    run remembered w₁ depth s = run remembered w₂ depth s :=
  (coinciding ResultMemo).run coinciding_remembered depth agree

theorem Binds.get_congr {b b' : Binds} {n most : Nat} (hpos : 0 < n) (hmost : n ≤ most)
    (hsize : most ≤ b'.size) (h : ∀ i < most, b.values[i]? = b'.values[i]?) : b.get n = b'.get n := by
  obtain ⟨i, rfl⟩ := Nat.exists_eq_succ_of_ne_zero (Nat.ne_of_gt hpos)
  have hi : i < b'.values.length := Nat.lt_of_lt_of_le hmost hsize
  simp only [Binds.get, h i hmost, List.getElem?_eq_getElem hi]

theorem require_of_le {b : Binds} {most : Nat} (h : most ≤ b.size) : b.require most = .ok () := by
  unfold Binds.require
  rw [if_neg (Nat.not_lt.mpr h)]

/-- Tables that a statement does not name and values behind the last one it needs have no part in its
result. -/
theorem execute_confined {text : String} {s : Statement} (hs : Parser.parseStatement text = .ok s)
    (hlength : text.utf8ByteSize < Number.twoPow 63) {tables tables' : Tables} {binds binds' : Binds}
    (clock : Calendar.Moment)
    (htables : ∀ name, s.Names name → tables.get? name = tables'.get? name)
    (hbinds : ∀ i < s.maxBind, binds.values[i]? = binds'.values[i]?)
    (hsize : s.maxBind ≤ binds.size) (hsize' : s.maxBind ≤ binds'.size) :
    execute ⟨tables, binds, clock⟩ s = execute ⟨tables', binds', clock⟩ s := by
  have hformed : s.Formed := Parser.parseStatement_formed hlength s hs
  have agree : World.AgreeOn ⟨tables, binds, clock⟩ ⟨tables', binds', clock⟩ s :=
    ⟨rfl, htables, fun n hn =>
      Binds.get_congr (hn.pos hformed) hn.le_maxBind hsize' hbinds⟩
  unfold execute
  rw [require_of_le hsize, require_of_le hsize', run_congr agree]

def existsAbove : String :=
  "SELECT A FROM T WHERE A = ? AND EXISTS (SELECT B FROM U WHERE B = A)"

/-- The tables that `existsAbove` names, and after them or before them another one. -/
def othersBehind : Tables :=
  .ofList [.derived "T" ["A"] [[.text "x"], [.text "y"]], .derived "U" ["B"] [[.text "x"]],
    .derived "V" ["A", "B"] [[.text "y", .text "y"]]]

def othersAhead : Tables :=
  .ofList [.derived "W" ["B"] [], .derived "U" ["B"] [[.text "x"]],
    .derived "T" ["A"] [[.text "x"], [.text "y"]]]

theorem execute_confined_existsAbove :
    ∃ s, Parser.parseStatement existsAbove = .ok s ∧
      existsAbove.utf8ByteSize < Number.twoPow 63 ∧
      (∀ name, s.Names name → othersBehind.get? name = othersAhead.get? name) ∧
      s.maxBind = 1 ∧
      execute ⟨othersBehind, ⟨[.text "x"]⟩, .midnight ⟨2020, 1, 1⟩⟩ s =
        execute ⟨othersAhead, ⟨[.text "x", .text "y"]⟩, .midnight ⟨2020, 1, 1⟩⟩ s := by
  have hread : (Parser.parseStatement existsAbove).toOption.any (fun s =>
      s.namesOnly ["T", "U"] 2 && s.maxBind == 1) = true := by decide +kernel
  have hlength : existsAbove.utf8ByteSize < Number.twoPow 63 := by decide +kernel
  have htable : othersBehind.get? "T" = othersAhead.get? "T" := by cbv
  have hinner : othersBehind.get? "U" = othersAhead.get? "U" := by cbv
  obtain ⟨s, hs, hfacts⟩ := exists_of_any hread
  simp only [Bool.and_eq_true, beq_iff_eq] at hfacts
  obtain ⟨honly, hmost⟩ := hfacts
  have htables : ∀ name, s.Names name → othersBehind.get? name = othersAhead.get? name := by
    intro name hname
    have hlisted : name = "T" ∨ name = "U" := by simpa using hname.mem_of_namesOnly honly
    rcases hlisted with rfl | rfl
    · exact htable
    · exact hinner
  refine ⟨s, hs, hlength, htables, hmost, ?_⟩
  refine execute_confined hs hlength _ htables ?_ (by rw [hmost]; decide) (by rw [hmost]; decide)
  rw [hmost]
  decide

end GridQuery
