import Mathlib.Order.MinMax
import GridQuery.Proofs.Fields
import GridQuery.Proofs.Nested

/-!
Where the placeholders of a statement stand. A tally of the statement sees them all, and what the engine
makes of it, the statements within, their copies for an outer row and its pivoted forms, has no others.
-/

namespace GridQuery
set_option autoImplicit false

mutual

/-- A placeholder with that number stands somewhere in the expression, at any depth. -/
inductive Expr.HasBind (n : Nat) : Expr → Prop where
  | bind : Expr.HasBind n (.bind n)
  | left {op a b} : Expr.HasBind n a → Expr.HasBind n (.binary op a b)
  | right {op a b} : Expr.HasBind n b → Expr.HasBind n (.binary op a b)
  | operand {sign a} : Expr.HasBind n a → Expr.HasBind n (.unary sign a)
  | arg {name distinct args e} : e ∈ args → Expr.HasBind n e →
      Expr.HasBind n (.call name distinct args)
  | when {branches otherwise b} : b ∈ branches → Condition.HasBind n b.1 →
      Expr.HasBind n (.case branches otherwise)
  | then {branches otherwise b} : b ∈ branches → Expr.HasBind n b.2 →
      Expr.HasBind n (.case branches otherwise)
  | else {branches otherwise e} : otherwise = some e → Expr.HasBind n e →
      Expr.HasBind n (.case branches otherwise)
  | test {c a b} : Condition.HasBind n c → Expr.HasBind n (.ite c a b)
  | yes {c a b} : Expr.HasBind n a → Expr.HasBind n (.ite c a b)
  | no {c a b} : Expr.HasBind n b → Expr.HasBind n (.ite c a b)
  | subquery {q} : Statement.HasBind n q → Expr.HasBind n (.subquery q)
  | item {items e} : e ∈ items → Expr.HasBind n e → Expr.HasBind n (.list items)
  | paren {a} : Expr.HasBind n a → Expr.HasBind n (.paren a)

inductive Condition.HasBind (n : Nat) : Condition → Prop where
  | left {op a b} : Expr.HasBind n a → Condition.HasBind n (.compare op a b)
  | right {op a b} : Expr.HasBind n b → Condition.HasBind n (.compare op a b)
  | term {op terms c} : c ∈ terms → Condition.HasBind n c → Condition.HasBind n (.logic op terms)
  | not {c} : Condition.HasBind n c → Condition.HasBind n (.not c)
  | exists {negated q} : Statement.HasBind n q → Condition.HasBind n (.exists negated q)

inductive Source.HasBind (n : Nat) : Source → Prop where
  | query {q alias?} : Statement.HasBind n q → Source.HasBind n (.query q alias?)

inductive Statement.HasBind (n : Nat) : Statement → Prop where
  | item {s : Statement} {i} : i ∈ s.items → Expr.HasBind n i.expr → Statement.HasBind n s
  | source {s : Statement} : Source.HasBind n s.source → Statement.HasBind n s
  | joined {s : Statement} {j} : j ∈ s.joins → Source.HasBind n j.source → Statement.HasBind n s
  | on {s : Statement} {j} : j ∈ s.joins → Condition.HasBind n j.condition → Statement.HasBind n s
  | filter {s : Statement} {c} : s.filter = some c → Condition.HasBind n c → Statement.HasBind n s
  | groupBy {s : Statement} {e} : e ∈ s.groupBy → Expr.HasBind n e → Statement.HasBind n s
  | having {s : Statement} {c} : s.having = some c → Condition.HasBind n c → Statement.HasBind n s
  | orderBy {s : Statement} {o} : o ∈ s.orderBy → Expr.HasBind n o.expr → Statement.HasBind n s
  | pivot {s : Statement} {e} : s.pivot = some e → Expr.HasBind n e → Statement.HasBind n s
  | operation {s : Statement} {o} : o ∈ s.operations → Statement.HasBind n o.statement →
      Statement.HasBind n s

end

/-! ### What a tally sees -/

/-- What holds of a tally's parts holds of the whole. -/
structure Tally.Sees {α : Type} (m : Tally α) (seen : α → Prop) : Prop where
  left : ∀ {a b}, seen a → seen (m.both a b)
  right : ∀ {a b}, seen b → seen (m.both a b)
  nested : ∀ {a}, seen a → seen (m.nested a)

section Seen

variable {α : Type} {m : Tally α} {seen : α → Prop} {n : Nat}

mutual

theorem Expr.HasBind.seen (sees : m.Sees seen) (hn : seen (m.bind n)) : ∀ {e : Expr}, e.HasBind n →
    seen (m.expr e)
  | .literal _, h => nomatch h
  | .column _ _, h => nomatch h
  | .bind _, .bind => hn
  | .binary _ a b, h => by
    simp only [Tally.expr]
    cases h with
    | left h => exact sees.left (h.seen sees hn)
    | right h => exact sees.right (h.seen sees hn)
  | .unary _ a, .operand h => h.seen sees hn
  | .call _ _ args, .arg he h => exprs_seen sees hn ⟨_, he, h⟩
  | .case branches otherwise, h => by
    simp only [Tally.expr]
    cases h with
    | when hb h => exact sees.left (branches_seen sees hn ⟨_, hb, .inl h⟩)
    | «then» hb h => exact sees.left (branches_seen sees hn ⟨_, hb, .inr h⟩)
    | «else» he h => exact sees.right (optional_seen sees hn ⟨_, he, h⟩)
  | .ite c a b, h => by
    simp only [Tally.expr]
    cases h with
    | test h => exact sees.left (h.seen sees hn)
    | yes h => exact sees.right (sees.left (h.seen sees hn))
    | no h => exact sees.right (sees.right (h.seen sees hn))
  | .subquery q, .subquery h => h.seen sees hn
  | .list items, .item he h => exprs_seen sees hn ⟨_, he, h⟩
  | .star _, h => nomatch h
  | .paren a, .paren h => h.seen sees hn

theorem exprs_seen (sees : m.Sees seen) (hn : seen (m.bind n)) : ∀ {es : List Expr},
    (∃ e ∈ es, e.HasBind n) → seen (m.exprs es)
  | [], h => by simp at h
  | _ :: es, h => by
    simp only [List.mem_cons, exists_eq_or_imp] at h
    exact h.elim (fun h => sees.left (h.seen sees hn)) fun h => sees.right (exprs_seen sees hn h)

theorem branches_seen (sees : m.Sees seen) (hn : seen (m.bind n)) : ∀ {bs : List (Condition × Expr)},
    (∃ b ∈ bs, b.1.HasBind n ∨ b.2.HasBind n) → seen (m.pairs bs)
  | [], h => by simp at h
  | (c, e) :: bs, h => by
    simp only [List.mem_cons, exists_eq_or_imp] at h
    rcases h with (h | h) | h
    · exact sees.left (sees.left (h.seen sees hn))
    · exact sees.left (sees.right (h.seen sees hn))
    · exact sees.right (branches_seen sees hn h)

theorem optional_seen (sees : m.Sees seen) (hn : seen (m.bind n)) : ∀ {o : Option Expr},
    (∃ e, o = some e ∧ e.HasBind n) → seen (m.optional o)
  | none, h => by simp at h
  | some e, h => by
    simp only [Option.some.injEq, exists_eq_left'] at h
    exact h.seen sees hn

theorem Condition.HasBind.seen (sees : m.Sees seen) (hn : seen (m.bind n)) : ∀ {c : Condition},
    c.HasBind n → seen (m.condition c)
  | .compare _ a b, h => by
    simp only [Tally.condition]
    cases h with
    | left h => exact sees.left (h.seen sees hn)
    | right h => exact sees.right (h.seen sees hn)
  | .logic _ terms, .term hc h => terms_seen sees hn ⟨_, hc, h⟩
  | .not c, .not h => h.seen sees hn
  | .exists _ q, .exists h => h.seen sees hn

theorem terms_seen (sees : m.Sees seen) (hn : seen (m.bind n)) : ∀ {cs : List Condition},
    (∃ c ∈ cs, c.HasBind n) → seen (m.conditions cs)
  | [], h => by simp at h
  | _ :: cs, h => by
    simp only [List.mem_cons, exists_eq_or_imp] at h
    exact h.elim (fun h => sees.left (h.seen sees hn)) fun h => sees.right (terms_seen sees hn h)

theorem clause_seen (sees : m.Sees seen) (hn : seen (m.bind n)) : ∀ {o : Option Condition},
    (∃ c, o = some c ∧ c.HasBind n) → seen (m.clause o)
  | none, h => by simp at h
  | some c, h => by
    simp only [Option.some.injEq, exists_eq_left'] at h
    exact h.seen sees hn

theorem Source.HasBind.seen (sees : m.Sees seen) (hn : seen (m.bind n)) : ∀ {s : Source},
    s.HasBind n → seen (m.source s)
  | .table _ _, h => nomatch h
  | .query _ _, .query h => h.seen sees hn

theorem items_seen (sees : m.Sees seen) (hn : seen (m.bind n)) : ∀ {items : List SelectItem},
    (∃ i ∈ items, i.expr.HasBind n) → seen (m.items items)
  | [], h => by simp at h
  | ⟨e, _, _⟩ :: items, h => by
    simp only [List.mem_cons, exists_eq_or_imp] at h
    exact h.elim (fun h => sees.left (h.seen sees hn)) fun h => sees.right (items_seen sees hn h)

theorem joins_seen (sees : m.Sees seen) (hn : seen (m.bind n)) : ∀ {joins : List JoinClause},
    (∃ j ∈ joins, j.source.HasBind n ∨ j.condition.HasBind n) → seen (m.joins joins)
  | [], h => by simp at h
  | ⟨_, s, c⟩ :: joins, h => by
    simp only [List.mem_cons, exists_eq_or_imp] at h
    rcases h with (h | h) | h
    · exact sees.left (sees.left (h.seen sees hn))
    · exact sees.left (sees.right (h.seen sees hn))
    · exact sees.right (joins_seen sees hn h)

theorem orders_seen (sees : m.Sees seen) (hn : seen (m.bind n)) : ∀ {orders : List OrderItem},
    (∃ o ∈ orders, o.expr.HasBind n) → seen (m.orders orders)
  | [], h => by simp at h
  | ⟨e, _⟩ :: orders, h => by
    simp only [List.mem_cons, exists_eq_or_imp] at h
    exact h.elim (fun h => sees.left (h.seen sees hn)) fun h => sees.right (orders_seen sees hn h)

theorem operations_seen (sees : m.Sees seen) (hn : seen (m.bind n)) :
    ∀ {operations : List SetOperation}, (∃ o ∈ operations, o.statement.HasBind n) →
      seen (m.operations operations)
  | [], h => by simp at h
  | ⟨_, s⟩ :: operations, h => by
    simp only [List.mem_cons, exists_eq_or_imp] at h
    exact h.elim (fun h => sees.left (h.seen sees hn))
      fun h => sees.right (operations_seen sees hn h)

/-- A tally sees every placeholder of a statement. -/
theorem Statement.HasBind.seen (sees : m.Sees seen) (hn : seen (m.bind n)) : ∀ {s : Statement},
    s.HasBind n → seen (m.statement s)
  | ⟨_, items, source, joins, filter, groupBy, having, orderBy, _, pivot, operations⟩, h => by
    simp only [Tally.statement]
    refine sees.nested ?_
    cases h with
    | item hi h => exact sees.left (items_seen sees hn ⟨_, hi, h⟩)
    | source h => exact sees.right (sees.left (h.seen sees hn))
    | joined hj h => exact sees.right (sees.right (sees.left (joins_seen sees hn ⟨_, hj, .inl h⟩)))
    | on hj h => exact sees.right (sees.right (sees.left (joins_seen sees hn ⟨_, hj, .inr h⟩)))
    | filter hc h =>
      exact sees.right (sees.right (sees.right (sees.left (clause_seen sees hn ⟨_, hc, h⟩))))
    | groupBy he h =>
      exact sees.right (sees.right (sees.right (sees.right (sees.left
        (exprs_seen sees hn ⟨_, he, h⟩)))))
    | having hc h =>
      exact sees.right (sees.right (sees.right (sees.right (sees.right (sees.left
        (clause_seen sees hn ⟨_, hc, h⟩))))))
    | orderBy ho h =>
      exact sees.right (sees.right (sees.right (sees.right (sees.right (sees.right (sees.left
        (orders_seen sees hn ⟨_, ho, h⟩)))))))
    | pivot he h =>
      exact sees.right (sees.right (sees.right (sees.right (sees.right (sees.right (sees.right
        (sees.left (optional_seen sees hn ⟨_, he, h⟩))))))))
    | operation ho h =>
      exact sees.right (sees.right (sees.right (sees.right (sees.right (sees.right (sees.right
        (sees.right (operations_seen sees hn ⟨_, ho, h⟩))))))))

end

/-- No placeholder of a statement is above the one that is looked for before the statement runs. -/
theorem Statement.HasBind.le_maxBind {s : Statement} (h : s.HasBind n) : n ≤ s.maxBind := by
  have sees : highestBind.Sees (n ≤ ·) := ⟨le_max_of_le_left, le_max_of_le_right, id⟩
  exact h.seen sees (Nat.le_refl n)

/-- The placeholders of statements, conditions and expressions, in the order they stand. -/
def placeholders : Tally (List Nat) :=
  ⟨[], (· ++ ·), fun n => [n], id⟩

theorem Statement.HasBind.mem_placeholders {s : Statement} (h : s.HasBind n) :
    n ∈ placeholders.statement s := by
  have sees : placeholders.Sees (n ∈ ·) := ⟨List.mem_append_left _, List.mem_append_right _, id⟩
  exact h.seen sees (List.mem_singleton_self n)

end Seen

/-! ### What a tally is made of -/

/-- What holds of all parts that a tally puts together holds of the whole. -/
structure Tally.Closed {α : Type} (m : Tally α) (P : α → Prop) : Prop where
  zero : P m.zero
  both : ∀ {a b}, P a → P b → P (m.both a b)
  nested : ∀ {a}, P a → P (m.nested a)

section

variable {α : Type} {m : Tally α} {P : α → Prop}

mutual

theorem Expr.tally_closed (hm : m.Closed P) : ∀ {e : Expr}, (∀ n, e.HasBind n → P (m.bind n)) →
    P (m.expr e)
  | .literal _, _ | .column .., _ | .star _, _ => hm.zero
  | .bind n, h => h n .bind
  | .binary .., h =>
    hm.both (Expr.tally_closed hm fun n hn => h n (.left hn)) (Expr.tally_closed hm fun n hn => h n (.right hn))
  | .unary _ a, h => Expr.tally_closed (e := a) hm fun n hn => h n (.operand hn)
  | .call _ _ args, h =>
    show P (m.exprs args) from exprs_tally_closed hm fun n _ he hn => h n (.arg he hn)
  | .case .., h =>
    hm.both (branches_tally_closed hm fun n _ hb hn => h n (hn.elim (.when hb) (.then hb)))
      (optional_tally_closed hm fun n _ he hn => h n (.else he hn))
  | .ite .., h =>
    hm.both (Condition.tally_closed hm fun n hn => h n (.test hn))
      (hm.both (Expr.tally_closed hm fun n hn => h n (.yes hn)) (Expr.tally_closed hm fun n hn => h n (.no hn)))
  | .subquery q, h => Statement.tally_closed (s := q) hm fun n hn => h n (.subquery hn)
  | .list items, h =>
    show P (m.exprs items) from exprs_tally_closed hm fun n _ he hn => h n (.item he hn)
  | .paren a, h => Expr.tally_closed (e := a) hm fun n hn => h n (.paren hn)

theorem exprs_tally_closed (hm : m.Closed P) : ∀ {es : List Expr},
    (∀ n, ∀ e ∈ es, e.HasBind n → P (m.bind n)) → P (m.exprs es)
  | [], _ => hm.zero
  | _ :: _, h =>
    hm.both (Expr.tally_closed hm fun n => h n _ (.head _))
      (exprs_tally_closed hm fun n e he => h n e (.tail _ he))

theorem branches_tally_closed (hm : m.Closed P) : ∀ {bs : List (Condition × Expr)},
    (∀ n, ∀ b ∈ bs, b.1.HasBind n ∨ b.2.HasBind n → P (m.bind n)) → P (m.pairs bs)
  | [], _ => hm.zero
  | (_, _) :: _, h =>
    hm.both (hm.both (Condition.tally_closed hm fun n hn => h n _ (.head _) (.inl hn))
        (Expr.tally_closed hm fun n hn => h n _ (.head _) (.inr hn)))
      (branches_tally_closed hm fun n b hb => h n b (.tail _ hb))

theorem optional_tally_closed (hm : m.Closed P) : ∀ {o : Option Expr},
    (∀ n, ∀ e, o = some e → e.HasBind n → P (m.bind n)) → P (m.optional o)
  | none, _ => hm.zero
  | some e, h => Expr.tally_closed (e := e) hm fun n => h n e rfl

theorem Condition.tally_closed (hm : m.Closed P) : ∀ {c : Condition},
    (∀ n, c.HasBind n → P (m.bind n)) → P (m.condition c)
  | .compare .., h =>
    hm.both (Expr.tally_closed hm fun n hn => h n (.left hn)) (Expr.tally_closed hm fun n hn => h n (.right hn))
  | .logic _ terms, h =>
    show P (m.conditions terms) from terms_tally_closed hm fun n _ hc hn => h n (.term hc hn)
  | .not c, h => Condition.tally_closed (c := c) hm fun n hn => h n (.not hn)
  | .exists _ q, h => Statement.tally_closed (s := q) hm fun n hn => h n (.exists hn)

theorem terms_tally_closed (hm : m.Closed P) : ∀ {cs : List Condition},
    (∀ n, ∀ c ∈ cs, c.HasBind n → P (m.bind n)) → P (m.conditions cs)
  | [], _ => hm.zero
  | _ :: _, h =>
    hm.both (Condition.tally_closed hm fun n => h n _ (.head _))
      (terms_tally_closed hm fun n c hc => h n c (.tail _ hc))

theorem clause_tally_closed (hm : m.Closed P) : ∀ {o : Option Condition},
    (∀ n, ∀ c, o = some c → c.HasBind n → P (m.bind n)) → P (m.clause o)
  | none, _ => hm.zero
  | some c, h => Condition.tally_closed (c := c) hm fun n => h n c rfl

theorem Source.tally_closed (hm : m.Closed P) : ∀ {s : Source},
    (∀ n, s.HasBind n → P (m.bind n)) → P (m.source s)
  | .table .., _ => hm.zero
  | .query q _, h => Statement.tally_closed (s := q) hm fun n hn => h n (.query hn)

theorem items_tally_closed (hm : m.Closed P) : ∀ {items : List SelectItem},
    (∀ n, ∀ i ∈ items, i.expr.HasBind n → P (m.bind n)) → P (m.items items)
  | [], _ => hm.zero
  | ⟨_, _, _⟩ :: _, h =>
    hm.both (Expr.tally_closed hm fun n => h n _ (.head _))
      (items_tally_closed hm fun n i hi => h n i (.tail _ hi))

theorem joins_tally_closed (hm : m.Closed P) : ∀ {joins : List JoinClause},
    (∀ n, ∀ j ∈ joins, j.source.HasBind n ∨ j.condition.HasBind n → P (m.bind n)) → P (m.joins joins)
  | [], _ => hm.zero
  | ⟨_, _, _⟩ :: _, h =>
    hm.both (hm.both (Source.tally_closed hm fun n hn => h n _ (.head _) (.inl hn))
        (Condition.tally_closed hm fun n hn => h n _ (.head _) (.inr hn)))
      (joins_tally_closed hm fun n j hj => h n j (.tail _ hj))

theorem orders_tally_closed (hm : m.Closed P) : ∀ {orders : List OrderItem},
    (∀ n, ∀ o ∈ orders, o.expr.HasBind n → P (m.bind n)) → P (m.orders orders)
  | [], _ => hm.zero
  | ⟨_, _⟩ :: _, h =>
    hm.both (Expr.tally_closed hm fun n => h n _ (.head _))
      (orders_tally_closed hm fun n o ho => h n o (.tail _ ho))

theorem operations_tally_closed (hm : m.Closed P) : ∀ {operations : List SetOperation},
    (∀ n, ∀ o ∈ operations, o.statement.HasBind n → P (m.bind n)) → P (m.operations operations)
  | [], _ => hm.zero
  | ⟨_, _⟩ :: _, h =>
    hm.both (Statement.tally_closed hm fun n => h n _ (.head _))
      (operations_tally_closed hm fun n o ho => h n o (.tail _ ho))

/-- A tally of a statement is made of its placeholders. -/
theorem Statement.tally_closed (hm : m.Closed P) : ∀ {s : Statement},
    (∀ n, s.HasBind n → P (m.bind n)) → P (m.statement s)
  | ⟨_, _, _, _, _, _, _, _, _, _, _⟩, h =>
    hm.nested <|
      hm.both (items_tally_closed hm fun n _ hi hn => h n (.item hi hn)) <|
      hm.both (Source.tally_closed hm fun n hn => h n (.source hn)) <|
      hm.both (joins_tally_closed hm fun n _ hj hn => h n (hn.elim (.joined hj) (.on hj))) <|
      hm.both (clause_tally_closed hm fun n _ hc hn => h n (.filter hc hn)) <|
      hm.both (exprs_tally_closed hm fun n _ he hn => h n (.groupBy he hn)) <|
      hm.both (clause_tally_closed hm fun n _ hc hn => h n (.having hc hn)) <|
      hm.both (orders_tally_closed hm fun n _ ho hn => h n (.orderBy ho hn)) <|
      hm.both (optional_tally_closed hm fun n _ he hn => h n (.pivot he hn))
        (operations_tally_closed hm fun n _ ho hn => h n (.operation ho hn))

end

end

theorem Statement.maxBind_le {s : Statement} {n : Nat} (h : ∀ k, s.HasBind k → k ≤ n) :
    s.maxBind ≤ n := by
  have hm : highestBind.Closed (· ≤ n) := ⟨Nat.zero_le n, fun ha hb => Nat.max_le.2 ⟨ha, hb⟩, id⟩
  exact Statement.tally_closed hm h

/-- Where the numbers are those from one up to `n`, the highest is `n`. -/
theorem Statement.maxBind_eq {s : Statement} {n : Nat} (h : ∀ k, s.HasBind k ↔ 1 ≤ k ∧ k ≤ n) :
    s.maxBind = n := by
  refine Nat.le_antisymm (Statement.maxBind_le fun k hk => ((h k).1 hk).2) ?_
  by_cases hn : n = 0
  · omega
  · exact ((h n).2 ⟨by omega, Nat.le_refl n⟩).le_maxBind

/-! ### Statements within -/

section Within

variable {n : Nat} {q : Statement}

mutual

theorem Expr.hasBind_of_statements : ∀ {e : Expr}, q ∈ e.statements → q.HasBind n → e.HasBind n
  | .literal _, hq, _ | .column _ _, hq, _ | .bind _, hq, _ | .star _, hq, _ => by
    simp [Expr.statements] at hq
  | .binary _ a b, hq, h => by
    simp only [Expr.statements, List.mem_append] at hq
    exact hq.elim (fun hq => .left (Expr.hasBind_of_statements hq h))
      fun hq => .right (Expr.hasBind_of_statements hq h)
  | .unary _ a, hq, h => .operand (Expr.hasBind_of_statements hq h)
  | .call _ _ args, hq, h => by
    obtain ⟨e, he, h⟩ := exprs_hasBind_of_statements hq h
    exact .arg he h
  | .case branches otherwise, hq, h => by
    simp only [Expr.statements, List.mem_append] at hq
    rcases hq with hq | hq
    · obtain ⟨b, hb, h⟩ := branches_hasBind_of_statements hq h
      exact h.elim (.when hb) (.then hb)
    · obtain ⟨e, he, h⟩ := else_hasBind_of_statements hq h
      exact .else he h
  | .ite c a b, hq, h => by
    simp only [Expr.statements, List.mem_append] at hq
    rcases hq with hq | hq | hq
    · exact .test (Condition.hasBind_of_statements hq h)
    · exact .yes (Expr.hasBind_of_statements hq h)
    · exact .no (Expr.hasBind_of_statements hq h)
  | .subquery _, hq, h => by
    obtain rfl := List.mem_singleton.mp hq
    exact .subquery h
  | .list items, hq, h => by
    obtain ⟨e, he, h⟩ := exprs_hasBind_of_statements hq h
    exact .item he h
  | .paren a, hq, h => .paren (Expr.hasBind_of_statements hq h)

theorem exprs_hasBind_of_statements : ∀ {es : List Expr}, q ∈ exprsStatements es → q.HasBind n →
    ∃ e ∈ es, e.HasBind n
  | [], hq, _ => by simp [exprsStatements] at hq
  | e :: es, hq, h => by
    simp only [exprsStatements, List.mem_append] at hq
    simp only [List.mem_cons, exists_eq_or_imp]
    exact hq.imp (Expr.hasBind_of_statements · h) (exprs_hasBind_of_statements · h)

theorem branches_hasBind_of_statements : ∀ {bs : List (Condition × Expr)},
    q ∈ branchesStatements bs → q.HasBind n → ∃ b ∈ bs, b.1.HasBind n ∨ b.2.HasBind n
  | [], hq, _ => by simp [branchesStatements] at hq
  | (c, e) :: bs, hq, h => by
    simp only [branchesStatements, List.mem_append] at hq
    simp only [List.mem_cons, exists_eq_or_imp]
    rcases hq with hq | hq | hq
    · exact .inl (.inl (Condition.hasBind_of_statements hq h))
    · exact .inl (.inr (Expr.hasBind_of_statements hq h))
    · exact .inr (branches_hasBind_of_statements hq h)

theorem else_hasBind_of_statements : ∀ {o : Option Expr}, q ∈ elseStatements o → q.HasBind n →
    ∃ e, o = some e ∧ e.HasBind n
  | none, hq, _ => by simp [elseStatements] at hq
  | some e, hq, h => ⟨e, rfl, Expr.hasBind_of_statements hq h⟩

theorem Condition.hasBind_of_statements : ∀ {c : Condition}, q ∈ c.statements → q.HasBind n →
    c.HasBind n
  | .compare _ a b, hq, h => by
    simp only [Condition.statements, List.mem_append] at hq
    exact hq.elim (fun hq => .left (Expr.hasBind_of_statements hq h))
      fun hq => .right (Expr.hasBind_of_statements hq h)
  | .logic _ terms, hq, h => by
    obtain ⟨c, hc, h⟩ := terms_hasBind_of_statements hq h
    exact .term hc h
  | .not c, hq, h => .not (Condition.hasBind_of_statements hq h)
  | .exists _ _, hq, h => by
    obtain rfl := List.mem_singleton.mp hq
    exact .exists h

theorem terms_hasBind_of_statements : ∀ {cs : List Condition}, q ∈ termsStatements cs →
    q.HasBind n → ∃ c ∈ cs, c.HasBind n
  | [], hq, _ => by simp [termsStatements] at hq
  | c :: cs, hq, h => by
    simp only [termsStatements, List.mem_append] at hq
    simp only [List.mem_cons, exists_eq_or_imp]
    exact hq.imp (Condition.hasBind_of_statements · h) (terms_hasBind_of_statements · h)

end

theorem Source.hasBind_of_statements {s : Source} (hq : q ∈ s.statements) (h : q.HasBind n) :
    s.HasBind n := by
  cases s with
  | table name alias? => cases hq
  | query q' alias? =>
    obtain rfl := List.mem_singleton.mp hq
    exact .query h

/-- The placeholders of a statement within another one are placeholders of the whole. -/
theorem Statement.Within.hasBind {s : Statement} (hw : s.Within q) (h : q.HasBind n) :
    s.HasBind n := by
  cases hw with
  | source hq => exact .source (Source.hasBind_of_statements hq h)
  | joined hj hq => exact .joined hj (Source.hasBind_of_statements hq h)
  | on hj hq => exact .on hj (Condition.hasBind_of_statements hq h)
  | item hi hq => exact .item hi (Expr.hasBind_of_statements hq h)
  | filter hc hq => exact .filter hc (Condition.hasBind_of_statements hq h)
  | groupBy he hq => exact .groupBy he (Expr.hasBind_of_statements hq h)
  | having hc hq => exact .having hc (Condition.hasBind_of_statements hq h)
  | orderBy ho hq => exact .orderBy ho (Expr.hasBind_of_statements hq h)
  | pivot he hq => exact .pivot he (Expr.hasBind_of_statements hq h)
  | operation ho => exact .operation ho h

end Within

/-! ### Copies for an outer row -/

section Bound

variable {n : Nat} {ts : Tables} {cell : String → Option Cell}

theorem not_hasBind_outerExpr {scopes : List Schema} {table : Option String} {name : String} :
    ¬ (outerExpr scopes cell table name).HasBind n := by
  intro h
  unfold outerExpr at h
  split at h
  · cases h
  · split at h <;> cases h

mutual

theorem Expr.hasBind_of_bindOuter {scopes : List Schema} : ∀ {e : Expr},
    (e.bindOuter ts cell scopes).HasBind n → e.HasBind n
  | .literal _, h => nomatch h
  | .column _ _, h => (not_hasBind_outerExpr h).elim
  | .bind _, h => h
  | .binary _ a b, h => by
    simp only [Expr.bindOuter] at h
    cases h with
    | left h => exact .left (Expr.hasBind_of_bindOuter h)
    | right h => exact .right (Expr.hasBind_of_bindOuter h)
  | .unary _ a, .operand h => .operand (Expr.hasBind_of_bindOuter h)
  | .call _ _ args, .arg he h => by
    obtain ⟨e, he, h⟩ := exprs_hasBind_of_bind ⟨_, he, h⟩
    exact .arg he h
  | .case branches otherwise, h => by
    simp only [Expr.bindOuter] at h
    cases h with
    | when hb h =>
      obtain ⟨b, hb, h⟩ := branches_hasBind_of_bind ⟨_, hb, .inl h⟩
      exact h.elim (.when hb) (.then hb)
    | «then» hb h =>
      obtain ⟨b, hb, h⟩ := branches_hasBind_of_bind ⟨_, hb, .inr h⟩
      exact h.elim (.when hb) (.then hb)
    | «else» he h =>
      obtain ⟨e, he, h⟩ := optional_hasBind_of_bind ⟨_, he, h⟩
      exact .else he h
  | .ite c a b, h => by
    simp only [Expr.bindOuter] at h
    cases h with
    | test h => exact .test (Condition.hasBind_of_bindOuter h)
    | yes h => exact .yes (Expr.hasBind_of_bindOuter h)
    | no h => exact .no (Expr.hasBind_of_bindOuter h)
  | .subquery q, .subquery h => .subquery (Statement.hasBind_of_bindIn h)
  | .list items, .item he h => by
    obtain ⟨e, he, h⟩ := exprs_hasBind_of_bind ⟨_, he, h⟩
    exact .item he h
  | .star _, h => nomatch h
  | .paren a, .paren h => .paren (Expr.hasBind_of_bindOuter h)

theorem exprs_hasBind_of_bind {scopes : List Schema} : ∀ {es : List Expr},
    (∃ e ∈ exprsBind ts cell scopes es, e.HasBind n) → ∃ e ∈ es, e.HasBind n
  | [], h => by simp [exprsBind] at h
  | e :: es, h => by
    simp only [exprsBind, List.mem_cons, exists_eq_or_imp] at h ⊢
    exact h.imp Expr.hasBind_of_bindOuter exprs_hasBind_of_bind

theorem branches_hasBind_of_bind {scopes : List Schema} : ∀ {bs : List (Condition × Expr)},
    (∃ b ∈ branchesBind ts cell scopes bs, b.1.HasBind n ∨ b.2.HasBind n) →
      ∃ b ∈ bs, b.1.HasBind n ∨ b.2.HasBind n
  | [], h => by simp [branchesBind] at h
  | (c, e) :: bs, h => by
    simp only [branchesBind, List.mem_cons, exists_eq_or_imp] at h ⊢
    exact h.imp (Or.imp Condition.hasBind_of_bindOuter Expr.hasBind_of_bindOuter)
      branches_hasBind_of_bind

theorem optional_hasBind_of_bind {scopes : List Schema} : ∀ {o : Option Expr},
    (∃ e, optionalBind ts cell scopes o = some e ∧ e.HasBind n) → ∃ e, o = some e ∧ e.HasBind n
  | none, h => by simp [optionalBind] at h
  | some e, h => by
    simp only [optionalBind, Option.some.injEq, exists_eq_left'] at h ⊢
    exact Expr.hasBind_of_bindOuter h

theorem Condition.hasBind_of_bindOuter {scopes : List Schema} : ∀ {c : Condition},
    (c.bindOuter ts cell scopes).HasBind n → c.HasBind n
  | .compare _ a b, h => by
    simp only [Condition.bindOuter] at h
    cases h with
    | left h => exact .left (Expr.hasBind_of_bindOuter h)
    | right h => exact .right (Expr.hasBind_of_bindOuter h)
  | .logic _ terms, .term hc h => by
    obtain ⟨c, hc, h⟩ := terms_hasBind_of_bind ⟨_, hc, h⟩
    exact .term hc h
  | .not c, .not h => .not (Condition.hasBind_of_bindOuter h)
  | .exists _ q, .exists h => .exists (Statement.hasBind_of_bindIn h)

theorem terms_hasBind_of_bind {scopes : List Schema} : ∀ {cs : List Condition},
    (∃ c ∈ termsBind ts cell scopes cs, c.HasBind n) → ∃ c ∈ cs, c.HasBind n
  | [], h => by simp [termsBind] at h
  | c :: cs, h => by
    simp only [termsBind, List.mem_cons, exists_eq_or_imp] at h ⊢
    exact h.imp Condition.hasBind_of_bindOuter terms_hasBind_of_bind

theorem clause_hasBind_of_bind {scopes : List Schema} : ∀ {o : Option Condition},
    (∃ c, clauseBind ts cell scopes o = some c ∧ c.HasBind n) → ∃ c, o = some c ∧ c.HasBind n
  | none, h => by simp [clauseBind] at h
  | some c, h => by
    simp only [clauseBind, Option.some.injEq, exists_eq_left'] at h ⊢
    exact Condition.hasBind_of_bindOuter h

theorem Source.hasBind_of_bindOuter {scopes : List Schema} : ∀ {s : Source},
    (s.bindOuter ts cell scopes).HasBind n → s.HasBind n
  | .table _ _, h => nomatch h
  | .query q _, .query h => .query (Statement.hasBind_of_bindIn h)

theorem items_hasBind_of_bind {scopes : List Schema} : ∀ {items : List SelectItem},
    (∃ i ∈ itemsBind ts cell scopes items, i.expr.HasBind n) → ∃ i ∈ items, i.expr.HasBind n
  | [], h => by simp [itemsBind] at h
  | ⟨e, _, _⟩ :: items, h => by
    simp only [itemsBind, List.mem_cons, exists_eq_or_imp] at h ⊢
    exact h.imp Expr.hasBind_of_bindOuter items_hasBind_of_bind

theorem joins_hasBind_of_bind {scopes : List Schema} : ∀ {joins : List JoinClause},
    (∃ j ∈ joinsBind ts cell scopes joins, j.source.HasBind n ∨ j.condition.HasBind n) →
      ∃ j ∈ joins, j.source.HasBind n ∨ j.condition.HasBind n
  | [], h => by simp [joinsBind] at h
  | ⟨_, s, c⟩ :: joins, h => by
    simp only [joinsBind, List.mem_cons, exists_eq_or_imp] at h ⊢
    exact h.imp (Or.imp Source.hasBind_of_bindOuter Condition.hasBind_of_bindOuter)
      joins_hasBind_of_bind

theorem orders_hasBind_of_bind {scopes : List Schema} : ∀ {orders : List OrderItem},
    (∃ o ∈ ordersBind ts cell scopes orders, o.expr.HasBind n) → ∃ o ∈ orders, o.expr.HasBind n
  | [], h => by simp [ordersBind] at h
  | ⟨e, _⟩ :: orders, h => by
    simp only [ordersBind, List.mem_cons, exists_eq_or_imp] at h ⊢
    exact h.imp Expr.hasBind_of_bindOuter orders_hasBind_of_bind

theorem operations_hasBind_of_bind {scopes : List Schema} : ∀ {operations : List SetOperation},
    (∃ o ∈ operationsBind ts cell scopes operations, o.statement.HasBind n) →
      ∃ o ∈ operations, o.statement.HasBind n
  | [], h => by simp [operationsBind] at h
  | ⟨_, s⟩ :: operations, h => by
    simp only [operationsBind, List.mem_cons, exists_eq_or_imp] at h ⊢
    exact h.imp Statement.hasBind_of_bindIn operations_hasBind_of_bind

/-- Binding outer columns puts no placeholder into a statement. -/
theorem Statement.hasBind_of_bindIn {scopes : List Schema} : ∀ {q : Statement},
    (q.bindIn ts cell scopes).HasBind n → q.HasBind n
  | ⟨_, items, source, joins, filter, groupBy, having, orderBy, _, pivot, operations⟩, h => by
    simp only [Statement.bindIn] at h
    cases h with
    | item hi h =>
      obtain ⟨i, hi, h⟩ := items_hasBind_of_bind ⟨_, hi, h⟩
      exact .item hi h
    | source h => exact .source (Source.hasBind_of_bindOuter h)
    | joined hj h =>
      obtain ⟨j, hj, h⟩ := joins_hasBind_of_bind ⟨_, hj, .inl h⟩
      exact h.elim (.joined hj) (.on hj)
    | on hj h =>
      obtain ⟨j, hj, h⟩ := joins_hasBind_of_bind ⟨_, hj, .inr h⟩
      exact h.elim (.joined hj) (.on hj)
    | filter hc h =>
      obtain ⟨c, hc, h⟩ := clause_hasBind_of_bind ⟨_, hc, h⟩
      exact .filter hc h
    | groupBy he h =>
      obtain ⟨e, he, h⟩ := exprs_hasBind_of_bind ⟨_, he, h⟩
      exact .groupBy he h
    | having hc h =>
      obtain ⟨c, hc, h⟩ := clause_hasBind_of_bind ⟨_, hc, h⟩
      exact .having hc h
    | orderBy ho h =>
      obtain ⟨o, ho, h⟩ := orders_hasBind_of_bind ⟨_, ho, h⟩
      exact .orderBy ho h
    | pivot he h =>
      obtain ⟨e, he, h⟩ := optional_hasBind_of_bind ⟨_, he, h⟩
      exact .pivot he h
    | operation ho h =>
      obtain ⟨o, ho, h⟩ := operations_hasBind_of_bind ⟨_, ho, h⟩
      exact .operation ho h

end

end Bound

/-! ### Parts, fields and pivoted forms -/

section Made

variable {n : Nat}

theorem aggregate_hasBind : ∀ {e : Expr} {call : AggregateCall}, e.aggregate? = some call →
    ∀ {a : Expr}, a ∈ call.args → a.HasBind n → e.HasBind n
  | .call name distinct args, call, h, a, ha, hn => by
    simp only [Expr.aggregate?, Option.map_eq_some_iff] at h
    obtain ⟨_, _, rfl⟩ := h
    exact .arg ha hn
  | .paren e, call, h, a, ha, hn => .paren (aggregate_hasBind (e := e) h ha hn)
  | .literal _, _, h, _, _, _ | .column .., _, h, _, _, _ | .bind _, _, h, _, _, _
  | .binary .., _, h, _, _, _ | .unary .., _, h, _, _, _ | .case .., _, h, _, _, _
  | .ite .., _, h, _, _, _ | .subquery _, _, h, _, _, _ | .list _, _, h, _, _, _
  | .star _, _, h, _, _, _ => by simp [Expr.aggregate?] at h

mutual

theorem parts_hasBind {p : Expr} : ∀ {e : Expr}, p ∈ e.parts → p.HasBind n → e.HasBind n
  | .binary op a b, h, hn => by
    simp only [Expr.parts, List.mem_cons, List.mem_append] at h
    rcases h with rfl | h | h
    · exact hn
    · exact .left (parts_hasBind h hn)
    · exact .right (parts_hasBind h hn)
  | .unary sign a, h, hn => by
    simp only [Expr.parts, List.mem_cons] at h
    rcases h with rfl | h
    · exact hn
    · exact .operand (parts_hasBind h hn)
  | .paren a, h, hn => by
    simp only [Expr.parts, List.mem_cons] at h
    rcases h with rfl | h
    · exact hn
    · exact .paren (parts_hasBind h hn)
  | .call name distinct args, h, hn => by
    simp only [Expr.parts, List.mem_cons] at h
    rcases h with rfl | h
    · exact hn
    · obtain ⟨e, he, hn⟩ := exprsParts_hasBind h hn
      exact .arg he hn
  | .list items, h, hn => by
    simp only [Expr.parts, List.mem_cons] at h
    rcases h with rfl | h
    · exact hn
    · obtain ⟨e, he, hn⟩ := exprsParts_hasBind h hn
      exact .item he hn
  | .case branches otherwise, h, hn => by
    simp only [Expr.parts, List.mem_cons, List.mem_append] at h
    rcases h with rfl | h | h
    · exact hn
    · obtain ⟨b, hb, hn⟩ := branchesParts_hasBind h hn
      exact hn.elim (.when hb) (.then hb)
    · obtain ⟨e, he, hn⟩ := elseParts_hasBind h hn
      exact .else he hn
  | .ite c a b, h, hn => by
    simp only [Expr.parts, List.mem_cons, List.mem_append] at h
    rcases h with rfl | (h | h) | h
    · exact hn
    · exact .test (conditionParts_hasBind h hn)
    · exact .yes (parts_hasBind h hn)
    · exact .no (parts_hasBind h hn)
  | .literal _, h, hn | .column .., h, hn | .bind _, h, hn | .subquery _, h, hn
  | .star _, h, hn => by
    simp only [Expr.parts, List.mem_singleton] at h
    subst h
    exact hn

theorem exprsParts_hasBind {p : Expr} : ∀ {es : List Expr}, p ∈ exprsParts es → p.HasBind n →
    ∃ e ∈ es, e.HasBind n
  | [], h, _ => by simp [exprsParts] at h
  | e :: es, h, hn => by
    simp only [exprsParts, List.mem_append] at h
    simp only [List.mem_cons, exists_eq_or_imp]
    exact h.imp (parts_hasBind · hn) (exprsParts_hasBind · hn)

theorem branchesParts_hasBind {p : Expr} : ∀ {bs : List (Condition × Expr)},
    p ∈ branchesParts bs → p.HasBind n → ∃ b ∈ bs, b.1.HasBind n ∨ b.2.HasBind n
  | [], h, _ => by simp [branchesParts] at h
  | (c, e) :: bs, h, hn => by
    simp only [branchesParts, List.mem_append] at h
    simp only [List.mem_cons, exists_eq_or_imp]
    exact h.imp (Or.imp (conditionParts_hasBind · hn) (parts_hasBind · hn))
      (branchesParts_hasBind · hn)

theorem elseParts_hasBind {p : Expr} : ∀ {o : Option Expr}, p ∈ elseParts o → p.HasBind n →
    ∃ e, o = some e ∧ e.HasBind n
  | none, h, _ => by simp [elseParts] at h
  | some e, h, hn => ⟨e, rfl, parts_hasBind h hn⟩

theorem conditionParts_hasBind {p : Expr} : ∀ {c : Condition}, p ∈ c.parts → p.HasBind n →
    c.HasBind n
  | .compare op a b, h, hn => by
    simp only [Condition.parts, List.mem_append] at h
    exact h.elim (fun h => .left (parts_hasBind h hn)) fun h => .right (parts_hasBind h hn)
  | .logic op terms, h, hn => by
    obtain ⟨c, hc, hn⟩ := termsParts_hasBind h hn
    exact .term hc hn
  | .not c, h, hn => .not (conditionParts_hasBind h hn)
  | .exists negated q, h, _ => by simp [Condition.parts] at h

theorem termsParts_hasBind {p : Expr} : ∀ {cs : List Condition}, p ∈ termsParts cs →
    p.HasBind n → ∃ c ∈ cs, c.HasBind n
  | [], h, _ => by simp [termsParts] at h
  | c :: cs, h, hn => by
    simp only [termsParts, List.mem_append] at h
    simp only [List.mem_cons, exists_eq_or_imp]
    exact h.imp (conditionParts_hasBind · hn) (termsParts_hasBind · hn)

end

/-- A placeholder stands in what a field computes. -/
def FieldKind.HasBind (n : Nat) : FieldKind → Prop
  | .column _ _ => False
  | .calculated e => e.HasBind n
  | .subquery q => q.HasBind n
  | .star => False

theorem Field.ofValue_hasBind {sources : List Table} {title : String} {e : Expr} {f : Field}
    (h : ofValue sources title e = .ok f) (hn : f.kind.HasBind n) : e.HasBind n := by
  unfold ofValue at h
  split at h
  · cases h
    exact hn.elim
  · cases h
  · split at h
    · cases h
      split at hn
      · rw [spellColumn_kind] at hn
        exact hn.elim
      · exact hn.elim
    · cases h
  · cases h
    exact .subquery hn
  · split at h
    · cases h
    · cases h
      exact hn

theorem Field.ofExpr_hasBind {sources : List Table} {title : String} {e : Expr} {f : Field}
    (h : ofExpr sources title e = .ok f) (hn : f.kind.HasBind n) : e.HasBind n := by
  unfold ofExpr at h
  split at h
  · exact ofValue_hasBind h hn
  · rename_i call hcall
    split at h
    · rename_i arg harg
      obtain ⟨g, hg, h⟩ := bind_eq_ok.mp h
      cases h
      refine aggregate_hasBind hcall ?_ (ofValue_hasBind hg hn)
      rw [harg]
      exact List.mem_singleton_self arg
    · cases h

theorem Fields.ofItem_hasBind {sources : List Table} {item : SelectItem} {fs : Fields}
    (h : ofItem sources item = .ok fs) {f : Field} (hf : f ∈ fs) (hn : f.kind.HasBind n) :
    item.expr.HasBind n := by
  rcases mem_ofItem h hf with ⟨s, source, _, hf⟩ | ⟨g, hg, he⟩
  · obtain ⟨t, _, rfl⟩ := List.mem_map.mp hf
    simp only [Field.spellColumn_kind, Field.ofKind, FieldKind.HasBind] at hn
  · rw [he, Field.spell_kind] at hn
    exact Field.ofExpr_hasBind hg hn

theorem Fields.hidden_hasBind {sources : List Table} {clause : String} {e : Expr} {f : Field}
    (h : hidden sources clause e = .ok f) (hn : f.kind.HasBind n) : e.HasBind n := by
  obtain ⟨g, hg, rfl⟩ := hidden_eq_ok h
  exact Field.ofExpr_hasBind hg hn

/-- Planning a statement puts no placeholders into fields but its own. -/
theorem layout_hasBind {sources : List Table} {s : Statement} {plan : Layout}
    (h : layout sources s = .ok plan) {f : Field} (hf : f ∈ plan.fields) (hn : f.kind.HasBind n) :
    s.HasBind n := by
  rcases mem_layout h hf with ⟨item, hitem, gs, hgs, hf⟩ | ⟨_, e, he, hnew⟩
  · exact .item hitem (Fields.ofItem_hasBind hgs hf hn)
  · rcases mem_clauseExprs.mp he with he | ⟨c, hc, he⟩ | ⟨o, ho, rfl⟩
    · exact .groupBy he (Fields.hidden_hasBind hnew hn)
    · have hpart : e ∈ c.parts := (List.mem_filter.mp he).1
      exact .having hc (conditionParts_hasBind hpart (Fields.hidden_hasBind hnew hn))
    · exact .orderBy ho (Fields.hidden_hasBind hnew hn)

theorem pivotArgument_hasBind {args : List Expr} (h : (pivotArgument args).HasBind n) :
    ∃ a ∈ args, a.HasBind n := by
  unfold pivotArgument at h
  split at h
  · cases h
  · cases h
  · exact ⟨_, List.mem_cons_self, h⟩

theorem pivotItem_hasBind {pivot : Expr} {values : List Cell} {item i : SelectItem}
    (hi : i ∈ pivotItem pivot values item) (hn : i.expr.HasBind n) :
    item.expr.HasBind n ∨ pivot.HasBind n := by
  unfold pivotItem at hi
  split at hi
  · obtain rfl := List.mem_singleton.mp hi
    exact .inl hn
  · rename_i call hcall
    obtain ⟨v, _, rfl⟩ := List.mem_map.mp hi
    have hcase : Expr.HasBind n (.case [(.compare .eq pivot (.literal v), pivotArgument call.args)]
        (some (.literal .null))) := by
      cases hn with
      | arg he hn => rwa [List.mem_singleton.mp he] at hn
    cases hcase with
    | when hb hn =>
      obtain rfl := List.mem_singleton.mp hb
      cases hn with
      | left hn => exact .inr hn
      | right hn => cases hn
    | «then» hb hn =>
      obtain rfl := List.mem_singleton.mp hb
      obtain ⟨a, ha, hn⟩ := pivotArgument_hasBind hn
      exact .inl (aggregate_hasBind hcall ha hn)
    | «else» he hn =>
      cases he
      cases hn

/-- A pivoted statement has no placeholders but those of the pivoting one. -/
theorem pivoted_hasBind {s : Statement} {pivot : Expr} (hp : s.pivot = some pivot)
    {values : List Cell} (h : (pivoted s pivot values).HasBind n) : s.HasBind n := by
  cases h with
  | source h => exact .source h
  | joined hj h => exact .joined hj h
  | on hj h => exact .on hj h
  | filter hc h => exact .filter hc h
  | groupBy he h => exact .groupBy he h
  | having hc h => exact .having hc h
  | orderBy ho h => exact .orderBy ho h
  | pivot he h => cases he
  | operation ho h => exact .operation ho h
  | item hi h =>
    obtain ⟨item, hitem, hi⟩ := List.mem_flatMap.mp hi
    exact (pivotItem_hasBind hi h).elim (.item hitem) (.pivot hp)

theorem pivotValues_hasBind {s : Statement} {pivot : Expr} (hp : s.pivot = some pivot)
    (h : (pivotValues s pivot).HasBind n) : s.HasBind n := by
  cases h with
  | source h => exact .source h
  | joined hj h => exact .joined hj h
  | on hj h => exact .on hj h
  | filter hc h => exact .filter hc h
  | groupBy he h => cases he
  | having hc h => cases hc
  | orderBy ho h =>
    obtain rfl := List.mem_singleton.mp ho
    exact .pivot hp h
  | pivot he h => cases he
  | operation ho h => cases ho
  | item hi h =>
    obtain rfl := List.mem_singleton.mp hi
    exact .pivot hp h

end Made

end GridQuery
