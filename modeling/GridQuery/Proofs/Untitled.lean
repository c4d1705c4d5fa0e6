import GridQuery.Statement.Printer

/-!
Statements up to the texts of their select items. A select item keeps its text as it was written, so
two readings of one query may differ in these texts alone: their untitled forms are the same. The text
of a statement does not show the texts of its items.
-/

namespace GridQuery
set_option autoImplicit false

mutual

/-- The expression with the texts of all select items within it taken out. -/
def Expr.untitled : Expr → Expr
  | .literal c => .literal c
  | .column table name => .column table name
  | .bind n => .bind n
  | .binary op a b => .binary op a.untitled b.untitled
  | .unary s a => .unary s a.untitled
  | .call name distinct args => .call name distinct (untitledExprs args)
  | .case branches otherwise => .case (untitledBranches branches) (untitledElse otherwise)
  | .ite c a b => .ite c.untitled a.untitled b.untitled
  | .subquery q => .subquery q.untitled
  | .list items => .list (untitledExprs items)
  | .star table => .star table
  | .paren a => .paren a.untitled

def untitledExprs : List Expr → List Expr
  | [] => []
  | e :: es => e.untitled :: untitledExprs es

def untitledBranches : List (Condition × Expr) → List (Condition × Expr)
  | [] => []
  | (c, e) :: bs => (c.untitled, e.untitled) :: untitledBranches bs

def untitledElse : Option Expr → Option Expr
  | none => none
  | some e => some e.untitled

def Condition.untitled : Condition → Condition
  | .compare op a b => .compare op a.untitled b.untitled
  | .logic op terms => .logic op (untitledTerms terms)
  | .not c => .not c.untitled
  | .exists negated q => .exists negated q.untitled

def untitledTerms : List Condition → List Condition
  | [] => []
  | c :: cs => c.untitled :: untitledTerms cs

def Source.untitled : Source → Source
  | .table name alias? => .table name alias?
  | .query q alias? => .query q.untitled alias?

def untitledItems : List SelectItem → List SelectItem
  | [] => []
  | ⟨e, _, alias?⟩ :: items => ⟨e.untitled, "", alias?⟩ :: untitledItems items

def untitledJoins : List JoinClause → List JoinClause
  | [] => []
  | ⟨kind, source, c⟩ :: joins => ⟨kind, source.untitled, c.untitled⟩ :: untitledJoins joins

def untitledCondition : Option Condition → Option Condition
  | none => none
  | some c => some c.untitled

def untitledOrder : List OrderItem → List OrderItem
  | [] => []
  | ⟨e, d⟩ :: items => ⟨e.untitled, d⟩ :: untitledOrder items

def untitledOperations : List SetOperation → List SetOperation
  | [] => []
  | ⟨op, s⟩ :: ops => ⟨op, s.untitled⟩ :: untitledOperations ops

def Statement.untitled : Statement → Statement
  | ⟨distinct, items, source, joins, filter, groupBy, having, orderBy, limit, pivot, operations⟩ =>
    ⟨distinct, untitledItems items, source.untitled, untitledJoins joins, untitledCondition filter,
      untitledExprs groupBy, untitledCondition having, untitledOrder orderBy, limit,
      untitledElse pivot, untitledOperations operations⟩

end

theorem isEmpty_untitledExprs (es : List Expr) : (untitledExprs es).isEmpty = es.isEmpty := by
  cases es <;> rfl

theorem isEmpty_untitledOrder : ∀ os : List OrderItem, (untitledOrder os).isEmpty = os.isEmpty
  | [] => rfl
  | ⟨_, _⟩ :: _ => rfl

@[simp] theorem untitledBranches_eq_nil {bs : List (Condition × Expr)} :
    untitledBranches bs = [] ↔ bs = [] := by
  cases bs <;> simp [untitledBranches]

theorem isLogic_untitled (c : Condition) : c.untitled.isLogic = c.isLogic := by
  cases c <;> rfl

mutual

theorem Expr.text_untitled : ∀ e : Expr, e.untitled.text = e.text
  | .literal _ | .column .. | .bind _ | .star _ => rfl
  | .binary op a b => by simp only [Expr.untitled, Expr.text, a.text_untitled, b.text_untitled]
  | .unary s a | .paren a => by simp only [Expr.untitled, Expr.text, a.text_untitled]
  | .call name distinct args => by simp only [Expr.untitled, Expr.text, text_untitledExprs args]
  | .case branches otherwise => by
    simp only [Expr.untitled, Expr.text, text_untitledBranches branches, text_untitledElse otherwise]
  | .ite c a b => by
    simp only [Expr.untitled, Expr.text, c.text_untitled, a.text_untitled, b.text_untitled]
  | .subquery q => by simp only [Expr.untitled, Expr.text, q.text_untitled]
  | .list items => by simp only [Expr.untitled, Expr.text, text_untitledExprs items]

theorem text_untitledExprs : ∀ es : List Expr, exprsText (untitledExprs es) = exprsText es
  | [] => rfl
  | [e] => by simp only [untitledExprs, exprsText, e.text_untitled]
  | e :: e' :: es => by
    have h := text_untitledExprs (e' :: es)
    simp only [untitledExprs] at h
    simp only [untitledExprs, exprsText, e.text_untitled, h]

theorem text_untitledBranches : ∀ bs : List (Condition × Expr),
    branchesText (untitledBranches bs) = branchesText bs
  | [] => rfl
  | (c, e) :: bs => by
    simp only [untitledBranches, branchesText, c.text_untitled, e.text_untitled,
      text_untitledBranches bs]

theorem text_untitledElse : ∀ o : Option Expr, elseText (untitledElse o) = elseText o
  | none => rfl
  | some e => by simp only [untitledElse, elseText, e.text_untitled]

theorem Condition.text_untitled : ∀ c : Condition, c.untitled.text = c.text
  | .compare op a b => by
    simp only [Condition.untitled, Condition.text, a.text_untitled, b.text_untitled]
  | .logic op terms => by simp only [Condition.untitled, Condition.text, text_untitledTerms op terms]
  | .not c => by simp only [Condition.untitled, Condition.text, c.text_untitled]
  | .exists negated q => by simp only [Condition.untitled, Condition.text, q.text_untitled]

theorem text_untitledTerms (op : Connective) : ∀ cs : List Condition,
    termsText op (untitledTerms cs) = termsText op cs
  | [] => rfl
  | [c] => by simp only [untitledTerms, termsText, isLogic_untitled, c.text_untitled]
  | c :: c' :: cs => by
    have h := text_untitledTerms op (c' :: cs)
    simp only [untitledTerms] at h
    simp only [untitledTerms, termsText, isLogic_untitled, c.text_untitled, h]

theorem Source.text_untitled : ∀ s : Source, s.untitled.text = s.text
  | .table _ _ => rfl
  | .query q _ => by simp only [Source.untitled, Source.text, q.text_untitled]

theorem text_untitledItems : ∀ is : List SelectItem, selectItemsText (untitledItems is) = selectItemsText is
  | [] => rfl
  | [⟨e, _, _⟩] => by simp only [untitledItems, selectItemsText, e.text_untitled]
  | ⟨e, _, _⟩ :: ⟨e', t, a⟩ :: is => by
    have h := text_untitledItems (⟨e', t, a⟩ :: is)
    simp only [untitledItems] at h
    simp only [untitledItems, selectItemsText, e.text_untitled, h]

theorem text_untitledJoins : ∀ js : List JoinClause, joinsText (untitledJoins js) = joinsText js
  | [] => rfl
  | ⟨kind, source, c⟩ :: js => by
    simp only [untitledJoins, joinsText, source.text_untitled, c.text_untitled, text_untitledJoins js]

theorem text_untitledCondition (word : String) : ∀ o : Option Condition,
    conditionText word (untitledCondition o) = conditionText word o
  | none => rfl
  | some c => by simp only [untitledCondition, conditionText, c.text_untitled]

theorem text_untitledOrder : ∀ os : List OrderItem, orderItemsText (untitledOrder os) = orderItemsText os
  | [] => rfl
  | [⟨e, _⟩] => by simp only [untitledOrder, orderItemsText, e.text_untitled]
  | ⟨e, _⟩ :: ⟨e', d⟩ :: os => by
    have h := text_untitledOrder (⟨e', d⟩ :: os)
    simp only [untitledOrder] at h
    simp only [untitledOrder, orderItemsText, e.text_untitled, h]

theorem text_untitledPivot : ∀ o : Option Expr, pivotText (untitledElse o) = pivotText o
  | none => rfl
  | some e => by simp only [untitledElse, pivotText, e.text_untitled]

theorem text_untitledOperations : ∀ os : List SetOperation,
    operationsText (untitledOperations os) = operationsText os
  | [] => rfl
  | ⟨op, s⟩ :: os => by
    simp only [untitledOperations, operationsText, s.text_untitled, text_untitledOperations os]

/-- The text of a statement does not show the texts of its select items. -/
theorem Statement.text_untitled : ∀ s : Statement, s.untitled.text = s.text
  | ⟨distinct, items, source, joins, filter, groupBy, having, orderBy, limit, pivot, operations⟩ => by
    unfold Statement.untitled Statement.text
    rw [text_untitledItems items, source.text_untitled, text_untitledJoins joins,
      text_untitledCondition _ filter, text_untitledExprs groupBy, text_untitledCondition _ having,
      text_untitledOrder orderBy, text_untitledPivot pivot, text_untitledOperations operations,
      isEmpty_untitledExprs, isEmpty_untitledOrder]

end

end GridQuery
