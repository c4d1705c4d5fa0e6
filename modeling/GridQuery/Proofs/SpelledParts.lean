import GridQuery.Proofs.Brackets
import GridQuery.Proofs.Formed
import GridQuery.Proofs.NumberTexts

/-!
How the lexemes of an expression or a condition begin, and which words stand in them outside brackets.
No word there opens a clause or joins statements, so the clauses of a statement are cut where its own
words stand.
-/

namespace GridQuery
set_option autoImplicit false

open GridQuery.Parser

/-- A function's name is a name, or one of the two reserved words that are functions. -/
theorem wordLexeme_of_legible {name : String} (h : legibleFunction name = true) :
    Lexer.wordLexeme name.toList = .identifier name ∨
      (name = "LEFT" ∧ Lexer.wordLexeme name.toList = .keyword .left) ∨
      (name = "RIGHT" ∧ Lexer.wordLexeme name.toList = .keyword .right) := by
  simp only [legibleFunction, Bool.and_eq_true, Bool.or_eq_true, beq_iff_eq, Option.isNone_iff_eq_none]
    at h
  rcases h.2 with (hnone | rfl) | rfl
  · left
    rw [Lexer.wordLexeme, String.ofList_toList, hnone]
  · exact .inr (.inl ⟨rfl, by decide⟩)
  · exact .inr (.inr ⟨rfl, by decide⟩)

/-! ### Words outside brackets -/

/-- A plain lexeme that opens no clause. -/
def Tame (l : Lexeme) : Prop :=
  Plain l ∧ ClearOfClauses l

theorem Tame.quiet {l : Lexeme} {ls : List Lexeme} (h : Tame l) (hls : Quiet ClearOfClauses ls) :
    Quiet ClearOfClauses (l :: ls) :=
  .plain h.1 h.2 hls

theorem quiet_of_tame {ls : List Lexeme} (h : ∀ l ∈ ls, Tame l) : Quiet ClearOfClauses ls := by
  induction ls with
  | nil => exact .nil
  | cons l ls ih =>
    obtain ⟨hl, hls⟩ := List.forall_mem_cons.1 h
    exact hl.quiet (ih hls)

theorem tame_identifier (s : String) : Tame (.identifier s) := ⟨trivial, trivial⟩

theorem tame_comma : Tame .comma := ⟨trivial, trivial⟩

theorem tame_of_atom {l : Lexeme} {e : Expr} (h : atom? l = some e) : Tame l := by
  unfold atom? at h
  split at h
  all_goals first
    | exact ⟨trivial, trivial⟩
    | cases h

theorem tame_binaryOp (op : BinaryOp) : Tame op.lexeme := by
  cases op <;> exact ⟨trivial, trivial⟩

theorem tame_sign (s : Sign) : Tame s.lexeme := by
  cases s <;> exact ⟨trivial, trivial⟩

theorem tame_connective (op : Connective) : Tame op.lexeme := by
  cases op <;> exact ⟨trivial, trivial⟩

theorem tame_direction (d : Direction) : Tame d.lexeme := by
  cases d <;> exact ⟨trivial, trivial⟩

theorem quiet_comparison (op : Comparison) : Quiet ClearOfClauses op.lexemes := by
  apply quiet_of_tame
  cases op <;> simp [Comparison.lexemes, Tame, Plain, ClearOfClauses]

theorem quiet_cell {c : Cell} (h : c.legible = true) : Quiet ClearOfClauses c.lexemes := by
  apply quiet_of_tame
  cases c with
  | number x =>
    change ∀ l ∈ numberLexemes x, Tame l
    rcases numberReadsBack h with ⟨l, hl, ha⟩ | ⟨l, y, hl, ha, -⟩
    · rw [hl]
      simpa using tame_of_atom ha
    · rw [hl]
      simpa using And.intro (show Tame .minus from ⟨trivial, trivial⟩) (tame_of_atom ha)
  | boolean b => cases b <;> simp [Cell.lexemes, Tame, Plain, ClearOfClauses]
  | _ => simp [Cell.lexemes, Tame, Plain, ClearOfClauses]

theorem quiet_alias (alias? : Option String) : Quiet ClearOfClauses (aliasLexemes alias?) := by
  apply quiet_of_tame
  cases alias? <;> simp [aliasLexemes, Tame, Plain, ClearOfClauses]

theorem quiet_distinct (distinct : Bool) : Quiet ClearOfClauses (distinctLexemes distinct) := by
  apply quiet_of_tame
  cases distinct <;> simp [distinctLexemes, Tame, Plain, ClearOfClauses]

theorem Quiet.cons_keyword {k : Keyword} {ls : List Lexeme} (h : Quiet ClearOfClauses ls)
    (hk : ClearOfClauses (.keyword k)) : Quiet ClearOfClauses (.keyword k :: ls) :=
  .plain trivial hk h

/-- A word that opens a clause keeps the brackets matched. -/
theorem Balanced.cons_keyword {k : Keyword} {ls : List Lexeme} (h : Balanced ls) :
    Balanced (.keyword k :: ls) :=
  .plain trivial h

mutual

theorem Expr.quiet : ∀ e : Expr, e.legible = true → Quiet ClearOfClauses e.lexemes
  | .literal _, h => quiet_cell h
  | .column table name, _ => by
    apply quiet_of_tame
    cases table <;> simp [Expr.lexemes, columnLexemes, Tame, Plain, ClearOfClauses]
  | .bind n, _ => quiet_of_tame (by simp [Expr.lexemes, Tame, Plain, ClearOfClauses])
  | .binary op a b, h => by
    simp only [Expr.legible, Bool.and_eq_true] at h
    exact (a.quiet h.1).append ((tame_binaryOp op).quiet (b.quiet h.2))
  | .unary s a, h => by
    simp only [Expr.legible, Bool.and_eq_true] at h
    exact (tame_sign s).quiet (a.quiet h.1)
  | .call name distinct args, h => by
    simp only [Expr.legible, Bool.and_eq_true] at h
    have hargs : Balanced (distinctLexemes distinct ++ exprsLexemes args) :=
      ((quiet_distinct distinct).append (quiet_exprs args h.2)).balanced
    rw [Expr.lexemes]
    rcases wordLexeme_of_legible h.1 with hw | ⟨-, hw⟩ | ⟨-, hw⟩
    · rw [hw]
      exact (tame_identifier name).quiet (.inBrackets hargs)
    · rw [hw]
      simpa using Quiet.call (.inl rfl) hargs .nil
    · rw [hw]
      simpa using Quiet.call (.inr rfl) hargs .nil
  | .case branches otherwise, h => by
    simp only [Expr.legible, Bool.and_eq_true] at h
    have hend : Quiet ClearOfClauses [.keyword .end_] := Quiet.nil.cons_keyword trivial
    exact (((quiet_branches branches h.1).append (quiet_else otherwise h.2)).append hend).cons_keyword
      trivial
  | .ite c a b, h => by
    simp only [Expr.legible, Bool.and_eq_true] at h
    have hinner : Quiet ClearOfClauses (c.lexemes ++ .comma :: (a.lexemes ++ .comma :: b.lexemes)) :=
      (c.quiet h.1.1).append (tame_comma.quiet
        ((a.quiet h.1.2).append (tame_comma.quiet (b.quiet h.2))))
    rw [Expr.lexemes, List.append_assoc, List.cons_append]
    exact (tame_identifier _).quiet (.inBrackets hinner.balanced)
  | .subquery q, h => .inBrackets (q.balanced h)
  | .list items, h => .inBrackets (quiet_exprs items h).balanced
  | .star table, _ => by
    apply quiet_of_tame
    cases table <;> simp [Expr.lexemes, starLexemes, Tame, Plain, ClearOfClauses]
  | .paren a, h => .inBrackets (a.quiet h).balanced

theorem quiet_exprs : ∀ es : List Expr, legibleExprs es = true →
    Quiet ClearOfClauses (exprsLexemes es)
  | [], _ => .nil
  | [e], h => by
    simp only [legibleExprs, Bool.and_eq_true] at h
    exact e.quiet h.1
  | e :: e' :: es, h => by
    rw [legibleExprs, Bool.and_eq_true] at h
    exact (e.quiet h.1).append (tame_comma.quiet (quiet_exprs (e' :: es) h.2))

theorem quiet_branches : ∀ bs : List (Condition × Expr), legibleBranches bs = true →
    Quiet ClearOfClauses (branchesLexemes bs)
  | [], _ => .nil
  | (c, e) :: bs, h => by
    simp only [legibleBranches, Bool.and_eq_true] at h
    have hbranch : Quiet ClearOfClauses (c.lexemes ++ .keyword .then_ :: e.lexemes) :=
      (c.quiet h.1.1).append ((e.quiet h.1.2).cons_keyword trivial)
    exact (hbranch.append (quiet_branches bs h.2)).cons_keyword trivial

theorem quiet_else : ∀ o : Option Expr, legibleElse o = true → Quiet ClearOfClauses (elseLexemes o)
  | none, _ => .nil
  | some e, h => (e.quiet h).cons_keyword trivial

theorem Condition.quiet : ∀ c : Condition, c.legible = true → Quiet ClearOfClauses c.lexemes
  | .compare op a b, h => by
    simp only [Condition.legible, Bool.and_eq_true] at h
    exact ((a.quiet h.1).append (quiet_comparison op)).append (b.quiet h.2)
  | .logic op terms, h => quiet_terms op terms h
  | .not c, h => (Quiet.inBrackets (c.quiet h).balanced).cons_keyword trivial
  | .exists negated q, h => by
    have hq : Quiet ClearOfClauses (.keyword .exists_ :: inBrackets q.lexemes) :=
      (Quiet.inBrackets (q.balanced h)).cons_keyword trivial
    cases negated with
    | true => exact hq.cons_keyword trivial
    | false => exact hq

theorem quiet_terms (op : Connective) : ∀ cs : List Condition, legibleTerms cs = true →
    Quiet ClearOfClauses (termsLexemes op cs)
  | [], _ => .nil
  | [c], h => by
    simp only [legibleTerms, Bool.and_eq_true] at h
    rw [termsLexemes, bracketedLexemes]
    split
    · exact .inBrackets (c.quiet h.1).balanced
    · exact c.quiet h.1
  | c :: c' :: cs, h => by
    rw [legibleTerms, Bool.and_eq_true] at h
    have hc : Quiet ClearOfClauses (bracketedLexemes c.isLogic c.lexemes) := by
      unfold bracketedLexemes
      split
      · exact .inBrackets (c.quiet h.1).balanced
      · exact c.quiet h.1
    exact hc.append ((tame_connective op).quiet (quiet_terms op (c' :: cs) h.2))

theorem Source.quiet : ∀ s : Source, s.legible = true → Quiet ClearOfClauses s.lexemes
  | .table name alias?, _ => (tame_identifier name).quiet (quiet_alias alias?)
  | .query q alias?, h => by
    simp only [Source.legible, Bool.and_eq_true] at h
    exact .group (q.balanced h.1) (quiet_alias alias?)

theorem quiet_items : ∀ is : List SelectItem, legibleItems is = true →
    Quiet ClearOfClauses (itemsLexemes is)
  | [], _ => .nil
  | [⟨e, _, alias?⟩], h => by
    simp only [legibleItems, Bool.and_eq_true] at h
    exact (e.quiet h.1.1).append (quiet_alias alias?)
  | ⟨e, _, alias?⟩ :: ⟨e', t, a⟩ :: is, h => by
    rw [legibleItems, Bool.and_eq_true, Bool.and_eq_true] at h
    exact ((e.quiet h.1.1).append (quiet_alias alias?)).append
      (tame_comma.quiet (quiet_items (⟨e', t, a⟩ :: is) h.2))

theorem balanced_joins : ∀ js : List JoinClause, legibleJoins js = true → Balanced (joinsLexemes js)
  | [], _ => .nil
  | ⟨kind, source, c⟩ :: js, h => by
    simp only [legibleJoins, Bool.and_eq_true] at h
    have hkind : Balanced kind.lexemes := by
      cases kind
      all_goals exact Balanced.nil.cons_keyword.cons_keyword
    rw [joinsLexemes]
    exact (((hkind.append (source.quiet h.1.1).balanced).append
      (c.quiet h.1.2).balanced.cons_keyword)).append (balanced_joins js h.2)

theorem balanced_condition (word : Keyword) : ∀ o : Option Condition, legibleCondition o = true →
    Balanced (conditionLexemes word o)
  | none, _ => .nil
  | some c, h => (c.quiet h).balanced.cons_keyword

theorem quiet_order : ∀ os : List OrderItem, legibleOrder os = true →
    Quiet ClearOfClauses (orderLexemes os)
  | [], _ => .nil
  | [⟨e, d⟩], h => by
    simp only [legibleOrder, Bool.and_eq_true] at h
    exact (e.quiet h.1).append ((tame_direction d).quiet .nil)
  | ⟨e, d⟩ :: ⟨e', d'⟩ :: os, h => by
    rw [legibleOrder, Bool.and_eq_true] at h
    exact (e.quiet h.1).append ((tame_direction d).quiet
      (tame_comma.quiet (quiet_order (⟨e', d'⟩ :: os) h.2)))

theorem balanced_pivot : ∀ o : Option Expr, legibleElse o = true → Balanced (pivotLexemes o)
  | none, _ => .nil
  | some e, h => (e.quiet h).balanced.cons_keyword

theorem balanced_operations : ∀ os : List SetOperation, legibleOperations os = true →
    Balanced (operationsLexemes os)
  | [], _ => .nil
  | ⟨op, s⟩ :: os, h => by
    simp only [legibleOperations, Bool.and_eq_true] at h
    have hop : Balanced op.lexemes := by
      cases op
      all_goals first
        | exact Balanced.nil.cons_keyword
        | exact Balanced.nil.cons_keyword.cons_keyword
    exact (hop.append (s.balanced h.1)).append (balanced_operations os h.2)

theorem Statement.balanced : ∀ s : Statement, s.legible = true → Balanced s.lexemes
  | ⟨distinct, items, source, joins, filter, groupBy, having, orderBy, limit, pivot, operations⟩, h => by
    simp only [Statement.legible, Bool.and_eq_true] at h
    obtain ⟨⟨⟨⟨⟨⟨⟨⟨hi, hs⟩, hj⟩, hf⟩, hg⟩, hh⟩, ho⟩, hp⟩, hops⟩ := h
    have hgroup : Balanced (clauseLexemes [.keyword .group, .keyword .by_] (exprsLexemes groupBy)
        groupBy.isEmpty) := by
      unfold clauseLexemes
      split
      · exact .nil
      · exact (quiet_exprs groupBy hg).balanced.cons_keyword.cons_keyword
    have horder : Balanced (clauseLexemes [.keyword .order, .keyword .by_] (orderLexemes orderBy)
        orderBy.isEmpty) := by
      unfold clauseLexemes
      split
      · exact .nil
      · exact (quiet_order orderBy ho).balanced.cons_keyword.cons_keyword
    have hlimit : Balanced (limitLexemes limit) := by
      cases limit with
      | none => exact .nil
      | some n => exact Balanced.cons_keyword (.plain trivial .nil)
    rw [Statement.lexemes]
    exact (((((((((((quiet_distinct distinct).append (quiet_items items hi)).balanced.cons_keyword).append
      (source.quiet hs).balanced.cons_keyword).append (balanced_joins joins hj)).append
      (balanced_condition _ filter hf)).append hgroup).append (balanced_condition _ having hh)).append
      horder).append hlimit).append (balanced_pivot pivot hp)).append (balanced_operations operations hops)

end

end GridQuery
