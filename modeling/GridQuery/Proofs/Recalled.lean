import GridQuery.Proofs.RoundTrip
import GridQuery.Proofs.Opened

/-!
Formulas that are recalled. The formula of an expression is remembered by the text of the expression. Two
expressions of one text that the text can be read back to are the same but for how select items of nested
statements were written; where these are the same, too, so are the formulas, and recalling is not seen.
-/

namespace GridQuery
set_option autoImplicit false

/-! ### Expressions of one text -/

/-- Cut, the text of an expression gives its lexemes, and from these it is read again. -/
theorem Expr.untitled_eq_of_text {e e' : Expr} (h : e.legible = true) (hf : e.Formed)
    (h' : e'.legible = true) (hf' : e'.Formed) (htext : e.text = e'.text) : e.untitled = e'.untitled := by
  have hlexemes : e.lexemes = e'.lexemes := by
    have hcut := e.prints h hf [] Lexer.atBreak_nil
    rw [htext, e'.prints h' hf' [] Lexer.atBreak_nil] at hcut
    exact (List.append_cancel_right hcut).symm
  have hread := (e.sound h hf).1.rereads.all h hf (Parser.placeOf "" []) (Nat.le_refl _) endsExpr_nil
  have hread' := (e'.sound h' hf').1.rereads.all h' hf' (Parser.placeOf "" []) (Nat.le_refl _) endsExpr_nil
  rw [hlexemes, hread'] at hread
  exact (Prod.mk.inj (Except.ok.inj hread)).1.symm

/-- Statements of one text are one statement, the texts of select items included. -/
def SameByText (qs qs' : List Statement) : Prop :=
  ∀ q ∈ qs, ∀ q' ∈ qs', q.text = q'.text → q = q'

namespace SameByText

variable {qs qs' rest rest' : List Statement}

theorem left (h : SameByText (qs ++ rest) (qs' ++ rest')) : SameByText qs qs' :=
  fun q hq q' hq' => h q (List.mem_append_left _ hq) q' (List.mem_append_left _ hq')

theorem right (h : SameByText (qs ++ rest) (qs' ++ rest')) : SameByText rest rest' :=
  fun q hq q' hq' => h q (List.mem_append_right _ hq) q' (List.mem_append_right _ hq')

theorem eq_of_untitled {q q' : Statement} (h : SameByText [q] [q']) (huntitled : q.untitled = q'.untitled) :
    q = q' := by
  refine h q (List.mem_singleton_self q) q' (List.mem_singleton_self q') ?_
  rw [← q.text_untitled, huntitled, q'.text_untitled]

end SameByText

-- By induction over the syntax of the first one; the untitled form tells what the second one is made of.
mutual

theorem Expr.eq_of_untitled : ∀ {e e' : Expr}, SameByText e.statements e'.statements →
    e.untitled = e'.untitled → e = e'
  | .literal _, e', _, h | .column .., e', _, h | .bind _, e', _, h | .star _, e', _, h => by
    cases e' <;> simp_all [Expr.untitled]
  | .binary op a b, e', hs, h => by
    cases e' with
    | binary op' a' b' =>
      simp only [Expr.untitled, Expr.binary.injEq] at h
      simp only [Expr.statements] at hs
      rw [h.1, Expr.eq_of_untitled hs.left h.2.1, Expr.eq_of_untitled hs.right h.2.2]
    | _ => simp [Expr.untitled] at h
  | .unary sign a, e', hs, h => by
    cases e' with
    | unary sign' a' =>
      simp only [Expr.untitled, Expr.unary.injEq] at h
      simp only [Expr.statements] at hs
      rw [h.1, Expr.eq_of_untitled hs h.2]
    | _ => simp [Expr.untitled] at h
  | .call name distinct args, e', hs, h => by
    cases e' with
    | call name' distinct' args' =>
      simp only [Expr.untitled, Expr.call.injEq] at h
      simp only [Expr.statements] at hs
      rw [h.1, h.2.1, exprs_eq_of_untitled hs h.2.2]
    | _ => simp [Expr.untitled] at h
  | .case branches otherwise, e', hs, h => by
    cases e' with
    | case branches' otherwise' =>
      simp only [Expr.untitled, Expr.case.injEq] at h
      simp only [Expr.statements] at hs
      rw [branches_eq_of_untitled hs.left h.1, else_eq_of_untitled hs.right h.2]
    | _ => simp [Expr.untitled] at h
  | .ite c a b, e', hs, h => by
    cases e' with
    | ite c' a' b' =>
      simp only [Expr.untitled, Expr.ite.injEq] at h
      simp only [Expr.statements] at hs
      rw [Condition.eq_of_untitled hs.left h.1, Expr.eq_of_untitled hs.right.left h.2.1,
        Expr.eq_of_untitled hs.right.right h.2.2]
    | _ => simp [Expr.untitled] at h
  | .subquery q, e', hs, h => by
    cases e' with
    | subquery q' =>
      simp only [Expr.untitled, Expr.subquery.injEq] at h
      simp only [Expr.statements] at hs
      rw [hs.eq_of_untitled h]
    | _ => simp [Expr.untitled] at h
  | .list items, e', hs, h => by
    cases e' with
    | list items' =>
      simp only [Expr.untitled, Expr.list.injEq] at h
      simp only [Expr.statements] at hs
      rw [exprs_eq_of_untitled hs h]
    | _ => simp [Expr.untitled] at h
  | .paren a, e', hs, h => by
    cases e' with
    | paren a' =>
      simp only [Expr.untitled, Expr.paren.injEq] at h
      simp only [Expr.statements] at hs
      rw [Expr.eq_of_untitled hs h]
    | _ => simp [Expr.untitled] at h

theorem exprs_eq_of_untitled : ∀ {es es' : List Expr}, SameByText (exprsStatements es) (exprsStatements es') →
    untitledExprs es = untitledExprs es' → es = es'
  | [], es', _, h => by
    cases es' <;> simp_all [untitledExprs]
  | e :: es, es', hs, h => by
    cases es' with
    | nil => simp [untitledExprs] at h
    | cons e' es' =>
      simp only [untitledExprs, List.cons.injEq] at h
      simp only [exprsStatements] at hs
      rw [Expr.eq_of_untitled hs.left h.1, exprs_eq_of_untitled hs.right h.2]

theorem branches_eq_of_untitled : ∀ {bs bs' : List (Condition × Expr)},
    SameByText (branchesStatements bs) (branchesStatements bs') →
    untitledBranches bs = untitledBranches bs' → bs = bs'
  | [], bs', _, h => by
    cases bs' <;> simp_all [untitledBranches]
  | (c, e) :: bs, bs', hs, h => by
    cases bs' with
    | nil => simp [untitledBranches] at h
    | cons b' bs' =>
      obtain ⟨c', e'⟩ := b'
      simp only [untitledBranches, List.cons.injEq, Prod.mk.injEq] at h
      simp only [branchesStatements] at hs
      rw [Condition.eq_of_untitled hs.left h.1.1, Expr.eq_of_untitled hs.right.left h.1.2,
        branches_eq_of_untitled hs.right.right h.2]

theorem else_eq_of_untitled : ∀ {o o' : Option Expr}, SameByText (elseStatements o) (elseStatements o') →
    untitledElse o = untitledElse o' → o = o'
  | none, o', _, h => by
    cases o' <;> simp_all [untitledElse]
  | some e, o', hs, h => by
    cases o' with
    | none => simp [untitledElse] at h
    | some e' =>
      simp only [untitledElse, Option.some.injEq] at h
      simp only [elseStatements] at hs
      rw [Expr.eq_of_untitled hs h]

theorem Condition.eq_of_untitled : ∀ {c c' : Condition}, SameByText c.statements c'.statements →
    c.untitled = c'.untitled → c = c'
  | .compare op a b, c', hs, h => by
    cases c' with
    | compare op' a' b' =>
      simp only [Condition.untitled, Condition.compare.injEq] at h
      simp only [Condition.statements] at hs
      rw [h.1, Expr.eq_of_untitled hs.left h.2.1, Expr.eq_of_untitled hs.right h.2.2]
    | _ => simp [Condition.untitled] at h
  | .logic op terms, c', hs, h => by
    cases c' with
    | logic op' terms' =>
      simp only [Condition.untitled, Condition.logic.injEq] at h
      simp only [Condition.statements] at hs
      rw [h.1, terms_eq_of_untitled hs h.2]
    | _ => simp [Condition.untitled] at h
  | .not c, c', hs, h => by
    cases c' with
    | not c' =>
      simp only [Condition.untitled, Condition.not.injEq] at h
      simp only [Condition.statements] at hs
      rw [Condition.eq_of_untitled hs h]
    | _ => simp [Condition.untitled] at h
  | .exists negated q, c', hs, h => by
    cases c' with
    | «exists» negated' q' =>
      simp only [Condition.untitled, Condition.exists.injEq] at h
      simp only [Condition.statements] at hs
      rw [h.1, hs.eq_of_untitled h.2]
    | _ => simp [Condition.untitled] at h

theorem terms_eq_of_untitled : ∀ {cs cs' : List Condition},
    SameByText (termsStatements cs) (termsStatements cs') → untitledTerms cs = untitledTerms cs' → cs = cs'
  | [], cs', _, h => by
    cases cs' <;> simp_all [untitledTerms]
  | c :: cs, cs', hs, h => by
    cases cs' with
    | nil => simp [untitledTerms] at h
    | cons c' cs' =>
      simp only [untitledTerms, List.cons.injEq] at h
      simp only [termsStatements] at hs
      rw [Condition.eq_of_untitled hs.left h.1, terms_eq_of_untitled hs.right h.2]

end

theorem Expr.eq_of_text {e e' : Expr} (h : e.legible = true) (hf : e.Formed) (h' : e'.legible = true)
    (hf' : e'.Formed) (hsame : SameByText e.statements e'.statements) (htext : e.text = e'.text) : e = e' :=
  Expr.eq_of_untitled hsame (Expr.untitled_eq_of_text h hf h' hf' htext)

/-! ### What is remembered -/

namespace Scope

variable {s : Scope}

/-- What is remembered once some expressions have been read one after the other. One that cannot be read
leaves nothing behind. -/
def memoAfter (s : Scope) (memo : FormulaMemo) : List Expr → FormulaMemo
  | [] => memo
  | e :: es =>
    match s.recall memo e with
    | .ok (_, later) => s.memoAfter later es
    | .error _ => s.memoAfter memo es

/-- What is remembered under a text is the formula of an expression of that text. -/
theorem lookup_memoAfter {earlier : List Expr} {memo : FormulaMemo} {text : String} {f : Formula}
    (h : (s.memoAfter memo earlier).lookup text = some f) :
    memo.lookup text = some f ∨ ∃ x ∈ earlier, x.text = text ∧ s.formula x = .ok f := by
  induction earlier generalizing memo with
  | nil => exact .inl h
  | cons e earlier ih =>
    have hlater {memo : FormulaMemo} (h : (s.memoAfter memo earlier).lookup text = some f) :
        memo.lookup text = some f ∨ ∃ x ∈ e :: earlier, x.text = text ∧ s.formula x = .ok f :=
      (ih h).imp_right fun ⟨x, hx, hfound⟩ => ⟨x, List.mem_cons_of_mem e hx, hfound⟩
    unfold memoAfter at h
    split at h
    · rename_i g later hrecall
      refine (hlater h).elim (fun hlookup => ?_) .inr
      unfold Scope.recall at hrecall
      cases hold : memo.lookup e.text with
      | some y =>
        rw [hold] at hrecall
        cases hrecall
        exact .inl hlookup
      | none =>
        rw [hold] at hrecall
        obtain ⟨y, hy, hpair⟩ := bind_eq_ok.mp hrecall
        cases hpair
        rw [List.lookup_cons] at hlookup
        split at hlookup
        · rename_i hsame
          cases hlookup
          exact .inr ⟨e, List.mem_cons_self, (beq_iff_eq.mp hsame).symm, hy⟩
        · exact .inl hlookup
    · exact hlater h

/-- Where every expression of the text that was read before has the same formula, recalling one is reading
it. -/
theorem recall_memoAfter {earlier : List Expr} {e : Expr}
    (h : ∀ x ∈ earlier, x.text = e.text → s.formula x = s.formula e) :
    (s.recall (s.memoAfter [] earlier) e).map Prod.fst = s.formula e := by
  unfold Scope.recall
  cases hlookup : (s.memoAfter [] earlier).lookup e.text with
  | some f =>
    rcases lookup_memoAfter hlookup with hnone | ⟨x, hx, htext, hf⟩
    · cases hnone
    · rw [← h x hx htext, hf]
      rfl
  | none =>
    cases s.formula e <;> rfl

end Scope

/-- Evaluates an expression by its formula, recalled where one is remembered under its text. -/
def Rows.recalled {σ : Type} (r : Rows σ) (memo : FormulaMemo) (e : Expr) (row : Nat) : Run σ Cell := do
  let (f, _) ← Run.of (r.scope.recall memo e)
  r.value row f

theorem Rows.recalled_of_recall {σ : Type} {r : Rows σ} {memo : FormulaMemo} {e : Expr}
    (h : (r.scope.recall memo e).map Prod.fst = r.scope.formula e) (row : Nat) :
    r.recalled memo e row = r.evaluated e row := by
  unfold Rows.recalled Rows.evaluated
  rw [← h]
  cases r.scope.recall memo e <;> rfl

/-- Whatever expressions were read before, an expression that can be read back from its text is evaluated as
if it were the first, if those of its text can be read back, too, and their nested statements are the same
down to how select items are written: then their formulas are its formula, in every scope. -/
theorem recalled_eq_evaluated {σ : Type} {r : Rows σ} {earlier : List Expr} {e : Expr}
    (hlegible : e.legible = true) (hformed : e.Formed)
    (hearlier : ∀ x ∈ earlier, x.text = e.text →
      x.legible = true ∧ x.Formed ∧ SameByText x.statements e.statements) :
    (∀ x ∈ earlier, x.text = e.text → ∀ s : Scope, s.formula x = s.formula e) ∧
      ∀ row, r.recalled (r.scope.memoAfter [] earlier) e row = r.evaluated e row := by
  have hformula : ∀ x ∈ earlier, x.text = e.text → ∀ s : Scope, s.formula x = s.formula e := by
    intro x hx htext s
    obtain ⟨hx, hxf, hsame⟩ := hearlier x hx htext
    rw [Expr.eq_of_text hx hxf hlegible hformed hsame htext]
  exact ⟨hformula, Rows.recalled_of_recall
    (Scope.recall_memoAfter fun x hx htext => hformula x hx htext r.scope)⟩

/-- A table with a column that is named like a literal. -/
def truthTable : Table :=
  .derived "T" ["TRUE"] [[.text "y"]]

def truthRows : Rows ResultMemo :=
  rowsAt ⟨.ofList [truthTable], .empty, .midnight ⟨2020, 1, 1⟩⟩ truthTable 0

theorem recalled_eq_evaluated_blanks :
    ∃ e e', Parser.parseExpr "TRUE||'x'" = .ok e ∧ Parser.parseExpr "TRUE || 'x'" = .ok e' ∧
      e.text = e'.text ∧
      ∀ row, truthRows.recalled (truthRows.scope.memoAfter [] [e]) e' row = truthRows.evaluated e' row := by
  have hboth : (Parser.parseExpr "TRUE||'x'").toOption.any (fun e =>
      (Parser.parseExpr "TRUE || 'x'").toOption.any fun e' =>
        e.text == e'.text && e.legible && e'.legible && e.statements.isEmpty) = true := by decide +kernel
  have hsize : ("TRUE||'x'").utf8ByteSize < Number.twoPow 63 := by decide +kernel
  have hsize' : ("TRUE || 'x'").utf8ByteSize < Number.twoPow 63 := by decide +kernel
  obtain ⟨e, he, hsecond⟩ := exists_of_any hboth
  obtain ⟨e', he', hfacts⟩ := exists_of_any hsecond
  simp only [Bool.and_eq_true, beq_iff_eq, List.isEmpty_iff] at hfacts
  obtain ⟨⟨⟨htext, hlegible⟩, hlegible'⟩, hnone⟩ := hfacts
  refine ⟨e, e', he, he', htext, (recalled_eq_evaluated hlegible' (Parser.parseExpr_formed hsize' e' he') ?_).2⟩
  intro x hx _
  rw [List.mem_singleton.mp hx]
  refine ⟨hlegible, Parser.parseExpr_formed hsize e he, ?_⟩
  rw [hnone]
  exact fun q hq => nomatch hq

/-- The column is printed without its quotes, like the literal, and gets the formula of the literal. -/
theorem recalled_ne_evaluated_quoted :
    ∃ e e', Parser.parseExpr "TRUE || 'x'" = .ok e ∧ Parser.parseExpr "`TRUE` || 'x'" = .ok e' ∧
      e.text = e'.text ∧
      (truthRows.evaluated e' 0).Gives [] (.text "yx") [] ∧
      (truthRows.recalled (truthRows.scope.memoAfter [] [e]) e' 0).Gives [] (.text "truex") [] := by
  have hboth : (Parser.parseExpr "TRUE || 'x'").toOption.any (fun e =>
      (Parser.parseExpr "`TRUE` || 'x'").toOption.any fun e' =>
        e.text == e'.text && decide ((truthRows.evaluated e' 0).Gives [] (.text "yx") []) &&
          decide ((truthRows.recalled (truthRows.scope.memoAfter [] [e]) e' 0).Gives []
            (.text "truex") [])) = true := by decide +kernel
  obtain ⟨e, he, hsecond⟩ := exists_of_any hboth
  obtain ⟨e', he', hfacts⟩ := exists_of_any hsecond
  simp only [Bool.and_eq_true, beq_iff_eq, decide_eq_true_eq] at hfacts
  exact ⟨e, e', he, he', hfacts.1.1, hfacts.1.2, hfacts.2⟩

end GridQuery
