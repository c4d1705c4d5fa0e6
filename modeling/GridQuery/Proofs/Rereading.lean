import GridQuery.Proofs.SpelledParts

/-!
Reading a statement from its own lexemes gives the statement. Each reader is taken at the front of its
tokens, whatever stands behind them, as long as it cannot continue what is read. The loop over operators
is followed along the left edge of an expression, so that an operand is read under every binding power
that its own operator allows.
-/

namespace GridQuery
set_option autoImplicit false

open GridQuery.Parser

/-! ### Tokens at the front -/

section Front

variable {p : Place} {l : Lexeme} {ts : List Token}

@[simp] theorem atLexeme_cons (l' : Lexeme) : atLexeme l' (⟨l, 0, 0⟩ :: ts) = (l == l') := rfl

@[simp] theorem atKeyword_cons (k : Keyword) :
    atKeyword k (⟨l, 0, 0⟩ :: ts) = (l == .keyword k) := rfl

@[simp] theorem expect_cons (expected : String) : expect p l expected (⟨l, 0, 0⟩ :: ts) = .ok ts := by
  simp [expect]

@[simp] theorem expectKeyword_cons (k : Keyword) :
    expectKeyword p k (⟨.keyword k, 0, 0⟩ :: ts) = .ok ts := expect_cons _

end Front

/-- Opens an expression: no reader takes it for a word of its own. -/
def opensExpr : Lexeme → Bool
  | .integer _ | .float _ | .string _ | .identifier _ | .placeholder (some _) => true
  | .plus | .minus | .star | .leftParen => true
  | .keyword .null | .keyword .true_ | .keyword .false_ => true
  | .keyword .case_ | .keyword .left | .keyword .right => true
  | _ => false

theorem opensExpr_of_atom {l : Lexeme} {e : Expr} (h : atom? l = some e) :
    opensExpr l = true ∧ signOf l = none := by
  unfold atom? at h
  split at h
  all_goals first
    | exact ⟨rfl, rfl⟩
    | cases h

theorem Expr.opens : ∀ e : Expr, e.legible = true → e.Formed →
    ∃ l ls, e.lexemes = l :: ls ∧ opensExpr l = true
  | .literal c, h, hf => by
    cases c with
    | number x =>
      rcases numberReadsBack h with ⟨l, hl, ha⟩ | ⟨l, y, hl, -, -⟩
      · exact ⟨l, [], hl, (opensExpr_of_atom ha).1⟩
      · exact ⟨.minus, [l], hl, rfl⟩
    | boolean b => cases b <;> exact ⟨_, _, rfl, rfl⟩
    | _ => exact ⟨_, _, rfl, rfl⟩
  | .column table name, _, _ => by cases table <;> exact ⟨_, _, rfl, rfl⟩
  | .bind n, _, _ => ⟨_, _, rfl, rfl⟩
  | .binary op a b, h, hf => by
    simp only [Expr.legible, Bool.and_eq_true] at h
    obtain ⟨l, ls, hl, ho⟩ := a.opens h.1 hf.1
    exact ⟨l, ls ++ op.lexeme :: b.lexemes, by rw [Expr.lexemes, hl]; rfl, ho⟩
  | .unary s a, _, _ => ⟨s.lexeme, _, rfl, by cases s <;> rfl⟩
  | .call name distinct args, h, _ => by
    simp only [Expr.legible, Bool.and_eq_true] at h
    refine ⟨_, _, rfl, ?_⟩
    rcases wordLexeme_of_legible h.1 with hw | ⟨-, hw⟩ | ⟨-, hw⟩
    all_goals
      rw [hw]
      rfl
  | .case branches otherwise, _, _ => ⟨_, _, rfl, rfl⟩
  | .ite c a b, _, _ => ⟨_, _, rfl, rfl⟩
  | .subquery q, _, _ => ⟨_, _, rfl, rfl⟩
  | .list items, _, _ => ⟨_, _, rfl, rfl⟩
  | .star table, _, _ => by cases table <;> exact ⟨_, _, rfl, rfl⟩
  | .paren a, _, _ => ⟨_, _, rfl, rfl⟩

theorem Statement.opens (s : Statement) : ∃ ls, s.lexemes = .keyword .select :: ls := by
  obtain ⟨⟩ := s
  simp only [Statement.lexemes, List.cons_append, List.cons.injEq, true_and]
  exact ⟨_, rfl⟩

/-! ### What may stand behind an expression -/

/-- The tokens do not make a call or a column of what stands before them. -/
def Separate (rest : List Token) : Prop :=
  atLexeme .leftParen rest = false ∧ atLexeme .dot rest = false

/-- No operator, and nothing else that continues an expression. -/
def endsExpr : Lexeme → Bool
  | .plus | .minus | .star | .slash | .percent | .concat | .leftParen | .dot => false
  | _ => true

def EndsExpr (rest : List Token) : Prop :=
  ∀ t ∈ rest.head?, endsExpr t.lexeme = true

theorem EndsExpr.separate {rest : List Token} (h : EndsExpr rest) : Separate rest := by
  cases rest with
  | nil => exact ⟨rfl, rfl⟩
  | cons t r =>
    have ht : endsExpr t.lexeme = true := h t rfl
    constructor
    all_goals
      rw [atLexeme, beq_eq_false_iff_ne]
      intro hl
      rw [hl] at ht
      cases ht

theorem EndsExpr.nextBelow {rest : List Token} (h : EndsExpr rest) (power : Nat) :
    NextBelow power rest := by
  intro op left right ho
  obtain ⟨t, ht, hb⟩ := Option.bind_eq_some_iff.1 ho
  have hends := h t ht
  rw [(binaryOf_eq_some hb).1] at hends
  cases op <;> cases hends

theorem endsExpr_nil : EndsExpr [] := fun _ h => nomatch h

theorem endsExpr_cons {l : Lexeme} (h : endsExpr l = true) (ts : List Token) :
    EndsExpr (⟨l, 0, 0⟩ :: ts) := by
  rintro _ ⟨⟩
  exact h

/-- How many calls of the operator loop lie along the left edge. -/
def Expr.spine : Expr → Nat
  | .binary _ a _ => a.spine + 1
  | _ => 1

/-- The expression is read at the front of its lexemes: the operator loop goes on behind it. -/
def Expr.Rereads (e : Expr) : Prop :=
  ∀ p n power rest, 16 * e.lexemes.length ≤ n → power ≤ e.level → NextBelow (e.level + 1) rest →
    Separate rest →
    expr p n power (bareTokens e.lexemes ++ rest) = moreOperands p (n - e.spine) power e.untitled rest

theorem moreOperands_done (p : Place) {n power : Nat} {e : Expr} {rest : List Token} (hn : 0 < n)
    (h : NextBelow power rest) : moreOperands p n power e rest = .ok (e, rest) := by
  obtain ⟨n, rfl⟩ := Nat.exists_eq_succ_of_ne_zero (Nat.ne_of_gt hn)
  rw [moreOperands]
  split
  · rfl
  · rename_i op left right ho
    rw [if_pos (h op left right ho)]

theorem Expr.length_pos {e : Expr} (h : ∃ l ls, e.lexemes = l :: ls ∧ opensExpr l = true) :
    0 < e.lexemes.length := by
  obtain ⟨l, ls, hl, -⟩ := h
  rw [hl]
  exact Nat.succ_pos _

theorem BinaryOp.level_binary (op : BinaryOp) (a b : Expr) : (Expr.binary op a b).level = op.power := rfl

theorem Expr.spine_le (e : Expr) (h : e.legible = true) (hf : e.Formed) :
    e.spine ≤ e.lexemes.length := by
  induction e using Expr.spine.induct with
  | case1 op a b ih =>
    simp only [Expr.legible, Bool.and_eq_true] at h
    have ha := ih h.1 hf.1
    simp only [Expr.spine, Expr.lexemes, List.length_append, List.length_cons]
    omega
  | case2 e hne =>
    have hs : e.spine = 1 := by
      cases e with
      | binary op a b => exact absurd rfl (hne op a b)
      | _ => rfl
    rw [hs]
    exact Expr.length_pos (e.opens h hf)

/-- An expression is read whole where no operator of the given power follows. -/
theorem Expr.Rereads.whole {e : Expr} (he : e.Rereads) (h : e.legible = true) (hf : e.Formed)
    (p : Place) {n power : Nat} {rest : List Token} (hn : 16 * e.lexemes.length ≤ n)
    (hp : power ≤ e.level) (hnext : NextBelow power rest) (hsep : Separate rest) :
    expr p n power (bareTokens e.lexemes ++ rest) = .ok (e.untitled, rest) := by
  have hpos := Expr.length_pos (e.opens h hf)
  have hspine := e.spine_le h hf
  rw [he p n power rest hn hp (fun op l r ho => Nat.lt_of_lt_of_le (hnext op l r ho) (by omega)) hsep]
  exact moreOperands_done p (by omega) hnext

/-- What a clause or a bracket holds is read whole. -/
theorem Expr.Rereads.all {e : Expr} (he : e.Rereads) (h : e.legible = true) (hf : e.Formed)
    (p : Place) {n : Nat} {rest : List Token} (hn : 16 * e.lexemes.length ≤ n) (hrest : EndsExpr rest) :
    expr p n 0 (bareTokens e.lexemes ++ rest) = .ok (e.untitled, rest) :=
  he.whole h hf p hn (Nat.zero_le _) (hrest.nextBelow 0) hrest.separate

/-- Where the operand is read, the expression is. -/
theorem Expr.rereads_of_operand {e : Expr} (hs : e.spine = 1)
    (h : ∀ p n rest, 16 * e.lexemes.length ≤ n + 1 → Separate rest →
      Parser.operand p n (bareTokens e.lexemes ++ rest) = .ok (e.untitled, rest))
    (hpos : 0 < e.lexemes.length) : e.Rereads := by
  intro p n power rest hn _ _ hsep
  obtain ⟨n, rfl⟩ : ∃ m, n = m + 1 := ⟨n - 1, by omega⟩
  rw [expr, h p n rest hn hsep, hs]
  rfl

theorem Expr.rereads_binary {op : BinaryOp} {a b : Expr} (ha : a.Rereads) (hb : b.Rereads)
    (h : (Expr.binary op a b).legible = true) (hf : (Expr.binary op a b).Formed) :
    (Expr.binary op a b).Rereads := by
  intro p n power rest hn hp hnext hsep
  simp only [Expr.legible, Bool.and_eq_true] at h
  obtain ⟨hfa, hfb, hla, hlb⟩ := hf
  rw [BinaryOp.level_binary] at hp hnext
  have hspine := a.spine_le h.1 hfa
  simp only [Expr.lexemes, List.length_append, List.length_cons] at hn
  have hbin : binaryOf op.lexeme = some (op, op.power, op.power + 1) := binaryOf_lexeme op
  have hfront : NextBelow (a.level + 1) (⟨op.lexeme, 0, 0⟩ :: (bareTokens b.lexemes ++ rest)) := by
    intro op' l r ho
    simp only [List.head?_cons, Option.bind_some, hbin, Option.some.injEq, Prod.mk.injEq] at ho
    omega
  have hsep' : Separate (⟨op.lexeme, 0, 0⟩ :: (bareTokens b.lexemes ++ rest)) := by
    cases op <;> exact ⟨rfl, rfl⟩
  obtain ⟨m, hm⟩ : ∃ m, n - a.spine = m + 1 := ⟨n - a.spine - 1, by omega⟩
  rw [Expr.lexemes, bareTokens_append, bareTokens_cons, List.append_assoc, List.cons_append,
    ha p n power _ (by omega) (Nat.le_trans hp hla) hfront hsep', hm, moreOperands]
  simp only [List.head?_cons, Option.bind_some, hbin, Nat.not_lt_of_le hp, if_false, List.drop_one,
    List.tail_cons]
  rw [hb.whole h.2 hfb p (by omega) hlb hnext hsep, Expr.spine, Expr.untitled,
    show n - (a.spine + 1) = m by omega]
  rfl

/-! ### Operands -/

theorem operand_of_atom (p : Place) {n : Nat} {l : Lexeme} {e : Expr} (ha : atom? l = some e)
    (rest : List Token) : Parser.operand p (n + 1) (⟨l, 0, 0⟩ :: rest) = .ok (e, rest) := by
  rw [Parser.operand, (opensExpr_of_atom ha).2]
  simp only [ha]

theorem Expr.rereads_of_atom {e : Expr} {l : Lexeme} (hl : e.lexemes = [l]) (ha : atom? l = some e)
    (hs : e.spine = 1) : e.Rereads := by
  refine Expr.rereads_of_operand hs ?_ (by rw [hl]; exact Nat.one_pos)
  intro p n rest hn _
  rw [hl] at hn ⊢
  obtain ⟨n, rfl⟩ : ∃ m, n = m + 1 := ⟨n - 1, by simp only [List.length_singleton] at hn; omega⟩
  rw [atom?_untitled ha]
  exact operand_of_atom p ha rest

/-- A negative number is read as a minus before a number. -/
theorem Expr.rereads_number {x : Float} (h : legibleNumber x = true) :
    (Expr.literal (.number x)).Rereads := by
  rcases numberReadsBack h with ⟨l, hl, ha⟩ | ⟨l, y, hl, ha, rfl⟩
  · exact Expr.rereads_of_atom hl ha rfl
  · have hl' : (Expr.literal (.number (-y))).lexemes = [.minus, l] := hl
    refine Expr.rereads_of_operand rfl ?_ (by rw [hl']; exact Nat.two_pos)
    intro p n rest hn _
    rw [hl'] at hn ⊢
    simp only [List.length_cons, List.length_nil] at hn
    obtain ⟨n, rfl⟩ : ∃ m, n = m + 4 := ⟨n - 4, by omega⟩
    have hread : expr p (n + 3) signPower (⟨l, 0, 0⟩ :: rest) = .ok (.literal (.number y), rest) := by
      rw [expr, operand_of_atom p ha]
      exact moreOperands_done p (Nat.succ_pos _) (nextBelow_of_signPower (Nat.le_refl _) rest)
    have hop : Parser.operand p (n + 4) (⟨.minus, 0, 0⟩ :: ⟨l, 0, 0⟩ :: rest) =
        (expr p (n + 3) signPower (⟨l, 0, 0⟩ :: rest) >>= fun r => .ok (applySign .minus r.1, r.2)) := by
      rw [Parser.operand]
      rfl
    rw [bareTokens_cons, bareTokens_cons, bareTokens_nil, List.cons_append, List.cons_append,
      List.nil_append, hop, hread]
    rfl

theorem applySign_eq_unary {s : Sign} {e : Expr} (h : s = .minus → e.isNumber = false) :
    applySign s e = .unary s e := by
  cases s with
  | plus => rfl
  | minus =>
    cases e with
    | literal c =>
      cases c with
      | number _ => cases h rfl
      | _ => rfl
    | _ => rfl

theorem Expr.isNumber_untitled (e : Expr) : e.untitled.isNumber = e.isNumber := by
  cases e <;> rfl

theorem signOf_lexeme (s : Sign) : signOf s.lexeme = some s := by
  cases s <;> rfl

theorem Expr.rereads_unary {s : Sign} {a : Expr} (ha : a.Rereads)
    (h : (Expr.unary s a).legible = true) (hf : (Expr.unary s a).Formed) :
    (Expr.unary s a).Rereads := by
  simp only [Expr.legible, Bool.and_eq_true] at h
  obtain ⟨hfa, hlevel, hnum⟩ := hf
  refine Expr.rereads_of_operand rfl ?_ (Nat.succ_pos _)
  intro p n rest hn hsep
  simp only [Expr.lexemes, List.length_cons] at hn
  obtain ⟨n, rfl⟩ : ∃ m, n = m + 1 := ⟨n - 1, by omega⟩
  rw [Expr.lexemes, bareTokens_cons, List.cons_append, Parser.operand, signOf_lexeme]
  simp only
  rw [ha.whole h.1 hfa p (by omega) hlevel (nextBelow_of_signPower (Nat.le_refl _) rest) hsep]
  change Except.ok (applySign s a.untitled, rest) = _
  rw [applySign_eq_unary (by rwa [Expr.isNumber_untitled]), Expr.untitled]

/-- A name that no bracket and no point follows is a column. -/
theorem operand_identifier (p : Place) (n : Nat) (name : String) (r : List Token) :
    Parser.operand p (n + 1) (⟨.identifier name, 0, 0⟩ :: r) =
      if atLexeme .leftParen r then call p n (Text.asciiUpper name) (r.drop 1)
      else if atLexeme .dot r then qualified p name (r.drop 1)
      else .ok (.column none name, r) := by
  rw [Parser.operand]
  rfl

theorem Expr.rereads_column (table : Option String) (name : String) :
    (Expr.column table name).Rereads := by
  refine Expr.rereads_of_operand rfl ?_ (by cases table <;> exact Nat.succ_pos _)
  intro p n rest hn hsep
  cases table with
  | none =>
    simp only [Expr.lexemes, columnLexemes, List.length_singleton] at hn
    obtain ⟨n, rfl⟩ : ∃ m, n = m + 1 := ⟨n - 1, by omega⟩
    have hread := operand_identifier p n name rest
    rw [hsep.1, hsep.2] at hread
    exact hread
  | some table =>
    simp only [Expr.lexemes, columnLexemes, List.length_cons, List.length_nil] at hn
    obtain ⟨n, rfl⟩ : ∃ m, n = m + 1 := ⟨n - 1, by omega⟩
    exact operand_identifier p n table _

theorem Expr.rereads_star (table : Option String) : (Expr.star table).Rereads := by
  cases table with
  | none => exact Expr.rereads_of_atom rfl rfl rfl
  | some table =>
    refine Expr.rereads_of_operand rfl ?_ (Nat.succ_pos _)
    intro p n rest hn _
    simp only [Expr.lexemes, starLexemes, List.length_cons, List.length_nil] at hn
    obtain ⟨n, rfl⟩ : ∃ m, n = m + 1 := ⟨n - 1, by omega⟩
    exact operand_identifier p n table _

theorem operand_leftParen (p : Place) (n : Nat) (r : List Token) :
    Parser.operand p (n + 1) (⟨.leftParen, 0, 0⟩ :: r) =
      (if atSubquery (⟨.leftParen, 0, 0⟩ :: r) then do
        let (q, ts) ← nested p n (⟨.leftParen, 0, 0⟩ :: r)
        .ok (.subquery q, ts)
      else do
        let (e, ts) ← expr p n 0 r
        let ts ← expect p .rightParen ")" ts
        .ok (.paren e, ts)) := by
  rw [Parser.operand]
  rfl

theorem bareTokens_inBrackets (ls : List Lexeme) (rest : List Token) :
    bareTokens (inBrackets ls) ++ rest =
      ⟨.leftParen, 0, 0⟩ :: (bareTokens ls ++ ⟨.rightParen, 0, 0⟩ :: rest) := by
  simp [inBrackets]

/-- An expression does not begin as a statement does. -/
theorem not_atSubquery_of_opens {l : Lexeme} (h : opensExpr l = true) (ls : List Lexeme)
    (rest : List Token) :
    atSubquery (⟨.leftParen, 0, 0⟩ :: (bareTokens (l :: ls) ++ rest)) = false := by
  rw [bareTokens_cons, List.cons_append, atSubquery, beq_self_eq_true, Bool.true_and,
    beq_eq_false_iff_ne]
  rintro rfl
  cases h

theorem Expr.rereads_paren {a : Expr} (ha : a.Rereads) (h : a.legible = true) (hf : a.Formed) :
    (Expr.paren a).Rereads := by
  refine Expr.rereads_of_operand rfl ?_ (by simp [Expr.lexemes, inBrackets])
  intro p n rest hn _
  simp only [Expr.lexemes, inBrackets, List.length_append, List.length_cons, List.length_nil] at hn
  obtain ⟨n, rfl⟩ : ∃ m, n = m + 1 := ⟨n - 1, by omega⟩
  obtain ⟨l, ls, hl, ho⟩ := a.opens h hf
  have hsub := not_atSubquery_of_opens ho ls (⟨.rightParen, 0, 0⟩ :: rest)
  rw [← hl] at hsub
  rw [Expr.lexemes, bareTokens_inBrackets, operand_leftParen, hsub]
  simp only [Bool.false_eq_true, if_false]
  rw [ha.all h hf p (by omega) (endsExpr_cons rfl rest)]
  change (expect p .rightParen ")" (⟨.rightParen, 0, 0⟩ :: rest) >>= fun ts =>
    .ok (Expr.paren a.untitled, ts)) = _
  rw [expect_cons]
  rfl

/-! ### Nested statements -/

/-- The statement is read from its own lexemes. -/
def Statement.Rereads (s : Statement) : Prop :=
  ∀ p n, 16 * s.lexemes.length ≤ n → Parser.statement p n (bareTokens s.lexemes) = .ok s.untitled

theorem Statement.Rereads.nested {q : Statement} (hq : q.Rereads) (h : q.legible = true) (p : Place)
    {n : Nat} (hn : 16 * q.lexemes.length < n) (rest : List Token) :
    Parser.nested p n (bareTokens (inBrackets q.lexemes) ++ rest) = .ok (q.untitled, rest) := by
  obtain ⟨n, rfl⟩ : ∃ m, n = m + 1 := ⟨n - 1, by omega⟩
  rw [bareTokens_inBrackets, Parser.nested]
  simp only [if_true]
  rw [splitClose_inBrackets (q.balanced h)]
  simp only
  rw [hq p n (by omega)]
  rfl

theorem atSubquery_query (q : Statement) (rest : List Token) :
    atSubquery (bareTokens (inBrackets q.lexemes) ++ rest) = true := by
  obtain ⟨ls, hls⟩ := q.opens
  rw [bareTokens_inBrackets, hls]
  rfl

theorem Expr.rereads_subquery {q : Statement} (hq : q.Rereads) (h : q.legible = true) :
    (Expr.subquery q).Rereads := by
  refine Expr.rereads_of_operand rfl ?_ (by simp [Expr.lexemes, inBrackets])
  intro p n rest hn _
  simp only [Expr.lexemes, inBrackets, List.length_append, List.length_cons, List.length_nil] at hn
  obtain ⟨n, rfl⟩ : ∃ m, n = m + 1 := ⟨n - 1, by omega⟩
  have hsub := atSubquery_query q rest
  have hnested := hq.nested h p (n := n) (by omega) rest
  rw [bareTokens_inBrackets] at hsub hnested
  rw [Expr.lexemes, bareTokens_inBrackets, operand_leftParen, hsub, if_pos rfl, hnested]
  rfl

/-! ### Lists of expressions -/

/-- Reads back, with what that takes. -/
structure Expr.Sound (e : Expr) : Prop where
  rereads : e.Rereads
  legible : e.legible = true
  formed : e.Formed

theorem exprs_reread {es : List Expr} (h : ∀ e ∈ es, e.Sound) (hne : es ≠ []) (p : Place) {n : Nat}
    {rest : List Token} (hn : 16 * (exprsLexemes es).length < n) (hrest : EndsExpr rest)
    (hcomma : atLexeme .comma rest = false) :
    exprs p n (bareTokens (exprsLexemes es) ++ rest) = .ok (untitledExprs es, rest) := by
  induction es generalizing n with
  | nil => exact absurd rfl hne
  | cons e es ih =>
    obtain ⟨he, hes⟩ := List.forall_mem_cons.1 h
    obtain ⟨n, rfl⟩ : ∃ m, n = m + 1 := ⟨n - 1, by omega⟩
    cases es with
    | nil =>
      rw [exprsLexemes] at hn ⊢
      rw [exprs, he.rereads.all he.legible he.formed p (by omega) hrest]
      change (if atLexeme .comma rest = true then _ else _) = _
      rw [hcomma]
      rfl
    | cons e' es =>
      have hlex : exprsLexemes (e :: e' :: es) = e.lexemes ++ .comma :: exprsLexemes (e' :: es) := rfl
      rw [hlex] at hn ⊢
      simp only [List.length_append, List.length_cons] at hn
      rw [bareTokens_append, bareTokens_cons, List.append_assoc, List.cons_append, exprs,
        he.rereads.all he.legible he.formed p (by omega) (endsExpr_cons rfl _)]
      change (exprs p n (bareTokens (exprsLexemes (e' :: es)) ++ rest) >>= fun r =>
        .ok (e.untitled :: r.1, r.2)) = _
      rw [ih hes (List.cons_ne_nil _ _) (by omega)]
      rfl

/-- What stands between the brackets of a call or a list. -/
theorem exprsOrNone_reread {es : List Expr} (h : ∀ e ∈ es, e.Sound) (p : Place) {n : Nat}
    (rest : List Token) (hn : 16 * (exprsLexemes es).length < n) :
    (if atLexeme .rightParen (bareTokens (exprsLexemes es) ++ ⟨.rightParen, 0, 0⟩ :: rest) then
        .ok ([], bareTokens (exprsLexemes es) ++ ⟨.rightParen, 0, 0⟩ :: rest)
      else exprs p n (bareTokens (exprsLexemes es) ++ ⟨.rightParen, 0, 0⟩ :: rest)) =
      .ok (untitledExprs es, ⟨.rightParen, 0, 0⟩ :: rest) := by
  cases es with
  | nil => rfl
  | cons e es =>
    have he := h e (.head _)
    obtain ⟨l, ls, hl, ho⟩ := e.opens he.legible he.formed
    have hfront : ∃ ms, exprsLexemes (e :: es) = l :: ms := by
      cases es with
      | nil => exact ⟨ls, hl⟩
      | cons e' es =>
        refine ⟨ls ++ .comma :: exprsLexemes (e' :: es), ?_⟩
        change e.lexemes ++ .comma :: exprsLexemes (e' :: es) = _
        rw [hl]
        rfl
    have hparen : atLexeme .rightParen (bareTokens (exprsLexemes (e :: es)) ++
        ⟨.rightParen, 0, 0⟩ :: rest) = false := by
      obtain ⟨ms, hms⟩ := hfront
      rw [hms, bareTokens_cons, List.cons_append, atLexeme_cons, beq_eq_false_iff_ne]
      rintro rfl
      cases ho
    rw [hparen]
    exact exprs_reread h (List.cons_ne_nil _ _) p hn (endsExpr_cons rfl rest) rfl

/-- Neither a bracket nor `DISTINCT` nor `ALL` begins an expression. -/
theorem distinctMark_of_opens {l : Lexeme} (h : opensExpr l = true) (ts : List Token) :
    distinctMark (⟨l, 0, 0⟩ :: ts) = (false, ⟨l, 0, 0⟩ :: ts) := by
  have hd : (l == .keyword .distinct) = false := by
    rw [beq_eq_false_iff_ne]
    rintro rfl
    cases h
  have ha : (l == .keyword .all) = false := by
    rw [beq_eq_false_iff_ne]
    rintro rfl
    cases h
  rw [distinctMark, atKeyword_cons, atKeyword_cons, hd, ha]
  rfl

theorem exprsLexemes_opens {e : Expr} (he : e.Sound) (es : List Expr) :
    ∃ l ls, exprsLexemes (e :: es) = l :: ls ∧ opensExpr l = true := by
  obtain ⟨l, ls, hl, ho⟩ := e.opens he.legible he.formed
  cases es with
  | nil => exact ⟨l, ls, hl, ho⟩
  | cons e' es =>
    refine ⟨l, ls ++ .comma :: exprsLexemes (e' :: es), ?_, ho⟩
    change e.lexemes ++ .comma :: exprsLexemes (e' :: es) = _
    rw [hl]
    rfl

/-- The mark of a call is read off, and its arguments are left. -/
theorem distinctMark_args {es : List Expr} (h : ∀ e ∈ es, e.Sound) (distinct : Bool)
    (rest : List Token) :
    distinctMark (bareTokens (distinctLexemes distinct ++ exprsLexemes es) ++
        ⟨.rightParen, 0, 0⟩ :: rest) =
      (distinct, bareTokens (exprsLexemes es) ++ ⟨.rightParen, 0, 0⟩ :: rest) := by
  cases distinct with
  | true => rfl
  | false =>
    cases es with
    | nil => rfl
    | cons e es =>
      obtain ⟨l, ls, hl, ho⟩ := exprsLexemes_opens (h e (.head _)) es
      change distinctMark (bareTokens (exprsLexemes (e :: es)) ++ _) = _
      rw [hl]
      exact distinctMark_of_opens ho _

theorem operand_call {name : String} (h : legibleFunction name = true)
    (hupper : Text.asciiUpper name = name) (p : Place) (n : Nat) (r : List Token) :
    Parser.operand p (n + 1) (⟨Lexer.wordLexeme name.toList, 0, 0⟩ :: ⟨.leftParen, 0, 0⟩ :: r) =
      call p n name r := by
  rcases wordLexeme_of_legible h with hw | ⟨rfl, hw⟩ | ⟨rfl, hw⟩
  · rw [hw, operand_identifier, hupper]
    rfl
  · rw [hw, Parser.operand]
    rfl
  · rw [hw, Parser.operand]
    rfl

theorem Expr.rereads_call {name : String} {distinct : Bool} {args : List Expr}
    (hargs : ∀ e ∈ args, e.Sound) (h : (Expr.call name distinct args).legible = true)
    (hf : (Expr.call name distinct args).Formed) : (Expr.call name distinct args).Rereads := by
  simp only [Expr.legible, Bool.and_eq_true] at h
  obtain ⟨hupper, hif, -⟩ := hf
  refine Expr.rereads_of_operand rfl ?_ (Nat.succ_pos _)
  intro p n rest hn _
  simp only [Expr.lexemes, inBrackets, List.length_append, List.length_cons, List.length_nil] at hn
  obtain ⟨n, rfl⟩ : ∃ m, n = m + 2 := ⟨n - 2, by omega⟩
  rw [Expr.lexemes, bareTokens_cons, List.cons_append, bareTokens_inBrackets, operand_call h.1 hupper,
    Parser.call, if_neg hif, distinctMark_args hargs]
  dsimp only
  rw [ite_bind, exprsOrNone_reread hargs p rest (by omega)]
  change (expect p .rightParen ")" (⟨.rightParen, 0, 0⟩ :: rest) >>= fun ts =>
    .ok (Expr.call name distinct (untitledExprs args), ts)) = _
  rw [expect_cons]
  rfl

/-- What stands behind `IN` is read back. -/
def Expr.RereadsMembers (e : Expr) : Prop :=
  ∀ p n rest, 16 * e.lexemes.length ≤ n + 8 →
    members p n (bareTokens e.lexemes ++ rest) = .ok (e.untitled, rest)

theorem Expr.rereadsMembers_list {es : List Expr} (h : ∀ e ∈ es, e.Sound) :
    (Expr.list es).RereadsMembers := by
  intro p n rest hn
  simp only [Expr.lexemes, inBrackets, List.length_append, List.length_cons, List.length_nil] at hn
  obtain ⟨n, rfl⟩ : ∃ m, n = m + 1 := ⟨n - 1, by omega⟩
  have hsub : atSubquery (⟨.leftParen, 0, 0⟩ :: (bareTokens (exprsLexemes es) ++
      ⟨.rightParen, 0, 0⟩ :: rest)) = false := by
    cases es with
    | nil => rfl
    | cons e es =>
      obtain ⟨l, ls, hl, ho⟩ := exprsLexemes_opens (h e (.head _)) es
      rw [hl]
      exact not_atSubquery_of_opens ho _ _
  rw [Expr.lexemes, bareTokens_inBrackets, members, hsub, if_neg Bool.false_ne_true, expect_cons,
    ok_bind]
  dsimp only
  rw [ite_bind, exprsOrNone_reread h p rest (by omega)]
  change (expect p .rightParen ")" (⟨.rightParen, 0, 0⟩ :: rest) >>= fun ts =>
    .ok (Expr.list (untitledExprs es), ts)) = _
  rw [expect_cons]
  rfl

theorem Expr.rereadsMembers_subquery {q : Statement} (hq : q.Rereads) (h : q.legible = true) :
    (Expr.subquery q).RereadsMembers := by
  intro p n rest hn
  simp only [Expr.lexemes, inBrackets, List.length_append, List.length_cons, List.length_nil] at hn
  obtain ⟨n, rfl⟩ : ∃ m, n = m + 1 := ⟨n - 1, by omega⟩
  rw [Expr.lexemes, members, atSubquery_query, if_pos rfl, hq.nested h p (by omega)]
  rfl

end GridQuery
