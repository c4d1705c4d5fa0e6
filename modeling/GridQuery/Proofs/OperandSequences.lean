import GridQuery.Proofs.Precedence
import GridQuery.Proofs.Rereading
import GridQuery.Proofs.Standalone

/-!
Expressions as sequences of operands. What stands between two operators is an atom with signs in front
of it. An expression is read off the front of its tokens just where these begin with such a sequence
behind which no operator stands, and its tree is that of the sequence.
-/

namespace GridQuery
set_option autoImplicit false

open GridQuery.Parser

namespace Parser

/-! ### Sequences of tokens -/

/-- The function of a call, by the token in front of its bracket. -/
def functionOf : Lexeme → Option String
  | .identifier s => some (Text.asciiUpper s)
  | .keyword .left => some "LEFT"
  | .keyword .right => some "RIGHT"
  | _ => none

/-- No operator stands at the front. -/
def AtOperandEnd (ts : List Token) : Prop :=
  ∀ t ∈ ts.head?, ∀ op : BinaryOp, t.lexeme ≠ op.lexeme

mutual

/-- What an operand is without its signs, with the tokens that it begins and those behind it. -/
inductive Atom (p : Place) : List Token → Expr → List Token → Prop
  | single {t : Token} {r : List Token} {e : Expr} (he : atom? t.lexeme = some e) : Atom p (t :: r) e r
  | column {t : Token} {r : List Token} {s : String} (ht : t.lexeme = .identifier s)
      (hparen : atLexeme .leftParen r = false) (hdot : atLexeme .dot r = false) :
      Atom p (t :: r) (.column none s) r
  | qualified {t u : Token} {r rest : List Token} {s : String} {e : Expr}
      (ht : t.lexeme = .identifier s) (hu : u.lexeme = .dot) (he : qualified p s r = .ok (e, rest)) :
      Atom p (t :: u :: r) e rest
  | call {t u : Token} {r rest : List Token} {f : String} {e : Expr} {n : Nat}
      (ht : functionOf t.lexeme = some f) (hu : u.lexeme = .leftParen)
      (he : call p n f r = .ok (e, rest)) : Atom p (t :: u :: r) e rest
  | case {t : Token} {r rest : List Token} {e : Expr} {n : Nat} (ht : t.lexeme = .keyword .case_)
      (he : caseExpr p n r = .ok (e, rest)) : Atom p (t :: r) e rest
  | paren {t u : Token} {r rest : List Token} {e : Expr} (ht : t.lexeme = .leftParen)
      (hsub : atSubquery (t :: r) = false) (he : Sequence p r e (u :: rest))
      (hu : u.lexeme = .rightParen) : Atom p (t :: r) (.paren e) rest
  | subquery {ts rest : List Token} {q : Statement} {n : Nat} (hsub : atSubquery ts = true)
      (hq : nested p n ts = .ok (q, rest)) : Atom p ts (.subquery q) rest

/-- An atom with signs in front of it. A minus in front of a number negates the number. -/
inductive Signed (p : Place) : List Token → Expr → List Token → Prop
  | atom {ts rest : List Token} {e : Expr} (he : Atom p ts e rest) : Signed p ts e rest
  | negated {t : Token} {r rest : List Token} {x : Float} (ht : t.lexeme = .minus)
      (he : Signed p r (.literal (.number x)) rest) :
      Signed p (t :: r) (.literal (.number (-x))) rest
  | signed {t : Token} {r rest : List Token} {s : Sign} {e : Expr} (ht : t.lexeme = s.lexeme)
      (he : Signed p r e rest) (hnumber : s = .minus → e.isNumber = false) :
      Signed p (t :: r) (.unary s e) rest

/-- Operators, each with a signed atom behind it. -/
inductive Operators (p : Place) : List Token → List (BinaryOp × Expr) → List Token → Prop
  | nil {ts : List Token} : Operators p ts [] ts
  | cons {t : Token} {r us rest : List Token} {op : BinaryOp} {e : Expr}
      {others : List (BinaryOp × Expr)} (ht : t.lexeme = op.lexeme) (he : Signed p r e us)
      (hothers : Operators p us others rest) : Operators p (t :: r) ((op, e) :: others) rest

/-- A whole sequence of signed atoms with operators between them, and its tree. -/
inductive Sequence (p : Place) : List Token → Expr → List Token → Prop
  | mk {ts us rest : List Token} {first : Expr} {others : List (BinaryOp × Expr)}
      (hfirst : Signed p ts first us) (hothers : Operators p us others rest)
      (hend : AtOperandEnd rest) : Sequence p ts (first.ofSequence others) rest

end

variable {p : Place} {n power : Nat} {ts us rest : List Token} {e first : Expr}

theorem atOperandEnd_iff : AtOperandEnd ts ↔ NextBelow 0 ts := by
  constructor
  · intro h op left right hop
    obtain ⟨t, ht, hb⟩ := Option.bind_eq_some_iff.1 hop
    exact absurd (binaryOf_eq_some hb).1 (h t ht op)
  · intro h t ht op hop
    refine absurd (h op op.power (op.power + 1) ?_) (Nat.not_lt_zero _)
    rw [ht, Option.bind_some, hop, binaryOf_lexeme]

theorem Operators.append {fs others : List (BinaryOp × Expr)} (h : Operators p ts fs us)
    (h' : Operators p us others rest) : Operators p ts (fs ++ others) rest := by
  induction fs generalizing ts with
  | nil =>
    cases h
    exact h'
  | cons o fs ih =>
    cases h with
    | cons ht he hothers => exact .cons ht he (ih hothers)

/-- A sign before what has been read makes a signed atom of it. -/
theorem Signed.applySign {t : Token} {s : Sign} (ht : signOf t.lexeme = some s)
    (h : Signed p us e rest) : Signed p (t :: us) (applySign s e) rest := by
  have hlexeme : t.lexeme = s.lexeme := by
    unfold signOf at ht
    split at ht
    all_goals first
      | (cases ht; assumption)
      | cases ht
  by_cases hnegated : s = .minus ∧ e.isNumber = true
  · obtain ⟨rfl, hnumber⟩ := hnegated
    unfold Expr.isNumber at hnumber
    split at hnumber
    · exact .negated hlexeme h
    · cases hnumber
  · have hnumber : s = .minus → e.isNumber = false := fun hs =>
      Bool.eq_false_iff.2 fun hx => hnegated ⟨hs, hx⟩
    rw [applySign_eq_unary hnumber]
    exact .signed hlexeme h hnumber

/-! ### What is read is a sequence -/

/-- The operand with those behind it whose operators bind with `power` or more. -/
def Continues (p : Place) (power : Nat) (first : Expr) (ts : List Token) (r : Reading Expr) : Prop :=
  ∃ others, Operators p ts others r.2 ∧ (∀ o ∈ others, power ≤ o.1.power) ∧ NextBelow power r.2 ∧
    r.1 = first.ofSequence others

/-- A signed atom, and what continues it. -/
def Begins (p : Place) (power : Nat) (ts : List Token) (r : Reading Expr) : Prop :=
  ∃ first us, Signed p ts first us ∧ Continues p power first us r

theorem Continues.refl (h : NextBelow power ts) : Continues p power first ts (first, ts) :=
  ⟨[], .nil, fun _ ho => (List.not_mem_nil ho).elim, h, rfl⟩

/-- An operator and the operand on its right, with all that binds more tightly than the operator. -/
theorem Continues.step {t : Token} {r : List Token} {op : BinaryOp} {second : Expr} {v : Reading Expr}
    (ht : t.lexeme = op.lexeme) (hpower : power ≤ op.power)
    (hsecond : Begins p (op.power + 1) r (second, us))
    (h : Continues p power (.binary op first second) us v) : Continues p power first (t :: r) v := by
  obtain ⟨f, vs, hf, fs, hfs, htight, hnext, rfl⟩ := hsecond
  obtain ⟨others, hothers, hall, hend, hv⟩ := h
  have hbehind : ∀ o ∈ others.head?, o.1.power ≤ op.power := by
    rintro o ho
    cases hothers with
    | nil => cases ho
    | @cons u _ _ _ op' _ _ hu _ _ =>
      cases ho
      refine Nat.le_of_lt_succ (hnext op' op'.power (op'.power + 1) ?_)
      rw [List.head?_cons, Option.bind_some, hu, binaryOf_lexeme]
  refine ⟨(op, f) :: (fs ++ others), .cons ht hf (hfs.append hothers), ?_, hend, ?_⟩
  · rintro o (_ | ⟨_, ho⟩)
    · exact hpower
    · rcases List.mem_append.1 ho with ho | ho
      · exact Nat.le_trans hpower (Nat.le_of_lt (htight o ho))
      · exact hall o ho
  · rw [hv, Expr.ofSequence_step htight hbehind]

/-- Every reader of operands reads sequences within a budget of `n`. -/
structure ReadersSequence (p : Place) (n : Nat) : Prop where
  expr : ∀ power ts, Yields (Begins p power ts) (expr p n power ts)
  moreOperands : ∀ power first ts,
    Yields (Continues p power first ts) (moreOperands p n power first ts)
  operand : ∀ ts, Yields (fun r => Signed p ts r.1 r.2) (operand p n ts)

namespace ReadersSequence

variable (ih : ReadersSequence p n)

include ih

theorem expr_succ (power : Nat) (ts : List Token) :
    Yields (Begins p power ts) (Parser.expr p (n + 1) power ts) := by
  rw [Parser.expr]
  refine (ih.operand ts).bind ?_
  rintro ⟨first, us⟩ hfirst
  exact (ih.moreOperands power first us).imp fun r hr => ⟨first, us, hfirst, hr⟩

theorem moreOperands_succ (power : Nat) (first : Expr) (ts : List Token) :
    Yields (Continues p power first ts) (Parser.moreOperands p (n + 1) power first ts) := by
  rw [Parser.moreOperands]
  split
  · rename_i hnone
    refine Yields.ok (.refl fun op left right hop => ?_)
    rw [hnone] at hop
    cases hop
  · rename_i op left right hsome
    obtain ⟨t, ht, hb⟩ := Option.bind_eq_some_iff.1 hsome
    obtain ⟨hlexeme, rfl, rfl⟩ := binaryOf_eq_some hb
    obtain ⟨r, rfl⟩ := List.head?_eq_some_iff.1 ht
    refine Yields.ite (fun hlt => Yields.ok (.refl fun op' left right hop => ?_)) fun hle => ?_
    · rw [hsome] at hop
      cases hop
      exact hlt
    · refine (ih.expr _ r).bind ?_
      rintro ⟨second, us⟩ hsecond
      exact (ih.moreOperands power _ us).imp fun v hv =>
        hv.step hlexeme (Nat.le_of_not_lt hle) hsecond

theorem bracketed {t : Token} {r : List Token} (ht : t.lexeme = .leftParen) :
    Yields (fun v => Atom p (t :: r) v.1 v.2) (if atSubquery (t :: r) then do
        let (q, ts) ← nested p n (t :: r)
        .ok (.subquery q, ts)
      else do
        let (e, ts) ← Parser.expr p n 0 r
        let ts ← expect p .rightParen ")" ts
        .ok (.paren e, ts)) := by
  refine Yields.ite (fun hsub => ?_) fun hsub => ?_
  · refine Yields.bind (P := fun v => nested p n (t :: r) = .ok v) (fun _ hv => hv) ?_
    rintro ⟨q, us⟩ hq
    exact Yields.ok (.subquery hsub hq)
  · refine (ih.expr 0 r).bind ?_
    rintro ⟨e, us⟩ ⟨first, vs, hfirst, others, hothers, -, hend, rfl⟩
    refine Yields.bind (P := fun ws => ∃ u : Token, u.lexeme = .rightParen ∧ us = u :: ws)
      (fun _ hws => expect_cons hws) ?_
    rintro ws ⟨u, hu, rfl⟩
    exact Yields.ok (.paren ht (Bool.eq_false_iff.2 hsub)
      (.mk hfirst hothers (atOperandEnd_iff.2 hend)) hu)

omit ih in
theorem called {t : Token} {r : List Token} {f : String} (ht : functionOf t.lexeme = some f)
    (hopen : atLexeme .leftParen r = true) :
    Yields (fun v => Atom p (t :: r) v.1 v.2) (call p n f (r.drop 1)) := by
  obtain ⟨u, us, rfl, hu⟩ := exists_of_atLexeme hopen
  exact fun v hv => .call ht hu hv

theorem operand_succ (ts : List Token) :
    Yields (fun r => Signed p ts r.1 r.2) (Parser.operand p (n + 1) ts) := by
  cases ts with
  | nil =>
    rw [Parser.operand]
    exact unexpected_yields _ _ _
  | cons t r =>
    rw [Parser.operand]
    split
    · rename_i s hs
      refine (ih.expr signPower r).bind ?_
      rintro ⟨e, us⟩ ⟨first, vs, hfirst, others, hothers, hall, -, rfl⟩
      -- No operator binds as tightly as a sign.
      cases hothers with
      | nil => exact Yields.ok (hfirst.applySign hs)
      | cons => exact absurd (hall _ (.head _)) (Nat.not_le_of_lt (BinaryOp.power_lt _))
    · refine Yields.imp (P := fun v => Atom p (t :: r) v.1 v.2) ?_ fun _ hv => .atom hv
      split
      · exact Yields.ok (.single ‹_›)
      · split
        · exact fun v hv => .case ‹_› hv
        · rename_i hl
          refine Yields.ite (called ?_) fun _ => unexpected_yields _ _ _
          rw [hl, functionOf]
        · rename_i hl
          refine Yields.ite (called ?_) fun _ => unexpected_yields _ _ _
          rw [hl, functionOf]
        · rename_i s hl
          refine Yields.ite (called ?_) fun hparen => Yields.ite (fun hdot => ?_) fun hdot => ?_
          · rw [hl, functionOf]
          · obtain ⟨u, us, rfl, hu⟩ := exists_of_atLexeme hdot
            exact fun v hv => .qualified hl hu hv
          · exact Yields.ok (.column hl (Bool.eq_false_iff.2 hparen) (Bool.eq_false_iff.2 hdot))
        · exact ih.bracketed ‹_›
        · exact unexpected_yields _ _ _

end ReadersSequence

theorem readersSequence (p : Place) : ∀ n, ReadersSequence p n
  | 0 => by
    constructor
    all_goals
      intros
      exact Yields.error _
  | n + 1 =>
    have ih := readersSequence p n
    { expr := ih.expr_succ
      moreOperands := ih.moreOperands_succ
      operand := ih.operand_succ }

/-! ### A sequence is read -/

theorem front_id (ts : List Token) : front 0 id ts = ts :=
  (front_zero ts).trans (List.map_id ts)

/-- Where there is enough of it, the budget of a reader does not matter. -/
theorem Mirrors.within {α : Type} {x y : Except QueryError (Reading α)} {c m : Nat} {r : Reading α}
    (h : Mirrors 0 id ts (Fits (fun _ => True) 0 c m ts) x y) (hm : 16 * ts.length + c ≤ m)
    (hx : x = .ok r) : y = .ok r := by
  have hread := (h r hx).2 ⟨hm, fun _ _ => trivial⟩ (Nat.zero_le _)
  rwa [front_id] at hread

theorem readers_again (p : Place) (n : Nat) :
    ReadersMirror p.source p.source id (fun _ => True) n :=
  readersMirror (fun _ _ _ _ => rfl) n

/-- The reader of operands reads the operand within each budget that is large enough. -/
def OperandRead (p : Place) (ts : List Token) (e : Expr) (rest : List Token) : Prop :=
  ∀ n, 16 * ts.length + 2 ≤ n → operand p n ts = .ok (e, rest)

theorem OperandRead.length_lt (h : OperandRead p ts e rest) : rest.length < ts.length :=
  ((readersDraw p.source ts _).operand p.stop ts List.infix_rfl _ (h _ (Nat.le_refl _))).1.length_lt

theorem OperandRead.of_succ
    (h : ∀ n, 16 * ts.length + 1 ≤ n → operand p (n + 1) ts = .ok (e, rest)) :
    OperandRead p ts e rest := by
  intro n hn
  obtain ⟨n, rfl⟩ : ∃ m, n = m + 1 := ⟨n - 1, by omega⟩
  exact h n (by omega)

/-- Operators, each with an operand behind it that is read. -/
inductive OperatorsRead (p : Place) : List Token → List (BinaryOp × Expr) → List Token → Prop
  | nil {ts : List Token} : OperatorsRead p ts [] ts
  | cons {t : Token} {r us rest : List Token} {op : BinaryOp} {e : Expr}
      {others : List (BinaryOp × Expr)} (ht : t.lexeme = op.lexeme) (he : OperandRead p r e us)
      (hothers : OperatorsRead p us others rest) :
      OperatorsRead p (t :: r) ((op, e) :: others) rest

/-- The operator loop goes on as long as operators bind with `power` or more, and its tree is that of the
operands which it went over. -/
theorem OperatorsRead.moreOperands {others : List (BinaryOp × Expr)}
    (h : OperatorsRead p ts others rest) (hend : NextBelow 0 rest) (power : Nat) (e : Expr)
    (hn : 16 * ts.length + 1 ≤ n) :
    ∃ run later us, others = run ++ later ∧ OperatorsRead p us later rest ∧ us.length ≤ ts.length ∧
      (∀ o ∈ run, power ≤ o.1.power) ∧ (∀ o ∈ later.head?, o.1.power < power) ∧
      moreOperands p n power e ts = .ok (e.ofSequence run, us) := by
  induction hk : others.length using Nat.strongRecOn generalizing others ts power e n with
  | ind k ih =>
    obtain ⟨n, rfl⟩ : ∃ m, n = m + 1 := ⟨n - 1, by omega⟩
    cases h with
    | nil =>
      have hdone : NextBelow power rest := fun op left right hop =>
        absurd (hend op left right hop) (Nat.not_lt_zero _)
      refine ⟨[], [], rest, rfl, .nil, Nat.le_refl _, fun _ ho => (List.not_mem_nil ho).elim, ?_,
        moreOperands_done p (Nat.succ_pos n) hdone⟩
      rintro _ ⟨⟩
    | @cons t r us _ op f others ht hf hothers =>
      have hop : ((t :: r).head?.bind fun t => binaryOf t.lexeme) =
          some (op, op.power, op.power + 1) := by
        rw [List.head?_cons, Option.bind_some, ht, binaryOf_lexeme]
      by_cases hpower : op.power < power
      · refine ⟨[], (op, f) :: others, t :: r, rfl, .cons ht hf hothers, Nat.le_refl _,
          fun _ ho => (List.not_mem_nil ho).elim, ?_, ?_⟩
        · rintro _ ⟨⟩
          exact hpower
        · rw [Parser.moreOperands, hop]
          exact if_pos hpower
      · rw [List.length_cons] at hn hk
        have hus := hf.length_lt
        obtain ⟨n, rfl⟩ : ∃ m, n = m + 1 := ⟨n - 1, by omega⟩
        -- The right side takes what binds more tightly than the operator.
        obtain ⟨fs, more, vs, rfl, hmore, hvs, htight, hloose, hright⟩ :=
          ih _ (by omega) hothers (op.power + 1) f (n := n) (by omega) rfl
        rw [List.length_append] at hk
        obtain ⟨run, later, ws, rfl, hlater, hws, hrun, hbelow, hgo⟩ :=
          ih more.length (by omega) hmore power (.binary op e (f.ofSequence fs)) (n := n + 1)
            (by omega) rfl
        have hbehind : ∀ o ∈ run.head?, o.1.power ≤ op.power := by
          intro o ho
          refine Nat.le_of_lt_succ (hloose o ?_)
          rw [List.head?_append, ho]
          rfl
        refine ⟨(op, f) :: (fs ++ run), later, ws, ?_, hlater, ?_, ?_, hbelow, ?_⟩
        · rw [List.cons_append, List.append_assoc]
        · rw [List.length_cons]
          omega
        · rintro o (_ | ⟨_, ho⟩)
          · exact Nat.le_of_not_lt hpower
          · rcases List.mem_append.1 ho with ho | ho
            · have := htight o ho
              omega
            · exact hrun o ho
        · rw [Parser.moreOperands, hop]
          dsimp only
          rw [if_neg hpower, List.drop_one, List.tail_cons, expr, hf n (by omega), ok_bind]
          dsimp only
          rw [hright, ok_bind]
          dsimp only
          rw [hgo, Expr.ofSequence_step htight hbehind]

/-- At power zero the operator loop goes over all operators. -/
theorem expr_of_operands {others : List (BinaryOp × Expr)} (hfirst : OperandRead p ts first us)
    (hothers : OperatorsRead p us others rest) (hend : AtOperandEnd rest)
    (hn : 16 * ts.length + 3 ≤ n) : expr p n 0 ts = .ok (first.ofSequence others, rest) := by
  obtain ⟨n, rfl⟩ : ∃ m, n = m + 1 := ⟨n - 1, by omega⟩
  have hlt := hfirst.length_lt
  obtain ⟨run, later, vs, rfl, hlater, -, -, hbelow, hgo⟩ :=
    hothers.moreOperands (atOperandEnd_iff.1 hend) 0 first (n := n) (by omega)
  rw [expr, hfirst n (by omega), ok_bind]
  dsimp only
  rw [hgo]
  cases hlater with
  | nil => rw [List.append_nil]
  | cons => exact absurd (hbelow _ rfl) (Nat.not_lt_zero _)

theorem expr_signPower {m : Nat} (h : OperandRead p ts e rest) (hm : 16 * ts.length + 3 ≤ m) :
    expr p m signPower ts = .ok (e, rest) := by
  obtain ⟨m, rfl⟩ : ∃ k, m = k + 1 := ⟨m - 1, by omega⟩
  rw [expr, h m (by omega)]
  exact moreOperands_done p (by omega) (nextBelow_of_signPower (Nat.le_refl _) rest)

theorem operandRead_sign {t : Token} {s : Sign} (ht : t.lexeme = s.lexeme)
    (h : OperandRead p ts e rest) : OperandRead p (t :: ts) (applySign s e) rest := by
  refine .of_succ fun n hn => ?_
  rw [List.length_cons] at hn
  rw [operand, ht, signOf_lexeme]
  dsimp only
  rw [expr_signPower h (by omega), ok_bind]

theorem operandRead_call {t u : Token} {f : String} (ht : functionOf t.lexeme = some f)
    (hu : u.lexeme = .leftParen) (he : call p n f ts = .ok (e, rest)) :
    OperandRead p (t :: u :: ts) e rest := by
  refine .of_succ fun m hm => ?_
  simp only [List.length_cons] at hm
  have hread := ((readers_again p n).call 0 p.stop p.stop f ts m).within (by omega) he
  rw [front_id] at hread
  unfold functionOf at ht
  split at ht
  all_goals first
    | (rename_i hl; cases ht; simp [operand, hl, signOf, atom?, atLexeme, hu, hread])
    | cases ht

theorem operandRead_case {t : Token} (ht : t.lexeme = .keyword .case_)
    (he : caseExpr p n ts = .ok (e, rest)) : OperandRead p (t :: ts) e rest := by
  refine .of_succ fun m hm => ?_
  rw [List.length_cons] at hm
  have hread := ((readers_again p n).caseExpr 0 p.stop p.stop ts m).within (by omega) he
  rw [front_id] at hread
  simp [operand, ht, signOf, atom?, hread]

theorem operandRead_subquery {q : Statement} (hsub : atSubquery ts = true)
    (hq : nested p n ts = .ok (q, rest)) : OperandRead p ts (.subquery q) rest := by
  refine .of_succ fun m hm => ?_
  have hread := ((readers_again p n).nested 0 p.stop p.stop ts m).within hm hq
  rw [front_id] at hread
  match ts, hsub with
  | t :: u :: r, hsub =>
    have ht : t.lexeme = .leftParen := eq_of_beq ((Bool.and_eq_true_iff).1 hsub).1
    simp only [operand, ht, signOf, atom?]
    rw [if_pos hsub, hread]
    rfl

theorem operandRead_paren {t u : Token} (ht : t.lexeme = .leftParen)
    (hsub : atSubquery (t :: ts) = false)
    (he : ∀ n, 16 * ts.length + 3 ≤ n → expr p n 0 ts = .ok (e, u :: rest))
    (hu : u.lexeme = .rightParen) : OperandRead p (t :: ts) (.paren e) rest := by
  refine .of_succ fun m hm => ?_
  rw [List.length_cons] at hm
  simp only [operand, ht, signOf, atom?]
  rw [hsub, if_neg Bool.false_ne_true, he m (by omega), ok_bind]
  simp only [expect, hu, if_true, ok_bind]

theorem operandRead_atom {t : Token} (he : atom? t.lexeme = some e) :
    OperandRead p (t :: ts) e ts := by
  refine .of_succ fun m _ => ?_
  rw [operand, (opensExpr_of_atom he).2]
  simp only [he]

mutual

theorem Atom.read {ts rest : List Token} {e : Expr} : Atom p ts e rest → OperandRead p ts e rest
  | .single he => operandRead_atom he
  | .column ht hparen hdot => .of_succ fun _ _ => by simp [operand, ht, signOf, atom?, hparen, hdot]
  | .qualified ht hu he => .of_succ fun _ _ => by simp [operand, ht, signOf, atom?, atLexeme, hu, he]
  | .call ht hu he => operandRead_call ht hu he
  | .case ht he => operandRead_case ht he
  | .paren ht hsub he hu => operandRead_paren ht hsub he.read hu
  | .subquery hsub hq => operandRead_subquery hsub hq

theorem Signed.read {ts rest : List Token} {e : Expr} :
    Signed p ts e rest → OperandRead p ts e rest
  | .atom he => he.read
  | .negated ht he => operandRead_sign (s := .minus) ht he.read
  | .signed ht he hnumber => applySign_eq_unary hnumber ▸ operandRead_sign ht he.read

theorem Operators.read {ts rest : List Token} {others : List (BinaryOp × Expr)} :
    Operators p ts others rest → OperatorsRead p ts others rest
  | .nil => .nil
  | .cons ht he hothers => .cons ht he.read hothers.read

theorem Sequence.read {ts rest : List Token} {e : Expr} : Sequence p ts e rest →
    ∀ n, 16 * ts.length + 3 ≤ n → expr p n 0 ts = .ok (e, rest)
  | .mk hfirst hothers hend => fun _ hn => expr_of_operands hfirst.read hothers.read hend hn

end

/-- An expression is read where the tokens begin with a sequence of signed atoms and operators behind
which no operator stands. It is the tree of the sequence, and the tokens behind the sequence are left. -/
theorem expr_iff_sequence (hn : 16 * ts.length + 3 ≤ n) :
    expr p n 0 ts = .ok (e, rest) ↔ ∃ first others us, Signed p ts first us ∧
      Operators p us others rest ∧ AtOperandEnd rest ∧ e = first.ofSequence others := by
  constructor
  · intro h
    obtain ⟨first, us, hfirst, others, hothers, -, hend, he⟩ := (readersSequence p n).expr 0 ts _ h
    exact ⟨first, others, us, hfirst, hothers, atOperandEnd_iff.2 hend, he⟩
  · rintro ⟨first, others, us, hfirst, hothers, hend, rfl⟩
    exact (Sequence.mk hfirst hothers hend).read n hn

/-- `a - -2 * b || c)` -/
def mixedOperators : List Token :=
  bareTokens [.identifier "a", .minus, .minus, .integer 2, .star, .identifier "b", .concat,
    .identifier "c", .rightParen]

theorem expr_mixedOperators : expr ⟨[], 0⟩ (budget mixedOperators) 0 mixedOperators =
    .ok (.binary .concat (.binary .sub (.column none "a")
      (.binary .mul (.literal (.number (-Float.ofInt 2))) (.column none "b"))) (.column none "c"),
      bareTokens [.rightParen]) := by
  have hend : AtOperandEnd (bareTokens [.rightParen]) := by
    rintro _ ⟨⟩ op hop
    cases op <;> cases hop
  refine (expr_iff_sequence (by decide)).2 ⟨_, [(.sub, _), (.mul, _), (.concat, _)], _,
    .atom (.column rfl rfl rfl), ?_, hend, rfl⟩
  exact .cons rfl (.negated rfl (.atom (.single rfl))) (.cons rfl (.atom (.column rfl rfl rfl))
    (.cons rfl (.atom (.column rfl rfl rfl)) .nil))

end Parser

end GridQuery
