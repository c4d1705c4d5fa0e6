import GridQuery.Proofs.Splitting
import GridQuery.Proofs.Standalone

/-!
Brackets around a statement. A statement without set operators outside its brackets is read in one more
pair of brackets as it is without them. Set operations in brackets are one operand, whose clauses
are those of all their statements, and are not read.
-/

namespace GridQuery
set_option autoImplicit false

open GridQuery.Parser

/-! ### Matching brackets -/

/-- Every bracket opened by the tokens, and `depth` more opened in front of them, is closed by the tokens,
and no other. -/
inductive Shuts : Nat → List Token → Prop where
  | nil : Shuts 0 []
  | cons {depth : Nat} {t : Token} {r : List Token} (ht : t.lexeme = .rightParen → depth ≠ 0)
      (hr : Shuts (depthAfter depth t) r) : Shuts depth (t :: r)

theorem checkBalance_go_iff {depth start stop : Nat} {ts : List Token} :
    checkBalance.go depth start stop ts = .ok () ↔ Shuts depth ts := by
  constructor
  · intro h
    induction ts generalizing depth start stop with
    | nil =>
      rw [checkBalance.go] at h
      split at h
      · subst depth
        exact .nil
      · cases h
    | cons t r ih =>
      rw [checkBalance.go] at h
      split at h
      · cases h
      · rename_i hopen
        exact .cons (fun ht hdepth => hopen ⟨ht, hdepth⟩) (ih h)
  · intro h
    induction h generalizing start stop with
    | nil => rfl
    | cons ht _ ih =>
      rw [checkBalance.go, if_neg fun hclose => ht hclose.1 hclose.2]
      exact ih

theorem checkBalance_iff {ts : List Token} : checkBalance ts = .ok () ↔ Shuts 0 ts :=
  checkBalance_go_iff

namespace Shuts

variable {depth k : Nat} {ts us : List Token} {t u : Token}

theorem append (h : Shuts depth ts) (hus : Shuts k us) : Shuts (depth + k) (ts ++ us) := by
  induction h with
  | nil =>
    rw [Nat.zero_add]
    exact hus
  | @cons depth t r ht _ ih =>
    refine .cons (fun hclose => ?_) ?_
    · have := ht hclose
      omega
    · rw [depthAfter_add ht]
      exact ih

theorem passes (h : Shuts depth ts) (k : Nat) (rest : List Token) :
    splitClose (depth + k) (ts ++ rest) = (splitClose k rest).map fun p => (ts ++ p.1, p.2) := by
  induction h with
  | nil =>
    rw [Nat.zero_add]
    exact closed_nil k rest
  | @cons depth t r ht _ ih =>
    have hstay : ¬ (t.lexeme = .rightParen ∧ depth + k = 0) := by
      rintro ⟨hclose, hzero⟩
      have := ht hclose
      omega
    rw [List.cons_append, splitClose, if_neg hstay, depthAfter_add ht, ih, Option.map_map]
    rfl

theorem closed (h : Shuts 0 ts) : Closed ts := by
  intro k rest
  rw [← h.passes k rest, Nat.zero_add]

theorem singleton (hu : u.lexeme = .rightParen) : Shuts 1 [u] := by
  refine .cons (fun _ => Nat.one_ne_zero) ?_
  rw [depthAfter, hu]
  exact .nil

theorem inBrackets (h : Shuts 0 ts) (ht : t.lexeme = .leftParen) (hu : u.lexeme = .rightParen) :
    Shuts 0 (t :: (ts ++ [u])) := by
  have hinner : Shuts (0 + 1) (ts ++ [u]) := h.append (singleton hu)
  refine .cons (fun hclose => ?_) ?_
  · rw [ht] at hclose
    cases hclose
  · rw [depthAfter, ht]
    exact hinner

/-- Inside brackets no token is a set operator outside of them. -/
theorem outerOperators_inside (h : Shuts depth ts) (u : Token) :
    outerOperators (depth + 1) (ts ++ [u]) = 0 := by
  induction h with
  | nil => rfl
  | @cons depth t r ht _ ih =>
    rw [List.cons_append, outerOperators_cons, depthAfter_add ht, ih]
    rfl

theorem outerOperators_inBrackets (h : Shuts 0 ts) (ht : t.lexeme = .leftParen) (u : Token) :
    outerOperators 0 (t :: (ts ++ [u])) = 0 := by
  have hopen : depthAfter 0 t = 0 + 1 := by rw [depthAfter, ht]
  have hnone : setOperator? (t :: (ts ++ [u])) = none := by simp only [setOperator?, ht]
  rw [outerOperators_cons, hopen, h.outerOperators_inside u, hnone]
  rfl

end Shuts

/-! ### One operand -/

/-- Tokens without a set operator outside brackets are one operand, with what was gathered. -/
theorem splitOperands_of_no_operator {depth : Nat} {ts : List Token} (h : outerOperators depth ts = 0)
    (operator : Option SetOperator) (gathered : List Token) (start stop : Nat) :
    splitOperands depth operator gathered start stop ts =
      (operand operator (ts.reverse ++ gathered) start stop).map fun o => [o] := by
  induction ts generalizing depth gathered with
  | nil => rw [splitOperands, List.reverse_nil, List.nil_append]
  | cons t r ih =>
    rw [outerOperators_cons, Nat.add_eq_zero_iff] at h
    obtain ⟨hrest, hfirst⟩ := h
    have hnone : depth = 0 → setOperator? (t :: r) = none := by
      rintro rfl
      simpa using hfirst
    rw [splitOperands_step hnone, ih hrest, List.reverse_cons, List.append_assoc]
    rfl

theorem length_splitClose_lt {r inner : List Token} (h : splitClose 0 r = some (inner, [])) :
    inner.length < r.length := by
  obtain ⟨u, -, rfl, -⟩ := splitClose_passes h
  rw [List.length_append]
  exact Nat.lt_add_of_pos_right Nat.one_pos

/-- There are no more brackets to take off than tokens. -/
theorem stripParens_fuel {n m : Nat} {ts : List Token} (hn : ts.length ≤ n) (hm : ts.length ≤ m) :
    stripParens n ts = stripParens m ts := by
  induction n generalizing m ts with
  | zero =>
    obtain rfl := List.length_eq_zero_iff.1 (Nat.le_zero.1 hn)
    cases m <;> rfl
  | succ n ih =>
    cases m with
    | zero =>
      obtain rfl := List.length_eq_zero_iff.1 (Nat.le_zero.1 hm)
      rfl
    | succ m =>
      unfold stripParens
      split
      · split
        · split
          · rename_i hclose
            have hshort := length_splitClose_lt hclose
            rw [List.length_cons] at hn hm
            exact ih (by omega) (by omega)
          · rfl
        · rfl
      · rfl

/-- A pair of brackets around an operand is taken off. -/
theorem operand_inBrackets {ts : List Token} {t u : Token} (h : Shuts 0 ts) (ht : t.lexeme = .leftParen)
    (hu : u.lexeme = .rightParen) {start stop start' stop' : Nat} {o : Operand}
    (ho : operand none ts.reverse start stop = .ok o) :
    operand none (t :: (ts ++ [u])).reverse start' stop' = .ok o := by
  have hstrip : stripParens (t :: (ts ++ [u])).length (t :: (ts ++ [u])) =
      stripParens ts.length ts := by
    rw [List.length_cons, stripParens, if_pos ht, h.closed.splitClose hu]
    exact stripParens_fuel (by simp) (Nat.le_refl _)
  unfold operand at ho ⊢
  simp only [List.length_reverse, List.reverse_reverse] at ho ⊢
  rw [hstrip]
  split at ho
  · cases ho
  · rw [if_neg ‹_›]
    exact ho

theorem operands_inBrackets {ts : List Token} {t u : Token} (ht : t.lexeme = .leftParen)
    (hu : u.lexeme = .rightParen) (hsingle : outerOperators 0 ts = 0) {os : List Operand}
    (h : operands ts = .ok os) : operands (t :: (ts ++ [u])) = .ok os := by
  obtain ⟨⟨⟩, hbalance, hsplit⟩ := bind_eq_ok.mp h
  have hshuts : Shuts 0 ts := checkBalance_iff.1 hbalance
  rw [splitOperands_of_no_operator hsingle, List.append_nil] at hsplit
  unfold operands
  rw [checkBalance_iff.2 (hshuts.inBrackets ht hu), ok_bind,
    splitOperands_of_no_operator (hshuts.outerOperators_inBrackets ht u), List.append_nil]
  cases ho : operand none ts.reverse ((ts.getLast?.map Token.start).getD 0)
      ((ts.getLast?.map Token.stop).getD 0) with
  | error e =>
    rw [ho] at hsplit
    cases hsplit
  | ok o =>
    rw [ho] at hsplit
    rw [operand_inBrackets hshuts ht hu ho]
    exact hsplit

namespace Parser

/-- A larger budget reads the same statement. -/
theorem statement_budget {p : Place} {n m : Nat} {ts : List Token} {s : Statement}
    (h : statement p n ts = .ok s) (hm : 16 * ts.length + 2 ≤ m) : statement p m ts = .ok s := by
  have hsame : SameText p.source p.source id fun _ => True := fun _ _ _ _ => rfl
  have hread := (readersMirror hsame n).statement p.stop p.stop ts m ⟨hm, fun _ _ => trivial⟩ s h
  have hmove : ts.map (Token.move id) = ts := List.map_id ts
  rwa [hmove] at hread

/-- Where no set operator stands outside its brackets, a statement is read in one more pair of brackets as
it is without them. -/
theorem statement_inBrackets {p : Place} {ts : List Token} {t u : Token} {s : Statement}
    (ht : t.lexeme = .leftParen) (hu : u.lexeme = .rightParen) (hsingle : outerOperators 0 ts = 0)
    (h : statement p (budget ts) ts = .ok s) :
    statement p (budget (t :: (ts ++ [u]))) (t :: (ts ++ [u])) = .ok s := by
  have hlength : (t :: (ts ++ [u])).length = ts.length + 2 := by simp
  obtain ⟨n, hn⟩ : ∃ n, budget (t :: (ts ++ [u])) = n + 1 :=
    ⟨16 * (t :: (ts ++ [u])).length + 15, rfl⟩
  have hread : statement p (n + 1) ts = .ok s := by
    refine statement_budget h ?_
    rw [← hn, budget, hlength]
    omega
  rw [hn]
  rw [statement] at hread ⊢
  obtain ⟨os, hos, hread⟩ := bind_eq_ok.mp hread
  rw [operands_inBrackets ht hu hsingle hos]
  exact hread

/-- `SELECT a FROM t UNION SELECT b FROM u` -/
def united : List Token :=
  bareTokens [.keyword .select, .identifier "a", .keyword .from_, .identifier "t", .keyword .union,
    .keyword .select, .identifier "b", .keyword .from_, .identifier "u"]

/-- `SELECT c FROM v WHERE c IN (…)` over the statement above. -/
def amongUnited : List Token :=
  bareTokens [.keyword .select, .identifier "c", .keyword .from_, .identifier "v", .keyword .where_,
    .identifier "c", .keyword .in_, .leftParen] ++ united ++ bareTokens [.rightParen]

/-- The set operation stands in brackets of the statement, so the statement may be put in brackets. -/
theorem statement_inBrackets_amongUnited : ∃ s,
    statement ⟨[], 0⟩ (budget amongUnited) amongUnited = .ok s ∧
    statement ⟨[], 0⟩ (budget (⟨.leftParen, 0, 0⟩ :: (amongUnited ++ [⟨.rightParen, 0, 0⟩])))
      (⟨.leftParen, 0, 0⟩ :: (amongUnited ++ [⟨.rightParen, 0, 0⟩])) = .ok s := by
  have hok : (statement ⟨[], 0⟩ (budget amongUnited) amongUnited).toOption.isSome = true := by
    decide +kernel
  cases hs : statement ⟨[], 0⟩ (budget amongUnited) amongUnited with
  | error e =>
    rw [hs] at hok
    cases hok
  | ok s => exact ⟨s, rfl, statement_inBrackets rfl rfl (by decide +kernel) hs⟩

/-- A set operation is read, and in brackets it is not. -/
theorem statement_inBrackets_united : ∃ s,
    statement ⟨[], 0⟩ (budget united) united = .ok s ∧
    ∀ s', statement ⟨[], 0⟩ (budget (⟨.leftParen, 0, 0⟩ :: (united ++ [⟨.rightParen, 0, 0⟩])))
      (⟨.leftParen, 0, 0⟩ :: (united ++ [⟨.rightParen, 0, 0⟩])) ≠ .ok s' := by
  have hok : (statement ⟨[], 0⟩ (budget united) united).toOption.isSome = true := by decide +kernel
  have hnone : (statement ⟨[], 0⟩ (budget (⟨.leftParen, 0, 0⟩ :: (united ++ [⟨.rightParen, 0, 0⟩])))
      (⟨.leftParen, 0, 0⟩ :: (united ++ [⟨.rightParen, 0, 0⟩]))).toOption.isSome = false := by
    decide +kernel
  cases hs : statement ⟨[], 0⟩ (budget united) united with
  | error e =>
    rw [hs] at hok
    cases hok
  | ok s =>
    refine ⟨s, rfl, fun s' hs' => ?_⟩
    rw [hs'] at hnone
    cases hnone

end Parser

end GridQuery
