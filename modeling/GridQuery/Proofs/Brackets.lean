import GridQuery.Proofs.Places

/-!
Cutting at words outside brackets. A list of lexemes whose brackets match is passed over whole inside
brackets, and outside of them as well if none of its own words outside brackets cuts. `LEFT` and `RIGHT`
cut before a join but not as functions, where a bracket follows.
-/

namespace GridQuery
set_option autoImplicit false

/-- Tokens with these lexemes and without places. -/
def bareTokens (ls : List Lexeme) : List Token :=
  ls.map fun l => ⟨l, 0, 0⟩

@[simp] theorem bareTokens_nil : bareTokens [] = [] := rfl

@[simp] theorem bareTokens_cons (l : Lexeme) (ls : List Lexeme) :
    bareTokens (l :: ls) = ⟨l, 0, 0⟩ :: bareTokens ls := rfl

@[simp] theorem bareTokens_append (ls ms : List Lexeme) :
    bareTokens (ls ++ ms) = bareTokens ls ++ bareTokens ms :=
  List.map_append

theorem map_bare (ts : List Token) : ts.map Token.bare = bareTokens (ts.map Token.lexeme) := by
  simp [bareTokens, Token.bare, Function.comp_def]

/-- A piece of a statement that is no bracket: no error, no end, no placeholder without a number. -/
def Plain : Lexeme → Prop
  | .leftParen | .rightParen | .error _ | .eof | .semicolon | .placeholder none => False
  | _ => True

theorem Plain.ne_left {l : Lexeme} (h : Plain l) : l ≠ .leftParen := by
  rintro rfl
  exact h

theorem Plain.ne_right {l : Lexeme} (h : Plain l) : l ≠ .rightParen := by
  rintro rfl
  exact h

/-- Every bracket has its partner. -/
inductive Balanced : List Lexeme → Prop where
  | nil : Balanced []
  | plain {l ls} : Plain l → Balanced ls → Balanced (l :: ls)
  | group {inner ls} : Balanced inner → Balanced ls → Balanced (inBrackets inner ++ ls)

/-- The brackets match, and every word outside of them is `clear` or the name of a function. -/
inductive Quiet (clear : Lexeme → Prop) : List Lexeme → Prop where
  | nil : Quiet clear []
  | plain {l ls} : Plain l → clear l → Quiet clear ls → Quiet clear (l :: ls)
  | group {inner ls} : Balanced inner → Quiet clear ls → Quiet clear (inBrackets inner ++ ls)
  | call {k inner ls} : k = .left ∨ k = .right → Balanced inner → Quiet clear ls →
      Quiet clear (.keyword k :: inBrackets inner ++ ls)

theorem Balanced.append {ls ms : List Lexeme} (h : Balanced ls) (h' : Balanced ms) :
    Balanced (ls ++ ms) := by
  induction h with
  | nil => exact h'
  | plain hl _ ih => exact .plain hl ih
  | group hi _ _ ih =>
    rw [List.append_assoc]
    exact .group hi ih

namespace Quiet

variable {clear clear' : Lexeme → Prop} {ls ms : List Lexeme}

theorem append (h : Quiet clear ls) (h' : Quiet clear ms) : Quiet clear (ls ++ ms) := by
  induction h with
  | nil => exact h'
  | plain hl hc _ ih => exact .plain hl hc ih
  | group hi _ ih =>
    rw [List.append_assoc]
    exact .group hi ih
  | call hk hi _ ih =>
    rw [List.append_assoc]
    exact .call hk hi ih

theorem inBrackets (h : Balanced ls) : Quiet clear (inBrackets ls) := by
  simpa using Quiet.group h .nil

theorem mono (h : Quiet clear ls) (hc : ∀ l, clear l → clear' l) : Quiet clear' ls := by
  induction h with
  | nil => exact .nil
  | plain hl hl' _ ih => exact .plain hl (hc _ hl') ih
  | group hi _ ih => exact .group hi ih
  | call hk hi _ ih => exact .call hk hi ih

theorem balanced (h : Quiet clear ls) : Balanced ls := by
  induction h with
  | nil => exact .nil
  | plain hl _ _ ih => exact .plain hl ih
  | group hi _ ih => exact .group hi ih
  | call _ hi _ ih => exact .plain trivial (.group hi ih)

end Quiet

theorem Balanced.plain_or_bracket {ls : List Lexeme} (h : Balanced ls) :
    ∀ l ∈ ls, Plain l ∨ l = .leftParen ∨ l = .rightParen := by
  induction h with
  | nil => exact fun _ hl => nomatch hl
  | plain hl _ ih => exact List.forall_mem_cons.2 ⟨.inl hl, ih⟩
  | group _ _ ihi ih =>
    intro l hl
    simp only [GridQuery.inBrackets, List.mem_append, List.mem_cons, List.not_mem_nil, or_false] at hl
    rcases hl with ((rfl | hl) | rfl) | hl
    · exact .inr (.inl rfl)
    · exact ihi l hl
    · exact .inr (.inr rfl)
    · exact ih l hl

/-! ### Brackets -/

theorem depthAfter_plain {l : Lexeme} (h : Plain l) (depth : Nat) :
    depthAfter depth ⟨l, 0, 0⟩ = depth := by
  unfold depthAfter
  split
  · exact absurd ‹_› h.ne_left
  · exact absurd ‹_› h.ne_right
  · rfl

theorem splitClose_balanced {ls : List Lexeme} (h : Balanced ls) (depth : Nat) (rest : List Token) :
    splitClose depth (bareTokens ls ++ rest) =
      (splitClose depth rest).map fun p => (bareTokens ls ++ p.1, p.2) := by
  induction h generalizing depth rest with
  | nil =>
    rw [bareTokens_nil, List.nil_append]
    cases splitClose depth rest <;> rfl
  | plain hl _ ih =>
    rw [bareTokens_cons, List.cons_append, splitClose, if_neg (fun h => hl.ne_right h.1), depthAfter_plain hl,
      ih, Option.map_map]
    rfl
  | @group inner ls _ _ ihi ih =>
    have hopen : splitClose depth (bareTokens (inBrackets inner ++ ls) ++ rest) =
        (splitClose (depth + 1) (bareTokens inner ++ ⟨.rightParen, 0, 0⟩ :: (bareTokens ls ++ rest))).map
          fun p => (⟨.leftParen, 0, 0⟩ :: p.1, p.2) := by
      simp [inBrackets, splitClose, depthAfter]
    have hclose : splitClose (depth + 1) (⟨.rightParen, 0, 0⟩ :: (bareTokens ls ++ rest)) =
        (splitClose depth (bareTokens ls ++ rest)).map fun p => (⟨.rightParen, 0, 0⟩ :: p.1, p.2) := by
      simp [splitClose, depthAfter]
    rw [hopen, ihi, hclose, ih]
    simp [inBrackets, Option.map_map, Function.comp_def]

/-- What stands in brackets is cut out whole. -/
theorem splitClose_inBrackets {ls : List Lexeme} (h : Balanced ls) (rest : List Token) :
    splitClose 0 (bareTokens ls ++ ⟨.rightParen, 0, 0⟩ :: rest) = some (bareTokens ls, rest) := by
  rw [splitClose_balanced h]
  simp [splitClose]

theorem checkBalance_balanced {ls : List Lexeme} (h : Balanced ls) :
    checkBalance (bareTokens ls) = .ok () := by
  have hgo : ∀ depth start stop (rest : List Token),
      (∀ start stop, checkBalance.go depth start stop rest = .ok ()) →
      checkBalance.go depth start stop (bareTokens ls ++ rest) = .ok () := by
    induction h with
    | nil => exact fun depth start stop rest hrest => hrest start stop
    | plain hl _ ih =>
      intro depth start stop rest hrest
      rw [bareTokens_cons, List.cons_append, checkBalance.go, if_neg (fun h => hl.ne_right h.1),
        depthAfter_plain hl]
      exact ih depth 0 0 rest hrest
    | @group inner ls _ _ ihi ih =>
      intro depth start stop rest hrest
      have hopen : checkBalance.go depth start stop (bareTokens (inBrackets inner ++ ls) ++ rest) =
          checkBalance.go (depth + 1) 0 0
            (bareTokens inner ++ ⟨.rightParen, 0, 0⟩ :: (bareTokens ls ++ rest)) := by
        simp [inBrackets, checkBalance.go, depthAfter]
      rw [hopen]
      apply ihi
      intro start stop
      rw [checkBalance.go, if_neg (fun h => Nat.succ_ne_zero _ h.2)]
      exact ih depth 0 0 rest hrest
  have := hgo 0 0 0 [] fun _ _ => rfl
  rwa [List.append_nil] at this

/-! ### Set operators -/

/-- No set operator. -/
def ClearOfOperators (l : Lexeme) : Prop :=
  l ≠ .keyword .union ∧ l ≠ .keyword .intersect ∧ l ≠ .keyword .except

theorem setOperator?_clear {l : Lexeme} (h : ClearOfOperators l) (ts : List Token) :
    setOperator? (⟨l, 0, 0⟩ :: ts) = none := by
  obtain ⟨h1, h2, h3⟩ := h
  cases l with
  | keyword k =>
    cases k with
    | union => exact absurd rfl h1
    | intersect => exact absurd rfl h2
    | except => exact absurd rfl h3
    | _ => rfl
  | _ => rfl

theorem splitOperands_step {depth : Nat} {t : Token} {r : List Token}
    (h : depth = 0 → setOperator? (t :: r) = none) (operator : Option SetOperator)
    (gathered : List Token) (start stop : Nat) :
    splitOperands depth operator gathered start stop (t :: r) =
      splitOperands (depthAfter depth t) operator (t :: gathered) start stop r := by
  rw [splitOperands]
  split
  · rename_i op rest hop
    split at hop
    · rw [h ‹_›] at hop
      cases hop
    · cases hop
  · rfl

theorem splitOperands_operator {t : Token} {r rest : List Token} {op : SetOperator}
    (h : setOperator? (t :: r) = some (op, rest)) (operator : Option SetOperator) (gathered : List Token)
    (start stop : Nat) :
    splitOperands 0 operator gathered start stop (t :: r) = (do
      let first ← operand operator gathered t.start t.stop
      let others ← splitOperands 0 (some op) [] start stop rest
      .ok (first :: others)) := by
  rw [splitOperands]
  split
  · rename_i op' rest' hop
    rw [if_pos rfl, h] at hop
    cases hop
    rfl
  · rename_i hop
    rw [if_pos rfl, h] at hop
    cases hop

theorem splitOperands_balanced {ls : List Lexeme} (h : Balanced ls) (depth : Nat)
    (operator : Option SetOperator) (gathered : List Token) (start stop : Nat) (rest : List Token) :
    splitOperands (depth + 1) operator gathered start stop (bareTokens ls ++ rest) =
      splitOperands (depth + 1) operator ((bareTokens ls).reverse ++ gathered) start stop rest := by
  induction h generalizing depth gathered rest with
  | nil => rfl
  | plain hl _ ih =>
    rw [bareTokens_cons, List.cons_append, splitOperands_step (by simp), depthAfter_plain hl, ih,
      List.reverse_cons, List.append_assoc]
    rfl
  | @group inner ls _ _ ihi ih =>
    have hshape : bareTokens (inBrackets inner ++ ls) ++ rest = ⟨.leftParen, 0, 0⟩ ::
        (bareTokens inner ++ ⟨.rightParen, 0, 0⟩ :: (bareTokens ls ++ rest)) := by
      simp [inBrackets]
    rw [hshape, splitOperands_step (by simp)]
    change splitOperands (depth + 1 + 1) _ _ _ _ _ = _
    rw [ihi, splitOperands_step (by simp)]
    change splitOperands (depth + 1) _ _ _ _ _ = _
    rw [ih]
    simp [inBrackets]

theorem splitOperands_quiet {ls : List Lexeme} (h : Quiet ClearOfOperators ls)
    (operator : Option SetOperator) (gathered : List Token) (start stop : Nat) (rest : List Token) :
    splitOperands 0 operator gathered start stop (bareTokens ls ++ rest) =
      splitOperands 0 operator ((bareTokens ls).reverse ++ gathered) start stop rest := by
  have hgroup : ∀ {inner : List Lexeme} (gathered rest : List Token), Balanced inner →
      splitOperands 0 operator gathered start stop (bareTokens (inBrackets inner) ++ rest) =
        splitOperands 0 operator ((bareTokens (inBrackets inner)).reverse ++ gathered) start stop
          rest := by
    intro inner gathered rest hi
    have hshape : bareTokens (inBrackets inner) ++ rest = ⟨.leftParen, 0, 0⟩ ::
        (bareTokens inner ++ ⟨.rightParen, 0, 0⟩ :: rest) := by
      simp [inBrackets]
    rw [hshape, splitOperands_step (by intro; rfl)]
    change splitOperands (0 + 1) _ _ _ _ _ = _
    rw [splitOperands_balanced hi, splitOperands_step (by simp)]
    change splitOperands 0 _ _ _ _ _ = _
    simp [inBrackets]
  induction h generalizing gathered rest with
  | nil => rfl
  | plain hl hc _ ih =>
    rw [bareTokens_cons, List.cons_append, splitOperands_step (fun _ => setOperator?_clear hc _),
      depthAfter_plain hl, ih, List.reverse_cons, List.append_assoc]
    rfl
  | @group inner ls hi _ ih =>
    rw [bareTokens_append, List.append_assoc, hgroup _ _ hi, ih, List.reverse_append,
      List.append_assoc]
  | @call k inner ls hk hi _ ih =>
    have hc : ClearOfOperators (.keyword k) := by
      rcases hk with rfl | rfl
      all_goals exact ⟨by simp, by simp, by simp⟩
    rw [List.cons_append, bareTokens_cons, List.cons_append,
      splitOperands_step (fun _ => setOperator?_clear hc _), depthAfter_plain (l := .keyword k) trivial,
      bareTokens_append, List.append_assoc, hgroup _ _ hi, ih]
    simp

/-! ### Clauses -/

/-- No word that begins a clause or a set operator. -/
def ClearOfClauses : Lexeme → Prop
  | .keyword .select | .keyword .from_ | .keyword .where_ | .keyword .having | .keyword .limit
  | .keyword .pivot | .keyword .group | .keyword .order | .keyword .join | .keyword .inner
  | .keyword .left | .keyword .right | .keyword .full | .keyword .union | .keyword .intersect
  | .keyword .except => False
  | _ => True

theorem ClearOfClauses.operators {l : Lexeme} (h : ClearOfClauses l) : ClearOfOperators l := by
  refine ⟨?_, ?_, ?_⟩
  all_goals
    rintro rfl
    exact h

theorem leadingKeywords_cons (l : Lexeme) (ts : List Token) :
    leadingKeywords (⟨l, 0, 0⟩ :: ts) =
      match l with
      | .keyword k => k :: (((ts.take 2).map Token.keyword?).takeWhile Option.isSome).filterMap id
      | _ => [] := by
  cases l <;> simp [leadingKeywords, Token.keyword?]

theorem clauseAt?_clear {l : Lexeme} (h : ClearOfClauses l) (ts : List Token) :
    clauseAt? (⟨l, 0, 0⟩ :: ts) = none := by
  unfold clauseAt?
  rw [leadingKeywords_cons]
  cases l with
  | keyword k => cases k <;> first | exact absurd h id | rfl
  | _ => rfl

/-- The name of a function does not begin a join. -/
theorem clauseAt?_call {k : Keyword} (hk : k = .left ∨ k = .right) (ts : List Token) :
    clauseAt? (⟨.keyword k, 0, 0⟩ :: ⟨.leftParen, 0, 0⟩ :: ts) = none := by
  rcases hk with rfl | rfl
  all_goals rfl

theorem cutClauses_step {depth : Nat} {t : Token} {r : List Token}
    (h : depth = 0 → clauseAt? (t :: r) = none) :
    cutClauses depth 0 (t :: r) =
      (t :: (cutClauses (depthAfter depth t) 0 r).1, (cutClauses (depthAfter depth t) 0 r).2) := by
  have hnone : (if depth = 0 then clauseAt? (t :: r) else none) = none := by
    split
    · exact h ‹_›
    · rfl
  simp only [cutClauses, hnone]

theorem cutClauses_balanced {ls : List Lexeme} (h : Balanced ls) (depth : Nat) (rest : List Token) :
    cutClauses (depth + 1) 0 (bareTokens ls ++ rest) =
      (bareTokens ls ++ (cutClauses (depth + 1) 0 rest).1, (cutClauses (depth + 1) 0 rest).2) := by
  induction h generalizing depth rest with
  | nil => rfl
  | plain hl _ ih =>
    rw [bareTokens_cons, List.cons_append, cutClauses_step (by simp), depthAfter_plain hl, ih]
    rfl
  | @group inner ls _ _ ihi ih =>
    have hshape : bareTokens (inBrackets inner ++ ls) ++ rest = ⟨.leftParen, 0, 0⟩ ::
        (bareTokens inner ++ ⟨.rightParen, 0, 0⟩ :: (bareTokens ls ++ rest)) := by
      simp [inBrackets]
    have hopen : depthAfter (depth + 1) ⟨.leftParen, 0, 0⟩ = depth + 1 + 1 := rfl
    have hclose : depthAfter (depth + 1 + 1) ⟨.rightParen, 0, 0⟩ = depth + 1 := rfl
    rw [hshape, cutClauses_step (by simp), hopen, ihi, cutClauses_step (by simp), hclose, ih]
    simp [inBrackets]

theorem cutClauses_quiet {ls : List Lexeme} (h : Quiet ClearOfClauses ls) (rest : List Token) :
    cutClauses 0 0 (bareTokens ls ++ rest) =
      (bareTokens ls ++ (cutClauses 0 0 rest).1, (cutClauses 0 0 rest).2) := by
  have hgroup : ∀ {inner : List Lexeme} (rest : List Token), Balanced inner →
      cutClauses 0 0 (bareTokens (inBrackets inner) ++ rest) =
        (bareTokens (inBrackets inner) ++ (cutClauses 0 0 rest).1, (cutClauses 0 0 rest).2) := by
    intro inner rest hi
    have hshape : bareTokens (inBrackets inner) ++ rest = ⟨.leftParen, 0, 0⟩ ::
        (bareTokens inner ++ ⟨.rightParen, 0, 0⟩ :: rest) := by
      simp [inBrackets]
    have hopen : depthAfter 0 ⟨.leftParen, 0, 0⟩ = 0 + 1 := rfl
    have hclose : depthAfter (0 + 1) ⟨.rightParen, 0, 0⟩ = 0 := rfl
    rw [hshape, cutClauses_step (fun _ => rfl), hopen, cutClauses_balanced hi,
      cutClauses_step (by simp), hclose]
    simp [inBrackets]
  induction h generalizing rest with
  | nil => rfl
  | plain hl hc _ ih =>
    rw [bareTokens_cons, List.cons_append, cutClauses_step (fun _ => clauseAt?_clear hc _),
      depthAfter_plain hl, ih]
    rfl
  | @group inner ls hi _ ih =>
    rw [bareTokens_append, List.append_assoc, hgroup _ hi, ih, List.append_assoc]
  | @call k inner ls hk hi _ ih =>
    have hstep : cutClauses 0 0 (⟨.keyword k, 0, 0⟩ :: (bareTokens (inBrackets inner) ++
        (bareTokens ls ++ rest))) = _ := cutClauses_step (fun _ => clauseAt?_call hk _)
    rw [List.cons_append, bareTokens_cons, List.cons_append, bareTokens_append, List.append_assoc,
      hstep, depthAfter_plain (l := .keyword k) trivial, hgroup _ hi, ih]
    simp

end GridQuery
