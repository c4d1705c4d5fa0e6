import GridQuery.Proofs.Brackets
import GridQuery.Proofs.Formed
import GridQuery.Proofs.Nested

/-!
Stretches of tokens. In a stretch every bracket has its partner, and the last token is one that an
expression or a condition can end with. What clauses, operands and lists are cut into are parts of the
tokens.
-/

namespace GridQuery
set_option autoImplicit false

open GridQuery.Parser

/-! ### Stretches of tokens -/

/-- Every bracket has its partner, so the search for the end of a bracket passes over the tokens. -/
def Closed (a : List Token) : Prop :=
  ∀ depth rest, splitClose depth (a ++ rest) = (splitClose depth rest).map fun p => (a ++ p.1, p.2)

theorem closed_nil : Closed [] := by
  intro depth rest
  cases h : splitClose depth rest <;> simp [h]

theorem closed_plain {t : Token} (h : Plain t.lexeme) : Closed [t] := by
  intro depth rest
  have hdepth : depthAfter depth t = depth := depthAfter_plain h depth
  rw [List.singleton_append, splitClose, if_neg fun hr => h.ne_right hr.1, hdepth]
  rfl

theorem Closed.append {a b : List Token} (ha : Closed a) (hb : Closed b) : Closed (a ++ b) := by
  intro depth rest
  rw [List.append_assoc, ha, hb, Option.map_map]
  simp [Function.comp_def]

theorem Closed.inBrackets {a : List Token} {t u : Token} (h : Closed a) (ht : t.lexeme = .leftParen)
    (hu : u.lexeme = .rightParen) : Closed (t :: (a ++ [u])) := by
  intro depth rest
  have hopen : depthAfter depth t = depth + 1 := by rw [depthAfter, ht]
  have hclose : depthAfter (depth + 1) u = depth := by rw [depthAfter, hu]; rfl
  rw [List.cons_append, List.append_assoc, splitClose, if_neg (by simp [ht]), hopen, h,
    List.singleton_append, splitClose, if_neg (by simp), hclose, Option.map_map, Option.map_map]
  simp [Function.comp_def]

/-- The search for the end of a bracket stops at the bracket behind tokens that are closed. -/
theorem Closed.splitClose {a rest : List Token} {u : Token} (h : Closed a)
    (hu : u.lexeme = .rightParen) : GridQuery.splitClose 0 (a ++ u :: rest) = some (a, rest) := by
  rw [h, GridQuery.splitClose, if_pos ⟨hu, rfl⟩]
  simp

theorem depthAfter_add {depth : Nat} {t : Token} (h : t.lexeme = .rightParen → depth ≠ 0) (k : Nat) :
    depthAfter (depth + k) t = depthAfter depth t + k := by
  unfold depthAfter
  split
  · omega
  · have := h ‹_›
    omega
  · rfl

/-- What the search passes over brings the depth down to nothing, from more than that as much. -/
theorem splitClose_passes {depth : Nat} {ts inner rest : List Token}
    (h : splitClose depth ts = some (inner, rest)) :
    ∃ u : Token, u.lexeme = .rightParen ∧ ts = inner ++ u :: rest ∧ ∀ k behind,
      splitClose (depth + k) (inner ++ behind) =
        (splitClose k behind).map fun p => (inner ++ p.1, p.2) := by
  induction ts generalizing depth inner with
  | nil => cases h
  | cons t r ih =>
    unfold splitClose at h
    split at h
    · rename_i hclose
      obtain ⟨ht, rfl⟩ := hclose
      cases h
      refine ⟨t, ht, rfl, fun k behind => ?_⟩
      rw [Nat.zero_add]
      exact closed_nil k behind
    · rename_i hopen
      obtain ⟨⟨inner', rest'⟩, hs, heq⟩ := Option.map_eq_some_iff.1 h
      cases heq
      obtain ⟨u, hu, rfl, hpass⟩ := ih hs
      refine ⟨u, hu, rfl, fun k behind => ?_⟩
      have hdepth := depthAfter_add (fun ht h0 => hopen ⟨ht, h0⟩) k
      have hstay : ¬ (t.lexeme = .rightParen ∧ depth + k = 0) := fun h => hopen ⟨h.1, by omega⟩
      rw [List.cons_append, splitClose, if_neg hstay, hdepth, hpass, Option.map_map]
      rfl

/-- A closed list that does not end in a semicolon. -/
structure Stretch (a : List Token) : Prop where
  closed : Closed a
  last : ∀ t ∈ a.getLast?, Plain t.lexeme ∨ t.lexeme = .rightParen

theorem stretch_nil : Stretch [] :=
  ⟨closed_nil, fun _ h => nomatch h⟩

theorem stretch_plain {t : Token} (h : Plain t.lexeme) : Stretch [t] := by
  refine ⟨closed_plain h, ?_⟩
  rintro _ ⟨⟩
  exact .inl h

theorem Stretch.append {a b : List Token} (ha : Stretch a) (hb : Stretch b) : Stretch (a ++ b) := by
  refine ⟨ha.closed.append hb.closed, fun t ht => ?_⟩
  rw [List.getLast?_append] at ht
  cases hl : b.getLast? with
  | none =>
    rw [hl] at ht
    exact ha.last t ht
  | some u =>
    rw [hl] at ht
    cases ht
    exact hb.last _ hl

namespace Parser

/-- A stretch was taken off the front, perhaps nothing. -/
def Passes (ts rest : List Token) : Prop :=
  ∃ a, Stretch a ∧ ts = a ++ rest

def Takes (ts rest : List Token) : Prop :=
  ∃ a, a ≠ [] ∧ Stretch a ∧ ts = a ++ rest

/-- What was taken off the front ends with the bracket that closes one opened before. -/
def Closes (ts rest : List Token) : Prop :=
  ∃ a u, Closed a ∧ u.lexeme = .rightParen ∧ ts = a ++ u :: rest

section

variable {ts us rest : List Token}

theorem passes_refl (ts : List Token) : Passes ts ts :=
  ⟨[], stretch_nil, rfl⟩

theorem Takes.passes (h : Takes ts rest) : Passes ts rest :=
  let ⟨a, _, ha, heq⟩ := h
  ⟨a, ha, heq⟩

theorem Passes.trans (h : Passes ts us) (h' : Passes us rest) : Passes ts rest := by
  obtain ⟨a, ha, rfl⟩ := h
  obtain ⟨b, hb, rfl⟩ := h'
  exact ⟨a ++ b, ha.append hb, (List.append_assoc ..).symm⟩

theorem Takes.trans (h : Takes ts us) (h' : Passes us rest) : Takes ts rest := by
  obtain ⟨a, hne, ha, rfl⟩ := h
  obtain ⟨b, hb, rfl⟩ := h'
  exact ⟨a ++ b, by simp [hne], ha.append hb, (List.append_assoc ..).symm⟩

theorem Passes.takes (h : Passes ts us) (h' : Takes us rest) : Takes ts rest := by
  obtain ⟨a, ha, rfl⟩ := h
  obtain ⟨b, hne, hb, rfl⟩ := h'
  exact ⟨a ++ b, by simp [hne], ha.append hb, (List.append_assoc ..).symm⟩

theorem Passes.closes (h : Passes ts us) (h' : Closes us rest) : Closes ts rest := by
  obtain ⟨a, ha, rfl⟩ := h
  obtain ⟨b, u, hb, hu, rfl⟩ := h'
  exact ⟨a ++ b, u, ha.closed.append hb, hu, (List.append_assoc ..).symm⟩

theorem Passes.suffix (h : Passes ts rest) : rest <:+ ts :=
  let ⟨a, _, heq⟩ := h
  ⟨a, heq.symm⟩

theorem Takes.suffix (h : Takes ts rest) : rest <:+ ts :=
  h.passes.suffix

theorem Takes.length_lt (h : Takes ts rest) : rest.length < ts.length := by
  obtain ⟨a, hne, -, rfl⟩ := h
  have := List.length_pos_iff.2 hne
  rw [List.length_append]
  omega

theorem Closes.shorter (h : Closes ts rest) : rest <:+ ts ∧ rest.length < ts.length := by
  obtain ⟨a, u, -, -, rfl⟩ := h
  refine ⟨⟨a ++ [u], by simp⟩, ?_⟩
  simp only [List.length_append, List.length_cons]
  omega

theorem takes_plain {t : Token} (h : Plain t.lexeme) (r : List Token) : Takes (t :: r) r :=
  ⟨[t], List.cons_ne_nil _ _, stretch_plain h, rfl⟩

theorem takes_brackets {t : Token} (ht : t.lexeme = .leftParen) (h : Closes us rest) :
    Takes (t :: us) rest := by
  obtain ⟨a, u, ha, hu, rfl⟩ := h
  refine ⟨t :: (a ++ [u]), List.cons_ne_nil _ _, ⟨ha.inBrackets ht hu, ?_⟩, by simp⟩
  intro v hv
  rw [← List.cons_append, List.getLast?_concat] at hv
  cases hv
  exact .inr hu

theorem exists_of_atLexeme {l : Lexeme} (h : atLexeme l ts = true) :
    ∃ t r, ts = t :: r ∧ t.lexeme = l := by
  cases ts with
  | nil => cases h
  | cons t r => exact ⟨t, r, rfl, eq_of_beq h⟩

theorem takes_of_atLexeme {l : Lexeme} (hl : Plain l) (h : atLexeme l ts = true) :
    Takes ts (ts.drop 1) := by
  obtain ⟨t, r, rfl, rfl⟩ := exists_of_atLexeme h
  exact takes_plain hl r

theorem takes_of_atKeyword {k : Keyword} (h : atKeyword k ts = true) : Takes ts (ts.drop 1) :=
  takes_of_atLexeme (l := .keyword k) trivial h

end

/-! ### Cutting gives parts of the tokens -/

variable {T : List Token}

theorem infix_drop {ts : List Token} (h : ts <:+: T) (n : Nat) : ts.drop n <:+: T :=
  (List.drop_suffix n ts).isInfix.trans h

theorem infix_tail {t : Token} {r : List Token} (h : t :: r <:+: T) : r <:+: T :=
  infix_drop h 1

theorem Takes.part {ts rest : List Token} (h : Takes ts rest) (hT : ts <:+: T) : rest <:+: T :=
  h.suffix.isInfix.trans hT

theorem Passes.part {ts rest : List Token} (h : Passes ts rest) (hT : ts <:+: T) : rest <:+: T :=
  h.suffix.isInfix.trans hT

theorem splitClose_part {depth : Nat} {ts inner rest : List Token}
    (h : splitClose depth ts = some (inner, rest)) : inner <:+: ts ∧ rest <:+ ts := by
  obtain ⟨u, -, rfl, -⟩ := splitClose_passes h
  exact ⟨(List.prefix_append _ _).isInfix, ⟨inner ++ [u], by simp⟩⟩

theorem stripParens_part (fuel : Nat) (ts : List Token) : stripParens fuel ts <:+: ts := by
  induction fuel generalizing ts with
  | zero => exact List.infix_rfl
  | succ fuel ih =>
    unfold stripParens
    split
    · split
      · split
        · rename_i inner hs
          exact ((ih inner).trans (splitClose_part hs).1).trans (List.suffix_cons _ _).isInfix
        · exact List.infix_rfl
      · exact List.infix_rfl
    · exact List.infix_rfl

theorem setOperator?_suffix {ts rest : List Token} {op : SetOperator}
    (h : setOperator? ts = some (op, rest)) : rest <:+ ts := by
  unfold setOperator? at h
  repeat' split at h
  all_goals simp only [reduceCtorEq, Option.some.injEq, Prod.mk.injEq] at h
  all_goals obtain ⟨-, rfl⟩ := h
  · exact ⟨[_, _], rfl⟩
  all_goals exact List.suffix_cons _ _

theorem gathered_part (operator : Option SetOperator) (gathered : List Token) (start stop : Nat) :
    Yields (fun o => o.tokens <:+: gathered.reverse)
      (GridQuery.operand operator gathered start stop) :=
  Yields.ite (fun _ => Yields.error _) fun _ => Yields.ok (stripParens_part _ _)

/-- The invariant of the cut: what was gathered stands before the tokens that are left. -/
theorem splitOperands_part {depth : Nat} {operator : Option SetOperator} {gathered ts : List Token}
    {start stop : Nat} (h : gathered.reverse ++ ts <:+: T) :
    Yields (fun os => ∀ o ∈ os, o.tokens <:+: T)
      (splitOperands depth operator gathered start stop ts) := by
  induction hn : ts.length using Nat.strongRecOn generalizing depth operator gathered ts start stop with
  | ind n ih =>
    have hgathered : gathered.reverse <:+: T := (List.prefix_append _ _).isInfix.trans h
    cases ts with
    | nil =>
      rw [splitOperands]
      refine (gathered_part _ _ _ _).map fun o ho => ?_
      exact List.forall_mem_singleton.2 (ho.trans hgathered)
    | cons t r =>
      rw [splitOperands]
      split
      · rename_i op rest hop
        have hset : setOperator? (t :: r) = some (op, rest) := by
          split at hop
          · exact hop
          · cases hop
        have hrest : ([] : List Token).reverse ++ rest <:+: T :=
          ((setOperator?_suffix hset).trans (List.suffix_append _ _)).isInfix.trans h
        refine (gathered_part _ _ _ _).bind fun o ho => ?_
        refine (ih _ (hn ▸ length_of_setOperator? hset) hrest rfl).bind fun os hos => ?_
        exact Yields.ok (List.forall_mem_cons.2 ⟨ho.trans hgathered, hos⟩)
      · refine ih r.length (hn ▸ Nat.lt_succ_self _) ?_ rfl
        rwa [List.reverse_cons, List.append_assoc, List.singleton_append]

theorem operands_part (ts : List Token) :
    Yields (fun os => ∀ o ∈ os, o.tokens <:+: ts) (operands ts) := by
  unfold operands
  exact Yields.bind (P := fun _ => True) (fun _ _ => trivial)
    fun _ _ => splitOperands_part List.infix_rfl

/-- The tokens of a clause stand behind its first word. -/
theorem cutClauses_part (depth skip : Nat) (ts : List Token) :
    (cutClauses depth skip ts).1 <+: ts.drop skip ∧
      ∀ s ∈ (cutClauses depth skip ts).2, s.tokens <:+: ts.drop 1 := by
  induction ts generalizing depth skip with
  | nil => exact ⟨List.nil_prefix, fun _ h => nomatch h⟩
  | cons t r ih =>
    have hbehind : ∀ {d k s}, s ∈ (cutClauses d k r).2 → s.tokens <:+: r :=
      fun hs => infix_drop List.infix_rfl 1 |> ((ih _ _).2 _ hs).trans
    unfold cutClauses
    split
    · exact ⟨(ih _ _).1, fun s hs => hbehind hs⟩
    · split
      · rename_i kind width _
        refine ⟨List.nil_prefix, List.forall_mem_cons.2 ⟨?_, fun s hs => hbehind hs⟩⟩
        exact (ih depth (width - 1)).1.isInfix.trans (infix_drop List.infix_rfl _)
      · refine ⟨?_, fun s hs => hbehind hs⟩
        have hpre := (ih (depthAfter depth t) 0).1
        exact (List.prefix_cons_inj t).2 hpre

theorem clauses_part (ts : List Token) :
    Yields (fun ss => ∀ s ∈ ss, s.tokens <:+: ts.drop 1) (clauses ts) := by
  unfold clauses
  refine Yields.bind (P := fun _ => True) (fun _ _ => trivial) fun _ _ => ?_
  refine Yields.ite (fun _ => Yields.error _) fun _ => ?_
  refine Yields.bind (P := fun _ => True) (fun _ _ => trivial) fun _ _ => ?_
  exact Yields.ite (fun _ => Yields.ok (cutClauses_part 0 0 ts).2) fun _ => Yields.error _

/-! ### The parts of readers -/

theorem expect_cons {p : Place} {l : Lexeme} {expected : String} {ts rest : List Token}
    (h : expect p l expected ts = .ok rest) : ∃ t, t.lexeme = l ∧ ts = t :: rest := by
  cases ts with
  | nil => cases h
  | cons t r =>
    simp only [expect] at h
    split at h
    · cases h
      exact ⟨t, ‹_›, rfl⟩
    · cases h

theorem expect_takes {p : Place} {l : Lexeme} {expected : String} (hl : Plain l) (ts : List Token) :
    Yields (Takes ts) (expect p l expected ts) := by
  intro rest h
  obtain ⟨t, rfl, rfl⟩ := expect_cons h
  exact takes_plain hl rest

theorem expect_closes {p : Place} {expected : String} (ts : List Token) :
    Yields (Closes ts) (expect p .rightParen expected ts) := by
  intro rest h
  obtain ⟨t, ht, rfl⟩ := expect_cons h
  exact ⟨[], t, closed_nil, ht, rfl⟩

theorem comparisonOf_plain {l : Lexeme} {op : Comparison} (h : comparisonOf l = some op) : Plain l := by
  unfold comparisonOf at h
  split at h
  all_goals trivial

theorem comparison_takes (p : Place) (negated : Bool) (ts : List Token) :
    Yields (fun r => Takes ts r.2) (comparison p negated ts) := by
  unfold comparison
  split
  · exact unexpected_yields _ _ _
  · rename_i t r
    split
    · exact unexpected_yields _ _ _
    · rename_i op hop
      have ht := comparisonOf_plain hop
      refine Yields.ite (fun _ => ?_) fun _ => ?_
      · split
        · exact Yields.ok (takes_plain ht r)
        · exact Yields.ok (takes_plain ht r)
        · exact Yields.error _
      · refine Yields.ite (fun his => Yields.ok ?_) fun _ => Yields.ok (takes_plain ht r)
        exact (takes_plain ht r).trans (takes_of_atKeyword his.2).passes

theorem name_takes (p : Place) (expected : String) (ts : List Token) :
    Yields (fun r => Takes ts r.2) (name p expected ts) := by
  unfold name
  split
  · rename_i t r
    have hplain : ∀ {l : Lexeme}, t.lexeme = l → Plain l → Takes (t :: r) r :=
      fun hl hp => takes_plain (hl ▸ hp) r
    split
    · exact Yields.ok (hplain ‹_› (by trivial))
    · exact Yields.ok (hplain ‹_› (by trivial))
    · exact unexpected_yields _ _ _
  · exact unexpected_yields _ _ _

theorem optionalAlias_suffix (p : Place) (ts : List Token) :
    Yields (fun r => r.2 <:+ ts) (optionalAlias p ts) := by
  unfold optionalAlias
  split
  · split
    · exact (name_takes _ _ _).map fun r hr => hr.suffix.trans (List.suffix_cons _ _)
    · exact Yields.ok (List.suffix_cons _ _)
    · exact Yields.ok List.suffix_rfl
  · exact Yields.ok List.suffix_rfl

theorem distinctMark_passes (ts : List Token) : Passes ts (distinctMark ts).2 := by
  unfold distinctMark
  split
  · exact (takes_of_atKeyword ‹_›).passes
  · split
    · exact (takes_of_atKeyword ‹_›).passes
    · exact passes_refl ts

theorem direction_suffix (ts : List Token) : (direction ts).2 <:+ ts := by
  unfold direction
  split
  · exact List.drop_suffix 1 ts
  · split
    · exact List.drop_suffix 1 ts
    · exact List.suffix_rfl

theorem qualified_takes (p : Place) (table : String) (ts : List Token) :
    Yields (fun r => Takes ts r.2 ∧ r.1.statements = []) (qualified p table ts) := by
  unfold qualified
  split
  · rename_i t r
    have hplain : ∀ {l : Lexeme}, t.lexeme = l → Plain l → Takes (t :: r) r :=
      fun hl hp => takes_plain (hl ▸ hp) r
    split
    · exact Yields.ok ⟨hplain ‹_› (by trivial), rfl⟩
    · exact Yields.ok ⟨hplain ‹_› (by trivial), rfl⟩
    · exact Yields.ok ⟨hplain ‹_› (by trivial), rfl⟩
    · exact unexpected_yields _ _ _
  · exact unexpected_yields _ _ _

theorem applySign_statements (s : Sign) (e : Expr) : (applySign s e).statements = e.statements := by
  unfold applySign
  split <;> rfl

theorem atom?_statements {l : Lexeme} {e : Expr} (h : atom? l = some e) :
    Plain l ∧ e.statements = [] := by
  unfold atom? at h
  split at h
  all_goals first
    | cases h; exact ⟨trivial, rfl⟩
    | cases h

theorem binaryOf_plain {l : Lexeme} {r : BinaryOp × Nat × Nat} (h : binaryOf l = some r) : Plain l := by
  unfold binaryOf at h
  split at h
  all_goals trivial

theorem signOf_plain {l : Lexeme} {s : Sign} (h : signOf l = some s) : Plain l := by
  unfold signOf at h
  split at h
  all_goals trivial

end Parser

end GridQuery
