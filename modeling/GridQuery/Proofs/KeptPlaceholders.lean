import GridQuery.Proofs.Placeholders
import GridQuery.Proofs.Splitting

/-!
Reading keeps placeholders. What a reader takes off the front of its tokens has the numbers of the
placeholders that it took and no others, so a number stands among the tokens where it stands in what is
read or in the rest. Operands that are read once and used twice, and attempts that are given up, change
nothing in this.
-/

namespace GridQuery
set_option autoImplicit false

open GridQuery.Parser

variable {k : Nat}

/-! ### Placeholders of expressions, conditions and statements -/

@[simp] theorem Expr.hasBind_literal {c : Cell} : (Expr.literal c).HasBind k ↔ False :=
  iff_false_intro fun h => by cases h

@[simp] theorem Expr.hasBind_column {table : Option String} {name : String} :
    (Expr.column table name).HasBind k ↔ False :=
  iff_false_intro fun h => by cases h

@[simp] theorem Expr.hasBind_star {table : Option String} : (Expr.star table).HasBind k ↔ False :=
  iff_false_intro fun h => by cases h

@[simp] theorem Expr.hasBind_bind {n : Nat} : (Expr.bind n).HasBind k ↔ n = k := by
  constructor
  · rintro ⟨⟩
    rfl
  · rintro rfl
    exact .bind

@[simp] theorem Expr.hasBind_binary {op : BinaryOp} {a b : Expr} :
    (Expr.binary op a b).HasBind k ↔ a.HasBind k ∨ b.HasBind k :=
  ⟨fun | .left h => .inl h | .right h => .inr h, fun | .inl h => .left h | .inr h => .right h⟩

@[simp] theorem Expr.hasBind_unary {sign : Sign} {a : Expr} :
    (Expr.unary sign a).HasBind k ↔ a.HasBind k :=
  ⟨fun | .operand h => h, .operand⟩

@[simp] theorem Expr.hasBind_call {name : String} {distinct : Bool} {args : List Expr} :
    (Expr.call name distinct args).HasBind k ↔ ∃ e ∈ args, e.HasBind k :=
  ⟨fun | .arg he h => ⟨_, he, h⟩, fun ⟨_, he, h⟩ => .arg he h⟩

@[simp] theorem Expr.hasBind_case {branches : List (Condition × Expr)} {otherwise : Option Expr} :
    (Expr.case branches otherwise).HasBind k ↔
      (∃ b ∈ branches, b.1.HasBind k ∨ b.2.HasBind k) ∨ ∃ e ∈ otherwise, e.HasBind k := by
  constructor
  · intro h
    cases h with
    | when hb h => exact .inl ⟨_, hb, .inl h⟩
    | «then» hb h => exact .inl ⟨_, hb, .inr h⟩
    | «else» he h => exact .inr ⟨_, he, h⟩
  · rintro (⟨b, hb, h | h⟩ | ⟨e, he, h⟩)
    · exact .when hb h
    · exact .then hb h
    · exact .else he h

@[simp] theorem Expr.hasBind_ite {c : Condition} {a b : Expr} :
    (Expr.ite c a b).HasBind k ↔ c.HasBind k ∨ a.HasBind k ∨ b.HasBind k :=
  ⟨fun | .test h => .inl h | .yes h => .inr (.inl h) | .no h => .inr (.inr h),
    fun | .inl h => .test h | .inr (.inl h) => .yes h | .inr (.inr h) => .no h⟩

@[simp] theorem Expr.hasBind_subquery {q : Statement} : (Expr.subquery q).HasBind k ↔ q.HasBind k :=
  ⟨fun | .subquery h => h, .subquery⟩

@[simp] theorem Expr.hasBind_list {items : List Expr} :
    (Expr.list items).HasBind k ↔ ∃ e ∈ items, e.HasBind k :=
  ⟨fun | .item he h => ⟨_, he, h⟩, fun ⟨_, he, h⟩ => .item he h⟩

@[simp] theorem Expr.hasBind_paren {a : Expr} : (Expr.paren a).HasBind k ↔ a.HasBind k :=
  ⟨fun | .paren h => h, .paren⟩

@[simp] theorem Condition.hasBind_compare {op : Comparison} {a b : Expr} :
    (Condition.compare op a b).HasBind k ↔ a.HasBind k ∨ b.HasBind k :=
  ⟨fun | .left h => .inl h | .right h => .inr h, fun | .inl h => .left h | .inr h => .right h⟩

@[simp] theorem Condition.hasBind_logic {op : Connective} {terms : List Condition} :
    (Condition.logic op terms).HasBind k ↔ ∃ c ∈ terms, c.HasBind k :=
  ⟨fun | .term hc h => ⟨_, hc, h⟩, fun ⟨_, hc, h⟩ => .term hc h⟩

@[simp] theorem Condition.hasBind_not {c : Condition} : (Condition.not c).HasBind k ↔ c.HasBind k :=
  ⟨fun | .not h => h, .not⟩

@[simp] theorem Condition.hasBind_exists {negated : Bool} {q : Statement} :
    (Condition.exists negated q).HasBind k ↔ q.HasBind k :=
  ⟨fun | .exists h => h, .exists⟩

@[simp] theorem Source.hasBind_table {name : String} {alias? : Option String} :
    (Source.table name alias?).HasBind k ↔ False :=
  iff_false_intro fun h => by cases h

@[simp] theorem Source.hasBind_query {q : Statement} {alias? : Option String} :
    (Source.query q alias?).HasBind k ↔ q.HasBind k :=
  ⟨fun | .query h => h, .query⟩

@[simp] theorem Condition.hasBind_combine {op : Connective} {first second : Condition} :
    (first.combine op second).HasBind k ↔ first.HasBind k ∨ second.HasBind k := by
  cases first with
  | logic o terms =>
    simp only [Condition.combine]
    split
    · simp [or_and_right, exists_or]
    · simp
  | _ => simp [Condition.combine]

theorem Parser.hasBind_applySign {s : Sign} {e : Expr} : (applySign s e).HasBind k ↔ e.HasBind k := by
  unfold applySign
  split
  · simp
  · simp

/-- A placeholder with that number stands in the clause of that kind, as far as it was read. -/
def Parser.Draft.HasBind (k : Nat) (d : Draft) : ClauseKind → Prop
  | .select => ∃ i ∈ d.items, i.expr.HasBind k
  | .source => ∃ s ∈ d.source, s.HasBind k
  | .join kind => ∃ j ∈ d.joins, j.kind = kind ∧ (j.source.HasBind k ∨ j.condition.HasBind k)
  | .filter => ∃ c ∈ d.filter, c.HasBind k
  | .groupBy => ∃ e ∈ d.groupBy, e.HasBind k
  | .having => ∃ c ∈ d.having, c.HasBind k
  | .orderBy => ∃ o ∈ d.orderBy, o.expr.HasBind k
  | .limit => False
  | .pivot => ∃ e ∈ d.pivot, e.HasBind k

theorem Parser.Draft.statement_keeps (k : Nat) (d : Draft) :
    Yields (fun s => s.operations = [] ∧ ((∃ kind, d.HasBind k kind) ↔ s.HasBind k)) d.statement := by
  unfold Draft.statement
  split
  · rename_i source hsource
    refine Yields.ok ⟨rfl, ?_, fun h => ?_⟩
    · rintro ⟨kind, h⟩
      cases kind with
      | select =>
        obtain ⟨i, hi, h⟩ := h
        exact .item hi h
      | source =>
        obtain ⟨s, hs, h⟩ := h
        rw [hsource] at hs
        cases hs
        exact .source h
      | join kind =>
        obtain ⟨j, hj, -, h⟩ := h
        exact h.elim (.joined hj) (.on hj)
      | filter =>
        obtain ⟨c, hc, h⟩ := h
        exact .filter hc h
      | groupBy =>
        obtain ⟨e, he, h⟩ := h
        exact .groupBy he h
      | having =>
        obtain ⟨c, hc, h⟩ := h
        exact .having hc h
      | orderBy =>
        obtain ⟨o, ho, h⟩ := h
        exact .orderBy ho h
      | limit => exact h.elim
      | pivot =>
        obtain ⟨e, he, h⟩ := h
        exact .pivot he h
    · cases h with
      | item hi h => exact ⟨.select, _, hi, h⟩
      | source h => exact ⟨.source, _, hsource, h⟩
      | joined hj h => exact ⟨.join _, _, hj, rfl, .inl h⟩
      | on hj h => exact ⟨.join _, _, hj, rfl, .inr h⟩
      | filter hc h => exact ⟨.filter, _, hc, h⟩
      | groupBy he h => exact ⟨.groupBy, _, he, h⟩
      | having hc h => exact ⟨.having, _, hc, h⟩
      | orderBy ho h => exact ⟨.orderBy, _, ho, h⟩
      | pivot he h => exact ⟨.pivot, _, he, h⟩
      | operation ho h => cases ho
  · exact Yields.error _

theorem Statement.hasBind_operations {s : Statement} (hs : s.operations = []) {ops : List SetOperation} :
    ({ s with operations := ops } : Statement).HasBind k ↔
      s.HasBind k ∨ ∃ o ∈ ops, o.statement.HasBind k := by
  constructor
  · intro h
    cases h with
    | item hi h => exact .inl (.item hi h)
    | source h => exact .inl (.source h)
    | joined hj h => exact .inl (.joined hj h)
    | on hj h => exact .inl (.on hj h)
    | filter hc h => exact .inl (.filter hc h)
    | groupBy he h => exact .inl (.groupBy he h)
    | having hc h => exact .inl (.having hc h)
    | orderBy ho h => exact .inl (.orderBy ho h)
    | pivot he h => exact .inl (.pivot he h)
    | operation ho h => exact .inr ⟨_, ho, h⟩
  · rintro (h | ⟨o, ho, h⟩)
    · cases h with
      | item hi h => exact .item hi h
      | source h => exact .source h
      | joined hj h => exact .joined hj h
      | on hj h => exact .on hj h
      | filter hc h => exact .filter hc h
      | groupBy he h => exact .groupBy he h
      | having hc h => exact .having hc h
      | orderBy ho h => exact .orderBy ho h
      | pivot he h => exact .pivot he h
      | operation ho h =>
        rw [hs] at ho
        cases ho
    · exact .operation ho h

namespace Parser

/-! ### Placeholders among tokens -/

/-- A placeholder with that number stands among the tokens. -/
def Numbered (k : Nat) (ts : List Token) : Prop :=
  ∃ t ∈ ts, t.lexeme = .placeholder (some k)

@[simp] theorem numbered_nil : Numbered k [] ↔ False := by
  simp [Numbered]

@[simp] theorem numbered_cons {t : Token} {r : List Token} :
    Numbered k (t :: r) ↔ t.lexeme = .placeholder (some k) ∨ Numbered k r := by
  simp [Numbered]

@[simp] theorem numbered_append {ts us : List Token} :
    Numbered k (ts ++ us) ↔ Numbered k ts ∨ Numbered k us := by
  simp [Numbered, or_and_right, exists_or]

/-- No placeholder with a number. -/
def Unnumbered : Lexeme → Prop
  | .placeholder (some _) => False
  | _ => True

variable {ts : List Token}

theorem numbered_tail {t : Token} {r : List Token} (ht : Unnumbered t.lexeme) :
    Numbered k (t :: r) ↔ Numbered k r := by
  rw [numbered_cons, or_iff_right]
  intro h
  rw [h] at ht
  exact ht

theorem not_numbered_keywords (h : ∀ t ∈ ts, t.keyword?.isSome = true) : ¬ Numbered k ts := by
  rintro ⟨t, ht, hl⟩
  have := h t ht
  rw [Token.keyword?, hl] at this
  cases this

theorem numbered_drop {l : Lexeme} (hl : Unnumbered l) (h : atLexeme l ts = true) :
    Numbered k ts ↔ Numbered k (ts.drop 1) := by
  obtain ⟨t, r, rfl, rfl⟩ := exists_of_atLexeme h
  exact numbered_tail hl

theorem numbered_dropWord {w : Keyword} (h : atKeyword w ts = true) :
    Numbered k ts ↔ Numbered k (ts.drop 1) :=
  numbered_drop (l := .keyword w) trivial h

theorem expect_keeps (k : Nat) {p : Place} {l : Lexeme} {expected : String} (hl : Unnumbered l)
    (ts : List Token) :
    Yields (fun rest => Numbered k ts ↔ Numbered k rest) (expect p l expected ts) := by
  intro rest h
  obtain ⟨t, rfl, rfl⟩ := expect_cons h
  exact numbered_tail hl

theorem name_keeps (k : Nat) (p : Place) (expected : String) (ts : List Token) :
    Yields (fun r => Numbered k ts ↔ Numbered k r.2) (name p expected ts) := by
  unfold name
  split
  · rename_i t r
    have hplain : ∀ {l : Lexeme}, t.lexeme = l → Unnumbered l → (Numbered k (t :: r) ↔ Numbered k r) :=
      fun ht hl => numbered_tail (ht ▸ hl)
    split
    · exact Yields.ok (hplain ‹_› (by trivial))
    · exact Yields.ok (hplain ‹_› (by trivial))
    · exact unexpected_yields _ _ _
  · exact unexpected_yields _ _ _

theorem optionalAlias_keeps (k : Nat) (p : Place) (ts : List Token) :
    Yields (fun r => Numbered k ts ↔ Numbered k r.2) (optionalAlias p ts) := by
  unfold optionalAlias
  split
  · rename_i t r
    have hplain : ∀ {l : Lexeme}, t.lexeme = l → Unnumbered l → (Numbered k (t :: r) ↔ Numbered k r) :=
      fun ht hl => numbered_tail (ht ▸ hl)
    split
    · rename_i hl
      exact (name_keeps k _ _ r).map fun _ hr => (hplain hl (by trivial)).trans hr
    · exact Yields.ok (hplain ‹_› (by trivial))
    · exact Yields.ok Iff.rfl
  · exact Yields.ok Iff.rfl

theorem comparisonOf_unnumbered {l : Lexeme} {op : Comparison} (h : comparisonOf l = some op) :
    Unnumbered l := by
  unfold comparisonOf at h
  split at h
  all_goals trivial

theorem comparison_keeps (k : Nat) (p : Place) (negated : Bool) (ts : List Token) :
    Yields (fun r => Numbered k ts ↔ Numbered k r.2) (comparison p negated ts) := by
  unfold comparison
  split
  · exact unexpected_yields _ _ _
  · rename_i t r
    split
    · exact unexpected_yields _ _ _
    · rename_i op hop
      have ht : Numbered k (t :: r) ↔ Numbered k r := numbered_tail (comparisonOf_unnumbered hop)
      refine Yields.ite (fun _ => ?_) fun _ => ?_
      · split
        · exact Yields.ok ht
        · exact Yields.ok ht
        · exact Yields.error _
      · exact Yields.ite (fun his => Yields.ok (ht.trans (numbered_dropWord his.2))) fun _ => Yields.ok ht

theorem distinctMark_keeps (ts : List Token) : Numbered k ts ↔ Numbered k (distinctMark ts).2 := by
  unfold distinctMark
  split
  · exact numbered_dropWord ‹_›
  · split
    · exact numbered_dropWord ‹_›
    · exact Iff.rfl

/-- A number stands among the tokens where it stands in what is read or in the rest. -/
def Keeps {α : Type} (k : Nat) (has : α → Prop) (ts : List Token) (r : Reading α) : Prop :=
  Numbered k ts ↔ has r.1 ∨ Numbered k r.2

theorem qualified_keeps (k : Nat) (p : Place) (table : String) (ts : List Token) :
    Yields (Keeps k (Expr.HasBind k) ts) (qualified p table ts) := by
  unfold qualified
  split
  · rename_i t r
    have hplain : ∀ {l : Lexeme}, t.lexeme = l → Unnumbered l →
        (Numbered k (t :: r) ↔ False ∨ Numbered k r) :=
      fun ht hl => (numbered_tail (ht ▸ hl)).trans (false_or _).to_iff.symm
    split
    · exact Yields.ok ((hplain ‹_› (by trivial)).trans (or_congr_left Expr.hasBind_star.symm))
    · exact Yields.ok ((hplain ‹_› (by trivial)).trans (or_congr_left Expr.hasBind_column.symm))
    · exact Yields.ok ((hplain ‹_› (by trivial)).trans (or_congr_left Expr.hasBind_column.symm))
    · exact unexpected_yields _ _ _
  · exact unexpected_yields _ _ _

theorem direction_keeps (ts : List Token) : Numbered k ts ↔ Numbered k (direction ts).2 := by
  unfold direction
  split
  · exact numbered_dropWord ‹_›
  · split
    · exact numbered_dropWord ‹_›
    · exact Iff.rfl

theorem rowCount_keeps (k : Nat) (stop : Nat) (ts : List Token) :
    Yields (fun r => Numbered k ts ↔ Numbered k r.2) (rowCount stop ts) := by
  unfold rowCount
  split
  · split
    · rename_i hl
      exact Yields.ok (numbered_tail (by rw [hl]; trivial))
    · exact Yields.error _
  · exact Yields.error _

theorem binaryOf_unnumbered {l : Lexeme} {r : BinaryOp × Nat × Nat} (h : binaryOf l = some r) :
    Unnumbered l := by
  unfold binaryOf at h
  split at h
  all_goals trivial

theorem signOf_unnumbered {l : Lexeme} {s : Sign} (h : signOf l = some s) : Unnumbered l := by
  unfold signOf at h
  split at h
  all_goals trivial

/-- A placeholder is read as itself, and no other token as one. -/
theorem atom?_hasBind {l : Lexeme} {e : Expr} (h : atom? l = some e) :
    e.HasBind k ↔ l = .placeholder (some k) := by
  unfold atom? at h
  split at h
  all_goals first
    | cases h; simp
    | cases h

/-! ### Cutting -/

theorem numbered_splitClose {ts inner rest : List Token} (h : splitClose 0 ts = some (inner, rest)) :
    Numbered k ts ↔ Numbered k inner ∨ Numbered k rest := by
  obtain ⟨u, hu, rfl, -⟩ := splitClose_passes h
  rw [numbered_append, numbered_tail (by rw [hu]; trivial)]

theorem numbered_bracketed {inner : List Token} (h : Bracketed inner ts) :
    Numbered k ts ↔ Numbered k inner := by
  induction h with
  | none => exact Iff.rfl
  | pair ht hu _ _ ih =>
    rw [numbered_tail (by rw [ht]; trivial), numbered_append, numbered_tail (by rw [hu]; trivial), ih]
    simp

theorem not_numbered_operator {words : List Token} {op : SetOperator}
    (h : words.map Token.lexeme = op.lexemes) : ¬ Numbered k words := by
  rintro ⟨t, ht, hl⟩
  have hmem : t.lexeme ∈ op.lexemes := h ▸ List.mem_map_of_mem ht
  rw [hl] at hmem
  cases op <;> simp [SetOperator.lexemes] at hmem

theorem numbered_pieces {pieces : List Piece} (h : ∀ p ∈ pieces, p.Follows) :
    Numbered k (pieceTokens pieces) ↔ ∃ o ∈ pieces.map Piece.operand, Numbered k o.tokens := by
  induction pieces with
  | nil => simp
  | cons p pieces ih =>
    obtain ⟨hp, hrest⟩ := List.forall_mem_cons.1 h
    obtain ⟨op, -, hwords⟩ := hp.operator
    rw [pieceTokens_cons, numbered_append, numbered_append, or_iff_right (not_numbered_operator hwords),
      numbered_bracketed hp.brackets, ih hrest]
    simp

/-- The operands of a statement have its placeholders. -/
theorem operands_keep (k : Nat) (ts : List Token) :
    Yields (fun os => Numbered k ts ↔ ∃ o ∈ os, Numbered k o.tokens) (operands ts) := by
  refine (operands_cut ts).imp fun os hos => ?_
  obtain ⟨first, rest, rfl, rfl, hwords, -, hbrackets, hfollow⟩ := hos.whole
  rw [pieceTokens_cons, hwords, List.nil_append, numbered_append, numbered_bracketed hbrackets,
    numbered_pieces hfollow]
  simp

theorem numbered_cuts {cuts : List Cut}
    (h : ∀ c ∈ cuts, ∀ t ∈ c.words, t.keyword?.isSome = true) :
    Numbered k (cutTokens cuts) ↔ ∃ s ∈ cuts.map Cut.segment, Numbered k s.tokens := by
  induction cuts with
  | nil => simp
  | cons c cuts ih =>
    obtain ⟨hc, hrest⟩ := List.forall_mem_cons.1 h
    rw [cutTokens_cons, numbered_append, numbered_append, or_iff_right (not_numbered_keywords hc), ih hrest]
    simp

/-- The clauses of an operand have its placeholders. -/
theorem numbered_clauses {ss : List Segment} (h : ClauseCut ts ss) :
    Numbered k ts ↔ ∃ s ∈ ss, Numbered k s.tokens := by
  obtain ⟨cuts, rfl, rfl, hstands⟩ := h.whole
  refine numbered_cuts fun c hc t ht => ?_
  obtain ⟨before, behind, hsplit⟩ := List.append_of_mem hc
  obtain ⟨-, -, hwords⟩ := clauseAt?_words (hstands before c behind hsplit).opens
  apply hwords
  rw [Cut.tokens, List.append_assoc, List.take_left]
  exact ht

end Parser

end GridQuery
