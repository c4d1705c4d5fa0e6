import GridQuery.Proofs.Outcomes
import GridQuery.Proofs.Lexing

/-!
The syntax trees that readers make. An operator has no operand that binds less tightly than it does, a
list of terms does not begin with terms of its own connective, lists stand behind `IN` alone. These are
the trees whose text needs no brackets beyond those they hold.
-/

namespace GridQuery
set_option autoImplicit false

open GridQuery.Parser

/-- The binding power of an operator to its left; to its right it is one more. -/
def BinaryOp.power : BinaryOp → Nat
  | add | sub | concat => 3
  | mul | div | mod => 5

/-- How tightly an expression holds together: as its operator does, or more than any. -/
def Expr.level : Expr → Nat
  | .binary op _ _ => op.power
  | .unary .. => signPower
  | _ => signPower + 1

def Expr.isNumber : Expr → Bool
  | .literal (.number _) => true
  | _ => false

def Cell.isMoment : Cell → Bool
  | .date _ => true
  | _ => false

/-- A list of terms with this connective. -/
def Condition.connects (op : Connective) : Condition → Bool
  | .logic o _ => o = op
  | _ => false

def Comparison.takesMembers : Comparison → Bool
  | .isIn | .notIn => true
  | _ => false

mutual

def Expr.Formed : Expr → Prop
  | .literal c => c.isMoment = false
  | .column .. => True
  | .bind n => 0 < n ∧ n < Number.twoPow 64
  | .binary op a b => a.Formed ∧ b.Formed ∧ op.power ≤ a.level ∧ op.power < b.level
  | .unary s a => a.Formed ∧ signPower ≤ a.level ∧ (s = .minus → a.isNumber = false)
  | .call name _ args => Text.asciiUpper name = name ∧ name ≠ "IF" ∧ FormedExprs args
  | .case branches otherwise => branches ≠ [] ∧ FormedBranches branches ∧ FormedElse otherwise
  | .ite c a b => c.Formed ∧ a.Formed ∧ b.Formed
  | .subquery q => q.Formed
  | .list _ => False
  | .star _ => True
  | .paren a => a.Formed

/-- What stands behind `IN`. -/
def Expr.FormedMembers : Expr → Prop
  | .subquery q => q.Formed
  | .list items => FormedExprs items
  | _ => False

def FormedExprs : List Expr → Prop
  | [] => True
  | e :: es => e.Formed ∧ FormedExprs es

def FormedBranches : List (Condition × Expr) → Prop
  | [] => True
  | (c, e) :: bs => c.Formed ∧ e.Formed ∧ FormedBranches bs

def FormedElse : Option Expr → Prop
  | none => True
  | some e => e.Formed

def Condition.Formed : Condition → Prop
  | .compare op a b => a.Formed ∧ if op.takesMembers then b.FormedMembers else b.Formed
  | .logic op terms =>
    2 ≤ terms.length ∧ (∀ c ∈ terms.head?, c.connects op = false) ∧ FormedTerms terms
  | .not c => c.Formed
  | .exists _ q => q.Formed

def FormedTerms : List Condition → Prop
  | [] => True
  | c :: cs => c.Formed ∧ FormedTerms cs

def Source.Formed : Source → Prop
  | .table .. => True
  | .query q _ => q.Formed

def FormedItems : List SelectItem → Prop
  | [] => True
  | ⟨e, _, _⟩ :: items => e.Formed ∧ FormedItems items

def FormedJoins : List JoinClause → Prop
  | [] => True
  | ⟨_, source, c⟩ :: joins => source.Formed ∧ c.Formed ∧ FormedJoins joins

def FormedCondition : Option Condition → Prop
  | none => True
  | some c => c.Formed

def FormedOrder : List OrderItem → Prop
  | [] => True
  | ⟨e, _⟩ :: items => e.Formed ∧ FormedOrder items

/-- The operands of set operations have none themselves. -/
def FormedOperations : List SetOperation → Prop
  | [] => True
  | ⟨_, s⟩ :: ops => s.Formed ∧ s.operations = [] ∧ FormedOperations ops

def Statement.Formed : Statement → Prop
  | ⟨_, items, source, joins, filter, groupBy, having, orderBy, limit, pivot, operations⟩ =>
    items ≠ [] ∧ FormedItems items ∧ source.Formed ∧ FormedJoins joins ∧ FormedCondition filter ∧
      FormedExprs groupBy ∧ FormedCondition having ∧ FormedOrder orderBy ∧
      (∀ n ∈ limit, n < Number.twoPow 63) ∧ FormedElse pivot ∧ FormedOperations operations

end

theorem formedTerms_append {cs ds : List Condition} :
    FormedTerms (cs ++ ds) ↔ FormedTerms cs ∧ FormedTerms ds := by
  induction cs with
  | nil => simp [FormedTerms]
  | cons c cs ih => simp [FormedTerms, ih, and_assoc]

/-- Joining conditions keeps the first term what it is. -/
theorem Condition.Formed.combine {op : Connective} {first second : Condition}
    (hf : first.Formed) (hs : second.Formed) : (first.combine op second).Formed := by
  have hpair : first.connects op = false → (Condition.logic op [first, second]).Formed := by
    intro hc
    refine ⟨Nat.le_refl 2, ?_, hf, hs, trivial⟩
    rintro c ⟨⟩
    exact hc
  cases first with
  | logic o terms =>
    by_cases ho : o = op
    · subst ho
      obtain ⟨hlen, hhead, hterms⟩ := hf
      rw [Condition.combine, if_pos rfl]
      refine ⟨?_, ?_, formedTerms_append.2 ⟨hterms, hs, trivial⟩⟩
      · rw [List.length_append]
        omega
      · cases terms with
        | nil => cases hlen
        | cons c cs => exact hhead
    · rw [Condition.combine, if_neg ho]
      exact hpair (decide_eq_false ho)
  | compare _ _ _ => exact hpair rfl
  | not _ => exact hpair rfl
  | «exists» _ _ => exact hpair rfl

theorem BinaryOp.power_lt (op : BinaryOp) : op.power < signPower := by
  cases op <;> decide

theorem binaryOf_eq_some {l : Lexeme} {op : BinaryOp} {left right : Nat}
    (h : binaryOf l = some (op, left, right)) :
    l = op.lexeme ∧ left = op.power ∧ right = op.power + 1 := by
  unfold binaryOf at h
  split at h
  all_goals first
    | cases h; exact ⟨rfl, rfl, rfl⟩
    | cases h

theorem binaryOf_lexeme (op : BinaryOp) :
    binaryOf op.lexeme = some (op, op.power, op.power + 1) := by
  cases op <;> rfl

theorem asciiUpper_asciiUpper (s : String) :
    Text.asciiUpper (Text.asciiUpper s) = Text.asciiUpper s := by
  simp [Text.asciiUpper, Function.comp_def]

namespace Parser

/-! ### Tokens in range -/

/-- A number as the lexer reads it. -/
def LexemeInRange : Lexeme → Prop
  | .integer i => 0 ≤ i ∧ i < Number.twoPow 63
  | .placeholder (some n) => 0 < n ∧ n < Number.twoPow 64
  | _ => True

def InRange (ts : List Token) : Prop :=
  ∀ t ∈ ts, LexemeInRange t.lexeme

/-- A value that has the property, with tokens in range behind it. -/
def Reads {α : Type} (P : α → Prop) (r : Reading α) : Prop :=
  P r.1 ∧ InRange r.2

theorem inRange_nil : InRange [] :=
  fun _ h => nomatch h

theorem InRange.cons {t : Token} {ts : List Token} (h : LexemeInRange t.lexeme) (hts : InRange ts) :
    InRange (t :: ts) :=
  List.forall_mem_cons.2 ⟨h, hts⟩

theorem InRange.tail {t : Token} {ts : List Token} (h : InRange (t :: ts)) : InRange ts :=
  fun u hu => h u (.tail _ hu)

theorem InRange.drop {ts : List Token} (h : InRange ts) (n : Nat) : InRange (ts.drop n) :=
  fun t ht => h t (List.mem_of_mem_drop ht)

theorem unexpected_yields {α : Type} {Q : α → Prop} (p : Place) (expected : String) (ts : List Token) :
    Yields Q (unexpected p expected ts) :=
  Yields.error _

theorem expect_inRange {p : Place} {l : Lexeme} {expected : String} {ts : List Token}
    (h : InRange ts) : Yields InRange (expect p l expected ts) := by
  unfold expect
  split
  · exact Yields.ite (fun _ => Yields.ok h.tail) fun _ => unexpected_yields _ _ _
  · exact unexpected_yields _ _ _

theorem name_inRange {p : Place} {expected : String} {ts : List Token} (h : InRange ts) :
    Yields (Reads fun _ => True) (name p expected ts) := by
  unfold name
  split
  · split
    · exact Yields.ok ⟨trivial, h.tail⟩
    · exact Yields.ok ⟨trivial, h.tail⟩
    · exact unexpected_yields _ _ _
  · exact unexpected_yields _ _ _

theorem optionalAlias_inRange {p : Place} {ts : List Token} (h : InRange ts) :
    Yields (Reads fun _ => True) (optionalAlias p ts) := by
  unfold optionalAlias
  split
  · split
    · exact (name_inRange h.tail).map fun r hr => ⟨trivial, hr.2⟩
    · exact Yields.ok ⟨trivial, h.tail⟩
    · exact Yields.ok ⟨trivial, h⟩
  · exact Yields.ok ⟨trivial, h⟩

theorem distinctMark_inRange {ts : List Token} (h : InRange ts) : InRange (distinctMark ts).2 := by
  unfold distinctMark
  split
  · exact h.drop 1
  · split
    · exact h.drop 1
    · exact h

theorem direction_inRange {ts : List Token} (h : InRange ts) : InRange (direction ts).2 := by
  unfold direction
  split
  · exact h.drop 1
  · split
    · exact h.drop 1
    · exact h

theorem comparison_inRange {p : Place} {negated : Bool} {ts : List Token} (h : InRange ts) :
    Yields (Reads fun _ => True) (comparison p negated ts) := by
  unfold comparison
  split
  · exact unexpected_yields _ _ _
  · split
    · exact unexpected_yields _ _ _
    · refine Yields.ite (fun _ => ?_) fun _ => ?_
      · split
        · exact Yields.ok ⟨trivial, h.tail⟩
        · exact Yields.ok ⟨trivial, h.tail⟩
        · exact Yields.error _
      · exact Yields.ite (fun _ => Yields.ok ⟨trivial, h.tail.drop 1⟩)
          fun _ => Yields.ok ⟨trivial, h.tail⟩

theorem rowCount_inRange {stop : Nat} {ts : List Token} (h : InRange ts) :
    Yields (Reads (· < Number.twoPow 63)) (rowCount stop ts) := by
  unfold rowCount
  split
  · rename_i t r
    split
    · rename_i i hi
      have ht := h t (.head _)
      rw [hi] at ht
      obtain ⟨h0, hlt⟩ := ht
      refine Yields.ok ⟨?_, h.tail⟩
      change i.toNat < Number.twoPow 63
      omega
    · exact Yields.error _
  · exact Yields.error _

/-- No operator at the front binds with `power` or more. -/
def NextBelow (power : Nat) (ts : List Token) : Prop :=
  ∀ op left right, (ts.head?.bind fun t => binaryOf t.lexeme) = some (op, left, right) → left < power

theorem nextBelow_of_signPower {power : Nat} (h : signPower ≤ power) (ts : List Token) :
    NextBelow power ts := by
  intro op left right ho
  obtain ⟨t, ht, hb⟩ := Option.bind_eq_some_iff.1 ho
  obtain ⟨-, rfl, -⟩ := binaryOf_eq_some hb
  exact Nat.lt_of_lt_of_le op.power_lt h

/-! ### Cutting keeps tokens in range -/

theorem splitClose_inRange {depth : Nat} {ts inner rest : List Token} (h : InRange ts)
    (hs : splitClose depth ts = some (inner, rest)) : InRange inner ∧ InRange rest := by
  induction ts generalizing depth inner with
  | nil => cases hs
  | cons t r ih =>
    unfold splitClose at hs
    split at hs
    · cases hs
      exact ⟨inRange_nil, h.tail⟩
    · obtain ⟨⟨inner', rest'⟩, hs', heq⟩ := Option.map_eq_some_iff.1 hs
      cases heq
      obtain ⟨hi, hr⟩ := ih h.tail hs'
      exact ⟨.cons (h t (.head _)) hi, hr⟩

theorem stripParens_inRange {fuel : Nat} {ts : List Token} (h : InRange ts) :
    InRange (stripParens fuel ts) := by
  induction fuel generalizing ts with
  | zero => exact h
  | succ fuel ih =>
    unfold stripParens
    split
    · rename_i t r
      split
      · split
        · rename_i inner hs
          exact ih (splitClose_inRange h.tail hs).1
        · exact h
      · exact h
    · exact h

theorem setOperator?_inRange {ts rest : List Token} {op : SetOperator} (h : InRange ts)
    (hs : setOperator? ts = some (op, rest)) : InRange rest := by
  intro t ht
  apply h t
  cases ts with
  | nil => cases hs
  | cons u r =>
    simp only [setOperator?] at hs
    split at hs
    · split at hs
      · split at hs
        · cases hs
          exact .tail _ (.tail _ ht)
        · cases hs
          exact .tail _ ht
      · cases hs
        exact .tail _ ht
    · cases hs
      exact .tail _ ht
    · cases hs
      exact .tail _ ht
    · cases hs

theorem gathered_inRange {operator : Option SetOperator} {gathered : List Token} {start stop : Nat}
    (h : InRange gathered) :
    Yields (fun o => InRange o.tokens) (GridQuery.operand operator gathered start stop) := by
  unfold GridQuery.operand
  refine Yields.ite (fun _ => Yields.error _) fun _ => Yields.ok (stripParens_inRange ?_)
  intro t ht
  exact h t (List.mem_reverse.1 ht)

theorem splitOperands_inRange {depth : Nat} {operator : Option SetOperator}
    {gathered ts : List Token} {start stop : Nat} (hg : InRange gathered) (h : InRange ts) :
    Yields (fun os => ∀ o ∈ os, InRange o.tokens)
      (splitOperands depth operator gathered start stop ts) := by
  induction hn : ts.length using Nat.strongRecOn generalizing depth operator gathered ts start stop with
  | ind n ih =>
    cases ts with
    | nil =>
      rw [splitOperands]
      refine (gathered_inRange hg).map ?_
      intro o ho o' ho'
      rw [List.mem_singleton.1 ho']
      exact ho
    | cons t r =>
      rw [splitOperands]
      split
      · rename_i op rest hop
        have hset : setOperator? (t :: r) = some (op, rest) := by
          split at hop
          · exact hop
          · cases hop
        have hlen := length_of_setOperator? hset
        refine (gathered_inRange hg).bind fun o ho => ?_
        refine (ih _ (hn ▸ hlen) inRange_nil (setOperator?_inRange h hset) rfl).bind
          fun os hos => ?_
        exact Yields.ok fun o' ho' => (List.mem_cons.1 ho').elim (· ▸ ho) (hos o')
      · refine ih r.length ?_ (.cons (h t (.head _)) hg) h.tail rfl
        rw [← hn]
        exact Nat.lt_succ_self _

theorem operands_inRange {ts : List Token} (h : InRange ts) :
    Yields (fun os => ∀ o ∈ os, InRange o.tokens) (operands ts) := by
  unfold operands
  exact Yields.bind (P := fun _ => True) (fun _ _ => trivial)
    fun _ _ => splitOperands_inRange inRange_nil h

theorem cutClauses_inRange {depth skip : Nat} {ts : List Token} (h : InRange ts) :
    InRange (cutClauses depth skip ts).1 ∧ ∀ s ∈ (cutClauses depth skip ts).2, InRange s.tokens := by
  induction ts generalizing depth skip with
  | nil => exact ⟨inRange_nil, fun _ h => nomatch h⟩
  | cons t r ih =>
    unfold cutClauses
    split
    · exact ih h.tail
    · split
      · rename_i kind width _
        obtain ⟨ht, hs⟩ := @ih depth (width - 1) h.tail
        exact ⟨inRange_nil, List.forall_mem_cons.2 ⟨ht, hs⟩⟩
      · obtain ⟨ht, hs⟩ := @ih (depthAfter depth t) 0 h.tail
        exact ⟨.cons (h t (.head _)) ht, hs⟩

/-- The clauses of an operand begin with its select list. -/
theorem clauses_inRange {ts : List Token} (h : InRange ts) :
    Yields (fun ss => (∀ s ∈ ss, InRange s.tokens) ∧ ss.head?.map Segment.kind = some .select)
      (clauses ts) := by
  unfold clauses
  refine Yields.bind (P := fun _ => True) (fun _ _ => trivial) fun _ _ => ?_
  refine Yields.ite (fun _ => Yields.error _) fun hsel => ?_
  refine Yields.bind (P := fun _ => True) (fun _ _ => trivial) fun _ _ => ?_
  refine Yields.ite (fun _ => Yields.ok ⟨(cutClauses_inRange h).2, ?_⟩) fun _ => Yields.error _
  simp only [Bool.or_eq_true, bne_iff_ne, ne_eq, not_or, Decidable.not_not] at hsel
  exact hsel.2

/-! ### What the readers make -/

def FormedJoin (j : JoinClause) : Prop :=
  j.source.Formed ∧ j.condition.Formed

theorem formedJoins_singleton : ∀ {j : JoinClause}, FormedJoin j → FormedJoins [j]
  | ⟨_, _, _⟩, h => ⟨h.1, h.2, trivial⟩

structure FormedDraft (d : Draft) : Prop where
  items : FormedItems d.items
  source : ∀ s ∈ d.source, s.Formed
  joins : FormedJoins d.joins
  filter : FormedCondition d.filter
  groupBy : FormedExprs d.groupBy
  having : FormedCondition d.having
  orderBy : FormedOrder d.orderBy
  limit : ∀ n ∈ d.limit, n < Number.twoPow 63
  pivot : FormedElse d.pivot

/-- The whole of an expression that an operator of `power` may stand behind. -/
def ReadsExpr (power : Nat) (r : Reading Expr) : Prop :=
  r.1.Formed ∧ power ≤ r.1.level ∧ NextBelow power r.2 ∧ InRange r.2

def ReadsOperand : Reading Expr → Prop :=
  Reads fun e => e.Formed ∧ signPower ≤ e.level

theorem applySign_formed {s : Sign} {e : Expr} (h : e.Formed) (hlevel : signPower ≤ e.level) :
    (applySign s e).Formed ∧ signPower ≤ (applySign s e).level := by
  unfold applySign
  split
  · exact ⟨rfl, Nat.le_succ _⟩
  · rename_i hnot
    refine ⟨⟨h, hlevel, ?_⟩, Nat.le_refl _⟩
    rintro rfl
    cases e with
    | literal c =>
      cases c with
      | number x => exact absurd rfl (hnot x rfl)
      | _ => rfl
    | _ => rfl

theorem atom?_formed {l : Lexeme} {e : Expr} (hl : LexemeInRange l) (h : atom? l = some e) :
    e.Formed ∧ signPower ≤ e.level := by
  unfold atom? at h
  split at h
  all_goals first
    | cases h; exact ⟨rfl, Nat.le_succ _⟩
    | cases h; exact ⟨trivial, Nat.le_succ _⟩
    | cases h; exact ⟨hl, Nat.le_succ _⟩
    | cases h

theorem qualified_formed (p : Place) (table : String) {ts : List Token} (h : InRange ts) :
    Yields ReadsOperand (qualified p table ts) := by
  unfold qualified
  split
  · split
    · exact Yields.ok ⟨⟨trivial, Nat.le_succ _⟩, h.tail⟩
    · exact Yields.ok ⟨⟨trivial, Nat.le_succ _⟩, h.tail⟩
    · exact Yields.ok ⟨⟨trivial, Nat.le_succ _⟩, h.tail⟩
    · exact unexpected_yields _ _ _
  · exact unexpected_yields _ _ _

theorem statement_of_draft {d : Draft} (hd : FormedDraft d) (hne : d.items ≠ []) :
    Yields (fun s => s.Formed ∧ s.operations = []) d.statement := by
  unfold Draft.statement
  split
  · rename_i source hs
    exact Yields.ok ⟨⟨hne, hd.items, hd.source _ hs, hd.joins, hd.filter, hd.groupBy, hd.having,
      hd.orderBy, hd.limit, hd.pivot, trivial⟩, rfl⟩
  · exact Yields.error _

theorem formedDraft_empty : FormedDraft {} :=
  ⟨trivial, (by simp), trivial, trivial, trivial, trivial, trivial, (by simp), trivial⟩

theorem formedJoins_append {js ks : List JoinClause} :
    FormedJoins (js ++ ks) ↔ FormedJoins js ∧ FormedJoins ks := by
  induction js with
  | nil => simp [FormedJoins]
  | cons j js hjs =>
    obtain ⟨kind, source, c⟩ := j
    simp [FormedJoins, hjs, and_assoc]

/-- Every reader makes a formed tree from tokens in range, within a budget of `n`. -/
structure ReadersForm (n : Nat) : Prop where
  condition : ∀ p ts, InRange ts → Yields (Reads Condition.Formed) (condition p n ts)
  conjunction : ∀ p ts, InRange ts → Yields (Reads Condition.Formed) (conjunction p n ts)
  moreTerms : ∀ p op first ts, first.Formed → InRange ts →
    Yields (Reads Condition.Formed) (moreTerms p n op first ts)
  negation : ∀ p ts, InRange ts → Yields (Reads Condition.Formed) (negation p n ts)
  predicate : ∀ p ts, InRange ts → Yields (Reads Condition.Formed) (predicate p n ts)
  comparisonFrom : ∀ p ts, InRange ts → Yields (Reads Condition.Formed) (comparisonFrom p n ts)
  members : ∀ p ts, InRange ts → Yields (Reads Expr.FormedMembers) (members p n ts)
  exprs : ∀ p ts, InRange ts → Yields (Reads FormedExprs) (exprs p n ts)
  expr : ∀ p power ts, power ≤ signPower → InRange ts → Yields (ReadsExpr power) (expr p n power ts)
  moreOperands : ∀ p power first ts, first.Formed → power ≤ first.level →
    NextBelow (first.level + 1) ts → InRange ts →
    Yields (ReadsExpr power) (moreOperands p n power first ts)
  operand : ∀ p ts, InRange ts → Yields ReadsOperand (operand p n ts)
  call : ∀ p function ts, Text.asciiUpper function = function → InRange ts →
    Yields ReadsOperand (call p n function ts)
  caseExpr : ∀ p ts, InRange ts → Yields ReadsOperand (caseExpr p n ts)
  whenBranches : ∀ p subject ts, FormedElse subject → InRange ts →
    Yields (Reads FormedBranches) (whenBranches p n subject ts)
  nested : ∀ p ts, InRange ts → Yields (Reads Statement.Formed) (nested p n ts)
  statement : ∀ p ts, InRange ts → Yields Statement.Formed (statement p n ts)
  single : ∀ p ts, InRange ts → Yields (fun s => s.Formed ∧ s.operations = []) (single p n ts)
  clause : ∀ p d s, FormedDraft d → InRange s.tokens →
    Yields (fun d' => FormedDraft d' ∧ (d.items ≠ [] ∨ s.kind = .select → d'.items ≠ []))
      (clause p n d s)
  selectItems : ∀ p ts, InRange ts →
    Yields (Reads fun is => is ≠ [] ∧ FormedItems is) (selectItems p n ts)
  source : ∀ p ts, InRange ts → Yields (Reads Source.Formed) (source p n ts)
  join : ∀ p kind ts, InRange ts → Yields (Reads FormedJoin) (join p n kind ts)
  orderItems : ∀ p ts, InRange ts → Yields (Reads FormedOrder) (orderItems p n ts)

namespace ReadersForm

variable {n : Nat} (ih : ReadersForm n)

include ih

theorem whole (p : Place) {ts : List Token} (h : InRange ts) :
    Yields (Reads Expr.Formed) (Parser.expr p n 0 ts) :=
  (ih.expr p 0 ts (Nat.zero_le _) h).imp fun _ hr => ⟨hr.1, hr.2.2.2⟩

theorem condition_succ (p : Place) {ts : List Token} (h : InRange ts) :
    Yields (Reads Condition.Formed) (Parser.condition p (n + 1) ts) := by
  rw [Parser.condition]
  refine (ih.conjunction p ts h).bind ?_
  rintro ⟨first, ts⟩ ⟨hf, hts⟩
  exact ih.moreTerms p .or first ts hf hts

theorem conjunction_succ (p : Place) {ts : List Token} (h : InRange ts) :
    Yields (Reads Condition.Formed) (Parser.conjunction p (n + 1) ts) := by
  rw [Parser.conjunction]
  refine (ih.negation p ts h).bind ?_
  rintro ⟨first, ts⟩ ⟨hf, hts⟩
  exact ih.moreTerms p .and first ts hf hts

theorem moreTerms_succ (p : Place) (op : Connective) {first : Condition} {ts : List Token}
    (hf : first.Formed) (h : InRange ts) :
    Yields (Reads Condition.Formed) (Parser.moreTerms p (n + 1) op first ts) := by
  cases op with
  | or =>
    rw [Parser.moreTerms]
    refine Yields.ite (fun _ => ?_) fun _ => Yields.ok ⟨hf, h⟩
    refine (ih.conjunction p _ (h.drop 1)).bind ?_
    rintro ⟨second, ts⟩ ⟨hs, hts⟩
    exact ih.moreTerms p .or _ ts (hf.combine hs) hts
  | and =>
    rw [Parser.moreTerms]
    refine Yields.ite (fun _ => ?_) fun _ => Yields.ok ⟨hf, h⟩
    refine (ih.negation p _ (h.drop 1)).bind ?_
    rintro ⟨second, ts⟩ ⟨hs, hts⟩
    exact ih.moreTerms p .and _ ts (hf.combine hs) hts

theorem negation_succ (p : Place) {ts : List Token} (h : InRange ts) :
    Yields (Reads Condition.Formed) (Parser.negation p (n + 1) ts) := by
  rw [Parser.negation]
  refine Yields.ite (fun _ => Yields.ite (fun _ => ?_) fun _ => ?_) fun _ => ih.predicate p ts h
  · refine (ih.nested p _ (h.drop 2)).bind ?_
    rintro ⟨q, ts⟩ ⟨hq, hts⟩
    exact Yields.ok ⟨hq, hts⟩
  · refine (ih.negation p _ (h.drop 1)).bind ?_
    rintro ⟨c, ts⟩ ⟨hc, hts⟩
    exact Yields.ok ⟨hc, hts⟩

theorem predicate_succ (p : Place) {ts : List Token} (h : InRange ts) :
    Yields (Reads Condition.Formed) (Parser.predicate p (n + 1) ts) := by
  rw [Parser.predicate]
  refine Yields.ite (fun _ => ?_) fun _ => Yields.ite (fun _ => ?_) fun _ => ih.comparisonFrom p ts h
  · refine (ih.nested p _ (h.drop 1)).bind ?_
    rintro ⟨q, ts⟩ ⟨hq, hts⟩
    exact Yields.ok ⟨hq, hts⟩
  · split
    · rename_i c rest hc
      obtain ⟨hform, hrest⟩ := ih.condition p _ (h.drop 1) _ hc
      exact Yields.ite (fun _ => Yields.ok ⟨hform, hrest.drop 1⟩) fun _ => ih.comparisonFrom p ts h
    · exact ih.comparisonFrom p ts h

theorem comparisonFrom_succ (p : Place) {ts : List Token} (h : InRange ts) :
    Yields (Reads Condition.Formed) (Parser.comparisonFrom p (n + 1) ts) := by
  rw [Parser.comparisonFrom]
  refine (ih.whole p h).bind ?_
  rintro ⟨left, ts⟩ ⟨hl, hts⟩
  have hts' : InRange (if atKeyword .not_ ts then ts.drop 1 else ts) := by
    split
    · exact hts.drop 1
    · exact hts
  dsimp only
  refine Yields.ite (fun _ => ?_) fun _ => ?_
  · refine (ih.whole p (hts'.drop 1)).bind ?_
    rintro ⟨low, ts⟩ ⟨hlow, hts⟩
    refine (expect_inRange hts).bind fun ts hts => ?_
    refine (ih.whole p hts).bind ?_
    rintro ⟨high, ts⟩ ⟨hhigh, hts⟩
    have hrange : ((Condition.compare .gtEq left low).combine .and (.compare .ltEq left high)).Formed :=
      Condition.Formed.combine ⟨hl, hlow⟩ ⟨hl, hhigh⟩
    refine Yields.ok ⟨?_, hts⟩
    dsimp only
    split
    · exact hrange
    · exact hrange
  · refine (comparison_inRange hts').bind ?_
    rintro ⟨op, ts⟩ ⟨-, hts⟩
    dsimp only
    split
    · rename_i hop
      have hop : op.takesMembers = true := by
        rcases hop with rfl | rfl
        all_goals rfl
      refine (ih.members p ts hts).bind ?_
      rintro ⟨right, ts⟩ ⟨hr, hts⟩
      exact Yields.ok ⟨⟨hl, by rw [if_pos hop]; exact hr⟩, hts⟩
    · rename_i hop
      have hop : ¬ op.takesMembers = true := by
        cases op
        all_goals simp_all [Comparison.takesMembers]
      refine (ih.whole p hts).bind ?_
      rintro ⟨right, ts⟩ ⟨hr, hts⟩
      exact Yields.ok ⟨⟨hl, by rw [if_neg hop]; exact hr⟩, hts⟩

/-- Either nothing stands in the brackets or expressions do. -/
theorem exprsOrNone (p : Place) {ts : List Token} (h : InRange ts) :
    Yields (Reads FormedExprs)
      (if atLexeme .rightParen ts then .ok ([], ts) else Parser.exprs p n ts) :=
  Yields.ite (fun _ => Yields.ok ⟨trivial, h⟩) fun _ => ih.exprs p ts h

theorem members_succ (p : Place) {ts : List Token} (h : InRange ts) :
    Yields (Reads Expr.FormedMembers) (Parser.members p (n + 1) ts) := by
  rw [Parser.members]
  refine Yields.ite (fun _ => ?_) fun _ => ?_
  · refine (ih.nested p ts h).bind ?_
    rintro ⟨q, ts⟩ ⟨hq, hts⟩
    exact Yields.ok ⟨hq, hts⟩
  · refine (expect_inRange h).bind fun ts hts => ?_
    dsimp only
    rw [ite_bind]
    refine (ih.exprsOrNone p hts).bind ?_
    rintro ⟨items, ts⟩ ⟨hi, hts⟩
    refine (expect_inRange hts).bind fun ts hts => ?_
    exact Yields.ok ⟨hi, hts⟩

theorem exprs_succ (p : Place) {ts : List Token} (h : InRange ts) :
    Yields (Reads FormedExprs) (Parser.exprs p (n + 1) ts) := by
  rw [Parser.exprs]
  refine (ih.whole p h).bind ?_
  rintro ⟨first, ts⟩ ⟨hf, hts⟩
  refine Yields.ite (fun _ => ?_) fun _ => Yields.ok ⟨⟨hf, trivial⟩, hts⟩
  refine (ih.exprs p _ (hts.drop 1)).bind ?_
  rintro ⟨others, ts⟩ ⟨ho, hts⟩
  exact Yields.ok ⟨⟨hf, ho⟩, hts⟩

theorem expr_succ (p : Place) {power : Nat} {ts : List Token} (hp : power ≤ signPower)
    (h : InRange ts) : Yields (ReadsExpr power) (Parser.expr p (n + 1) power ts) := by
  rw [Parser.expr]
  refine (ih.operand p ts h).bind ?_
  rintro ⟨first, ts⟩ ⟨⟨hf, hlevel⟩, hts⟩
  exact ih.moreOperands p power first ts hf (Nat.le_trans hp hlevel)
    (nextBelow_of_signPower (Nat.le_succ_of_le hlevel) ts) hts

/-- The invariant of the loop: the operator at the front does not bind more tightly than what stands
before it. -/
theorem moreOperands_succ (p : Place) {power : Nat} {first : Expr} {ts : List Token}
    (hf : first.Formed) (hp : power ≤ first.level) (hnext : NextBelow (first.level + 1) ts)
    (h : InRange ts) : Yields (ReadsExpr power) (Parser.moreOperands p (n + 1) power first ts) := by
  rw [Parser.moreOperands]
  split
  · rename_i hnone
    refine Yields.ok ⟨hf, hp, ?_, h⟩
    intro op left right ho
    rw [hnone] at ho
    cases ho
  · rename_i op left right hop
    obtain ⟨t, ht, hb⟩ := Option.bind_eq_some_iff.1 hop
    obtain ⟨-, rfl, rfl⟩ := binaryOf_eq_some hb
    refine Yields.ite (fun hlt => ?_) fun hge => ?_
    · refine Yields.ok ⟨hf, hp, ?_, h⟩
      intro op' left' right' ho'
      rw [hop] at ho'
      cases ho'
      exact hlt
    · have hle : op.power ≤ first.level := Nat.le_of_lt_succ (hnext _ _ _ hop)
      refine (ih.expr p _ _ (Nat.succ_le_of_lt op.power_lt) (h.drop 1)).bind ?_
      rintro ⟨second, ts⟩ ⟨hs, hlevel, hbelow, hts⟩
      exact ih.moreOperands p power _ ts ⟨hf, hs, hle, hlevel⟩ (Nat.le_of_not_lt hge) hbelow hts

theorem operand_succ (p : Place) {ts : List Token} (h : InRange ts) :
    Yields ReadsOperand (Parser.operand p (n + 1) ts) := by
  cases ts with
  | nil =>
    rw [Parser.operand]
    exact unexpected_yields _ _ _
  | cons t r =>
    rw [Parser.operand]
    split
    · refine (ih.expr p signPower r (Nat.le_refl _) h.tail).bind ?_
      rintro ⟨e, ts⟩ ⟨he, hlevel, -, hts⟩
      exact Yields.ok ⟨applySign_formed he hlevel, hts⟩
    · split
      · rename_i e he
        exact Yields.ok ⟨atom?_formed (h t (.head _)) he, h.tail⟩
      · split
        · exact ih.caseExpr p r h.tail
        · exact Yields.ite (fun _ => ih.call p _ _ (by decide) (h.tail.drop 1))
            fun _ => unexpected_yields _ _ _
        · exact Yields.ite (fun _ => ih.call p _ _ (by decide) (h.tail.drop 1))
            fun _ => unexpected_yields _ _ _
        · refine Yields.ite (fun _ => ih.call p _ _ (asciiUpper_asciiUpper _) (h.tail.drop 1))
            fun _ => Yields.ite (fun _ => qualified_formed p _ (h.tail.drop 1)) fun _ => ?_
          exact Yields.ok ⟨⟨trivial, Nat.le_succ _⟩, h.tail⟩
        · refine Yields.ite (fun _ => ?_) fun _ => ?_
          · refine (ih.nested p _ h).bind ?_
            rintro ⟨q, ts⟩ ⟨hq, hts⟩
            exact Yields.ok ⟨⟨hq, Nat.le_succ _⟩, hts⟩
          · refine (ih.whole p h.tail).bind ?_
            rintro ⟨e, ts⟩ ⟨he, hts⟩
            refine (expect_inRange hts).bind fun ts hts => ?_
            exact Yields.ok ⟨⟨he, Nat.le_succ _⟩, hts⟩
        · exact unexpected_yields _ _ _

theorem call_succ (p : Place) {function : String} {ts : List Token}
    (hup : Text.asciiUpper function = function) (h : InRange ts) :
    Yields ReadsOperand (Parser.call p (n + 1) function ts) := by
  rw [Parser.call]
  refine Yields.ite (fun _ => ?_) fun hif => ?_
  · refine (ih.condition p ts h).bind ?_
    rintro ⟨c, ts⟩ ⟨hc, hts⟩
    refine (expect_inRange hts).bind fun ts hts => ?_
    refine (ih.whole p hts).bind ?_
    rintro ⟨yes, ts⟩ ⟨hyes, hts⟩
    refine (expect_inRange hts).bind fun ts hts => ?_
    refine (ih.whole p hts).bind ?_
    rintro ⟨no, ts⟩ ⟨hno, hts⟩
    refine (expect_inRange hts).bind fun ts hts => ?_
    exact Yields.ok ⟨⟨⟨hc, hyes, hno⟩, Nat.le_succ _⟩, hts⟩
  · dsimp only
    rw [ite_bind]
    refine (ih.exprsOrNone p (distinctMark_inRange h)).bind ?_
    rintro ⟨args, ts⟩ ⟨ha, hts⟩
    refine (expect_inRange hts).bind fun ts hts => ?_
    exact Yields.ok ⟨⟨⟨hup, hif, ha⟩, Nat.le_succ _⟩, hts⟩

/-- An expression behind a word, where the word stands. -/
theorem exprOrNone (p : Place) {ts ts' : List Token} {c : Prop} [Decidable c] (h : InRange ts)
    (h' : InRange ts') :
    Yields (Reads FormedElse)
      (if c then (Parser.expr p n 0 ts').map fun r => (some r.1, r.2) else .ok (none, ts)) :=
  Yields.ite (fun _ => (ih.whole p h').map fun _ hr => ⟨hr.1, hr.2⟩) fun _ => Yields.ok ⟨trivial, h⟩

theorem caseExpr_succ (p : Place) {ts : List Token} (h : InRange ts) :
    Yields ReadsOperand (Parser.caseExpr p (n + 1) ts) := by
  rw [Parser.caseExpr]
  dsimp only
  rw [ite_bind, ← ite_not]
  refine (ih.exprOrNone p h h).bind ?_
  rintro ⟨subject, ts⟩ ⟨hs, hts⟩
  refine (ih.whenBranches p subject ts hs hts).bind ?_
  rintro ⟨branches, ts⟩ ⟨hb, hts⟩
  refine Yields.ite (fun _ => unexpected_yields _ _ _) fun hne => ?_
  dsimp only
  rw [ite_bind]
  refine (ih.exprOrNone p hts (hts.drop 1)).bind ?_
  rintro ⟨otherwise, ts⟩ ⟨ho, hts⟩
  refine (expect_inRange hts).bind fun ts hts => ?_
  exact Yields.ok ⟨⟨⟨fun h => hne (by rw [h]; rfl), hb, ho⟩, Nat.le_succ _⟩, hts⟩

/-- A branch begins with a condition, or with an operand that the subject is compared with. -/
theorem whenCondition (p : Place) {subject : Option Expr} {ts : List Token} (hs : FormedElse subject)
    (h : InRange ts) :
    Yields (Reads Condition.Formed) (match subject with
      | some e => (Parser.expr p n 0 (ts.drop 1)).map fun r => (.compare .eq e r.1, r.2)
      | none => Parser.condition p n (ts.drop 1)) := by
  cases subject with
  | none => exact ih.condition p _ (h.drop 1)
  | some e => exact (ih.whole p (h.drop 1)).map fun r hr => ⟨⟨hs, hr.1⟩, hr.2⟩

theorem whenRest (p : Place) {subject : Option Expr} (hs : FormedElse subject) :
    ∀ r, Reads Condition.Formed r → Yields (Reads FormedBranches) (do
      let ts ← expectKeyword p .then_ r.2
      let (value, ts) ← Parser.expr p n 0 ts
      let (others, ts) ← Parser.whenBranches p n subject ts
      .ok ((r.1, value) :: others, ts)) := by
  rintro ⟨c, ts⟩ ⟨hc, hts⟩
  refine (expect_inRange hts).bind fun ts hts => ?_
  refine (ih.whole p hts).bind ?_
  rintro ⟨value, ts⟩ ⟨hv, hts⟩
  refine (ih.whenBranches p subject ts hs hts).bind ?_
  rintro ⟨others, ts⟩ ⟨ho, hts⟩
  exact Yields.ok ⟨⟨hc, hv, ho⟩, hts⟩

theorem whenBranches_succ (p : Place) {subject : Option Expr} {ts : List Token}
    (hs : FormedElse subject) (h : InRange ts) :
    Yields (Reads FormedBranches) (Parser.whenBranches p (n + 1) subject ts) := by
  rw [Parser.whenBranches]
  refine Yields.ite (fun _ => ?_) fun _ => Yields.ok ⟨trivial, h⟩
  have hbranch := (ih.whenCondition p hs h).bind (ih.whenRest p hs)
  cases subject with
  | none => exact hbranch
  | some e => exact hbranch

theorem nested_succ (p : Place) {ts : List Token} (h : InRange ts) :
    Yields (Reads Statement.Formed) (Parser.nested p (n + 1) ts) := by
  cases ts with
  | nil =>
    rw [Parser.nested]
    exact unexpected_yields _ _ _
  | cons t r =>
    rw [Parser.nested]
    refine Yields.ite (fun _ => ?_) fun _ => unexpected_yields _ _ _
    split
    · rename_i inner rest hs
      obtain ⟨hi, hr⟩ := splitClose_inRange h.tail hs
      exact (ih.statement p inner hi).bind fun s hs => Yields.ok ⟨hs, hr⟩
    · exact Yields.error _

theorem operations_formed (p : Place) {os : List Operand} (h : ∀ o ∈ os, InRange o.tokens) :
    Yields FormedOperations (os.mapM fun o =>
      (Parser.single p n o.tokens).map fun t => SetOperation.mk (o.operator.getD .union) t) := by
  induction os with
  | nil => exact Yields.ok trivial
  | cons o os hos =>
    rw [List.mapM_cons]
    obtain ⟨ho, h⟩ := List.forall_mem_cons.1 h
    refine Yields.bind (P := fun op => op.statement.Formed ∧ op.statement.operations = [])
      ((ih.single p _ ho).map fun s hs => hs) ?_
    rintro ⟨op, s⟩ ⟨hs, hnone⟩
    exact (hos h).bind fun ops hops => Yields.ok ⟨hs, hnone, hops⟩

theorem statement_succ (p : Place) {ts : List Token} (h : InRange ts) :
    Yields Statement.Formed (Parser.statement p (n + 1) ts) := by
  rw [Parser.statement]
  refine (operands_inRange h).bind fun os hos => ?_
  split
  · exact Yields.error _
  · rename_i first others
    obtain ⟨hf, hos⟩ := List.forall_mem_cons.1 hos
    refine (ih.single p _ hf).bind fun s hs => ?_
    refine (ih.operations_formed p hos).bind fun ops hops => ?_
    obtain ⟨distinct, items, source, joins, filter, groupBy, having, orderBy, limit, pivot, _⟩ := s
    obtain ⟨⟨h1, h2, h3, h4, h5, h6, h7, h8, h9, h10, -⟩, -⟩ := hs
    exact Yields.ok ⟨h1, h2, h3, h4, h5, h6, h7, h8, h9, h10, hops⟩

theorem clauses_formed (p : Place) {ss : List Segment} {d : Draft} (hd : FormedDraft d)
    (h : ∀ s ∈ ss, InRange s.tokens) (hne : d.items ≠ [] ∨ ss.head?.map Segment.kind = some .select) :
    Yields (fun d' => FormedDraft d' ∧ d'.items ≠ [])
      (ss.foldlM (fun d s => Parser.clause p n d s) d) := by
  induction ss generalizing d with
  | nil => exact Yields.ok ⟨hd, hne.resolve_right (by simp)⟩
  | cons s ss hss =>
    rw [List.foldlM_cons]
    obtain ⟨hs, h⟩ := List.forall_mem_cons.1 h
    refine (ih.clause p d s hd hs).bind fun d' hd' => ?_
    exact hss hd'.1 h (.inl (hd'.2 (hne.imp id (by simp))))

theorem single_succ (p : Place) {ts : List Token} (h : InRange ts) :
    Yields (fun s => s.Formed ∧ s.operations = []) (Parser.single p (n + 1) ts) := by
  rw [Parser.single]
  refine (clauses_inRange h).bind fun ss hss => ?_
  refine (ih.clauses_formed p formedDraft_empty hss.1 (.inr hss.2)).bind fun d hd => ?_
  exact statement_of_draft hd.1 hd.2

theorem clause_succ (p : Place) {d : Draft} {s : Segment} (hd : FormedDraft d)
    (h : InRange s.tokens) :
    Yields (fun d' => FormedDraft d' ∧ (d.items ≠ [] ∨ s.kind = .select → d'.items ≠ []))
      (Parser.clause p (n + 1) d s) := by
  have finish : ∀ {q : Place} {x : Except QueryError (Reading Draft)},
      Yields (fun r => FormedDraft r.1 ∧ (d.items ≠ [] ∨ s.kind = .select → r.1.items ≠ [])) x →
      Yields (fun d' => FormedDraft d' ∧ (d.items ≠ [] ∨ s.kind = .select → d'.items ≠ []))
        (x >>= fun r => do expectEnd q r.2; .ok r.1) := by
    intro q x hx
    refine hx.bind fun r hr => ?_
    exact Yields.bind (P := fun _ => True) (fun _ _ => trivial) fun _ _ => Yields.ok hr
  -- A clause other than the select list leaves the items as they are.
  have keeps : ∀ {k : ClauseKind}, s.kind = k → k ≠ .select →
      (d.items ≠ [] ∨ s.kind = .select → d.items ≠ []) :=
    fun hk hne h => h.resolve_right fun hs => hne (hk.symm.trans hs)
  rw [Parser.clause]
  split
  · exact finish ((ih.selectItems _ _ (distinctMark_inRange h)).map fun r hr =>
      ⟨{ hd with items := hr.1.2 }, fun _ => hr.1.1⟩)
  · rename_i hk
    refine finish ((ih.source _ _ h).map fun r hr => ⟨{ hd with source := ?_ }, keeps hk (by simp)⟩)
    rintro _ ⟨⟩
    exact hr.1
  · rename_i hk
    exact finish ((ih.join _ _ _ h).map fun r hr =>
      ⟨{ hd with joins := formedJoins_append.2 ⟨hd.joins, formedJoins_singleton hr.1⟩ }, keeps hk (by simp)⟩)
  · rename_i hk
    exact finish ((ih.condition _ _ h).map fun r hr =>
      ⟨{ hd with filter := hr.1 }, keeps hk (by simp)⟩)
  · rename_i hk
    exact finish ((ih.exprs _ _ h).map fun r hr =>
      ⟨{ hd with groupBy := hr.1 }, keeps hk (by simp)⟩)
  · rename_i hk
    exact finish ((ih.condition _ _ h).map fun r hr =>
      ⟨{ hd with having := hr.1 }, keeps hk (by simp)⟩)
  · rename_i hk
    exact finish ((ih.orderItems _ _ h).map fun r hr =>
      ⟨{ hd with orderBy := hr.1 }, keeps hk (by simp)⟩)
  · rename_i hk
    refine finish ((rowCount_inRange h).map fun r hr => ⟨{ hd with limit := ?_ }, keeps hk (by simp)⟩)
    rintro _ ⟨⟩
    exact hr.1
  · rename_i hk
    exact finish ((ih.whole _ h).map fun r hr =>
      ⟨{ hd with pivot := hr.1 }, keeps hk (by simp)⟩)

theorem selectItems_succ (p : Place) {ts : List Token} (h : InRange ts) :
    Yields (Reads fun is => is ≠ [] ∧ FormedItems is) (Parser.selectItems p (n + 1) ts) := by
  rw [Parser.selectItems]
  refine (ih.whole p h).bind ?_
  rintro ⟨e, ts⟩ ⟨he, hts⟩
  refine (optionalAlias_inRange hts).bind ?_
  rintro ⟨alias?, ts⟩ ⟨-, hts⟩
  refine Yields.ite (fun _ => ?_) fun _ => Yields.ok ⟨⟨List.cons_ne_nil _ _, he, trivial⟩, hts⟩
  refine (ih.selectItems p _ (hts.drop 1)).bind ?_
  rintro ⟨others, ts⟩ ⟨⟨-, ho⟩, hts⟩
  exact Yields.ok ⟨⟨List.cons_ne_nil _ _, he, ho⟩, hts⟩

theorem source_succ (p : Place) {ts : List Token} (h : InRange ts) :
    Yields (Reads Source.Formed) (Parser.source p (n + 1) ts) := by
  rw [Parser.source]
  refine Yields.ite (fun _ => ?_) fun _ => ?_
  · refine (ih.nested p ts h).bind ?_
    rintro ⟨q, ts⟩ ⟨hq, hts⟩
    refine (optionalAlias_inRange hts).bind ?_
    rintro ⟨alias?, ts⟩ ⟨-, hts⟩
    exact Yields.ok ⟨hq, hts⟩
  · refine (name_inRange h).bind ?_
    rintro ⟨table, ts⟩ ⟨-, hts⟩
    refine (optionalAlias_inRange hts).bind ?_
    rintro ⟨alias?, ts⟩ ⟨-, hts⟩
    exact Yields.ok ⟨trivial, hts⟩

theorem join_succ (p : Place) (kind : JoinKind) {ts : List Token} (h : InRange ts) :
    Yields (Reads FormedJoin) (Parser.join p (n + 1) kind ts) := by
  rw [Parser.join]
  refine (ih.source p ts h).bind ?_
  rintro ⟨s, ts⟩ ⟨hs, hts⟩
  refine (expect_inRange hts).bind fun ts hts => ?_
  refine (ih.condition p ts hts).bind ?_
  rintro ⟨c, ts⟩ ⟨hc, hts⟩
  exact Yields.ok ⟨⟨hs, hc⟩, hts⟩

theorem orderItems_succ (p : Place) {ts : List Token} (h : InRange ts) :
    Yields (Reads FormedOrder) (Parser.orderItems p (n + 1) ts) := by
  rw [Parser.orderItems]
  refine (ih.whole p h).bind ?_
  rintro ⟨e, ts⟩ ⟨he, hts⟩
  have hts := direction_inRange hts
  refine Yields.ite (fun _ => ?_) fun _ => Yields.ok ⟨⟨he, trivial⟩, hts⟩
  refine (ih.orderItems p _ (hts.drop 1)).bind ?_
  rintro ⟨others, ts⟩ ⟨ho, hts⟩
  exact Yields.ok ⟨⟨he, ho⟩, hts⟩

end ReadersForm

theorem readersForm : ∀ n, ReadersForm n
  | 0 => by
    constructor
    all_goals
      intros
      exact Yields.error _
  | n + 1 =>
    have ih := readersForm n
    { condition := fun p _ h => ih.condition_succ p h
      conjunction := fun p _ h => ih.conjunction_succ p h
      moreTerms := fun p op _ _ hf h => ih.moreTerms_succ p op hf h
      negation := fun p _ h => ih.negation_succ p h
      predicate := fun p _ h => ih.predicate_succ p h
      comparisonFrom := fun p _ h => ih.comparisonFrom_succ p h
      members := fun p _ h => ih.members_succ p h
      exprs := fun p _ h => ih.exprs_succ p h
      expr := fun p _ _ hp h => ih.expr_succ p hp h
      moreOperands := fun p _ _ _ hf hp hnext h => ih.moreOperands_succ p hf hp hnext h
      operand := fun p _ h => ih.operand_succ p h
      call := fun p _ _ hup h => ih.call_succ p hup h
      caseExpr := fun p _ h => ih.caseExpr_succ p h
      whenBranches := fun p _ _ hs h => ih.whenBranches_succ p hs h
      nested := fun p _ h => ih.nested_succ p h
      statement := fun p _ h => ih.statement_succ p h
      single := fun p _ h => ih.single_succ p h
      clause := fun p _ _ hd h => ih.clause_succ p hd h
      selectItems := fun p _ h => ih.selectItems_succ p h
      source := fun p _ h => ih.source_succ p h
      join := fun p kind _ h => ih.join_succ p kind h
      orderItems := fun p _ h => ih.orderItems_succ p h }

/-! ### Statements from text -/

/-- A lexeme with a number in range, if any, that does not mark the end of the text. -/
def CutLexeme (l : Lexeme) : Prop :=
  LexemeInRange l ∧ l ≠ .eof

theorem integerLexeme_cut (ds : List Char) : CutLexeme (Lexer.integerLexeme ds) := by
  unfold Lexer.integerLexeme
  dsimp only
  split
  · rename_i h
    exact ⟨⟨Int.natCast_nonneg _, Int.ofNat_lt.2 h⟩, nofun⟩
  · exact ⟨trivial, nofun⟩

theorem floatLexeme_cut (cs : List Char) : CutLexeme (Lexer.floatLexeme cs) := by
  unfold Lexer.floatLexeme
  split <;> exact ⟨trivial, nofun⟩

theorem placeholderLexeme_cut (ds : List Char) : CutLexeme (Lexer.placeholderLexeme ds) := by
  unfold Lexer.placeholderLexeme
  dsimp only
  split
  · exact ⟨trivial, nofun⟩
  · split
    · exact ⟨trivial, nofun⟩
    · split
      · exact ⟨trivial, nofun⟩
      · exact ⟨⟨Nat.pos_of_ne_zero ‹_›, Nat.lt_of_not_le ‹_›⟩, nofun⟩

theorem wordLexeme_cut (cs : List Char) : CutLexeme (Lexer.wordLexeme cs) := by
  unfold Lexer.wordLexeme
  split <;> exact ⟨trivial, nofun⟩

theorem quotedLexeme_cut (quote : Char) {l : String → Lexeme} (hl : ∀ s, CutLexeme (l s))
    (cs : List Char) : CutLexeme (Lexer.quotedLexeme quote l cs).1 := by
  unfold Lexer.quotedLexeme
  split
  · exact hl _
  · exact ⟨trivial, nofun⟩

theorem paired_cut {second : List (Char × Lexeme)} {alone : Lexeme} (halone : CutLexeme alone)
    (hsecond : ∀ p ∈ second, CutLexeme p.2) (r : List Char) :
    CutLexeme (Lexer.paired second alone r).1 := by
  unfold Lexer.paired
  split
  · split
    · rename_i l hl
      obtain ⟨l₁, l₂, hmem, -⟩ := List.lookup_eq_some_iff.1 hl
      exact hsecond _ (hmem ▸ List.mem_append_right _ (.head _))
    · exact halone
  · exact halone

theorem numberLexeme_cut (c : Char) (r : List Char) : CutLexeme (Lexer.numberLexeme c r).1 := by
  unfold Lexer.numberLexeme
  dsimp only
  split
  · exact integerLexeme_cut _
  · exact floatLexeme_cut _

theorem lexeme_cut (c : Char) (r : List Char) : CutLexeme (Lexer.lexeme c r).1 := by
  have hstring : ∀ s, CutLexeme (.string s) := fun _ => ⟨trivial, nofun⟩
  have hidentifier : ∀ s, CutLexeme (.identifier s) := fun _ => ⟨trivial, nofun⟩
  unfold Lexer.lexeme
  split
  -- the signs that are lexemes alone
  iterate 10 exact ⟨trivial, nofun⟩
  · exact placeholderLexeme_cut _
  · split
    · exact ⟨trivial, nofun⟩
    · exact floatLexeme_cut _
  -- the operators of one character or two
  iterate 4
    refine paired_cut ?_ (by simp [CutLexeme, LexemeInRange]) r
    exact ⟨trivial, nofun⟩
  · exact quotedLexeme_cut _ hstring r
  · exact quotedLexeme_cut _ hstring r
  · exact quotedLexeme_cut _ hidentifier r
  · split
    · exact numberLexeme_cut c r
    · split
      · dsimp only
        exact wordLexeme_cut _
      · exact ⟨trivial, nofun⟩

theorem tokens_inRange (size : Nat) (cs : List Char) :
    InRange (Lexer.tokens size cs) ∧ (Lexer.tokens size cs).length ≤ cs.length + 1 := by
  induction hn : cs.length using Nat.strongRecOn generalizing cs with
  | ind n ih =>
    have hs := Lexer.length_skip_le cs
    cases h : Lexer.skip cs with
    | nil =>
      rw [Lexer.tokens_of_skip_nil h]
      exact ⟨.cons trivial inRange_nil, Nat.le_add_left _ _⟩
    | cons c r =>
      have hr := Lexer.length_lexeme_le c r
      rw [h, List.length_cons] at hs
      obtain ⟨hin, hlen⟩ := ih _ (by omega) (Lexer.lexeme c r).2 rfl
      rw [Lexer.tokens_of_skip_cons h, List.length_cons]
      exact ⟨.cons (lexeme_cut c r).1 hin, by omega⟩

theorem numberPlaceholders_inRange {ts : List Token} (h : InRange ts) :
    ∀ {count : Nat}, count + ts.length < Number.twoPow 64 → InRange (numberPlaceholders count ts) := by
  induction ts with
  | nil => exact fun _ => inRange_nil
  | cons t r ih =>
    intro count hcount
    rw [List.length_cons] at hcount
    unfold numberPlaceholders
    split
    · exact .cons ⟨Nat.succ_pos _, by omega⟩ (ih h.tail (by omega))
    · exact .cons (h t (.head _)) (ih h.tail (by omega))

theorem length_le_utf8ByteSize (cs : List Char) : cs.length ≤ (String.ofList cs).utf8ByteSize := by
  rw [Text.byteLength_eq_utf8ByteSize]
  induction cs with
  | nil => exact Nat.zero_le _
  | cons c cs ih =>
    have hc := c.utf8Size_pos
    rw [Text.byteLength, List.length_cons]
    omega

theorem tokensOf_inRange {text : String} (h : text.utf8ByteSize < Number.twoPow 63) :
    Yields InRange (tokensOf text) := by
  unfold tokensOf
  dsimp only
  split
  · exact Yields.error _
  · refine Yields.ite (fun _ => Yields.error _) fun _ => Yields.ok ?_
    obtain ⟨hin, hlen⟩ := tokens_inRange text.utf8ByteSize text.toList
    have hbytes := length_le_utf8ByteSize text.toList
    rw [String.ofList_toList] at hbytes
    have hsub : ((Lexer.tokens text.utf8ByteSize text.toList).reverse.dropWhile
        fun t => t.lexeme == .eof || t.lexeme == .semicolon).reverse.Sublist
        (Lexer.tokens text.utf8ByteSize text.toList) := by
      have := (List.dropWhile_sublist (l := (Lexer.tokens text.utf8ByteSize text.toList).reverse)
        fun t => t.lexeme == .eof || t.lexeme == .semicolon).reverse
      rwa [List.reverse_reverse] at this
    apply numberPlaceholders_inRange
    · exact fun t ht => hin t (hsub.subset ht)
    · have := hsub.length_le
      have h64 : Number.twoPow 63 + 1 < Number.twoPow 64 := by decide
      omega

/-- An expression that is read from a text is formed. -/
theorem parseExpr_formed {text : String} (h : text.utf8ByteSize < Number.twoPow 63) :
    Yields Expr.Formed (parseExpr text) := by
  unfold parseExpr
  refine (tokensOf_inRange h).bind fun ts hts => ((readersForm _).whole _ hts).bind fun r hr => ?_
  exact Yields.bind (P := fun _ => True) (fun _ _ => trivial) fun _ _ => Yields.ok hr.1

/-- A statement that is read from a text is formed. -/
theorem parseStatement_formed {text : String} (h : text.utf8ByteSize < Number.twoPow 63) :
    Yields Statement.Formed (parseStatement text) := by
  unfold parseStatement
  exact (tokensOf_inRange h).bind fun ts hts => (readersForm _).statement _ ts hts

end Parser

end GridQuery
