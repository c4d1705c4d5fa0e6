import GridQuery.Proofs.Mirrors

/-!
Reading a stretch of tokens alone. Every reader that leaves the last `k` tokens alone reads the same
without them, from tokens with other places and another source that has the same text between them, and
within a budget that goes by the number of tokens before the last `k`.
-/

namespace GridQuery
set_option autoImplicit false

open GridQuery.Parser

namespace Parser

/-! ### Texts and budgets -/

/-- Between the places of these tokens both sources have the same text. -/
def SameText (src src' : List Char) (g : Nat → Nat) (A : Token → Prop) : Prop :=
  ∀ t u, A t → A u →
    Text.sliceBytes src t.start u.stop = Text.sliceBytes src' (g t.start) (g u.stop)

/-- A budget for the tokens before the last `k`, of which the property is known. -/
structure Fits (A : Token → Prop) (k c m : Nat) (ts : List Token) : Prop where
  budget : 16 * (ts.length - k) + c ≤ m
  known : ∀ t ∈ ts.rdrop k, A t

namespace Fits

variable {A : Token → Prop} {k c c' m : Nat} {ts us : List Token}

theorem known_suffix (h : ∀ t ∈ ts.rdrop k, A t) (hus : us <:+ ts) : ∀ t ∈ us.rdrop k, A t := by
  by_cases hk : k ≤ us.length
  · obtain ⟨a, rfl⟩ := hus
    rw [List.rdrop_append_of_le_length k hk] at h
    exact fun t ht => h t (List.mem_append_right a ht)
  · rw [rdrop_of_length_le (Nat.le_of_not_le hk)]
    exact fun t ht => nomatch ht

theorem rest (h : Fits A k c m ts) (hc : c' ≤ c) (hus : us <:+ ts) : Fits A k c' m us := by
  have hbudget := h.budget
  have hlength := hus.length_le
  exact ⟨by omega, known_suffix h.known hus⟩

theorem succ (h : Fits A k c m ts) (hc : 0 < c) : ∃ m', m = m' + 1 :=
  have := h.budget
  ⟨m - 1, by omega⟩

/-- The budget of a reader called without a token taken. -/
theorem less (h : Fits A k c (m + 1) ts) (hc : c' + 1 ≤ c) (hus : us <:+ ts) : Fits A k c' m us := by
  have hbudget := h.budget
  have hlength := hus.length_le
  exact ⟨by omega, known_suffix h.known hus⟩

/-- The budget of a reader called behind a token. -/
theorem after (h : Fits A k c (m + 1) ts) (hk : k < ts.length) (hc : c' ≤ c + 15)
    (hus : us <:+ ts.drop 1) : Fits A k c' m us := by
  have hbudget := h.budget
  have hlength := hus.length_le
  rw [List.length_drop] at hlength
  exact ⟨by omega, known_suffix h.known (hus.trans (List.drop_suffix 1 ts))⟩

/-- The budget of a reader of a part, where no tokens stand behind. -/
theorem part (h : Fits A 0 c (m + 1) ts) (hus : us <:+: ts) (hc : c' + 1 ≤ c + 16 * (ts.length - us.length)) :
    Fits A 0 c' m us := by
  have hbudget := h.budget
  have hlength := hus.length_le
  refine ⟨by omega, fun t ht => h.known t ?_⟩
  rw [List.rdrop_zero] at ht ⊢
  exact hus.subset ht

end Fits

theorem Mirrors.succ {α : Type} {A : Token → Prop} {k c : Nat} {g : Nat → Nat} {ts : List Token}
    {x : Except QueryError (Reading α)} {y : Nat → Except QueryError (Reading α)} (hc : 0 < c)
    (h : ∀ m, Mirrors k g ts (Fits A k c (m + 1) ts) x (y (m + 1))) (m : Nat) :
    Mirrors k g ts (Fits A k c m ts) x (y m) := by
  cases m with
  | zero =>
    intro r hr
    refine ⟨(h 0 r hr).1, fun hF => ?_⟩
    have := hF.budget
    omega
  | succ m => exact h m

theorem sourceText_front {src src' : List Char} {g : Nat → Nat} {A : Token → Prop}
    (same : SameText src src' g A) {k i j : Nat} {ts us : List Token} (h : ∀ t ∈ ts.rdrop k, A t)
    (hus : us <:+ ts) (hk : k ≤ us.length) :
    sourceText ⟨src', j⟩ (front k g ts) (front k g us) = sourceText ⟨src, i⟩ ts us := by
  obtain ⟨a, rfl⟩ := hus
  rw [List.rdrop_append_of_le_length k hk] at h
  have htaken : (a ++ us).take ((a ++ us).length - us.length) = a := by
    rw [List.length_append, Nat.add_sub_cancel, List.take_left]
  have hfront : (front k g (a ++ us)).take ((front k g (a ++ us)).length - (front k g us).length) =
      a.map (Token.move g) := by
    rw [front_append hk, List.length_append, Nat.add_sub_cancel, List.take_left]
  unfold sourceText
  rw [htaken, hfront]
  cases a with
  | nil =>
    simp only [List.map_nil, List.getLast?_nil]
    split <;> split <;> simp_all
  | cons t a =>
    obtain ⟨u, hu⟩ : ∃ u, (t :: a).getLast? = some u :=
      ⟨_, List.getLast?_eq_some_getLast (List.cons_ne_nil t a)⟩
    have hmem : u ∈ t :: a := List.mem_of_getLast? hu
    rw [front_append hk, List.map_cons, List.cons_append, List.cons_append, List.head?_cons,
      List.head?_cons, ← List.map_cons, List.getLast?_map, hu]
    simp only [Option.map_some, Token.move]
    rw [same t u (h t (List.mem_append_left _ (.head _))) (h u (List.mem_append_left _ hmem))]

theorem nested_shorter {src : List Char} {i n : Nat} (ts : List Token) :
    Yields (fun r => r.2.length + 2 ≤ ts.length) (nested ⟨src, i⟩ n ts) := by
  cases n with
  | zero => exact Yields.error _
  | succ n =>
    cases ts with
    | nil => exact Yields.error _
    | cons t r =>
      rw [nested]
      refine Yields.ite (fun _ => ?_) fun _ => Yields.error _
      split
      · rename_i inner rest hs
        obtain ⟨u, -, rfl, -⟩ := splitClose_passes hs
        refine Yields.bind (P := fun _ => True) (fun _ _ => trivial) fun s _ => Yields.ok ?_
        simp only [List.length_cons, List.length_append]
        omega
      · exact Yields.error _

/-- Expressions with commas between them, or none, up to the closing bracket. -/
def closing (p : Place) (n : Nat) (build : List Expr → Expr) (ts : List Token) :
    Except QueryError (Reading Expr) :=
  (if atLexeme .rightParen ts then .ok ([], ts) else exprs p n ts) >>= fun r =>
    expect p .rightParen ")" r.2 >>= fun us => .ok (build r.1, us)

theorem closing_closes {src : List Char} {i n : Nat} (build : List Expr → Expr) (ts : List Token) :
    Yields (fun r => Closes ts r.2) (closing ⟨src, i⟩ n build ts) := by
  refine ((readersDraw src ts n).exprsOrNone i List.infix_rfl).bind fun r hr => ?_
  exact (expect_closes r.2).bind fun us hus => Yields.ok (hr.1.closes hus)

/-- A select list behind the expression of its first item. -/
def itemsBehind (p : Place) (n : Nat) (e : Expr) (text : String) (ts : List Token) :
    Except QueryError (Reading (List SelectItem)) := do
  let (alias?, rest) ← optionalAlias p ts
  if atLexeme .comma rest then do
    let (others, rest) ← selectItems p n (rest.drop 1)
    .ok (⟨e, text, alias?⟩ :: others, rest)
  else .ok ([⟨e, text, alias?⟩], rest)

/-! ### The readers -/

/-- Every reader reads the same without the last tokens, within a budget of `n` there. -/
structure ReadersMirror (src src' : List Char) (g : Nat → Nat) (A : Token → Prop) (n : Nat) : Prop where
  condition : ∀ k i j ts m, Mirrors k g ts (Fits A k 10 m ts) (condition ⟨src, i⟩ n ts)
    (condition ⟨src', j⟩ m (front k g ts))
  conjunction : ∀ k i j ts m, Mirrors k g ts (Fits A k 9 m ts) (conjunction ⟨src, i⟩ n ts)
    (conjunction ⟨src', j⟩ m (front k g ts))
  moreTerms : ∀ k i j op first ts m, Mirrors k g ts (Fits A k 1 m ts)
    (moreTerms ⟨src, i⟩ n op first ts) (moreTerms ⟨src', j⟩ m op first (front k g ts))
  negation : ∀ k i j ts m, Mirrors k g ts (Fits A k 8 m ts) (negation ⟨src, i⟩ n ts)
    (negation ⟨src', j⟩ m (front k g ts))
  predicate : ∀ k i j ts m, Mirrors k g ts (Fits A k 7 m ts) (predicate ⟨src, i⟩ n ts)
    (predicate ⟨src', j⟩ m (front k g ts))
  comparisonFrom : ∀ k i j ts m, Mirrors k g ts (Fits A k 6 m ts) (comparisonFrom ⟨src, i⟩ n ts)
    (comparisonFrom ⟨src', j⟩ m (front k g ts))
  members : ∀ k i j ts m, Mirrors k g ts (Fits A k 5 m ts) (members ⟨src, i⟩ n ts)
    (members ⟨src', j⟩ m (front k g ts))
  exprs : ∀ k i j ts m, Mirrors k g ts (Fits A k 4 m ts) (exprs ⟨src, i⟩ n ts)
    (exprs ⟨src', j⟩ m (front k g ts))
  expr : ∀ k i j power ts m, Mirrors k g ts (Fits A k 3 m ts) (expr ⟨src, i⟩ n power ts)
    (expr ⟨src', j⟩ m power (front k g ts))
  moreOperands : ∀ k i j power first ts m, Mirrors k g ts (Fits A k 1 m ts)
    (moreOperands ⟨src, i⟩ n power first ts) (moreOperands ⟨src', j⟩ m power first (front k g ts))
  operand : ∀ k i j ts m, Mirrors k g ts (Fits A k 2 m ts) (operand ⟨src, i⟩ n ts)
    (operand ⟨src', j⟩ m (front k g ts))
  call : ∀ k i j function ts m, Mirrors k g ts (Fits A k 11 m ts) (call ⟨src, i⟩ n function ts)
    (call ⟨src', j⟩ m function (front k g ts))
  caseExpr : ∀ k i j ts m, Mirrors k g ts (Fits A k 4 m ts) (caseExpr ⟨src, i⟩ n ts)
    (caseExpr ⟨src', j⟩ m (front k g ts))
  whenBranches : ∀ k i j subject ts m, Mirrors k g ts (Fits A k 1 m ts)
    (whenBranches ⟨src, i⟩ n subject ts) (whenBranches ⟨src', j⟩ m subject (front k g ts))
  nested : ∀ k i j ts m, Mirrors k g ts (Fits A k 1 m ts) (nested ⟨src, i⟩ n ts)
    (nested ⟨src', j⟩ m (front k g ts))
  statement : ∀ i j ts m, Fits A 0 2 m ts →
    Yields (fun s => statement ⟨src', j⟩ m (ts.map (Token.move g)) = .ok s) (statement ⟨src, i⟩ n ts)
  single : ∀ i j ts m, Fits A 0 1 m ts →
    Yields (fun s => single ⟨src', j⟩ m (ts.map (Token.move g)) = .ok s) (single ⟨src, i⟩ n ts)
  clause : ∀ i j d s m, Fits A 0 12 m s.tokens →
    Yields (fun d' => clause ⟨src', j⟩ m d (s.move g) = .ok d') (clause ⟨src, i⟩ n d s)
  selectItems : ∀ i j ts m, Mirrors 0 g ts (Fits A 0 4 m ts) (selectItems ⟨src, i⟩ n ts)
    (selectItems ⟨src', j⟩ m (front 0 g ts))
  source : ∀ i j ts m, Mirrors 0 g ts (Fits A 0 2 m ts) (source ⟨src, i⟩ n ts)
    (source ⟨src', j⟩ m (front 0 g ts))
  join : ∀ i j kind ts m, Mirrors 0 g ts (Fits A 0 11 m ts) (join ⟨src, i⟩ n kind ts)
    (join ⟨src', j⟩ m kind (front 0 g ts))
  orderItems : ∀ i j ts m, Mirrors 0 g ts (Fits A 0 4 m ts) (orderItems ⟨src, i⟩ n ts)
    (orderItems ⟨src', j⟩ m (front 0 g ts))

namespace ReadersMirror

variable {src src' : List Char} {g : Nat → Nat} {A : Token → Prop} {n : Nat}
  (ih : ReadersMirror src src' g A n) (k i j : Nat) (ts : List Token) (m : Nat)

include ih

theorem condition_succ : Mirrors k g ts (Fits A k 10 (m + 1) ts)
    (Parser.condition ⟨src, i⟩ (n + 1) ts) (Parser.condition ⟨src', j⟩ (m + 1) (front k g ts)) := by
  rw [Parser.condition, Parser.condition]
  refine ((ih.conjunction k i j ts m).imp fun h => h.less (by decide) List.suffix_rfl).bind
    fun first us hus => ?_
  exact (ih.moreTerms k i j .or first us m).imp fun h => h.less (by decide) hus

theorem conjunction_succ : Mirrors k g ts (Fits A k 9 (m + 1) ts)
    (Parser.conjunction ⟨src, i⟩ (n + 1) ts)
    (Parser.conjunction ⟨src', j⟩ (m + 1) (front k g ts)) := by
  rw [Parser.conjunction, Parser.conjunction]
  refine ((ih.negation k i j ts m).imp fun h => h.less (by decide) List.suffix_rfl).bind
    fun first us hus => ?_
  exact (ih.moreTerms k i j .and first us m).imp fun h => h.less (by decide) hus

theorem moreTerms_succ (op : Connective) (first : Condition) :
    Mirrors k g ts (Fits A k 1 (m + 1) ts) (Parser.moreTerms ⟨src, i⟩ (n + 1) op first ts)
      (Parser.moreTerms ⟨src', j⟩ (m + 1) op first (front k g ts)) := by
  cases op with
  | or =>
    simp only [Parser.moreTerms, atKeyword, ← front_drop]
    refine .word ?_ (.ok first ts)
    refine ((ih.conjunction k i j _ m).imp
      fun h => h.1.after h.2 (by decide) List.suffix_rfl).bind fun second us hus => ?_
    exact (ih.moreTerms k i j .or _ us m).imp fun h => h.1.after h.2 (by decide) hus
  | and =>
    simp only [Parser.moreTerms, atKeyword, ← front_drop]
    refine .word ?_ (.ok first ts)
    refine ((ih.negation k i j _ m).imp
      fun h => h.1.after h.2 (by decide) List.suffix_rfl).bind fun second us hus => ?_
    exact (ih.moreTerms k i j .and _ us m).imp fun h => h.1.after h.2 (by decide) hus

theorem negation_succ : Mirrors k g ts (Fits A k 8 (m + 1) ts)
    (Parser.negation ⟨src, i⟩ (n + 1) ts) (Parser.negation ⟨src', j⟩ (m + 1) (front k g ts)) := by
  have htwo : ∀ us : List Token, us.drop 2 = (us.drop 1).drop 1 := fun us => by rw [List.drop_drop]
  simp only [Parser.negation, atKeyword, htwo, ← front_drop]
  refine .word (.word ?_ ?_) ?_
  · refine ((ih.nested k i j _ m).imp
      fun h => h.1.1.after h.1.2 (by decide) (List.drop_suffix 1 _)).bind fun q us _ => ?_
    exact .ok _ us
  · refine ((ih.negation k i j _ m).imp
      fun h => h.1.after h.2 (by decide) List.suffix_rfl).bind fun c us _ => ?_
    exact .ok _ us
  · exact (ih.predicate k i j ts m).imp fun h => h.less (by decide) List.suffix_rfl

/-- An attempt at a condition in brackets that stands does so without the last tokens; where a comparison is
read there is none that does. -/
theorem predicate_succ : Mirrors k g ts (Fits A k 7 (m + 1) ts)
    (Parser.predicate ⟨src, i⟩ (n + 1) ts) (Parser.predicate ⟨src', j⟩ (m + 1) (front k g ts)) := by
  refine .of_takes (((readersDraw src ts (n + 1)).predicate i ts List.infix_rfl).imp fun _ h => h.1)
    fun hk => ?_
  have hexists' : atKeyword .exists_ (front k g ts) = atKeyword .exists_ ts := atLexeme_front hk _
  have hcompare : atKeyword .exists_ ts = false → Mirrors k g ts (Fits A k 7 (m + 1) ts)
      (Parser.comparisonFrom ⟨src, i⟩ n ts)
      (Parser.predicate ⟨src', j⟩ (m + 1) (front k g ts)) := by
    intro hexists r hr
    obtain ⟨hrest, hy⟩ := ih.comparisonFrom k i j ts m r hr
    refine ⟨hrest, fun hF hk' => ?_⟩
    exact predicate_of_comparisonFrom (hy (hF.less (by decide) List.suffix_rfl) hk')
      (hexists'.trans hexists)
  generalize hright : Parser.predicate ⟨src', j⟩ (m + 1) (front k g ts) = right at hcompare
  rw [Parser.predicate]
  cases hexists : atKeyword .exists_ ts with
  | true =>
    rw [← hright, Parser.predicate, hexists', hexists, if_pos rfl, if_pos rfl, ← front_drop]
    refine (((ih.nested k i j _ m).imp
      fun h => h.after hk (by decide) List.suffix_rfl).suffix (List.drop_suffix 1 ts)).bind
        fun q us _ => ?_
    exact .ok _ us
  | false =>
    rw [if_neg Bool.false_ne_true]
    refine .ite_left (fun hopen => ?_) fun _ => hcompare hexists
    split
    · rename_i c rest hc
      refine .ite_left (fun hstands => ?_) fun _ => hcompare hexists
      obtain ⟨hrest, hy⟩ := ih.condition k i j (ts.drop 1) m _ hc
      obtain ⟨hclose, hend⟩ := (Bool.and_eq_true ..).mp hstands
      obtain ⟨u, us, rfl, hu⟩ := exists_of_atLexeme hclose
      rintro _ ⟨⟩
      refine ⟨(List.suffix_cons u us).trans (hrest.trans (List.drop_suffix 1 ts)), fun hF hk' => ?_⟩
      have hk' : k ≤ us.length := hk'
      have hread := hy (hF.after hk (by decide) List.suffix_rfl) (Nat.le_succ_of_le hk')
      have hopen' : (atLexeme .leftParen (front k g ts) && !atSubquery (front k g ts)) = true := by
        rw [Bool.and_eq_true, Bool.not_eq_true'] at hopen ⊢
        refine ⟨(atLexeme_front hk _).trans hopen.1, ?_⟩
        rw [Bool.eq_false_iff] at hopen ⊢
        exact fun h => hopen.2 ((looks_atSubquery k g ts).1 h)
      rw [← hright, Parser.predicate, hexists', hexists, if_neg Bool.false_ne_true, if_pos hopen',
        ← front_drop, hread]
      dsimp only
      rw [front_cons hk' u]
      exact if_pos (Bool.and_eq_true_iff.mpr ⟨by rw [atLexeme, Token.move_lexeme, hu]; rfl,
        atConditionEnd_front hend⟩)
    · exact hcompare hexists

theorem comparisonBehind (left : Expr) (negated : Bool) :
    Mirrors k g ts (Fits A k 6 (m + 1) ts) (Parser.comparisonBehind ⟨src, i⟩ n left negated ts)
      (Parser.comparisonBehind ⟨src', j⟩ m left negated (front k g ts)) := by
  simp only [Parser.comparisonBehind, atKeyword, ← front_drop]
  refine .word ?_ ?_
  · refine ((ih.expr k i j 0 _ m).imp
      fun h => h.1.after h.2 (by decide) List.suffix_rfl).bind fun low us hus => ?_
    refine .expect _ _ fun vs hvs => ?_
    refine ((ih.expr k i j 0 vs m).imp
      fun h => h.1.after h.2 (by decide) (hvs.trans hus)).bind fun high ws _ => ?_
    exact .ok _ ws
  · refine (mirrors_comparison _ _ negated).bind fun op us hus => ?_
    refine .ite (fun _ => ?_) fun _ => ?_
    · exact ((ih.members k i j us m).imp fun h => h.less (by decide) hus).bind fun _ vs _ => .ok _ vs
    · exact ((ih.expr k i j 0 us m).imp fun h => h.less (by decide) hus).bind fun _ vs _ => .ok _ vs

theorem comparisonFrom_succ : Mirrors k g ts (Fits A k 6 (m + 1) ts)
    (Parser.comparisonFrom ⟨src, i⟩ (n + 1) ts)
    (Parser.comparisonFrom ⟨src', j⟩ (m + 1) (front k g ts)) := by
  rw [comparisonFrom_eq, comparisonFrom_eq]
  refine ((ih.expr k i j 0 ts m).imp fun h => h.less (by decide) List.suffix_rfl).bind
    fun left us hus => ?_
  simp only [atKeyword, ← front_drop]
  refine .word ?_ ?_
  · exact (ih.comparisonBehind k i j _ m left true).imp
      fun h => h.1.rest (Nat.le_refl _) ((List.drop_suffix 1 us).trans hus)
  · exact (ih.comparisonBehind k i j us m left false).imp fun h => h.rest (Nat.le_refl _) hus

theorem closing (build : List Expr → Expr) : Mirrors k g ts (Fits A k 5 (m + 1) ts)
    (Parser.closing ⟨src, i⟩ n build ts) (Parser.closing ⟨src', j⟩ m build (front k g ts)) := by
  refine .of_shorter ((closing_closes build ts).imp fun _ h => h.shorter) fun hk => ?_
  unfold Parser.closing
  rw [atLexeme_front hk]
  refine .bind (.ite (fun _ => .ok [] ts) fun _ => ?_) fun items us hus => ?_
  · exact (ih.exprs k i j ts m).imp fun h => h.less (by decide) List.suffix_rfl
  · exact .expect _ _ fun vs _ => .ok _ vs

theorem members_succ : Mirrors k g ts (Fits A k 5 (m + 1) ts)
    (Parser.members ⟨src, i⟩ (n + 1) ts) (Parser.members ⟨src', j⟩ (m + 1) (front k g ts)) := by
  rw [Parser.members, Parser.members]
  refine .look looks_atSubquery (fun _ => ?_) (fun _ => ?_) fun _ => ?_
  · exact (nested_shorter ts).bind fun r hr => Yields.ok hr
  · exact ((ih.nested k i j ts m).imp fun h => h.less (by decide) List.suffix_rfl).bind
      fun q us _ => .ok _ us
  · dsimp only
    simp only [ite_bind]
    exact .expect _ _ fun us hus => (ih.closing k i j us m .list).imp fun h => h.rest (Nat.le_refl _) hus

theorem exprs_succ : Mirrors k g ts (Fits A k 4 (m + 1) ts)
    (Parser.exprs ⟨src, i⟩ (n + 1) ts) (Parser.exprs ⟨src', j⟩ (m + 1) (front k g ts)) := by
  rw [Parser.exprs, Parser.exprs]
  refine ((ih.expr k i j 0 ts m).imp fun h => h.less (by decide) List.suffix_rfl).bind
    fun first us hus => ?_
  simp only [← front_drop]
  refine .word ?_ (.ok _ us)
  refine ((ih.exprs k i j _ m).imp fun h =>
    (h.1.rest (Nat.le_refl _) hus).after h.2 (by decide) List.suffix_rfl).bind fun others vs _ => ?_
  exact .ok _ vs

theorem expr_succ (power : Nat) : Mirrors k g ts (Fits A k 3 (m + 1) ts)
    (Parser.expr ⟨src, i⟩ (n + 1) power ts)
    (Parser.expr ⟨src', j⟩ (m + 1) power (front k g ts)) := by
  rw [Parser.expr, Parser.expr]
  refine ((ih.operand k i j ts m).imp fun h => h.less (by decide) List.suffix_rfl).bind
    fun first us hus => ?_
  exact (ih.moreOperands k i j power first us m).imp fun h => h.less (by decide) hus

/-- The operand behind an operator, and the operators behind it. -/
theorem operandBehind (power : Nat) (first : Expr) (op : BinaryOp) (right : Nat) :
    Mirrors k g (ts.drop 1) (Fits A k 1 (m + 1) ts ∧ k < ts.length)
      (do
        let (second, ts) ← Parser.expr ⟨src, i⟩ n right (ts.drop 1)
        Parser.moreOperands ⟨src, i⟩ n power (.binary op first second) ts)
      (do
        let (second, ts) ← Parser.expr ⟨src', j⟩ m right (front k g (ts.drop 1))
        Parser.moreOperands ⟨src', j⟩ m power (.binary op first second) ts) := by
  refine ((ih.expr k i j right _ m).imp
    fun h => h.1.after h.2 (by decide) List.suffix_rfl).bind fun second us hus => ?_
  exact (ih.moreOperands k i j power _ us m).imp fun h => h.1.after h.2 (by decide) hus

theorem moreOperands_succ (power : Nat) (first : Expr) :
    Mirrors k g ts (Fits A k 1 (m + 1) ts) (Parser.moreOperands ⟨src, i⟩ (n + 1) power first ts)
      (Parser.moreOperands ⟨src', j⟩ (m + 1) power first (front k g ts)) := by
  have hmore := ih.operandBehind k i j ts m power first
  rw [Parser.moreOperands, Parser.moreOperands]
  by_cases hk : k < ts.length
  · have hop : ((front k g ts).head?.bind fun t => binaryOf t.lexeme) =
        ts.head?.bind fun t => binaryOf t.lexeme := by
      obtain ⟨t, r, rfl, -, hfront⟩ := exists_front g hk
      rw [hfront]
      rfl
    rw [hop, ← front_drop]
    split
    · exact .ok first ts
    · refine .ite (fun _ => .ok first ts) fun _ => ?_
      exact (hmore _ _).passed (fun h => by simp [h] at hk) fun _ => rfl
  · have hok := Mirrors.ok (k := k) (g := g) (F := Fits A k 1 (m + 1) ts) first ts
    rw [front_of_length_le (Nat.le_of_not_lt hk)] at hok ⊢
    split
    · exact hok
    · rename_i hop
      refine .ite_left (fun _ => hok) fun _ => ?_
      refine (hmore _ _).passed (fun h => ?_) fun h => absurd h hk
      rw [h] at hop
      cases hop

theorem bracketed {t : Token} {r : List Token} (hk : k ≤ r.length) :
    Mirrors k g (t :: r) (Fits A k 2 (m + 1) (t :: r))
      (if atSubquery (t :: r) = true then do
        let (q, ts) ← Parser.nested ⟨src, i⟩ n (t :: r)
        .ok (Expr.subquery q, ts)
      else do
        let (e, ts) ← Parser.expr ⟨src, i⟩ n 0 r
        let ts ← expect ⟨src, i⟩ .rightParen ")" ts
        .ok (Expr.paren e, ts))
      (if atSubquery (t.move g :: front k g r) = true then do
        let (q, ts) ← Parser.nested ⟨src', j⟩ m (t.move g :: front k g r)
        .ok (Expr.subquery q, ts)
      else do
        let (e, ts) ← Parser.expr ⟨src', j⟩ m 0 (front k g r)
        let ts ← expect ⟨src', j⟩ .rightParen ")" ts
        .ok (Expr.paren e, ts)) := by
  rw [← front_cons hk]
  refine .look looks_atSubquery (fun _ => ?_) (fun _ => ?_) fun _ => ?_
  · exact (nested_shorter _).bind fun r hr => Yields.ok hr
  · exact ((ih.nested k i j _ m).imp fun h => h.less (by decide) List.suffix_rfl).bind
      fun q us _ => .ok _ us
  · refine (((ih.expr k i j 0 r m).imp
      fun h => h.after (Nat.lt_succ_of_le hk) (by decide) List.suffix_rfl).bind
        fun e us _ => ?_).suffix (List.suffix_cons t r)
    exact .expect _ _ fun vs _ => .ok _ vs

theorem called (function : String) {t : Token} {r : List Token} (hk : k ≤ r.length)
    {x' y' : Except QueryError (Reading Expr)}
    (hno : Mirrors k g (t :: r) (Fits A k 2 (m + 1) (t :: r)) x' y') :
    Mirrors k g (t :: r) (Fits A k 2 (m + 1) (t :: r))
      (if atLexeme .leftParen r = true then Parser.call ⟨src, i⟩ n function (r.drop 1) else x')
      (if atLexeme .leftParen (front k g r) = true
        then Parser.call ⟨src', j⟩ m function (front k g (r.drop 1)) else y') := by
  obtain ⟨hmore, hless⟩ := looks_atLexeme .leftParen k g r
  refine .ite_left (fun hopen => ?_) fun hopen => ?_
  · obtain ⟨u, us, rfl, -⟩ := exists_of_atLexeme hopen
    refine ((((ih.call k i j function us m).imp fun h => ?_).passed (List.cons_ne_nil u us)
      fun h => if_pos (hless hopen h)).suffix (List.suffix_cons t _))
    exact h.1.after (Nat.lt_succ_of_le hk) (by decide) (List.suffix_cons u us)
  · rw [if_neg fun h => hopen (hmore h)]
    exact hno

theorem operand_succ : Mirrors k g ts (Fits A k 2 (m + 1) ts)
    (Parser.operand ⟨src, i⟩ (n + 1) ts) (Parser.operand ⟨src', j⟩ (m + 1) (front k g ts)) := by
  refine .of_takes (((readersDraw src ts (n + 1)).operand i ts List.infix_rfl).imp fun _ h => h.1)
    fun hk => ?_
  obtain ⟨t, r, rfl, hr, hfront⟩ := exists_front g hk
  have htail := List.suffix_cons t r
  rw [hfront, Parser.operand, Parser.operand, Token.move_lexeme]
  split
  · refine (((ih.expr k i j signPower r m).imp
      fun h => h.after hk (by decide) List.suffix_rfl).bind fun e us _ => ?_).suffix htail
    exact .ok _ us
  · split
    · exact (Mirrors.ok _ r).suffix htail
    · rw [← front_drop]
      split
      · exact ((ih.caseExpr k i j r m).imp
          fun h => h.after hk (by decide) List.suffix_rfl).suffix htail
      · exact ih.called k i j m _ hr (.error _)
      · exact ih.called k i j m _ hr (.error _)
      · refine ih.called k i j m _ hr (.suffix ?_ htail)
        exact .word (mirrors_qualified _ _ _) (.ok _ r)
      · exact ih.bracketed k i j m hr
      · exact .error _

theorem call_succ (function : String) : Mirrors k g ts (Fits A k 11 (m + 1) ts)
    (Parser.call ⟨src, i⟩ (n + 1) function ts)
    (Parser.call ⟨src', j⟩ (m + 1) function (front k g ts)) := by
  refine .of_shorter (((readersDraw src ts (n + 1)).call i function ts List.infix_rfl).imp
    fun _ h => h.1.shorter) fun hk => ?_
  rw [Parser.call, Parser.call]
  refine .ite (fun _ => ?_) fun _ => ?_
  · refine ((ih.condition k i j ts m).imp fun h => h.less (by decide) List.suffix_rfl).bind
      fun c us hus => ?_
    refine .expect _ _ fun vs hvs => ?_
    have hvs := hvs.trans hus
    refine ((ih.expr k i j 0 vs m).imp fun h => h.less (by decide) hvs).bind fun yes ws hws => ?_
    refine .expect _ _ fun xs hxs => ?_
    refine ((ih.expr k i j 0 xs m).imp
      fun h => h.less (by decide) (hxs.trans (hws.trans hvs))).bind fun no ys _ => ?_
    exact .expect _ _ fun zs _ => .ok _ zs
  · have hmark := (distinctMark_passes ts).suffix
    rw [distinctMark_front hk]
    dsimp only
    simp only [ite_bind]
    exact ((ih.closing k i j _ m (.call function (distinctMark ts).1)).imp
      fun h => h.rest (by decide) hmark).suffix hmark

theorem caseExpr_succ : Mirrors k g ts (Fits A k 4 (m + 1) ts)
    (Parser.caseExpr ⟨src, i⟩ (n + 1) ts)
    (Parser.caseExpr ⟨src', j⟩ (m + 1) (front k g ts)) := by
  refine .of_takes (((readersDraw src ts (n + 1)).caseExpr i ts List.infix_rfl).imp fun _ h => h.1)
    fun hk => ?_
  have hwhen : atKeyword .when (front k g ts) = atKeyword .when ts := atLexeme_front hk _
  rw [Parser.caseExpr, Parser.caseExpr, hwhen]
  dsimp only
  rw [ite_bind, ite_bind]
  refine .bind (.ite (fun _ => .ok none ts) fun _ => ?_) fun subject us hus => ?_
  · exact ((ih.expr k i j 0 ts m).imp fun h => h.less (by decide) List.suffix_rfl).map
      (fun _ _ => rfl) fun _ _ _ => rfl
  refine ((ih.whenBranches k i j subject us m).imp fun h => h.less (by decide) hus).bind
    fun branches vs hvs => ?_
  have hvs := hvs.trans hus
  refine .ite (fun _ => .error _) fun _ => ?_
  dsimp only
  rw [ite_bind, ite_bind, ← front_drop]
  refine .bind (.word ?_ (.ok none vs)) fun otherwise ws _ => .expect _ _ fun xs _ => .ok _ xs
  exact ((ih.expr k i j 0 _ m).imp
    fun h => h.1.less (by decide) ((List.drop_suffix 1 vs).trans hvs)).map
      (fun _ _ => rfl) fun _ _ _ => rfl

theorem whenRest (subject : Option Expr) (c : Condition) {us : List Token} (hus : us <:+ ts.drop 1) :
    Mirrors k g us (Fits A k 1 (m + 1) ts ∧ k < ts.length) (do
      let ts ← expectKeyword ⟨src, i⟩ .then_ us
      let (value, ts) ← Parser.expr ⟨src, i⟩ n 0 ts
      let (others, ts) ← Parser.whenBranches ⟨src, i⟩ n subject ts
      .ok ((c, value) :: others, ts)) (do
      let ts ← expectKeyword ⟨src', j⟩ .then_ (front k g us)
      let (value, ts) ← Parser.expr ⟨src', j⟩ m 0 ts
      let (others, ts) ← Parser.whenBranches ⟨src', j⟩ m subject ts
      .ok ((c, value) :: others, ts)) := by
  refine .expect _ _ fun vs hvs => ?_
  have hvs := hvs.trans hus
  refine ((ih.expr k i j 0 vs m).imp fun h => h.1.after h.2 (by decide) hvs).bind
    fun value ws hws => ?_
  refine ((ih.whenBranches k i j subject ws m).imp
    fun h => h.1.after h.2 (by decide) (hws.trans hvs)).bind fun others xs _ => ?_
  exact .ok _ xs

theorem whenBranches_succ (subject : Option Expr) : Mirrors k g ts (Fits A k 1 (m + 1) ts)
    (Parser.whenBranches ⟨src, i⟩ (n + 1) subject ts)
    (Parser.whenBranches ⟨src', j⟩ (m + 1) subject (front k g ts)) := by
  rw [Parser.whenBranches, Parser.whenBranches]
  simp only [← front_drop]
  refine .word ?_ (.ok [] ts)
  cases subject with
  | none =>
    refine ((ih.condition k i j _ m).imp
      fun h => h.1.after h.2 (by decide) List.suffix_rfl).bind fun c us hus => ?_
    exact ih.whenRest k i j ts m none c hus
  | some e =>
    refine (((ih.expr k i j 0 _ m).imp fun h => h.1.after h.2 (by decide) List.suffix_rfl).map
      (fun _ _ => rfl) fun _ _ _ => rfl).bind fun c us hus => ?_
    exact ih.whenRest k i j ts m (some e) c hus

theorem nested_succ : Mirrors k g ts (Fits A k 1 (m + 1) ts)
    (Parser.nested ⟨src, i⟩ (n + 1) ts) (Parser.nested ⟨src', j⟩ (m + 1) (front k g ts)) := by
  refine .of_takes (((readersDraw src ts (n + 1)).nested i ts List.infix_rfl).imp fun _ h => h.1)
    fun hk => ?_
  obtain ⟨t, r, rfl, -, hfront⟩ := exists_front g hk
  rw [hfront, Parser.nested, Parser.nested, Token.move_lexeme]
  refine .ite (fun _ => ?_) fun _ => .error _
  cases hs : splitClose 0 r with
  | none => exact .error _
  | some parts =>
    obtain ⟨inner, rest⟩ := parts
    obtain ⟨u, hu, rfl, hpass⟩ := splitClose_passes hs
    intro x hx
    obtain ⟨q, hq, hok⟩ := bind_eq_ok.mp hx
    cases hok
    refine ⟨⟨t :: (inner ++ [u]), by simp⟩, fun hF hrest => ?_⟩
    have hrest : k ≤ rest.length := hrest
    have hbehind : k ≤ (u :: rest).length := Nat.le_succ_of_le hrest
    have hclosed : Closed inner := fun d behind => by rw [← hpass, Nat.zero_add]
    have hsplit : splitClose 0 (front k g (inner ++ u :: rest)) =
        some (inner.map (Token.move g), front k g rest) := by
      rw [front, List.rdrop_append_of_le_length k hbehind, rdrop_cons hrest,
        splitClose_move, hclosed.splitClose hu]
      rfl
    have hfits : Fits A 0 2 m inner := by
      have hbudget := hF.budget
      simp only [List.length_cons, List.length_append] at hbudget
      refine ⟨by omega, fun v hv => hF.known v ?_⟩
      rw [List.rdrop_zero] at hv
      rw [← List.cons_append, List.rdrop_append_of_le_length k hbehind]
      exact List.mem_append_left _ (.tail _ hv)
    have hread := ih.statement i j inner m hfits q hq
    rw [hsplit]
    dsimp only
    rw [hread]
    rfl

theorem operations_succ {os : List Operand} (h : ∀ o ∈ os, Fits A 0 1 m o.tokens) :
    Yields (fun ops => (os.map (Operand.move g)).mapM (fun o =>
        (Parser.single ⟨src', j⟩ m o.tokens).map fun t => SetOperation.mk (o.operator.getD .union) t) =
          .ok ops)
      (os.mapM fun o =>
        (Parser.single ⟨src, i⟩ n o.tokens).map fun t => SetOperation.mk (o.operator.getD .union) t) := by
  induction os with
  | nil => exact Yields.ok rfl
  | cons o os hos =>
    obtain ⟨ho, h⟩ := List.forall_mem_cons.1 h
    rw [List.map_cons, List.mapM_cons, List.mapM_cons]
    refine Yields.bind (P := fun op => (Parser.single ⟨src', j⟩ m (o.move g).tokens).map
        (fun t => SetOperation.mk (o.operator.getD .union) t) = .ok op)
      ((ih.single i j o.tokens m ho).map fun s hs => congrArg (Except.map _) hs) fun op hop => ?_
    refine (hos h).bind fun ops hops => Yields.ok ?_
    dsimp only [Operand.move] at hop ⊢
    rw [hop, hops]
    rfl

theorem statement_succ (h : Fits A 0 2 (m + 1) ts) :
    Yields (fun s => Parser.statement ⟨src', j⟩ (m + 1) (ts.map (Token.move g)) = .ok s)
      (Parser.statement ⟨src, i⟩ (n + 1) ts) := by
  have hpart : ∀ {us : List Token}, us <:+: ts → Fits A 0 1 m us := fun hus => h.part hus (by omega)
  rw [Parser.statement, Parser.statement]
  intro s hs
  obtain ⟨os, hos, hs⟩ := bind_eq_ok.mp hs
  have hcut := operands_move g ts
  rw [hos] at hcut
  rw [hcut.to_ok]
  have hparts := operands_part ts os hos
  cases os with
  | nil => cases hs
  | cons first others =>
    obtain ⟨hf, ho⟩ := List.forall_mem_cons.1 hparts
    obtain ⟨s', hs', hs⟩ := bind_eq_ok.mp hs
    obtain ⟨ops, hops, hok⟩ := bind_eq_ok.mp hs
    have hfirst := ih.single i j first.tokens m (hpart hf) s' hs'
    have hothers := ih.operations_succ i j m (fun o hmem => hpart (ho o hmem)) ops hops
    rw [← hok]
    simp only [List.map_cons, Operand.move, ok_bind]
    rw [hfirst]
    simp only [ok_bind]
    rw [hothers]
    rfl

theorem clauses_succ {ss : List Segment} (h : ∀ s ∈ ss, Fits A 0 12 m s.tokens) (d : Draft) :
    Yields (fun d' => (ss.map (Segment.move g)).foldlM (fun d s => Parser.clause ⟨src', j⟩ m d s) d =
        .ok d')
      (ss.foldlM (fun d s => Parser.clause ⟨src, i⟩ n d s) d) := by
  induction ss generalizing d with
  | nil => exact Yields.ok rfl
  | cons s ss hss =>
    obtain ⟨hs, h⟩ := List.forall_mem_cons.1 h
    rw [List.map_cons, List.foldlM_cons, List.foldlM_cons]
    refine (ih.clause i j d s m hs).bind fun d' hd' => ?_
    rw [hd', ok_bind]
    exact hss h d'

theorem single_succ (h : Fits A 0 1 (m + 1) ts) :
    Yields (fun s => Parser.single ⟨src', j⟩ (m + 1) (ts.map (Token.move g)) = .ok s)
      (Parser.single ⟨src, i⟩ (n + 1) ts) := by
  rw [Parser.single, Parser.single]
  intro s hs
  obtain ⟨ss, hss, hs⟩ := bind_eq_ok.mp hs
  obtain ⟨d, hd, hs⟩ := bind_eq_ok.mp hs
  have hcut := clauses_move g ts
  rw [hss] at hcut
  have hfits : ∀ s ∈ ss, Fits A 0 12 m s.tokens := by
    intro s hmem
    have hpart := clauses_part ts ss hss s hmem
    have hne : ts ≠ [] := by
      rintro rfl
      cases hss
    have hlength := hpart.length_le
    have hpos := List.length_pos_iff.2 hne
    rw [List.length_drop] at hlength
    exact h.part (hpart.trans (List.drop_suffix 1 ts).isInfix) (by omega)
  rw [hcut.to_ok, ok_bind, ih.clauses_succ i j m hfits {} d hd, ok_bind]
  exact hs

theorem clause_succ (d : Draft) (s : Segment) (h : Fits A 0 12 (m + 1) s.tokens) :
    Yields (fun d' => Parser.clause ⟨src', j⟩ (m + 1) d (s.move g) = .ok d')
      (Parser.clause ⟨src, i⟩ (n + 1) d s) := by
  have finish : ∀ {p q : Place} {ts : List Token} {F : Prop} {x y : Except QueryError (Reading Draft)},
      F → Mirrors 0 g ts F x y →
      Yields (fun d' => (y >>= fun r => do expectEnd q r.2; .ok r.1) = .ok d')
        (x >>= fun r => do expectEnd p r.2; .ok r.1) := by
    intro p q ts F x y hF hx d' hd'
    obtain ⟨⟨v, rest⟩, hr, hd'⟩ := bind_eq_ok.mp hd'
    obtain ⟨_, hend, hok⟩ := bind_eq_ok.mp hd'
    cases hok
    cases rest with
    | cons t r => cases hend
    | nil =>
      rw [(hx _ hr).2 hF (Nat.zero_le _)]
      rfl
  obtain ⟨kind, start, stop, ts⟩ := s
  have hless : ∀ c, c + 1 ≤ 12 → Fits A 0 c m ts := fun c hc => h.less hc List.suffix_rfl
  rw [Segment.move, ← front_zero ts, Parser.clause, Parser.clause]
  cases kind with
  | select =>
    have hmark : distinctMark (front 0 g ts) = ((distinctMark ts).1, front 0 g (distinctMark ts).2) := by
      rw [front_zero, distinctMark_move, front_zero]
    dsimp only
    rw [hmark]
    exact finish (h.less (by decide) (distinctMark_passes ts).suffix)
      ((ih.selectItems _ _ _ m).map (fun _ _ => rfl) fun _ _ _ => rfl)
  | source =>
    exact finish (hless 2 (by decide)) ((ih.source _ _ ts m).map (fun _ _ => rfl) fun _ _ _ => rfl)
  | join kind =>
    exact finish (hless 11 (by decide)) ((ih.join _ _ kind ts m).map (fun _ _ => rfl) fun _ _ _ => rfl)
  | filter =>
    exact finish (hless 10 (by decide)) ((ih.condition 0 _ _ ts m).map (fun _ _ => rfl) fun _ _ _ => rfl)
  | groupBy =>
    exact finish (hless 4 (by decide)) ((ih.exprs 0 _ _ ts m).map (fun _ _ => rfl) fun _ _ _ => rfl)
  | having =>
    exact finish (hless 10 (by decide)) ((ih.condition 0 _ _ ts m).map (fun _ _ => rfl) fun _ _ _ => rfl)
  | orderBy =>
    exact finish (hless 4 (by decide)) ((ih.orderItems _ _ ts m).map (fun _ _ => rfl) fun _ _ _ => rfl)
  | limit =>
    exact finish trivial ((mirrors_rowCount _ _ ts).map (fun _ _ => rfl) fun _ _ _ => rfl)
  | pivot =>
    exact finish (hless 3 (by decide)) ((ih.expr 0 _ _ 0 ts m).map (fun _ _ => rfl) fun _ _ _ => rfl)

theorem itemsBehind (e : Expr) (text : String) : Mirrors 0 g ts (Fits A 0 4 (m + 1) ts)
    (Parser.itemsBehind ⟨src, i⟩ n e text ts)
    (Parser.itemsBehind ⟨src', j⟩ m e text (front 0 g ts)) := by
  refine (mirrors_optionalAlias _ _).bind fun alias? us hus => ?_
  simp only [← front_drop]
  refine .word ?_ (.ok _ us)
  refine ((ih.selectItems i j _ m).imp
    fun h => (h.1.rest (Nat.le_refl _) hus).after h.2 (by decide) List.suffix_rfl).bind
      fun others vs _ => ?_
  exact .ok _ vs

theorem selectItems_succ (same : SameText src src' g A) : Mirrors 0 g ts (Fits A 0 4 (m + 1) ts)
    (Parser.selectItems ⟨src, i⟩ (n + 1) ts)
    (Parser.selectItems ⟨src', j⟩ (m + 1) (front 0 g ts)) := by
  rw [Parser.selectItems, Parser.selectItems]
  refine ((ih.expr 0 i j 0 ts m).imp fun h => h.less (by decide) List.suffix_rfl).bind
    fun e us hus => ?_
  refine ((ih.itemsBehind i j us m e (sourceText ⟨src, i⟩ ts us)).imp
    fun h => h.rest (Nat.le_refl _) hus).congr fun hF => ?_
  dsimp only
  rw [sourceText_front same hF.known hus (Nat.zero_le _)]
  rfl

theorem source_succ : Mirrors 0 g ts (Fits A 0 2 (m + 1) ts)
    (Parser.source ⟨src, i⟩ (n + 1) ts) (Parser.source ⟨src', j⟩ (m + 1) (front 0 g ts)) := by
  have htwo : Yields (fun r => r.2.length + 1 ≤ ts.length) (do
      let (q, ts) ← Parser.nested ⟨src, i⟩ n ts
      let (alias?, ts) ← optionalAlias ⟨src, i⟩ ts
      .ok (Source.query q alias?, ts)) := by
    refine (nested_shorter ts).bind fun r hr => ?_
    refine (optionalAlias_suffix _ r.2).bind fun a ha => Yields.ok ?_
    have := List.IsSuffix.length_le ha
    dsimp only
    omega
  rw [Parser.source, Parser.source]
  refine .look (looks_atLexeme .leftParen) (fun _ => htwo) (fun _ => ?_) fun _ => ?_
  · refine ((ih.nested 0 i j ts m).imp fun h => h.less (by decide) List.suffix_rfl).bind
      fun q us _ => ?_
    exact (mirrors_optionalAlias _ _).bind fun a vs _ => .ok _ vs
  · refine (mirrors_name _ _ _).bind fun table us _ => ?_
    exact (mirrors_optionalAlias _ _).bind fun a vs _ => .ok _ vs

theorem join_succ (kind : JoinKind) : Mirrors 0 g ts (Fits A 0 11 (m + 1) ts)
    (Parser.join ⟨src, i⟩ (n + 1) kind ts)
    (Parser.join ⟨src', j⟩ (m + 1) kind (front 0 g ts)) := by
  rw [Parser.join, Parser.join]
  refine ((ih.source i j ts m).imp fun h => h.less (by decide) List.suffix_rfl).bind
    fun s us hus => ?_
  refine .expect _ _ fun vs hvs => ?_
  refine ((ih.condition 0 i j vs m).imp fun h => h.less (by decide) (hvs.trans hus)).bind
    fun c ws _ => ?_
  exact .ok _ ws

theorem orderItems_succ : Mirrors 0 g ts (Fits A 0 4 (m + 1) ts)
    (Parser.orderItems ⟨src, i⟩ (n + 1) ts)
    (Parser.orderItems ⟨src', j⟩ (m + 1) (front 0 g ts)) := by
  rw [Parser.orderItems, Parser.orderItems]
  refine ((ih.expr 0 i j 0 ts m).imp fun h => h.less (by decide) List.suffix_rfl).bind
    fun e us hus => ?_
  have hdirection : direction (front 0 g us) = ((direction us).1, front 0 g (direction us).2) := by
    rw [front_zero, direction_move, front_zero]
  have hvs := direction_suffix us
  dsimp only
  rw [hdirection]
  simp only [← front_drop]
  refine Mirrors.suffix (.word ?_ (.ok _ _)) hvs
  refine ((ih.orderItems i j _ m).imp fun h => (h.1.rest (Nat.le_refl _) (hvs.trans hus)).after h.2
    (by decide) List.suffix_rfl).bind fun others vs _ => ?_
  exact .ok _ vs

end ReadersMirror

theorem readersMirror {src src' : List Char} {g : Nat → Nat} {A : Token → Prop}
    (same : SameText src src' g A) : ∀ n, ReadersMirror src src' g A n
  | 0 => by
    constructor
    all_goals
      intros
      exact Yields.error _
  | n + 1 =>
    have ih := readersMirror same n
    { condition := fun k i j ts => .succ (by decide) (ih.condition_succ k i j ts)
      conjunction := fun k i j ts => .succ (by decide) (ih.conjunction_succ k i j ts)
      moreTerms := fun k i j op first ts =>
        .succ (by decide) fun m => ih.moreTerms_succ k i j ts m op first
      negation := fun k i j ts => .succ (by decide) (ih.negation_succ k i j ts)
      predicate := fun k i j ts => .succ (by decide) (ih.predicate_succ k i j ts)
      comparisonFrom := fun k i j ts => .succ (by decide) (ih.comparisonFrom_succ k i j ts)
      members := fun k i j ts => .succ (by decide) (ih.members_succ k i j ts)
      exprs := fun k i j ts => .succ (by decide) (ih.exprs_succ k i j ts)
      expr := fun k i j power ts => .succ (by decide) fun m => ih.expr_succ k i j ts m power
      moreOperands := fun k i j power first ts =>
        .succ (by decide) fun m => ih.moreOperands_succ k i j ts m power first
      operand := fun k i j ts => .succ (by decide) (ih.operand_succ k i j ts)
      call := fun k i j function ts => .succ (by decide) fun m => ih.call_succ k i j ts m function
      caseExpr := fun k i j ts => .succ (by decide) (ih.caseExpr_succ k i j ts)
      whenBranches := fun k i j subject ts =>
        .succ (by decide) fun m => ih.whenBranches_succ k i j ts m subject
      nested := fun k i j ts => .succ (by decide) (ih.nested_succ k i j ts)
      statement := fun i j ts m h => by
        obtain ⟨m, rfl⟩ := h.succ (by decide)
        exact ih.statement_succ i j ts m h
      single := fun i j ts m h => by
        obtain ⟨m, rfl⟩ := h.succ (by decide)
        exact ih.single_succ i j ts m h
      clause := fun i j d s m h => by
        obtain ⟨m, rfl⟩ := h.succ (by decide)
        exact ih.clause_succ i j m d s h
      selectItems := fun i j ts => .succ (by decide) fun m => ih.selectItems_succ i j ts m same
      source := fun i j ts => .succ (by decide) (ih.source_succ i j ts)
      join := fun i j kind ts => .succ (by decide) fun m => ih.join_succ i j ts m kind
      orderItems := fun i j ts => .succ (by decide) (ih.orderItems_succ i j ts) }

/-- An expression at the front of its tokens is read from these tokens alone, by the same text between their
places, as the same expression. -/
theorem expr_alone {src src' : List Char} {g : Nat → Nat} {A : Token → Prop}
    (same : SameText src src' g A) {n m i j power : Nat} {a rest : List Token} {e : Expr}
    (ha : ∀ t ∈ a, A t) (hm : 16 * a.length + 3 ≤ m)
    (h : expr ⟨src, i⟩ n power (a ++ rest) = .ok (e, rest)) :
    expr ⟨src', j⟩ m power (a.map (Token.move g)) = .ok (e, []) := by
  have hfront : ∀ us : List Token, front rest.length g (us ++ rest) = us.map (Token.move g) := by
    intro us
    rw [front, List.rdrop_append_length]
  have hfits : Fits A rest.length 3 m (a ++ rest) := by
    refine ⟨by rwa [List.length_append, Nat.add_sub_cancel], fun t ht => ha t ?_⟩
    rwa [List.rdrop_append_length] at ht
  have hread := ((readersMirror same n).expr rest.length i j power (a ++ rest) m _ h).2 hfits
    (Nat.le_refl _)
  rw [hfront] at hread
  rw [hread, show front rest.length g (e, rest).2 = [] from hfront []]

end Parser

end GridQuery
