import GridQuery.Proofs.RereadConditions

/-!
Reading the clauses of a statement from their own lexemes, one at a time and then all of them in order.
Each clause fills its own field of the draft.
-/

namespace GridQuery
set_option autoImplicit false

open GridQuery.Parser

/-! ### Aliases and sources -/

/-- What stands behind an alias, or where none is given: nothing, a comma or `ON`. -/
def EndsAlias (rest : List Token) : Prop :=
  ∀ t ∈ rest.head?, t.lexeme = .comma ∨ t.lexeme = .keyword .on

theorem endsAlias_nil : EndsAlias [] := fun _ h => nomatch h

theorem endsAlias_cons {l : Lexeme} (h : l = .comma ∨ l = .keyword .on) (ts : List Token) :
    EndsAlias (⟨l, 0, 0⟩ :: ts) := by
  rintro _ ⟨⟩
  exact h

theorem EndsAlias.endsExpr {rest : List Token} (h : EndsAlias rest) : EndsExpr rest := by
  intro t ht
  rcases h t ht with hl | hl
  all_goals
    rw [hl]
    rfl

theorem endsExpr_alias (alias? : Option String) {rest : List Token} (h : EndsAlias rest) :
    EndsExpr (bareTokens (aliasLexemes alias?) ++ rest) := by
  cases alias? with
  | none => exact h.endsExpr
  | some a => exact endsExpr_cons rfl _

theorem optionalAlias_reread (p : Place) (alias? : Option String) {rest : List Token}
    (h : EndsAlias rest) :
    optionalAlias p (bareTokens (aliasLexemes alias?) ++ rest) = .ok (alias?, rest) := by
  cases alias? with
  | some a => rfl
  | none =>
    cases rest with
    | nil => rfl
    | cons t r =>
      change optionalAlias p (t :: r) = _
      rw [optionalAlias]
      rcases h t rfl with hl | hl
      all_goals rw [hl]

def Source.Rereads (s : Source) : Prop :=
  ∀ p n rest, 16 * s.lexemes.length ≤ n → EndsAlias rest →
    Parser.source p n (bareTokens s.lexemes ++ rest) = .ok (s.untitled, rest)

theorem Source.rereads_table (name : String) (alias? : Option String) :
    (Source.table name alias?).Rereads := by
  intro p n rest hn hrest
  simp only [Source.lexemes, List.length_cons] at hn
  obtain ⟨n, rfl⟩ : ∃ m, n = m + 1 := ⟨n - 1, by omega⟩
  rw [Source.lexemes, bareTokens_cons, List.cons_append, Parser.source, atLexeme_cons,
    if_neg (by simp)]
  change (optionalAlias p (bareTokens (aliasLexemes alias?) ++ rest) >>= _) = _
  rw [optionalAlias_reread p alias? hrest]
  rfl

theorem Source.rereads_query {q : Statement} (hq : q.Rereads) (h : q.legible = true)
    (alias? : Option String) : (Source.query q alias?).Rereads := by
  intro p n rest hn hrest
  simp only [Source.lexemes, inBrackets, List.length_append, List.length_cons, List.length_nil] at hn
  obtain ⟨n, rfl⟩ : ∃ m, n = m + 1 := ⟨n - 1, by omega⟩
  have hparen : atLexeme .leftParen (bareTokens (inBrackets q.lexemes) ++
      (bareTokens (aliasLexemes alias?) ++ rest)) = true := rfl
  rw [Source.lexemes, bareTokens_append, List.append_assoc, Parser.source, hparen, if_pos rfl,
    hq.nested h p (by omega), ok_bind]
  dsimp only
  rw [optionalAlias_reread p alias? hrest]
  rfl

/-! ### Lists of select items and of order items -/

/-- The expressions of the items are read back. -/
def SoundItems (is : List SelectItem) : Prop :=
  ∀ i ∈ is, i.expr.Sound

theorem sourceText_bareTokens (p : Place) (ls : List Lexeme) (rest : List Token) :
    sourceText p (bareTokens ls) rest = "" := by
  have h : bareTokens ls = (bareTokens ls).map Token.bare := by
    simp [bareTokens, Token.bare]
  rw [h, sourceText_bare]

theorem itemsLexemes_cons (i j : SelectItem) (is : List SelectItem) :
    itemsLexemes (i :: j :: is) =
      i.expr.lexemes ++ (aliasLexemes i.alias? ++ .comma :: itemsLexemes (j :: is)) := by
  obtain ⟨e, t, a⟩ := i
  change _ ++ _ ++ Lexeme.comma :: itemsLexemes (j :: is) = _
  rw [List.append_assoc]

theorem selectItems_reread {is : List SelectItem} (h : SoundItems is) (hne : is ≠ []) (p : Place)
    {n : Nat} (hn : 16 * (itemsLexemes is).length < n) :
    selectItems p n (bareTokens (itemsLexemes is)) = .ok (untitledItems is, []) := by
  induction is generalizing n with
  | nil => exact absurd rfl hne
  | cons i is ih =>
    obtain ⟨hi, his⟩ := List.forall_mem_cons.1 h
    obtain ⟨n, rfl⟩ : ∃ m, n = m + 1 := ⟨n - 1, by omega⟩
    obtain ⟨e, t, alias?⟩ := i
    dsimp only at hi
    cases is with
    | nil =>
      simp only [itemsLexemes, List.length_append] at hn
      have halias : optionalAlias p (bareTokens (aliasLexemes alias?)) = .ok (alias?, []) := by
        have := optionalAlias_reread p alias? endsAlias_nil
        rwa [List.append_nil] at this
      have hends : EndsExpr (bareTokens (aliasLexemes alias?)) := by
        have := endsExpr_alias alias? endsAlias_nil
        rwa [List.append_nil] at this
      rw [selectItems]
      simp only [sourceText_bareTokens]
      rw [itemsLexemes, bareTokens_append,
        hi.rereads.all hi.legible hi.formed p (by omega) hends, ok_bind]
      dsimp only
      rw [halias]
      rfl
    | cons j is =>
      rw [itemsLexemes_cons] at hn
      simp only [List.length_append, List.length_cons] at hn
      rw [selectItems]
      simp only [sourceText_bareTokens]
      rw [itemsLexemes_cons, bareTokens_append, bareTokens_append, bareTokens_cons,
        hi.rereads.all hi.legible hi.formed p (by omega)
          (endsExpr_alias alias? (endsAlias_cons (.inl rfl) _)), ok_bind]
      dsimp only
      rw [optionalAlias_reread p alias? (endsAlias_cons (.inl rfl) _), ok_bind]
      dsimp only
      rw [atLexeme_cons, beq_self_eq_true, if_pos rfl, List.drop_one, List.tail_cons,
        ih his (List.cons_ne_nil _ _) (by omega)]
      rfl

/-- The expressions of the items are read back. -/
def SoundOrder (os : List OrderItem) : Prop :=
  ∀ o ∈ os, o.expr.Sound

theorem direction_reread (d : Direction) (ts : List Token) :
    direction (⟨d.lexeme, 0, 0⟩ :: ts) = (d, ts) := by
  cases d <;> rfl

theorem endsExpr_direction (d : Direction) (ts : List Token) :
    EndsExpr (⟨d.lexeme, 0, 0⟩ :: ts) := by
  cases d <;> exact endsExpr_cons rfl _

theorem orderLexemes_cons (i j : OrderItem) (os : List OrderItem) :
    orderLexemes (i :: j :: os) =
      i.expr.lexemes ++ i.direction.lexeme :: .comma :: orderLexemes (j :: os) := by
  obtain ⟨e, d⟩ := i
  rfl

theorem orderItems_reread {os : List OrderItem} (h : SoundOrder os) (hne : os ≠ []) (p : Place)
    {n : Nat} (hn : 16 * (orderLexemes os).length < n) :
    orderItems p n (bareTokens (orderLexemes os)) = .ok (untitledOrder os, []) := by
  induction os generalizing n with
  | nil => exact absurd rfl hne
  | cons o os ih =>
    obtain ⟨ho, hos⟩ := List.forall_mem_cons.1 h
    obtain ⟨n, rfl⟩ : ∃ m, n = m + 1 := ⟨n - 1, by omega⟩
    obtain ⟨e, d⟩ := o
    dsimp only at ho
    cases os with
    | nil =>
      simp only [orderLexemes, List.length_append] at hn
      rw [orderItems, orderLexemes, bareTokens_append, bareTokens_cons,
        ho.rereads.all ho.legible ho.formed p (by omega) (endsExpr_direction d _), ok_bind]
      dsimp only
      rw [direction_reread]
      rfl
    | cons j os =>
      rw [orderLexemes_cons] at hn
      simp only [List.length_append, List.length_cons] at hn
      rw [orderItems, orderLexemes_cons, bareTokens_append, bareTokens_cons, bareTokens_cons,
        ho.rereads.all ho.legible ho.formed p (by omega) (endsExpr_direction _ _), ok_bind]
      dsimp only
      rw [direction_reread]
      dsimp only
      rw [atLexeme_cons, beq_self_eq_true, if_pos rfl, List.drop_one, List.tail_cons,
        ih hos (List.cons_ne_nil _ _) (by omega)]
      rfl

/-! ### Clauses -/

def ClauseKind.words : ClauseKind → List Lexeme
  | .select => [.keyword .select]
  | .source => [.keyword .from_]
  | .join kind => kind.lexemes
  | .filter => [.keyword .where_]
  | .groupBy => [.keyword .group, .keyword .by_]
  | .having => [.keyword .having]
  | .orderBy => [.keyword .order, .keyword .by_]
  | .limit => [.keyword .limit]
  | .pivot => [.keyword .pivot]

/-- A clause: its kind, what stands behind its words, and what it adds to a draft. -/
structure Part where
  kind : ClauseKind
  lexemes : List Lexeme
  fill : Draft → Draft

namespace Part

def segment (c : Part) : Segment :=
  ⟨c.kind, 0, 0, bareTokens c.lexemes⟩

/-- The clause is read, and all of it, whatever the draft. -/
def Fills (c : Part) : Prop :=
  ∀ p n d, 16 * c.lexemes.length + 8 ≤ n → Parser.clause p n d c.segment = .ok (c.fill d)

end Part

def partsLexemes (ps : List Part) : List Lexeme :=
  ps.flatMap fun c => c.kind.words ++ c.lexemes

/-- The draft with all the parts added. -/
def fillAll (d : Draft) (ps : List Part) : Draft :=
  ps.foldl (fun d c => c.fill d) d

theorem fillAll_append (d : Draft) (ps qs : List Part) :
    fillAll d (ps ++ qs) = fillAll (fillAll d ps) qs :=
  List.foldl_append

theorem clauses_fill {ps : List Part} (h : ∀ c ∈ ps, c.Fills) (p : Place) {n : Nat}
    (hn : ∀ c ∈ ps, 16 * c.lexemes.length + 8 ≤ n) (d : Draft) :
    (ps.map Part.segment).foldlM (fun d s => clause p n d s) d = .ok (fillAll d ps) := by
  induction ps generalizing d with
  | nil => rfl
  | cons c ps ih =>
    obtain ⟨hc, hps⟩ := List.forall_mem_cons.1 h
    obtain ⟨hnc, hnps⟩ := List.forall_mem_cons.1 hn
    rw [List.map_cons, List.foldlM_cons, hc p n d hnc, ok_bind, ih hps hnps]
    rfl

theorem cutClauses_skip (t : Token) (r : List Token) : cutClauses 0 1 (t :: r) = cutClauses 0 0 r := by
  rw [cutClauses]

/-- The words of a clause open it, whatever follows them. -/
theorem cutClauses_words (kind : ClauseKind) (ts : List Token) :
    cutClauses 0 0 (bareTokens kind.words ++ ts) =
      ([], ⟨kind, 0, 0, (cutClauses 0 0 ts).1⟩ :: (cutClauses 0 0 ts).2) := by
  cases kind with
  | join kind =>
    cases kind
    all_goals
      rw [← cutClauses_skip ⟨.keyword .join, 0, 0⟩ ts]
      rfl
  | groupBy | orderBy =>
    rw [← cutClauses_skip ⟨.keyword .by_, 0, 0⟩ ts]
    rfl
  | _ => rfl

theorem cutClauses_parts {ps : List Part} (h : ∀ c ∈ ps, Quiet ClearOfClauses c.lexemes) :
    cutClauses 0 0 (bareTokens (partsLexemes ps)) = ([], ps.map Part.segment) := by
  induction ps with
  | nil => rfl
  | cons c ps ih =>
    obtain ⟨hc, hps⟩ := List.forall_mem_cons.1 h
    have hshape : bareTokens (partsLexemes (c :: ps)) =
        bareTokens c.kind.words ++ (bareTokens c.lexemes ++ bareTokens (partsLexemes ps)) := by
      simp [partsLexemes]
    rw [hshape, cutClauses_words, cutClauses_quiet hc, ih hps, List.append_nil]
    rfl

theorem quiet_words (kind : ClauseKind) : Quiet ClearOfOperators kind.words := by
  have hword : ∀ {k : Keyword} {ls : List Lexeme}, ClearOfOperators (.keyword k) →
      Quiet ClearOfOperators ls → Quiet ClearOfOperators (.keyword k :: ls) :=
    fun hk hls => .plain trivial hk hls
  cases kind with
  | join kind =>
    cases kind
    all_goals exact hword (by simp [ClearOfOperators]) (hword (by simp [ClearOfOperators]) .nil)
  | groupBy | orderBy =>
    exact hword (by simp [ClearOfOperators]) (hword (by simp [ClearOfOperators]) .nil)
  | _ => exact hword (by simp [ClearOfOperators]) .nil

theorem quiet_parts {ps : List Part} (h : ∀ c ∈ ps, Quiet ClearOfClauses c.lexemes) :
    Quiet ClearOfOperators (partsLexemes ps) := by
  induction ps with
  | nil => exact .nil
  | cons c ps ih =>
    obtain ⟨hc, hps⟩ := List.forall_mem_cons.1 h
    rw [partsLexemes, List.flatMap_cons]
    exact ((quiet_words c.kind).append (hc.mono fun _ hl => hl.operators)).append (ih hps)

theorem length_part {ps : List Part} {c : Part} (h : c ∈ ps) :
    c.lexemes.length < (partsLexemes ps).length := by
  have hwords : 0 < c.kind.words.length := by
    cases hk : c.kind with
    | join kind => cases kind <;> exact Nat.succ_pos _
    | _ => exact Nat.succ_pos _
  obtain ⟨before, after, rfl⟩ := List.append_of_mem h
  simp only [partsLexemes, List.flatMap_append, List.flatMap_cons, List.length_append]
  omega

/-- No clause but joins stands twice. -/
theorem checkRepeats_nodup {ss : List Segment} (seen : List ClauseKind)
    (hseen : ∀ k ∈ seen, k.isJoin = false → k ∉ ss.map Segment.kind)
    (h : ((ss.map Segment.kind).filter fun k => !k.isJoin).Nodup) : checkRepeats seen ss = .ok () := by
  induction ss generalizing seen with
  | nil => rfl
  | cons s ss ih =>
    rw [List.map_cons, List.filter_cons] at h
    rw [checkRepeats]
    cases hj : s.kind.isJoin with
    | true =>
      rw [hj] at h
      refine (if_neg Bool.false_ne_true).trans (ih _ ?_ h)
      intro k hk hkj
      rcases List.mem_cons.1 hk with rfl | hk
      · rw [hj] at hkj
        cases hkj
      · exact fun hmem => hseen k hk hkj (.tail _ hmem)
    | false =>
      rw [hj] at h
      obtain ⟨hnot, hnodup⟩ : s.kind ∉ (ss.map Segment.kind).filter (fun k => !k.isJoin) ∧
          ((ss.map Segment.kind).filter fun k => !k.isJoin).Nodup := List.nodup_cons.1 h
      have hfresh : seen.contains s.kind = false := by
        rw [← Bool.not_eq_true, List.contains_iff_mem]
        intro hmem
        exact hseen _ hmem hj (.head _)
      refine (if_neg (by rw [hfresh]; exact Bool.false_ne_true)).trans (ih _ ?_ hnodup)
      intro k hk hkj
      rcases List.mem_cons.1 hk with rfl | hk
      · exact fun hmem => hnot (List.mem_filter.2 ⟨hmem, by rw [hkj]; rfl⟩)
      · exact fun hmem => hseen k hk hkj (.tail _ hmem)

/-! ### The clauses of a statement -/

/-- Every expression, condition and source of the clauses is read back. -/
structure Statement.SoundClauses (s : Statement) : Prop where
  items : SoundItems s.items
  items_ne : s.items ≠ []
  source : s.source.Rereads
  joins : ∀ j ∈ s.joins, j.source.Rereads ∧ j.condition.Rereads
  filter : ∀ c ∈ s.filter, c.Rereads
  groupBy : ∀ e ∈ s.groupBy, e.Sound
  having : ∀ c ∈ s.having, c.Rereads
  orderBy : SoundOrder s.orderBy
  pivot : ∀ e ∈ s.pivot, e.Sound

def selectPart (distinct : Bool) (is : List SelectItem) : Part :=
  ⟨.select, distinctLexemes distinct ++ itemsLexemes is,
    fun d => { d with distinct, items := untitledItems is }⟩

def sourcePart (s : Source) : Part :=
  ⟨.source, s.lexemes, fun d => { d with source := some s.untitled }⟩

def joinPart (j : JoinClause) : Part :=
  ⟨.join j.kind, j.source.lexemes ++ .keyword .on :: j.condition.lexemes,
    fun d => { d with joins := d.joins ++ [⟨j.kind, j.source.untitled, j.condition.untitled⟩] }⟩

def filterPart (c : Condition) : Part :=
  ⟨.filter, c.lexemes, fun d => { d with filter := some c.untitled }⟩

def groupByParts (es : List Expr) : List Part :=
  if es.isEmpty then []
  else [⟨.groupBy, exprsLexemes es, fun d => { d with groupBy := untitledExprs es }⟩]

def havingPart (c : Condition) : Part :=
  ⟨.having, c.lexemes, fun d => { d with having := some c.untitled }⟩

def orderParts (os : List OrderItem) : List Part :=
  if os.isEmpty then []
  else [⟨.orderBy, orderLexemes os, fun d => { d with orderBy := untitledOrder os }⟩]

def limitPart (n : Nat) : Part :=
  ⟨.limit, [.integer n], fun d => { d with limit := some n }⟩

def pivotPart (e : Expr) : Part :=
  ⟨.pivot, e.lexemes, fun d => { d with pivot := some e.untitled }⟩

/-- The clauses of a statement in order, its set operations left out. -/
def Statement.clauseParts (s : Statement) : List Part :=
  selectPart s.distinct s.items :: sourcePart s.source :: (s.joins.map joinPart ++
    (s.filter.toList.map filterPart ++ (groupByParts s.groupBy ++ (s.having.toList.map havingPart ++
      (orderParts s.orderBy ++ (s.limit.toList.map limitPart ++ s.pivot.toList.map pivotPart))))))

theorem partsLexemes_joins (js : List JoinClause) : partsLexemes (js.map joinPart) = joinsLexemes js := by
  induction js with
  | nil => rfl
  | cons j js ih =>
    obtain ⟨kind, source, c⟩ := j
    rw [joinsLexemes, List.map_cons, partsLexemes, List.flatMap_cons, ← partsLexemes, ih]
    simp [joinPart, ClauseKind.words]

theorem Statement.lexemes_eq (s : Statement) :
    s.lexemes = partsLexemes s.clauseParts ++ operationsLexemes s.operations := by
  obtain ⟨distinct, items, source, joins, filter, groupBy, having, orderBy, limit, pivot, operations⟩ := s
  have hfilter : conditionLexemes .where_ filter = partsLexemes (filter.toList.map filterPart) := by
    cases filter with
    | none => rfl
    | some c => exact (List.append_nil _).symm
  have hgroup : clauseLexemes [.keyword .group, .keyword .by_] (exprsLexemes groupBy) groupBy.isEmpty =
      partsLexemes (groupByParts groupBy) := by
    cases groupBy with
    | nil => rfl
    | cons e es => exact (List.append_nil _).symm
  have hhaving : conditionLexemes .having having = partsLexemes (having.toList.map havingPart) := by
    cases having with
    | none => rfl
    | some c => exact (List.append_nil _).symm
  have horder : clauseLexemes [.keyword .order, .keyword .by_] (orderLexemes orderBy) orderBy.isEmpty =
      partsLexemes (orderParts orderBy) := by
    cases orderBy with
    | nil => rfl
    | cons o os => exact (List.append_nil _).symm
  have hlimit : limitLexemes limit = partsLexemes (limit.toList.map limitPart) := by
    cases limit with
    | none => rfl
    | some n => rfl
  have hpivot : pivotLexemes pivot = partsLexemes (pivot.toList.map pivotPart) := by
    cases pivot with
    | none => rfl
    | some e => exact (List.append_nil _).symm
  rw [Statement.lexemes, hfilter, hgroup, hhaving, horder, hlimit, hpivot, ← partsLexemes_joins]
  simp [clauseParts, partsLexemes, selectPart, sourcePart, ClauseKind.words]

/-- A clause is read where its reader takes all of its tokens. -/
theorem clause_of_condition {c : Condition} (hc : c.Rereads) (p : Place) {n : Nat}
    (hn : 16 * c.lexemes.length ≤ n) : condition p n (bareTokens c.lexemes) = .ok (c.untitled, []) := by
  have := hc p n [] hn ⟨rfl, rfl, rfl⟩
  rwa [List.append_nil] at this

theorem selectPart_fills {distinct : Bool} {is : List SelectItem} (h : SoundItems is) (hne : is ≠ []) :
    (selectPart distinct is).Fills := by
  intro p n d hn
  simp only [selectPart, List.length_append] at hn
  obtain ⟨n, rfl⟩ : ∃ m, n = m + 1 := ⟨n - 1, by omega⟩
  have hmark : distinctMark (bareTokens (distinctLexemes distinct ++ itemsLexemes is)) =
      (distinct, bareTokens (itemsLexemes is)) := by
    cases distinct with
    | true => rfl
    | false =>
      cases is with
      | nil => exact absurd rfl hne
      | cons i is =>
        obtain ⟨l, ls, hl, ho⟩ := i.expr.opens (h i (.head _)).legible (h i (.head _)).formed
        have hfront : ∃ ms, itemsLexemes (i :: is) = l :: ms := by
          obtain ⟨e, t, a⟩ := i
          dsimp only at hl
          cases is with
          | nil =>
            rw [itemsLexemes, hl]
            exact ⟨_, rfl⟩
          | cons j is =>
            rw [itemsLexemes_cons, hl]
            exact ⟨_, rfl⟩
        obtain ⟨ms, hms⟩ := hfront
        change distinctMark (bareTokens (itemsLexemes (i :: is))) = _
        rw [hms]
        exact distinctMark_of_opens ho _
  rw [clause]
  dsimp only [selectPart, Part.segment]
  rw [hmark]
  dsimp only
  rw [selectItems_reread h hne _ (by omega)]
  rfl

theorem sourcePart_fills {s : Source} (h : s.Rereads) : (sourcePart s).Fills := by
  intro p n d hn
  simp only [sourcePart] at hn
  obtain ⟨n, rfl⟩ : ∃ m, n = m + 1 := ⟨n - 1, by omega⟩
  have hread := h (p.within (bareTokens s.lexemes) 0) n [] (by omega) endsAlias_nil
  rw [List.append_nil] at hread
  rw [clause]
  dsimp only [sourcePart, Part.segment]
  rw [hread]
  rfl

theorem joinPart_fills {j : JoinClause} (hs : j.source.Rereads) (hc : j.condition.Rereads) :
    (joinPart j).Fills := by
  intro p n d hn
  simp only [joinPart, List.length_append, List.length_cons] at hn
  obtain ⟨n, rfl⟩ : ∃ m, n = m + 2 := ⟨n - 2, by omega⟩
  have hread : ∀ p, join p (n + 1) j.kind (bareTokens (j.source.lexemes ++
      .keyword .on :: j.condition.lexemes)) =
        .ok (⟨j.kind, j.source.untitled, j.condition.untitled⟩, []) := by
    intro p
    rw [bareTokens_append, bareTokens_cons, Parser.join,
      hs p n _ (by omega) (endsAlias_cons (.inr rfl) _), ok_bind]
    dsimp only
    rw [expectKeyword_cons, ok_bind, clause_of_condition hc p (by omega)]
    rfl
  rw [clause]
  dsimp only [joinPart, Part.segment]
  rw [hread]
  rfl

theorem filterPart_fills {c : Condition} (hc : c.Rereads) : (filterPart c).Fills := by
  intro p n d hn
  simp only [filterPart] at hn
  obtain ⟨n, rfl⟩ : ∃ m, n = m + 1 := ⟨n - 1, by omega⟩
  rw [clause]
  dsimp only [filterPart, Part.segment]
  rw [clause_of_condition hc _ (by omega)]
  rfl

theorem havingPart_fills {c : Condition} (hc : c.Rereads) : (havingPart c).Fills := by
  intro p n d hn
  simp only [havingPart] at hn
  obtain ⟨n, rfl⟩ : ∃ m, n = m + 1 := ⟨n - 1, by omega⟩
  rw [clause]
  dsimp only [havingPart, Part.segment]
  rw [clause_of_condition hc _ (by omega)]
  rfl

theorem groupByParts_fill {es : List Expr} (h : ∀ e ∈ es, e.Sound) : ∀ c ∈ groupByParts es, c.Fills := by
  cases es with
  | nil => simp [groupByParts]
  | cons e es =>
    rintro c hc
    cases List.mem_singleton.1 hc
    intro p n d hn
    dsimp only at hn
    obtain ⟨n, rfl⟩ : ∃ m, n = m + 1 := ⟨n - 1, by omega⟩
    have hread : ∀ p, exprs p n (bareTokens (exprsLexemes (e :: es))) =
        .ok (untitledExprs (e :: es), []) := by
      intro p
      have := exprs_reread h (List.cons_ne_nil e es) p (n := n) (by omega) endsExpr_nil rfl
      rwa [List.append_nil] at this
    rw [clause]
    dsimp only [Part.segment]
    rw [hread]
    rfl

theorem orderParts_fill {os : List OrderItem} (h : SoundOrder os) : ∀ c ∈ orderParts os, c.Fills := by
  cases os with
  | nil => simp [orderParts]
  | cons o os =>
    rintro c hc
    cases List.mem_singleton.1 hc
    intro p n d hn
    dsimp only at hn
    obtain ⟨n, rfl⟩ : ∃ m, n = m + 1 := ⟨n - 1, by omega⟩
    rw [clause]
    dsimp only [Part.segment]
    rw [orderItems_reread h (List.cons_ne_nil _ _) _ (by omega)]
    rfl

theorem limitPart_fills (n : Nat) : (limitPart n).Fills := by
  intro p m d hm
  obtain ⟨m, rfl⟩ : ∃ k, m = k + 1 := ⟨m - 1, by omega⟩
  rw [clause]
  rfl

theorem pivotPart_fills {e : Expr} (he : e.Sound) : (pivotPart e).Fills := by
  intro p n d hn
  simp only [pivotPart] at hn
  obtain ⟨n, rfl⟩ : ∃ m, n = m + 1 := ⟨n - 1, by omega⟩
  have hread : ∀ p, expr p n 0 (bareTokens e.lexemes) = .ok (e.untitled, []) := by
    intro p
    have := he.rereads.all he.legible he.formed p (n := n) (by omega) endsExpr_nil
    rwa [List.append_nil] at this
  rw [clause]
  dsimp only [pivotPart, Part.segment]
  rw [hread]
  rfl

theorem Statement.SoundClauses.fill {s : Statement} (h : s.SoundClauses) :
    ∀ c ∈ s.clauseParts, c.Fills := by
  intro c hc
  simp only [clauseParts, List.mem_cons, List.mem_append, List.mem_map, Option.mem_toList] at hc
  rcases hc with rfl | rfl | ⟨j, hj, rfl⟩ | ⟨c, hc, rfl⟩ | hc | ⟨c, hc, rfl⟩ | hc | ⟨n, -, rfl⟩ |
    ⟨e, he, rfl⟩
  · exact selectPart_fills h.items h.items_ne
  · exact sourcePart_fills h.source
  · exact joinPart_fills (h.joins j hj).1 (h.joins j hj).2
  · exact filterPart_fills (h.filter c hc)
  · exact groupByParts_fill h.groupBy c hc
  · exact havingPart_fills (h.having c hc)
  · exact orderParts_fill h.orderBy c hc
  · exact limitPart_fills n
  · exact pivotPart_fills (h.pivot e he)

end GridQuery
