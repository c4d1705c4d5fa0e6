import GridQuery.Proofs.RereadClauses

/-!
Reading whole statements from their own lexemes: the clauses of one operand, the operands of the set
operations, and from these, by induction over the syntax, every statement that a reader makes.
-/

namespace GridQuery
set_option autoImplicit false

open GridQuery.Parser

/-! ### One operand -/

theorem forall_of_legibleJoins {js : List JoinClause} (h : legibleJoins js = true) :
    ∀ j ∈ js, j.source.legible = true ∧ j.condition.legible = true := by
  induction js with
  | nil =>
    intro j hj
    cases hj
  | cons j js ih =>
    obtain ⟨kind, source, c⟩ := j
    rw [legibleJoins, Bool.and_eq_true, Bool.and_eq_true] at h
    exact List.forall_mem_cons.2 ⟨h.1, ih h.2⟩

theorem Statement.quiet_clauseParts {s : Statement} (h : s.legible = true) :
    ∀ c ∈ s.clauseParts, Quiet ClearOfClauses c.lexemes := by
  obtain ⟨distinct, items, source, joins, filter, groupBy, having, orderBy, limit, pivot, operations⟩ := s
  simp only [Statement.legible, Bool.and_eq_true] at h
  obtain ⟨⟨⟨⟨⟨⟨⟨⟨hi, hs⟩, hj⟩, hf⟩, hg⟩, hh⟩, ho⟩, hp⟩, -⟩ := h
  intro c hc
  simp only [clauseParts, List.mem_cons, List.mem_append, List.mem_map, Option.mem_toList] at hc
  rcases hc with rfl | rfl | ⟨j, hj', rfl⟩ | ⟨c, rfl, rfl⟩ | hc | ⟨c, rfl, rfl⟩ | hc | ⟨n, -, rfl⟩ |
    ⟨e, rfl, rfl⟩
  · exact (quiet_distinct distinct).append (quiet_items items hi)
  · exact source.quiet hs
  · obtain ⟨hjs, hjc⟩ := forall_of_legibleJoins hj j hj'
    exact (j.source.quiet hjs).append ((j.condition.quiet hjc).cons_keyword trivial)
  · exact c.quiet hf
  · cases groupBy with
    | nil => cases hc
    | cons e es =>
      cases List.mem_singleton.1 hc
      exact quiet_exprs (e :: es) hg
  · exact c.quiet hh
  · cases orderBy with
    | nil => cases hc
    | cons o os =>
      cases List.mem_singleton.1 hc
      exact quiet_order (o :: os) ho
  · exact quiet_of_tame (by simp [limitPart, Tame, Plain, ClearOfClauses])
  · exact e.quiet hp

theorem fillAll_joins (d : Draft) : ∀ js : List JoinClause,
    fillAll d (js.map joinPart) = { d with joins := d.joins ++ untitledJoins js } := by
  intro js
  induction js generalizing d with
  | nil => simp [fillAll, untitledJoins]
  | cons j js ih =>
    obtain ⟨kind, source, c⟩ := j
    have hrest := ih { d with joins := d.joins ++ [⟨kind, source.untitled, c.untitled⟩] }
    simp only [List.append_assoc, List.singleton_append] at hrest
    exact hrest

theorem fillAll_filter {d : Draft} (h : d.filter = none) (o : Option Condition) :
    fillAll d (o.toList.map filterPart) = { d with filter := untitledCondition o } := by
  obtain ⟨⟩ := d
  cases h
  cases o <;> rfl

theorem fillAll_having {d : Draft} (h : d.having = none) (o : Option Condition) :
    fillAll d (o.toList.map havingPart) = { d with having := untitledCondition o } := by
  obtain ⟨⟩ := d
  cases h
  cases o <;> rfl

theorem fillAll_group {d : Draft} (h : d.groupBy = []) (es : List Expr) :
    fillAll d (groupByParts es) = { d with groupBy := untitledExprs es } := by
  obtain ⟨⟩ := d
  cases h
  cases es <;> rfl

theorem fillAll_order {d : Draft} (h : d.orderBy = []) (os : List OrderItem) :
    fillAll d (orderParts os) = { d with orderBy := untitledOrder os } := by
  obtain ⟨⟩ := d
  cases h
  cases os <;> rfl

theorem fillAll_limit {d : Draft} (h : d.limit = none) (o : Option Nat) :
    fillAll d (o.toList.map limitPart) = { d with limit := o } := by
  obtain ⟨⟩ := d
  cases h
  cases o <;> rfl

theorem fillAll_pivot {d : Draft} (h : d.pivot = none) (o : Option Expr) :
    fillAll d (o.toList.map pivotPart) = { d with pivot := untitledElse o } := by
  obtain ⟨⟩ := d
  cases h
  cases o <;> rfl

/-- The clauses make the statement, its set operations left out. -/
theorem Statement.draft_clauseParts (s : Statement) :
    (fillAll {} s.clauseParts).statement = .ok { s.untitled with operations := [] } := by
  obtain ⟨⟩ := s
  rw [clauseParts, fillAll, List.foldl_cons, List.foldl_cons, ← fillAll, fillAll_append, fillAll_joins,
    fillAll_append, fillAll_filter rfl, fillAll_append, fillAll_group rfl, fillAll_append,
    fillAll_having rfl, fillAll_append, fillAll_order rfl, fillAll_append, fillAll_limit rfl,
    fillAll_pivot rfl]
  rfl

theorem kinds_toList {α : Type} (f : α → Part) (k : ClauseKind) (hf : ∀ a, (f a).kind = k)
    (o : Option α) :
    List.Sublist (((o.toList.map f).map Part.kind).filter fun k => !k.isJoin) [k] := by
  refine List.Sublist.trans List.filter_sublist ?_
  cases o with
  | none => exact List.nil_sublist _
  | some a =>
    have hone : ((some a).toList.map f).map Part.kind = [k] := congrArg (fun k => [k]) (hf a)
    exact hone ▸ List.Sublist.refl _

/-- The kinds in the order in which they stand, joins aside. -/
theorem Statement.kinds_sublist (s : Statement) :
    List.Sublist ((s.clauseParts.map Part.kind).filter fun k => !k.isJoin)
      [.select, .source, .filter, .groupBy, .having, .orderBy, .limit, .pivot] := by
  have hjoins : ((s.joins.map joinPart).map Part.kind).filter (fun k => !k.isJoin) = [] := by
    rw [List.filter_eq_nil_iff]
    intro k hk
    simp only [List.map_map, List.mem_map] at hk
    obtain ⟨j, -, rfl⟩ := hk
    simp [joinPart, ClauseKind.isJoin]
  have hgroup : List.Sublist (((groupByParts s.groupBy).map Part.kind).filter fun k => !k.isJoin)
      [.groupBy] := by
    cases s.groupBy with
    | nil => exact List.nil_sublist _
    | cons => exact List.Sublist.refl _
  have horder : List.Sublist (((orderParts s.orderBy).map Part.kind).filter fun k => !k.isJoin)
      [.orderBy] := by
    cases s.orderBy with
    | nil => exact List.nil_sublist _
    | cons => exact List.Sublist.refl _
  simp only [clauseParts, List.map_cons, List.map_append]
  change List.Sublist (ClauseKind.select :: ClauseKind.source :: List.filter _ _) _
  simp only [List.filter_append, hjoins, List.nil_append]
  have hfilter := kinds_toList filterPart .filter (fun _ => rfl) s.filter
  have hhaving := kinds_toList havingPart .having (fun _ => rfl) s.having
  have hlimit := kinds_toList limitPart .limit (fun _ => rfl) s.limit
  have hpivot := kinds_toList pivotPart .pivot (fun _ => rfl) s.pivot
  exact ((hfilter.append (hgroup.append (hhaving.append (horder.append
    (hlimit.append hpivot))))).cons_cons ClauseKind.source).cons_cons ClauseKind.select

theorem Statement.clauses_clauseParts {s : Statement} (h : s.legible = true) :
    clauses (bareTokens (partsLexemes s.clauseParts)) = .ok (s.clauseParts.map Part.segment) := by
  have hquiet := Statement.quiet_clauseParts h
  have hkinds : (s.clauseParts.map Part.segment).map Segment.kind = s.clauseParts.map Part.kind := by
    rw [List.map_map]
    rfl
  have hnodup : (((s.clauseParts.map Part.segment).map Segment.kind).filter
      fun k => !k.isJoin).Nodup := by
    rw [hkinds]
    exact s.kinds_sublist.nodup (by decide)
  rw [clauses, checkBalance_balanced (quiet_parts hquiet).balanced, ok_bind, cutClauses_parts hquiet]
  dsimp only
  rw [checkRepeats_nodup [] (fun _ hk => nomatch hk) hnodup]
  rfl

/-- The clauses of a statement are read back to the statement without its set operations. -/
theorem Statement.single_reread {s : Statement} (hs : s.SoundClauses) (h : s.legible = true)
    (p : Place) {n : Nat} (hn : 16 * (partsLexemes s.clauseParts).length ≤ n + 1) :
    single p n (bareTokens (partsLexemes s.clauseParts)) =
      .ok { s.untitled with operations := [] } := by
  have hpos : 0 < (partsLexemes s.clauseParts).length := Nat.succ_pos _
  obtain ⟨n, rfl⟩ : ∃ m, n = m + 1 := ⟨n - 1, by omega⟩
  have hlong : ∀ c ∈ s.clauseParts, 16 * c.lexemes.length + 8 ≤ n := by
    intro c hc
    have := length_part hc
    omega
  rw [single, Statement.clauses_clauseParts h, ok_bind, clauses_fill hs.fill p hlong {}, ok_bind]
  exact s.draft_clauseParts

/-! ### Set operations -/

/-- The tokens of an operand begin with `SELECT`, so no brackets are taken off. -/
theorem operand_select (operator : Option SetOperator) (ls : List Lexeme) (start stop : Nat) :
    operand operator ((bareTokens (.keyword .select :: ls)).reverse) start stop =
      .ok ⟨operator, bareTokens (.keyword .select :: ls)⟩ := by
  have hstrip : ∀ fuel, stripParens fuel (bareTokens (.keyword .select :: ls)) =
      bareTokens (.keyword .select :: ls) := by
    rintro ⟨⟩
    · rfl
    · rfl
  simp only [operand, List.reverse_reverse, hstrip]
  rfl

theorem setOperator?_lexemes (op : SetOperator) {l : Lexeme} (hl : l ≠ .keyword .all)
    (ts : List Token) :
    setOperator? (bareTokens op.lexemes ++ ⟨l, 0, 0⟩ :: ts) = some (op, ⟨l, 0, 0⟩ :: ts) := by
  cases op with
  | union => exact if_neg hl
  | _ => rfl

theorem splitOperands_cut {t : Token} {r rest : List Token} {op : SetOperator}
    (h : setOperator? (t :: r) = some (op, rest)) {operator : Option SetOperator}
    {gathered : List Token} {start stop : Nat} {o : Operand}
    (ho : operand operator gathered t.start t.stop = .ok o) :
    splitOperands 0 operator gathered start stop (t :: r) =
      (splitOperands 0 (some op) [] start stop rest).map (o :: ·) := by
  rw [splitOperands_operator h, ho, ok_bind]
  cases splitOperands 0 (some op) [] start stop rest <;> rfl

theorem Statement.clauseParts_opens (s : Statement) :
    ∃ ls, partsLexemes s.clauseParts = .keyword .select :: ls :=
  ⟨_, rfl⟩

/-- The operands of the set operations, each behind its operator. -/
def operationOperands (ops : List SetOperation) : List Operand :=
  ops.map fun o => ⟨some o.operator, bareTokens (partsLexemes o.statement.clauseParts)⟩

/-- The loop over the set operators gathers an operand and goes on with the next. -/
theorem splitOperands_operations {ops : List SetOperation}
    (hops : ∀ o ∈ ops, o.statement.legible = true ∧ o.statement.operations = []) {s : Statement}
    (h : s.legible = true) (operator : Option SetOperator) (start stop : Nat) :
    splitOperands 0 operator [] start stop
        (bareTokens (partsLexemes s.clauseParts ++ operationsLexemes ops)) =
      .ok (⟨operator, bareTokens (partsLexemes s.clauseParts)⟩ :: operationOperands ops) := by
  induction ops generalizing s operator with
  | nil =>
    obtain ⟨ls, hls⟩ := s.clauseParts_opens
    rw [bareTokens_append,
      splitOperands_quiet (quiet_parts (Statement.quiet_clauseParts h)), List.append_nil, hls]
    change splitOperands 0 operator _ start stop [] = _
    rw [splitOperands, operand_select]
    rfl
  | cons o ops ih =>
    obtain ⟨op, t⟩ := o
    obtain ⟨ho, hops'⟩ := List.forall_mem_cons.1 hops
    dsimp only at ho
    obtain ⟨ls, hls⟩ := s.clauseParts_opens
    obtain ⟨ms, hms⟩ := t.clauseParts_opens
    have hlex : operationsLexemes (⟨op, t⟩ :: ops) =
        op.lexemes ++ (partsLexemes t.clauseParts ++ operationsLexemes ops) := by
      rw [operationsLexemes, t.lexemes_eq, ho.2, operationsLexemes, List.append_nil, List.append_assoc]
    have hcut : setOperator? (bareTokens op.lexemes ++
        bareTokens (partsLexemes t.clauseParts ++ operationsLexemes ops)) =
        some (op, bareTokens (partsLexemes t.clauseParts ++ operationsLexemes ops)) := by
      rw [hms]
      exact setOperator?_lexemes op (by simp) _
    have hfront : ∃ u r, bareTokens op.lexemes ++
        bareTokens (partsLexemes t.clauseParts ++ operationsLexemes ops) = u :: r := by
      cases op
      all_goals exact ⟨_, _, rfl⟩
    obtain ⟨u, r, hur⟩ := hfront
    rw [hur] at hcut
    have hoperand : operand operator (bareTokens (partsLexemes s.clauseParts)).reverse u.start u.stop =
        .ok ⟨operator, bareTokens (partsLexemes s.clauseParts)⟩ := by
      rw [hls]
      exact operand_select _ _ _ _
    rw [bareTokens_append, splitOperands_quiet (quiet_parts (Statement.quiet_clauseParts h)),
      List.append_nil, hlex, bareTokens_append, hur, splitOperands_cut hcut hoperand, ih hops' ho.1]
    rfl

theorem forall_of_legibleOperations {os : List SetOperation} (h : legibleOperations os = true) :
    ∀ o ∈ os, o.statement.legible = true := by
  induction os with
  | nil =>
    intro o ho
    cases ho
  | cons o os ih =>
    obtain ⟨op, s⟩ := o
    rw [legibleOperations, Bool.and_eq_true] at h
    exact List.forall_mem_cons.2 ⟨h.1, ih h.2⟩

theorem forall_of_formedOperations : ∀ {os : List SetOperation}, FormedOperations os →
    ∀ o ∈ os, o.statement.operations = []
  | [], _ => fun _ ho => nomatch ho
  | ⟨_, _⟩ :: _, h => List.forall_mem_cons.2 ⟨h.2.1, forall_of_formedOperations h.2.2⟩

/-- Each operand behind an operator is read back. -/
theorem operations_reread : ∀ {ops : List SetOperation},
    (∀ o ∈ ops, o.statement.SoundClauses) → (∀ o ∈ ops, o.statement.legible = true) →
    (∀ o ∈ ops, o.statement.operations = []) → ∀ (p : Place) {n : Nat},
    (16 * (operationsLexemes ops).length ≤ n) →
    (operationOperands ops).mapM (fun o =>
      (single p n o.tokens).map fun t => SetOperation.mk (o.operator.getD .union) t) =
      .ok (untitledOperations ops)
  | [], _, _, _, _, _, _ => rfl
  | ⟨op, s⟩ :: ops, hs, hl, ho, p, n, hn => by
    obtain ⟨hs, hss⟩ := List.forall_mem_cons.1 hs
    obtain ⟨hl, hls⟩ := List.forall_mem_cons.1 hl
    obtain ⟨ho, hos⟩ := List.forall_mem_cons.1 ho
    dsimp only at hs hl ho
    have hlex : operationsLexemes (⟨op, s⟩ :: ops) =
        op.lexemes ++ partsLexemes s.clauseParts ++ operationsLexemes ops := by
      rw [operationsLexemes, s.lexemes_eq, ho, operationsLexemes, List.append_nil]
    simp only [hlex, List.length_append] at hn
    have hsingle : single p n (bareTokens (partsLexemes s.clauseParts)) = .ok s.untitled := by
      rw [Statement.single_reread hs hl p (by omega)]
      obtain ⟨⟩ := s
      cases ho
      rfl
    have ih := operations_reread hss hls hos p (n := n) (by omega)
    rw [operationOperands, List.map_cons, List.mapM_cons, hsingle, ← operationOperands, ih]
    rfl

theorem Statement.rereads_of_clauses {s : Statement} (hs : s.SoundClauses) (h : s.legible = true)
    (hf : s.Formed) (hops : ∀ o ∈ s.operations, o.statement.SoundClauses) : s.Rereads := by
  have hlegible : legibleOperations s.operations = true := by
    obtain ⟨⟩ := s
    simp only [Statement.legible, Bool.and_eq_true] at h
    exact h.2
  have hformed : FormedOperations s.operations := by
    obtain ⟨⟩ := s
    exact hf.2.2.2.2.2.2.2.2.2.2
  intro p n hn
  have hlen : s.lexemes.length =
      (partsLexemes s.clauseParts).length + (operationsLexemes s.operations).length := by
    rw [s.lexemes_eq, List.length_append]
  have hpos : 0 < (partsLexemes s.clauseParts).length := Nat.succ_pos _
  obtain ⟨n, rfl⟩ : ∃ m, n = m + 1 := ⟨n - 1, by omega⟩
  have hoperands : operands (bareTokens s.lexemes) = .ok
      (⟨none, bareTokens (partsLexemes s.clauseParts)⟩ :: operationOperands s.operations) := by
    rw [operands, checkBalance_balanced (s.balanced h), ok_bind, s.lexemes_eq]
    exact splitOperands_operations (fun o ho => ⟨forall_of_legibleOperations hlegible o ho,
      forall_of_formedOperations hformed o ho⟩) h none _ _
  rw [Parser.statement, hoperands, ok_bind]
  dsimp only
  rw [Statement.single_reread hs h p (by omega), ok_bind,
    operations_reread hops (forall_of_legibleOperations hlegible) (forall_of_formedOperations hformed) p
      (by omega)]
  obtain ⟨⟩ := s
  rfl

/-! ### Every statement -/

/-- Reads back with its set operations. -/
def Statement.Sound (s : Statement) : Prop :=
  s.SoundClauses ∧ ∀ o ∈ s.operations, o.statement.SoundClauses

theorem Statement.Sound.rereads {s : Statement} (hs : s.Sound) (h : s.legible = true)
    (hf : s.Formed) : s.Rereads :=
  Statement.rereads_of_clauses hs.1 h hf hs.2

theorem forall_of_formedTerms {cs : List Condition} (h : FormedTerms cs) : ∀ c ∈ cs, c.Formed := by
  induction cs with
  | nil => exact fun _ hc => nomatch hc
  | cons c cs ih => exact List.forall_mem_cons.2 ⟨h.1, ih h.2⟩

-- By induction over the syntax, one case for each constructor.
mutual

theorem Expr.sound : ∀ e : Expr, e.legible = true → e.Formed → e.Sound ∧ e.NoCondition
  | .literal c, h, hf => by
    have hread : (Expr.literal c).Rereads := by
      cases c with
      | number x => exact Expr.rereads_number h
      | null => exact Expr.rereads_of_atom rfl rfl rfl
      | boolean b => cases b <;> exact Expr.rereads_of_atom rfl rfl rfl
      | text s => exact Expr.rereads_of_atom rfl rfl rfl
      | date m => cases hf
    refine ⟨⟨hread, h, hf⟩, Expr.noCondition_of_opens ?_⟩
    intro ls hl
    cases c with
    | number x =>
      rcases numberReadsBack h with ⟨l, hx, ha⟩ | ⟨l, y, hx, -, -⟩
      · rw [Expr.lexemes, Cell.lexemes, hx] at hl
        cases hl
        cases ha
      · rw [Expr.lexemes, Cell.lexemes, hx] at hl
        cases hl
    | _ => cases hl
  | .column table name, h, hf => by
    refine ⟨⟨Expr.rereads_column table name, h, hf⟩, Expr.noCondition_of_opens ?_⟩
    intro ls hl
    cases table <;> cases hl
  | .bind n, h, hf =>
    ⟨⟨Expr.rereads_of_atom rfl rfl rfl, h, hf⟩, Expr.noCondition_of_opens fun _ hl => nomatch hl⟩
  | .binary op a b, h, hf => by
    have hlegible := h
    rw [Expr.legible, Bool.and_eq_true] at hlegible
    obtain ⟨ha, hano⟩ := a.sound hlegible.1 hf.1
    obtain ⟨hb, -⟩ := b.sound hlegible.2 hf.2.1
    exact ⟨⟨Expr.rereads_binary ha.rereads hb.rereads h hf, h, hf⟩, Expr.noCondition_binary hano ha⟩
  | .unary s a, h, hf => by
    have hlegible := h
    rw [Expr.legible, Bool.and_eq_true] at hlegible
    obtain ⟨ha, -⟩ := a.sound hlegible.1 hf.1
    refine ⟨⟨Expr.rereads_unary ha.rereads h hf, h, hf⟩, Expr.noCondition_of_opens ?_⟩
    intro ls hl
    cases s <;> cases hl
  | .call name distinct args, h, hf => by
    have hlegible := h
    rw [Expr.legible, Bool.and_eq_true] at hlegible
    have hargs := sound_exprs args hlegible.2 hf.2.2
    refine ⟨⟨Expr.rereads_call hargs h hf, h, hf⟩, Expr.noCondition_of_opens ?_⟩
    intro ls hl
    rw [Expr.lexemes, List.cons.injEq] at hl
    rcases wordLexeme_of_legible hlegible.1 with hw | ⟨-, hw⟩ | ⟨-, hw⟩
    all_goals
      rw [hw] at hl
      cases hl.1
  | .case branches otherwise, h, hf => by
    have hlegible := h
    rw [Expr.legible, Bool.and_eq_true] at hlegible
    exact ⟨⟨Expr.rereads_case (sound_branches branches hlegible.1 hf.2.1)
      (sound_else otherwise hlegible.2 hf.2.2) hf.1, h, hf⟩,
      Expr.noCondition_of_opens fun _ hl => nomatch hl⟩
  | .ite c a b, h, hf => by
    have hlegible := h
    rw [Expr.legible, Bool.and_eq_true, Bool.and_eq_true] at hlegible
    have hc := c.sound hlegible.1.1 hf.1
    obtain ⟨ha, -⟩ := a.sound hlegible.1.2 hf.2.1
    obtain ⟨hb, -⟩ := b.sound hlegible.2 hf.2.2
    exact ⟨⟨Expr.rereads_ite hc.2 ha hb, h, hf⟩, Expr.noCondition_of_opens fun _ hl => nomatch hl⟩
  | .subquery q, h, hf => by
    have hq := (q.sound h hf).rereads h hf
    refine ⟨⟨Expr.rereads_subquery hq h, h, hf⟩, ?_⟩
    intro p n ls rest _ hsub
    rw [Expr.lexemes, atSubquery_query] at hsub
    cases hsub
  | .star table, h, hf => by
    refine ⟨⟨Expr.rereads_star table, h, hf⟩, Expr.noCondition_of_opens ?_⟩
    intro ls hl
    cases table <;> cases hl
  | .paren a, h, hf => by
    obtain ⟨ha, hano⟩ := a.sound h hf
    exact ⟨⟨Expr.rereads_paren ha.rereads h hf, h, hf⟩, Expr.noCondition_paren ha hano⟩

theorem Expr.soundMembers : ∀ e : Expr, e.legible = true → e.FormedMembers →
    e.RereadsMembers ∧ ∃ ls, e.lexemes = .leftParen :: ls
  | .subquery q, h, hf =>
    ⟨Expr.rereadsMembers_subquery ((q.sound h hf).rereads h hf) h, _, rfl⟩
  | .list items, h, hf => ⟨Expr.rereadsMembers_list (sound_exprs items h hf), _, rfl⟩

theorem sound_exprs : ∀ es : List Expr, legibleExprs es = true → FormedExprs es →
    ∀ e ∈ es, e.Sound
  | [], _, _ => fun _ he => nomatch he
  | e :: es, h, hf => by
    rw [legibleExprs, Bool.and_eq_true] at h
    exact List.forall_mem_cons.2 ⟨(e.sound h.1 hf.1).1, sound_exprs es h.2 hf.2⟩

theorem sound_branches : ∀ bs : List (Condition × Expr), legibleBranches bs = true →
    FormedBranches bs → ∀ b ∈ bs, b.1.Rereads ∧ b.2.Sound
  | [], _, _ => fun _ hb => nomatch hb
  | (c, e) :: bs, h, hf => by
    rw [legibleBranches, Bool.and_eq_true, Bool.and_eq_true] at h
    exact List.forall_mem_cons.2 ⟨⟨(c.sound h.1.1 hf.1).2, (e.sound h.1.2 hf.2.1).1⟩,
      sound_branches bs h.2 hf.2.2⟩

theorem sound_else : ∀ o : Option Expr, legibleElse o = true → FormedElse o → ∀ e ∈ o, e.Sound
  | none, _, _ => fun _ he => nomatch he
  | some e, h, hf => by
    rintro _ ⟨⟩
    exact (e.sound h hf).1

theorem Condition.sound : ∀ c : Condition, c.legible = true → c.Formed → c.RereadsTerm ∧ c.Rereads
  | .compare op a b, h, hf => by
    rw [Condition.legible, Bool.and_eq_true] at h
    obtain ⟨ha, hano⟩ := a.sound h.1 hf.1
    have hb : b.RereadsRight op := by
      have hright := hf.2
      unfold Expr.RereadsRight
      split at hright
      · rw [if_pos ‹_›]
        exact b.soundMembers h.2 hright
      · rw [if_neg ‹_›]
        exact (b.sound h.2 hright).1
    have hterm := Condition.rereadsTerm_compare ha hano hb
    exact ⟨hterm, hterm.rereads hf rfl⟩
  | .logic op terms, h, hf => by
    have hread := Condition.rereads_logic (sound_terms terms h hf.2.2) (forall_of_formedTerms hf.2.2) hf
    exact ⟨hread.term h rfl, hread⟩
  | .not c, h, hf => by
    have hterm := Condition.rereadsTerm_not (c.sound h hf).2 h
    exact ⟨hterm, hterm.rereads hf rfl⟩
  | .exists negated q, h, hf => by
    have hterm : (Condition.exists negated q).RereadsTerm :=
      Condition.rereadsTerm_exists ((q.sound h hf).rereads h hf) h
    exact ⟨hterm, hterm.rereads hf rfl⟩

theorem sound_terms : ∀ cs : List Condition, legibleTerms cs = true → FormedTerms cs →
    ∀ c ∈ cs, c.RereadsTerm
  | [], _, _ => fun _ hc => nomatch hc
  | c :: cs, h, hf => by
    rw [legibleTerms, Bool.and_eq_true] at h
    exact List.forall_mem_cons.2 ⟨(c.sound h.1 hf.1).1, sound_terms cs h.2 hf.2⟩

theorem Source.sound : ∀ s : Source, s.legible = true → s.Formed → s.Rereads
  | .table name alias?, _, _ => Source.rereads_table name alias?
  | .query q alias?, h, hf => by
    rw [Source.legible, Bool.and_eq_true] at h
    exact Source.rereads_query ((q.sound h.1 hf).rereads h.1 hf) h.1 alias?

theorem sound_items : ∀ is : List SelectItem, legibleItems is = true → FormedItems is → SoundItems is
  | [], _, _ => fun _ hi => nomatch hi
  | ⟨e, _, _⟩ :: is, h, hf => by
    rw [legibleItems, Bool.and_eq_true, Bool.and_eq_true] at h
    exact List.forall_mem_cons.2 ⟨(e.sound h.1.1 hf.1).1, sound_items is h.2 hf.2⟩

theorem sound_joins : ∀ js : List JoinClause, legibleJoins js = true → FormedJoins js →
    ∀ j ∈ js, j.source.Rereads ∧ j.condition.Rereads
  | [], _, _ => fun _ hj => nomatch hj
  | ⟨_, source, c⟩ :: js, h, hf => by
    rw [legibleJoins, Bool.and_eq_true, Bool.and_eq_true] at h
    exact List.forall_mem_cons.2 ⟨⟨source.sound h.1.1 hf.1, (c.sound h.1.2 hf.2.1).2⟩,
      sound_joins js h.2 hf.2.2⟩

theorem sound_condition : ∀ o : Option Condition, legibleCondition o = true → FormedCondition o →
    ∀ c ∈ o, c.Rereads
  | none, _, _ => fun _ hc => nomatch hc
  | some c, h, hf => by
    rintro _ ⟨⟩
    exact (c.sound h hf).2

theorem sound_order : ∀ os : List OrderItem, legibleOrder os = true → FormedOrder os → SoundOrder os
  | [], _, _ => fun _ ho => nomatch ho
  | ⟨e, _⟩ :: os, h, hf => by
    rw [legibleOrder, Bool.and_eq_true] at h
    exact List.forall_mem_cons.2 ⟨(e.sound h.1 hf.1).1, sound_order os h.2 hf.2⟩

theorem sound_operations : ∀ ops : List SetOperation, legibleOperations ops = true →
    FormedOperations ops → ∀ o ∈ ops, o.statement.SoundClauses
  | [], _, _ => fun _ ho => nomatch ho
  | ⟨_, s⟩ :: ops, h, hf => by
    rw [legibleOperations, Bool.and_eq_true] at h
    exact List.forall_mem_cons.2 ⟨(s.sound h.1 hf.1).1, sound_operations ops h.2 hf.2.2⟩

theorem Statement.sound : ∀ s : Statement, s.legible = true → s.Formed → s.Sound
  | ⟨_, items, source, joins, filter, groupBy, having, orderBy, _, pivot, operations⟩, h, hf => by
    simp only [Statement.legible, Bool.and_eq_true] at h
    obtain ⟨⟨⟨⟨⟨⟨⟨⟨hi, hs⟩, hj⟩, hw⟩, hg⟩, hh⟩, ho⟩, hp⟩, hops⟩ := h
    obtain ⟨hne, hfi, hfs, hfj, hfw, hfg, hfh, hfo, -, hfp, hfops⟩ := hf
    exact ⟨{
        items := sound_items items hi hfi
        items_ne := hne
        source := source.sound hs hfs
        joins := sound_joins joins hj hfj
        filter := sound_condition filter hw hfw
        groupBy := sound_exprs groupBy hg hfg
        having := sound_condition having hh hfh
        orderBy := sound_order orderBy ho hfo
        pivot := sound_else pivot hp hfp },
      sound_operations operations hops hfops⟩

end

/-- A statement that a reader makes, legible throughout, is read from its own lexemes. -/
theorem Statement.rereads {s : Statement} (h : s.legible = true) (hf : s.Formed) : s.Rereads :=
  (s.sound h hf).rereads h hf

end GridQuery
