import GridQuery.Proofs.Spelled
import GridQuery.Proofs.Stretches

/-!
Cutting loses no token. The words of the clauses with their tokens behind them are the tokens of the
operand again, and the operands in the brackets that were taken off them, with the words of their set
operators between them, are the tokens of the statement. What cuts stands outside brackets, and outside
brackets nothing is left that would cut.
-/

namespace GridQuery
set_option autoImplicit false

open GridQuery.Parser

/-! ### Depth -/

/-- The bracket depth behind tokens that begin at a depth. -/
def depthBehind (depth : Nat) (ts : List Token) : Nat :=
  ts.foldl depthAfter depth

@[simp] theorem depthBehind_nil (depth : Nat) : depthBehind depth [] = depth := rfl

@[simp] theorem depthBehind_cons (depth : Nat) (t : Token) (ts : List Token) :
    depthBehind depth (t :: ts) = depthBehind (depthAfter depth t) ts := rfl

theorem depthBehind_append (depth : Nat) (ts us : List Token) :
    depthBehind depth (ts ++ us) = depthBehind (depthBehind depth ts) us :=
  List.foldl_append

theorem depthAfter_keyword {t : Token} (h : t.keyword?.isSome = true) (depth : Nat) :
    depthAfter depth t = depth := by
  unfold depthAfter
  split
  · rename_i hl
    rw [Token.keyword?, hl] at h
    cases h
  · rename_i hl
    rw [Token.keyword?, hl] at h
    cases h
  · rfl

theorem depthBehind_keywords {ts : List Token} (h : ∀ t ∈ ts, t.keyword?.isSome = true) (depth : Nat) :
    depthBehind depth ts = depth := by
  induction ts with
  | nil => rfl
  | cons t ts ih =>
    obtain ⟨ht, hts⟩ := List.forall_mem_cons.1 h
    rw [depthBehind_cons, depthAfter_keyword ht, ih hts]

/-! ### The words of a clause -/

theorem clauseOf_width {ks : List Keyword} {kind : ClauseKind} {width : Nat}
    (h : clauseOf ks = some (kind, width)) : 0 < width ∧ width ≤ ks.length := by
  have hjoin : ∀ {kind' : JoinKind} {r : List Keyword}, joinWords kind' r = some (kind, width) →
      0 < width ∧ width ≤ r.length + 1 := by
    intro kind' r hr
    unfold joinWords at hr
    split at hr
    all_goals cases hr
    all_goals simp
  unfold clauseOf at h
  split at h
  all_goals first
    | exact hjoin h
    | (cases h; simp)
    | cases h

theorem leadingKeywords_prefix (ts : List Token) :
    (leadingKeywords ts).map some <+: ts.map Token.keyword? := by
  have hsome : ∀ os : List (Option Keyword),
      ((os.takeWhile Option.isSome).filterMap id).map some = os.takeWhile Option.isSome := by
    intro os
    induction os with
    | nil => rfl
    | cons o os ih =>
      cases o with
      | none => rfl
      | some k => exact congrArg (some k :: ·) ih
  unfold leadingKeywords
  rw [hsome]
  exact (List.takeWhile_prefix _).trans ((List.take_prefix 3 ts).map _)

/-- The words of a clause are at least one token, and all of them are keywords. -/
theorem clauseAt?_words {ts : List Token} {kind : ClauseKind} {width : Nat}
    (h : clauseAt? ts = some (kind, width)) :
    0 < width ∧ width ≤ ts.length ∧ ∀ t ∈ ts.take width, t.keyword?.isSome = true := by
  obtain ⟨hpos, hle⟩ := clauseOf_width h
  have hprefix := leadingKeywords_prefix ts
  have hlength := hprefix.length_le
  rw [List.length_map, List.length_map] at hlength
  refine ⟨hpos, hle.trans hlength, fun t ht => ?_⟩
  have htake : (ts.take width).map Token.keyword? = ((leadingKeywords ts).take width).map some := by
    rw [List.map_take, List.map_take]
    obtain ⟨others, hothers⟩ := hprefix
    rw [← hothers, List.take_append_of_le_length (by simpa using hle)]
  have hmem : t.keyword? ∈ (ts.take width).map Token.keyword? := List.mem_map_of_mem ht
  rw [htake] at hmem
  obtain ⟨k, -, hk⟩ := List.mem_map.1 hmem
  rw [← hk]
  rfl

/-! ### Clauses with their words -/

/-- A clause with the words that open it. -/
structure Cut where
  words : List Token
  segment : Segment

def Cut.tokens (c : Cut) : List Token :=
  c.words ++ c.segment.tokens

/-- The tokens of clauses, one behind the other. -/
def cutTokens (cuts : List Cut) : List Token :=
  cuts.flatMap Cut.tokens

@[simp] theorem cutTokens_nil : cutTokens [] = [] := rfl

@[simp] theorem cutTokens_cons (c : Cut) (cuts : List Cut) :
    cutTokens (c :: cuts) = c.words ++ (c.segment.tokens ++ cutTokens cuts) := by
  rw [cutTokens, List.flatMap_cons, Cut.tokens, List.append_assoc]
  rfl

/-- A clause with these tokens before and behind it: it opens outside brackets with the words of its kind,
its place is theirs, and no clause opens outside brackets in what it holds. -/
structure Cut.Stands (depth : Nat) (before : List Token) (c : Cut) (behind : List Token) : Prop where
  outside : depthBehind depth before = 0
  opens : clauseAt? (c.tokens ++ behind) = some (c.segment.kind, c.words.length)
  start : c.words.head?.map Token.start = some c.segment.start
  stop : c.words.getLast?.map Token.stop = some c.segment.stop
  holds : ∀ a t b, c.segment.tokens = a ++ t :: b → depthBehind depth (before ++ c.words ++ a) = 0 →
    clauseAt? (t :: (b ++ behind)) = none

theorem Cut.Stands.further {depth depth' : Nat} {front before behind : List Token} {c : Cut}
    (h : c.Stands depth before behind) (hdepth : depthBehind depth' front = depth) :
    c.Stands depth' (front ++ before) behind where
  outside := by rw [depthBehind_append, hdepth, h.outside]
  opens := h.opens
  start := h.start
  stop := h.stop
  holds a t b hat hzero := by
    apply h.holds a t b hat
    rw [← hdepth, ← depthBehind_append, ← List.append_assoc, ← List.append_assoc]
    exact hzero

/-- The clause that opens at the front of the tokens with `width` words and holds `held`. -/
def Cut.opening (kind : ClauseKind) (width : Nat) (t : Token) (r held : List Token) : Cut where
  words := (t :: r).take width
  segment := ⟨kind, t.start, (((t :: r).take width).getLast?.map Token.stop).getD t.stop, held⟩

theorem cutClauses_clause {t : Token} {r : List Token} {kind : ClauseKind} {width : Nat}
    (h : clauseAt? (t :: r) = some (kind, width + 1)) :
    cutClauses 0 0 (t :: r) =
      ([], (Cut.opening kind (width + 1) t r (cutClauses 0 width r).1).segment ::
        (cutClauses 0 width r).2) := by
  simp only [cutClauses, if_true, h, Nat.add_sub_cancel]
  rfl

theorem Cut.opening_stands {t : Token} {r held behind : List Token} {kind : ClauseKind} {width : Nat}
    (h : clauseAt? (t :: r) = some (kind, width + 1)) (hheld : r.drop width = held ++ behind)
    (hclear : ∀ a u b, held = a ++ u :: b → depthBehind 0 a = 0 → clauseAt? (u :: (b ++ behind)) = none) :
    (Cut.opening kind (width + 1) t r held).Stands 0 [] behind := by
  obtain ⟨-, hle, hwords⟩ := clauseAt?_words h
  have hwhole : (t :: r).take (width + 1) ++ (held ++ behind) = t :: r := by
    rw [← hheld]
    exact List.take_append_drop (width + 1) (t :: r)
  refine ⟨rfl, ?_, rfl, ?_, ?_⟩
  · have hlength : ((t :: r).take (width + 1)).length = width + 1 := by
      rw [List.length_take, Nat.min_eq_left hle]
    rw [Cut.tokens, List.append_assoc]
    simp only [Cut.opening, hwhole, h, hlength]
  · obtain ⟨u, hu⟩ : ∃ u, ((t :: r).take (width + 1)).getLast? = some u :=
      ⟨_, List.getLast?_eq_some_getLast (List.cons_ne_nil _ _)⟩
    simp only [Cut.opening, hu, Option.map_some, Option.getD_some]
  · intro a u b hau hzero
    apply hclear a u b hau
    rw [List.nil_append, depthBehind_append] at hzero
    simpa only [Cut.opening, depthBehind_keywords hwords] using hzero

/-- The induction goes by the tokens: `skip` words are passed over, then tokens without a clause are
gathered up to the first clause, and the clauses with their words are all that is left. -/
theorem cutClauses_cuts (depth skip : Nat) (ts : List Token) :
    ∃ cuts : List Cut, cuts.map Cut.segment = (cutClauses depth skip ts).2 ∧
      ts.drop skip = (cutClauses depth skip ts).1 ++ cutTokens cuts ∧
      (∀ a t b, (cutClauses depth skip ts).1 = a ++ t :: b → depthBehind depth a = 0 →
        clauseAt? (t :: (b ++ cutTokens cuts)) = none) ∧
      ∀ before c behind, cuts = before ++ c :: behind →
        c.Stands depth ((cutClauses depth skip ts).1 ++ cutTokens before) (cutTokens behind) := by
  induction ts generalizing depth skip with
  | nil => exact ⟨[], rfl, by simp [cutClauses], by simp [cutClauses], by simp⟩
  | cons t r ih =>
    cases skip with
    | succ skip => exact ih depth skip
    | zero =>
      by_cases hnone : depth = 0 → clauseAt? (t :: r) = none
      · obtain ⟨cuts, hsegments, htokens, hclear, hstands⟩ := ih (depthAfter depth t) 0
        rw [List.drop_zero] at htokens
        rw [cutClauses_step hnone]
        refine ⟨cuts, hsegments, congrArg (t :: ·) htokens, ?_, ?_⟩
        · intro a u b hau hzero
          cases a with
          | nil =>
            obtain ⟨rfl, rfl⟩ := List.cons.inj hau
            rw [← htokens]
            exact hnone hzero
          | cons v a =>
            obtain ⟨rfl, hbody⟩ := List.cons.inj hau
            exact hclear a u b hbody hzero
        · intro before c behind hc
          exact (hstands before c behind hc).further (show depthBehind depth [t] = _ from rfl)
      · obtain ⟨rfl, hsome⟩ := Classical.not_imp.1 hnone
        obtain ⟨⟨kind, width⟩, hclause⟩ := Option.ne_none_iff_exists'.1 hsome
        obtain ⟨hpos, -, hwords⟩ := clauseAt?_words hclause
        obtain ⟨width, rfl⟩ : ∃ n, width = n + 1 := ⟨width - 1, by omega⟩
        obtain ⟨cuts, hsegments, htokens, hclear, hstands⟩ := ih 0 width
        have hopening := Cut.opening_stands hclause htokens hclear
        rw [cutClauses_clause hclause]
        refine ⟨Cut.opening kind (width + 1) t r (cutClauses 0 width r).1 :: cuts, ?_, ?_, by simp, ?_⟩
        · rw [List.map_cons, hsegments]
        · rw [List.nil_append, cutTokens_cons]
          simp only [Cut.opening, ← htokens]
          exact (List.take_append_drop (width + 1) (t :: r)).symm
        · intro before c behind hc
          cases before with
          | nil =>
            obtain ⟨rfl, rfl⟩ := List.cons.inj hc
            exact hopening
          | cons c' before =>
            obtain ⟨rfl, hbehind⟩ := List.cons.inj hc
            rw [List.nil_append, cutTokens_cons]
            exact (hstands before c behind hbehind).further (depthBehind_keywords hwords 0)

/-- The second clause of a kind is an error, unless it is a join. -/
theorem checkRepeats_count {seen : List ClauseKind} {ss : List Segment}
    (h : checkRepeats seen ss = .ok ()) {kind : ClauseKind} (hkind : kind.isJoin = false) :
    (ss.map Segment.kind).count kind + (if kind ∈ seen then 1 else 0) ≤ 1 := by
  induction ss generalizing seen with
  | nil =>
    split
    all_goals simp
  | cons s ss ih =>
    unfold checkRepeats at h
    split at h
    · cases h
    · rename_i hnew
      have hrest := ih h
      rw [List.map_cons, List.count_cons]
      by_cases hs : s.kind = kind
      · have hfresh : kind ∉ seen := by
          subst hs
          simpa [hkind] using hnew
        rw [if_pos (by rw [hs]; exact .head _)] at hrest
        rw [if_pos (beq_iff_eq.2 hs), if_neg hfresh]
        omega
      · have hmem : kind ∈ s.kind :: seen ↔ kind ∈ seen := by
          simp [Ne.symm hs]
        rw [if_neg (by simpa using hs)]
        simp only [hmem] at hrest
        exact hrest

/-- The clauses of an operand are all of its tokens. -/
structure ClauseCut (ts : List Token) (ss : List Segment) : Prop where
  whole : ∃ cuts : List Cut, cuts.map Cut.segment = ss ∧ cutTokens cuts = ts ∧
    ∀ before c behind, cuts = before ++ c :: behind →
      c.Stands 0 (cutTokens before) (cutTokens behind)
  first : ss.head?.map Segment.kind = some .select
  sources : (ss.map Segment.kind).count .source = 1
  once : ∀ kind, kind.isJoin = false → (ss.map Segment.kind).count kind ≤ 1

theorem clauses_cut (ts : List Token) : Yields (ClauseCut ts) (clauses ts) := by
  unfold clauses
  refine Yields.bind (P := fun _ => True) (fun _ _ => trivial) fun _ _ => ?_
  refine Yields.ite (fun _ => Yields.error _) fun hselect => ?_
  simp only [Bool.or_eq_true, Bool.not_eq_true', bne_iff_ne, ne_eq, not_or, Decidable.not_not,
    Bool.not_eq_false, List.isEmpty_iff] at hselect
  obtain ⟨hbefore, hfirst⟩ := hselect
  refine Yields.bind (P := fun _ => checkRepeats [] (cutClauses 0 0 ts).2 = .ok ()) (fun _ h => h)
    fun _ hrepeats => ?_
  refine Yields.ite (fun hsource => Yields.ok ?_) fun _ => Yields.error _
  have honce : ∀ kind : ClauseKind, kind.isJoin = false →
      ((cutClauses 0 0 ts).2.map Segment.kind).count kind ≤ 1 := by
    intro kind hkind
    exact (Nat.le_add_right _ _).trans (checkRepeats_count hrepeats hkind)
  obtain ⟨cuts, hsegments, htokens, -, hstands⟩ := cutClauses_cuts 0 0 ts
  rw [hbefore] at htokens hstands
  refine ⟨⟨cuts, hsegments, htokens.symm, hstands⟩, hfirst, ?_, honce⟩
  obtain ⟨s, hs, hkind⟩ := List.any_eq_true.1 hsource
  have hpos : 0 < ((cutClauses 0 0 ts).2.map Segment.kind).count .source :=
    List.count_pos_iff.2 (List.mem_map.2 ⟨s, hs, beq_iff_eq.1 hkind⟩)
  exact Nat.le_antisymm (honce .source rfl) hpos

/-! ### Operands with their operators -/

/-- The tokens in some pairs of brackets, or in none. -/
inductive Bracketed (inner : List Token) : List Token → Prop where
  | none : Bracketed inner inner
  | pair {t u : Token} {ts : List Token} : t.lexeme = .leftParen → u.lexeme = .rightParen → Closed ts →
      Bracketed inner ts → Bracketed inner (t :: (ts ++ [u]))

theorem stripParens_bracketed (fuel : Nat) (ts : List Token) : Bracketed (stripParens fuel ts) ts := by
  induction fuel generalizing ts with
  | zero => exact .none
  | succ fuel ih =>
    unfold stripParens
    split
    · split
      · rename_i t r ht
        split
        · rename_i inner hclose
          obtain ⟨u, hu, rfl, hpass⟩ := splitClose_passes hclose
          have hclosed : Closed inner := fun k behind => by rw [← hpass, Nat.zero_add]
          exact .pair ht hu hclosed (ih inner)
        · exact .none
      · exact .none
    · exact .none

/-- An operand as it is written, brackets included, behind the words of its set operator. -/
structure Piece where
  words : List Token
  written : List Token
  operand : Operand

/-- The tokens of operands, one behind the other. -/
def pieceTokens (pieces : List Piece) : List Token :=
  pieces.flatMap fun p => p.words ++ p.written

@[simp] theorem pieceTokens_nil : pieceTokens [] = [] := rfl

@[simp] theorem pieceTokens_cons (p : Piece) (pieces : List Piece) :
    pieceTokens (p :: pieces) = p.words ++ (p.written ++ pieceTokens pieces) := by
  rw [pieceTokens, List.flatMap_cons, List.append_assoc]
  rfl

/-- An operand behind the first. -/
structure Piece.Follows (p : Piece) : Prop where
  operator : ∃ op, p.operand.operator = some op ∧ p.words.map Token.lexeme = op.lexemes
  brackets : Bracketed p.operand.tokens p.written

/-- How many set operators stand outside brackets. -/
def outerOperators (depth : Nat) (ts : List Token) : Nat :=
  (List.range ts.length).countP fun i =>
    depthBehind depth (ts.take i) == 0 && (setOperator? (ts.drop i)).isSome

theorem outerOperators_cons (depth : Nat) (t : Token) (r : List Token) :
    outerOperators depth (t :: r) =
      outerOperators (depthAfter depth t) r +
        if (depth == 0 && (setOperator? (t :: r)).isSome) = true then 1 else 0 := by
  unfold outerOperators
  rw [List.length_cons, List.range_succ_eq_map, List.countP_cons, List.countP_map]
  rfl

theorem outerOperators_operator {t : Token} {r : List Token} (h : (setOperator? (t :: r)).isSome = true) :
    outerOperators 0 (t :: r) = outerOperators 0 r + 1 := by
  have hkeyword : t.keyword?.isSome = true := by
    simp only [setOperator?] at h
    split at h
    all_goals first
      | (rename_i hl; rw [Token.keyword?, hl]; rfl)
      | cases h
  rw [outerOperators_cons, depthAfter_keyword hkeyword, h]
  rfl

/-- A set operator is its words with the rest behind them, and it is one operator outside brackets. -/
theorem setOperator?_words {ts rest : List Token} {op : SetOperator}
    (h : setOperator? ts = some (op, rest)) :
    ∃ words, ts = words ++ rest ∧ words.map Token.lexeme = op.lexemes ∧
      outerOperators 0 ts = outerOperators 0 rest + 1 := by
  cases ts with
  | nil => cases h
  | cons t r =>
    have hcount := outerOperators_operator (t := t) (r := r) (by rw [h]; rfl)
    simp only [setOperator?] at h
    split at h
    · rename_i ht
      split at h
      · rename_i u r
        split at h
        · rename_i hu
          cases h
          refine ⟨[t, u], rfl, by simp [ht, hu, SetOperator.lexemes], ?_⟩
          have hall : setOperator? (u :: rest) = none := by simp only [setOperator?, hu]
          have hkeyword : u.keyword?.isSome = true := by simp only [Token.keyword?, hu, Option.isSome_some]
          rw [hcount, outerOperators_cons, depthAfter_keyword hkeyword, hall]
          rfl
        · cases h
          exact ⟨[t], rfl, by simp [ht, SetOperator.lexemes], hcount⟩
      · cases h
        exact ⟨[t], rfl, by simp [ht, SetOperator.lexemes], hcount⟩
    · rename_i ht
      cases h
      exact ⟨[t], rfl, by simp [ht, SetOperator.lexemes], hcount⟩
    · rename_i ht
      cases h
      exact ⟨[t], rfl, by simp [ht, SetOperator.lexemes], hcount⟩
    · cases h

theorem operand_yields (operator : Option SetOperator) (gathered : List Token) (start stop : Nat) :
    Yields (fun o => o.operator = operator ∧ Bracketed o.tokens gathered.reverse)
      (GridQuery.operand operator gathered start stop) :=
  Yields.ite (fun _ => Yields.error _) fun _ => Yields.ok ⟨rfl, stripParens_bracketed _ _⟩

/-- The operands of `ts` behind what was gathered: the first of them goes on with `front`. -/
structure OperandsFrom (depth : Nat) (operator : Option SetOperator) (gathered ts : List Token)
    (os : List Operand) : Prop where
  pieces : ∃ front first rest, os = first :: rest.map Piece.operand ∧ ts = front ++ pieceTokens rest ∧
    first.operator = operator ∧ Bracketed first.tokens (gathered.reverse ++ front) ∧
    ∀ p ∈ rest, p.Follows
  count : os.length = outerOperators depth ts + 1

/-- The induction goes by the length of the tokens, since a set operator has one word or two. -/
theorem splitOperands_from (depth : Nat) (operator : Option SetOperator) (gathered ts : List Token)
    (start stop : Nat) :
    Yields (OperandsFrom depth operator gathered ts)
      (splitOperands depth operator gathered start stop ts) := by
  induction hn : ts.length using Nat.strongRecOn
    generalizing depth operator gathered ts start stop with
  | ind n ih =>
    cases ts with
    | nil =>
      rw [splitOperands]
      refine (operand_yields operator gathered start stop).map fun o ho => ⟨?_, rfl⟩
      exact ⟨[], o, [], rfl, rfl, ho.1, by rw [List.append_nil]; exact ho.2, by simp⟩
    | cons t r =>
      rw [splitOperands]
      split
      · rename_i op rest hop
        obtain ⟨rfl, hset⟩ : depth = 0 ∧ setOperator? (t :: r) = some (op, rest) := by
          split at hop
          · exact ⟨‹_›, hop⟩
          · cases hop
        obtain ⟨words, hwords, hlexemes, hcount⟩ := setOperator?_words hset
        refine (operand_yields operator gathered t.start t.stop).bind fun o ho => ?_
        refine (ih _ (hn ▸ length_of_setOperator? hset) 0 (some op) [] rest start stop rfl).bind
          fun os hos => Yields.ok ?_
        obtain ⟨⟨front, first, others, rfl, rfl, hop, hbrackets, hfollow⟩, hlength⟩ := hos
        refine ⟨⟨[], o, ⟨words, front, first⟩ :: others, rfl, ?_, ho.1, ?_, ?_⟩, ?_⟩
        · rw [List.nil_append, pieceTokens_cons, hwords]
        · rw [List.append_nil]
          exact ho.2
        · exact List.forall_mem_cons.2 ⟨⟨⟨op, hop, hlexemes⟩, hbrackets⟩, hfollow⟩
        · rw [List.length_cons, hlength, hcount]
      · rename_i hop
        refine (ih r.length (hn ▸ Nat.lt_succ_self _) (depthAfter depth t) operator (t :: gathered) r
          start stop rfl).imp fun os hos => ?_
        obtain ⟨⟨front, first, others, rfl, rfl, hoperator, hbrackets, hfollow⟩, hlength⟩ := hos
        refine ⟨⟨t :: front, first, others, rfl, rfl, hoperator, ?_, hfollow⟩, ?_⟩
        · rw [List.reverse_cons, List.append_assoc] at hbrackets
          exact hbrackets
        · have hnone : ¬ (depth == 0 && (setOperator? (t :: (front ++ pieceTokens others))).isSome) = true := by
            rw [Bool.and_eq_true, beq_iff_eq]
            rintro ⟨rfl, hsome⟩
            rw [if_pos rfl] at hop
            rw [hop] at hsome
            cases hsome
          rw [hlength, outerOperators_cons, if_neg hnone, Nat.add_zero]

/-- The operands of a statement with the words of its set operators are all of its tokens, but for
brackets around operands. -/
structure OperandCut (ts : List Token) (os : List Operand) : Prop where
  whole : ∃ first rest, (first :: rest).map Piece.operand = os ∧ pieceTokens (first :: rest) = ts ∧
    first.words = [] ∧ first.operand.operator = none ∧ Bracketed first.operand.tokens first.written ∧
    ∀ p ∈ rest, p.Follows
  count : os.length = outerOperators 0 ts + 1

theorem operands_cut (ts : List Token) : Yields (OperandCut ts) (operands ts) := by
  unfold operands
  refine Yields.bind (P := fun _ => True) (fun _ _ => trivial) fun _ _ => ?_
  refine (splitOperands_from 0 none [] ts _ _).imp fun os hos => ?_
  obtain ⟨⟨front, first, rest, rfl, rfl, hoperator, hbrackets, hfollow⟩, hcount⟩ := hos
  exact ⟨⟨⟨[], front, first⟩, rest, rfl, by simp, rfl, hoperator, hbrackets, hfollow⟩, hcount⟩

/-- Where tokens are cut, into clauses or into the operands of set operations, the parts with the words
that were cut at are the tokens again. -/
theorem splitting_keeps_tokens (ts : List Token) :
    (∀ ss, clauses ts = .ok ss → ClauseCut ts ss) ∧ ∀ os, operands ts = .ok os → OperandCut ts os :=
  ⟨clauses_cut ts, operands_cut ts⟩

/-- `SELECT LEFT(a) FROM t LEFT OUTER JOIN u ON a = b UNION ALL ((SELECT a FROM v))` -/
def joinedAndUnited : List Token :=
  bareTokens [.keyword .select, .keyword .left, .leftParen, .identifier "a", .rightParen, .keyword .from_,
    .identifier "t", .keyword .left, .keyword .outer, .keyword .join, .identifier "u", .keyword .on,
    .identifier "a", .eq, .identifier "b", .keyword .union, .keyword .all, .leftParen, .leftParen,
    .keyword .select, .identifier "a", .keyword .from_, .identifier "v", .rightParen, .rightParen]

/-- A function that is called like a join, a join of three words, and an operand in two pairs of
brackets behind an operator of two words. -/
theorem splitting_keeps_tokens_joinedAndUnited :
    ∃ ss os, clauses joinedAndUnited = .ok ss ∧ operands joinedAndUnited = .ok os ∧
      ss.map Segment.kind = [.select, .source, .join .left] ∧
      os.map Operand.operator = [none, some .unionAll] ∧
      ClauseCut joinedAndUnited ss ∧ OperandCut joinedAndUnited os := by
  have hkinds : (clauses joinedAndUnited).toOption.map (List.map Segment.kind) =
      some [.select, .source, .join .left] := by decide +kernel
  have hoperators : (operands joinedAndUnited).toOption.map (List.map Operand.operator) =
      some [none, some .unionAll] := by decide +kernel
  obtain ⟨hclauses, hoperands⟩ := splitting_keeps_tokens joinedAndUnited
  cases hss : clauses joinedAndUnited with
  | error e =>
    rw [hss] at hkinds
    cases hkinds
  | ok ss =>
    cases hos : operands joinedAndUnited with
    | error e =>
      rw [hos] at hoperators
      cases hoperators
    | ok os =>
      rw [hss] at hkinds
      rw [hos] at hoperators
      exact ⟨ss, os, rfl, rfl, Option.some.inj hkinds, Option.some.inj hoperators,
        hclauses ss hss, hoperands os hos⟩

end GridQuery
