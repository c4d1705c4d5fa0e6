import GridQuery.Proofs.DrawnItems
import GridQuery.Proofs.Relexing

/-!
Readings without the last tokens. Where a reader leaves the last `k` tokens alone, it reads the same
without them. Looking ahead does not harm: what stands behind a stretch only ends what is read, and the
one place where a reader tries and goes back, a bracket at the front of a condition, is decided by the
token behind its partner.
-/

namespace GridQuery
set_option autoImplicit false

open GridQuery.Parser

/-! ### All tokens but the last -/

/-- All tokens but the last `k`, with other places. -/
def front (k : Nat) (g : Nat → Nat) (ts : List Token) : List Token :=
  (ts.rdrop k).map (Token.move g)

section

variable {k : Nat} {g : Nat → Nat}

theorem front_cons {r : List Token} (h : k ≤ r.length) (t : Token) :
    front k g (t :: r) = t.move g :: front k g r := by
  rw [front, rdrop_cons h, List.map_cons, front]

theorem front_of_length_le {ts : List Token} (h : ts.length ≤ k) : front k g ts = [] := by
  rw [front, rdrop_of_length_le h, List.map_nil]

theorem front_drop (ts : List Token) (n : Nat) : front k g (ts.drop n) = (front k g ts).drop n := by
  rw [front, front, rdrop_drop, List.map_drop]

theorem front_append {us : List Token} (h : k ≤ us.length) (ts : List Token) :
    front k g (ts ++ us) = ts.map (Token.move g) ++ front k g us := by
  rw [front, List.rdrop_append_of_le_length k h, List.map_append, front]

@[simp] theorem front_zero (ts : List Token) : front 0 g ts = ts.map (Token.move g) := by
  rw [front, List.rdrop_zero]

theorem exists_front (g : Nat → Nat) {ts : List Token} (h : k < ts.length) :
    ∃ t r, ts = t :: r ∧ k ≤ r.length ∧ front k g ts = t.move g :: front k g r := by
  cases ts with
  | nil => cases h
  | cons t r => exact ⟨t, r, rfl, Nat.le_of_lt_succ h, front_cons (Nat.le_of_lt_succ h) t⟩

end

namespace Parser

/-! ### Looking ahead -/

/-- What is seen at the front depends on `d` tokens, and more tokens never hide it. -/
def Looks (d : Nat) (P : List Token → Bool) : Prop :=
  ∀ k g ts, (P (front k g ts) = true → P ts = true) ∧
    (P ts = true → k + d ≤ ts.length → P (front k g ts) = true)

theorem looks_atLexeme (l : Lexeme) : Looks 1 (atLexeme l) := by
  intro k g ts
  by_cases hk : k < ts.length
  · obtain ⟨t, r, rfl, -, hfront⟩ := exists_front g hk
    rw [hfront]
    exact ⟨id, fun h _ => h⟩
  · rw [front_of_length_le (Nat.le_of_not_lt hk)]
    exact ⟨fun h => (nomatch h), fun _ h => absurd h hk⟩

theorem looks_atSubquery : Looks 2 atSubquery := by
  intro k g ts
  by_cases hk : k < ts.length
  · obtain ⟨t, r, rfl, -, hfront⟩ := exists_front g hk
    rw [hfront]
    by_cases hr : k < r.length
    · obtain ⟨u, r, rfl, -, hfront⟩ := exists_front g hr
      rw [hfront]
      exact ⟨id, fun h _ => h⟩
    · rw [front_of_length_le (Nat.le_of_not_lt hr)]
      exact ⟨fun h => (nomatch h), fun _ h => absurd (Nat.lt_of_succ_lt_succ h) hr⟩
  · rw [front_of_length_le (Nat.le_of_not_lt hk)]
    exact ⟨fun h => (nomatch h), fun _ h => absurd (Nat.lt_of_succ_lt h) hk⟩

theorem atConditionEnd_front {k : Nat} {g : Nat → Nat} {ts : List Token}
    (h : atConditionEnd ts = true) : atConditionEnd (front k g ts) = true := by
  by_cases hk : k < ts.length
  · obtain ⟨t, r, rfl, -, hfront⟩ := exists_front g hk
    rw [hfront]
    exact h
  · rw [front_of_length_le (Nat.le_of_not_lt hk)]
    rfl

/-! ### The same reading without the last tokens -/

/-- Where the first step leaves `k` tokens or more, an end of those that it had, the second one gives the
same value and leaves what the first does but the last `k`. -/
def Mirrors {α : Type} (k : Nat) (g : Nat → Nat) (ts : List Token) (F : Prop)
    (x y : Except QueryError (Reading α)) : Prop :=
  ∀ r, x = .ok r → r.2 <:+ ts ∧ (F → k ≤ r.2.length → y = .ok (r.1, front k g r.2))

namespace Mirrors

variable {α β : Type} {k : Nat} {g : Nat → Nat} {ts us : List Token} {F F' : Prop}
  {x x' y y' : Except QueryError (Reading α)}

theorem ok (v : α) (ts : List Token) : Mirrors k g ts F (.ok (v, ts)) (.ok (v, front k g ts)) := by
  rintro _ ⟨⟩
  exact ⟨List.suffix_rfl, fun _ _ => rfl⟩

theorem error (e : QueryError) : Mirrors k g ts F (.error e) y := by
  rintro _ ⟨⟩

theorem imp (h : Mirrors k g ts F x y) (hF : F' → F) : Mirrors k g ts F' x y :=
  fun r hr => ⟨(h r hr).1, fun hf => (h r hr).2 (hF hf)⟩

theorem suffix (h : Mirrors k g us F x y) (hus : us <:+ ts) : Mirrors k g ts F x y :=
  fun r hr => ⟨(h r hr).1.trans hus, (h r hr).2⟩

theorem congr (h : Mirrors k g ts F x y') (hy : F → y = y') : Mirrors k g ts F x y :=
  fun r hr => ⟨(h r hr).1, fun hF hk => (hy hF).trans ((h r hr).2 hF hk)⟩

theorem bind {f f' : Reading α → Except QueryError (Reading β)} (hx : Mirrors k g ts F x y)
    (hf : ∀ v us, us <:+ ts → Mirrors k g us F (f (v, us)) (f' (v, front k g us))) :
    Mirrors k g ts F (x >>= f) (y >>= f') := by
  cases x with
  | error e => exact error e
  | ok r =>
    obtain ⟨v, us⟩ := r
    obtain ⟨hus, hy⟩ := hx _ rfl
    intro s hs
    obtain ⟨hrest, hs'⟩ := hf v us hus s hs
    refine ⟨hrest.trans hus, fun hF hk => ?_⟩
    rw [hy hF (hk.trans hrest.length_le)]
    exact hs' hF hk

theorem map {f : Reading α → Reading β} (hx : Mirrors k g ts F x y)
    (hf : ∀ v us, f (v, us) = ((f (v, us)).1, us)) (hf' : ∀ v us vs, (f (v, us)).1 = (f (v, vs)).1) :
    Mirrors k g ts F (x.map f) (y.map f) := by
  change Mirrors k g ts F (x >>= fun r => .ok (f r)) (y >>= fun r => .ok (f r))
  refine hx.bind fun v us _ => ?_
  rw [hf v us, hf v (front k g us), hf' v (front k g us) us]
  exact ok _ us

theorem ite {c : Prop} [Decidable c] (hx : c → Mirrors k g ts F x y)
    (hx' : ¬ c → Mirrors k g ts F x' y') :
    Mirrors k g ts F (if c then x else x') (if c then y else y') := by
  split
  · exact hx ‹_›
  · exact hx' ‹_›

theorem ite_left {c : Prop} [Decidable c] (hx : c → Mirrors k g ts F x y)
    (hx' : ¬ c → Mirrors k g ts F x' y) : Mirrors k g ts F (if c then x else x') y := by
  split
  · exact hx ‹_›
  · exact hx' ‹_›

/-- Nothing is claimed of what takes tokens from the last `k`. -/
theorem of_shorter (hx : Yields (fun r => r.2 <:+ ts ∧ r.2.length < ts.length) x)
    (h : k < ts.length → Mirrors k g ts F x y) : Mirrors k g ts F x y := by
  by_cases hk : k < ts.length
  · exact h hk
  · intro r hr
    obtain ⟨hrest, hlt⟩ := hx r hr
    exact ⟨hrest, fun _ hk' => absurd (Nat.lt_of_le_of_lt hk' hlt) hk⟩

theorem of_takes (hx : Yields (fun r => Takes ts r.2) x) (h : k < ts.length → Mirrors k g ts F x y) :
    Mirrors k g ts F x y :=
  of_shorter (hx.imp fun _ hr => ⟨hr.suffix, hr.length_lt⟩) h

/-- A choice by what is seen at the front, where the one for which something must be seen takes it. -/
theorem look {d : Nat} {P : List Token → Bool} (hP : Looks d P)
    (htake : P ts = true → Yields (fun r => r.2.length + d ≤ ts.length) x)
    (hx : P ts = true → Mirrors k g ts F x y) (hx' : P ts = false → Mirrors k g ts F x' y') :
    Mirrors k g ts F (if P ts = true then x else x') (if P (front k g ts) = true then y else y') := by
  obtain ⟨hmore, hless⟩ := hP k g ts
  cases hts : P ts with
  | true =>
    rw [if_pos rfl]
    intro r hr
    obtain ⟨hrest, hy⟩ := hx hts r hr
    refine ⟨hrest, fun hF hk => ?_⟩
    have htaken := htake hts r hr
    rw [if_pos (hless hts (by omega))]
    exact hy hF hk
  | false =>
    have hfront : P (front k g ts) = false := by
      cases hc : P (front k g ts) with
      | true => rw [hmore hc] at hts; cases hts
      | false => rfl
    rw [if_neg Bool.false_ne_true, hfront, if_neg Bool.false_ne_true]
    exact hx' hts

/-- A step behind the token at the front. -/
theorem passed (hne : ts ≠ []) (hx : Mirrors k g (ts.drop 1) (F ∧ k < ts.length) x y)
    (hy : k < ts.length → y' = y) : Mirrors k g ts F x y' := by
  intro r hr
  obtain ⟨hrest, h⟩ := hx r hr
  refine ⟨hrest.trans (List.drop_suffix 1 ts), fun hF hk => ?_⟩
  have hlength := hrest.length_le
  have hpos := List.length_pos_iff.2 hne
  rw [List.length_drop] at hlength
  have hlt : k < ts.length := by omega
  rw [hy hlt]
  exact h ⟨hF, hlt⟩ hk

/-- A choice by the token at the front, which is passed over where it is the one looked for. -/
theorem word {l : Lexeme} (hx : Mirrors k g (ts.drop 1) (F ∧ k < ts.length) x y)
    (hx' : Mirrors k g ts F x' y') :
    Mirrors k g ts F (if atLexeme l ts = true then x else x')
      (if atLexeme l (front k g ts) = true then y else y') := by
  obtain ⟨hmore, hless⟩ := looks_atLexeme l k g ts
  refine .ite_left (fun hl => ?_) fun hl => ?_
  · obtain ⟨t, r, rfl, -⟩ := exists_of_atLexeme hl
    exact hx.passed (List.cons_ne_nil t r) fun hk => if_pos (hless hl hk)
  · rw [if_neg fun h => hl (hmore h)]
    exact hx'

end Mirrors

/-! ### A bracket at the front of a condition -/

/-- What stands behind the left side of a comparison. -/
def comparisonBehind (p : Place) (n : Nat) (left : Expr) (negated : Bool) (ts : List Token) :
    Except QueryError (Reading Condition) :=
  if atKeyword .between ts then do
    let (low, ts) ← expr p n 0 (ts.drop 1)
    let ts ← expectKeyword p .and_ ts
    let (high, ts) ← expr p n 0 ts
    let range := (Condition.compare .gtEq left low).combine .and (.compare .ltEq left high)
    .ok (if negated then .not range else range, ts)
  else do
    let (op, ts) ← comparison p negated ts
    let (right, ts) ← if op = .isIn ∨ op = .notIn then members p n ts else expr p n 0 ts
    .ok (.compare op left right, ts)

theorem comparisonFrom_eq (p : Place) (n : Nat) (ts : List Token) :
    comparisonFrom p (n + 1) ts = (do
      let r ← expr p n 0 ts
      if atKeyword .not_ r.2 then comparisonBehind p n r.1 true (r.2.drop 1)
      else comparisonBehind p n r.1 false r.2) := by
  rw [comparisonFrom]
  congr 1
  funext r
  cases h : atKeyword .not_ r.2 with
  | true => simp only [comparisonBehind, h, if_true]
  | false => simp only [comparisonBehind, h, Bool.false_eq_true, if_false]

variable {p : Place} {n : Nat}

theorem not_conditionEnd_of_keyword {k : Keyword} {ts : List Token} (h : atKeyword k ts = true)
    (hk : k = .not_ ∨ k = .between) : atConditionEnd ts = false := by
  obtain ⟨t, r, rfl, ht⟩ := exists_of_atLexeme h
  rcases hk with rfl | rfl
  all_goals simp [atConditionEnd, ht]

theorem not_conditionEnd_of_comparison {negated : Bool} {ts : List Token} {r : Reading Comparison}
    (h : comparison p negated ts = .ok r) : atConditionEnd ts = false := by
  cases ts with
  | nil => cases h
  | cons t us =>
    simp only [comparison] at h
    cases hop : comparisonOf t.lexeme with
    | none =>
      rw [hop] at h
      cases h
    | some op =>
      unfold comparisonOf at hop
      split at hop
      all_goals first
        | (simp [atConditionEnd, *]; done)
        | cases hop

theorem not_conditionEnd_of_binary {ts : List Token} {b : BinaryOp × Nat × Nat}
    (h : (ts.head?.bind fun t => binaryOf t.lexeme) = some b) : atConditionEnd ts = false := by
  cases ts with
  | nil => cases h
  | cons t us =>
    have hop : binaryOf t.lexeme = some b := h
    unfold binaryOf at hop
    split at hop
    all_goals first
      | (simp [atConditionEnd, *]; done)
      | cases hop

theorem not_conditionEnd_of_comparisonBehind {left : Expr} {negated : Bool} {ts : List Token}
    {r : Reading Condition} (h : comparisonBehind p n left negated ts = .ok r) :
    atConditionEnd ts = false := by
  unfold comparisonBehind at h
  split at h
  · exact not_conditionEnd_of_keyword ‹_› (.inr rfl)
  · obtain ⟨op, hop, -⟩ := bind_eq_ok.mp h
    exact not_conditionEnd_of_comparison hop

/-- A comparison with a bracket at its front goes on behind the partner of the bracket, where no condition
may end. -/
theorem comparisonFrom_bracket {t : Token} {r : List Token} {v : Reading Condition}
    (h : comparisonFrom p n (t :: r) = .ok v) (ht : t.lexeme = .leftParen)
    (hsub : atSubquery (t :: r) = false) :
    ∃ inner u us, Closed inner ∧ u.lexeme = .rightParen ∧ r = inner ++ u :: us ∧
      atConditionEnd us = false := by
  obtain _ | n := n
  · cases h
  rw [comparisonFrom_eq] at h
  obtain ⟨⟨left, us'⟩, hleft, hbehind⟩ := bind_eq_ok.mp h
  obtain _ | n := n
  · cases hleft
  rw [expr] at hleft
  obtain ⟨⟨first, us⟩, hfirst, hmore⟩ := bind_eq_ok.mp hleft
  -- The bracket is an operand that ends with its partner.
  have hpartner : ∃ inner u, Closed inner ∧ u.lexeme = .rightParen ∧ r = inner ++ u :: us := by
    obtain _ | n := n
    · cases hfirst
    rw [operand] at hfirst
    simp only [ht, signOf, atom?, hsub, Bool.false_eq_true, if_false] at hfirst
    obtain ⟨⟨e, vs⟩, he, hrest⟩ := bind_eq_ok.mp hfirst
    obtain ⟨ws, hws, hok⟩ := bind_eq_ok.mp hrest
    cases hok
    obtain ⟨u, hu, rfl⟩ := expect_cons hws
    obtain ⟨⟨a, -, ha, heq⟩, -⟩ := (readersDraw p.source r n).expr p.stop 0 r List.infix_rfl _ he
    exact ⟨a, u, ha.closed, hu, heq⟩
  obtain ⟨inner, u, hclosed, hu, rfl⟩ := hpartner
  refine ⟨inner, u, us, hclosed, hu, rfl, ?_⟩
  obtain _ | n := n
  · cases hmore
  dsimp only at hmore
  rw [moreOperands] at hmore
  cases hop : us.head?.bind fun t => binaryOf t.lexeme with
  | some b => exact not_conditionEnd_of_binary hop
  | none =>
    rw [hop] at hmore
    cases hmore
    dsimp only at hbehind
    split at hbehind
    · exact not_conditionEnd_of_keyword ‹_› (.inl rfl)
    · exact not_conditionEnd_of_comparisonBehind hbehind

/-- Where a comparison can be read, a condition in its first bracket does not stand. -/
theorem predicate_of_comparisonFrom {ts : List Token} {r : Reading Condition}
    (h : comparisonFrom p n ts = .ok r) (hexists : atKeyword .exists_ ts = false) :
    predicate p (n + 1) ts = .ok r := by
  rw [predicate, hexists, if_neg Bool.false_ne_true]
  split
  · rename_i hopen
    simp only [Bool.and_eq_true, Bool.not_eq_true'] at hopen
    obtain ⟨t, us, rfl, ht⟩ := exists_of_atLexeme hopen.1
    obtain ⟨inner, u, vs, hclosed, hu, rfl, hend⟩ := comparisonFrom_bracket h ht hopen.2
    split
    · rename_i c rest hc
      rw [if_neg, h]
      intro hstands
      obtain ⟨hright, hstop⟩ := (Bool.and_eq_true ..).mp hstands
      obtain ⟨w, ws, rfl, hw⟩ := exists_of_atLexeme hright
      obtain ⟨⟨a, -, ha, heq⟩, -⟩ :=
        (readersDraw p.source (inner ++ u :: vs) n).condition p.stop _ List.infix_rfl _ hc
      have hsame : splitClose 0 (inner ++ u :: vs) = some (inner, vs) := hclosed.splitClose hu
      rw [show inner ++ u :: vs = a ++ w :: ws from heq, ha.closed.splitClose hw] at hsame
      cases hsame
      rw [List.drop_one, List.tail_cons, hend] at hstop
      cases hstop
    · exact h
  · exact h

/-! ### The parts of readers -/

section

variable {α : Type} {k : Nat} {g : Nat → Nat} {ts : List Token} {F : Prop} (p q : Place)

theorem atLexeme_front (h : k < ts.length) (l : Lexeme) :
    atLexeme l (front k g ts) = atLexeme l ts := by
  obtain ⟨t, r, rfl, -, hfront⟩ := exists_front g h
  rw [hfront]
  rfl

theorem Mirrors.expect {l : Lexeme} {expected : String}
    {f f' : List Token → Except QueryError (Reading α)}
    (hf : ∀ us, us <:+ ts → Mirrors k g us F (f us) (f' (front k g us))) :
    Mirrors k g ts F (Parser.expect p l expected ts >>= f)
      (Parser.expect q l expected (front k g ts) >>= f') := by
  intro r hr
  obtain ⟨us, hus, hread⟩ := bind_eq_ok.mp hr
  obtain ⟨t, ht, rfl⟩ := expect_cons hus
  obtain ⟨hrest, hy⟩ := hf us (List.suffix_cons t us) r hread
  refine ⟨hrest.trans (List.suffix_cons t us), fun hF hk => ?_⟩
  have hfront : Parser.expect q l expected (front k g (t :: us)) = .ok (front k g us) := by
    rw [front_cons (hk.trans hrest.length_le)]
    exact if_pos ht
  rw [hfront]
  exact hy hF hk

theorem mirrors_name (expected : String) :
    Mirrors k g ts F (name p expected ts) (name q expected (front k g ts)) := by
  refine .of_takes (name_takes p expected ts) fun hk => ?_
  obtain ⟨t, r, rfl, -, hfront⟩ := exists_front g hk
  rw [hfront]
  simp only [name, Token.move_lexeme]
  split
  · exact (Mirrors.ok _ r).suffix (List.suffix_cons t r)
  · exact (Mirrors.ok _ r).suffix (List.suffix_cons t r)
  · exact .error _

theorem mirrors_optionalAlias :
    Mirrors k g ts F (optionalAlias p ts) (optionalAlias q (front k g ts)) := by
  have hnone : ∀ {us : List Token}, us.length ≤ k →
      Mirrors k g us F (.ok (none, us)) (optionalAlias q (front k g us)) := by
    rintro us hk _ ⟨⟩
    refine ⟨List.suffix_rfl, fun _ _ => ?_⟩
    rw [front_of_length_le hk]
    rfl
  cases ts with
  | nil => exact hnone (Nat.zero_le k)
  | cons t r =>
    have htail := List.suffix_cons t r
    by_cases hk : k ≤ r.length
    · rw [front_cons hk]
      simp only [optionalAlias, Token.move_lexeme]
      split
      · exact ((mirrors_name p q _).map (fun _ _ => rfl) fun _ _ _ => rfl).suffix htail
      · exact (Mirrors.ok _ r).suffix htail
      · rw [← front_cons hk]
        exact .ok none (t :: r)
    · have hshort : ∀ {x : Except QueryError (Reading (Option String))} {y},
          Yields (fun a => a.2 <:+ r) x → Mirrors k g (t :: r) F x y := by
        intro x y hx a ha
        exact ⟨(hx a ha).trans htail, fun _ hk' => absurd (hk'.trans (hx a ha).length_le) hk⟩
      rw [optionalAlias]
      split
      · exact hshort ((name_takes p _ r).map fun a ha => ha.suffix)
      · exact hshort (Yields.ok List.suffix_rfl)
      · exact hnone (Nat.lt_of_not_le hk)

theorem mirrors_comparison (negated : Bool) :
    Mirrors k g ts F (comparison p negated ts) (comparison q negated (front k g ts)) := by
  refine .of_takes (comparison_takes p negated ts) fun hk => ?_
  obtain ⟨t, r, rfl, -, hfront⟩ := exists_front g hk
  have htail := List.suffix_cons t r
  rw [hfront]
  simp only [comparison, Token.move_lexeme]
  split
  · exact .error _
  · rename_i op _
    refine .ite (fun _ => ?_) fun _ => ?_
    · split
      · exact (Mirrors.ok _ r).suffix htail
      · exact (Mirrors.ok _ r).suffix htail
      · exact .error _
    · by_cases hop : op = .is
      · simp only [hop, true_and, ← front_drop]
        exact (Mirrors.word (.ok _ _) (.ok _ r)).suffix htail
      · simp only [hop, false_and, if_false]
        exact (Mirrors.ok _ r).suffix htail

theorem mirrors_qualified (table : String) :
    Mirrors k g ts F (qualified p table ts) (qualified q table (front k g ts)) := by
  refine .of_takes ((qualified_takes p table ts).imp fun _ h => h.1) fun hk => ?_
  obtain ⟨t, r, rfl, -, hfront⟩ := exists_front g hk
  have htail := List.suffix_cons t r
  rw [hfront]
  simp only [qualified, Token.move_lexeme]
  split
  · exact (Mirrors.ok _ r).suffix htail
  · exact (Mirrors.ok _ r).suffix htail
  · exact (Mirrors.ok _ r).suffix htail
  · exact .error _

theorem mirrors_rowCount (stop stop' : Nat) (ts : List Token) :
    Mirrors 0 g ts True (rowCount stop ts) (rowCount stop' (front 0 g ts)) := by
  rw [front_zero]
  cases ts with
  | nil => exact .error _
  | cons t r =>
    simp only [List.map_cons, rowCount, Token.move_lexeme]
    split
    · rw [← front_zero]
      exact (Mirrors.ok _ r).suffix (List.suffix_cons t r)
    · exact .error _

theorem distinctMark_front (h : k < ts.length) :
    distinctMark (front k g ts) = ((distinctMark ts).1, front k g (distinctMark ts).2) := by
  simp only [distinctMark, atKeyword, atLexeme_front h, ← front_drop]
  by_cases hdistinct : atLexeme (.keyword .distinct) ts = true
  · simp [hdistinct]
  · by_cases hall : atLexeme (.keyword .all) ts = true
    · simp [hdistinct, hall]
    · simp [hdistinct, hall]

end

end Parser

end GridQuery
