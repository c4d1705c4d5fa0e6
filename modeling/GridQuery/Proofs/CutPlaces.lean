import GridQuery.Proofs.Splitting
import GridQuery.Proofs.TokenPlaces

/-!
Places where tokens are cut. A statement is cut into operands and an operand into clauses by the numbers of the
tokens: the depths of all tokens first, then the places where set operators or clauses begin, then the slices
between them. With every number checked the cuts are the same, so none is outside of the tokens, also where
brackets have no partner or words stand at the end.
-/

namespace GridQuery
set_option autoImplicit false

open GridQuery.Parser

namespace Parser

theorem slice?_length {T U : List Token} {start stop : Nat} (h : slice? T start stop = some U) :
    U.length = stop - start ∧ stop ≤ T.length := by
  unfold slice? at h
  split at h
  · cases h
    simp only [List.length_drop, List.length_take]
    omega
  · cases h

/-! ### Brackets around all tokens -/

/-- The tokens without the pairs of brackets around all of them. -/
def stripped? (T : List Token) : Option (List Token) :=
  if 2 ≤ T.length then
    match T[0]?, T[T.length - 1]? with
    | some first, some last =>
      if first.lexeme = .leftParen ∧ last.lexeme = .rightParen then
        match closing? 0 0 T with
        | none => none
        | some none => some T
        | some (some place) =>
          if place = T.length - 1 then
            match _h : slice? T 1 place with
            | none => none
            | some inner => stripped? inner
          else some T
      else some T
    | _, _ => none
  else some T
termination_by T.length
decreasing_by
  have := slice?_length _h
  omega

theorem stripParens_open {fuel : Nat} {t : Token} {r : List Token} (ht : t.lexeme = .leftParen) :
    stripParens (fuel + 1) (t :: r) =
      match splitClose 0 r with
      | some (inner, []) => stripParens fuel inner
      | _ => t :: r :=
  if_pos ht

theorem stripParens_shut {fuel : Nat} {t : Token} {r : List Token} (ht : t.lexeme ≠ .leftParen) :
    stripParens (fuel + 1) (t :: r) = t :: r := by
  rw [stripParens, if_neg ht]

theorem stripParens_short {fuel : Nat} {ts : List Token} (h : ts.length < 2) : stripParens fuel ts = ts := by
  cases fuel with
  | zero => rfl
  | succ fuel =>
    match ts, h with
    | [], _ => rfl
    | [t], _ =>
      by_cases ht : t.lexeme = .leftParen
      · rw [stripParens_open ht]
        rfl
      · exact stripParens_shut ht

/-- The first and the last token decide alone unless they are brackets; then the partner of the first does. -/
theorem stripped?_eq {fuel : Nat} {T : List Token} (h : T.length ≤ fuel) :
    stripped? T = some (stripParens fuel T) := by
  induction hn : T.length using Nat.strongRecOn generalizing T fuel with
  | ind n ih =>
    by_cases hlong : 2 ≤ T.length
    · obtain ⟨t, r, rfl⟩ : ∃ t r, T = t :: r := List.exists_cons_of_length_pos (by omega)
      obtain ⟨fuel, rfl⟩ : ∃ f, fuel = f + 1 := ⟨fuel - 1, by omega⟩
      obtain ⟨last, hlast⟩ : ∃ last, (t :: r)[(t :: r).length - 1]? = some last :=
        ⟨_, List.getElem?_eq_getElem (by omega)⟩
      rw [stripped?, if_pos hlong, hlast]
      dsimp only [List.getElem?_cons_zero]
      by_cases ht : t.lexeme = .leftParen
      · rw [closing?_open ht, stripParens_open ht]
        cases hsplit : splitClose 0 r with
        | none => split <;> rfl
        | some parts =>
          obtain ⟨inner, rest⟩ := parts
          obtain ⟨hinner, -, hlength⟩ := closing?_cut (List.drop_zero (l := t :: r)) hsplit
          obtain ⟨u, hu, rfl, -⟩ := splitClose_passes hsplit
          dsimp only [Option.map_some]
          rw [Nat.zero_add] at hinner hlength ⊢
          cases rest with
          | nil =>
            have hplace : 1 + inner.length = (t :: (inner ++ [u])).length - 1 := by
              rw [hlength, List.length_nil]
              omega
            have hclose : last.lexeme = .rightParen := by
              rw [← hplace, Nat.add_comm, List.getElem?_cons_succ, List.getElem?_concat_length] at hlast
              rw [← Option.some.inj hlast, hu]
            rw [if_pos ⟨ht, hclose⟩, if_pos hplace]
            split
            · rename_i hnone
              rw [hinner] at hnone
              cases hnone
            · rename_i inner' hsome
              rw [hinner] at hsome
              cases hsome
              exact ih inner.length (by rw [← hn, hlength, List.length_nil]; omega)
                (by rw [hlength, List.length_nil] at h; omega) rfl
          | cons v rest =>
            have hplace : ¬1 + inner.length = (t :: (inner ++ u :: v :: rest)).length - 1 := by
              rw [hlength, List.length_cons]
              omega
            rw [if_neg hplace]
            split <;> rfl
      · rw [if_neg fun hboth => ht hboth.1, stripParens_shut ht]
    · rw [stripped?, if_neg hlong, stripParens_short (by omega)]

/-! ### Depths -/

/-- The depth of every token: that before it, and for a closing bracket that behind it. -/
def depthsFrom (depth start stop : Nat) : List Token → Except QueryError (List Nat)
  | [] => if depth = 0 then .ok [] else .error (.unbalanced start stop)
  | t :: r =>
    match t.lexeme with
    | .leftParen => (depthsFrom (depth + 1) t.start t.stop r).map fun depths => depth :: depths
    | .rightParen =>
      if depth = 0 then .error (.unbalanced t.start t.stop)
      else (depthsFrom (depth - 1) t.start t.stop r).map fun depths => (depth - 1) :: depths
    | _ => (depthsFrom depth t.start t.stop r).map fun depths => depth :: depths

theorem depthsFrom_cons (depth start stop : Nat) (t : Token) (r : List Token) :
    depthsFrom depth start stop (t :: r) =
      if t.lexeme = .rightParen ∧ depth = 0 then .error (.unbalanced t.start t.stop)
      else (depthsFrom (depthAfter depth t) t.start t.stop r).map fun depths =>
        min depth (depthAfter depth t) :: depths := by
  rw [depthsFrom]
  split
  · rename_i ht
    have hdepth : depthAfter depth t = depth + 1 := by rw [depthAfter, ht]
    rw [if_neg (by simp [ht]), hdepth, Nat.min_eq_left (Nat.le_succ depth)]
  · rename_i ht
    have hdepth : depthAfter depth t = depth - 1 := by rw [depthAfter, ht]
    simp only [ht, true_and, hdepth, Nat.min_eq_right (Nat.sub_le depth 1)]
  · rename_i hleft hright
    have hdepth : depthAfter depth t = depth := by
      unfold depthAfter
      split
      · exact absurd ‹_› hleft
      · exact absurd ‹_› hright
      · rfl
    rw [if_neg fun h => hright h.1, hdepth, Nat.min_self]

/-- The depths are there exactly if every bracket has its partner. -/
theorem checkBalance_go_eq (depth start stop : Nat) (ts : List Token) :
    checkBalance.go depth start stop ts = (depthsFrom depth start stop ts).map fun _ => () := by
  induction ts generalizing depth start stop with
  | nil =>
    unfold checkBalance.go depthsFrom
    split <;> rfl
  | cons t r ih =>
    rw [depthsFrom_cons, checkBalance.go, ih]
    split
    · rfl
    · cases depthsFrom (depthAfter depth t) t.start t.stop r <;> rfl

/-- From a number on the depths are those of the tokens from there, which begin at a depth. -/
def Deep (T : List Token) (depths : List Nat) (i depth : Nat) : Prop :=
  ∃ start stop, depthsFrom depth start stop (T.drop i) = .ok (depths.drop i)

namespace Deep

variable {T r : List Token} {depths : List Nat} {i depth : Nat} {t : Token}

theorem next (h : Deep T depths i depth) (hdrop : T.drop i = t :: r) :
    depths[i]? = some (min depth (depthAfter depth t)) ∧ Deep T depths (i + 1) (depthAfter depth t) := by
  obtain ⟨start, stop, h⟩ := h
  rw [hdrop, depthsFrom_cons] at h
  split at h
  · cases h
  · cases hrest : depthsFrom (depthAfter depth t) t.start t.stop r with
    | error e =>
      rw [hrest] at h
      cases h
    | ok rest =>
      rw [hrest] at h
      have hdepths : depths.drop i = min depth (depthAfter depth t) :: rest := (Except.ok.inj h).symm
      refine ⟨?_, t.start, t.stop, ?_⟩
      · rw [← List.head?_drop, hdepths]
        rfl
      · obtain ⟨-, -, hbehind⟩ := place_of_drop hdrop
        rw [hbehind, hrest, ← List.tail_drop, hdepths]
        rfl

/-- Keywords leave the depth as it is. -/
theorem words (h : Deep T depths i depth) {width : Nat} (hwidth : i + width ≤ T.length)
    (hwords : ∀ t ∈ (T.drop i).take width, t.keyword?.isSome = true) : Deep T depths (i + width) depth := by
  induction width generalizing i with
  | zero => exact h
  | succ width ih =>
    obtain ⟨t, r, hdrop⟩ : ∃ t r, T.drop i = t :: r :=
      List.exists_cons_of_length_pos (by rw [List.length_drop]; omega)
    rw [hdrop, List.take_succ_cons] at hwords
    obtain ⟨ht, hr⟩ := List.forall_mem_cons.1 hwords
    obtain ⟨-, -, hbehind⟩ := place_of_drop hdrop
    obtain ⟨-, hnext⟩ := h.next hdrop
    rw [depthAfter_keyword ht] at hnext
    have hgo := ih hnext (by omega) (by rw [hbehind]; exact hr)
    rwa [Nat.add_assoc, Nat.add_comm 1 width] at hgo

end Deep

/-! ### Operands by number -/

/-- Work with the numbers of tokens, which has no outcome once a number is outside of them. -/
abbrev ByPlace (α : Type) := ExceptT QueryError Option α

namespace ByPlace

variable {α β : Type}

/-- What a number gives. -/
def look (x : Option α) : ByPlace α :=
  ExceptT.lift x

/-- What does without numbers. -/
def plain (x : Except QueryError α) : ByPlace α :=
  ExceptT.mk (some x)

theorem run_bind_ok {x : ByPlace α} {a : α} (h : x.run = some (.ok a)) (f : α → ByPlace β) :
    (x >>= f).run = (f a).run := by
  change x.run.bind _ = _
  rw [h]
  rfl

theorem run_bind_error {x : ByPlace α} {e : QueryError} (h : x.run = some (.error e)) (f : α → ByPlace β) :
    (x >>= f).run = some (.error e) := by
  change x.run.bind _ = _
  rw [h]
  rfl

theorem run_bind {x : ByPlace α} {y : Except QueryError α} {f : α → ByPlace β} {g : α → Except QueryError β}
    (hx : x.run = some y) (hf : ∀ a, y = .ok a → (f a).run = some (g a)) : (x >>= f).run = some (y >>= g) := by
  cases y with
  | ok a => exact (run_bind_ok hx f).trans (hf a rfl)
  | error e => exact run_bind_error hx f

/-- Where what is given depends on no value, only on whether there is one. -/
theorem run_bind_map {γ : Type} {x : ByPlace α} {y : Except QueryError γ} {a : α} {f : α → ByPlace β}
    {z : Except QueryError β} (hx : x.run = some (y.map fun _ => a)) (hf : (f a).run = some z) :
    (x >>= f).run = some (y >>= fun _ => z) := by
  cases y with
  | ok _ => exact (run_bind_ok hx f).trans hf
  | error e => exact run_bind_error hx f

theorem run_look {x : Option α} {a : α} (h : x = some a) (f : α → ByPlace β) :
    (look x >>= f).run = (f a).run := by
  rw [h]
  rfl

end ByPlace

/-- The set operator at a token, and how many tokens its words are. -/
def operatorAt (t : Token) (next : Option Token) : Option (SetOperator × Nat) :=
  match t.lexeme with
  | .keyword .union =>
    match next with
    | some u => if u.lexeme = .keyword .all then some (.unionAll, 2) else some (.union, 1)
    | none => some (.union, 1)
  | .keyword .intersect => some (.intersect, 1)
  | .keyword .except => some (.except, 1)
  | _ => none

theorem setOperator?_eq (t : Token) (r : List Token) :
    setOperator? (t :: r) = (operatorAt t r.head?).map fun o => (o.1, (t :: r).drop o.2) := by
  simp only [setOperator?]
  split
  · rename_i ht
    cases r with
    | nil => simp only [operatorAt, ht, List.head?_nil, Option.map_some, List.drop_succ_cons, List.drop_zero]
    | cons u r =>
      simp only [operatorAt, ht, List.head?_cons]
      split <;> rfl
  · rename_i ht
    simp only [operatorAt, ht, Option.map_some, List.drop_succ_cons, List.drop_zero]
  · rename_i ht
    simp only [operatorAt, ht, Option.map_some, List.drop_succ_cons, List.drop_zero]
  · rename_i hunion hintersect hexcept
    have hnone : operatorAt t r.head? = none := by
      unfold operatorAt
      split
      · exact absurd ‹_› hunion
      · exact absurd ‹_› hintersect
      · exact absurd ‹_› hexcept
      · rfl
    rw [hnone, Option.map_none]

theorem operatorAt_words {t : Token} {r : List Token} {op : SetOperator} {width : Nat}
    (h : operatorAt t r.head? = some (op, width)) :
    width ≤ (t :: r).length ∧ ∀ u ∈ (t :: r).take width, u.keyword?.isSome = true := by
  unfold operatorAt at h
  split at h
  · rename_i ht
    split at h
    · rename_i u hu
      obtain ⟨r, rfl⟩ := List.head?_eq_some_iff.1 hu
      split at h
      · rename_i hall
        cases h
        simp [Token.keyword?, ht, hall]
      · cases h
        simp [Token.keyword?, ht]
    · cases h
      simp [Token.keyword?, ht]
  · rename_i ht
    cases h
    simp [Token.keyword?, ht]
  · rename_i ht
    cases h
    simp [Token.keyword?, ht]
  · cases h

theorem operatorAt_keyword {t : Token} {next : Option Token} {o : SetOperator × Nat}
    (h : operatorAt t next = some o) : t.keyword?.isSome = true := by
  unfold operatorAt at h
  split at h
  all_goals first
    | (rename_i ht; rw [Token.keyword?, ht]; rfl)
    | cases h

theorem operatorAt_pos {t : Token} {next : Option Token} {op : SetOperator} {width : Nat}
    (h : operatorAt t next = some (op, width)) : 0 < width := by
  unfold operatorAt at h
  repeat' split at h
  all_goals cases h
  all_goals decide

/-- The operand between two places; `first` to `last` is the place of an error. -/
def operand? (T : List Token) (pending : Option SetOperator) (start stop first last : Nat) : ByPlace Operand := do
  let written ← ByPlace.look (slice? T start stop)
  let tokens ← ByPlace.look (stripped? written)
  if tokens.isEmpty then throw (.missingSelect first last) else return ⟨pending, tokens⟩

theorem operand?_run {T : List Token} {start stop : Nat} (h : start ≤ stop) (h' : stop ≤ T.length)
    (pending : Option SetOperator) (first last : Nat) : (operand? T pending start stop first last).run =
      some (GridQuery.operand pending ((T.take stop).drop start).reverse first last) := by
  unfold operand? GridQuery.operand
  rw [ByPlace.run_look (slice?_eq h h'), ByPlace.run_look (stripped?_eq (Nat.le_refl _)), List.length_reverse,
    List.reverse_reverse]
  dsimp only
  split <;> rfl

/-- The operands from a place, the first of which began at `start`. -/
def operandsFrom? (T : List Token) (depths : List Nat) (pending : Option SetOperator) (start i : Nat) :
    ByPlace (List Operand) :=
  if i < T.length then do
    let depth ← ByPlace.look depths[i]?
    let t ← ByPlace.look T[i]?
    match _h : (if depth = 0 then operatorAt t T[i + 1]? else none) with
    | some (op, width) => do
      let first ← operand? T pending start i t.start t.stop
      let others ← operandsFrom? T depths (some op) (i + width) (i + width)
      return first :: others
    | none => operandsFrom? T depths pending start (i + 1)
  else do
    let o ← operand? T pending start T.length ((T.getLast?.map Token.start).getD 0)
      ((T.getLast?.map Token.stop).getD 0)
    return [o]
termination_by T.length - i
decreasing_by
  · split at _h
    · have := operatorAt_pos _h
      omega
    · cases _h
  · omega

/-- Only keywords begin anything, so the depth before them tells as much as that behind. -/
theorem at_depth {β : Type} {t : Token} {x : Option β} (h : ∀ b, x = some b → t.keyword?.isSome = true)
    (depth : Nat) : (if min depth (depthAfter depth t) = 0 then x else none) = if depth = 0 then x else none := by
  cases hx : x with
  | none => rw [ite_self, ite_self]
  | some b => rw [depthAfter_keyword (h b hx), Nat.min_self]

theorem reverse_slice_succ {T : List Token} {start i : Nat} {t : Token} (h : start ≤ i) (ht : T[i]? = some t) :
    ((T.take (i + 1)).drop start).reverse = t :: ((T.take i).drop start).reverse := by
  obtain ⟨hin, -⟩ := List.getElem?_eq_some_iff.1 ht
  rw [List.take_add_one, ht, Option.toList_some, List.drop_append_of_le_length (by rw [List.length_take]; omega),
    List.reverse_append]
  rfl

/-- The tokens gathered are those from where the operand began. -/
theorem operandsFrom?_run {T : List Token} {depths : List Nat} {depth start i : Nat} (hstart : start ≤ i)
    (hi : i ≤ T.length) (h : Deep T depths i depth) (pending : Option SetOperator) :
    (operandsFrom? T depths pending start i).run =
      some (splitOperands depth pending ((T.take i).drop start).reverse ((T.getLast?.map Token.start).getD 0)
        ((T.getLast?.map Token.stop).getD 0) (T.drop i)) := by
  induction hn : T.length - i using Nat.strongRecOn generalizing depth start i pending with
  | ind n ih =>
    rw [operandsFrom?]
    cases hdrop : T.drop i with
    | nil =>
      have hend : i = T.length := Nat.le_antisymm hi (List.drop_eq_nil_iff.1 hdrop)
      rw [if_neg (by omega), hend, splitOperands]
      have hlast := operand?_run (hend ▸ hstart) (Nat.le_refl _) pending ((T.getLast?.map Token.start).getD 0)
        ((T.getLast?.map Token.stop).getD 0)
      exact ByPlace.run_bind hlast fun _ _ => rfl
    | cons t r =>
      obtain ⟨hin, ht, hr⟩ := place_of_drop hdrop
      obtain ⟨hdepth, hnext⟩ := h.next hdrop
      rw [if_pos hin, ByPlace.run_look hdepth, ByPlace.run_look ht, ← List.head?_drop (i := i + 1), hr]
      split
      · rename_i op width hop
        rw [at_depth (fun b hb => operatorAt_keyword hb)] at hop
        obtain ⟨rfl, hat⟩ := Option.ite_none_right_eq_some.1 hop
        obtain ⟨hwidth, hwords⟩ := operatorAt_words hat
        have hset : setOperator? (t :: r) = some (op, T.drop (i + width)) := by
          rw [setOperator?_eq, hat, ← hdrop, ← List.drop_drop]
          rfl
        rw [← hdrop] at hwidth hwords
        rw [List.length_drop] at hwidth
        have hpos := operatorAt_pos hat
        have hothers := ih _ (by omega) (Nat.le_refl _) (by omega) (h.words (by omega) hwords) (some op) rfl
        rw [List.drop_eq_nil_of_le (by rw [List.length_take]; omega), List.reverse_nil] at hothers
        rw [splitOperands_operator hset]
        refine ByPlace.run_bind (operand?_run hstart hi pending t.start t.stop) fun first _ => ?_
        exact ByPlace.run_bind hothers fun _ _ => rfl
      · rename_i hop
        rw [at_depth (fun b hb => operatorAt_keyword hb)] at hop
        have hnone : depth = 0 → setOperator? (t :: r) = none := by
          intro hzero
          rw [if_pos hzero] at hop
          rw [setOperator?_eq, hop, Option.map_none]
        have hrest := ih _ (by omega) (Nat.le_succ_of_le hstart) hin hnext pending rfl
        rw [reverse_slice_succ hstart ht, hr] at hrest
        rw [splitOperands_step hnone, hrest]

/-- The operands of a statement, cut by number. -/
def operands? (T : List Token) : ByPlace (List Operand) := do
  let depths ← ByPlace.plain (depthsFrom 0 0 0 T)
  operandsFrom? T depths none 0 0

theorem checkBalance_eq (T : List Token) : checkBalance T = (depthsFrom 0 0 0 T).map fun _ => () :=
  checkBalance_go_eq 0 0 0 T

/-- Depths first and then a part is a part that begins with a look at the brackets. -/
theorem run_depths {α : Type} {T : List Token} {f : List Nat → ByPlace α} {y : Except QueryError α}
    (h : ∀ depths, Deep T depths 0 0 → (f depths).run = some y) :
    (ByPlace.plain (depthsFrom 0 0 0 T) >>= f).run = some (checkBalance T >>= fun _ => y) := by
  rw [checkBalance_eq]
  cases hdepths : depthsFrom 0 0 0 T with
  | error e => rfl
  | ok depths => exact h depths ⟨0, 0, hdepths⟩

/-- No number is outside of the tokens while operands are cut. -/
theorem operands?_run (T : List Token) : (operands? T).run = some (operands T) :=
  run_depths fun _ h => operandsFrom?_run (Nat.le_refl 0) (Nat.zero_le _) h none

/-! ### Clauses by number -/

/-- Where clauses begin, from a place on, each with the number of its words. -/
def startsFrom? (T : List Token) (depths : List Nat) (i : Nat) : Option (List (Nat × ClauseKind × Nat)) :=
  if i < T.length then do
    let depth ← depths[i]?
    match _h : (if depth = 0 then clauseAt? (T.drop i) else none) with
    | some (kind, width) => do
      let others ← startsFrom? T depths (i + width)
      return (i, kind, width) :: others
    | none => startsFrom? T depths (i + 1)
  else return []
termination_by T.length - i
decreasing_by
  · split at _h
    · obtain ⟨hpos, -, -⟩ := clauseAt?_words _h
      omega
    · cases _h
  · omega

/-- Where the first of some clauses begins, behind all tokens if there is none. -/
def bound (T : List Token) : List (Nat × ClauseKind × Nat) → Nat
  | [] => T.length
  | (start, _) :: _ => start

/-- The clauses at some places, behind those of the kinds seen. -/
def segments? (T : List Token) (seen : List ClauseKind) : List (Nat × ClauseKind × Nat) → ByPlace (List Segment)
  | [] => return []
  | (start, kind, width) :: others => do
    let first ← ByPlace.look T[start]?
    if !kind.isJoin && seen.contains kind then throw (.duplicateClause kind.text first.start)
    else do
      let last ← ByPlace.look T[start + width - 1]?
      let held ← ByPlace.look (slice? T (start + width) (bound T others))
      let segments ← segments? T (kind :: seen) others
      return ⟨kind, first.start, last.stop, held⟩ :: segments

/-- The clauses of an operand, cut by number. -/
def clauses? (T : List Token) : ByPlace (List Segment) := do
  let depths ← ByPlace.plain (depthsFrom 0 0 0 T)
  let starts ← ByPlace.look (startsFrom? T depths 0)
  match starts.head? with
  | some (0, .select, _) => do
    let segments ← segments? T [] starts
    if segments.any fun s => s.kind == .source then return segments else throw .missingFrom
  | _ => throw (.unexpected "SELECT" (T.head?.getD ⟨.eof, 0, 0⟩))

/-- The clauses that begin at some places: their words are among the tokens, and each holds the tokens up to the
next. -/
inductive OpensAt (T : List Token) : List (Nat × ClauseKind × Nat) → List Segment → Prop where
  | nil : OpensAt T [] []
  | cons {start width : Nat} {kind : ClauseKind} {first last : Token} {starts : List (Nat × ClauseKind × Nat)}
      {segments : List Segment} :
      T[start]? = some first → T[start + width - 1]? = some last → start + width ≤ bound T starts →
      bound T starts ≤ T.length → OpensAt T starts segments →
      OpensAt T ((start, kind, width) :: starts)
        (⟨kind, first.start, last.stop, (T.take (bound T starts)).drop (start + width)⟩ :: segments)

theorem segments?_run {T : List Token} {starts : List (Nat × ClauseKind × Nat)} {segments : List Segment}
    (h : OpensAt T starts segments) (seen : List ClauseKind) :
    (segments? T seen starts).run = some ((checkRepeats seen segments).map fun _ => segments) := by
  induction h generalizing seen with
  | nil => rfl
  | cons hfirst hlast hheld hbound _ ih =>
    rename_i kind _ _ _ _ _
    rw [segments?, ByPlace.run_look hfirst, checkRepeats]
    split
    · rfl
    · rw [ByPlace.run_look hlast, ByPlace.run_look (slice?_eq hheld hbound)]
      exact ByPlace.run_bind_map (ih (kind :: seen)) rfl

theorem clauseAt?_keyword {t : Token} {r : List Token} {o : ClauseKind × Nat} (h : clauseAt? (t :: r) = some o) :
    t.keyword?.isSome = true := by
  obtain ⟨kind, width⟩ := o
  obtain ⟨hpos, -, hwords⟩ := clauseAt?_words h
  obtain ⟨width, rfl⟩ : ∃ n, width = n + 1 := ⟨width - 1, by omega⟩
  exact hwords t (by simp)

/-- Words of a clause that are passed over are not there. -/
theorem cutClauses_skip (depth skip : Nat) (ts : List Token) :
    cutClauses depth skip ts = cutClauses depth 0 (ts.drop skip) := by
  induction skip generalizing ts with
  | zero => rfl
  | succ skip ih =>
    cases ts with
    | nil => rfl
    | cons t r => exact ih r

/-- The tokens before the first clause and the clauses are those at the numbers found. -/
theorem startsFrom?_opensAt {T : List Token} {depths : List Nat} {depth i : Nat} (hi : i ≤ T.length)
    (h : Deep T depths i depth) : ∃ starts, startsFrom? T depths i = some starts ∧
      i ≤ bound T starts ∧ bound T starts ≤ T.length ∧ OpensAt T starts (cutClauses depth 0 (T.drop i)).2 ∧
      (cutClauses depth 0 (T.drop i)).1 = (T.take (bound T starts)).drop i := by
  induction hn : T.length - i using Nat.strongRecOn generalizing depth i with
  | ind n ih =>
    rw [startsFrom?]
    cases hdrop : T.drop i with
    | nil =>
      have hend : i = T.length := Nat.le_antisymm hi (List.drop_eq_nil_iff.1 hdrop)
      rw [if_neg (by omega)]
      refine ⟨[], rfl, hi, Nat.le_refl _, .nil, ?_⟩
      rw [bound, List.take_length, hdrop]
      rfl
    | cons t r =>
      obtain ⟨hin, ht, hr⟩ := place_of_drop hdrop
      obtain ⟨hdepth, hnext⟩ := h.next hdrop
      rw [if_pos hin, hdepth, Option.bind_eq_bind, Option.bind_some]
      split
      · rename_i kind width hclause
        rw [at_depth (fun b hb => clauseAt?_keyword hb)] at hclause
        obtain ⟨rfl, hat⟩ := Option.ite_none_right_eq_some.1 hclause
        obtain ⟨hpos, hwidth, hwords⟩ := clauseAt?_words hat
        obtain ⟨width, rfl⟩ : ∃ n, width = n + 1 := ⟨width - 1, by omega⟩
        rw [← hdrop] at hwidth hwords
        rw [List.length_drop] at hwidth
        obtain ⟨starts, hstarts, hle, hbound, hopens, hheld⟩ :=
          ih _ (by omega) (by omega) (h.words (by omega) hwords) rfl
        have hbehind : cutClauses 0 width r = cutClauses 0 0 (T.drop (i + (width + 1))) := by
          rw [cutClauses_skip, ← hr, List.drop_drop, Nat.add_right_comm i 1 width]
          rfl
        obtain ⟨last, hlast⟩ : ∃ last, T[i + (width + 1) - 1]? = some last :=
          ⟨_, List.getElem?_eq_getElem (by omega)⟩
        have hend : ((t :: r).take (width + 1)).getLast? = some last := by
          rw [← hdrop, getLast?_slice (Nat.succ_pos width) (by omega), hlast]
        rw [cutClauses_clause hat, hbehind]
        refine ⟨(i, kind, width + 1) :: starts, by rw [hstarts]; rfl, Nat.le_refl i, hi, ?_, ?_⟩
        · rw [Cut.opening, hend, hheld]
          exact .cons ht hlast hle hbound hopens
        · rw [bound, List.drop_take, Nat.sub_self, List.take_zero]
      · rename_i hclause
        rw [at_depth (fun b hb => clauseAt?_keyword hb)] at hclause
        have hnone : depth = 0 → clauseAt? (t :: r) = none := fun hzero => by rwa [if_pos hzero] at hclause
        obtain ⟨starts, hstarts, hle, hbound, hopens, hheld⟩ := ih _ (by omega) hin hnext rfl
        rw [hr] at hopens hheld
        rw [cutClauses_step hnone]
        refine ⟨starts, hstarts, Nat.le_of_succ_le hle, hbound, hopens, ?_⟩
        have hcount : bound T starts - i = bound T starts - (i + 1) + 1 := by omega
        rw [hheld, List.drop_take, List.drop_take, hdrop, hr, hcount, List.take_succ_cons]

/-- No number is outside of the tokens while clauses are cut. -/
theorem clauses?_run (T : List Token) : (clauses? T).run = some (clauses T) := by
  refine run_depths fun depths h => ?_
  obtain ⟨starts, hstarts, -, -, hopens, hbefore⟩ := startsFrom?_opensAt (Nat.zero_le _) h
  rw [List.drop_zero] at hopens hbefore
  rw [ByPlace.run_look hstarts]
  generalize cutClauses 0 0 T = cut at hopens hbefore ⊢
  obtain ⟨before, segments⟩ := cut
  dsimp only at hopens hbefore ⊢
  have hrun := segments?_run hopens []
  cases hopens with
  | nil => cases before.isEmpty <;> rfl
  | cons hfirst =>
    rename_i start width kind first last starts segments hlast hheld hbound hrest
    have hfull : T ≠ [] := fun hnil => by
      rw [hnil] at hfirst
      cases hfirst
    by_cases hselect : start = 0 ∧ kind = .select
    · obtain ⟨rfl, rfl⟩ := hselect
      have hguard : ¬(!before.isEmpty || some ClauseKind.select != some .select) = true := by simp [hbefore, bound]
      rw [List.head?_cons, List.head?_cons, Option.map_some, if_neg hguard]
      refine ByPlace.run_bind_map hrun ?_
      split <;> rfl
    · have hguard : (!before.isEmpty || some kind != some ClauseKind.select) = true := by
        by_cases hkind : kind = .select
        · have hstart : start ≠ 0 := fun h => hselect ⟨h, hkind⟩
          simp [hbefore, bound, hstart, hfull]
        · simp [hkind]
      rw [List.head?_cons, List.head?_cons, Option.map_some, if_pos hguard]
      split
      · rename_i h
        cases h
        exact absurd ⟨rfl, rfl⟩ hselect
      · rfl

end Parser

end GridQuery
