import GridQuery.Proofs.Settled

/-!
Places among the tokens. Readers take tokens off the front; seen from the whole slice they move a place along
it, and a bracket is matched, a statement in brackets cut out and the text of an item found by the numbers of
tokens. Here every such number is checked: it would be none that is outside the slice, and there never is one.
An attempt at a condition may leave the place anywhere; the comparison behind it begins where the attempt did.
-/

namespace GridQuery
set_option autoImplicit false

open GridQuery.Parser

namespace Parser

/-! ### Slices and brackets by numbers -/

/-- A token by number, and what stands behind it. -/
theorem place_of_drop {T r : List Token} {t : Token} {place : Nat} (h : T.drop place = t :: r) :
    place < T.length ∧ T[place]? = some t ∧ T.drop (place + 1) = r := by
  have hlength := congrArg List.length h
  rw [List.length_drop, List.length_cons] at hlength
  refine ⟨by omega, ?_, ?_⟩
  · rw [← List.head?_drop, h, List.head?_cons]
  · rw [← List.tail_drop, h, List.tail_cons]

/-- The tokens from one place to another, none if these are not places among them in this order. -/
def slice? (T : List Token) (start stop : Nat) : Option (List Token) :=
  if start ≤ stop ∧ stop ≤ T.length then some ((T.take stop).drop start) else none

theorem slice?_eq {T : List Token} {start stop : Nat} (h : start ≤ stop) (h' : stop ≤ T.length) :
    slice? T start stop = some ((T.take stop).drop start) :=
  if_pos ⟨h, h'⟩

/-- The last of some tokens behind a place, by number. -/
theorem getLast?_slice {T : List Token} {start count : Nat} (h : 0 < count) (h' : start + count ≤ T.length) :
    ((T.drop start).take count).getLast? = T[start + count - 1]? := by
  rw [List.getLast?_eq_getElem?, List.length_take, List.length_drop, Nat.min_eq_left (by omega), List.getElem?_take,
    if_pos (by omega), List.getElem?_drop, Nat.add_sub_assoc h]

/-- The text of the tokens from a place up to the one that was reached. -/
def sourceText? (source : List Char) (T : List Token) (start place : Nat) : Option String :=
  match T[start]? with
  | none => some ""
  | some first =>
    if start < place then
      (T[place - 1]?).map fun last => String.ofList (Text.trimChars (Text.sliceBytes source first.start last.stop))
    else some ""

theorem sourceText?_eq (p : Place) {T : List Token} {start place : Nat} (h : place ≤ T.length) :
    sourceText? p.source T start place = some (sourceText p (T.drop start) (T.drop place)) := by
  unfold sourceText? sourceText
  rw [List.head?_drop]
  cases hfirst : T[start]? with
  | none => rfl
  | some first =>
    obtain ⟨hstart, -⟩ := List.getElem?_eq_some_iff.mp hfirst
    have htaken : (T.drop start).length - (T.drop place).length = place - start := by
      rw [List.length_drop, List.length_drop]
      omega
    rw [htaken]
    by_cases hmoved : start < place
    · have hin : place - 1 < T.length := by omega
      dsimp only
      rw [getLast?_slice (Nat.sub_pos_of_lt hmoved) (by omega), Nat.add_sub_of_le hmoved.le,
        List.getElem?_eq_getElem hin, if_pos hmoved]
      rfl
    · dsimp only
      rw [if_neg hmoved, show place - start = 0 by omega, List.take_zero]
      rfl

/-- The number of the bracket that closes the first of some tokens, which begin at number `i`. There is no answer
if more brackets close than are open. -/
def closing? (depth i : Nat) : List Token → Option (Option Nat)
  | [] => some none
  | t :: r =>
    match t.lexeme with
    | .leftParen => closing? (depth + 1) (i + 1) r
    | .rightParen =>
      match depth with
      | 0 => none
      | 1 => some (some i)
      | depth + 2 => closing? (depth + 1) (i + 1) r
    | _ => closing? depth (i + 1) r

/-- Behind an open bracket no depth goes below zero. -/
theorem closing?_eq (depth i : Nat) (ts : List Token) :
    closing? (depth + 1) i ts = some ((splitClose depth ts).map fun s => i + s.1.length) := by
  induction ts generalizing depth i with
  | nil => rfl
  | cons t r ih =>
    have hpass : ∀ {d : Nat}, depthAfter depth t = d → ¬(t.lexeme = .rightParen ∧ depth = 0) →
        some ((splitClose depth (t :: r)).map fun s => i + s.1.length) = closing? (d + 1) (i + 1) r := by
      intro d hd hopen
      rw [splitClose, if_neg hopen, hd, ih, Option.map_map]
      refine congrArg (fun f => some ((splitClose d r).map f)) (funext fun s => ?_)
      simp only [Function.comp_apply, List.length_cons]
      omega
    unfold closing?
    split
    · rename_i ht
      exact (hpass (by rw [depthAfter, ht]) (by simp [ht])).symm
    · rename_i ht
      cases depth with
      | zero =>
        rw [splitClose, if_pos ⟨ht, rfl⟩]
        rfl
      | succ depth => exact (hpass (by rw [depthAfter, ht]; rfl) (by simp)).symm
    · rename_i hleft hright
      refine (hpass ?_ fun h => hright h.1).symm
      unfold depthAfter
      split
      · exact absurd ‹_› hleft
      · exact absurd ‹_› hright
      · rfl

theorem closing?_open {t : Token} (ht : t.lexeme = .leftParen) (i : Nat) (r : List Token) :
    closing? 0 i (t :: r) = some ((splitClose 0 r).map fun s => i + 1 + s.1.length) := by
  rw [closing?, ht]
  exact closing?_eq 0 (i + 1) r

/-- Where the bracket closes, and what stands between the brackets, by number. -/
theorem closing?_cut {T r inner rest : List Token} {t : Token} {place : Nat} (hdrop : T.drop place = t :: r)
    (h : splitClose 0 r = some (inner, rest)) :
    slice? T (place + 1) (place + 1 + inner.length) = some inner ∧ (T[place + 1 + inner.length]?).isSome ∧
      T.length = place + 1 + inner.length + 1 + rest.length := by
  obtain ⟨u, -, rfl, -⟩ := splitClose_passes h
  obtain ⟨hplace, -, hbehind⟩ := place_of_drop hdrop
  have hlength : T.length = place + 1 + inner.length + 1 + rest.length := by
    have := congrArg List.length hdrop
    simp only [List.length_drop, List.length_cons, List.length_append] at this
    omega
  refine ⟨?_, ?_, hlength⟩
  · rw [slice?_eq (by omega) (by omega), List.drop_take, hbehind, Nat.add_sub_cancel_left, List.take_left]
  · rw [List.getElem?_eq_getElem (by omega)]
    rfl

/-! ### Readers that move a place -/

/-- Moves a place along the tokens, also where it fails; there is no outcome once a number is outside of them. -/
abbrev Cursor (α : Type) := ExceptT QueryError (StateT Nat Option) α

namespace Cursor

variable {α : Type}

/-- A look at the tokens by number. -/
def checked (x : Option α) : Cursor α :=
  ExceptT.mk fun place => x.map fun a => (.ok a, place)

/-- Reads from the place reached. A reader that fails may leave any place. -/
def reading (T : List Token) (left : Nat → Nat) (read : List Token → Except QueryError (Reading α)) : Cursor α :=
  ExceptT.mk fun place =>
    match read (T.drop place) with
    | .ok (a, rest) => some (.ok a, T.length - rest.length)
    | .error e => some (.error e, left place)

/-- What is read, or nothing where that fails, at the place that is left then. -/
def attempt (c : Cursor α) : Cursor (Option α) :=
  ExceptT.mk fun place => (c.run place).map fun r => (.ok r.1.toOption, r.2)

/-- A statement in brackets from a place: the brackets are matched by number, and the tokens between them are
cut out. -/
def parenthesizedAt (p : Place) (n : Nat) (T : List Token) (first : Nat) : Cursor Statement :=
  match T[first]? with
  | none => throw (.unexpected "(" (current p []))
  | some t =>
    if t.lexeme = .leftParen then do
      match ← checked (closing? 0 first (T.drop first)) with
      | none => throw (.unbalanced t.start t.stop)
      | some last =>
        let inner ← checked (slice? T (first + 1) last)
        let _ ← checked T[last]?
        let s ← ExceptT.mk (pure (statement p n inner))
        set (last + 1)
        return s
    else throw (.unexpected "(" t)

def parenthesized (p : Place) (n : Nat) (T : List Token) : Cursor Statement :=
  get >>= parenthesizedAt p n T

/-- Passes over a closing bracket, and tells if a condition may end behind it. -/
def endsCondition (T : List Token) : Cursor Bool := do
  let place ← get
  if atLexeme .rightParen (T.drop place) then
    set (place + 1)
    return atConditionEnd (T.drop (place + 1))
  else return false

/-- A predicate from a place. A bracket is tried as a condition, and the place put back unless the condition
stands. -/
def predicateAt (p : Place) (n : Nat) (T : List Token) (left : Nat → Nat) (saved : Nat) : Cursor Condition :=
  if atKeyword .exists_ (T.drop saved) then do
    set (saved + 1)
    let q ← reading T left (nested p n)
    return .exists false q
  else if atLexeme .leftParen (T.drop saved) && !atSubquery (T.drop saved) then do
    set (saved + 1)
    match ← attempt (reading T left (condition p n)) with
    | none =>
      set saved
      reading T left (comparisonFrom p n)
    | some c =>
      if ← endsCondition T then return c
      else
        set saved
        reading T left (comparisonFrom p n)
  else reading T left (comparisonFrom p n)

def predicate (p : Place) (n : Nat) (T : List Token) (left : Nat → Nat) : Cursor Condition :=
  get >>= predicateAt p n T left

/-- At every place the cursor does what the reader does with the tokens from there. -/
def Follows (T : List Token) (c : Cursor α) (read : List Token → Except QueryError (Reading α)) : Prop :=
  ∀ place ≤ T.length,
    match read (T.drop place) with
    | .ok (a, rest) => c.run place = some (.ok a, T.length - rest.length)
    | .error e => ∃ place', c.run place = some (.error e, place')

section

variable {β : Type} {c : Cursor α} {f : α → Cursor β} {a : α} {e : QueryError} {place place' : Nat}

theorem run_bind_ok (h : c.run place = some (.ok a, place')) : (c >>= f).run place = (f a).run place' := by
  change (c.run place).bind _ = _
  rw [h]
  rfl

theorem run_bind_error (h : c.run place = some (.error e, place')) :
    (c >>= f).run place = some (.error e, place') := by
  change (c.run place).bind _ = _
  rw [h]
  rfl

theorem run_get_bind (f : Nat → Cursor α) (place : Nat) : (get >>= f : Cursor α).run place = (f place).run place :=
  rfl

theorem run_set_bind (c : Cursor α) (k place : Nat) :
    ((set k : Cursor PUnit) >>= fun _ => c).run place = c.run k :=
  rfl

theorem run_bind_checked {γ : Type} (x : γ) (f : γ → Cursor α) (place : Nat) :
    (checked (some x) >>= f).run place = (f x).run place :=
  rfl

theorem run_attempt_ok (h : c.run place = some (.ok a, place')) :
    (attempt c).run place = some (.ok (some a), place') := by
  change (c.run place).map _ = _
  rw [h]
  rfl

theorem run_attempt_error (h : c.run place = some (.error e, place')) :
    (attempt c).run place = some (.ok none, place') := by
  change (c.run place).map _ = _
  rw [h]
  rfl

end

section

variable {T : List Token} {left : Nat → Nat} {read : List Token → Except QueryError (Reading α)} {place : Nat}

theorem run_reading_ok {a : α} {rest : List Token} (h : read (T.drop place) = .ok (a, rest)) :
    (reading T left read).run place = some (.ok a, T.length - rest.length) := by
  change (match read (T.drop place) with | .ok (a, rest) => _ | .error e => _) = _
  rw [h]

theorem run_reading_error {e : QueryError} (h : read (T.drop place) = .error e) :
    (reading T left read).run place = some (.error e, left place) := by
  change (match read (T.drop place) with | .ok (a, rest) => _ | .error e => _) = _
  rw [h]

theorem reading_follows (T : List Token) (left : Nat → Nat) (read : List Token → Except QueryError (Reading α)) :
    Follows T (reading T left read) read := by
  intro place _
  cases h : read (T.drop place) with
  | ok r => exact run_reading_ok h
  | error e => exact ⟨left place, run_reading_error h⟩

theorem drop_of_suffix {rest : List Token} (h : rest <:+ T) : T.drop (T.length - rest.length) = rest := by
  obtain ⟨a, rfl⟩ := h
  rw [List.length_append, Nat.add_sub_cancel, List.drop_left]

end

/-- Brackets are matched, and what stands between them is cut out, within the tokens. -/
theorem parenthesized_follows (p : Place) (n : Nat) (T : List Token) :
    Follows T (parenthesized p n T) (nested p (n + 1)) := by
  intro place hplace
  simp only [parenthesized, run_get_bind]
  unfold parenthesizedAt
  have hfirst : T[place]? = (T.drop place).head? := List.head?_drop.symm
  cases hdrop : T.drop place with
  | nil =>
    rw [hfirst, hdrop]
    exact ⟨place, rfl⟩
  | cons t r =>
    rw [hfirst, hdrop, nested]
    dsimp only [List.head?_cons]
    by_cases ht : t.lexeme = .leftParen
    · rw [if_pos ht, if_pos ht, closing?_open ht]
      cases hsplit : splitClose 0 r with
      | none => exact ⟨place, rfl⟩
      | some parts =>
        obtain ⟨inner, rest⟩ := parts
        obtain ⟨hinner, hlast, hlength⟩ := closing?_cut hdrop hsplit
        obtain ⟨u, hu⟩ := Option.isSome_iff_exists.mp hlast
        rw [Option.map_some, run_bind_checked]
        simp only [hinner, hu, run_bind_checked]
        cases hs : statement p n inner with
        | error e => exact ⟨place, rfl⟩
        | ok s =>
          refine congrArg (fun k => some (Except.ok s, k)) ?_
          omega
    · rw [if_neg ht, if_neg ht]
      exact ⟨place, rfl⟩

/-- The bracket behind a condition, and what stands behind it. -/
theorem run_endsCondition (T : List Token) (place : Nat) : ∃ place', (endsCondition T).run place =
      some (.ok (atLexeme .rightParen (T.drop place) && atConditionEnd (T.drop (place + 1))), place') ∧
    (atLexeme .rightParen (T.drop place) = true → place' = place + 1) := by
  simp only [endsCondition, run_get_bind]
  cases atLexeme .rightParen (T.drop place) with
  | true => exact ⟨place + 1, rfl, fun _ => rfl⟩
  | false => exact ⟨place, rfl, fun h => nomatch h⟩

/-- Whatever place the attempt at a bracket leaves, the comparison is read from where the attempt began. -/
theorem predicate_follows (p : Place) (n : Nat) (T : List Token) (left : Nat → Nat) :
    Follows T (predicate p n T left) (Parser.predicate p (n + 1)) := by
  intro place hplace
  simp only [predicate, run_get_bind]
  unfold predicateAt
  have hcompare := reading_follows T left (comparisonFrom p n) place hplace
  have hnext : (T.drop place).drop 1 = T.drop (place + 1) := List.drop_drop
  rw [Parser.predicate, hnext]
  cases atKeyword .exists_ (T.drop place) with
  | true =>
    simp only [if_true, run_set_bind]
    cases hq : nested p n (T.drop (place + 1)) with
    | error e => exact ⟨_, run_bind_error (run_reading_error hq)⟩
    | ok r => exact run_bind_ok (run_reading_ok hq)
  | false =>
    cases atLexeme .leftParen (T.drop place) && !atSubquery (T.drop place) with
    | false => exact hcompare
    | true =>
      simp only [Bool.false_eq_true, if_false, if_true, run_set_bind]
      cases hc : condition p n (T.drop (place + 1)) with
      | error e =>
        rw [run_bind_ok (run_attempt_error (run_reading_error hc))]
        exact hcompare
      | ok r =>
        obtain ⟨c, rest⟩ := r
        have hsuffix : rest <:+ T :=
          (((readersSettle (Nat.le_refl n)).condition p _).suffix _ hc).trans (List.drop_suffix _ T)
        have hrest := drop_of_suffix hsuffix
        obtain ⟨place', hends, hbehind⟩ := run_endsCondition T (T.length - rest.length)
        rw [run_bind_ok (run_attempt_ok (run_reading_ok hc))]
        rw [← List.drop_drop, hrest] at hends
        rw [hrest] at hbehind
        dsimp only
        rw [run_bind_ok hends]
        cases hstands : atLexeme .rightParen rest && atConditionEnd (rest.drop 1) with
        | false => exact hcompare
        | true =>
          obtain ⟨hclose, -⟩ := Bool.and_eq_true_iff.mp hstands
          obtain ⟨u, behind, rfl, -⟩ := exists_of_atLexeme hclose
          obtain rfl := hbehind hclose
          have hlength := hsuffix.length_le
          rw [List.length_cons] at hlength
          refine congrArg (fun k => some (Except.ok c, k)) ?_
          rw [List.length_cons, List.drop_one, List.tail_cons]
          omega

end Cursor

end Parser

end GridQuery
