import GridQuery.Proofs.Lockstep

/-!
Running again. A query only adds to the results it keeps, so a run that succeeded succeeds with the same
value from every memo that still has what the run left behind, and adds nothing to it. On such a memo
evaluation is as good as a function. This holds without any condition on the texts of statements.
-/

namespace GridQuery
set_option autoImplicit false

namespace ResultMemo

/-- Every result of a memo is the one that another memo has for the same text. -/
def KeptIn (memo later : ResultMemo) : Prop :=
  ∀ text r, memo.lookup text = some r → later.lookup text = some r

theorem KeptIn.refl (memo : ResultMemo) : memo.KeptIn memo := fun _ _ h => h

theorem KeptIn.trans {a b c : ResultMemo} (hab : a.KeptIn b) (hbc : b.KeptIn c) : a.KeptIn c :=
  fun text r h => hbc text r (hab text r h)

/-- Two memos have the same result for every text that both have. -/
def Agree (a b : ResultMemo) : Prop :=
  ∀ text r s, a.lookup text = some r → b.lookup text = some s → r = s

theorem KeptIn.agree {a b : ResultMemo} (h : a.KeptIn b) : a.Agree b := by
  intro text r s ha hb
  have he := (h text r ha).symm.trans hb
  exact Option.some.inj he

theorem keptIn_append_left (a b : ResultMemo) : a.KeptIn (a ++ b) := by
  intro text r h
  rw [List.lookup_append, h]
  rfl

theorem Agree.keptIn_append_right {a b : ResultMemo} (h : a.Agree b) : b.KeptIn (a ++ b) := by
  intro text r hb
  rw [List.lookup_append]
  cases ha : a.lookup text with
  | none => simpa using hb
  | some s => simpa using h text s r ha hb

end ResultMemo

/-- A run that adds to the memo alone, and gives the same again wherever what it added is kept. -/
structure Repeatable {α : Type} (m : Run ResultMemo α) : Prop where
  grows : ∀ memo : ResultMemo, memo.KeptIn (m.run memo).2
  again : ∀ {memo memo' later : ResultMemo} {a : α}, m.Gives memo a memo' → memo'.KeptIn later →
    m.Gives later a later

namespace Repeatable

variable {α β : Type}

theorem pure (a : α) : Repeatable (Pure.pure a : Run ResultMemo α) where
  grows memo := .refl memo
  again h _ := by
    obtain ⟨rfl, _⟩ := Run.gives_pure.mp h
    exact Run.gives_pure.mpr ⟨rfl, rfl⟩

theorem throw (e : QueryError) : Repeatable (MonadExcept.throw e : Run ResultMemo α) where
  grows memo := .refl memo
  again h _ := absurd h Run.not_gives_throw

theorem grows_of_gives {m : Run ResultMemo α} (hm : Repeatable m) {memo memo' : ResultMemo} {a : α}
    (h : m.Gives memo a memo') : memo.KeptIn memo' := by
  have hg := hm.grows memo
  rwa [h] at hg

theorem bind {m : Run ResultMemo α} {f : α → Run ResultMemo β} (hm : Repeatable m)
    (hf : ∀ a, (∃ st st', m.Gives st a st') → Repeatable (f a)) : Repeatable (m >>= f) where
  grows memo := by
    rw [Run.run_bind]
    have hg := hm.grows memo
    split
    · rename_i a mid hmid
      rw [hmid] at hg
      exact hg.trans ((hf a ⟨memo, mid, hmid⟩).grows mid)
    · rename_i e mid hmid
      rwa [hmid] at hg
  again {memo memo' later b} h hlater := by
    obtain ⟨a, mid, ha, hb⟩ := Run.gives_bind.mp h
    have hfa := hf a ⟨memo, mid, ha⟩
    have hmid := (hfa.grows_of_gives hb).trans hlater
    exact Run.gives_bind.mpr ⟨a, later, hm.again ha hmid, hfa.again hb hlater⟩

theorem of (x : Except QueryError α) : Repeatable (Run.of x : Run ResultMemo α) := by
  cases x with
  | ok a => exact pure a
  | error e => exact throw e

end Repeatable

/-- A remembered statement answers from the memo, or runs and is put in front of it. -/
theorem run_remembered (run : Statement → Run ResultMemo ResultSet) (q : Statement)
    (memo : ResultMemo) :
    (remembered run q).run memo =
      match memo.lookup q.text with
      | some r => (.ok r, memo)
      | none =>
        match (run q).run memo with
        | (.ok r, mid) => (.ok r, (q.text, r) :: mid)
        | (.error e, mid) => (.error e, mid) := by
  unfold remembered
  rw [Run.run_bind]
  change ((match memo.lookup q.text with
    | some r => _
    | none => _ : Run ResultMemo ResultSet)).run memo = _
  cases memo.lookup q.text with
  | some r => rfl
  | none =>
    simp only [Run.run_bind]
    rcases (run q).run memo with ⟨x | r, mid⟩ <;> rfl

theorem gives_remembered {run : Statement → Run ResultMemo ResultSet} {q : Statement}
    {memo memo' : ResultMemo} {r : ResultSet} :
    (remembered run q).Gives memo r memo' ↔
      (memo.lookup q.text = some r ∧ memo' = memo) ∨
      (memo.lookup q.text = none ∧ ∃ mid, (run q).Gives memo r mid ∧ memo' = (q.text, r) :: mid) := by
  unfold Run.Gives
  rw [run_remembered]
  cases hq : memo.lookup q.text with
  | some s =>
    simp only [Prod.mk.injEq, Except.ok.injEq, Option.some.injEq, reduceCtorEq, false_and, or_false]
    exact ⟨fun ⟨h, g⟩ => ⟨h, g.symm⟩, fun ⟨h, g⟩ => ⟨h, g.symm⟩⟩
  | none =>
    simp only [reduceCtorEq, false_and, false_or, true_and]
    rcases (run q).run memo with ⟨e | s, mid⟩
    · simp
    · simp only [Prod.mk.injEq, Except.ok.injEq]
      constructor
      · rintro ⟨rfl, rfl⟩
        exact ⟨mid, ⟨rfl, rfl⟩, rfl⟩
      · rintro ⟨_, ⟨rfl, rfl⟩, rfl⟩
        exact ⟨rfl, rfl⟩

theorem Repeatable.remembered {run : Statement → Run ResultMemo ResultSet} {q : Statement}
    (h : Repeatable (run q)) : Repeatable (remembered run q) where
  grows memo := by
    rw [run_remembered]
    cases hq : memo.lookup q.text with
    | some r => exact .refl memo
    | none =>
      have hg := h.grows memo
      rcases hrun : (run q).run memo with ⟨e | r, mid⟩ <;> rw [hrun] at hg
      · exact hg
      · -- what was there before has another text, so the new entry does not hide it
        intro text s hs
        have hne : text ≠ q.text := by
          rintro rfl
          rw [hq] at hs
          cases hs
        have hbeq : (text == q.text) = false := by simpa using hne
        simpa [List.lookup_cons, hbeq] using hg text s hs
  again {memo memo' later r} hgives hlater := by
    have hkept : memo'.lookup q.text = some r := by
      rcases gives_remembered.mp hgives with ⟨hq, rfl⟩ | ⟨_, mid, _, rfl⟩
      · exact hq
      · exact List.lookup_cons_self
    exact gives_remembered.mpr (Or.inl ⟨hlater _ _ hkept, rfl⟩)

def repeating : Lockstep ResultMemo ResultMemo where
  rel m _ := Repeatable m
  pure := Repeatable.pure
  throw := Repeatable.throw
  bind := Repeatable.bind

theorem repeating_remembered : repeating.Keeps remembered remembered :=
  fun h => Repeatable.remembered h

/-- Every statement can be run again. -/
theorem repeatable_run (world : World) (depth : Nat) (s : Statement) :
    Repeatable (run remembered world depth s) :=
  repeating.run repeating_remembered depth (.refl world s)

/-- From `memo` the run gives `a` and leaves `memo` as it is. -/
def Run.Settles {α : Type} (m : Run ResultMemo α) (memo : ResultMemo) (a : α) : Prop :=
  m.Gives memo a memo

namespace Run

variable {α β : Type} {memo : ResultMemo}

theorem settles_pure {a b : α} : (Pure.pure a : Run ResultMemo α).Settles memo b ↔ b = a := by
  simp [Settles, gives_pure]

theorem settles_of {x : Except QueryError α} {a : α} :
    (Run.of x : Run ResultMemo α).Settles memo a ↔ x = .ok a := by
  simp [Settles, gives_of]

theorem not_settles_throw {e : QueryError} {a : α} :
    ¬ (throw e : Run ResultMemo α).Settles memo a := not_gives_throw

/-- The steps of a sequence that adds nothing add nothing either. -/
theorem settles_bind {m : Run ResultMemo α} {f : α → Run ResultMemo β} {b : β}
    (hm : Repeatable m) (hf : ∀ a, Repeatable (f a)) :
    (m >>= f).Settles memo b ↔ ∃ a, m.Settles memo a ∧ (f a).Settles memo b := by
  constructor
  · intro h
    obtain ⟨a, mid, ha, hb⟩ := gives_bind.mp h
    have hagain := hm.again ha ((hf a).grows_of_gives hb)
    obtain ⟨_, rfl⟩ := hagain.unique ha
    exact ⟨a, ha, hb⟩
  · rintro ⟨a, ha, hb⟩
    exact gives_bind.mpr ⟨a, memo, ha, hb⟩

theorem Settles.unique {m : Run ResultMemo α} {a b : α} (h : m.Settles memo a)
    (g : m.Settles memo b) : a = b := (Gives.unique h g).1

end Run

section Rows

variable (world : World) (table : Table) (depth : Nat)

theorem repeating_reads :
    repeating.Reads world world (runnerAt remembered world depth) (runnerAt remembered world depth)
      (fun _ => True) (fun _ => True) where
  clock_eq := rfl
  nested q _ := repeating.nested_runnerAt repeating_remembered world depth q
  bind_eq _ _ := rfl

theorem repeatable_value (row : Nat) (f : Formula) :
    Repeatable ((rowsAt world table depth).value row f) :=
  Lockstep.value (repeating_reads world depth) row f fun _ _ => trivial

theorem repeatable_holds (row : Nat) (t : Test) :
    Repeatable ((rowsAt world table depth).holds row t) :=
  Lockstep.holds (repeating_reads world depth) row t fun _ _ => trivial

theorem repeatable_satisfies (c : Condition) (row : Nat) :
    Repeatable ((rowsAt world table depth).satisfies c row) :=
  Lockstep.satisfies (repeating_reads world depth) (fun _ _ => trivial) (fun _ _ => trivial) row

theorem repeatable_select (rows : List Nat) (c : Condition) :
    Repeatable ((rowsAt world table depth).select rows c) :=
  Lockstep.select (repeating_reads world depth) c (fun _ _ => trivial) (fun _ _ => trivial) rows

theorem repeatable_column (e : Expr) : Repeatable ((rowsAt world table depth).column e) :=
  Lockstep.column (repeating_reads world depth) (fun _ _ => trivial) fun _ _ => trivial

theorem repeatable_conditionMatches (left right : Table) (c : Condition) :
    Repeatable (conditionMatches world (runnerAt remembered world depth) left right c) :=
  Lockstep.conditionMatches (repeating_reads world depth) c (fun _ _ => trivial) fun _ _ => trivial

end Rows

end GridQuery
