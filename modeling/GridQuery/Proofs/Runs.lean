import GridQuery.Query

/-!
What a run gives: its value and what the query keeps afterwards. Sequences are taken apart into their
steps here, once, so that nothing later looks into the monad.
-/

namespace GridQuery
set_option autoImplicit false

theorem bind_eq_ok {α β : Type} {x : Except QueryError α} {f : α → Except QueryError β} {b : β} :
    x >>= f = .ok b ↔ ∃ a, x = .ok a ∧ f a = .ok b := by
  cases x with
  | ok a => simp [bind, Except.bind]
  | error e => simp [bind, Except.bind]

/-- A step whose value passes a test has a value. -/
theorem exists_of_any {α : Type} {x : Except QueryError α} {p : α → Bool} (h : x.toOption.any p = true) :
    ∃ a, x = .ok a ∧ p a = true := by
  cases x with
  | ok a => exact ⟨a, rfl, h⟩
  | error e => cases h

namespace Run

variable {σ α β : Type}

/-- From `st` the run succeeds with `a` and leaves `st'`. -/
def Gives (m : Run σ α) (st : σ) (a : α) (st' : σ) : Prop :=
  @Eq (Except QueryError α × σ) (m.run st) (.ok a, st')

theorem gives_pure {a b : α} {st st' : σ} :
    (pure a : Run σ α).Gives st b st' ↔ b = a ∧ st' = st := by
  change (((Except.ok a, st) : Except QueryError α × σ) = (.ok b, st')) ↔ _
  simp only [Prod.mk.injEq, Except.ok.injEq]
  exact ⟨fun ⟨h, g⟩ => ⟨h.symm, g.symm⟩, fun ⟨h, g⟩ => ⟨h.symm, g.symm⟩⟩

theorem not_gives_throw {e : QueryError} {b : α} {st st' : σ} :
    ¬ (throw e : Run σ α).Gives st b st' := by
  intro h
  change (((Except.error e, st) : Except QueryError α × σ) = (.ok b, st')) at h
  cases congrArg Prod.fst h

/-- A sequence runs its first step, and the second only if that gives a value. -/
theorem run_bind (m : Run σ α) (f : α → Run σ β) (st : σ) :
    (m >>= f).run st =
      match m.run st with
      | (.ok a, st') => (f a).run st'
      | (.error e, st') => (.error e, st') := by
  change (match m.run st with | (x, st') => ExceptT.bindCont f x st') = _
  rcases m.run st with ⟨x | x, st'⟩ <;> rfl

/-- Sequences that go on alike from whatever their first step gives run alike. -/
theorem run_bind_congr {m : Run σ α} {f g : α → Run σ β} {st : σ}
    (h : ∀ a mid, m.Gives st a mid → (f a).run mid = (g a).run mid) :
    (m >>= f).run st = (m >>= g).run st := by
  rw [run_bind, run_bind]
  cases hm : m.run st with
  | mk x mid =>
    cases x with
    | error e => rfl
    | ok a => exact h a mid hm

theorem gives_bind {m : Run σ α} {f : α → Run σ β} {b : β} {st st' : σ} :
    (m >>= f).Gives st b st' ↔ ∃ a mid, m.Gives st a mid ∧ (f a).Gives mid b st' := by
  unfold Gives
  rw [run_bind]
  constructor
  · intro h
    split at h
    · rename_i a mid hm
      exact ⟨a, mid, hm, h⟩
    · cases congrArg Prod.fst h
  · rintro ⟨a, mid, hm, hf⟩
    rw [hm]
    exact hf

theorem gives_of {x : Except QueryError α} {a : α} {st st' : σ} :
    (Run.of x : Run σ α).Gives st a st' ↔ x = .ok a ∧ st' = st := by
  cases x with
  | ok b =>
    simp only [Run.of, gives_pure, Except.ok.injEq]
    exact ⟨fun ⟨h, g⟩ => ⟨h.symm, g⟩, fun ⟨h, g⟩ => ⟨h.symm, g⟩⟩
  | error e => simp [Run.of, not_gives_throw]

instance decidableGives [DecidableEq α] [DecidableEq σ] (m : Run σ α) (st : σ) (a : α) (st' : σ) :
    Decidable (m.Gives st a st') :=
  match h : m.run st with
  | (.ok b, mid) => decidable_of_iff (b = a ∧ mid = st') (by
    unfold Gives
    rw [h, Prod.mk.injEq, Except.ok.injEq])
  | (.error e, mid) => isFalse (by
    intro hgives
    cases congrArg Prod.fst (h.symm.trans hgives))

theorem Gives.unique {m : Run σ α} {st : σ} {a b : α} {st₁ st₂ : σ}
    (h : m.Gives st a st₁) (g : m.Gives st b st₂) : a = b ∧ st₁ = st₂ := by
  have he : ((.ok a, st₁) : Except QueryError α × σ) = (.ok b, st₂) := h.symm.trans g
  simpa using he

end Run

end GridQuery
