import GridQuery.Error

/-!
Steps that may fail, one at a time and in sequence: what holds of the value that a step gives, and when
a step on other inputs does the same up to a change of its value.
-/

namespace GridQuery
set_option autoImplicit false

variable {α β γ δ : Type}

/-- The step fails, or its value has the property. -/
def Yields (Q : α → Prop) (x : Except QueryError α) : Prop :=
  ∀ a, x = .ok a → Q a

namespace Yields

theorem ok {Q : α → Prop} {a : α} (h : Q a) : Yields Q (.ok a) := by
  rintro _ ⟨⟩
  exact h

theorem error {Q : α → Prop} (e : QueryError) : Yields Q (.error e) := by
  rintro _ ⟨⟩

theorem bind {P : α → Prop} {Q : β → Prop} {x : Except QueryError α} {f : α → Except QueryError β}
    (hx : Yields P x) (hf : ∀ a, P a → Yields Q (f a)) : Yields Q (x >>= f) := by
  cases x with
  | ok a => exact hf a (hx a rfl)
  | error e => exact error e

theorem map {P : α → Prop} {Q : β → Prop} {x : Except QueryError α} {f : α → β}
    (hx : Yields P x) (hf : ∀ a, P a → Q (f a)) : Yields Q (x.map f) := by
  cases x with
  | ok a => exact ok (hf a (hx a rfl))
  | error e => exact error e

theorem ite {Q : α → Prop} {c : Prop} [Decidable c] {x y : Except QueryError α}
    (hx : c → Yields Q x) (hy : ¬ c → Yields Q y) : Yields Q (if c then x else y) := by
  split
  · exact hx ‹_›
  · exact hy ‹_›

theorem imp {P Q : α → Prop} {x : Except QueryError α} (hx : Yields P x) (h : ∀ a, P a → Q a) :
    Yields Q x :=
  fun a ha => h a (hx a ha)

end Yields

theorem ok_bind (x : α) (f : α → Except QueryError β) : (.ok x >>= f) = f x := rfl

theorem ite_bind {c : Prop} [Decidable c] (x y : Except QueryError α) (f : α → Except QueryError β) :
    (if c then x >>= f else y >>= f) = (if c then x else y) >>= f := by
  split <;> rfl

/-- The second step fails where the first does, and else gives the changed value. -/
def Carries (g : α → β) (x : Except QueryError α) (y : Except QueryError β) : Prop :=
  match x, y with
  | .ok a, .ok b => b = g a
  | .error _, .error _ => True
  | _, _ => False

namespace Carries

theorem ok {g : α → β} {a : α} {b : β} (h : b = g a) : Carries g (.ok a) (.ok b) := h

theorem error {g : α → β} (e e' : QueryError) : Carries g (.error e) (.error e') := trivial

theorem refl (x : Except QueryError α) : Carries id x x := by
  cases x with
  | ok a => exact ok rfl
  | error e => exact error e e

/-- The second half of a step may need that the first half gave the value that it starts from. -/
theorem bind_of {g : α → β} {h : γ → δ} {x : Except QueryError α} {y : Except QueryError β}
    {f : α → Except QueryError γ} {f' : β → Except QueryError δ} (hx : Carries g x y)
    (hf : ∀ a, x = .ok a → Carries h (f a) (f' (g a))) : Carries h (x >>= f) (y >>= f') := by
  cases x with
  | ok a =>
    cases y with
    | ok b =>
      have hb : b = g a := hx
      rw [hb]
      exact hf a rfl
    | error _ => exact absurd hx id
  | error _ =>
    cases y with
    | ok _ => exact absurd hx id
    | error _ => exact trivial

theorem bind {g : α → β} {h : γ → δ} {x : Except QueryError α} {y : Except QueryError β}
    {f : α → Except QueryError γ} {f' : β → Except QueryError δ} (hx : Carries g x y)
    (hf : ∀ a, Carries h (f a) (f' (g a))) : Carries h (x >>= f) (y >>= f') :=
  hx.bind_of fun a _ => hf a

theorem map {g : α → β} {h : γ → δ} {x : Except QueryError α} {y : Except QueryError β} {f : α → γ}
    {f' : β → δ} (hx : Carries g x y) (hf : ∀ a, f' (g a) = h (f a)) :
    Carries h (x.map f) (y.map f') := by
  change Carries h (x >>= fun a => .ok (f a)) (y >>= fun b => .ok (f' b))
  exact hx.bind fun a => ok (hf a)

theorem ite {g : α → β} {c : Prop} [Decidable c] {x x' : Except QueryError α}
    {y y' : Except QueryError β} (hx : c → Carries g x y) (hx' : ¬ c → Carries g x' y') :
    Carries g (if c then x else x') (if c then y else y') := by
  split
  · exact hx ‹_›
  · exact hx' ‹_›

/-- What the first step gives, the second gives after the change. -/
theorem to_ok {g : α → β} {a : α} {y : Except QueryError β} (h : Carries g (.ok a) y) :
    y = .ok (g a) := by
  cases y with
  | ok b => exact congrArg Except.ok h
  | error _ => exact absurd h id

/-- What the second step gives, the first gives before the change. -/
theorem of_ok {g : α → β} {x : Except QueryError α} {b : β} (h : Carries g x (.ok b)) :
    ∃ a, x = .ok a ∧ g a = b := by
  cases x with
  | ok a => exact ⟨a, rfl, Eq.symm h⟩
  | error _ => exact absurd h id

theorem ok_iff {x y : Except QueryError α} (h : Carries id x y) (a : α) : x = .ok a ↔ y = .ok a := by
  constructor
  · rintro rfl
    exact h.to_ok
  · rintro rfl
    obtain ⟨b, rfl, rfl⟩ := h.of_ok
    rfl

theorem trans {x y z : Except QueryError α} (hxy : Carries id x y) (hyz : Carries id y z) :
    Carries id x z := by
  cases y with
  | ok b =>
    obtain ⟨a, rfl, rfl⟩ := hxy.of_ok
    exact hyz
  | error e =>
    cases x with
    | ok a => exact absurd hxy id
    | error e' =>
      cases z with
      | ok c => exact absurd hyz id
      | error e'' => exact error _ _

end Carries

end GridQuery
