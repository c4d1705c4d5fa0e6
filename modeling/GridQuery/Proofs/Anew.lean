import Mathlib.Control.Monad.Basic
import GridQuery.Proofs.Replay

/-!
Queries that keep nothing. A query keeps results under the texts of statements, and such a text leaves
out how a select item was written, which is its title. So what is kept can be told from what running
again comes to, unless the statements of one text that a query meets all come to the same.
-/

namespace GridQuery
set_option autoImplicit false

def anew {σ : Type} : Keeping σ := fun run q => run q

/-- Runs a statement without keeping any result. -/
def executeAnew (world : World) (s : Statement) : Except QueryError ResultSet := do
  world.binds.require s.maxBind
  ((run anew world s.depth s).run ()).1

/-- Statements with what running them came to, the last one first. -/
abbrev Notes := List (Statement × Except QueryError ResultSet)

/-- Runs every statement again, and notes what it comes to. -/
def noted : Keeping Notes := fun run q => ExceptT.mk do
  let x ← (run q).run
  modify fun notes => (q, x) :: notes
  Pure.pure x

/-- The nested statements that a query meets, those that depend on a row left aside: operands of
`FROM` and `JOIN`, the others in expressions and conditions, and the values of a pivot, at every
depth and also within the copies made for an outer row. -/
def met (world : World) (s : Statement) : Notes :=
  ((run noted world s.depth s).run []).2

def Notes.Consistent (notes : Notes) : Prop :=
  ∀ m ∈ notes, ∀ n ∈ notes, m.1.text = n.1.text → m.2 = n.2

instance (notes : Notes) : Decidable notes.Consistent := by
  unfold Notes.Consistent
  infer_instance

def noting : Lockstep Notes Unit where
  rel n m := ∀ notes, (n.run notes).1 = (m.run ()).1
  pure _ _ := rfl
  throw _ _ := rfl
  bind {_ _ n m f g} hm hf notes := by
    rw [Run.run_bind, Run.run_bind]
    have hnm := hm notes
    rcases hn : n.run notes with ⟨e | a, mid⟩ <;> rcases hm' : m.run () with ⟨e' | b, u⟩ <;>
      rw [hn, hm'] at hnm
    · cases hnm
      rfl
    · cases hnm
    · cases hnm
    · cases hnm
      exact hf a ⟨notes, mid, hn⟩ mid

theorem noting_noted : noting.Keeps noted anew := by
  intro run₁ run₂ q h
  exact h

theorem run_noted (run : Statement → Run Notes ResultSet) (q : Statement) (notes : Notes) :
    (noted run q).run notes =
      (((run q).run notes).1, (q, ((run q).run notes).1) :: ((run q).run notes).2) := rfl

/-- Every kept result was noted for a statement of that text. -/
def ResultMemo.From (memo : ResultMemo) (notes : Notes) : Prop :=
  ∀ text r, memo.lookup text = some r → ∃ q, q.text = text ∧ (q, Except.ok r) ∈ notes

theorem ResultMemo.From.mono {memo : ResultMemo} {notes more : Notes} (h : memo.From notes)
    (hsub : notes ⊆ more) : memo.From more := by
  intro text r hr
  obtain ⟨q, hq, hmem⟩ := h text r hr
  exact ⟨q, hq, hsub hmem⟩

theorem ResultMemo.From.cons {memo : ResultMemo} {notes : Notes} {q : Statement} {r : ResultSet}
    (h : memo.From notes) : ResultMemo.From ((q.text, r) :: memo) ((q, .ok r) :: notes) := by
  intro text s hs
  by_cases htext : text = q.text
  · subst htext
    rw [List.lookup_cons_self] at hs
    cases hs
    exact ⟨q, rfl, List.mem_cons_self⟩
  · have hbeq : (text == q.text) = false := by simpa using htext
    rw [List.lookup_cons, hbeq] at hs
    exact h.mono (List.subset_cons_self _ _) text s hs

/-- A run that notes everything and one that remembers, side by side: as long as nothing is noted
outside `all`, both come to the same, and what the second keeps the first has noted. -/
structure Mirrors {α : Type} (all : Notes) (n : Run Notes α) (m : Run ResultMemo α) : Prop where
  notes_subset : ∀ notes, notes ⊆ (n.run notes).2
  value_eq : ∀ {memo notes}, memo.From notes → (n.run notes).2 ⊆ all →
    (m.run memo).1 = (n.run notes).1
  from_notes : ∀ {memo notes}, memo.From notes → (n.run notes).2 ⊆ all →
    (m.run memo).2.From (n.run notes).2

namespace Mirrors

variable {α β : Type} {all : Notes}

theorem bind_subset {n : Run Notes α} {m : Run ResultMemo α} {g : α → Run Notes β}
    {f : α → Run ResultMemo β} (hn : Mirrors all n m)
    (hg : ∀ a, (∃ st st', n.Gives st a st') → Mirrors all (g a) (f a)) (notes : Notes) :
    notes ⊆ ((n >>= g).run notes).2 := by
  have hfirst := hn.notes_subset notes
  rw [Run.run_bind]
  rcases hrun : n.run notes with ⟨e | a, mid⟩ <;> rw [hrun] at hfirst
  · exact hfirst
  · exact List.Subset.trans hfirst ((hg a ⟨notes, mid, hrun⟩).notes_subset mid)

/-- One sequence beside the other: where the first steps agree, the second steps go on from what they
left behind. -/
theorem bind_agree {n : Run Notes α} {m : Run ResultMemo α} {g : α → Run Notes β}
    {f : α → Run ResultMemo β} (hn : Mirrors all n m)
    (hg : ∀ a, (∃ st st', n.Gives st a st') → Mirrors all (g a) (f a)) {memo : ResultMemo}
    {notes : Notes} (hfrom : memo.From notes) (hall : ((n >>= g).run notes).2 ⊆ all) :
    ((m >>= f).run memo).1 = ((n >>= g).run notes).1 ∧
      ((m >>= f).run memo).2.From ((n >>= g).run notes).2 := by
  rw [Run.run_bind] at hall ⊢
  rw [Run.run_bind]
  have hvalue := hn.value_eq hfrom
  have hkept := hn.from_notes hfrom
  rcases hrun : n.run notes with ⟨e | a, mid⟩ <;> rw [hrun] at hall hvalue hkept
  · rcases hm : m.run memo with ⟨x, memo'⟩
    rw [hm] at hvalue hkept
    cases hvalue hall
    exact ⟨rfl, hkept hall⟩
  · have hsecond := hg a ⟨notes, mid, hrun⟩
    have hmid : mid ⊆ all := List.Subset.trans (hsecond.notes_subset mid) hall
    rcases hm : m.run memo with ⟨x, memo'⟩
    rw [hm] at hvalue hkept
    cases hvalue hmid
    exact ⟨hsecond.value_eq (hkept hmid) hall, hsecond.from_notes (hkept hmid) hall⟩

end Mirrors

def mirroring (all : Notes) : Lockstep Notes ResultMemo where
  rel n m := Mirrors all n m
  pure _ := ⟨fun _ => List.Subset.refl _, fun _ _ => rfl, fun h _ => h⟩
  throw _ := ⟨fun _ => List.Subset.refl _, fun _ _ => rfl, fun h _ => h⟩
  bind hn hg :=
    { notes_subset := Mirrors.bind_subset hn hg
      value_eq := fun hfrom hall => (Mirrors.bind_agree hn hg hfrom hall).1
      from_notes := fun hfrom hall => (Mirrors.bind_agree hn hg hfrom hall).2 }

/-- A remembered result is the one that running the statement again comes to. -/
theorem mirroring_remembered {all : Notes} (hall : all.Consistent) :
    (mirroring all).Keeps noted remembered := by
  intro run₁ run₂ q h
  have agree {memo : ResultMemo} {notes : Notes} (hfrom : memo.From notes)
      (hsub : ((noted run₁ q).run notes).2 ⊆ all) :
      ((remembered run₂ q).run memo).1 = ((noted run₁ q).run notes).1 ∧
        ((remembered run₂ q).run memo).2.From ((noted run₁ q).run notes).2 := by
    rw [run_noted] at hsub ⊢
    rw [run_remembered]
    obtain ⟨hhere, hrest⟩ := List.cons_subset.mp hsub
    cases hq : memo.lookup q.text with
    | some r =>
      obtain ⟨p, hp, hmem⟩ := hfrom q.text r hq
      have hnotes := h.notes_subset notes
      have he := hall _ (hrest (hnotes hmem)) _ hhere hp
      exact ⟨he, hfrom.mono (List.subset_cons_of_subset _ hnotes)⟩
    | none =>
      have hvalue := h.value_eq hfrom hrest
      have hkept := h.from_notes hfrom hrest
      rcases hrun : (run₂ q).run memo with ⟨e | r, mid⟩ <;> rw [hrun] at hvalue hkept
      · exact ⟨hvalue, hkept.mono (List.subset_cons_self _ _)⟩
      · refine ⟨hvalue, ?_⟩
        rw [← hvalue]
        exact hkept.cons
  exact
    { notes_subset := fun notes => List.subset_cons_of_subset _ (h.notes_subset notes)
      value_eq := fun hfrom hsub => (agree hfrom hsub).1
      from_notes := fun hfrom hsub => (agree hfrom hsub).2 }

/-- Kept results stay unseen in every query that meets no two statements of one text that come to
different results. -/
theorem execute_eq_executeAnew (world : World) (s : Statement) (h : (met world s).Consistent) :
    execute world s = executeAnew world s := by
  have hmirrors := (mirroring (met world s)).run (mirroring_remembered h) s.depth (.refl world s)
  have hempty : ResultMemo.From [] [] := by
    intro text r hr
    cases hr
  have hvalue := hmirrors.value_eq hempty (List.Subset.refl _)
  have hanew := noting.run noting_noted s.depth (.refl world s) []
  unfold execute executeAnew
  rw [hvalue, hanew]

/-- A table `T` with a letter in its only row. -/
def letterWorld : World :=
  ⟨.ofList [.derived "T" ["A"] [[.text "x"]]], .empty, .midnight ⟨2020, 1, 1⟩⟩

def sameTwice : String :=
  "SELECT X.A FROM (SELECT A FROM T) AS X INNER JOIN (SELECT A FROM T) AS Y ON X.A = Y.A"

theorem execute_eq_executeAnew_sameTwice :
    ∃ s, Parser.parseStatement sameTwice = .ok s ∧
      (met letterWorld s).map (fun m => m.1.text) = ["SELECT A FROM T", "SELECT A FROM T"] ∧
      (met letterWorld s).Consistent ∧ execute letterWorld s = executeAnew letterWorld s := by
  have hmet : (Parser.parseStatement sameTwice).map (fun s =>
      ((met letterWorld s).map fun m => m.1.text, decide (met letterWorld s).Consistent)) =
        .ok (["SELECT A FROM T", "SELECT A FROM T"], true) := by decide +kernel
  cases hs : Parser.parseStatement sameTwice with
  | error e =>
    rw [hs] at hmet
    cases hmet
  | ok s =>
    rw [hs] at hmet
    obtain ⟨htexts, hsame⟩ := Prod.mk.inj (Except.ok.inj hmet)
    have hconsistent : (met letterWorld s).Consistent := of_decide_eq_true hsame
    exact ⟨s, rfl, htexts, hconsistent, execute_eq_executeAnew letterWorld s hconsistent⟩

/-- The operands have one text and were written in two ways. -/
def writtenTwoWays : String :=
  "SELECT * FROM (SELECT A||A FROM T) AS X INNER JOIN (SELECT A || A FROM T) AS Y ON 'k' = 'k'"

/-- What was kept for the first operand gives the second one a title it was not written with. -/
theorem execute_ne_executeAnew_writtenTwoWays :
    ∃ s, Parser.parseStatement writtenTwoWays = .ok s ∧
      execute letterWorld s = .ok ⟨["X.A||A", "Y.A||A"], [[.text "xx", .text "xx"]]⟩ ∧
      executeAnew letterWorld s = .ok ⟨["X.A||A", "Y.A_||_A"], [[.text "xx", .text "xx"]]⟩ ∧
      execute letterWorld s ≠ executeAnew letterWorld s := by
  have hboth : (Parser.parseStatement writtenTwoWays).map
      (fun s => (execute letterWorld s, executeAnew letterWorld s)) =
        .ok (.ok ⟨["X.A||A", "Y.A||A"], [[.text "xx", .text "xx"]]⟩,
          .ok ⟨["X.A||A", "Y.A_||_A"], [[.text "xx", .text "xx"]]⟩) := by decide +kernel
  cases hs : Parser.parseStatement writtenTwoWays with
  | error e =>
    rw [hs] at hboth
    cases hboth
  | ok s =>
    rw [hs] at hboth
    obtain ⟨hkept, hanew⟩ := Prod.mk.inj (Except.ok.inj hboth)
    refine ⟨s, rfl, hkept, hanew, ?_⟩
    rw [hkept, hanew]
    decide

end GridQuery
