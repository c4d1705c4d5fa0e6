import GridQuery.Proofs.Replay

/-!
The filter and the test of single rows. The filter narrows candidates term by term, the test reads the
condition on one row and stops early; they look at different terms on different rows, and still select
the same.
-/

namespace GridQuery
set_option autoImplicit false

namespace Rows

variable {σ : Type} {r : Rows σ}

theorem keep_sublist {t : Test} {rows kept : List Nat} {st st' : σ}
    (h : (r.keep t rows).Gives st kept st') : kept.Sublist rows := by
  induction rows generalizing kept st st' with
  | nil =>
    simp only [keep, Run.gives_pure] at h
    exact h.1 ▸ List.Sublist.refl _
  | cons row rows ih =>
    simp only [keep] at h
    obtain ⟨hit, mid, _, h⟩ := Run.gives_bind.mp h
    obtain ⟨others, mid', hothers, h⟩ := Run.gives_bind.mp h
    obtain ⟨rfl, _⟩ := Run.gives_pure.mp h
    cases hit with
    | true => exact (ih hothers).cons_cons row
    | false => exact (ih hothers).cons row

theorem leaf_sublist {c : Condition} {rows kept : List Nat} {st st' : σ}
    (h : (r.leaf c rows).Gives st kept st') : kept.Sublist rows := by
  obtain ⟨t, mid, _, h⟩ := Run.gives_bind.mp h
  exact keep_sublist h

mutual

theorem select_sublist : ∀ {c : Condition} {rows ids : List Nat} {st st' : σ},
    (r.select rows c).Gives st ids st' → ids.Sublist rows
  | .logic .and terms, rows, ids, st, st', h => by
    simp only [select] at h
    exact narrow_sublist h
  | .logic .or terms, rows, ids, st, st', h => by
    simp only [select] at h
    obtain ⟨hits, mid, _, h⟩ := Run.gives_bind.mp h
    obtain ⟨rfl, _⟩ := Run.gives_pure.mp h
    exact List.filter_sublist
  | .not c, rows, ids, st, st', h => by
    simp only [select] at h
    obtain ⟨hits, mid, _, h⟩ := Run.gives_bind.mp h
    obtain ⟨rfl, _⟩ := Run.gives_pure.mp h
    exact List.filter_sublist
  | .compare op a b, rows, ids, st, st', h => by
    simp only [select] at h
    exact leaf_sublist h
  | .exists negated q, rows, ids, st, st', h => by
    simp only [select] at h
    exact leaf_sublist h

theorem narrow_sublist : ∀ {cs : List Condition} {rows ids : List Nat} {st st' : σ},
    (r.narrow rows cs).Gives st ids st' → ids.Sublist rows
  | [], rows, ids, st, st', h => by
    simp only [narrow, Run.gives_pure] at h
    exact h.1 ▸ List.Sublist.refl _
  | c :: cs, rows, ids, st, st', h => by
    simp only [narrow] at h
    split at h
    · rw [(Run.gives_pure.mp h).1]
      exact List.nil_sublist rows
    · obtain ⟨rows', mid, hrows, h⟩ := Run.gives_bind.mp h
      exact (narrow_sublist h).trans (select_sublist hrows)

end

end Rows

section Settled

variable {world : World} {table : Table} {depth : Nat} {memo : ResultMemo}

theorem repeatable_keep (t : Test) (rows : List Nat) :
    Repeatable ((rowsAt world table depth).keep t rows) :=
  Lockstep.keep (repeating_reads world depth) (fun _ _ => trivial) rows

theorem repeatable_narrow (rows : List Nat) (cs : List Condition) :
    Repeatable ((rowsAt world table depth).narrow rows cs) :=
  Lockstep.narrow (repeating_reads world depth) cs (fun _ _ => trivial) (fun _ _ => trivial) rows

theorem repeatable_gather (rows : List Nat) (cs : List Condition) :
    Repeatable ((rowsAt world table depth).gather rows cs) :=
  Lockstep.gather (repeating_reads world depth) cs (fun _ _ => trivial) (fun _ _ => trivial) rows

theorem repeatable_allHold (ts : List Test) (row : Nat) :
    Repeatable ((rowsAt world table depth).allHold row ts) :=
  Lockstep.allHold (repeating_reads world depth) row ts fun _ _ => trivial

theorem repeatable_anyHolds (ts : List Test) (row : Nat) :
    Repeatable ((rowsAt world table depth).anyHolds row ts) :=
  Lockstep.anyHolds (repeating_reads world depth) row ts fun _ _ => trivial

theorem mem_keep_iff {t : Test} {rows kept : List Nat} {row : Nat} {b : Bool}
    (h : ((rowsAt world table depth).keep t rows).Settles memo kept) (hrow : row ∈ rows)
    (hb : ((rowsAt world table depth).holds row t).Settles memo b) : row ∈ kept ↔ b = true := by
  induction rows generalizing kept with
  | nil => cases hrow
  | cons first rows ih =>
    simp only [Rows.keep] at h
    obtain ⟨hit, hhit, h⟩ := (Run.settles_bind (repeatable_holds world table depth first t)
      fun _ => (repeatable_keep t rows).bind fun _ _ => .pure _).mp h
    obtain ⟨others, hothers, h⟩ := (Run.settles_bind (repeatable_keep t rows)
      fun _ => .pure _).mp h
    rw [Run.settles_pure] at h
    subst h
    by_cases hmem : row ∈ rows
    · have hrest := ih hothers hmem
      by_cases hfirst : row = first
      · subst hfirst
        obtain rfl := hb.unique hhit
        cases b with
        | true => simp
        | false => simpa using hrest
      · cases hit with
        | true => simpa [hfirst] using hrest
        | false => simpa using hrest
    · obtain rfl : row = first := (List.mem_cons.mp hrow).resolve_right hmem
      obtain rfl := hb.unique hhit
      have hnot : row ∉ others := fun hin => hmem ((Rows.keep_sublist hothers).subset hin)
      cases b with
      | true => simp
      | false => simpa using hnot

theorem mem_leaf_iff {c : Condition} {t : Test} {rows ids : List Nat} {row : Nat} {b : Bool}
    (h : ((rowsAt world table depth).leaf c rows).Settles memo ids)
    (ht : (rowsAt world table depth).scope.test c = .ok t) (hrow : row ∈ rows)
    (hb : ((rowsAt world table depth).holds row t).Settles memo b) : row ∈ ids ↔ b = true := by
  obtain ⟨u, hu, h⟩ := (Run.settles_bind (.of _) fun u => repeatable_keep u rows).mp h
  obtain rfl : t = u := Except.ok.inj (ht.symm.trans (Run.settles_of.mp hu))
  exact mem_keep_iff h hrow hb

mutual

/-- The induction behind the agreement, over any candidates: a condition selects a candidate exactly
where its test holds. -/
theorem mem_select_iff {row : Nat} : ∀ {c : Condition} {t : Test} {rows ids : List Nat} {b : Bool},
    ((rowsAt world table depth).select rows c).Settles memo ids →
    (rowsAt world table depth).scope.test c = .ok t → row ∈ rows →
    ((rowsAt world table depth).holds row t).Settles memo b → (row ∈ ids ↔ b = true)
  | .logic .and terms, t, rows, ids, b, h, ht, hrow, hb => by
    simp only [Scope.test] at ht
    obtain ⟨ts, hts, ht⟩ := bind_eq_ok.mp ht
    cases ht
    simp only [Rows.select] at h
    simp only [Rows.holds] at hb
    exact mem_narrow_iff h hts hrow hb
  | .logic .or terms, t, rows, ids, b, h, ht, hrow, hb => by
    simp only [Scope.test] at ht
    obtain ⟨ts, hts, ht⟩ := bind_eq_ok.mp ht
    cases ht
    simp only [Rows.select] at h
    simp only [Rows.holds] at hb
    obtain ⟨hits, hhits, h⟩ := (Run.settles_bind (repeatable_gather rows terms)
      fun _ => .pure _).mp h
    rw [Run.settles_pure] at h
    subst h
    have hgather := mem_gather_iff hhits hts hrow hb
    simpa [hrow] using hgather
  | .not c, t, rows, ids, b, h, ht, hrow, hb => by
    simp only [Scope.test] at ht
    obtain ⟨u, hu, ht⟩ := bind_eq_ok.mp ht
    cases ht
    simp only [Rows.select] at h
    simp only [Rows.holds] at hb
    obtain ⟨hits, hhits, h⟩ := (Run.settles_bind (repeatable_select world table depth rows c)
      fun _ => .pure _).mp h
    obtain ⟨b', hb', hb⟩ := (Run.settles_bind (repeatable_holds world table depth row u)
      fun _ => .pure _).mp hb
    rw [Run.settles_pure] at h hb
    subst h
    subst hb
    have hselect := mem_select_iff hhits hu hrow hb'
    cases b' <;> simpa [hrow] using hselect
  | .compare op a b', t, rows, ids, b, h, ht, hrow, hb => by
    simp only [Rows.select] at h
    exact mem_leaf_iff h ht hrow hb
  | .exists negated q, t, rows, ids, b, h, ht, hrow, hb => by
    simp only [Rows.select] at h
    exact mem_leaf_iff h ht hrow hb

theorem mem_narrow_iff {row : Nat} : ∀ {cs : List Condition} {ts : List Test}
    {rows ids : List Nat} {b : Bool},
    ((rowsAt world table depth).narrow rows cs).Settles memo ids →
    (rowsAt world table depth).scope.tests cs = .ok ts → row ∈ rows →
    ((rowsAt world table depth).allHold row ts).Settles memo b → (row ∈ ids ↔ b = true)
  | [], ts, rows, ids, b, h, hts, hrow, hb => by
    simp only [Scope.tests, Except.ok.injEq] at hts
    subst hts
    simp only [Rows.narrow, Run.settles_pure] at h
    simp only [Rows.allHold, Run.settles_pure] at hb
    subst h
    subst hb
    simpa using hrow
  | c :: cs, ts, rows, ids, b, h, hts, hrow, hb => by
    simp only [Scope.tests] at hts
    obtain ⟨t, ht, hts⟩ := bind_eq_ok.mp hts
    obtain ⟨us, hus, hts⟩ := bind_eq_ok.mp hts
    cases hts
    have hne : rows.isEmpty = false := by
      cases rows with
      | nil => cases hrow
      | cons => rfl
    simp only [Rows.narrow, hne, Bool.false_eq_true, if_false] at h
    simp only [Rows.allHold] at hb
    obtain ⟨rows', hrows', h⟩ := (Run.settles_bind (repeatable_select world table depth rows c)
      fun _ => repeatable_narrow _ cs).mp h
    obtain ⟨b', hb', hb⟩ := (Run.settles_bind (repeatable_holds world table depth row t)
      fun b' => by
        cases b' with
        | true => exact repeatable_allHold us row
        | false => exact .pure _).mp hb
    have hfirst := mem_select_iff hrows' ht hrow hb'
    cases b' with
    | true => exact mem_narrow_iff h hus (hfirst.mpr rfl) hb
    | false =>
      -- a candidate that the first term drops does not come back
      obtain rfl := Run.settles_pure.mp hb
      have hnot : row ∉ rows' := fun hin => Bool.noConfusion (hfirst.mp hin)
      have hsub := Rows.narrow_sublist h
      simpa using fun hin => hnot (hsub.subset hin)

theorem mem_gather_iff {row : Nat} : ∀ {cs : List Condition} {ts : List Test}
    {rows hits : List Nat} {b : Bool},
    ((rowsAt world table depth).gather rows cs).Settles memo hits →
    (rowsAt world table depth).scope.tests cs = .ok ts → row ∈ rows →
    ((rowsAt world table depth).anyHolds row ts).Settles memo b → (row ∈ hits ↔ b = true)
  | [], ts, rows, hits, b, h, hts, hrow, hb => by
    simp only [Scope.tests, Except.ok.injEq] at hts
    subst hts
    simp only [Rows.gather, Run.settles_pure] at h
    simp only [Rows.anyHolds, Run.settles_pure] at hb
    subst h
    subst hb
    simp
  | c :: cs, ts, rows, hits, b, h, hts, hrow, hb => by
    simp only [Scope.tests] at hts
    obtain ⟨t, ht, hts⟩ := bind_eq_ok.mp hts
    obtain ⟨us, hus, hts⟩ := bind_eq_ok.mp hts
    cases hts
    simp only [Rows.gather] at h
    simp only [Rows.anyHolds] at hb
    obtain ⟨ids, hids, h⟩ := (Run.settles_bind (repeatable_select world table depth rows c)
      fun _ => (repeatable_gather rows cs).bind fun _ _ => .pure _).mp h
    obtain ⟨others, hothers, h⟩ := (Run.settles_bind (repeatable_gather rows cs)
      fun _ => .pure _).mp h
    rw [Run.settles_pure] at h
    subst h
    obtain ⟨b', hb', hb⟩ := (Run.settles_bind (repeatable_holds world table depth row t)
      fun b' => by
        cases b' with
        | true => exact .pure _
        | false => exact repeatable_anyHolds us row).mp hb
    have hfirst := mem_select_iff hids ht hrow hb'
    cases b' with
    | true =>
      obtain rfl := Run.settles_pure.mp hb
      simp [hfirst]
    | false =>
      have hrest := mem_gather_iff hothers hus hrow hb
      simp [hfirst, hrest]

end

end Settled

/-- The filter selects the rows on which the condition, read row by row, holds: in ascending order,
and whatever either of them ran and kept before, as long as no nested statement has one result in
what the filter kept and another in what the test kept. -/
theorem mem_matching_iff_satisfies {world : World} {table : Table} {depth : Nat} {c : Condition}
    {memo kept : ResultMemo} {ids : List Nat}
    (h : ((rowsAt world table depth).matching (some c)).Gives memo ids kept) :
    ids.Pairwise (· < ·) ∧ (∀ row ∈ ids, row < table.rows.length) ∧
    ∀ {row : Nat} {b : Bool} {before after : ResultMemo}, row < table.rows.length →
      ((rowsAt world table depth).satisfies c row).Gives before b after → kept.Agree after →
      (row ∈ ids ↔ b = true) := by
  have hsub : ids.Sublist (List.range table.rows.length) := Rows.select_sublist h
  refine ⟨List.Pairwise.sublist hsub List.pairwise_lt_range, ?_, ?_⟩
  · intro row hrow
    exact List.mem_range.mp (hsub.subset hrow)
  · intro row b before after hlt hb hagree
    -- on a memo with what both kept, both run again and add nothing
    have hsel := (repeatable_select world table depth _ c).again h
      (ResultMemo.keptIn_append_left kept after)
    have hsat := (repeatable_satisfies world table depth c row).again hb hagree.keptIn_append_right
    obtain ⟨t, ht, hholds⟩ := (Run.settles_bind (.of _)
      fun t => repeatable_holds world table depth row t).mp hsat
    exact mem_select_iff hsel (Run.settles_of.mp ht) (List.mem_range.mpr hlt) hholds

def letters : Table := .derived "LETTERS" ["A"] [[.text "x"], [.text "y"], [.null]]

/-- `SELECT A FROM LETTERS LIMIT 1` -/
def firstLetter : Statement :=
  ⟨false, [⟨.column none "A", "A", none⟩], .table "LETTERS" none, [], none, [], none, [], some 1,
    none, []⟩

/-- `NOT (A IN (SELECT A FROM LETTERS LIMIT 1))` -/
def otherLetter : Condition :=
  .not (.compare .isIn (.column none "A") (.subquery firstLetter))

def lettersRows : Rows ResultMemo :=
  rowsAt ⟨.ofList [letters], .empty, .midnight ⟨2020, 1, 1⟩⟩ letters 1

theorem mem_matching_iff_satisfies_otherLetter :
    (lettersRows.matching (some otherLetter)).Gives [] [1, 2]
      [(firstLetter.text, ⟨["A"], [[.text "x"]]⟩)] ∧
    (lettersRows.satisfies otherLetter 1).Gives [] true
      [(firstLetter.text, ⟨["A"], [[.text "x"]]⟩)] ∧
    (1 ∈ [1, 2] ↔ true = true) := by
  have hids : (lettersRows.matching (some otherLetter)).Gives [] [1, 2]
      [(firstLetter.text, ⟨["A"], [[.text "x"]]⟩)] := by decide +kernel
  have htest : (lettersRows.satisfies otherLetter 1).Gives [] true
      [(firstLetter.text, ⟨["A"], [[.text "x"]]⟩)] := by decide +kernel
  have hagree := (ResultMemo.KeptIn.refl [(firstLetter.text, ⟨["A"], [[.text "x"]]⟩)]).agree
  exact ⟨hids, htest, (mem_matching_iff_satisfies hids).2.2 (by decide) htest hagree⟩

end GridQuery
