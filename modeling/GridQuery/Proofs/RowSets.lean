import GridQuery.Proofs.Sorting

/-!
Rows as elements of sets. Set operations and the repeats that a distinct statement drops go by the joined
texts of rows. Where the joined text of a row comes apart in one way only, that is to go cell by cell; where
a text holds the separator, two different rows may count as one.
-/

namespace GridQuery
set_option autoImplicit false

/-- The joined texts are equal. -/
def alike (a b : Row) : Bool :=
  a.signature == b.signature

/-- Each cell has the text of the cell in its place. -/
def alikeByCells (a b : Row) : Bool :=
  a.map Cell.key == b.map Cell.key

/-- No text of the row but the last holds a separator, or ends with the first half of one. -/
def Separable (row : Row) : Prop :=
  ∀ c ∈ row.dropLast, ¬ [':', ':'] <:+: c.key.toList ++ [':']

instance (row : Row) : Decidable (Separable row) :=
  inferInstanceAs (Decidable (∀ c ∈ row.dropLast, ¬ [':', ':'] <:+: c.key.toList ++ [':']))

/-- Set operations on rows of which those are one that `same` calls so. -/
def combineBy (same : Row → Row → Bool) (op : SetOperator) (left right : List Row) : List Row :=
  match op with
  | .unionAll => left ++ right
  | .union => (left ++ right).eraseDupsBy same
  | .intersect => (left.filter fun a => right.any (same a)).eraseDupsBy same
  | .except => left.filter fun a => !right.any (same a)

section Erasing

variable {α : Type}

/-- Each item stays that no earlier one has the text of. -/
theorem keepFirst_eq_eraseDupsBy (text : α → String) (items : List α) (seen : List String) :
    keepFirst text seen items =
      (items.filter fun a => text a ∉ seen).eraseDupsBy fun a b => text a == text b := by
  induction items generalizing seen with
  | nil => rfl
  | cons a items ih =>
    unfold keepFirst
    by_cases h : text a ∈ seen
    · simp only [h, if_true, not_true, decide_false, Bool.false_eq_true, not_false_iff,
        List.filter_cons_of_neg, ih]
    · simp only [h, if_false, not_false_iff, decide_true, List.filter_cons_of_pos,
        List.eraseDupsBy_cons, List.filter_filter, ih]
      congr 2
      apply List.filter_congr
      intro b _
      by_cases hb : text b = text a <;> simp [hb]

theorem eraseDupsBy_congr {r r' : α → α → Bool} {items : List α}
    (h : ∀ a ∈ items, ∀ b ∈ items, r a b = r' a b) : items.eraseDupsBy r = items.eraseDupsBy r' := by
  induction hn : items.length using Nat.strong_induction_on generalizing items with
  | _ n ih =>
    cases items with
    | nil => rfl
    | cons a items =>
      have hfilter : (items.filter fun b => r b a = false) = items.filter fun b => r' b a = false := by
        apply List.filter_congr
        intro b hb
        rw [h b (List.mem_cons_of_mem a hb) a List.mem_cons_self]
      rw [List.eraseDupsBy_cons, List.eraseDupsBy_cons, hfilter]
      congr 1
      refine ih _ ?_ (fun x hx y hy => ?_) rfl
      · have := List.length_filter_le (fun b => decide (r' b a = false)) items
        simp only [List.length_cons] at hn
        omega
      · exact h x (List.mem_cons_of_mem a (List.mem_of_mem_filter hx))
          y (List.mem_cons_of_mem a (List.mem_of_mem_filter hy))

end Erasing

section Signatures

/-- A separator that neither text holds, whole or by its first half at the end, ends both alike. -/
theorem append_separator_inj {s t : List Char} {x y : List Char}
    (hs : ¬ [':', ':'] <:+: s ++ [':']) (ht : ¬ [':', ':'] <:+: t ++ [':'])
    (h : s ++ ':' :: ':' :: x = t ++ ':' :: ':' :: y) : s = t ∧ x = y := by
  induction s generalizing t with
  | nil =>
    match t with
    | [] => simpa using h
    | [c] =>
      obtain ⟨rfl, -⟩ := List.cons.inj h
      exact absurd (List.infix_refl _) ht
    | c :: d :: t =>
      simp only [List.nil_append, List.cons_append, List.cons.injEq] at h
      obtain ⟨rfl, rfl, -⟩ := h
      exact absurd ⟨[], t ++ [':'], rfl⟩ ht
  | cons c s ih =>
    cases t with
    | nil =>
      cases s with
      | nil =>
        obtain ⟨rfl, -⟩ := List.cons.inj h
        exact absurd (List.infix_refl _) hs
      | cons d s =>
        simp only [List.nil_append, List.cons_append, List.cons.injEq] at h
        obtain ⟨rfl, rfl, -⟩ := h
        exact absurd ⟨[], s ++ [':'], rfl⟩ hs
    | cons d t =>
      simp only [List.cons_append, List.cons.injEq] at h
      obtain ⟨rfl, h⟩ := h
      obtain ⟨rfl, rfl⟩ := ih (fun hin => hs (List.infix_cons hin))
        (fun hin => ht (List.infix_cons hin)) h
      exact ⟨rfl, rfl⟩

theorem toList_signature_cons (c d : Cell) (row : Row) :
    (Row.signature (c :: d :: row)).toList =
      c.key.toList ++ ':' :: ':' :: (Row.signature (d :: row)).toList := by
  simp only [Row.signature, String.toList_intercalate, List.map_cons,
    List.intercalate_cons_cons]
  simp

/-- Rows of one width whose texts come apart in one way have one joined text just where their cells have
the same texts. -/
theorem signature_eq_iff : ∀ {a b : Row}, a.length = b.length → Separable a → Separable b →
    (Row.signature a = Row.signature b ↔ a.map Cell.key = b.map Cell.key)
  | [], [], _, _, _ => by simp
  | [c], [d], _, _, _ => by simp [Row.signature]
  | c :: c' :: a, d :: d' :: b, hlength, ha, hb => by
    have htail := signature_eq_iff (a := c' :: a) (b := d' :: b) (by simpa using hlength)
      (fun e he => ha e (List.mem_cons_of_mem c he)) (fun e he => hb e (List.mem_cons_of_mem d he))
    rw [List.map_cons, List.map_cons (a := d), List.cons.injEq, ← htail, ← String.toList_inj,
      toList_signature_cons, toList_signature_cons]
    constructor
    · intro h
      obtain ⟨hkey, hrest⟩ := append_separator_inj (ha c (by simp)) (hb d (by simp)) h
      exact ⟨String.toList_inj.mp hkey, String.toList_inj.mp hrest⟩
    · rintro ⟨hkey, hrest⟩
      rw [hkey, hrest]
  | [_], _ :: _ :: _, hlength, _, _ => by simp at hlength
  | _ :: _ :: _, [_], hlength, _, _ => by simp at hlength

theorem alike_eq_alikeByCells {a b : Row} (hlength : a.length = b.length) (ha : Separable a)
    (hb : Separable b) : alike a b = alikeByCells a b := by
  rw [Bool.eq_iff_iff]
  simp only [alike, alikeByCells, beq_iff_eq]
  exact signature_eq_iff hlength ha hb

end Signatures

section Sets

theorem contains_map_signature (rows : List Row) (row : Row) :
    (rows.map Row.signature).contains row.signature = rows.any (alike row) := by
  induction rows with
  | nil => rfl
  | cons r rows ih => rw [List.map_cons, List.contains_cons, ih, List.any_cons, alike]

theorem combineRows_eq_combineBy (op : SetOperator) (left right : List Row) :
    combineRows op left right = combineBy alike op left right := by
  have hkeep (rows : List Row) : keepFirst Row.signature [] rows = rows.eraseDupsBy alike := by
    rw [keepFirst_eq_eraseDupsBy]
    simp only [List.not_mem_nil, not_false_iff, decide_true, List.filter_true]
    rfl
  cases op <;> simp only [combineRows, combineBy, hkeep, contains_map_signature]

theorem combineBy_congr {same same' : Row → Row → Bool} {op : SetOperator} {left right : List Row}
    (h : ∀ a ∈ left ++ right, ∀ b ∈ left ++ right, same a b = same' a b) :
    combineBy same op left right = combineBy same' op left right := by
  have hany : ∀ a ∈ left, right.any (same a) = right.any (same' a) := by
    intro a ha
    rw [Bool.eq_iff_iff, List.any_eq_true, List.any_eq_true]
    refine exists_congr fun b => and_congr_right fun hb => ?_
    rw [h a (List.mem_append_left right ha) b (List.mem_append_right left hb)]
  cases op with
  | unionAll => rfl
  | union => exact eraseDupsBy_congr h
  | intersect =>
    simp only [combineBy]
    rw [List.filter_congr hany]
    apply eraseDupsBy_congr
    intro a ha b hb
    exact h a (List.mem_append_left right (List.mem_of_mem_filter ha))
      b (List.mem_append_left right (List.mem_of_mem_filter hb))
  | except =>
    simp only [combineBy]
    exact List.filter_congr fun a ha => congrArg not (hany a ha)

theorem dropRepeats_eq_eraseDupsBy (fields : Fields) (rows : List Row) :
    dropRepeats fields rows =
      rows.eraseDupsBy fun a b =>
        alike (a.take fields.selectedCount) (b.take fields.selectedCount) := by
  rw [dropRepeats, keepFirst_eq_eraseDupsBy]
  simp only [List.not_mem_nil, not_false_iff, decide_true, List.filter_true]
  rfl

theorem grouped_distinct {fields : Fields} {keys : List Nat} (hkeys : keys ≠ []) (rows : List Row) :
    grouped fields keys true rows = dropRepeats fields (groupBy fields keys rows) := by
  simp only [grouped, List.isEmpty_eq_false_iff.mpr hkeys, Bool.false_and, Bool.false_eq_true,
    if_false, if_true]

end Sets

/-- Set operations, and the repeats that a distinct statement with keys drops from its groups, take rows for
one exactly if their joined texts are equal. For rows of one width whose texts come apart in one way, that
is to have the same texts cell by cell, and no row goes because of a different one. -/
theorem alike_rows_are_one :
    (∀ (op : SetOperator) (left right : ResultSet), left.titles.length = right.titles.length →
      left.combine op right = .ok ⟨left.titles, combineBy alike op left.rows right.rows⟩ ∧
      ((∀ row ∈ left.rows ++ right.rows, row.length = left.titles.length ∧ Separable row) →
        left.combine op right =
          .ok ⟨left.titles, combineBy alikeByCells op left.rows right.rows⟩)) ∧
    ∀ (fields : Fields) (keys : List Nat) (rows : List Row), keys ≠ [] →
      (∀ row ∈ rows, row.length = fields.length) →
      let shown := fun row : Row => row.take fields.selectedCount
      grouped fields keys true rows =
        (groupBy fields keys rows).eraseDupsBy (fun a b => alike (shown a) (shown b)) ∧
      ((∀ row ∈ groupBy fields keys rows, Separable (shown row)) →
        grouped fields keys true rows =
          (groupBy fields keys rows).eraseDupsBy fun a b => alikeByCells (shown a) (shown b)) := by
  constructor
  · intro op left right hwidth
    have hcombine : left.combine op right =
        .ok ⟨left.titles, combineBy alike op left.rows right.rows⟩ := by
      rw [ResultSet.combine, if_pos hwidth, combineRows_eq_combineBy]
    refine ⟨hcombine, fun hrows => ?_⟩
    rw [hcombine]
    congr 2
    apply combineBy_congr
    intro a ha b hb
    obtain ⟨hlengthA, hsepA⟩ := hrows a ha
    obtain ⟨hlengthB, hsepB⟩ := hrows b hb
    exact alike_eq_alikeByCells (hlengthA.trans hlengthB.symm) hsepA hsepB
  · intro fields keys rows hkeys hrows shown
    have hdistinct : grouped fields keys true rows =
        (groupBy fields keys rows).eraseDupsBy fun a b => alike (shown a) (shown b) := by
      rw [grouped_distinct hkeys, dropRepeats_eq_eraseDupsBy]
    refine ⟨hdistinct, fun hsep => ?_⟩
    rw [hdistinct]
    apply eraseDupsBy_congr
    intro a ha b hb
    refine alike_eq_alikeByCells ?_ (hsep a ha) (hsep b hb)
    simp only [shown, List.length_take, groupBy_length hrows a ha, groupBy_length hrows b hb]

def lettered : Fields :=
  [.ofKind (.column 0 0) "A", .ofKind (.column 0 1) "B"]

/-- Two rows in the order of their first cells, which differ. -/
theorem groupBy_lettered {a b : Row} (hcells : a.length = 2 ∧ b.length = 2)
    (h : compareKeys a b [0] = .lt) : groupBy lettered [0] [a, b] = [a, b] := by
  obtain ⟨ha, hb⟩ := hcells
  have hsorted : sortByKeys [0] [a, b] = [a, b] := by
    unfold sortByKeys
    rw [List.mergeSort_of_pairwise]
    simp [h]
  obtain ⟨x, y, rfl⟩ := List.length_eq_two.mp ha
  obtain ⟨z, w, rfl⟩ := List.length_eq_two.mp hb
  rw [groupBy, hsorted]
  have hruns : runs [0] [[x, y], [z, w]] = [[[x, y]], [[z, w]]] := by simp [runs, h]
  rw [hruns]
  rfl

/-- Rows whose texts hold single colons, in a set operation and as groups. -/
theorem alike_rows_are_one_colons :
    ResultSet.combine .union ⟨["A", "B"], [[.text "a", .text "b:c"]]⟩
      ⟨["A", "B"], [[.text "a:b", .text "c"], [.text "a", .text "b:c"]]⟩ =
        .ok ⟨["A", "B"], [[.text "a", .text "b:c"], [.text "a:b", .text "c"]]⟩ ∧
    grouped lettered [0] true [[.text "a", .text "b:c"], [.text "a:b", .text "c"]] =
      [[.text "a", .text "b:c"], [.text "a:b", .text "c"]] := by
  constructor
  · rw [(alike_rows_are_one.1 .union ⟨["A", "B"], [[.text "a", .text "b:c"]]⟩
      ⟨["A", "B"], [[.text "a:b", .text "c"], [.text "a", .text "b:c"]]⟩ rfl).2 (by decide +kernel)]
    decide +kernel
  · have hgroups := groupBy_lettered (a := [.text "a", .text "b:c"]) (b := [.text "a:b", .text "c"])
      (by decide) (by decide +kernel)
    have hdistinct := (alike_rows_are_one.2 lettered [0]
      [[.text "a", .text "b:c"], [.text "a:b", .text "c"]] (by decide) (by decide)).2
    rw [hgroups] at hdistinct
    rw [hdistinct (by decide +kernel)]
    decide +kernel

def coloned : World :=
  ⟨.ofList [.derived "T" ["A", "B"] [[.text "a::b", .text "c"]],
    .derived "U" ["A", "B"] [[.text "a", .text "b::c"]]], .empty, .midnight ⟨2020, 1, 1⟩⟩

/-- Two rows that differ in both cells count as one, in a set operation and as groups: the joined text of
each is `a::b::c`. -/
theorem different_rows_are_one :
    query coloned "SELECT A, B FROM T" = .ok ⟨["A", "B"], [[.text "a::b", .text "c"]]⟩ ∧
    query coloned "SELECT A, B FROM U" = .ok ⟨["A", "B"], [[.text "a", .text "b::c"]]⟩ ∧
    query coloned "SELECT A, B FROM T UNION SELECT A, B FROM U" =
      .ok ⟨["A", "B"], [[.text "a::b", .text "c"]]⟩ ∧
    combineBy alikeByCells .union [[.text "a::b", .text "c"]] [[.text "a", .text "b::c"]] =
      [[.text "a::b", .text "c"], [.text "a", .text "b::c"]] ∧
    groupBy lettered [0] [[.text "a", .text "b::c"], [.text "a::b", .text "c"]] =
      [[.text "a", .text "b::c"], [.text "a::b", .text "c"]] ∧
    grouped lettered [0] true [[.text "a", .text "b::c"], [.text "a::b", .text "c"]] =
      [[.text "a", .text "b::c"]] := by
  have hgroups := groupBy_lettered (a := [.text "a", .text "b::c"]) (b := [.text "a::b", .text "c"])
    (by decide) (by decide +kernel)
  refine ⟨by decide +kernel, by decide +kernel, by decide +kernel, by decide +kernel, hgroups, ?_⟩
  rw [grouped_distinct (by decide), hgroups]
  decide +kernel

end GridQuery
