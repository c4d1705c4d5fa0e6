import GridQuery.Table.Schema

/-!
Names behind names. The title of a column is normalized together with the name of its table before it, so
blanks at the end of that name count. Names that are one name before a point are one name before
everything that follows it.
-/

namespace GridQuery
set_option autoImplicit false

namespace Text

/-- A character that is no blank ends a stretch with what is under way before it, and begins one with what
follows it. -/
theorem wordsFrom_behind (r : List Char) (c : Char) :
    ∃ w ws, ∀ word, wordsFrom (c :: word) r = (word.reverse ++ c :: w) :: ws := by
  induction r generalizing c with
  | nil =>
    refine ⟨[], [], fun word => ?_⟩
    simp [wordsFrom]
  | cons x r ih =>
    cases hx : isBlank x with
    | true =>
      refine ⟨[], wordsFrom [] r, fun word => ?_⟩
      simp [wordsFrom, hx]
    | false =>
      obtain ⟨w, ws, hws⟩ := ih x
      refine ⟨x :: w, ws, fun word => ?_⟩
      simp [wordsFrom, hx, hws]

/-- What stands before a character that is no blank gives the same stretches whatever follows it. -/
theorem wordsFrom_before (cs word : List Char) {c : Char} (hc : isBlank c = false) :
    ∃ ws last, ∀ r, wordsFrom word (cs ++ c :: r) = ws ++ wordsFrom (c :: last) r := by
  induction cs generalizing word with
  | nil =>
    refine ⟨[], word, fun r => ?_⟩
    simp [wordsFrom, hc]
  | cons x cs ih =>
    cases hx : isBlank x with
    | false =>
      obtain ⟨ws, last, hws⟩ := ih (x :: word)
      refine ⟨ws, last, fun r => ?_⟩
      simp [wordsFrom, hx, hws]
    | true =>
      obtain ⟨ws, last, hws⟩ := ih []
      by_cases hword : word.isEmpty = true
      · refine ⟨ws, last, fun r => ?_⟩
        simp [wordsFrom, hx, hword, hws]
      · refine ⟨word.reverse :: ws, last, fun r => ?_⟩
        simp [wordsFrom, hx, hword, hws]

theorem intercalate_append (sep : List Char) (ws : List (List Char)) (p q : List Char)
    (rest : List (List Char)) :
    sep.intercalate (ws ++ (p ++ q) :: rest) =
      sep.intercalate (ws ++ [p]) ++ sep.intercalate (q :: rest) := by
  induction ws with
  | nil => cases rest <;> simp [List.intercalate]
  | cons w ws ih =>
    cases ws with
    | nil => simpa [List.intercalate] using ih
    | cons w' ws => simpa [List.intercalate] using ih

theorem toUpper_append (s t : String) : toUpper (s ++ t) = toUpper s ++ toUpper t := by
  apply String.toList_inj.mp
  simp [toUpper]

end Text

/-- A normalized name behind a point adds to the name before the point what does not depend on it. -/
theorem normalize_behind_point (title : String) :
    ∃ rest, ∀ name, normalize (name ++ "." ++ title) = normalize (name ++ ".") ++ rest := by
  obtain ⟨w, ws, hbehind⟩ := Text.wordsFrom_behind title.toList '.'
  refine ⟨Text.toUpper (String.ofList (['_'].intercalate (w :: ws))), fun name => ?_⟩
  obtain ⟨before, last, hbefore⟩ := Text.wordsFrom_before name.toList [] (c := '.') rfl
  have hwhole : Text.words (name ++ "." ++ title).toList =
      before ++ ((last.reverse ++ ['.']) ++ w) :: ws := by
    rw [Text.words, String.toList_append, String.toList_append]
    simpa [hbehind] using hbefore title.toList
  have hname : Text.words (name ++ ".").toList = before ++ [last.reverse ++ ['.']] := by
    rw [Text.words, String.toList_append]
    simpa [Text.wordsFrom] using hbefore []
  rw [normalize, normalize, hwhole, hname, Text.intercalate_append, String.ofList_append,
    Text.toUpper_append]

/-- Names that are one name before a point qualify a title alike. -/
theorem normalize_qualified_congr {a b : String} (h : normalize (a ++ ".") = normalize (b ++ "."))
    (title : String) : normalize (a ++ "." ++ title) = normalize (b ++ "." ++ title) := by
  obtain ⟨rest, hrest⟩ := normalize_behind_point title
  rw [hrest, hrest, h]

end GridQuery
