import Mathlib.Data.List.Infix
import GridQuery.Proofs.SearchExpressions

/-!
Patterns of `LIKE`. For each suffix of a text it is computed whether the pattern covers it, from the end of
the pattern to its start; what comes out for the whole text is whether it has parts that the characters of the
pattern take, and so whether the search for the pattern's expression finds it.
-/

namespace GridQuery
set_option autoImplicit false

namespace Wildcard

/-! ### The marks of the suffixes -/

theorem head?_markEarlier (marks : List Bool) : ((markEarlier marks).head?).getD false = marks.any id := by
  induction marks with
  | nil => rfl
  | cons b marks ih =>
    rw [List.any_cons, ← ih]
    rfl

theorem exists_suffixes (pattern text : List Char) : ∃ b marks, suffixes pattern text = b :: marks := by
  have hbefore (accepts : Char → Bool) (cs : List Char) (marks : List Bool) :
      ∃ b rest, markBefore accepts cs marks = b :: rest := by
    unfold markBefore
    split
    · exact ⟨_, _, rfl⟩
    · exact ⟨false, [], rfl⟩
  induction pattern with
  | nil =>
    cases text with
    | nil => exact ⟨true, [], rfl⟩
    | cons c cs => exact ⟨false, _, rfl⟩
  | cons p pattern ih =>
    obtain ⟨b, marks, h⟩ := ih
    rw [suffixes]
    split
    · rw [h]
      exact ⟨_, _, rfl⟩
    · split
      · exact hbefore _ _ _
      · exact hbefore _ _ _

/-- The marks behind the first one are those of the text without its first character. -/
theorem suffixes_cons (pattern : List Char) (c : Char) (cs : List Char) :
    suffixes pattern (c :: cs) = covers pattern (c :: cs) :: suffixes pattern cs := by
  suffices hmarks : ∃ b, suffixes pattern (c :: cs) = b :: suffixes pattern cs by
    obtain ⟨b, hb⟩ := hmarks
    rw [covers, hb]
    rfl
  induction pattern with
  | nil => exact ⟨false, rfl⟩
  | cons p pattern ih =>
    obtain ⟨b, hb⟩ := ih
    obtain ⟨d, marks, hmarks⟩ := exists_suffixes pattern cs
    rw [suffixes, suffixes, hb]
    split
    · exact ⟨_, rfl⟩
    · rw [hmarks]
      split
      · exact ⟨_, rfl⟩
      · exact ⟨_, rfl⟩

theorem suffixes_eq_map_tails (pattern text : List Char) :
    suffixes pattern text = text.tails.map (covers pattern) := by
  induction text with
  | nil =>
    have hnil : ∃ b, suffixes pattern [] = [b] := by
      induction pattern with
      | nil => exact ⟨true, rfl⟩
      | cons p pattern ih =>
        obtain ⟨b, hb⟩ := ih
        rw [suffixes, hb]
        split
        · exact ⟨_, rfl⟩
        · split
          · exact ⟨_, rfl⟩
          · exact ⟨_, rfl⟩
    obtain ⟨b, hb⟩ := hnil
    rw [List.tails, List.map_singleton, covers, hb]
    rfl
  | cons c cs ih => rw [suffixes_cons, ih, List.tails, List.map_cons]

/-! ### What a pattern covers -/

theorem covers_nil {text : List Char} : covers [] text = true ↔ text = [] := by
  cases text with
  | nil => exact ⟨fun _ => rfl, fun _ => rfl⟩
  | cons c cs => exact ⟨nofun, nofun⟩

theorem covers_any {pattern text : List Char} :
    covers ('%' :: pattern) text = true ↔ ∃ part rest, text = part ++ rest ∧ covers pattern rest = true := by
  rw [covers, suffixes, if_pos rfl, head?_markEarlier, suffixes_eq_map_tails, List.any_map, List.any_eq_true]
  constructor
  · rintro ⟨rest, hrest, hcovers⟩
    obtain ⟨part, rfl⟩ := (List.mem_tails rest text).mp hrest
    exact ⟨part, rest, rfl, hcovers⟩
  · rintro ⟨part, rest, rfl, hcovers⟩
    exact ⟨rest, (List.mem_tails rest _).mpr ⟨part, rfl⟩, hcovers⟩

theorem covers_one {p : Char} {pattern text : List Char} (hany : p ≠ '%') :
    covers (p :: pattern) text = true ↔
      ∃ c rest, text = c :: rest ∧ (p = '_' ∨ Text.foldCase c = Text.foldCase p) ∧ covers pattern rest = true := by
  obtain ⟨accepts, haccepts, hsuffixes⟩ : ∃ accepts : Char → Bool,
      (∀ c, accepts c = true ↔ p = '_' ∨ Text.foldCase c = Text.foldCase p) ∧
        suffixes (p :: pattern) text = markBefore accepts text (suffixes pattern text) := by
    by_cases hone : p = '_'
    · refine ⟨fun _ => true, fun c => ⟨fun _ => .inl hone, fun _ => rfl⟩, ?_⟩
      rw [suffixes, if_neg hany, if_pos hone]
    · refine ⟨fun c => Text.foldCase c == Text.foldCase p, fun c => ?_, ?_⟩
      · rw [beq_iff_eq, or_iff_right hone]
      · rw [suffixes, if_neg hany, if_neg hone]
  cases text with
  | nil =>
    rw [covers, hsuffixes]
    exact ⟨nofun, nofun⟩
  | cons c rest =>
    obtain ⟨b, marks, hmarks⟩ := exists_suffixes pattern rest
    have hrest : covers pattern rest = b := by
      rw [covers, hmarks]
      rfl
    rw [covers, hsuffixes, suffixes_cons, hmarks, ← hrest]
    constructor
    · intro h
      obtain ⟨hc, hcovers⟩ := Bool.and_eq_true_iff.mp h
      exact ⟨c, rest, rfl, (haccepts c).mp hc, hcovers⟩
    · rintro ⟨_, _, ⟨⟩, hc, hcovers⟩
      exact Bool.and_eq_true_iff.mpr ⟨(haccepts c).mpr hc, hcovers⟩

theorem covers_iff_parted (pattern text : List Char) : covers pattern text = true ↔ Parted pattern text := by
  induction pattern generalizing text with
  | nil => rw [covers_nil, parted_nil]
  | cons p pattern ih =>
    rw [parted_cons]
    by_cases hany : p = '%'
    · subst hany
      rw [covers_any]
      constructor
      · rintro ⟨part, rest, rfl, hrest⟩
        exact ⟨part, rest, rfl, .inl rfl, (ih rest).mp hrest⟩
      · rintro ⟨part, rest, rfl, -, hrest⟩
        exact ⟨part, rest, rfl, (ih rest).mpr hrest⟩
    · rw [covers_one hany]
      constructor
      · rintro ⟨c, rest, rfl, hc, hrest⟩
        exact ⟨[c], rest, rfl, .inr ⟨c, rfl, hc⟩, (ih rest).mp hrest⟩
      · rintro ⟨_, rest, rfl, hpart, hrest⟩
        obtain ⟨c, rfl, hc⟩ := hpart.resolve_left hany
        exact ⟨c, rest, rfl, hc, (ih rest).mpr hrest⟩

/-- A text is covered by itself, whatever it holds of the two wildcards. -/
theorem covers_self (text : List Char) : covers text text = true := by
  rw [covers_iff_parted]
  induction text with
  | nil => exact parted_nil.mpr rfl
  | cons c text ih => exact parted_cons.mpr ⟨[c], text, rfl, .inr ⟨c, rfl, .inr rfl⟩, ih⟩

/-- What `LIKE` computes is what the search for the pattern's expression, read from its text, finds. A cell that
is not null is like a pattern exactly if its text, as a whole, has parts of which each `%` takes any, each `_`
one character, and every other character of the pattern one that is the same without regard to case. -/
theorem like_iff_parts (pattern : String) :
    ∃ e, Search.Expression.ofChars? (expressionText pattern.toList) = some e ∧ ∀ c : Cell,
      (c.like pattern = true ↔ c.isNull = false ∧ e.Found c.key.toList) ∧
        (c.like pattern = true ↔ c.isNull = false ∧
          ∃ parts : List (List Char), parts.flatten = c.key.toList ∧ List.Forall₂ Takes pattern.toList parts) := by
  refine ⟨expression pattern.toList, ofChars?_expressionText _, fun c => ?_⟩
  have hlike : c.like pattern = true ↔ c.isNull = false ∧ Parted pattern.toList c.key.toList := by
    rw [Cell.like, Bool.and_eq_true, Bool.not_eq_true', covers_iff_parted]
  exact ⟨by rw [hlike, found_expression], hlike⟩

example : (Cell.text "1.5\nKG").like "1.5%_g" = true ∧ (Cell.text "1x5").like "1.5" = false := by
  constructor <;> rfl

end Wildcard

end GridQuery
