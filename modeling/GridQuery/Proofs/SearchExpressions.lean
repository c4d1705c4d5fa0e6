import Mathlib.Data.List.Forall2
import GridQuery.Cell.Comparison

/-!
Search expressions, as far as patterns need them: flags, the two anchors, the character that is any one,
characters in their plain or escaped form, and the star. An expression is read from its text, and found in a
text if some stretch of it matches. The expression of a wildcard pattern has the star behind any character
for `%`, any character for `_`, and the escaped character for all others, anchored at both ends.
-/

namespace GridQuery
set_option autoImplicit false

namespace Search

/-- The characters that are escaped by a backslash where they stand for themselves. -/
def metaCharacters : List Char :=
  ['\\', '.', '+', '*', '?', '(', ')', '|', '[', ']', '\x7b', '\x7d', '^', '$', '#', '&', '-', '~']

inductive Atom where
  | start
  | finish
  | any
  | char (c : Char)
deriving DecidableEq, Repr

/-- An atom, once or any number of times. -/
structure Item where
  atom : Atom
  starred : Bool
deriving DecidableEq, Repr

structure Flags where
  ignoresCase : Bool
  anyHasNewline : Bool
deriving DecidableEq, Repr

structure Expression where
  flags : Flags
  items : List Item
deriving DecidableEq, Repr

/-! ### Reading -/

/-- What a character without a backslash stands for, if that is an atom. -/
def atom? (c : Char) : Option Atom :=
  if c = '^' then some .start
  else if c = '$' then some .finish
  else if c = '.' then some .any
  else if c ∈ metaCharacters then none
  else some (.char c)

/-- The items read so far, the last of them first, and whether a backslash stands behind them. -/
structure Reading where
  escaped : Bool
  items : List Item

def Reading.push (s : Reading) (a : Atom) : Reading :=
  ⟨false, ⟨a, false⟩ :: s.items⟩

/-- Puts a star behind the last item. -/
def Reading.star? (s : Reading) : Option Reading :=
  match s.items with
  | ⟨a, false⟩ :: before => some ⟨false, ⟨a, true⟩ :: before⟩
  | _ => none

def Reading.next? (s : Reading) (c : Char) : Option Reading :=
  if s.escaped then (if c ∈ metaCharacters then some (s.push (.char c)) else none)
  else if c = '\\' then some { s with escaped := true }
  else if c = '*' then s.star?
  else (atom? c).map s.push

def items? (cs : List Char) : Option (List Item) :=
  (cs.foldlM Reading.next? ⟨false, []⟩).bind fun s => if s.escaped then none else some s.items.reverse

def flags? (f : Flags) : List Char → Option (Flags × List Char)
  | ')' :: r => some (f, r)
  | 'i' :: r => flags? { f with ignoresCase := true } r
  | 's' :: r => flags? { f with anyHasNewline := true } r
  | _ => none

/-- Flags may stand in front; without them case matters and a new line is not any character. -/
def Expression.ofChars? (cs : List Char) : Option Expression :=
  match cs with
  | '(' :: '?' :: r =>
    (flags? ⟨false, false⟩ r).bind fun p => (items? p.2).map fun items => ⟨p.1, items⟩
  | cs => (items? cs).map fun items => ⟨⟨false, false⟩, items⟩

/-! ### Matching -/

/-- The part of a text that an atom matches, between what is before it and what is behind it. -/
def Atom.Matches (f : Flags) (before part behind : List Char) : Atom → Prop
  | .start => before = [] ∧ part = []
  | .finish => behind = [] ∧ part = []
  | .any => ∃ c, part = [c] ∧ (f.anyHasNewline = true ∨ c ≠ '\n')
  | .char p => ∃ c, part = [c] ∧ (c = p ∨ f.ignoresCase = true ∧ Text.foldCase c = Text.foldCase p)

inductive Matches (f : Flags) : List Item → List Char → List Char → List Char → Prop
  | done (before behind : List Char) : Matches f [] before [] behind
  | once {a : Atom} {items : List Item} {before part rest behind : List Char} :
      a.Matches f before part (rest ++ behind) → Matches f items (before ++ part) rest behind →
        Matches f (⟨a, false⟩ :: items) before (part ++ rest) behind
  | leave {a : Atom} {items : List Item} {before part behind : List Char} :
      Matches f items before part behind → Matches f (⟨a, true⟩ :: items) before part behind
  | again {a : Atom} {items : List Item} {before part rest behind : List Char} :
      a.Matches f before part (rest ++ behind) → Matches f (⟨a, true⟩ :: items) (before ++ part) rest behind →
        Matches f (⟨a, true⟩ :: items) before (part ++ rest) behind

/-- Some stretch of the text matches. -/
def Expression.Found (e : Expression) (text : List Char) : Prop :=
  ∃ before part behind, text = before ++ part ++ behind ∧ Matches e.flags e.items before part behind

variable {f : Flags} {items : List Item} {before part behind : List Char}

theorem matches_nil : Matches f [] before part behind ↔ part = [] := by
  constructor
  · rintro ⟨⟩
    rfl
  · rintro rfl
    exact .done before behind

theorem matches_once {a : Atom} :
    Matches f (⟨a, false⟩ :: items) before part behind ↔
      ∃ first rest, part = first ++ rest ∧ a.Matches f before first (rest ++ behind) ∧
        Matches f items (before ++ first) rest behind := by
  constructor
  · rintro ⟨⟩
    rename_i first rest hatom hrest
    exact ⟨first, rest, rfl, hatom, hrest⟩
  · rintro ⟨first, rest, rfl, hatom, hrest⟩
    exact .once hatom hrest

/-- Where a new line is any character, too, the star behind any character takes any stretch. -/
theorem matches_anyStar (hnewline : f.anyHasNewline = true) :
    Matches f (⟨.any, true⟩ :: items) before part behind ↔
      ∃ first rest, part = first ++ rest ∧ Matches f items (before ++ first) rest behind := by
  constructor
  · intro h
    generalize hstar : (⟨.any, true⟩ :: items : List Item) = starred at h
    induction h with
    | done | once => cases hstar
    | leave hrest =>
      cases hstar
      exact ⟨[], _, rfl, by rwa [List.append_nil]⟩
    | @again a items before part rest behind _ _ ih =>
      cases hstar
      obtain ⟨first, rest', rfl, hrest⟩ := ih rfl
      refine ⟨part ++ first, rest', by rw [List.append_assoc], ?_⟩
      rwa [← List.append_assoc]
  · rintro ⟨first, rest, rfl, hrest⟩
    induction first generalizing before with
    | nil =>
      rw [List.append_nil] at hrest
      exact .leave hrest
    | cons c first ih =>
      have hatom : Atom.any.Matches f before [c] (first ++ rest ++ behind) := ⟨c, rfl, .inl hnewline⟩
      have hstar : Matches f (⟨.any, true⟩ :: items) (before ++ [c]) (first ++ rest) behind := by
        apply ih
        rwa [List.append_assoc]
      have hmore : Matches f (⟨.any, true⟩ :: items) before ([c] ++ (first ++ rest)) behind := .again hatom hstar
      exact hmore

end Search

namespace Wildcard

open Search

/-- What stands for a character of a pattern in its search expression. -/
def searchText (p : Char) : List Char :=
  if p = '%' then ['.', '*']
  else if p = '_' then ['.']
  else if p ∈ metaCharacters then ['\\', p]
  else [p]

/-- The search expression of a pattern: without regard to case, a new line being any character, too, from
the start of the text to its end. -/
def expressionText (pattern : List Char) : List Char :=
  ['(', '?', 'i', 's', ')', '^'] ++ pattern.flatMap searchText ++ ['$']

def item (p : Char) : Item :=
  if p = '%' then ⟨.any, true⟩ else if p = '_' then ⟨.any, false⟩ else ⟨.char p, false⟩

def expression (pattern : List Char) : Expression :=
  ⟨⟨true, true⟩, ⟨.start, false⟩ :: pattern.map item ++ [⟨.finish, false⟩]⟩

theorem foldlM_searchText (p : Char) (items : List Item) :
    (searchText p).foldlM Reading.next? ⟨false, items⟩ = some ⟨false, item p :: items⟩ := by
  unfold searchText item
  by_cases hany : p = '%'
  · rw [if_pos hany, if_pos hany]
    rfl
  · rw [if_neg hany, if_neg hany]
    by_cases hone : p = '_'
    · rw [if_pos hone, if_pos hone]
      rfl
    · rw [if_neg hone, if_neg hone]
      by_cases hmeta : p ∈ metaCharacters
      · rw [if_pos hmeta]
        have hescaped : Reading.next? ⟨true, items⟩ p = some ⟨false, ⟨.char p, false⟩ :: items⟩ := by
          rw [Reading.next?, if_pos rfl, if_pos hmeta]
          rfl
        have hbackslash : Reading.next? ⟨false, items⟩ '\\' = some ⟨true, items⟩ := rfl
        simp [hbackslash, hescaped]
      · rw [if_neg hmeta]
        have hne (c : Char) (hc : c ∈ metaCharacters) : p ≠ c := fun h => hmeta (h ▸ hc)
        have hatom : atom? p = some (.char p) := by
          rw [atom?, if_neg (hne _ (by decide)), if_neg (hne _ (by decide)), if_neg (hne _ (by decide)),
            if_neg hmeta]
        have hplain : Reading.next? ⟨false, items⟩ p = some ⟨false, ⟨.char p, false⟩ :: items⟩ := by
          rw [Reading.next?, if_neg Bool.false_ne_true, if_neg (hne _ (by decide)), if_neg (hne _ (by decide)),
            hatom]
          rfl
        simp [hplain]

theorem foldlM_pattern (pattern : List Char) (items : List Item) :
    (pattern.flatMap searchText).foldlM Reading.next? ⟨false, items⟩ =
      some ⟨false, (pattern.map item).reverse ++ items⟩ := by
  induction pattern generalizing items with
  | nil => rfl
  | cons p pattern ih =>
    rw [List.flatMap_cons, List.foldlM_append, foldlM_searchText]
    refine (ih (item p :: items)).trans ?_
    simp

/-- A pattern's expression is read as it is meant, whatever characters the pattern holds. -/
theorem ofChars?_expressionText (pattern : List Char) :
    Expression.ofChars? (expressionText pattern) = some (expression pattern) := by
  have hitems : items? ('^' :: (pattern.flatMap searchText ++ ['$'])) = some (expression pattern).items := by
    have hstart : Reading.next? ⟨false, []⟩ '^' = some ⟨false, [⟨.start, false⟩]⟩ := rfl
    have hfinish (items : List Item) :
        Reading.next? ⟨false, items⟩ '$' = some ⟨false, ⟨.finish, false⟩ :: items⟩ := rfl
    simp [items?, hstart, hfinish, foldlM_pattern, expression]
  simp only [expressionText, List.cons_append, List.nil_append, Expression.ofChars?, flags?,
    Option.bind_some, hitems, Option.map_some]
  rfl

/-! ### Parts of a text -/

/-- What a character of a pattern takes of a text. -/
def Takes (p : Char) (part : List Char) : Prop :=
  p = '%' ∨ ∃ c, part = [c] ∧ (p = '_' ∨ Text.foldCase c = Text.foldCase p)

/-- A text in parts, one for each character of the pattern. -/
def Parted (pattern text : List Char) : Prop :=
  ∃ parts : List (List Char), parts.flatten = text ∧ List.Forall₂ Takes pattern parts

theorem parted_nil {text : List Char} : Parted [] text ↔ text = [] := by
  constructor
  · rintro ⟨parts, rfl, ⟨⟩⟩
    rfl
  · rintro rfl
    exact ⟨[], rfl, .nil⟩

theorem parted_cons {p : Char} {pattern text : List Char} :
    Parted (p :: pattern) text ↔ ∃ part rest, text = part ++ rest ∧ Takes p part ∧ Parted pattern rest := by
  constructor
  · rintro ⟨parts, rfl, h⟩
    cases h with
    | @cons _ part _ parts hpart hparts =>
      exact ⟨part, parts.flatten, rfl, hpart, parts, rfl, hparts⟩
  · rintro ⟨part, _, rfl, hpart, parts, rfl, hparts⟩
    exact ⟨part :: parts, rfl, .cons hpart hparts⟩

/-- A character of a pattern other than `%` is one atom, and this matches what the character takes. -/
theorem exists_atom {p : Char} (hany : p ≠ '%') :
    ∃ a, item p = ⟨a, false⟩ ∧
      ∀ before part behind, a.Matches ⟨true, true⟩ before part behind ↔ Takes p part := by
  unfold item
  rw [if_neg hany]
  by_cases hone : p = '_'
  · refine ⟨.any, if_pos hone, fun before part behind => ?_⟩
    constructor
    · rintro ⟨c, rfl, -⟩
      exact .inr ⟨c, rfl, .inl hone⟩
    · rintro (h | ⟨c, rfl, -⟩)
      · exact absurd h hany
      · exact ⟨c, rfl, .inl rfl⟩
  · refine ⟨.char p, if_neg hone, fun before part behind => ?_⟩
    constructor
    · rintro ⟨c, rfl, hc⟩
      refine .inr ⟨c, rfl, .inr ?_⟩
      rcases hc with rfl | ⟨-, hc⟩
      · rfl
      · exact hc
    · rintro (h | ⟨c, rfl, hc⟩)
      · exact absurd h hany
      · exact ⟨c, rfl, .inr ⟨rfl, hc.resolve_left hone⟩⟩

/-- The items of a pattern match parts of the text. -/
theorem matches_items {pattern before part behind : List Char} :
    Matches ⟨true, true⟩ (pattern.map item ++ [⟨.finish, false⟩]) before part behind ↔
      behind = [] ∧ Parted pattern part := by
  induction pattern generalizing before part with
  | nil =>
    rw [List.map_nil, List.nil_append, matches_once, parted_nil]
    constructor
    · rintro ⟨first, rest, rfl, ⟨hbehind, rfl⟩, hrest⟩
      obtain rfl := matches_nil.mp hrest
      exact ⟨hbehind, rfl⟩
    · rintro ⟨rfl, rfl⟩
      exact ⟨[], [], rfl, ⟨rfl, rfl⟩, matches_nil.mpr rfl⟩
  | cons p pattern ih =>
    rw [List.map_cons, List.cons_append, parted_cons]
    by_cases hany : p = '%'
    · rw [show item p = ⟨.any, true⟩ from if_pos hany, matches_anyStar rfl]
      constructor
      · rintro ⟨first, rest, rfl, hrest⟩
        obtain ⟨hbehind, hrest⟩ := ih.mp hrest
        exact ⟨hbehind, first, rest, rfl, .inl hany, hrest⟩
      · rintro ⟨hbehind, first, rest, rfl, -, hrest⟩
        exact ⟨first, rest, rfl, ih.mpr ⟨hbehind, hrest⟩⟩
    · obtain ⟨a, hitem, hatom⟩ := exists_atom hany
      rw [hitem, matches_once]
      constructor
      · rintro ⟨first, rest, rfl, hfirst, hrest⟩
        obtain ⟨hbehind, hrest⟩ := ih.mp hrest
        exact ⟨hbehind, first, rest, rfl, (hatom ..).mp hfirst, hrest⟩
      · rintro ⟨hbehind, first, rest, rfl, hfirst, hrest⟩
        exact ⟨first, rest, rfl, (hatom ..).mpr hfirst, ih.mpr ⟨hbehind, hrest⟩⟩

/-- The search for a pattern's expression finds the texts that the pattern parts. -/
theorem found_expression (pattern text : List Char) :
    (expression pattern).Found text ↔ Parted pattern text := by
  constructor
  · rintro ⟨before, part, behind, rfl, h⟩
    obtain ⟨first, rest, rfl, ⟨rfl, rfl⟩, hrest⟩ := matches_once.mp h
    obtain ⟨rfl, hrest⟩ := matches_items.mp hrest
    rwa [List.nil_append, List.append_nil]
  · intro h
    refine ⟨[], text, [], by simp, matches_once.mpr ⟨[], text, rfl, ⟨rfl, rfl⟩, ?_⟩⟩
    exact matches_items.mpr ⟨rfl, h⟩

end Wildcard

end GridQuery
