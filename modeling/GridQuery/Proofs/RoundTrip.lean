import GridQuery.Proofs.Printed
import GridQuery.Proofs.Relexing
import GridQuery.Proofs.RereadStatements

/-!
Printing and parsing are inverse. The text of a statement is cut into the statement's lexemes, and from
these the statement is read again; only the texts of its select items may differ, since they are taken
from the text that was read. The text printed from the second statement is the text of the first.
-/

namespace GridQuery
set_option autoImplicit false

open GridQuery.Parser

/-- Lexemes that stand in a statement: no error, no end, no placeholder without a number. -/
def Proper (l : Lexeme) : Prop :=
  Plain l ∨ l = .leftParen ∨ l = .rightParen

theorem Proper.not_error {l : Lexeme} (h : Proper l) (m : String) : l ≠ .error m := by
  rintro rfl
  rcases h with h | h | h
  · exact h
  · cases h
  · cases h

theorem Proper.ends {l : Lexeme} (h : Proper l) : (l == .eof || l == .semicolon) = false := by
  rw [Bool.or_eq_false_iff, beq_eq_false_iff_ne, beq_eq_false_iff_ne]
  rcases h with h | rfl | rfl
  · constructor
    · rintro rfl
      exact h
    · rintro rfl
      exact h
  · exact ⟨by simp, by simp⟩
  · exact ⟨by simp, by simp⟩

theorem Proper.numbered {l : Lexeme} (h : Proper l) : l ≠ .placeholder none := by
  rintro rfl
  rcases h with h | h | h
  · exact h
  · cases h
  · cases h

/-- The tokens of a text that is cut into proper lexemes and its end. -/
theorem tokensOf_proper {text : String} {ls : List Lexeme}
    (hcut : Lexer.lexemes text.toList = ls ++ [.eof]) (h : ∀ l ∈ ls, Proper l) :
    ∃ ts, tokensOf text = .ok ts ∧ ts.map Token.lexeme = ls := by
  have hmap := Lexer.map_lexeme_tokens text.utf8ByteSize text.toList
  rw [hcut] at hmap
  obtain ⟨ts, last, hall, hts, hlast⟩ := List.map_eq_append_iff.1 hmap
  obtain ⟨t, hlast', ht⟩ := List.map_eq_singleton_iff.1 hlast
  subst hlast'
  have hproper : ∀ u ∈ ts, Proper u.lexeme := fun u hu =>
    h _ (hts ▸ List.mem_map_of_mem hu)
  refine ⟨ts, tokensOf_of_tokens hall ht (fun u hu => (hproper u hu).not_error) (fun u hu => ?_)
    fun u hu => (hproper u hu).numbered, hts⟩
  exact (hproper u (List.mem_of_getLast? hu)).ends

/-- A statement is parsed again from its text, up to the texts of its select items. -/
theorem parseStatement_text {s : Statement} (h : s.legible = true) (hf : s.Formed) :
    ∃ s', parseStatement s.text = .ok s' ∧ s'.untitled = s.untitled := by
  have hcut : Lexer.lexemes s.text.toList = s.lexemes ++ [.eof] := by
    have hprints := s.prints h hf [] Lexer.atBreak_nil
    rwa [List.append_nil, Lexer.lexemes_nil] at hprints
  obtain ⟨ts, hts, hlexemes⟩ := tokensOf_proper hcut (s.balanced h).plain_or_bracket
  have hlength : ts.length = s.lexemes.length := by
    rw [← hlexemes, List.length_map]
  have hread : statement (placeOf s.text ts) (budget ts) (ts.map Token.bare) = .ok s.untitled := by
    rw [map_bare, hlexemes]
    apply Statement.rereads h hf
    rw [budget, hlength]
    exact Nat.le_add_right _ _
  obtain ⟨s', hs', huntitled⟩ := statement_of_bare (p := placeOf s.text ts) hread
  refine ⟨s', ?_, huntitled⟩
  rw [parseStatement, hts]
  exact hs'

/-- Printing a statement that was parsed, and parsing its text, gives the same statement in every part
but the texts of the select items, and its text is the text printed before. The text that is parsed has
a length in bytes that a signed word can hold, so its placeholders have numbers that can be read. -/
theorem parse_text_parse {text : String} {s : Statement} (hparse : parseStatement text = .ok s)
    (hsize : text.utf8ByteSize < Number.twoPow 63) (h : s.legible = true) :
    ∃ s', parseStatement s.text = .ok s' ∧ s'.untitled = s.untitled ∧ s'.text = s.text := by
  have hf : s.Formed := parseStatement_formed hsize s hparse
  obtain ⟨s', hs', huntitled⟩ := parseStatement_text h hf
  refine ⟨s', hs', huntitled, ?_⟩
  rw [← s'.text_untitled, huntitled, s.text_untitled]

/-- Signs, quotes, a range and a placeholder that has no number yet. -/
theorem parse_text_parse_range :
    ∃ s, parseStatement "select -a * 1.5 from `2024` where not a between ? and 3 or b = 'it''s'" = .ok s ∧
      s.legible = true ∧
      ∃ s', parseStatement s.text = .ok s' ∧ s'.untitled = s.untitled ∧ s'.text = s.text := by
  have hsize : ("select -a * 1.5 from `2024` where not a between ? and 3 or b = 'it''s'").utf8ByteSize <
      Number.twoPow 63 := by decide +kernel
  have hlegible : (parseStatement
      "select -a * 1.5 from `2024` where not a between ? and 3 or b = 'it''s'").toOption.any
      Statement.legible = true := by decide +kernel
  cases hs : parseStatement "select -a * 1.5 from `2024` where not a between ? and 3 or b = 'it''s'" with
  | error e =>
    rw [hs] at hlegible
    cases hlegible
  | ok s =>
    rw [hs] at hlegible
    exact ⟨s, rfl, hlegible, parse_text_parse hs hsize hlegible⟩

end GridQuery
