import GridQuery.Proofs.Recalled
import GridQuery.Proofs.Shapes

/-!
Expressions and names that are parsed from their texts. What the text of an expression is cut into is
read as the same expression, if its names and numbers are written in a form that reads back. A name is
cut as a name unless it is written without quotes and is a reserved word or begins with a character that
begins no word.
-/

namespace GridQuery
set_option autoImplicit false

open GridQuery.Parser

/-! ### Expressions -/

/-- An expression is parsed again from its text, up to the texts of select items within. -/
theorem parseExpr_text {e : Expr} (h : e.legible = true) (hf : e.Formed) :
    ∃ e', parseExpr e.text = .ok e' ∧ e'.untitled = e.untitled := by
  have hcut : Lexer.lexemes e.text.toList = e.lexemes ++ [.eof] := by
    have hprints := e.prints h hf [] Lexer.atBreak_nil
    rwa [List.append_nil, Lexer.lexemes_nil] at hprints
  obtain ⟨ts, hts, hlexemes⟩ := tokensOf_proper hcut (e.quiet h).balanced.plain_or_bracket
  have hbudget : 16 * e.lexemes.length ≤ budget ts := by
    rw [← hlexemes, List.length_map, budget]
    exact Nat.le_add_right _ _
  have hbare : expr (Parser.placeOf e.text ts) (budget ts) 0 (ts.map Token.bare) = .ok (e.untitled, []) := by
    have hread := (e.sound h hf).1.rereads.all h hf (Parser.placeOf e.text ts) hbudget endsExpr_nil
    rwa [List.append_nil, ← hlexemes, ← map_bare] at hread
  obtain ⟨⟨e', rest⟩, hread, heq⟩ := Carries.of_ok
    (hbare ▸ (readersIgnorePlaces _).expr (Parser.placeOf e.text ts) (Parser.placeOf e.text ts) 0 ts)
  obtain ⟨huntitled, hrest⟩ := Prod.mk.inj heq
  have hnil : rest = [] := List.map_eq_nil_iff.1 hrest
  refine ⟨e', ?_, huntitled⟩
  rw [parseExpr, hts, ok_bind, hread, hnil]
  rfl

/-- An expression without a nested statement is parsed again as it is. -/
theorem parseExpr_text_eq {e : Expr} (h : e.legible = true) (hf : e.Formed)
    (hnone : e.statements = []) : parseExpr e.text = .ok e := by
  obtain ⟨e', he', huntitled⟩ := parseExpr_text h hf
  have hsame : e = e' := Expr.eq_of_untitled (by rw [hnone]; exact fun q hq => nomatch hq) huntitled.symm
  rw [he', hsame]

theorem parseExpr_ne_ok {text : String} (h : (parseExpr text).toOption.isSome = false) (e : Expr) :
    parseExpr text ≠ .ok e := by
  intro he
  rw [he] at h
  cases h

/-! ### Names -/

theorem lexeme_of_no_word {c : Char} (hname : Lexer.isNameChar c = true) (hdigit : c.isDigit = false)
    (hword : ¬ Lexer.StartsWord c) (r : List Char) : Lexer.lexeme c r = (Lexer.unexpected c, r) := by
  have hne : ∀ d, Lexer.isNameChar d = false → c ≠ d := by
    rintro d hd rfl
    rw [hd] at hname
    cases hname
  unfold Lexer.lexeme
  split
  all_goals first
    | exact absurd rfl (hne _ (by decide))
    | skip
  rw [if_neg (by simp [hdigit]), if_neg (by simpa [Lexer.StartsWord] using hword)]

/-- A plain name that begins with a character of no word begins with an error. -/
theorem lexemes_of_no_word {s : String} (hplain : isPlainName s = true) (hstart : startsWord s = false) :
    ∃ c ls, Lexer.lexemes s.toList = Lexer.unexpected c :: ls := by
  unfold isPlainName at hplain
  unfold startsWord at hstart
  split at hplain
  · cases hplain
  · rename_i c cs hcs
    simp only [Bool.and_eq_true, Bool.not_eq_true', List.all_cons] at hplain
    rw [hcs] at hstart
    have hname : Lexer.isNameChar c = true := hplain.2.1
    have hsolid : Lexer.Solid c cs := by
      refine Lexer.solid_of_ne cs (Lexer.isBlank_of_isNameChar hname) ?_ ?_
      · rintro rfl
        exact absurd hname (by decide)
      · rintro rfl
        exact absurd hname (by decide)
    have hlexeme := lexeme_of_no_word hname hplain.1 (by simpa [Lexer.StartsWord] using hstart) cs
    exact ⟨c, Lexer.lexemes cs, by rw [hcs, Lexer.lexemes_cons hsolid, hlexeme]⟩

/-- A name is cut as one identifier just if it is legible. -/
theorem lexemes_nameText_iff (s : String) :
    Lexer.lexemes (nameText s).toList = [.identifier s, .eof] ↔ legibleName s = true := by
  constructor
  · intro hcut
    by_contra hlegible
    simp only [legibleName, Bool.or_eq_true, Bool.and_eq_true, Bool.not_eq_true', not_or,
      Bool.not_eq_false, not_and] at hlegible
    obtain ⟨hplain, hword⟩ := hlegible
    rw [nameText, if_pos hplain] at hcut
    cases hstart : startsWord s with
    | false =>
      obtain ⟨c, ls, hls⟩ := lexemes_of_no_word hplain hstart
      rw [hls] at hcut
      cases hcut
    | true =>
      have hread := Lexer.lexemes_plainName hplain hstart Lexer.atBreak_nil.wordEnds
      rw [List.append_nil, hcut, Lexer.wordLexeme, String.ofList_toList] at hread
      cases hkeyword : Keyword.ofText? s with
      | none => exact hword hstart (by rw [hkeyword]; rfl)
      | some k =>
        rw [hkeyword] at hread
        cases hread
  · intro h
    have hcut := lexemes_name_break h Lexer.atBreak_nil
    rwa [List.append_nil, Lexer.lexemes_nil] at hcut

/-- `SELECT table.name AS alias? FROM source AS alias'?` -/
def Statement.naming (table : Option String) (name : String) (alias? : Option String) (source : String)
    (alias'? : Option String) : Statement :=
  ⟨false, [⟨.column table name, "", alias?⟩], .table source alias'?, [], none, [], none, [], none, none, []⟩

section

variable {table alias? alias'? : Option String} {name source : String}

theorem Statement.text_naming : (Statement.naming table name alias? source alias'?).text =
    "SELECT " ++ columnText table name ++ aliasText alias? ++ " FROM " ++ nameText source ++
      aliasText alias'? := by
  unfold Statement.naming Statement.text selectItemsText Expr.text Source.text joinsText conditionText
    limitText pivotText operationsText orderItemsText exprsText
  simp only [clauseText, List.isEmpty_nil, if_true, Bool.false_eq_true, if_false, String.append_empty,
    String.append_assoc]

theorem Statement.of_untitled_naming {s : Statement}
    (h : s.untitled = (Statement.naming table name alias? source alias'?).untitled) :
    (s.items.map fun i => (i.expr, i.alias?)) = [(.column table name, alias?)] ∧
      s.source = .table source alias'? := by
  obtain ⟨_, items, from_, _, _, _, _, _, _, _, _⟩ := s
  simp only [Statement.untitled, Statement.naming, Statement.mk.injEq, untitledItems] at h
  obtain ⟨-, hitems, hsource, -⟩ := h
  constructor
  · rcases items with _ | ⟨⟨e, _, _⟩, _ | ⟨⟨_, _, _⟩, _⟩⟩
    · simp [untitledItems] at hitems
    · simp only [untitledItems, List.cons.injEq, SelectItem.mk.injEq, and_true, true_and] at hitems
      have hnone : SameByText e.statements (Expr.column table name).statements :=
        fun _ _ _ hq => absurd hq List.not_mem_nil
      rw [Expr.eq_of_untitled hnone hitems.1, hitems.2]
      rfl
    · simp [untitledItems] at hitems
  · cases from_ with
    | table _ _ => exact hsource
    | query _ _ => cases hsource

/-- The names of a column, a table and aliases are read back from a statement that is made of them. -/
theorem parseStatement_names (htable : table.all legibleName = true) (hname : legibleName name = true)
    (halias : alias?.all legibleName = true) (hsource : legibleName source = true)
    (halias' : alias'?.all legibleName = true) :
    ∃ s, parseStatement ("SELECT " ++ columnText table name ++ aliasText alias? ++ " FROM " ++
        nameText source ++ aliasText alias'?) = .ok s ∧
      (s.items.map fun i => (i.expr, i.alias?)) = [(.column table name, alias?)] ∧
      s.source = .table source alias'? := by
  have hitem : legibleItems [⟨.column table name, "", alias?⟩] = true := by
    rw [legibleItems, Expr.legible, htable, hname, halias]
    rfl
  have hfrom : (Source.table source alias'?).legible = true := by
    rw [Source.legible, hsource, halias']
    rfl
  have hlegible : (Statement.naming table name alias? source alias'?).legible = true := by
    rw [Statement.naming, Statement.legible, hitem, hfrom]
    rfl
  have hformed : (Statement.naming table name alias? source alias'?).Formed :=
    ⟨List.cons_ne_nil _ _, ⟨trivial, trivial⟩, trivial, trivial, trivial, trivial, trivial, trivial,
      (fun _ h => nomatch h), trivial, trivial⟩
  obtain ⟨s, hs, huntitled⟩ := parseStatement_text hlegible hformed
  rw [Statement.text_naming] at hs
  exact ⟨s, hs, Statement.of_untitled_naming huntitled⟩

end

/-- Which names are cut as one identifier, and that such names are read back wherever a name stands: as
a column with or without a table, as a table, and as the alias of either. -/
theorem names_read_back (size : Nat) (table alias? alias'? : Option String) (name source : String) :
    ((Lexer.tokens size (nameText name).toList).map Token.lexeme = [.identifier name, .eof] ↔
      legibleName name = true) ∧
    (table.all legibleName = true → legibleName name = true → alias?.all legibleName = true →
      legibleName source = true → alias'?.all legibleName = true →
        parseExpr (columnText table name) = .ok (.column table name) ∧
        ∃ s, parseStatement ("SELECT " ++ columnText table name ++ aliasText alias? ++ " FROM " ++
            nameText source ++ aliasText alias'?) = .ok s ∧
          (s.items.map fun i => (i.expr, i.alias?)) = [(.column table name, alias?)] ∧
          s.source = .table source alias'?) := by
  refine ⟨?_, fun htable hname halias hsource halias' => ⟨?_, ?_⟩⟩
  · rw [Lexer.map_lexeme_tokens]
    exact lexemes_nameText_iff name
  · have hlegible : (Expr.column table name).legible = true := by
      rw [Expr.legible, htable, hname]
      rfl
    exact parseExpr_text_eq hlegible trivial rfl
  · exact parseStatement_names htable hname halias hsource halias'

/-- A table named by a number and an alias with a blank are written in quotes. -/
theorem names_read_back_quoted :
    ∃ s, parseStatement "SELECT `2024`.a AS `a b` FROM t AS `2024`" = .ok s ∧
      (s.items.map fun i => (i.expr, i.alias?)) = [(.column (some "2024") "a", some "a b")] ∧
      s.source = .table "t" (some "2024") := by
  have htext : "SELECT `2024`.a AS `a b` FROM t AS `2024`" =
      "SELECT " ++ columnText (some "2024") "a" ++ aliasText (some "a b") ++ " FROM " ++ nameText "t" ++
        aliasText (some "2024") := by decide
  rw [htext]
  exact ((names_read_back 1 (some "2024") (some "a b") (some "2024") "a" "t").2 (by decide) (by decide)
    (by decide) (by decide) (by decide)).2

/-- A column with a reserved word as its name is written without quotes, and its text is no expression. -/
theorem reserved_name_lost :
    ∃ e, parseExpr "`select`" = .ok e ∧ e.text = nameText "select" ∧
      (Lexer.tokens 6 (nameText "select").toList).map Token.lexeme ≠ [.identifier "select", .eof] ∧
      ∀ e', parseExpr e.text ≠ .ok e' := by
  have hread : (parseExpr "`select`").toOption.any (fun e => e.text == nameText "select") = true := by
    decide +kernel
  obtain ⟨e, he, htext⟩ := exists_of_any hread
  rw [beq_iff_eq] at htext
  refine ⟨e, he, htext, by decide +kernel, ?_⟩
  rw [htext]
  exact parseExpr_ne_ok (by decide +kernel)

end GridQuery
