import GridQuery.Proofs.SpelledParts

/-!
Cutting the text of a statement gives its lexemes. Blanks, commas and brackets stand between the parts
of the text, so each part is cut as it is alone. A sign has no blank behind it, which matters for a
minus: two of them would begin a comment.
-/

namespace GridQuery
set_option autoImplicit false

open Lexer

/-- Cut where it ends, the text gives these lexemes. -/
def Prints (s : String) (ls : List Lexeme) : Prop :=
  ∀ rest, AtBreak rest → lexemes (s.toList ++ rest) = ls ++ lexemes rest

theorem atBreak_blank (r : List Char) : AtBreak (' ' :: r) := atBreak_cons (.inl rfl) r

theorem atBreak_comma (r : List Char) : AtBreak (',' :: r) := atBreak_cons (.inr (.inl rfl)) r

theorem atBreak_rightParen (r : List Char) : AtBreak (')' :: r) := atBreak_cons (.inr (.inr rfl)) r

/-- A reserved word between blanks. -/
theorem lexemes_between (k : Keyword) (r : List Char) :
    lexemes (' ' :: (k.text.toList ++ ' ' :: r)) = .keyword k :: lexemes r := by
  rw [lexemes_blank, lexemes_keyword_blank]

theorem Prints.inBrackets {s : String} {ls : List Lexeme} (h : Prints s ls) :
    Prints ("(" ++ s ++ ")") (inBrackets ls) := by
  intro rest _
  have hshape : ("(" ++ s ++ ")").toList ++ rest = '(' :: (s.toList ++ ')' :: rest) := by
    simp
  rw [hshape, lexemes_leftParen, h _ (atBreak_rightParen rest), lexemes_rightParen]
  simp [GridQuery.inBrackets]

theorem lexemes_name_break {s : String} (h : legibleName s = true) {rest : List Char}
    (hrest : AtBreak rest) :
    lexemes ((nameText s).toList ++ rest) = .identifier s :: lexemes rest :=
  lexemes_name h hrest.wordEnds (hrest.head_ne ⟨by decide, by decide, by decide⟩)

/-- A name in front of a point. -/
theorem lexemes_name_dot {s : String} (h : legibleName s = true) {rest : List Char}
    (hrest : ∀ c ∈ rest.head?, c.isDigit = false) :
    lexemes ((nameText s).toList ++ '.' :: rest) = .identifier s :: .dot :: lexemes rest := by
  have hends : WordEnds ('.' :: rest) := by
    rintro _ ⟨⟩
    decide
  rw [lexemes_name h hends (by simp), lexemes_dot hrest]

/-- A name begins with a letter, an underscore or a back quote. -/
theorem nameText_opens {s : String} (h : legibleName s = true) :
    ∃ c cs, (nameText s).toList = c :: cs ∧ (StartsWord c ∨ c = '\x60') := by
  unfold nameText
  split
  · rename_i hplain
    simp only [legibleName, hplain, Bool.not_true, Bool.false_or, Bool.and_eq_true] at h
    obtain ⟨c, cs, hcs, hc, -⟩ := plainName_opens hplain h.1
    exact ⟨c, cs, hcs, .inl hc⟩
  · exact ⟨'\x60', (doubled '\x60' s).toList ++ ['\x60'], by simp, .inr rfl⟩

theorem nameText_isDigit {s : String} (h : legibleName s = true) (rest : List Char) :
    ∀ c ∈ ((nameText s).toList ++ rest).head?, c.isDigit = false := by
  obtain ⟨c, cs, hcs, hc⟩ := nameText_opens h
  rw [hcs]
  rintro _ ⟨⟩
  rcases hc with hc | rfl
  · exact hc.isDigit
  · decide

theorem prints_column {table : Option String} {name : String}
    (ht : table.all legibleName = true) (hn : legibleName name = true) :
    Prints (columnText table name) (columnLexemes table name) := by
  intro rest hrest
  cases table with
  | none => exact lexemes_name_break hn hrest
  | some t =>
    have hshape : (columnText (some t) name).toList ++ rest =
        (nameText t).toList ++ '.' :: ((nameText name).toList ++ rest) := by
      simp [columnText]
    rw [hshape, lexemes_name_dot ht (nameText_isDigit hn rest), lexemes_name_break hn hrest]
    rfl

theorem prints_star {table : Option String} (ht : table.all legibleName = true) :
    Prints (starText table) (starLexemes table) := by
  intro rest _
  cases table with
  | none => exact lexemes_star rest
  | some t =>
    have hshape : (starText (some t)).toList ++ rest = (nameText t).toList ++ '.' :: '*' :: rest := by
      simp [starText]
    rw [hshape, lexemes_name_dot ht (by rintro _ ⟨⟩; decide), lexemes_star]
    rfl

theorem prints_alias {alias? : Option String} (h : alias?.all legibleName = true) :
    Prints (aliasText alias?) (aliasLexemes alias?) := by
  intro rest hrest
  cases alias? with
  | none => rfl
  | some a =>
    have hshape : (aliasText (some a)).toList ++ rest =
        ' ' :: (Keyword.as_.text.toList ++ ' ' :: ((nameText a).toList ++ rest)) := by
      rw [aliasText, String.toList_append, List.append_assoc]
      rfl
    rw [hshape, lexemes_between, lexemes_name_break h hrest]
    rfl

theorem atBreak_alias (alias? : Option String) {rest : List Char} (h : AtBreak rest) :
    AtBreak ((aliasText alias?).toList ++ rest) := by
  cases alias? with
  | none => exact h
  | some a =>
    rw [aliasText, String.toList_append]
    exact atBreak_blank _

theorem prints_number {x : Float} (h : legibleNumber x = true) :
    Prints (numberText x) (numberLexemes x) := by
  intro rest hrest
  obtain ⟨ds, hds, htext | htext⟩ := numberText_numeral h
  · rw [numberLexemes_plain hds htext, htext, lexemes_numeral hds hrest]
    rfl
  · obtain ⟨c, cs, hcs, hc⟩ := hds.head
    have hhead : (ds ++ rest).head? ≠ some '-' := by
      rw [hcs]
      rintro ⟨⟩
      exact absurd hc (by decide)
    rw [numberLexemes_minus htext, htext, List.cons_append, lexemes_minus hhead,
      lexemes_numeral hds hrest]
    rfl

theorem prints_cell {c : Cell} (h : c.legible = true) (hf : c.isMoment = false) :
    Prints c.literalText c.lexemes := by
  intro rest hrest
  cases c with
  | null => exact lexemes_keyword .null hrest.wordEnds
  | boolean b =>
    cases b with
    | false => exact lexemes_keyword .false_ hrest.wordEnds
    | true => exact lexemes_keyword .true_ hrest.wordEnds
  | number x => exact prints_number h rest hrest
  | date m => cases hf
  | text s =>
    have hshape : (Cell.text s).literalText.toList ++ rest =
        '\x27' :: (doubled '\x27' s).toList ++ '\x27' :: rest := by
      simp [Cell.literalText]
    rw [hshape, lexemes_string s (hrest.head_ne ⟨by decide, by decide, by decide⟩)]
    rfl

/-! ### Signs -/

theorem startsWord_ne_minus {c : Char} (h : StartsWord c) : c ≠ '-' := by
  rintro rfl
  rcases h with h | h
  · exact absurd h (by decide)
  · exact absurd h (by decide)

/-- The text of a function's name begins as a word does. -/
theorem function_opens {name : String} (h : legibleFunction name = true) :
    ∃ c cs, name.toList = c :: cs ∧ StartsWord c ∧ ∀ d ∈ cs, isNameChar d = true := by
  simp only [legibleFunction, Bool.and_eq_true] at h
  exact plainName_opens h.1.1 h.1.2

/-- What stands behind a minus begins with no minus. -/
theorem Expr.text_opens {e : Expr} (h : e.legible = true) (hf : e.Formed)
    (hlevel : Parser.signPower ≤ e.level) (hnum : e.isNumber = false) (hneg : e.isNegation = false) :
    ∃ c cs, e.text.toList = c :: cs ∧ c ≠ '-' := by
  have hname : ∀ {s t : String}, legibleName s = true →
      ∃ c cs, (nameText s ++ t).toList = c :: cs ∧ c ≠ '-' := by
    intro s t hs
    obtain ⟨c, cs, hcs, hc⟩ := nameText_opens hs
    refine ⟨c, cs ++ t.toList, by rw [String.toList_append, hcs]; rfl, ?_⟩
    rcases hc with hc | rfl
    · exact startsWord_ne_minus hc
    · decide
  have hword : ∀ {s t : String} {c : Char} {cs : List Char}, s.toList = c :: cs → c ≠ '-' →
      ∃ c cs, (s ++ t).toList = c :: cs ∧ c ≠ '-' := by
    intro s t c cs hs hc
    exact ⟨c, cs ++ t.toList, by rw [String.toList_append, hs]; rfl, hc⟩
  cases e with
  | literal c =>
    cases c with
    | null => exact ⟨_, _, rfl, by decide⟩
    | boolean b => cases b <;> exact ⟨_, _, rfl, by decide⟩
    | number x => cases hnum
    | date m => cases hf
    | text s =>
      exact ⟨'\x27', (doubled '\x27' s).toList ++ ['\x27'], by simp [Expr.text, Cell.literalText],
        by decide⟩
  | column table name =>
    simp only [Expr.legible, Bool.and_eq_true] at h
    cases table with
    | none =>
      obtain ⟨c, cs, hcs, hc⟩ := hname (t := "") h.2
      exact ⟨c, cs, by simpa [Expr.text, columnText] using hcs, hc⟩
    | some t =>
      obtain ⟨c, cs, hcs, hc⟩ := hname (t := "." ++ nameText name) h.1
      exact ⟨c, cs, by simpa [Expr.text, columnText] using hcs, hc⟩
  | bind n => exact @hword _ _ '?' [] rfl (by decide)
  | binary op a b => exact absurd hlevel (Nat.not_le_of_lt op.power_lt)
  | unary s a =>
    cases s with
    | minus => cases hneg
    | plus => exact @hword _ _ '+' [] rfl (by decide)
  | call name distinct args =>
    simp only [Expr.legible, Bool.and_eq_true] at h
    obtain ⟨c, cs, hcs, hc, -⟩ := function_opens h.1
    refine ⟨c, cs ++ ("(" ++ (if distinct then "DISTINCT " else "") ++ exprsText args ++ ")").toList,
      ?_, startsWord_ne_minus hc⟩
    simp only [Expr.text, String.toList_append, hcs, List.cons_append, List.append_assoc]
  | case branches otherwise =>
    rw [Expr.text, String.append_assoc, String.append_assoc]
    exact hword (c := 'C') rfl (by decide)
  | ite c a b =>
    simp only [Expr.text, String.append_assoc]
    exact hword (c := 'I') rfl (by decide)
  | subquery q =>
    rw [Expr.text, String.append_assoc]
    exact hword (c := '(') rfl (by decide)
  | list items => cases hf
  | star table =>
    cases table with
    | none => exact ⟨_, _, rfl, by decide⟩
    | some t => exact hname h
  | paren a =>
    rw [Expr.text, String.append_assoc]
    exact hword (c := '(') rfl (by decide)

theorem prints_unary {s : Sign} {a : Expr} (ha : Prints a.text a.lexemes)
    (h : (Expr.unary s a).legible = true) (hf : (Expr.unary s a).Formed) :
    Prints (Expr.unary s a).text (Expr.unary s a).lexemes := by
  intro rest hrest
  simp only [Expr.legible, Bool.and_eq_true, Bool.not_eq_true', Bool.and_eq_false_iff] at h
  obtain ⟨hfa, hlevel, hnum⟩ := hf
  have hshape : (Expr.unary s a).text.toList ++ rest =
      s.text.toList ++ (a.text.toList ++ rest) := by
    rw [Expr.text, String.toList_append, List.append_assoc]
  rw [hshape]
  cases s with
  | plus =>
    change lexemes ('+' :: (a.text.toList ++ rest)) = _
    rw [lexemes_plus, ha rest hrest]
    rfl
  | minus =>
    have hneg : a.isNegation = false := by
      rcases h.2 with hs | hn
      · cases hs
      · exact hn
    obtain ⟨c, cs, hcs, hc⟩ := a.text_opens h.1 hfa hlevel (hnum rfl) hneg
    have hhead : (a.text.toList ++ rest).head? ≠ some '-' := by
      rw [hcs]
      simpa using hc
    change lexemes ('-' :: (a.text.toList ++ rest)) = _
    rw [lexemes_minus hhead, ha rest hrest]
    rfl

/-! ### Words between the parts -/

/-- Cut anywhere, the words give these lexemes; they begin with a blank. -/
structure Opens (w : String) (ks : List Lexeme) : Prop where
  cut : ∀ r, lexemes (w.toList ++ r) = ks ++ lexemes r
  blank : ∃ r, w.toList = ' ' :: r

/-- A text that may stand right behind another: it is empty or begins with a blank. -/
structure Follows (s : String) (ls : List Lexeme) : Prop where
  prints : Prints s ls
  leads : ∀ rest, AtBreak rest → AtBreak (s.toList ++ rest)

theorem opens_keyword {w : String} (k : Keyword) (h : w.toList = ' ' :: (k.text.toList ++ [' '])) :
    Opens w [.keyword k] := by
  refine ⟨fun r => ?_, _, h⟩
  rw [h]
  simpa using lexemes_between k r

theorem opens_keywords {w : String} (k k' : Keyword)
    (h : w.toList = ' ' :: (k.text.toList ++ ' ' :: (k'.text.toList ++ [' ']))) :
    Opens w [.keyword k, .keyword k'] := by
  refine ⟨fun r => ?_, _, h⟩
  have hcut : w.toList ++ r = ' ' :: (k.text.toList ++ ' ' :: (k'.text.toList ++ ' ' :: r)) := by
    rw [h]
    simp
  rw [hcut, lexemes_between, lexemes_keyword_blank]
  rfl

theorem opens_binaryOp (op : BinaryOp) : Opens (" " ++ op.text ++ " ") [op.lexeme] := by
  have hshape : (" " ++ op.text ++ " ").toList = ' ' :: (op.text.toList ++ [' ']) := by simp
  refine ⟨fun r => ?_, _, hshape⟩
  rw [hshape, List.cons_append, List.append_assoc, lexemes_blank]
  exact lexemes_binaryOp op r

theorem opens_comparison (op : Comparison) : Opens (" " ++ op.text ++ " ") op.lexemes := by
  have hshape : (" " ++ op.text ++ " ").toList = ' ' :: (op.text.toList ++ [' ']) := by simp
  refine ⟨fun r => ?_, _, hshape⟩
  rw [hshape, List.cons_append, List.append_assoc, lexemes_blank]
  exact lexemes_comparison op r

theorem opens_connective (op : Connective) : Opens (" " ++ op.text ++ " ") [op.lexeme] := by
  cases op
  · exact opens_keyword .and_ rfl
  · exact opens_keyword .or_ rfl

theorem opens_join (kind : JoinKind) : Opens (" " ++ kind.text ++ " ") kind.lexemes := by
  cases kind
  · exact opens_keywords .inner .join rfl
  · exact opens_keywords .left .join rfl
  · exact opens_keywords .right .join rfl
  · exact opens_keywords .full .join rfl

theorem opens_setOperator (op : SetOperator) : Opens (" " ++ op.text ++ " ") op.lexemes := by
  cases op
  · exact opens_keyword .union rfl
  · exact opens_keywords .union .all rfl
  · exact opens_keyword .intersect rfl
  · exact opens_keyword .except rfl

section Parts

variable {s t w : String} {ls ms ks : List Lexeme}

theorem prints_empty : Prints "" [] := fun _ _ => rfl

theorem follows_empty : Follows "" [] := ⟨prints_empty, fun _ h => h⟩

theorem Prints.join (hs : Prints s ls) (hw : Opens w ks) (ht : Prints t ms) :
    Prints (s ++ w ++ t) (ls ++ (ks ++ ms)) := by
  intro rest hrest
  obtain ⟨r, hr⟩ := hw.blank
  have hbreak : AtBreak (w.toList ++ (t.toList ++ rest)) := by
    rw [hr]
    exact atBreak_blank _
  rw [String.toList_append, String.toList_append, List.append_assoc, List.append_assoc, hs _ hbreak,
    hw.cut, ht rest hrest]
  simp

theorem Prints.comma (hs : Prints s ls) (ht : Prints t ms) :
    Prints (s ++ ", " ++ t) (ls ++ .comma :: ms) := by
  intro rest hrest
  have hshape : (s ++ ", " ++ t).toList ++ rest = s.toList ++ ',' :: ' ' :: (t.toList ++ rest) := by
    simp
  rw [hshape, hs _ (atBreak_comma _), lexemes_comma, lexemes_blank, ht rest hrest]
  simp

theorem Prints.append (hs : Prints s ls) (ht : Follows t ms) : Prints (s ++ t) (ls ++ ms) := by
  intro rest hrest
  rw [String.toList_append, List.append_assoc, hs _ (ht.leads rest hrest), ht.prints rest hrest,
    List.append_assoc]

theorem Follows.append (hs : Follows s ls) (ht : Follows t ms) : Follows (s ++ t) (ls ++ ms) := by
  refine ⟨hs.prints.append ht, fun rest hrest => ?_⟩
  rw [String.toList_append, List.append_assoc]
  exact hs.leads _ (ht.leads rest hrest)

theorem Opens.follows (hw : Opens w ks) (ht : Prints t ms) : Follows (w ++ t) (ks ++ ms) := by
  refine ⟨fun rest hrest => ?_, fun rest _ => ?_⟩
  · rw [String.toList_append, List.append_assoc, hw.cut, ht rest hrest, List.append_assoc]
  · obtain ⟨r, hr⟩ := hw.blank
    rw [String.toList_append, hr]
    exact atBreak_blank _

theorem Prints.bracketed (h : Prints s ls) (on : Bool) :
    Prints (bracketed on s) (bracketedLexemes on ls) := by
  cases on with
  | false => exact h
  | true => exact h.inBrackets

/-- A reserved word at the front of a text. -/
theorem Prints.keyword (h : Prints s ls) (k : Keyword) (hw : w.toList = k.text.toList ++ [' ']) :
    Prints (w ++ s) (.keyword k :: ls) := by
  intro rest hrest
  have hshape : (w ++ s).toList ++ rest = k.text.toList ++ ' ' :: (s.toList ++ rest) := by
    simp [hw]
  rw [hshape, lexemes_keyword_blank, h rest hrest]
  rfl

end Parts

theorem prints_distinct {s : String} {ls : List Lexeme} (distinct : Bool) (h : Prints s ls) :
    Prints ((if distinct then "DISTINCT " else "") ++ s) (distinctLexemes distinct ++ ls) := by
  cases distinct with
  | false => simpa [distinctLexemes] using h
  | true => exact h.keyword .distinct rfl

theorem follows_limit {limit : Option Nat} (h : ∀ n ∈ limit, n < Number.twoPow 63) :
    Follows (limitText limit) (limitLexemes limit) := by
  cases limit with
  | none => exact follows_empty
  | some n =>
    have hdigits : Prints (String.ofList (Number.digits n)) [.integer n] := by
      intro rest hrest
      rw [String.toList_ofList, lexemes_numeral (isNumeral_whole (digits_ne_nil n) (isDigit_digits n)) hrest,
        numeralLexeme_digits (h n rfl)]
      rfl
    exact ((show Opens " LIMIT " [.keyword .limit] from opens_keyword .limit rfl)).follows hdigits

theorem follows_alias {alias? : Option String} (h : alias?.all legibleName = true) :
    Follows (aliasText alias?) (aliasLexemes alias?) :=
  ⟨prints_alias h, fun _ => atBreak_alias alias?⟩

theorem prints_bind {n : Nat} (h : (Expr.bind n).Formed) :
    Prints (Expr.bind n).text (Expr.bind n).lexemes := by
  intro rest hrest
  have hshape : (Expr.bind n).text.toList ++ rest = '?' :: (Number.digits n ++ rest) := by
    simp [Expr.text]
  rw [hshape, lexemes_placeholder h.1 h.2 hrest]
  rfl

/-- The name of a function in front of its bracket. -/
theorem prints_call {name body : String} {ls : List Lexeme} (h : legibleFunction name = true)
    (hbody : Prints body ls) :
    Prints (name ++ ("(" ++ body ++ ")")) (Lexer.wordLexeme name.toList :: inBrackets ls) := by
  intro rest hrest
  obtain ⟨c, cs, hcs, hc, hall⟩ := function_opens h
  have hbrackets := hbody.inBrackets rest hrest
  have hends : WordEnds (("(" ++ body ++ ")").toList ++ rest) := by
    have hfront : ("(" ++ body ++ ")").toList ++ rest = '(' :: (body.toList ++ ')' :: rest) := by simp
    rw [hfront]
    rintro _ ⟨⟩
    decide
  rw [String.toList_append, List.append_assoc, hcs, lexemes_word hc hall hends, hbrackets]
  rfl

theorem prints_direction {s : String} {ls : List Lexeme} (h : Prints s ls) (d : Direction) :
    Prints (s ++ " " ++ d.text) (ls ++ [d.lexeme]) := by
  have hd : Follows (" " ++ d.text) [d.lexeme] := by
    refine ⟨fun rest hrest => ?_, fun rest _ => by rw [String.toList_append]; exact atBreak_blank _⟩
    cases d
    · exact (lexemes_blank _).trans (lexemes_keyword .asc hrest.wordEnds)
    · exact (lexemes_blank _).trans (lexemes_keyword .desc hrest.wordEnds)
  rw [String.append_assoc]
  exact h.append hd

theorem follows_clause {w body : String} {ks ls : List Lexeme} (hw : Opens w ks) (h : Prints body ls)
    (empty : Bool) : Follows (clauseText w body empty) (clauseLexemes ks ls empty) := by
  cases empty with
  | true => exact follows_empty
  | false => exact hw.follows h

theorem opens_where : Opens " WHERE " [.keyword .where_] := opens_keyword .where_ rfl

theorem opens_groupBy : Opens " GROUP BY " [.keyword .group, .keyword .by_] :=
  opens_keywords .group .by_ (by decide)

theorem opens_orderBy : Opens " ORDER BY " [.keyword .order, .keyword .by_] :=
  opens_keywords .order .by_ (by decide)

theorem opens_having : Opens " HAVING " [.keyword .having] := opens_keyword .having rfl

/-- The clauses of a statement, each behind its words. -/
theorem prints_statement {distinct : Bool} {items : List SelectItem} {source : Source}
    {joins : List JoinClause} {filter having : Option Condition} {groupBy : List Expr}
    {orderBy : List OrderItem} {limit : Option Nat} {pivot : Option Expr}
    {operations : List SetOperation}
    (hitems : Prints (selectItemsText items) (itemsLexemes items))
    (hsource : Prints source.text source.lexemes)
    (hjoins : Follows (joinsText joins) (joinsLexemes joins))
    (hfilter : Follows (conditionText " WHERE " filter) (conditionLexemes .where_ filter))
    (hgroup : Prints (exprsText groupBy) (exprsLexemes groupBy))
    (hhaving : Follows (conditionText " HAVING " having) (conditionLexemes .having having))
    (horder : Prints (orderItemsText orderBy) (orderLexemes orderBy))
    (hlimit : ∀ n ∈ limit, n < Number.twoPow 63)
    (hpivot : Follows (pivotText pivot) (pivotLexemes pivot))
    (hoperations : Follows (operationsText operations) (operationsLexemes operations)) :
    Prints (Statement.text ⟨distinct, items, source, joins, filter, groupBy, having, orderBy, limit,
        pivot, operations⟩)
      (Statement.lexemes ⟨distinct, items, source, joins, filter, groupBy, having, orderBy, limit,
        pivot, operations⟩) := by
  have hselect : Prints ("SELECT " ++ _) _ := (prints_distinct distinct hitems).keyword .select rfl
  have hfrom := hselect.join (opens_keyword (w := " FROM ") (k := .from_) rfl) hsource
  have hgrouped : Follows (clauseText " GROUP BY " (exprsText groupBy) groupBy.isEmpty) _ :=
    follows_clause opens_groupBy hgroup groupBy.isEmpty
  have hordered : Follows (clauseText " ORDER BY " (orderItemsText orderBy) orderBy.isEmpty) _ :=
    follows_clause opens_orderBy horder orderBy.isEmpty
  have hall := (((((((hfrom.append hjoins).append hfilter).append hgrouped).append hhaving).append
    hordered).append (follows_limit hlimit)).append hpivot).append hoperations
  unfold Statement.text Statement.lexemes
  simpa only [String.append_assoc, List.append_assoc, List.cons_append, List.nil_append] using hall

-- By induction over the syntax, one case for each constructor.
mutual

theorem Expr.prints : ∀ e : Expr, e.legible = true → e.Formed → Prints e.text e.lexemes
  | .literal c, h, hf => prints_cell h hf
  | .column table name, h, _ => by
    rw [Expr.legible, Bool.and_eq_true] at h
    exact prints_column h.1 h.2
  | .bind n, _, hf => prints_bind hf
  | .binary op a b, h, hf => by
    rw [Expr.legible, Bool.and_eq_true] at h
    have hjoin := (a.prints h.1 hf.1).join (opens_binaryOp op) (b.prints h.2 hf.2.1)
    simpa only [Expr.text, Expr.lexemes, String.append_assoc, List.singleton_append] using hjoin
  | .unary s a, h, hf => by
    have hlegible := h
    rw [Expr.legible, Bool.and_eq_true] at hlegible
    exact prints_unary (a.prints hlegible.1 hf.1) h hf
  | .call name distinct args, h, hf => by
    rw [Expr.legible, Bool.and_eq_true] at h
    have hcall := prints_call h.1 (prints_distinct distinct (prints_exprs args h.2 hf.2.2))
    simpa only [Expr.text, Expr.lexemes, String.append_assoc] using hcall
  | .case branches otherwise, h, hf => by
    rw [Expr.legible, Bool.and_eq_true] at h
    have hends : Follows " END" [.keyword .end_] := by
      refine ⟨fun rest hrest => ?_, fun rest _ => atBreak_blank _⟩
      exact (lexemes_blank _).trans (lexemes_keyword .end_ hrest.wordEnds)
    have hcase : Prints "CASE" [.keyword .case_] := fun rest hrest =>
      lexemes_keyword .case_ hrest.wordEnds
    exact ((hcase.append (follows_branches branches h.1 hf.2.1)).append
      (follows_else otherwise h.2 hf.2.2)).append hends
  | .ite c a b, h, hf => by
    rw [Expr.legible, Bool.and_eq_true, Bool.and_eq_true] at h
    have hbody := ((c.prints h.1.1 hf.1).comma (a.prints h.1.2 hf.2.1)).comma (b.prints h.2 hf.2.2)
    have hcall := prints_call (show legibleFunction "IF" = true by decide) hbody
    have hname : Lexer.wordLexeme "IF".toList = .identifier "IF" := by decide
    have hword : "IF(" = "IF" ++ "(" := by decide
    rw [hname] at hcall
    simpa only [Expr.text, Expr.lexemes, hword, String.append_assoc] using hcall
  | .subquery q, h, hf => (q.prints h hf).inBrackets
  | .star table, h, _ => prints_star h
  | .paren a, h, hf => (a.prints h hf).inBrackets

theorem Expr.printsMembers : ∀ e : Expr, e.legible = true → e.FormedMembers → Prints e.text e.lexemes
  | .subquery q, h, hf => (q.prints h hf).inBrackets
  | .list items, h, hf => (prints_exprs items h hf).inBrackets

theorem prints_exprs : ∀ es : List Expr, legibleExprs es = true → FormedExprs es →
    Prints (exprsText es) (exprsLexemes es)
  | [], _, _ => prints_empty
  | [e], h, hf => by
    rw [legibleExprs, Bool.and_eq_true] at h
    exact e.prints h.1 hf.1
  | e :: e' :: es, h, hf => by
    rw [legibleExprs, Bool.and_eq_true] at h
    exact (e.prints h.1 hf.1).comma (prints_exprs (e' :: es) h.2 hf.2)

theorem follows_branches : ∀ bs : List (Condition × Expr), legibleBranches bs = true →
    FormedBranches bs → Follows (branchesText bs) (branchesLexemes bs)
  | [], _, _ => follows_empty
  | (c, e) :: bs, h, hf => by
    rw [legibleBranches, Bool.and_eq_true, Bool.and_eq_true] at h
    have hthen := (c.prints h.1.1 hf.1).join (opens_keyword (w := " THEN ") (k := .then_) rfl)
      (e.prints h.1.2 hf.2.1)
    have hbranch := ((opens_keyword (w := " WHEN ") (k := .when) rfl).follows hthen).append
      (follows_branches bs h.2 hf.2.2)
    simpa only [branchesText, branchesLexemes, String.append_assoc, List.append_assoc,
      List.cons_append, List.nil_append] using hbranch

theorem follows_else : ∀ o : Option Expr, legibleElse o = true → FormedElse o →
    Follows (elseText o) (elseLexemes o)
  | none, _, _ => follows_empty
  | some e, h, hf => (opens_keyword (w := " ELSE ") (k := .else_) rfl).follows (e.prints h hf)

theorem Condition.prints : ∀ c : Condition, c.legible = true → c.Formed → Prints c.text c.lexemes
  | .compare op a b, h, hf => by
    rw [Condition.legible, Bool.and_eq_true] at h
    have hb : Prints b.text b.lexemes := by
      have hright := hf.2
      split at hright
      · exact b.printsMembers h.2 hright
      · exact b.prints h.2 hright
    have hjoin := (a.prints h.1 hf.1).join (opens_comparison op) hb
    simpa only [Condition.text, Condition.lexemes, String.append_assoc, List.append_assoc] using hjoin
  | .logic op terms, h, hf => prints_terms op terms h hf.2.2
  | .not c, h, hf => by
    have hword : "NOT (" = "NOT " ++ "(" := by decide
    have hnot : Prints ("NOT " ++ _) _ := (c.prints h hf).inBrackets.keyword .not_ rfl
    simpa only [Condition.text, Condition.lexemes, hword, String.append_assoc] using hnot
  | .exists negated q, h, hf => by
    have hword : "EXISTS (" = "EXISTS " ++ "(" := by decide
    have hexists : Prints ("EXISTS " ++ _) _ := (q.prints h hf).inBrackets.keyword .exists_ rfl
    cases negated with
    | false =>
      simpa only [Condition.text, Condition.lexemes, hword, String.append_assoc, Bool.false_eq_true,
        if_false, String.empty_append, List.nil_append] using hexists
    | true =>
      have hnot : Prints ("NOT " ++ _) _ := hexists.keyword .not_ rfl
      simpa only [Condition.text, Condition.lexemes, hword, String.append_assoc, if_true,
        List.singleton_append] using hnot

theorem prints_terms (op : Connective) : ∀ cs : List Condition, legibleTerms cs = true →
    FormedTerms cs → Prints (termsText op cs) (termsLexemes op cs)
  | [], _, _ => prints_empty
  | [c], h, hf => by
    rw [legibleTerms, Bool.and_eq_true] at h
    exact (c.prints h.1 hf.1).bracketed c.isLogic
  | c :: c' :: cs, h, hf => by
    rw [legibleTerms, Bool.and_eq_true] at h
    have hjoin := ((c.prints h.1 hf.1).bracketed c.isLogic).join (opens_connective op)
      (prints_terms op (c' :: cs) h.2 hf.2)
    simpa only [termsText, termsLexemes, String.append_assoc, List.singleton_append] using hjoin

theorem Source.prints : ∀ s : Source, s.legible = true → s.Formed → Prints s.text s.lexemes
  | .table name alias?, h, _ => by
    rw [Source.legible, Bool.and_eq_true] at h
    have hname : Prints (nameText name) [.identifier name] := fun _ hrest => lexemes_name_break h.1 hrest
    exact hname.append (follows_alias h.2)
  | .query q alias?, h, hf => by
    rw [Source.legible, Bool.and_eq_true] at h
    exact (q.prints h.1 hf).inBrackets.append (follows_alias h.2)

theorem prints_items : ∀ is : List SelectItem, legibleItems is = true → FormedItems is →
    Prints (selectItemsText is) (itemsLexemes is)
  | [], _, _ => prints_empty
  | [⟨e, _, alias?⟩], h, hf => by
    rw [legibleItems, Bool.and_eq_true, Bool.and_eq_true] at h
    exact (e.prints h.1.1 hf.1).append (follows_alias h.1.2)
  | ⟨e, _, alias?⟩ :: ⟨e', t, a⟩ :: is, h, hf => by
    rw [legibleItems, Bool.and_eq_true, Bool.and_eq_true] at h
    exact ((e.prints h.1.1 hf.1).append (follows_alias h.1.2)).comma
      (prints_items (⟨e', t, a⟩ :: is) h.2 hf.2)

theorem follows_joins : ∀ js : List JoinClause, legibleJoins js = true → FormedJoins js →
    Follows (joinsText js) (joinsLexemes js)
  | [], _, _ => follows_empty
  | ⟨kind, source, c⟩ :: js, h, hf => by
    rw [legibleJoins, Bool.and_eq_true, Bool.and_eq_true] at h
    have hon := (source.prints h.1.1 hf.1).join (opens_keyword (w := " ON ") (k := .on) rfl)
      (c.prints h.1.2 hf.2.1)
    have hjoin := ((opens_join kind).follows hon).append (follows_joins js h.2 hf.2.2)
    simpa only [joinsText, joinsLexemes, String.append_assoc, List.append_assoc, List.cons_append,
      List.nil_append] using hjoin

theorem prints_order : ∀ os : List OrderItem, legibleOrder os = true → FormedOrder os →
    Prints (orderItemsText os) (orderLexemes os)
  | [], _, _ => prints_empty
  | [⟨e, d⟩], h, hf => by
    rw [legibleOrder, Bool.and_eq_true] at h
    exact prints_direction (e.prints h.1 hf.1) d
  | ⟨e, d⟩ :: ⟨e', d'⟩ :: os, h, hf => by
    rw [legibleOrder, Bool.and_eq_true] at h
    have hcomma := (prints_direction (e.prints h.1 hf.1) d).comma (prints_order (⟨e', d'⟩ :: os) h.2 hf.2)
    simpa only [orderItemsText, orderLexemes, List.append_assoc, List.singleton_append] using hcomma

theorem follows_condition {w : String} {k : Keyword} (hw : Opens w [.keyword k]) :
    ∀ o : Option Condition, legibleCondition o = true → FormedCondition o →
      Follows (conditionText w o) (conditionLexemes k o)
  | none, _, _ => follows_empty
  | some c, h, hf => hw.follows (c.prints h hf)

theorem follows_pivot : ∀ o : Option Expr, legibleElse o = true → FormedElse o →
    Follows (pivotText o) (pivotLexemes o)
  | none, _, _ => follows_empty
  | some e, h, hf => (opens_keyword (w := " PIVOT ") (k := .pivot) rfl).follows (e.prints h hf)

theorem follows_operations : ∀ os : List SetOperation, legibleOperations os = true →
    FormedOperations os → Follows (operationsText os) (operationsLexemes os)
  | [], _, _ => follows_empty
  | ⟨op, s⟩ :: os, h, hf => by
    rw [legibleOperations, Bool.and_eq_true] at h
    have hop := ((opens_setOperator op).follows (s.prints h.1 hf.1)).append
      (follows_operations os h.2 hf.2.2)
    simpa only [operationsText, operationsLexemes, String.append_assoc] using hop

theorem Statement.prints : ∀ s : Statement, s.legible = true → s.Formed → Prints s.text s.lexemes
  | ⟨distinct, items, source, joins, filter, groupBy, having, orderBy, _, pivot, operations⟩, h,
      hf => by
    simp only [Statement.legible, Bool.and_eq_true] at h
    obtain ⟨⟨⟨⟨⟨⟨⟨⟨hi, hs⟩, hj⟩, hw⟩, hg⟩, hh⟩, ho⟩, hp⟩, hops⟩ := h
    obtain ⟨-, hfi, hfs, hfj, hfw, hfg, hfh, hfo, hl, hfp, hfops⟩ := hf
    exact prints_statement (prints_items items hi hfi) (source.prints hs hfs)
      (follows_joins joins hj hfj) (follows_condition opens_where filter hw hfw)
      (prints_exprs groupBy hg hfg) (follows_condition opens_having having hh hfh)
      (prints_order orderBy ho hfo) hl (follows_pivot pivot hp hfp)
      (follows_operations operations hops hfops)

end

end GridQuery
