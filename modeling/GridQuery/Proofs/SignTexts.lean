import GridQuery.Proofs.Reparsed

/-!
The texts of expressions made of signs and operators. A sign is written in front of its operand with
nothing between them, so the text of a minus in front of a minus begins a comment. Without such a pair
the text holds no comment, is cut into one lexeme for each sign and operator, and is read as the
expression; with one it is not cut without passing over a comment.
-/

namespace GridQuery
set_option autoImplicit false

open GridQuery.Parser

/-! ### Texts without comments -/

namespace Lexer

/-- In front of each lexeme, and of the end, blanks alone are passed over. -/
inductive Uncommented : List Char → Prop where
  | nil {cs : List Char} (hskip : skip cs = []) (hblank : cs.dropWhile Text.isBlank = []) : Uncommented cs
  | cons {cs r : List Char} {c : Char} (hskip : skip cs = c :: r)
      (hblank : cs.dropWhile Text.isBlank = c :: r) (hrest : Uncommented (lexeme c r).2) : Uncommented cs

variable {c : Char} {r rest : List Char}

theorem uncommented_nil : Uncommented [] :=
  .nil (by rw [skip]) rfl

theorem Uncommented.congr {cs ds : List Char} (h : Uncommented cs) (hskip : skip cs = skip ds)
    (hblank : cs.dropWhile Text.isBlank = ds.dropWhile Text.isBlank) : Uncommented ds := by
  cases h with
  | nil hnone hall => exact .nil (hskip ▸ hnone) (hblank ▸ hall)
  | cons hfirst hgap hrest => exact .cons (hskip ▸ hfirst) (hblank ▸ hgap) hrest

theorem uncommented_blank (r : List Char) : Uncommented (' ' :: r) ↔ Uncommented r := by
  have hskip : skip (' ' :: r) = skip r := by simp [skip, Text.isBlank]
  have hblank : (' ' :: r).dropWhile Text.isBlank = r.dropWhile Text.isBlank :=
    List.dropWhile_cons_of_pos (by decide)
  exact ⟨fun h => h.congr hskip hblank, fun h => h.congr hskip.symm hblank.symm⟩

theorem uncommented_lexeme (h : Solid c r) (hl : (lexeme c r).2 = rest) :
    Uncommented (c :: r) ↔ Uncommented rest := by
  subst hl
  have hskip := skip_of_solid h
  constructor
  · intro hcs
    cases hcs with
    | nil hnone =>
      rw [hskip] at hnone
      cases hnone
    | cons hfirst _ hrest =>
      rw [hskip] at hfirst
      cases hfirst
      exact hrest
  · exact .cons hskip (List.dropWhile_cons_of_neg (by simp [h.1]))

/-- Two minuses begin a comment. -/
theorem not_uncommented_minus (r : List Char) : ¬Uncommented ('-' :: '-' :: r) := by
  have hblank : ('-' :: '-' :: r).dropWhile Text.isBlank = '-' :: '-' :: r :=
    List.dropWhile_cons_of_neg (by decide)
  intro h
  cases h with
  | nil _ hall =>
    rw [hblank] at hall
    cases hall
  | cons hfirst hgap =>
    rw [hblank] at hgap
    cases hgap
    exact (skip_solid hfirst).2.1 rfl rfl

theorem uncommented_minus (h : r.head? ≠ some '-') : Uncommented ('-' :: r) ↔ Uncommented r :=
  uncommented_lexeme ⟨by decide, fun _ => h, fun h => absurd h (by decide)⟩ rfl

/-- A lexeme of one character that begins no comment. -/
theorem uncommented_mark (hc : c ∈ ['(', ')', ',', '+', '*', '%']) (r : List Char) :
    Uncommented (c :: r) ↔ Uncommented r := by
  simp only [List.mem_cons, List.not_mem_nil, or_false] at hc
  rcases hc with rfl | rfl | rfl | rfl | rfl | rfl
  all_goals exact uncommented_lexeme (solid_of_ne r (by decide) (by decide) (by decide)) rfl

theorem uncommented_dot (h : ∀ c ∈ r.head?, c.isDigit = false) : Uncommented ('.' :: r) ↔ Uncommented r := by
  refine uncommented_lexeme (solid_of_ne r (by decide) (by decide) (by decide)) ?_
  cases r with
  | nil => rfl
  | cons c r => simp [lexeme, h c rfl]

theorem uncommented_word {s : String} (hplain : isPlainName s = true) (hstart : startsWord s = true)
    (hrest : WordEnds rest) : Uncommented (s.toList ++ rest) ↔ Uncommented rest := by
  obtain ⟨c, cs, hcs, hc, hall⟩ := plainName_opens hplain hstart
  rw [hcs, List.cons_append]
  refine uncommented_lexeme (hc.solid _) ?_
  rw [lexeme_word hc]
  exact (takeWhile_append_ends hall hrest).2

theorem uncommented_name {s : String} (h : legibleName s = true) (hw : WordEnds rest)
    (hq : rest.head? ≠ some '\x60') : Uncommented ((nameText s).toList ++ rest) ↔ Uncommented rest := by
  unfold nameText
  split
  · rename_i hplain
    simp only [legibleName, hplain, Bool.not_true, Bool.false_or, Bool.and_eq_true] at h
    exact uncommented_word hplain h.1 hw
  · have hshape : ("\x60" ++ doubled '\x60' s ++ "\x60").toList ++ rest =
        '\x60' :: ((doubled '\x60' s).toList ++ '\x60' :: rest) := by simp
    rw [hshape]
    refine uncommented_lexeme (solid_of_ne _ (by decide) (by decide) (by decide)) ?_
    exact congrArg Prod.snd (quotedLexeme_doubled '\x60' .identifier hq s)

theorem uncommented_placeholder (n : Nat) (hrest : AtBreak rest) :
    Uncommented ('?' :: (Number.digits n ++ rest)) ↔ Uncommented rest :=
  uncommented_lexeme (solid_of_ne _ (by decide) (by decide) (by decide))
    (takeWhile_append_ends (isDigit_digits n) hrest.isDigit).2

theorem uncommented_binaryOp (op : BinaryOp) (r : List Char) :
    Uncommented (op.text.toList ++ ' ' :: r) ↔ Uncommented r := by
  have hmark : ∀ c, c ∈ ['+', '*', '%'] → (Uncommented (c :: ' ' :: r) ↔ Uncommented r) := fun c hc =>
    (uncommented_mark (by simp_all) _).trans (uncommented_blank r)
  cases op with
  | add => exact hmark '+' (by simp)
  | mul => exact hmark '*' (by simp)
  | mod => exact hmark '%' (by simp)
  | sub => exact (uncommented_minus (by simp)).trans (uncommented_blank r)
  | div =>
    refine Iff.trans (uncommented_lexeme ?_ rfl) (uncommented_blank r)
    exact ⟨by decide, fun h => absurd h (by decide), fun _ => by simp⟩
  | concat =>
    refine Iff.trans (uncommented_lexeme ?_ rfl) (uncommented_blank r)
    exact solid_of_ne _ (by decide) (by decide) (by decide)

end Lexer

/-! ### Expressions of signs and operators -/

mutual

/-- Signs, operators, brackets and calls over columns, placeholders and stars, with names that read back. -/
def Expr.isArithmetic : Expr → Bool
  | .column table name => table.all legibleName && legibleName name
  | .bind _ => true
  | .star table => table.all legibleName
  | .binary _ a b => a.isArithmetic && b.isArithmetic
  | .unary _ a => a.isArithmetic
  | .call name _ args => legibleFunction name && areArithmetic args
  | .paren a => a.isArithmetic
  | _ => false

def areArithmetic : List Expr → Bool
  | [] => true
  | e :: es => e.isArithmetic && areArithmetic es

end

mutual

/-- A minus stands right in front of a minus. -/
def Expr.doublesMinus : Expr → Bool
  | .binary _ a b => a.doublesMinus || b.doublesMinus
  | .unary s a => (s == .minus && a.isNegation) || a.doublesMinus
  | .call _ _ args => doubleMinus args
  | .paren a => a.doublesMinus
  | _ => false

def doubleMinus : List Expr → Bool
  | [] => false
  | e :: es => e.doublesMinus || doubleMinus es

end

mutual

/-- How many signs and operators there are. A star counts, too: it is cut as the operator is. -/
def Expr.operators : Expr → Nat
  | .star _ => 1
  | .binary _ a b => a.operators + 1 + b.operators
  | .unary _ a => a.operators + 1
  | .call _ _ args => operatorsOf args
  | .paren a => a.operators
  | _ => 0

def operatorsOf : List Expr → Nat
  | [] => 0
  | e :: es => e.operators + operatorsOf es

end

/-- What signs and operators are cut as. -/
def Lexeme.isOperator (l : Lexeme) : Bool :=
  (binaryOf l).isSome

mutual

theorem Expr.legible_of_isArithmetic : ∀ {e : Expr}, e.isArithmetic = true → e.legible = !e.doublesMinus
  | .column .., h | .star _, h => h
  | .bind _, _ => rfl
  | .binary _ a b, h => by
    simp only [Expr.isArithmetic, Bool.and_eq_true] at h
    rw [Expr.legible, Expr.legible_of_isArithmetic h.1, Expr.legible_of_isArithmetic h.2,
      Expr.doublesMinus, Bool.not_or]
  | .unary _ a, h => by
    rw [Expr.legible, Expr.legible_of_isArithmetic (e := a) h, Expr.doublesMinus, Bool.not_or,
      Bool.and_comm]
  | .call _ _ args, h => by
    simp only [Expr.isArithmetic, Bool.and_eq_true] at h
    rw [Expr.legible, h.1, legible_of_areArithmetic h.2, Expr.doublesMinus, Bool.true_and]
  | .paren a, h => Expr.legible_of_isArithmetic (e := a) h

theorem legible_of_areArithmetic : ∀ {es : List Expr}, areArithmetic es = true →
    legibleExprs es = !doubleMinus es
  | [], _ => rfl
  | e :: es, h => by
    simp only [areArithmetic, Bool.and_eq_true] at h
    rw [legibleExprs, Expr.legible_of_isArithmetic h.1, legible_of_areArithmetic h.2, doubleMinus,
      Bool.not_or]

end

mutual

theorem Expr.statements_of_isArithmetic : ∀ {e : Expr}, e.isArithmetic = true → e.statements = []
  | .column .., _ | .bind _, _ | .star _, _ => rfl
  | .binary _ a b, h => by
    simp only [Expr.isArithmetic, Bool.and_eq_true] at h
    rw [Expr.statements, Expr.statements_of_isArithmetic h.1, Expr.statements_of_isArithmetic h.2]
    rfl
  | .unary _ a, h => Expr.statements_of_isArithmetic (e := a) h
  | .call _ _ args, h => by
    simp only [Expr.isArithmetic, Bool.and_eq_true] at h
    exact statements_of_areArithmetic h.2
  | .paren a, h => Expr.statements_of_isArithmetic (e := a) h

theorem statements_of_areArithmetic : ∀ {es : List Expr}, areArithmetic es = true → exprsStatements es = []
  | [], _ => rfl
  | e :: es, h => by
    simp only [areArithmetic, Bool.and_eq_true] at h
    rw [exprsStatements, Expr.statements_of_isArithmetic h.1, statements_of_areArithmetic h.2]
    rfl

end

/-! ### Counting operators -/

theorem isOperator_binaryOp (op : BinaryOp) : op.lexeme.isOperator = true := by
  cases op <;> rfl

theorem isOperator_sign (s : Sign) : s.lexeme.isOperator = true := by
  cases s <;> rfl

theorem isOperator_word (cs : List Char) : (Lexer.wordLexeme cs).isOperator = false := by
  unfold Lexer.wordLexeme
  split <;> rfl

theorem countP_distinct (distinct : Bool) : (distinctLexemes distinct).countP Lexeme.isOperator = 0 := by
  cases distinct <;> rfl

theorem countP_inBrackets (ls : List Lexeme) :
    (inBrackets ls).countP Lexeme.isOperator = ls.countP Lexeme.isOperator := by
  simp [inBrackets, Lexeme.isOperator, binaryOf]

mutual

/-- Each sign and operator of an expression is one lexeme. -/
theorem Expr.countP_lexemes : ∀ {e : Expr}, e.isArithmetic = true →
    e.lexemes.countP Lexeme.isOperator = e.operators
  | .column table _, _ | .star table, _ => by cases table <;> rfl
  | .bind _, _ => rfl
  | .binary op a b, h => by
    simp only [Expr.isArithmetic, Bool.and_eq_true] at h
    rw [Expr.lexemes, List.countP_append, List.countP_cons_of_pos (isOperator_binaryOp op),
      Expr.countP_lexemes h.1, Expr.countP_lexemes h.2, Expr.operators]
    omega
  | .unary s a, h => by
    rw [Expr.lexemes, List.countP_cons_of_pos (isOperator_sign s), Expr.countP_lexemes (e := a) h,
      Expr.operators]
  | .call name distinct args, h => by
    simp only [Expr.isArithmetic, Bool.and_eq_true] at h
    rw [Expr.lexemes, List.countP_cons_of_neg (by simp [isOperator_word]), countP_inBrackets,
      List.countP_append, countP_distinct, countP_exprsLexemes h.2, Expr.operators, Nat.zero_add]
  | .paren a, h => by
    rw [Expr.lexemes, countP_inBrackets, Expr.countP_lexemes (e := a) h, Expr.operators]

theorem countP_exprsLexemes : ∀ {es : List Expr}, areArithmetic es = true →
    (exprsLexemes es).countP Lexeme.isOperator = operatorsOf es
  | [], _ => rfl
  | [e], h => by
    simp only [areArithmetic, Bool.and_true] at h
    exact Expr.countP_lexemes h
  | e :: e' :: es, h => by
    rw [areArithmetic, Bool.and_eq_true] at h
    rw [exprsLexemes, List.countP_append, List.countP_cons_of_neg (by decide), Expr.countP_lexemes h.1,
      countP_exprsLexemes h.2]
    · rfl
    · exact List.cons_ne_nil e' es

end

/-! ### Texts that hide what they hold -/

open Lexer

/-- Cut where it ends, the text holds a comment just if it `hides` something. -/
def Hides (s : String) (hides : Bool) : Prop :=
  ∀ rest, AtBreak rest → (Uncommented (s.toList ++ rest) ↔ hides = false ∧ Uncommented rest)

section Parts

variable {s t : String} {hs ht : Bool}

theorem Hides.of_iff (h : ∀ rest, AtBreak rest → (Uncommented (s.toList ++ rest) ↔ Uncommented rest)) :
    Hides s false :=
  fun rest hrest => (h rest hrest).trans (by simp)

theorem Hides.inBrackets (h : Hides s hs) : Hides ("(" ++ s ++ ")") hs := by
  intro rest _
  have hshape : ("(" ++ s ++ ")").toList ++ rest = '(' :: (s.toList ++ ')' :: rest) := by simp
  rw [hshape, uncommented_mark (by simp), h _ (atBreak_rightParen rest), uncommented_mark (by simp)]

theorem Hides.comma (h : Hides s hs) (h' : Hides t ht) : Hides (s ++ ", " ++ t) (hs || ht) := by
  intro rest hrest
  have hshape : (s ++ ", " ++ t).toList ++ rest = s.toList ++ ',' :: ' ' :: (t.toList ++ rest) := by simp
  rw [hshape, h _ (atBreak_comma _), uncommented_mark (by simp), uncommented_blank, h' rest hrest,
    Bool.or_eq_false_iff, and_assoc]

theorem Hides.binaryOp (h : Hides s hs) (h' : Hides t ht) (op : BinaryOp) :
    Hides (s ++ " " ++ op.text ++ " " ++ t) (hs || ht) := by
  intro rest hrest
  have hshape : (s ++ " " ++ op.text ++ " " ++ t).toList ++ rest =
      s.toList ++ ' ' :: (op.text.toList ++ ' ' :: (t.toList ++ rest)) := by simp
  rw [hshape, h _ (atBreak_blank _), uncommented_blank, uncommented_binaryOp, h' rest hrest,
    Bool.or_eq_false_iff, and_assoc]

theorem Hides.distinct (h : Hides s hs) (distinct : Bool) :
    Hides ((if distinct then "DISTINCT " else "") ++ s) hs := by
  intro rest hrest
  cases distinct with
  | false => simpa using h rest hrest
  | true =>
    have hshape : ("DISTINCT " ++ s).toList ++ rest = "DISTINCT".toList ++ ' ' :: (s.toList ++ rest) := by
      rw [String.toList_append, List.append_assoc]
      rfl
    rw [if_pos rfl, hshape, uncommented_word (by decide) (by decide) (wordEnds_blank _),
      uncommented_blank, h rest hrest]

end Parts

theorem hides_name {s : String} (h : legibleName s = true) : Hides (nameText s) false :=
  .of_iff fun _ hrest => uncommented_name h hrest.wordEnds (hrest.head_ne (by decide))

/-- A name in front of a point. -/
theorem uncommented_name_dot {s : String} (h : legibleName s = true) {rest : List Char}
    (hrest : ∀ c ∈ rest.head?, c.isDigit = false) :
    Uncommented ((nameText s).toList ++ '.' :: rest) ↔ Uncommented rest := by
  have hends : WordEnds ('.' :: rest) := by
    rintro _ ⟨⟩
    decide
  rw [uncommented_name h hends (by simp), uncommented_dot hrest]

theorem hides_column {table : Option String} {name : String} (ht : table.all legibleName = true)
    (hn : legibleName name = true) : Hides (columnText table name) false := by
  cases table with
  | none => exact hides_name hn
  | some t =>
    refine .of_iff fun rest hrest => ?_
    have hshape : (columnText (some t) name).toList ++ rest =
        (nameText t).toList ++ '.' :: ((nameText name).toList ++ rest) := by
      simp [columnText]
    rw [hshape, uncommented_name_dot ht (nameText_isDigit hn rest), hides_name hn rest hrest,
      eq_self_iff_true, true_and]

theorem hides_star {table : Option String} (ht : table.all legibleName = true) :
    Hides (starText table) false := by
  refine .of_iff fun rest _ => ?_
  cases table with
  | none => exact uncommented_mark (c := '*') (by simp) rest
  | some t =>
    have hshape : (starText (some t)).toList ++ rest = (nameText t).toList ++ '.' :: '*' :: rest := by
      simp [starText]
    rw [hshape, uncommented_name_dot ht (by rintro _ ⟨⟩; decide), uncommented_mark (by simp)]

theorem hides_bind (n : Nat) : Hides (Expr.bind n).text false := by
  refine .of_iff fun rest hrest => ?_
  have hshape : (Expr.bind n).text.toList ++ rest = '?' :: (Number.digits n ++ rest) := by
    simp [Expr.text]
  rw [hshape, uncommented_placeholder n hrest]

theorem hides_call {name body : String} {hides : Bool} (h : legibleFunction name = true)
    (hbody : Hides body hides) : Hides (name ++ ("(" ++ body ++ ")")) hides := by
  intro rest hrest
  simp only [legibleFunction, Bool.and_eq_true] at h
  have hends : WordEnds (("(" ++ body ++ ")").toList ++ rest) := by
    have hfront : ("(" ++ body ++ ")").toList ++ rest = '(' :: (body.toList ++ ')' :: rest) := by simp
    rw [hfront]
    rintro _ ⟨⟩
    decide
  rw [String.toList_append, List.append_assoc, uncommented_word h.1.1 h.1.2 hends,
    hbody.inBrackets rest hrest]

theorem Expr.eq_minus {e : Expr} (h : e.isNegation = true) : ∃ a, e = .unary .minus a := by
  unfold Expr.isNegation at h
  split at h
  · exact ⟨_, rfl⟩
  · cases h

/-- An operand that is no negation begins with no minus. -/
theorem Expr.head_ne_minus {e : Expr} (h : e.isArithmetic = true) (hlevel : signPower ≤ e.level)
    (hneg : e.isNegation = false) (rest : List Char) : (e.text.toList ++ rest).head? ≠ some '-' := by
  have hleaf (hlegible : e.legible = true) (hf : e.Formed) (hnumber : e.isNumber = false) :
      (e.text.toList ++ rest).head? ≠ some '-' := by
    obtain ⟨c, cs, hcs, hc⟩ := e.text_opens hlegible hf hlevel hnumber hneg
    rw [hcs]
    simpa using hc
  cases e with
  | column _ _ | star _ => exact hleaf h trivial rfl
  | bind n => simp [Expr.text]
  | binary op _ _ => exact absurd hlevel (Nat.not_le_of_lt op.power_lt)
  | unary s a =>
    cases s with
    | minus => cases hneg
    | plus => simp [Expr.text, Sign.text]
  | call name _ args =>
    rw [Expr.isArithmetic, Bool.and_eq_true] at h
    obtain ⟨c, cs, hcs, hc, -⟩ := function_opens h.1
    simpa [Expr.text, hcs] using startsWord_ne_minus hc
  | paren a => simp [Expr.text]
  | literal _ | case _ _ | ite _ _ _ | subquery _ | list _ => cases h

-- By induction over the syntax, one case for each constructor.
mutual

/-- A comment begins in the text where a minus stands in front of a minus, and nowhere else. -/
theorem Expr.hides : ∀ {e : Expr}, e.isArithmetic = true → e.Formed → Hides e.text e.doublesMinus
  | .column table name, h, _ => by
    rw [Expr.isArithmetic, Bool.and_eq_true] at h
    exact hides_column h.1 h.2
  | .bind n, _, _ => hides_bind n
  | .star _, h, _ => hides_star h
  | .binary op a b, h, hf => by
    rw [Expr.isArithmetic, Bool.and_eq_true] at h
    exact (Expr.hides h.1 hf.1).binaryOp (Expr.hides h.2 hf.2.1) op
  | .unary s a, h, hf => by
    intro rest hrest
    have ha := Expr.hides (e := a) h hf.1 rest hrest
    have hshape : (Expr.unary s a).text.toList ++ rest = s.text.toList ++ (a.text.toList ++ rest) := by
      rw [Expr.text, String.toList_append, List.append_assoc]
    rw [hshape, Expr.doublesMinus]
    cases s with
    | plus => exact (uncommented_mark (c := '+') (by simp) _).trans ha
    | minus =>
      cases hneg : a.isNegation with
      | false => exact (uncommented_minus (a.head_ne_minus h hf.2.1 hneg rest)).trans ha
      | true =>
        obtain ⟨b, rfl⟩ := Expr.eq_minus hneg
        have hfront : Sign.minus.text.toList ++ ((Expr.unary .minus b).text.toList ++ rest) =
            '-' :: '-' :: (b.text.toList ++ rest) := by
          rw [Expr.text, String.toList_append]
          rfl
        simp [hfront, not_uncommented_minus]
  | .call name distinct args, h, hf => by
    rw [Expr.isArithmetic, Bool.and_eq_true] at h
    have hcall := hides_call h.1 ((hides_exprs h.2 hf.2.2).distinct distinct)
    simpa only [Expr.text, Expr.doublesMinus, String.append_assoc] using hcall
  | .paren a, h, hf => (Expr.hides (e := a) h hf).inBrackets

theorem hides_exprs : ∀ {es : List Expr}, areArithmetic es = true → FormedExprs es →
    Hides (exprsText es) (doubleMinus es)
  | [], _, _ => .of_iff fun _ _ => Iff.rfl
  | [e], h, hf => by
    rw [areArithmetic, Bool.and_eq_true] at h
    rw [doubleMinus, doubleMinus, Bool.or_false]
    exact Expr.hides h.1 hf.1
  | e :: e' :: es, h, hf => by
    rw [areArithmetic, Bool.and_eq_true] at h
    exact (Expr.hides h.1 hf.1).comma (hides_exprs h.2 hf.2)

end

/-! ### Reading signs back -/

/-- The text of signs and operators over names, placeholders and calls holds a comment just if a minus
stands right in front of a minus. Without a comment it is cut into one lexeme for each sign and operator,
among others, and it is read as the expression it is the text of. -/
theorem signs_read_back {p : Place} {n : Nat} {ts rest : List Token} {e : Expr}
    (hread : expr p n 0 ts = .ok (e, rest)) (hrange : InRange ts) (h : e.isArithmetic = true) :
    (Uncommented e.text.toList ↔ e.doublesMinus = false) ∧
      (e.doublesMinus = false →
        (∀ size, ((Lexer.tokens size e.text.toList).map Token.lexeme).countP Lexeme.isOperator = e.operators) ∧
        parseExpr e.text = .ok e) := by
  have hf : e.Formed := ((readersForm n).expr p 0 ts (Nat.zero_le _) hrange (e, rest) hread).1
  refine ⟨?_, fun hsingle => ?_⟩
  · have hhides := Expr.hides h hf [] atBreak_nil
    rwa [List.append_nil, and_iff_left uncommented_nil] at hhides
  · have hlegible : e.legible = true := by rw [Expr.legible_of_isArithmetic h, hsingle, Bool.not_false]
    refine ⟨fun size => ?_, parseExpr_text_eq hlegible hf (Expr.statements_of_isArithmetic h)⟩
    have hcut := e.prints hlegible hf [] atBreak_nil
    rw [List.append_nil, lexemes_nil] at hcut
    rw [map_lexeme_tokens, hcut, List.countP_append, Expr.countP_lexemes h]
    rfl

/-- `-f(+a, *) * -?2` -/
def signedCall : List Token :=
  bareTokens [.minus, .identifier "f", .leftParen, .plus, .identifier "a", .comma, .star, .rightParen,
    .star, .minus, .placeholder (some 2)]

theorem signs_read_back_call : ∃ e rest, expr ⟨[], 0⟩ (budget signedCall) 0 signedCall = .ok (e, rest) ∧
    e.operators = 5 ∧ Uncommented e.text.toList ∧ parseExpr e.text = .ok e := by
  have hread : expr ⟨[], 0⟩ (budget signedCall) 0 signedCall =
      .ok (.binary .mul (.unary .minus (.call "F" false [.unary .plus (.column none "a"), .star none]))
        (.unary .minus (.bind 2)), []) := by
    rfl
  have hrange : InRange signedCall := by
    simp [InRange, signedCall, bareTokens, LexemeInRange, Number.twoPow]
  have hsigns := signs_read_back hread hrange (by decide)
  exact ⟨_, _, hread, rfl, hsigns.1.2 rfl, (hsigns.2 rfl).2⟩

/-- The text of a minus of a minus is a comment. -/
theorem double_minus_lost : ∃ e, parseExpr "- -a" = .ok e ∧ e.isArithmetic = true ∧ e.operators = 2 ∧
    ((Lexer.tokens 3 e.text.toList).map Token.lexeme).countP Lexeme.isOperator = 0 ∧
    ¬Uncommented e.text.toList ∧ ∀ e', parseExpr e.text ≠ .ok e' := by
  have hread : (parseExpr "- -a").toOption.any (fun e =>
      e.isArithmetic && e.operators == 2 && e.text == "--a") = true := by decide +kernel
  obtain ⟨e, he, hfacts⟩ := exists_of_any hread
  simp only [Bool.and_eq_true, beq_iff_eq] at hfacts
  obtain ⟨⟨harith, hcount⟩, htext⟩ := hfacts
  refine ⟨e, he, harith, hcount, ?_⟩
  rw [htext]
  exact ⟨by decide +kernel, not_uncommented_minus ['a'], parseExpr_ne_ok (by decide +kernel)⟩

end GridQuery
