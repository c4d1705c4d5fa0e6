import Mathlib
import GridQuery.Proofs.Spelled

/-!
Cutting written pieces into lexemes. What a piece gives does not depend on its place in the text: the
lexemes of a text that begins with it are those of the piece and then those of the rest, as long as the
rest begins with a character that cannot continue the piece.
-/

set_option autoImplicit false

namespace GridQuery.Text

theorem byteLength_append (cs ds : List Char) :
    byteLength (cs ++ ds) = byteLength cs + byteLength ds := by
  induction cs with
  | nil => simp [byteLength]
  | cons c cs ih =>
    rw [List.cons_append, byteLength, byteLength, ih]
    omega

theorem byteLength_eq_utf8ByteSize (cs : List Char) :
    (String.ofList cs).utf8ByteSize = byteLength cs := by
  induction cs with
  | nil => rfl
  | cons c cs ih =>
    have h : String.ofList (c :: cs) = String.singleton c ++ String.ofList cs := by
      apply String.toList_injective
      simp
    rw [h, String.utf8ByteSize_append, String.utf8ByteSize_singleton, ih, byteLength]

end GridQuery.Text

namespace GridQuery.Lexer

/-- The lexemes of a text, the end among them. -/
def lexemes (cs : List Char) : List Lexeme :=
  (tokens 0 cs).map Token.lexeme

theorem tokens_of_skip_nil {size : Nat} {cs : List Char} (h : skip cs = []) :
    tokens size cs = [⟨.eof, size, size⟩] := by
  rw [tokens]
  split
  · rfl
  · rename_i h'
    rw [h] at h'
    cases h'

theorem tokens_of_skip_cons {size : Nat} {cs r : List Char} {c : Char} (h : skip cs = c :: r) :
    tokens size cs =
      ⟨(lexeme c r).1, size - Text.byteLength (c :: r), size - Text.byteLength (lexeme c r).2⟩ ::
        tokens size (lexeme c r).2 := by
  rw [tokens]
  split
  · rename_i h'
    rw [h] at h'
    cases h'
  · rename_i c' r' h'
    rw [h] at h'
    cases h'
    rfl

theorem lexemes_of_skip_nil {cs : List Char} (h : skip cs = []) : lexemes cs = [.eof] := by
  rw [lexemes, tokens_of_skip_nil h]
  rfl

theorem lexemes_of_skip_cons {cs r : List Char} {c : Char} (h : skip cs = c :: r) :
    lexemes cs = (lexeme c r).1 :: lexemes (lexeme c r).2 := by
  rw [lexemes, tokens_of_skip_cons h]
  rfl

/-- Where a text stands does not change its lexemes. -/
theorem map_lexeme_tokens (size : Nat) (cs : List Char) :
    (tokens size cs).map Token.lexeme = lexemes cs := by
  induction hn : cs.length using Nat.strongRecOn generalizing cs with
  | ind n ih =>
    cases h : skip cs with
    | nil => rw [tokens_of_skip_nil h, lexemes_of_skip_nil h]; rfl
    | cons c r =>
      have hr := length_lexeme_le c r
      have hs := length_skip_le cs
      rw [h, List.length_cons] at hs
      rw [tokens_of_skip_cons h, lexemes_of_skip_cons h, List.map_cons, ih _ (by omega) _ rfl]

theorem lexemes_congr {cs ds : List Char} (h : skip cs = skip ds) : lexemes cs = lexemes ds := by
  cases hc : skip cs with
  | nil => rw [lexemes_of_skip_nil hc, lexemes_of_skip_nil (h ▸ hc)]
  | cons c r =>
    have hd : skip ds = c :: r := h ▸ hc
    rw [lexemes_of_skip_cons hc, lexemes_of_skip_cons hd]

/-! ### The front of a text -/

@[simp] theorem lexemes_nil : lexemes [] = [.eof] :=
  lexemes_of_skip_nil (by simp [skip])

@[simp] theorem lexemes_blank (r : List Char) : lexemes (' ' :: r) = lexemes r :=
  lexemes_congr (by simp [skip, Text.isBlank])

/-- Neither a blank nor a comment begins with `c` and `r`. -/
def Solid (c : Char) (r : List Char) : Prop :=
  Text.isBlank c = false ∧ (c = '-' → r.head? ≠ some '-') ∧ (c = '/' → r.head? ≠ some '*')

theorem skip_of_solid {c : Char} {r : List Char} (h : Solid c r) : skip (c :: r) = c :: r := by
  obtain ⟨hb, hm, hs⟩ := h
  unfold skip
  split
  · rename_i heq
    cases heq
    exact absurd rfl (hm rfl)
  · rename_i heq
    cases heq
    exact absurd rfl (hs rfl)
  · rename_i heq
    cases heq
    simp [hb]
  · rename_i heq
    cases heq

theorem lexemes_cons {c : Char} {r : List Char} (h : Solid c r) :
    lexemes (c :: r) = (lexeme c r).1 :: lexemes (lexeme c r).2 :=
  lexemes_of_skip_cons (skip_of_solid h)

theorem solid_of_ne {c : Char} (r : List Char) (hb : Text.isBlank c = false) (hm : c ≠ '-')
    (hs : c ≠ '/') : Solid c r :=
  ⟨hb, fun h => absurd h hm, fun h => absurd h hs⟩

@[simp] theorem lexemes_leftParen (r : List Char) : lexemes ('(' :: r) = .leftParen :: lexemes r :=
  lexemes_cons (solid_of_ne r (by decide) (by decide) (by decide))

@[simp] theorem lexemes_rightParen (r : List Char) : lexemes (')' :: r) = .rightParen :: lexemes r :=
  lexemes_cons (solid_of_ne r (by decide) (by decide) (by decide))

@[simp] theorem lexemes_comma (r : List Char) : lexemes (',' :: r) = .comma :: lexemes r :=
  lexemes_cons (solid_of_ne r (by decide) (by decide) (by decide))

theorem lexemes_plus (r : List Char) : lexemes ('+' :: r) = .plus :: lexemes r :=
  lexemes_cons (solid_of_ne r (by decide) (by decide) (by decide))

theorem lexemes_star (r : List Char) : lexemes ('*' :: r) = .star :: lexemes r :=
  lexemes_cons (solid_of_ne r (by decide) (by decide) (by decide))

/-- A minus is read as such unless a second one makes the two begin a comment. -/
theorem lexemes_minus {r : List Char} (h : r.head? ≠ some '-') :
    lexemes ('-' :: r) = .minus :: lexemes r :=
  lexemes_cons ⟨by decide, fun _ => h, fun h => absurd h (by decide)⟩

theorem lexemes_dot {r : List Char} (h : ∀ c ∈ r.head?, c.isDigit = false) :
    lexemes ('.' :: r) = .dot :: lexemes r := by
  have hl : lexeme '.' r = (.dot, r) := by
    cases r with
    | nil => rfl
    | cons c r =>
      have hc : c.isDigit = false := h c rfl
      simp [lexeme, hc]
  rw [lexemes_cons (solid_of_ne r (by decide) (by decide) (by decide)), hl]

theorem lexemes_binaryOp (op : BinaryOp) (r : List Char) :
    lexemes (op.text.toList ++ ' ' :: r) = op.lexeme :: lexemes r := by
  have hs : ∀ c, c = '+' ∨ c = '-' ∨ c = '*' ∨ c = '/' ∨ c = '%' →
      lexemes (c :: ' ' :: r) = (lexeme c (' ' :: r)).1 :: lexemes (lexeme c (' ' :: r)).2 := by
    intro c hc
    apply lexemes_cons
    rcases hc with rfl | rfl | rfl | rfl | rfl
    all_goals exact ⟨by decide, fun _ => by simp, fun _ => by simp⟩
  cases op with
  | concat =>
    have h := lexemes_cons (solid_of_ne ('|' :: ' ' :: r) (c := '|') (by decide) (by decide) (by decide))
    exact h.trans (congrArg _ (lexemes_blank r))
  | add => exact (hs '+' (by simp)).trans (congrArg _ (lexemes_blank r))
  | sub => exact (hs '-' (by simp)).trans (congrArg _ (lexemes_blank r))
  | mul => exact (hs '*' (by simp)).trans (congrArg _ (lexemes_blank r))
  | div => exact (hs '/' (by simp)).trans (congrArg _ (lexemes_blank r))
  | mod => exact (hs '%' (by simp)).trans (congrArg _ (lexemes_blank r))

/-! ### Words and names -/

/-- No character that continues a word begins the rest. -/
def WordEnds (rest : List Char) : Prop :=
  ∀ c ∈ rest.head?, isNameChar c = false

theorem inRanges_of_disjoint {as bs : List (Nat × Nat)}
    (h : ∀ a ∈ as, ∀ b ∈ bs, a.2 < b.1 ∨ b.2 < a.1) {n : Nat} (ha : Text.inRanges as n = true) :
    Text.inRanges bs n = false := by
  simp only [Text.inRanges, List.any_eq_true, Bool.and_eq_true, decide_eq_true_eq] at ha
  obtain ⟨a, ha, hl, hu⟩ := ha
  rw [Bool.eq_false_iff]
  intro hb
  simp only [Text.inRanges, List.any_eq_true, Bool.and_eq_true, decide_eq_true_eq] at hb
  obtain ⟨b, hb, hl', hu'⟩ := hb
  have := h a ha b hb
  omega

theorem blanks_not_alphabetic : ∀ a ∈ Text.alphabeticRanges, ∀ b ∈ Text.whiteSpaceRanges,
    a.2 < b.1 ∨ b.2 < a.1 := by
  decide +kernel

theorem isBlank_of_isAlphabetic {c : Char} (h : Text.isAlphabetic c = true) :
    Text.isBlank c = false := by
  unfold Text.isAlphabetic at h
  unfold Text.isBlank
  split at h
  · rename_i hc
    rw [if_pos hc]
    have : c ≠ ' ' := by
      rintro rfl
      exact absurd h (by decide)
    simp only [Char.isAlpha, Char.isUpper, Char.isLower, Bool.or_eq_true, Bool.and_eq_true,
      decide_eq_true_eq] at h
    have hn : 65 ≤ c.toNat := by
      rcases h with ⟨h, _⟩ | ⟨h, _⟩
      · exact UInt32.le_iff_toNat_le.1 h
      · exact Nat.le_trans (by decide) (UInt32.le_iff_toNat_le.1 h)
    simp only [Bool.or_eq_false_iff, decide_eq_false_iff_not, Bool.and_eq_false_iff]
    exact ⟨this, .inr (by omega)⟩
  · rename_i hc
    rw [if_neg hc]
    exact inRanges_of_disjoint blanks_not_alphabetic h

/-- A letter or an underscore. -/
def StartsWord (c : Char) : Prop :=
  Text.isAlphabetic c = true ∨ c = '_'

theorem StartsWord.isDigit {c : Char} (h : StartsWord c) : c.isDigit = false := by
  rcases h with h | rfl
  · rw [Bool.eq_false_iff]
    intro hd
    simp only [Char.isDigit, Bool.and_eq_true, decide_eq_true_eq] at hd
    have hu : c.toNat ≤ 57 := UInt32.le_iff_toNat_le.1 hd.2
    unfold Text.isAlphabetic at h
    rw [if_pos (by omega)] at h
    simp only [Char.isAlpha, Char.isUpper, Char.isLower, Bool.or_eq_true, Bool.and_eq_true,
      decide_eq_true_eq] at h
    rcases h with ⟨h, _⟩ | ⟨h, _⟩
    all_goals
      have := UInt32.le_iff_toNat_le.1 h
      have hc : c.val.toNat = c.toNat := rfl
      simp at this
      omega
  · decide

theorem StartsWord.solid {c : Char} (h : StartsWord c) (r : List Char) : Solid c r := by
  rcases h with h | rfl
  · refine solid_of_ne r (isBlank_of_isAlphabetic h) ?_ ?_
    · rintro rfl
      exact absurd h (by decide)
    · rintro rfl
      exact absurd h (by decide)
  · exact solid_of_ne r (by decide) (by decide) (by decide)

theorem lexeme_word {c : Char} (h : StartsWord c) (r : List Char) :
    lexeme c r = (wordLexeme (c :: r.takeWhile isNameChar), r.dropWhile isNameChar) := by
  have hd := h.isDigit
  have hn : ∀ d, Text.isAlphabetic d = false → d ≠ '_' → c ≠ d := by
    rintro d hd hu rfl
    rcases h with h | h
    · rw [hd] at h
      cases h
    · exact hu h
  unfold lexeme
  split
  all_goals first
    | exact absurd rfl (hn _ (by decide) (by decide))
    | skip
  rw [if_neg (by simp [hd]), if_pos (by simpa [StartsWord] using h)]

theorem takeWhile_append_ends {p : Char → Bool} {cs rest : List Char} (h : ∀ c ∈ cs, p c = true)
    (hrest : ∀ c ∈ rest.head?, p c = false) :
    (cs ++ rest).takeWhile p = cs ∧ (cs ++ rest).dropWhile p = rest := by
  rw [List.takeWhile_append_of_pos h, List.dropWhile_append_of_pos h]
  cases rest with
  | nil => simp
  | cons c rest =>
    have hc : p c = false := hrest c rfl
    simp [hc]

/-- A word is read whole. -/
theorem lexemes_word {c : Char} {cs rest : List Char} (hc : StartsWord c)
    (hcs : ∀ d ∈ cs, isNameChar d = true) (hrest : WordEnds rest) :
    lexemes (c :: cs ++ rest) = wordLexeme (c :: cs) :: lexemes rest := by
  obtain ⟨ht, hd⟩ := takeWhile_append_ends hcs hrest
  rw [List.cons_append, lexemes_cons (hc.solid _), lexeme_word hc, ht, hd]

/-- A plain name that begins as a word does is read as a word. -/
theorem plainName_opens {s : String} (hplain : isPlainName s = true) (hstart : startsWord s = true) :
    ∃ c cs, s.toList = c :: cs ∧ StartsWord c ∧ ∀ d ∈ cs, isNameChar d = true := by
  unfold isPlainName at hplain
  unfold startsWord at hstart
  split at hstart
  · cases hstart
  · rename_i c cs hcs
    rw [hcs] at hplain
    simp only [Bool.and_eq_true, List.all_cons] at hplain
    exact ⟨c, cs, hcs, by simpa [StartsWord] using hstart,
      fun d hd => List.all_eq_true.1 hplain.2.2 d hd⟩

theorem lexemes_plainName {s : String} (hplain : isPlainName s = true) (hstart : startsWord s = true)
    {rest : List Char} (hrest : WordEnds rest) :
    lexemes (s.toList ++ rest) = wordLexeme s.toList :: lexemes rest := by
  obtain ⟨c, cs, hcs, hc, hall⟩ := plainName_opens hplain hstart
  rw [hcs]
  exact lexemes_word hc hall hrest

theorem lexemes_keyword (k : Keyword) {rest : List Char} (hrest : WordEnds rest) :
    lexemes (k.text.toList ++ rest) = .keyword k :: lexemes rest := by
  have hk : wordLexeme k.text.toList = .keyword k := by
    cases k <;> decide +kernel
  have hplain : isPlainName k.text = true := by
    cases k <;> decide +kernel
  have hstart : startsWord k.text = true := by
    cases k <;> decide +kernel
  rw [lexemes_plainName hplain hstart hrest, hk]

theorem wordEnds_blank (r : List Char) : WordEnds (' ' :: r) := by
  intro c hc
  cases hc
  decide

/-- A reserved word with a blank behind it. -/
theorem lexemes_keyword_blank (k : Keyword) (r : List Char) :
    lexemes (k.text.toList ++ ' ' :: r) = .keyword k :: lexemes r := by
  rw [lexemes_keyword k (wordEnds_blank r), lexemes_blank]

/-! ### Quoted text -/

theorem quotedText?_cons_of_ne {quote c : Char} (h : c ≠ quote) (r : List Char) :
    quotedText? quote (c :: r) = (quotedText? quote r).map fun p => (c :: p.1, p.2) := by
  cases r <;> simp [quotedText?, h]

theorem quotedText?_doubled (quote : Char) {rest : List Char} (hrest : rest.head? ≠ some quote) :
    ∀ cs : List Char, quotedText? quote
      ((cs.flatMap fun c => if c = quote then [c, c] else [c]) ++ quote :: rest) = some (cs, rest)
  | [] => by
    cases rest with
    | nil => simp [quotedText?]
    | cons d r =>
      have hd : d ≠ quote := fun h => hrest (congrArg some h)
      simp [quotedText?, hd]
  | c :: cs => by
    have ih := quotedText?_doubled quote hrest cs
    by_cases hc : c = quote
    · subst hc
      simp [quotedText?, ih]
    · rw [List.flatMap_cons, if_neg hc, List.append_assoc, List.singleton_append,
        quotedText?_cons_of_ne hc, ih]
      rfl

theorem quotedLexeme_doubled (quote : Char) (l : String → Lexeme) {rest : List Char}
    (hrest : rest.head? ≠ some quote) (s : String) :
    quotedLexeme quote l ((doubled quote s).toList ++ quote :: rest) = (l s, rest) := by
  unfold quotedLexeme doubled
  rw [String.toList_ofList, quotedText?_doubled quote hrest]
  simp

theorem lexemes_string (s : String) {rest : List Char} (hrest : rest.head? ≠ some '\x27') :
    lexemes ('\x27' :: (doubled '\x27' s).toList ++ '\x27' :: rest) = .string s :: lexemes rest := by
  have h := lexemes_cons (solid_of_ne ((doubled '\x27' s).toList ++ '\x27' :: rest) (c := '\x27')
    (by decide) (by decide) (by decide))
  have hl : lexeme '\x27' ((doubled '\x27' s).toList ++ '\x27' :: rest) = (.string s, rest) :=
    quotedLexeme_doubled '\x27' .string hrest s
  rw [hl] at h
  exact h

theorem lexemes_quotedName (s : String) {rest : List Char} (hrest : rest.head? ≠ some '\x60') :
    lexemes ('\x60' :: (doubled '\x60' s).toList ++ '\x60' :: rest) = .identifier s :: lexemes rest := by
  have h := lexemes_cons (solid_of_ne ((doubled '\x60' s).toList ++ '\x60' :: rest) (c := '\x60')
    (by decide) (by decide) (by decide))
  have hl : lexeme '\x60' ((doubled '\x60' s).toList ++ '\x60' :: rest) = (.identifier s, rest) :=
    quotedLexeme_doubled '\x60' .identifier hrest s
  rw [hl] at h
  exact h

/-! ### What stands behind a piece -/

/-- The end, a blank, a comma or a closing bracket: no piece goes on behind these. -/
def AtBreak (rest : List Char) : Prop :=
  ∀ c ∈ rest.head?, c = ' ' ∨ c = ',' ∨ c = ')'

theorem atBreak_nil : AtBreak [] := fun _ h => nomatch h

theorem atBreak_cons {c : Char} (h : c = ' ' ∨ c = ',' ∨ c = ')') (r : List Char) : AtBreak (c :: r) := by
  rintro _ ⟨⟩
  exact h

theorem AtBreak.wordEnds {rest : List Char} (h : AtBreak rest) : WordEnds rest := by
  intro c hc
  rcases h c hc with rfl | rfl | rfl
  all_goals decide

theorem AtBreak.head_ne {rest : List Char} (h : AtBreak rest) {d : Char}
    (hd : d ≠ ' ' ∧ d ≠ ',' ∧ d ≠ ')') : rest.head? ≠ some d := by
  intro hrest
  rcases h d hrest with rfl | rfl | rfl
  · exact hd.1 rfl
  · exact hd.2.1 rfl
  · exact hd.2.2 rfl

theorem AtBreak.isDigit {rest : List Char} (h : AtBreak rest) : ∀ c ∈ rest.head?, c.isDigit = false := by
  intro c hc
  rcases h c hc with rfl | rfl | rfl
  all_goals decide

theorem lexemes_name {s : String} (h : legibleName s = true) {rest : List Char} (hw : WordEnds rest)
    (hq : rest.head? ≠ some '\x60') :
    lexemes ((nameText s).toList ++ rest) = .identifier s :: lexemes rest := by
  unfold nameText
  split
  · rename_i hplain
    simp only [legibleName, hplain, Bool.not_true, Bool.false_or, Bool.and_eq_true,
      Option.isNone_iff_eq_none] at h
    rw [lexemes_plainName hplain h.1 hw, wordLexeme, String.ofList_toList, h.2]
  · have hquoted := lexemes_quotedName s hq
    rw [String.toList_append, String.toList_append, List.append_assoc, List.append_assoc]
    exact hquoted

theorem lexemes_comparison (op : Comparison) (r : List Char) :
    lexemes (op.text.toList ++ ' ' :: r) = op.lexemes ++ lexemes r := by
  have hs : ∀ c l, c = '=' ∨ c = '<' ∨ c = '>' →
      lexemes (c :: l) = (lexeme c l).1 :: lexemes (lexeme c l).2 := by
    intro c l hc
    apply lexemes_cons
    rcases hc with rfl | rfl | rfl
    all_goals exact solid_of_ne l (by decide) (by decide) (by decide)
  cases op with
  | eq => exact (hs '=' _ (.inl rfl)).trans (congrArg _ (lexemes_blank r))
  | notEq => exact (hs '<' ('>' :: ' ' :: r) (.inr (.inl rfl))).trans (congrArg _ (lexemes_blank r))
  | lt => exact (hs '<' (' ' :: r) (.inr (.inl rfl))).trans (congrArg _ (lexemes_blank r))
  | ltEq => exact (hs '<' ('=' :: ' ' :: r) (.inr (.inl rfl))).trans (congrArg _ (lexemes_blank r))
  | gt => exact (hs '>' (' ' :: r) (.inr (.inr rfl))).trans (congrArg _ (lexemes_blank r))
  | gtEq => exact (hs '>' ('=' :: ' ' :: r) (.inr (.inr rfl))).trans (congrArg _ (lexemes_blank r))
  | like => exact lexemes_keyword_blank .like r
  | isIn => exact lexemes_keyword_blank .in_ r
  | is => exact lexemes_keyword_blank .is r
  | notLike =>
    exact (lexemes_keyword_blank .not_ _).trans (congrArg _ (lexemes_keyword_blank .like r))
  | notIn => exact (lexemes_keyword_blank .not_ _).trans (congrArg _ (lexemes_keyword_blank .in_ r))
  | isNot => exact (lexemes_keyword_blank .is _).trans (congrArg _ (lexemes_keyword_blank .not_ r))

/-! ### Numbers -/

theorem isDigit_digitChar (n : Nat) : (Number.digitChar n).isDigit = true := by
  have h : n % 10 < 10 := Nat.mod_lt n (by decide)
  have hall : ∀ k < 10, (Char.ofNat (48 + k)).isDigit = true := by decide
  exact hall _ h

theorem isDigit_digits (n : Nat) : ∀ c ∈ Number.digits n, c.isDigit = true := by
  induction n using Number.digits.induct with
  | case1 n hn =>
    rw [Number.digits, if_pos hn]
    simp [isDigit_digitChar]
  | case2 n hn ih =>
    rw [Number.digits, if_neg hn]
    intro c hc
    rcases List.mem_append.1 hc with hc | hc
    · exact ih c hc
    · rw [List.mem_singleton.1 hc]
      exact isDigit_digitChar n

theorem digits_ne_nil (n : Nat) : Number.digits n ≠ [] := by
  rw [Number.digits]
  split
  · simp
  · simp

theorem digitsValue_append (cs ds : List Char) : Text.digitsValue (cs ++ ds) =
    Text.digitsValue cs * Number.tenPow ds.length + Text.digitsValue ds := by
  have hten : ∀ n, Number.tenPow (n + 1) = Number.tenPow n * 10 :=
    fun n => Nat.pow_succ 10 n
  have hfold : ∀ (ds : List Char) (n : Nat), ds.foldl (fun n c => 10 * n + (c.toNat - 48)) n =
      n * Number.tenPow ds.length + Text.digitsValue ds := by
    intro ds
    induction ds with
    | nil =>
      intro n
      exact (Nat.mul_one n).symm
    | cons d ds ih =>
      intro n
      have hd : Text.digitsValue (d :: ds) =
          (10 * 0 + (d.toNat - 48)) * Number.tenPow ds.length + Text.digitsValue ds := ih _
      rw [List.foldl_cons, ih, hd, List.length_cons, hten]
      grind
  rw [Text.digitsValue, List.foldl_append, hfold]
  rfl

theorem digitsValue_digits (n : Nat) : Text.digitsValue (Number.digits n) = n := by
  have hall : ∀ k < 10, (Char.ofNat (48 + k)).toNat - 48 = k := by decide
  have hone : ∀ n, Text.digitsValue [Number.digitChar n] = n % 10 := by
    intro n
    have := hall (n % 10) (Nat.mod_lt n (by decide))
    simpa [Text.digitsValue, Number.digitChar] using this
  induction n using Number.digits.induct with
  | case1 n hn =>
    rw [Number.digits, if_pos hn, hone]
    omega
  | case2 n hn ih =>
    have hten : Number.tenPow [Number.digitChar n].length = 10 := rfl
    rw [Number.digits, if_neg hn, digitsValue_append, ih, hone, hten]
    omega

theorem lexemes_placeholder {n : Nat} (h0 : 0 < n) (hn : n < Number.twoPow 64) {rest : List Char}
    (hrest : AtBreak rest) :
    lexemes ('?' :: (Number.digits n ++ rest)) = .placeholder (some n) :: lexemes rest := by
  obtain ⟨ht, hd⟩ := takeWhile_append_ends (isDigit_digits n) hrest.isDigit
  have hl : lexeme '?' (Number.digits n ++ rest) =
      (placeholderLexeme ((Number.digits n ++ rest).takeWhile Char.isDigit),
        (Number.digits n ++ rest).dropWhile Char.isDigit) := rfl
  have hempty : (Number.digits n).isEmpty = false := by
    rw [List.isEmpty_eq_false_iff]
    exact digits_ne_nil n
  have hp : placeholderLexeme (Number.digits n) = .placeholder (some n) := by
    simp only [placeholderLexeme, hempty, digitsValue_digits, Bool.false_eq_true, if_false,
      if_neg (Nat.not_le_of_lt hn), if_neg (Nat.ne_of_gt h0)]
  rw [lexemes_cons (solid_of_ne _ (by decide) (by decide) (by decide)), hl, ht, hd, hp]

/-- Digits, alone or with a point and further digits behind them. -/
def IsNumeral (ds : List Char) : Prop :=
  ∃ whole fraction, whole ≠ [] ∧ (∀ c ∈ whole, c.isDigit = true) ∧ (∀ c ∈ fraction, c.isDigit = true) ∧
    ds = whole ++ if fraction = [] then [] else '.' :: fraction

theorem fractionLength_break {rest : List Char} (h : AtBreak rest) : fractionLength rest = 0 := by
  cases rest with
  | nil => rfl
  | cons c r =>
    rcases h c rfl with rfl | rfl | rfl
    all_goals rfl

theorem exponentLength_break {rest : List Char} (h : AtBreak rest) : exponentLength rest = 0 := by
  cases rest with
  | nil => rfl
  | cons c r =>
    cases r with
    | nil => rfl
    | cons d r =>
      rcases h c rfl with rfl | rfl | rfl
      all_goals rfl

/-- A numeral is read whole, and as one in itself. -/
theorem numberLexeme_numeral {c : Char} {whole fraction rest : List Char}
    (hw : ∀ d ∈ whole, d.isDigit = true) (hf : ∀ d ∈ fraction, d.isDigit = true) (hrest : AtBreak rest) :
    numberLexeme c (whole ++ ((if fraction = [] then [] else '.' :: fraction) ++ rest)) =
      (if fraction = [] then integerLexeme (c :: whole)
        else floatLexeme (c :: (whole ++ '.' :: fraction)), rest) := by
  by_cases hempty : fraction = []
  · obtain ⟨ht, -⟩ := takeWhile_append_ends hw hrest.isDigit
    simp only [if_pos hempty, List.nil_append]
    simp [numberLexeme, ht, fractionLength_break hrest, exponentLength_break hrest]
  · obtain ⟨ht, -⟩ := @takeWhile_append_ends _ whole ('.' :: (fraction ++ rest)) hw
      (by rintro _ ⟨⟩; decide)
    obtain ⟨htf, -⟩ := takeWhile_append_ends hf hrest.isDigit
    have hflen : fractionLength ('.' :: (fraction ++ rest)) = fraction.length + 1 := by
      have hlen : fraction.length ≠ 0 := by simpa using hempty
      rw [fractionLength, htf]
      exact if_neg hlen
    have hdrop : (whole ++ '.' :: (fraction ++ rest)).drop (whole.length + (fraction.length + 1)) =
        rest := by
      rw [List.drop_append, List.drop_eq_nil_of_le (by omega), List.nil_append,
        show whole.length + (fraction.length + 1) - whole.length = fraction.length + 1 by omega,
        List.drop_succ_cons, List.drop_left]
    have htake : (whole ++ '.' :: (fraction ++ rest)).take (whole.length + (fraction.length + 1)) =
        whole ++ '.' :: fraction := by
      rw [List.take_append, List.take_of_length_le (by omega),
        show whole.length + (fraction.length + 1) - whole.length = fraction.length + 1 by omega,
        List.take_succ_cons, List.take_left]
    simp only [if_neg hempty, List.cons_append]
    simp only [numberLexeme, ht, List.drop_left, hflen, hdrop, exponentLength_break hrest, Nat.add_zero,
      htake]
    rw [if_neg (by omega)]

theorem lexeme_digit {c : Char} (h : c.isDigit = true) (r : List Char) :
    lexeme c r = numberLexeme c r := by
  have hn : ∀ d : Char, d.isDigit = false → c ≠ d := by
    rintro d hd rfl
    rw [h] at hd
    cases hd
  unfold lexeme
  split
  all_goals first
    | exact absurd rfl (hn _ (by decide))
    | skip
  rw [if_pos h]

theorem lexemes_numeral {ds rest : List Char} (h : IsNumeral ds) (hrest : AtBreak rest) :
    lexemes (ds ++ rest) = numeralLexeme ds :: lexemes rest := by
  obtain ⟨whole, fraction, hne, hw, hf, rfl⟩ := h
  obtain ⟨c, whole, rfl⟩ := List.exists_cons_of_ne_nil hne
  obtain ⟨hc, hw⟩ := List.forall_mem_cons.1 hw
  have hsolid : ∀ r, Solid c r := by
    intro r
    apply solid_of_ne
    · rw [Bool.eq_false_iff]
      intro hb
      simp only [Char.isDigit, Bool.and_eq_true, decide_eq_true_eq] at hc
      have h1 : 48 ≤ c.toNat := UInt32.le_iff_toNat_le.1 hc.1
      have h2 : c.toNat ≤ 57 := UInt32.le_iff_toNat_le.1 hc.2
      unfold Text.isBlank at hb
      rw [if_pos (by omega)] at hb
      simp only [Bool.or_eq_true, Bool.and_eq_true, decide_eq_true_eq] at hb
      rcases hb with rfl | ⟨-, hb⟩
      · exact absurd h1 (by decide)
      · omega
    · rintro rfl
      exact absurd hc (by decide)
    · rintro rfl
      exact absurd hc (by decide)
  have hself := @numberLexeme_numeral c whole fraction [] hw hf atBreak_nil
  rw [List.append_nil] at hself
  rw [List.append_assoc, List.cons_append, lexemes_cons (hsolid _), lexeme_digit hc,
    numberLexeme_numeral hw hf hrest, List.cons_append, numeralLexeme, hself]

theorem IsNumeral.head {ds : List Char} (h : IsNumeral ds) :
    ∃ c cs, ds = c :: cs ∧ c.isDigit = true := by
  obtain ⟨whole, fraction, hne, hw, -, rfl⟩ := h
  obtain ⟨c, cs, rfl⟩ := List.exists_cons_of_ne_nil hne
  exact ⟨c, _, rfl, hw c (.head _)⟩

theorem isNumeral_whole {ds : List Char} (hne : ds ≠ []) (hds : ∀ c ∈ ds, c.isDigit = true) : IsNumeral ds :=
  ⟨ds, [], hne, hds, (fun _ h => nomatch h), by simp⟩

/-- Digits are read as an integer if that is in range. -/
theorem numeralLexeme_whole {ds : List Char} (hne : ds ≠ []) (hds : ∀ c ∈ ds, c.isDigit = true)
    (h : Text.digitsValue ds < Number.twoPow 63) :
    numeralLexeme ds = .integer (Text.digitsValue ds) := by
  obtain ⟨c, r, rfl⟩ := List.exists_cons_of_ne_nil hne
  have hread := @numberLexeme_numeral c r [] []
    (List.forall_mem_cons.1 hds).2 (fun _ h => nomatch h) atBreak_nil
  simp only [if_true, List.append_nil] at hread
  rw [numeralLexeme, hread, integerLexeme]
  exact if_pos h

theorem numeralLexeme_digits {n : Nat} (h : n < Number.twoPow 63) :
    numeralLexeme (Number.digits n) = .integer n := by
  have hvalue := digitsValue_digits n
  rw [numeralLexeme_whole (digits_ne_nil n) (isDigit_digits n) (hvalue.symm ▸ h), hvalue]

/-- Digits on both sides of a point are read as a decimal. -/
theorem numeralLexeme_point {whole fraction : List Char} (hne : whole ≠ []) (hf : fraction ≠ [])
    (hwhole : ∀ c ∈ whole, c.isDigit = true) (hfraction : ∀ c ∈ fraction, c.isDigit = true) :
    numeralLexeme (whole ++ '.' :: fraction) = floatLexeme (whole ++ '.' :: fraction) := by
  obtain ⟨c, r, rfl⟩ := List.exists_cons_of_ne_nil hne
  have hread := @numberLexeme_numeral c r fraction [] (List.forall_mem_cons.1 hwhole).2 hfraction atBreak_nil
  simp only [if_neg hf, List.append_nil] at hread
  rw [List.cons_append, numeralLexeme, hread]

end GridQuery.Lexer
