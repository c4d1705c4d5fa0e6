import GridQuery.Proofs.ReadPlaceholders
import GridQuery.Proofs.Respacing

/-!
The placeholders of a text and those of the statement that is read from it. Placeholders without a number
get the numbers from one on, in the order they are written, and placeholders with a number keep it, so
the numbers of the statement are those of the text. A text with both kinds is not read.
-/

namespace GridQuery
set_option autoImplicit false

open GridQuery.Parser

namespace Parser

/-! ### Numbers for placeholders -/

/-- A number for each placeholder that has none, from `count + 1` on, in the order they stand. -/
def numberLexemes (count : Nat) : List Lexeme → List Lexeme
  | [] => []
  | l :: r =>
    if l = .placeholder none then .placeholder (some (count + 1)) :: numberLexemes (count + 1) r
    else l :: numberLexemes count r

theorem map_lexeme_numberPlaceholders (count : Nat) (ts : List Token) :
    (numberPlaceholders count ts).map Token.lexeme = numberLexemes count (ts.map Token.lexeme) := by
  induction ts generalizing count with
  | nil => rfl
  | cons t r ih =>
    rw [List.map_cons, numberPlaceholders, numberLexemes]
    split
    · rw [List.map_cons, ih]
    · rw [List.map_cons, ih]

variable {k : Nat} {ls : List Lexeme}

theorem mem_numberLexemes (count : Nat) : .placeholder (some k) ∈ numberLexemes count ls ↔
    .placeholder (some k) ∈ ls ∨ count < k ∧ k ≤ count + ls.count (.placeholder none) := by
  induction ls generalizing count with
  | nil =>
    simp only [numberLexemes, List.not_mem_nil, List.count_nil, false_or, false_iff]
    omega
  | cons l r ih =>
    rw [numberLexemes]
    split
    · rename_i hl
      subst hl
      simp only [List.mem_cons, ih, List.count_cons_self, Lexeme.placeholder.injEq, Option.some.injEq,
        reduceCtorEq, false_or]
      by_cases hr : .placeholder (some k) ∈ r
      · simp only [hr, true_or, or_true]
      · simp only [hr, false_or]
        omega
    · rename_i hl
      rw [List.mem_cons, ih, List.count_cons_of_ne hl, List.mem_cons, or_assoc]

theorem not_mem_numberLexemes (count : Nat) : .placeholder none ∉ numberLexemes count ls := by
  induction ls generalizing count with
  | nil => exact List.not_mem_nil
  | cons l r ih =>
    rw [numberLexemes]
    split
    · simp only [List.mem_cons, Lexeme.placeholder.injEq, reduceCtorEq, false_or]
      exact ih _
    · rename_i hl
      rw [List.mem_cons, not_or]
      exact ⟨Ne.symm hl, ih _⟩

theorem numberLexemes_of_numbered (h : .placeholder none ∉ ls) (count : Nat) :
    numberLexemes count ls = ls := by
  induction ls with
  | nil => rfl
  | cons l r ih =>
    rw [List.mem_cons, not_or] at h
    rw [numberLexemes, if_neg (Ne.symm h.1), ih h.2]

theorem numberLexemes_append (count : Nat) (ms : List Lexeme) : numberLexemes count (ls ++ ms) =
    numberLexemes count ls ++ numberLexemes (count + ls.count (.placeholder none)) ms := by
  induction ls generalizing count with
  | nil => rfl
  | cons l r ih =>
    rw [List.cons_append, numberLexemes, numberLexemes]
    split
    · rename_i hl
      subst hl
      rw [ih, List.count_cons_self, List.cons_append, Nat.add_right_comm, Nat.add_assoc]
    · rename_i hl
      rw [ih, List.count_cons_of_ne hl, List.cons_append]

/-! ### The lexemes that are read -/

def isErrorLexeme : Lexeme → Bool
  | .error _ => true
  | _ => false

/-- The lexemes that are dropped off the end of a text. -/
def isTrailingLexeme (l : Lexeme) : Bool :=
  l == .eof || l == .semicolon

def isNumberedLexeme : Lexeme → Bool
  | .placeholder (some _) => true
  | _ => false

/-- Placeholders with a number and placeholders without one. -/
def Mixed (ls : List Lexeme) : Prop :=
  .placeholder none ∈ ls ∧ ∃ k, .placeholder (some k) ∈ ls

/-- A text with lexemes `ls` is read as `ms`. -/
structure ReadAs (ls ms : List Lexeme) : Prop where
  sound : ∀ l ∈ ls, isErrorLexeme l = false
  unmixed : ¬ Mixed ls
  numbered : ms = numberLexemes 0 (ls.rdropWhile isTrailingLexeme)

theorem exists_append_trailing (ls : List Lexeme) : ∃ dropped,
    ls = ls.rdropWhile isTrailingLexeme ++ dropped ∧ ∀ l ∈ dropped, isTrailingLexeme l = true := by
  refine ⟨(ls.reverse.takeWhile isTrailingLexeme).reverse, ?_, fun l hl => ?_⟩
  · rw [List.rdropWhile, ← List.reverse_append, List.takeWhile_append_dropWhile, List.reverse_reverse]
  · exact List.mem_takeWhile_imp (List.mem_reverse.1 hl)

theorem mem_rdropWhile_trailing {l : Lexeme} (hl : isTrailingLexeme l = false) :
    l ∈ ls.rdropWhile isTrailingLexeme ↔ l ∈ ls := by
  obtain ⟨dropped, hls, hdropped⟩ := exists_append_trailing ls
  conv_rhs => rw [hls, List.mem_append]
  refine (or_iff_left fun h => ?_).symm
  rw [hdropped l h] at hl
  cases hl

theorem count_rdropWhile_trailing {l : Lexeme} (hl : isTrailingLexeme l = false) :
    (ls.rdropWhile isTrailingLexeme).count l = ls.count l := by
  obtain ⟨dropped, hls, hdropped⟩ := exists_append_trailing ls
  have hnone : dropped.count l = 0 := by
    refine List.count_eq_zero.2 fun h => ?_
    rw [hdropped l h] at hl
    cases hl
  conv_rhs => rw [hls, List.count_append, hnone, Nat.add_zero]

theorem mixed_rdropWhile_trailing : Mixed (ls.rdropWhile isTrailingLexeme) ↔ Mixed ls := by
  simp only [Mixed, mem_rdropWhile_trailing (show isTrailingLexeme (.placeholder _) = false from rfl)]

/-- What is read of a text goes by its lexemes. -/
theorem tokensOf_readAs (text : String) (ms : List Lexeme) :
    (∃ ts, tokensOf text = .ok ts ∧ ts.map Token.lexeme = ms) ↔
      ReadAs (Lexer.lexemes text.toList) ms := by
  rw [← Lexer.map_lexeme_tokens text.utf8ByteSize]
  unfold tokensOf
  generalize Lexer.tokens text.utf8ByteSize text.toList = all
  have hkept : (all.reverse.dropWhile fun t => t.lexeme == .eof || t.lexeme == .semicolon).reverse.map
      Token.lexeme = (all.map Token.lexeme).rdropWhile isTrailingLexeme := by
    rw [List.map_reverse, List.rdropWhile, ← List.map_reverse (l := all), List.dropWhile_map]
    rfl
  have hsound : all.find? isError = none ↔ ∀ l ∈ all.map Token.lexeme, isErrorLexeme l = false := by
    rw [List.find?_eq_none, List.forall_mem_map]
    exact forall₂_congr fun t _ => Bool.not_eq_true _ ▸ Iff.rfl
  dsimp only
  generalize (all.reverse.dropWhile fun t => t.lexeme == .eof || t.lexeme == .semicolon).reverse =
    body at hkept ⊢
  have hmixed : (body.any (fun t => t.lexeme == .placeholder none) && body.any isNumbered) = true ↔
      Mixed (all.map Token.lexeme) := by
    rw [← mixed_rdropWhile_trailing, ← hkept, Bool.and_eq_true, List.any_eq_true, List.any_eq_true]
    have hnumbered : ∀ t : Token, isNumbered t = true ↔ ∃ k, .placeholder (some k) = t.lexeme := by
      intro t
      unfold isNumbered
      split
      · rename_i k hk
        exact ⟨fun _ => ⟨k, hk.symm⟩, fun _ => rfl⟩
      · rename_i hno
        exact ⟨nofun, fun ⟨k, hk⟩ => absurd hk.symm (hno k)⟩
    simp only [Mixed, List.mem_map, beq_iff_eq, hnumbered]
    exact and_congr_right fun _ =>
      ⟨fun ⟨t, ht, k, hk⟩ => ⟨k, t, ht, hk.symm⟩, fun ⟨k, t, ht, hk⟩ => ⟨t, ht, k, hk.symm⟩⟩
  constructor
  · rintro ⟨ts, hts, rfl⟩
    split at hts
    · cases hts
    · rename_i hfind
      split at hts
      · cases hts
      · rename_i hno
        cases hts
        refine ⟨hsound.1 hfind, fun h => hno (hmixed.2 h), ?_⟩
        rw [map_lexeme_numberPlaceholders, hkept]
  · rintro ⟨hall, hno, rfl⟩
    refine ⟨numberPlaceholders 0 body, ?_, by rw [map_lexeme_numberPlaceholders, hkept]⟩
    rw [hsound.2 hall]
    exact if_neg fun h => hno (hmixed.1 h)

/-- The numbers that are read are those written, and those from one up to the number of placeholders
without a number. -/
theorem ReadAs.mem_iff {ms : List Lexeme} (h : ReadAs ls ms) : .placeholder (some k) ∈ ms ↔
    .placeholder (some k) ∈ ls ∨ 1 ≤ k ∧ k ≤ ls.count (.placeholder none) := by
  rw [h.numbered, mem_numberLexemes, mem_rdropWhile_trailing rfl, count_rdropWhile_trailing rfl, Nat.zero_add]
  exact Iff.rfl

theorem rdropWhile_numberLexemes (count : Nat) : (numberLexemes count ls).rdropWhile isTrailingLexeme =
    numberLexemes count (ls.rdropWhile isTrailingLexeme) := by
  induction ls using List.reverseRecOn with
  | nil => rfl
  | append_singleton ls l ih =>
    rw [numberLexemes_append, List.rdropWhile_concat]
    cases hl : isTrailingLexeme l with
    | true =>
      have hother : .placeholder none ∉ [l] := by
        rw [List.mem_singleton]
        rintro rfl
        cases hl
      rw [if_pos rfl, numberLexemes_of_numbered hother, List.rdropWhile_concat_pos _ _ _ hl, ih]
    | false =>
      rw [if_neg Bool.false_ne_true, numberLexemes_append]
      simp only [numberLexemes]
      split
      · exact List.rdropWhile_concat_neg _ _ _ Bool.false_ne_true
      · exact List.rdropWhile_concat_neg _ _ _ (by rw [hl]; exact Bool.false_ne_true)

/-- With the numbers there are the lexemes that were there, and the placeholders with the numbers. -/
theorem of_mem_numberLexemes {l : Lexeme} {count : Nat} (h : l ∈ numberLexemes count ls) :
    l ∈ ls ∨ ∃ k, l = .placeholder (some k) ∧ count < k ∧ k ≤ count + ls.count (.placeholder none) := by
  by_cases hl : ∃ k, l = .placeholder (some k)
  · obtain ⟨k, rfl⟩ := hl
    rcases (mem_numberLexemes count).1 h with hmem | hmem
    · exact .inl hmem
    · exact .inr ⟨k, rfl, hmem⟩
  · refine .inl ?_
    induction ls generalizing count with
    | nil => exact h
    | cons l' r ih =>
      rw [numberLexemes] at h
      split at h
      · rcases List.mem_cons.1 h with hfirst | h
        · exact absurd ⟨_, hfirst⟩ hl
        · exact .tail _ (ih h)
      · rcases List.mem_cons.1 h with rfl | h
        · exact .head _
        · exact .tail _ (ih h)

/-- What is read of a text is read of one with the numbers written behind the placeholders. -/
theorem ReadAs.written {ms : List Lexeme} (h : ReadAs ls ms) : ReadAs (numberLexemes 0 ls) ms where
  sound l hl := by
    rcases of_mem_numberLexemes hl with hl | ⟨k, rfl, -⟩
    · exact h.sound l hl
    · rfl
  unmixed hmixed := not_mem_numberLexemes 0 hmixed.1
  numbered := by
    rw [rdropWhile_numberLexemes, numberLexemes_of_numbered (not_mem_numberLexemes 0), h.numbered]

/-- There is a text with the numbers written behind the placeholders, as long as they can be written. -/
theorem exists_numbered {cs : List Char} (hsound : ∀ l ∈ Lexer.lexemes cs, isErrorLexeme l = false)
    (hcount : (Lexer.lexemes cs).count (.placeholder none) < Number.twoPow 64) :
    ∃ text : String, Lexer.lexemes text.toList = numberLexemes 0 (Lexer.lexemes cs) := by
  obtain ⟨body, hbody, hwrites⟩ := Lexer.exists_writable cs
  rw [hbody] at hsound hcount ⊢
  rw [List.count_append] at hcount
  have hall : ∀ l ∈ numberLexemes 0 body, ∃ piece, Lexer.Writes piece l := by
    intro l hl
    rcases of_mem_numberLexemes hl with hl | ⟨k, rfl, hpos, hk⟩
    · refine hwrites l hl ?_
      rintro m rfl
      cases hsound _ (List.mem_append_left _ hl)
    · exact ⟨_, Lexer.writes_numbered hpos (by omega)⟩
  obtain ⟨ds, hds⟩ := Lexer.exists_text hall
  refine ⟨String.ofList ds, ?_⟩
  rw [String.toList_ofList, hds, numberLexemes_append]
  rfl

/-! ### Statements -/

/-- Tokens with the same lexemes are read as the same statement, up to the texts of its items. -/
theorem statement_of_lexemes {p q : Place} {n : Nat} {ts us : List Token} {s : Statement}
    (h : statement p n ts = .ok s) (hus : us.map Token.lexeme = ts.map Token.lexeme) :
    ∃ s', statement q n us = .ok s' ∧ s'.untitled = s.untitled := by
  have hbare := (readersIgnorePlaces n).statement p p ts
  rw [h] at hbare
  have hsame : ts.map Token.bare = us.map Token.bare := by rw [map_bare, map_bare, hus]
  exact statement_of_bare (hsame ▸ hbare.to_ok)

/-- The placeholders of a statement are those of the text it is read from. -/
structure HasPlaceholdersOf (ls : List Lexeme) (s : Statement) : Prop where
  /-- Without numbers they have the numbers from one on, each the number that it can be written with. -/
  counted : (∀ k, .placeholder (some k) ∉ ls) →
    (∀ k, s.HasBind k ↔ 1 ≤ k ∧ k ≤ ls.count (.placeholder none)) ∧
    s.maxBind = ls.count (.placeholder none) ∧
    (ls.count (.placeholder none) < Number.twoPow 64 →
      ∃ text' : String, Lexer.lexemes text'.toList = numberLexemes 0 ls) ∧
    ∀ text' : String, Lexer.lexemes text'.toList = numberLexemes 0 ls →
      ∃ s', parseStatement text' = .ok s' ∧ s'.untitled = s.untitled
  /-- With numbers they have those numbers. -/
  written : .placeholder none ∉ ls → ∀ k, s.HasBind k ↔ .placeholder (some k) ∈ ls

theorem parseStatement_hasPlaceholders {text : String} {s : Statement} (h : parseStatement text = .ok s) :
    HasPlaceholdersOf (Lexer.lexemes text.toList) s := by
  obtain ⟨ts, hts, hread⟩ := bind_eq_ok.mp h
  have hlexemes := (tokensOf_readAs text _).1 ⟨ts, hts, rfl⟩
  have hbind : ∀ k, s.HasBind k ↔ .placeholder (some k) ∈ Lexer.lexemes text.toList ∨
      1 ≤ k ∧ k ≤ (Lexer.lexemes text.toList).count (.placeholder none) := by
    intro k
    have hkept : Numbered k ts ↔ s.HasBind k := (readersKeep k _).statement _ ts s hread
    rw [← hkept, ← hlexemes.mem_iff, List.mem_map]
    exact Iff.rfl
  refine ⟨fun hnone => ?_, fun hnumbered k => ?_⟩
  · have hcounted : ∀ k, s.HasBind k ↔
        1 ≤ k ∧ k ≤ (Lexer.lexemes text.toList).count (.placeholder none) :=
      fun k => (hbind k).trans (or_iff_right (hnone k))
    refine ⟨hcounted, Statement.maxBind_eq hcounted, exists_numbered hlexemes.sound, fun text' htext' => ?_⟩
    obtain ⟨us, hus, hsame⟩ := (tokensOf_readAs text' _).2 (htext' ▸ hlexemes.written)
    have hbudget : budget us = budget ts := by
      have hlength := congrArg List.length hsame
      rw [List.length_map, List.length_map] at hlength
      rw [budget, budget, hlength]
    obtain ⟨s', hs', huntitled⟩ := statement_of_lexemes (q := placeOf text' us) hread hsame
    refine ⟨s', ?_, huntitled⟩
    rw [parseStatement, hus, ok_bind, hbudget]
    exact hs'
  · rw [hbind k, List.count_eq_zero.2 hnumbered]
    exact or_iff_left fun h => Nat.not_succ_le_zero 0 (h.1.trans h.2)

/-- A text with both kinds of placeholders is not read. -/
theorem parseStatement_mixed {text : String} (h : Mixed (Lexer.lexemes text.toList)) :
    ∃ e, parseStatement text = .error e := by
  cases hparse : parseStatement text with
  | error e => exact ⟨e, rfl⟩
  | ok s =>
    obtain ⟨ts, hts, -⟩ := bind_eq_ok.mp hparse
    exact absurd h ((tokensOf_readAs text _).1 ⟨ts, hts, rfl⟩).unmixed

/-- No placeholder is lost, made up or renumbered on the way from a text to its statement. -/
theorem parseStatement_keeps_placeholders (text : String) :
    (∀ s, parseStatement text = .ok s → HasPlaceholdersOf (Lexer.lexemes text.toList) s) ∧
    (Mixed (Lexer.lexemes text.toList) → ∃ e, parseStatement text = .error e) :=
  ⟨fun _ => parseStatement_hasPlaceholders, parseStatement_mixed⟩

def counting : String :=
  "SELECT ? FROM t WHERE ? BETWEEN 1 AND (SELECT max(?) FROM u)"

def counted : String :=
  "SELECT ?1 FROM t WHERE ?2 BETWEEN 1 AND (SELECT max(?3) FROM u)"

/-- A placeholder that is read once and used twice, and one in a statement within: without numbers, with
numbers, and both kinds in one text. -/
theorem parseStatement_keeps_placeholders_counting :
    (∃ s s', parseStatement counting = .ok s ∧ parseStatement counted = .ok s' ∧
      (∀ k, s.HasBind k ↔ 1 ≤ k ∧ k ≤ 3) ∧ s.maxBind = 3 ∧ s'.untitled = s.untitled ∧
      ∀ k, s'.HasBind k ↔ .placeholder (some k) ∈ Lexer.lexemes counted.toList) ∧
    ∃ e, parseStatement "SELECT ? FROM t WHERE a = ?1" = .error e := by
  refine ⟨?_, (parseStatement_keeps_placeholders _).2 ⟨by decide +kernel, 1, by decide +kernel⟩⟩
  have hok : (parseStatement counting).toOption.isSome = true := by decide +kernel
  have hcount : (Lexer.lexemes counting.toList).count (.placeholder none) = 3 := by decide +kernel
  have hnone : ∀ k, .placeholder (some k) ∉ Lexer.lexemes counting.toList := by
    have hall : (Lexer.lexemes counting.toList).all (!isNumberedLexeme ·) = true := by decide +kernel
    intro k hk
    cases List.all_eq_true.1 hall _ hk
  have hsame : Lexer.lexemes counted.toList = numberLexemes 0 (Lexer.lexemes counting.toList) := by
    decide +kernel
  cases hs : parseStatement counting with
  | error e =>
    rw [hs] at hok
    cases hok
  | ok s =>
    obtain ⟨hbinds, hmax, -, hwritten⟩ := ((parseStatement_keeps_placeholders counting).1 s hs).counted hnone
    obtain ⟨s', hs', huntitled⟩ := hwritten counted hsame
    rw [hcount] at hbinds hmax
    have hnumbers := ((parseStatement_keeps_placeholders counted).1 s' hs').written (by decide +kernel)
    exact ⟨s, s', rfl, hs', hbinds, hmax, huntitled, hnumbers⟩

end Parser

end GridQuery
