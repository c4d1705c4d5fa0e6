import GridQuery.Proofs.Relexing

/-!
Lexemes with blanks between. No lexeme but an error goes on behind a blank unless it is quoted, and a quoted
one is closed in front of it. So the characters of a lexeme give it wherever a blank stands behind them, and
lexemes that stand in texts can be written into one text in any order.
-/

namespace GridQuery.Lexer
set_option autoImplicit false

/-! ### A blank behind the characters of a lexeme -/

section

variable {p : Char → Bool}

theorem takeWhile_blank (hp : p ' ' = false) (cs r : List Char) :
    (cs ++ ' ' :: r).takeWhile p = cs.takeWhile p := by
  induction cs with
  | nil => simp [hp]
  | cons c cs ih => simp only [List.cons_append, List.takeWhile_cons, ih]

theorem dropWhile_blank (hp : p ' ' = false) (cs r : List Char) :
    (cs ++ ' ' :: r).dropWhile p = cs.dropWhile p ++ ' ' :: r := by
  induction cs with
  | nil => simp [hp]
  | cons c cs ih =>
    simp only [List.cons_append, List.dropWhile_cons, ih]
    split <;> rfl

end

theorem solid_blank {c : Char} {cs : List Char} (h : Solid c cs) (r : List Char) :
    Solid c (cs ++ ' ' :: r) := by
  cases cs with
  | nil => exact ⟨h.1, fun _ => nofun, fun _ => nofun⟩
  | cons d cs => exact h

theorem paired_blank {second : List (Char × Lexeme)} {alone l : Lexeme} {cs : List Char}
    (hs : ∀ p ∈ second, Text.isBlank p.1 = false) (h : paired second alone cs = (l, [])) (r : List Char) :
    paired second alone (cs ++ ' ' :: r) = (l, ' ' :: r) := by
  cases cs with
  | nil =>
    cases h
    have hnone : second.lookup ' ' = none := by
      refine List.lookup_eq_none_iff.2 fun p hp => ?_
      rw [bne_iff_ne]
      intro hblank
      have hp := hs p hp
      rw [← hblank] at hp
      cases hp
    rw [List.nil_append, paired, hnone]
  | cons d cs =>
    rw [paired] at h
    rw [List.cons_append, paired]
    cases hd : second.lookup d with
    | none =>
      rw [hd] at h
      cases h
    | some l' =>
      rw [hd] at h
      cases h
      rfl

theorem quotedLexeme_blank {quote : Char} {make : String → Lexeme} {l : Lexeme} {cs : List Char}
    (hq : Text.isBlank quote = false) (h : quotedLexeme quote make cs = (l, []))
    (hsound : ∀ m, l ≠ .error m) (r : List Char) :
    quotedLexeme quote make (cs ++ ' ' :: r) = (l, ' ' :: r) := by
  unfold quotedLexeme at h
  split at h
  · rename_i value rest hvalue
    cases h
    have hblank : (' ' :: r).head? ≠ some quote := by
      rintro ⟨⟩
      cases hq
    obtain ⟨-, rfl⟩ := quotedText?_body hvalue
    rw [quotedLexeme, List.append_assoc, List.singleton_append, quotedText?_doubled quote hblank]
  · cases h
    exact absurd rfl (hsound _)

theorem fractionLength_le (cs : List Char) : fractionLength cs ≤ cs.length := by
  unfold fractionLength
  split
  · rename_i r
    have := (List.takeWhile_prefix Char.isDigit (l := r)).length_le
    dsimp only
    split
    · exact Nat.zero_le _
    · rw [List.length_cons]
      omega
  · exact Nat.zero_le _

theorem fractionLength_blank (cs r : List Char) : fractionLength (cs ++ ' ' :: r) = fractionLength cs := by
  cases cs with
  | nil => rfl
  | cons c cs =>
    by_cases hc : c = '.'
    · subst hc
      rw [List.cons_append, fractionLength, fractionLength, takeWhile_blank rfl]
    · have hother : ∀ ds, fractionLength (c :: ds) = 0 := by
        intro ds
        unfold fractionLength
        split
        · rename_i heq
          exact absurd (List.cons.inj heq).1 hc
        · rfl
      rw [List.cons_append, hother, hother]

theorem exponentLength_le (cs : List Char) : exponentLength cs ≤ cs.length := by
  match cs with
  | [] | [_] => exact Nat.zero_le _
  | c :: d :: r =>
    have hr := (List.takeWhile_prefix Char.isDigit (l := r)).length_le
    have hdr := (List.takeWhile_prefix Char.isDigit (l := d :: r)).length_le
    rw [List.length_cons] at hdr
    rw [exponentLength_cons, List.length_cons, List.length_cons]
    split
    · split
      · omega
      · split
        · exact Nat.zero_le _
        · omega
    · exact Nat.zero_le _

theorem exponentLength_blank (cs r : List Char) : exponentLength (cs ++ ' ' :: r) = exponentLength cs := by
  match cs with
  | [] => exact exponentLength_break (atBreak_cons (.inl rfl) r)
  | [c] =>
    rw [List.singleton_append, exponentLength_cons, List.takeWhile_cons]
    simp [exponentLength]
  | c :: d :: cs =>
    have hdigits := takeWhile_blank (p := Char.isDigit) rfl
    rw [List.cons_append, List.cons_append, exponentLength_cons, exponentLength_cons, hdigits,
      ← List.cons_append, hdigits]

theorem numberLexeme_blank {c : Char} {l : Lexeme} {cs : List Char} (h : numberLexeme c cs = (l, []))
    (r : List Char) : numberLexeme c (cs ++ ' ' :: r) = (l, ' ' :: r) := by
  have hwhole : (cs.takeWhile Char.isDigit).length ≤ cs.length :=
    (List.takeWhile_prefix Char.isDigit).length_le
  have hfraction := fractionLength_le (cs.drop (cs.takeWhile Char.isDigit).length)
  have hexponent := exponentLength_le (cs.drop ((cs.takeWhile Char.isDigit).length +
    fractionLength (cs.drop (cs.takeWhile Char.isDigit).length)))
  rw [List.length_drop] at hfraction hexponent
  unfold numberLexeme at h ⊢
  dsimp only at h ⊢
  rw [takeWhile_blank rfl, List.drop_append_of_le_length hwhole, fractionLength_blank,
    List.drop_append_of_le_length (by omega), exponentLength_blank,
    List.take_append_of_le_length (by omega), List.drop_append_of_le_length (by omega)]
  obtain ⟨hl, hnone⟩ := Prod.mk.inj h
  rw [hl, hnone, List.nil_append]

/-- A lexeme that takes all characters is no other with a blank behind them. -/
theorem Shape.blank {f : List Char → Lexeme × List Char} (hf : Shape f) {l : Lexeme} {cs : List Char}
    (h : f cs = (l, [])) (hsound : ∀ m, l ≠ .error m) (r : List Char) :
    f (cs ++ ' ' :: r) = (l, ' ' :: r) := by
  cases hf with
  | single l' hl =>
    rw [hl] at h
    cases h
    exact hl _
  | span p make hp hmake =>
    have hblank : p ' ' = false := by
      rw [Bool.eq_false_iff]
      intro hyes
      cases hp ' ' hyes
    rw [hmake] at h
    obtain ⟨hl, hnone⟩ := Prod.mk.inj h
    rw [hmake, takeWhile_blank hblank, dropWhile_blank hblank, hl, hnone, List.nil_append]
  | paired second alone hs hpaired =>
    rw [hpaired] at h
    rw [hpaired, paired_blank hs h]
  | quoted quote make hq hquoted =>
    rw [hquoted] at h
    rw [hquoted, quotedLexeme_blank hq h hsound]
  | number c hnumber =>
    rw [hnumber] at h
    rw [hnumber, numberLexeme_blank h]

/-! ### Pieces of text -/

/-- The characters give the lexeme wherever a blank stands behind them. -/
def Writes (piece : List Char) (l : Lexeme) : Prop :=
  ∀ r, lexemes (piece ++ ' ' :: r) = l :: lexemes r

theorem writes_numbered {n : Nat} (h0 : 0 < n) (hn : n < Number.twoPow 64) :
    Writes ('?' :: Number.digits n) (.placeholder (some n)) := by
  intro r
  rw [List.cons_append, lexemes_placeholder h0 hn (atBreak_cons (.inl rfl) r), lexemes_blank]

/-- A lexeme that is no error is given by the characters it takes. -/
theorem exists_writes {c : Char} {r : List Char} (h : Solid c r) (hsound : ∀ m, (lexeme c r).1 ≠ .error m) :
    ∃ piece, Writes piece (lexeme c r).1 := by
  have hcut := (lexeme_shape c).rdrop (Nat.le_refl (lexeme c r).2.length)
  rw [rdrop_length] at hcut
  refine ⟨c :: r.rdrop (lexeme c r).2.length, fun rest => ?_⟩
  rw [List.cons_append, lexemes_cons (solid_blank (solid_rdrop h) rest),
    (lexeme_shape c).blank hcut hsound rest, lexemes_blank]

/-- The lexemes of a text without errors, the end left out, can be written. -/
theorem exists_writable (cs : List Char) : ∃ ls, lexemes cs = ls ++ [.eof] ∧
    ∀ l ∈ ls, (∀ m, l ≠ .error m) → ∃ piece, Writes piece l := by
  obtain ⟨body, hall⟩ := exists_tokens_concat 0 cs
  obtain ⟨es, hbody, -⟩ := exists_lexes (List.cons_ne_nil _ _) hall
  refine ⟨body.map Token.lexeme, ?_, List.forall_mem_map.2 fun t ht hsound => ?_⟩
  · rw [lexemes, hall, List.map_append]
    rfl
  · obtain ⟨c, r, hsolid, hl⟩ := hbody.solid t ht
    rw [hl] at hsound ⊢
    exact exists_writes hsolid hsound

/-- Lexemes that can be written are those of a text. -/
theorem exists_text {ls : List Lexeme} (h : ∀ l ∈ ls, ∃ piece, Writes piece l) :
    ∃ cs, lexemes cs = ls ++ [.eof] := by
  induction ls with
  | nil => exact ⟨[], lexemes_nil⟩
  | cons l ls ih =>
    obtain ⟨⟨piece, hpiece⟩, hrest⟩ := List.forall_mem_cons.1 h
    obtain ⟨cs, hcs⟩ := ih hrest
    exact ⟨piece ++ ' ' :: cs, by rw [hpiece cs, hcs, List.cons_append]⟩

end GridQuery.Lexer
