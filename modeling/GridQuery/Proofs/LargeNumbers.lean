import GridQuery.Proofs.Reparsed

/-!
Which numbers are read back from their text. A number from `2 ^ 63` on is written by all its digits and
without a point, so that its text is cut as an integer that is out of range. What is not a finite number
is written as a word, and the sign of the negative zero is not written.
-/

namespace GridQuery
set_option autoImplicit false

open GridQuery.Parser

namespace Number

/-! ### Large doubles -/

/-- A double from `2 ^ 63` on has its last place at `2 ^ 11` or above. -/
theorem le_exponent {m : ℕ} {e : ℤ} (hc : Canonical m e) (h : twoPow 63 ≤ wholePart m e) : 11 ≤ e := by
  by_contra hsmall
  have hlt : wholePart m e < 2 ^ 53 * 2 ^ 10 := by
    unfold wholePart
    split
    · have hpow : 2 ^ e.toNat ≤ 2 ^ 10 := Nat.pow_le_pow_right (by norm_num) (by omega)
      calc m * 2 ^ e.toNat ≤ m * 2 ^ 10 := Nat.mul_le_mul_left m hpow
        _ < 2 ^ 53 * 2 ^ 10 := Nat.mul_lt_mul_of_pos_right hc.lt (by norm_num)
    · calc m / twoPow (-e).toNat ≤ m := Nat.div_le_self _ _
        _ < 2 ^ 53 := hc.lt
        _ ≤ 2 ^ 53 * 2 ^ 10 := by norm_num
  have h63 : twoPow 63 = 2 ^ 53 * 2 ^ 10 := rfl
  omega

/-- What rounds to a double above `2 ^ 63` is not below. -/
theorem Near.twoPow_le {x : ℚ} {m : ℕ} {e : ℤ} (hx : Near x m e) (hc : Canonical m e) (he : 11 ≤ e)
    (habove : 2 ^ 52 < m ∨ 12 ≤ e) : (2 : ℚ) ^ 63 ≤ x := by
  have hm : 2 ^ 52 ≤ m := hc.normal.resolve_right (by omega)
  refine le_trans ?_ hx.1
  have hgap := lowGap_le m e
  rcases habove with hm' | he'
  · have hpow : (2 : ℚ) ^ (11 : ℤ) ≤ 2 ^ e := zpow_le_zpow_right₀ (by norm_num) he
    have hmq : (2 : ℚ) ^ 52 + 1 ≤ m := by exact_mod_cast hm'
    calc (2 : ℚ) ^ 63 = 2 ^ 52 * 2 ^ (11 : ℤ) := by norm_num
      _ ≤ (m - lowGap m e) * 2 ^ e :=
        mul_le_mul (by linarith) hpow (by positivity) (by linarith [show (0 : ℚ) < 2 ^ 52 by positivity])
  · have hpow : (2 : ℚ) ^ (12 : ℤ) ≤ 2 ^ e := zpow_le_zpow_right₀ (by norm_num) he'
    have hmq : (2 : ℚ) ^ 52 ≤ m := by exact_mod_cast hm
    calc (2 : ℚ) ^ 63 ≤ (2 ^ 52 - 1 / 2) * 2 ^ (12 : ℤ) := by norm_num
      _ ≤ (m - lowGap m e) * 2 ^ e := mul_le_mul (by linarith) hpow (by positivity) (by linarith [show (1 : ℚ) ≤ 2 ^ 52 by norm_num])

namespace Decimal

theorem exponent_le_strip (fuel : ℕ) (d : Decimal) : d.exponent ≤ (strip fuel d).exponent := by
  induction fuel generalizing d with
  | zero => exact le_refl _
  | succ fuel ih =>
    rw [strip]
    split
    · exact le_trans (by simp) (ih _)
    · exact le_refl _

/-- Grids of no more digits than stand before the point have no places behind it. -/
theorem exponent_firstGrid {tie : Tie} {i : Interval} {top : ℤ} (left count : ℕ)
    (h : (count + left : ℕ) ≤ top + 1) : 0 ≤ (firstGrid tie i top count left).exponent := by
  induction left generalizing count with
  | zero => exact le_refl _
  | succ left ih =>
    rw [firstGrid]
    split
    · refine le_trans ?_ (exponent_le_strip _ _)
      simp only [Int.ofNat_eq_natCast]
      omega
    · exact ih (count + 1) (by rwa [Nat.add_right_comm])

/-- A whole number from `10 ^ 17` on has its last digits before the point. -/
theorem exponent_shortest {tie : Tie} {m : ℕ} {e : ℤ} (he : 2 ≤ e) (h : 10 ^ 17 ≤ wholePart m e) :
    0 ≤ (shortest tie m e).exponent := by
  have hden : (interval m e).den = 1 := by
    have hzero : (2 - e).toNat = 0 := by omega
    simp only [interval, hzero]
    rfl
  have hvalue : (interval m e).value = wholePart m e := by
    obtain ⟨k, rfl⟩ : ∃ k : ℕ, e = k + 2 := ⟨(e - 2).toNat, by omega⟩
    have hk : ((k : ℤ) + 2 - 2).toNat = k := by omega
    have hk' : ((k : ℤ) + 2).toNat = k + 2 := by omega
    rw [wholePart, if_pos (by omega)]
    simp only [interval, hk, hk', twoPow_eq]
    ring
  unfold shortest
  split
  · exact le_refl _
  · have hscale : (17 : ℤ) ≤ scale (interval m e).value (interval m e).den := by
      rw [scale, hden, hvalue, if_pos (by omega), Nat.div_one]
      obtain ⟨-, hlt, -⟩ := digits_bounds (show 0 < wholePart m e by omega)
      have := (Nat.pow_lt_pow_iff_right (by norm_num)).1 (lt_of_le_of_lt h hlt)
      simp only [Int.ofNat_eq_natCast]
      omega
    exact exponent_firstGrid 17 1 (by push_cast; omega)

/-- The shortest decimal of a double from `2 ^ 63` on is not below. -/
theorem twoPow_le_shortest {m : ℕ} {e : ℤ} (hc : Canonical m e) (he : 11 ≤ e) :
    (2 : ℚ) ^ 63 ≤ (shortest .up m e).value := by
  by_cases habove : 2 ^ 52 < m ∨ 12 ≤ e
  · exact (shortest_near .up hc).twoPow_le hc he habove
  · -- What rounds to `2 ^ 63` may be below, but what it is written as is above.
    have hm : 2 ^ 52 ≤ m := hc.normal.resolve_right (by omega)
    obtain ⟨rfl, rfl⟩ : m = 2 ^ 52 ∧ e = 11 := ⟨by omega, by omega⟩
    rw [shortest_two_pow_63, value]
    norm_num

/-- A decimal without places behind the point is written by digits alone. -/
theorem positional_whole {d : Decimal} (hexp : 0 ≤ d.exponent) (hpos : 0 < d.value) :
    d.positional ≠ [] ∧ (∀ c ∈ d.positional, c.isDigit = true) ∧
      (Text.digitsValue d.positional : ℚ) = d.value := by
  have hcoefficient : d.coefficient ≠ 0 := by
    intro hzero
    rw [value, hzero, Nat.cast_zero, zero_mul] at hpos
    exact lt_irrefl _ hpos
  have htext : d.positional = digits d.coefficient ++ zeros d.exponent.toNat := by
    rw [positional]
    simp only [if_neg hcoefficient, if_pos hexp]
  rw [htext]
  refine ⟨by simp [Lexer.digits_ne_nil], isDigit_append (Lexer.isDigit_digits _) (isDigit_zeros _), ?_⟩
  rw [digitsValue_digits_zeros, value]
  push_cast
  rw [← zpow_natCast, Int.toNat_of_nonneg hexp]

end Decimal

end Number

open Number

/-! ### Texts that are not read -/

theorem parseExpr_of_error {text message : String} (h : .error message ∈ Lexer.lexemes text.toList)
    (e : Expr) : parseExpr text ≠ .ok e := by
  rw [← Lexer.map_lexeme_tokens text.utf8ByteSize] at h
  obtain ⟨t, ht, hmessage⟩ := List.mem_map.1 h
  have hfound : (Lexer.tokens text.utf8ByteSize text.toList).find? Parser.isError ≠ none := by
    intro hnone
    have := List.find?_eq_none.1 hnone t ht
    rw [Parser.isError, hmessage] at this
    exact this rfl
  obtain ⟨u, hu⟩ := Option.ne_none_iff_exists'.1 hfound
  rw [parseExpr, tokensOf, hu]
  intro he
  cases he

theorem numeralLexeme_out_of_range {ds : List Char} (hne : ds ≠ []) (hds : ∀ c ∈ ds, c.isDigit = true)
    (h : twoPow 63 ≤ Text.digitsValue ds) : ∃ message, numeralLexeme ds = .error message := by
  obtain ⟨c, r, rfl⟩ := List.exists_cons_of_ne_nil hne
  have hread := @Lexer.numberLexeme_numeral c r [] [] (List.forall_mem_cons.1 hds).2
    (fun _ h => nomatch h) Lexer.atBreak_nil
  simp only [if_true, List.append_nil] at hread
  rw [numeralLexeme, hread, Lexer.integerLexeme]
  exact ⟨_, if_neg (Nat.not_lt.2 h)⟩

/-- A double from `2 ^ 63` on is written by all its digits behind its sign. -/
theorem toList_numberText_large {x : Float} {negative : Bool} {m : ℕ} {e : ℤ}
    (hparts : parts x = .finite negative m e) (h : twoPow 63 ≤ wholePart m e) :
    (numberText x).toList = if negative then '-' :: (Decimal.shortest .up m e).positional
      else (Decimal.shortest .up m e).positional := by
  have hlarge : ¬(isWhole m e && decide (wholePart m e < tenPow 15)) = true := by
    have h15 : tenPow 15 < twoPow 63 := by decide
    simp only [Bool.and_eq_true, decide_eq_true_eq, not_and, not_lt]
    exact fun _ => le_trans (le_of_lt h15) h
  rw [numberText, hparts]
  simp only [hlarge, plain, writeWith, hparts, Bool.false_eq_true, if_false, String.toList_ofList]

/-- The text of a double from `2 ^ 63` on is not read. -/
theorem parseExpr_large {x : Float} {negative : Bool} {m : ℕ} {e : ℤ}
    (hparts : parts x = .finite negative m e) (h : twoPow 63 ≤ wholePart m e) (expr : Expr) :
    parseExpr (numberText x) ≠ .ok expr := by
  have hm : 0 < m := by
    rw [Nat.pos_iff_ne_zero]
    rintro rfl
    simp [wholePart, twoPow] at h
  obtain ⟨hc, -, -⟩ := eq_double hparts hm
  have he := le_exponent hc h
  have hvalue := Decimal.twoPow_le_shortest hc he
  have hexp : 0 ≤ (Decimal.shortest .up m e).exponent := by
    refine Decimal.exponent_shortest (by omega) (le_trans ?_ h)
    decide
  obtain ⟨hne, hds, hdigits⟩ := Decimal.positional_whole hexp (lt_of_lt_of_le (by positivity) hvalue)
  have hrange : twoPow 63 ≤ Text.digitsValue (Decimal.shortest .up m e).positional := by
    rw [← hdigits] at hvalue
    exact_mod_cast hvalue
  obtain ⟨message, hmessage⟩ := numeralLexeme_out_of_range hne hds hrange
  have hcut : Lexer.lexemes (Decimal.shortest .up m e).positional = [.error message, .eof] := by
    have hnumeral := Lexer.lexemes_numeral (Lexer.isNumeral_whole hne hds) Lexer.atBreak_nil
    rwa [List.append_nil, hmessage, Lexer.lexemes_nil] at hnumeral
  have hmem : .error message ∈ Lexer.lexemes (numberText x).toList := by
    rw [toList_numberText_large hparts h]
    cases negative with
    | false =>
      rw [if_neg Bool.false_ne_true, hcut]
      exact .head _
    | true =>
      obtain ⟨c, cs, hcs, hc⟩ := (Lexer.isNumeral_whole hne hds).head
      have hminus : (Decimal.shortest .up m e).positional.head? ≠ some '-' := by
        rw [hcs]
        rintro ⟨⟩
        exact absurd hc (by decide)
      rw [if_pos rfl, Lexer.lexemes_minus hminus, hcut]
      exact .tail _ (.head _)
  exact parseExpr_of_error hmem expr

/-! ### The numbers that are read back -/

theorem parseExpr_numberText {x : Float} (h : legibleNumber x = true) :
    parseExpr (numberText x) = .ok (.literal (.number x)) := by
  have hlegible : (Expr.literal (.number x)).legible = true := h
  exact parseExpr_text_eq hlegible rfl rfl

/-- The text of an expression that is no number is not read as one. -/
theorem parseExpr_ne_number (e : Expr) (h : e.legible = true) (hf : e.Formed) (hnone : e.statements = [])
    (hnumber : e.isNumber = false) (x : Float) : parseExpr e.text ≠ .ok (.literal (.number x)) := by
  rw [parseExpr_text_eq h hf hnone]
  rintro ⟨⟩
  cases hnumber

/-- The text of a number is read as this number just if it is finite, below `2 ^ 63` and not the negative
zero. -/
theorem parseExpr_numberText_iff (x : Float) :
    parseExpr (numberText x) = .ok (.literal (.number x)) ↔ legibleNumber x = true := by
  refine ⟨fun hread => ?_, parseExpr_numberText⟩
  cases hparts : parts x with
  | notANumber =>
    have htext : numberText x = (Expr.column none "NaN").text := by
      simp only [numberText, hparts, plain, writeWith]
      decide
    rw [htext] at hread
    exact absurd hread (parseExpr_ne_number (.column none "NaN") (by decide) trivial rfl rfl x)
  | infinite negative =>
    have hinf : (Expr.column none "inf").legible = true := by decide
    have htext : numberText x =
        (if negative then Expr.unary .minus (.column none "inf") else .column none "inf").text := by
      simp only [numberText, hparts, plain, writeWith]
      cases negative <;> decide
    rw [htext] at hread
    cases negative with
    | false => exact absurd hread (parseExpr_ne_number (.column none "inf") hinf trivial rfl rfl x)
    | true =>
      have hf : (Expr.unary .minus (.column none "inf")).Formed := ⟨trivial, by decide, fun _ => rfl⟩
      have hlegible : (Expr.unary .minus (.column none "inf")).legible = true := by
        rw [Expr.legible, hinf]
        rfl
      exact absurd hread (parseExpr_ne_number _ hlegible hf rfl rfl x)
  | finite negative m e =>
    by_cases hlarge : wholePart m e < twoPow 63
    · rcases Nat.eq_zero_or_pos m with rfl | hm
      · rw [numberText_zero hparts, parseExpr_numberText ofInt_zero_legible.1] at hread
        cases hread
        exact ofInt_zero_legible.1
      · simp [legibleNumber, hparts, hlarge, Nat.ne_of_gt hm]
    · exact absurd hread (parseExpr_large hparts (Nat.not_lt.1 hlarge) _)

/-- The largest integer literal rounds to `2 ^ 63`, and its text is no expression. -/
theorem largest_integer_lost :
    ∃ e, parseExpr "9223372036854775807" = .ok e ∧ e.isNumber = true ∧ e.text = "9223372036854776000" ∧
      ∀ e', parseExpr e.text ≠ .ok e' := by
  have hread : (parseExpr "9223372036854775807").toOption.any (fun e =>
      e.isNumber && e.text == "9223372036854776000") = true := by decide +kernel
  obtain ⟨e, he, hfacts⟩ := exists_of_any hread
  simp only [Bool.and_eq_true, beq_iff_eq] at hfacts
  refine ⟨e, he, hfacts.1, hfacts.2, ?_⟩
  rw [hfacts.2]
  exact parseExpr_ne_ok (by decide +kernel)

end GridQuery
