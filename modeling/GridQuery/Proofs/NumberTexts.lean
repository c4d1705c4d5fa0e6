import Mathlib.Data.Nat.Cast.Field
import GridQuery.Proofs.Lexing
import GridQuery.Proofs.Doubles
import GridQuery.Proofs.ShortestDecimal

/-!
The text of a number is read as that number. A whole number below `10 ^ 15` is written by its digits and
any other as its shortest decimal; both are numerals, and what a numeral is read as is the double that
its decimal rounds to.
-/

namespace GridQuery
set_option autoImplicit false

namespace Number

theorem wholePart_of_isWhole {m : ℕ} {e : ℤ} (h : isWhole m e = true) :
    (wholePart m e : ℚ) = m * 2 ^ e := by
  unfold isWhole at h
  unfold wholePart
  split
  · rename_i he
    obtain ⟨k, rfl⟩ := Int.eq_ofNat_of_zero_le he
    rw [Int.toNat_natCast, twoPow_eq, zpow_natCast]
    push_cast
    rfl
  · rename_i he
    rw [if_neg he, beq_iff_eq, twoPow_eq] at h
    rw [twoPow_eq, Nat.cast_div (Nat.dvd_of_mod_eq_zero h) (by positivity), zpow_eq_inv 2 he,
      div_eq_mul_inv]
    push_cast
    rfl

/-- A double below `2 ^ 63` has its last place at `2 ^ 10` or below. -/
theorem exponent_le {m : ℕ} {e : ℤ} (hc : Canonical m e) (h : wholePart m e < twoPow 63) : e ≤ 10 := by
  by_contra hbig
  have hm : 2 ^ 52 ≤ m := hc.normal.resolve_right (by omega)
  have hpow : 2 ^ 11 ≤ 2 ^ e.toNat := Nat.pow_le_pow_right (by norm_num) (by omega)
  have hwhole : wholePart m e = m * 2 ^ e.toNat := if_pos (by omega)
  have h63 : twoPow 63 = 2 ^ 52 * 2 ^ 11 := rfl
  rw [hwhole, h63] at h
  exact absurd h (Nat.not_lt.2 (Nat.mul_le_mul hm hpow))

/-- A whole number that rounds to a double below `2 ^ 63` is itself below. -/
theorem Near.lt_twoPow {n m : ℕ} {e : ℤ} (hx : Near n m e) (hc : Canonical m e) (he : e ≤ 10) :
    n < twoPow 63 := by
  have hpow : (2 : ℚ) ^ e ≤ 2 ^ (10 : ℤ) := zpow_le_zpow_right₀ (by norm_num) he
  have hlt : (n : ℚ) < 2 ^ 63 := by
    calc (n : ℚ) < 2 ^ 53 * 2 ^ e := hx.lt hc
      _ ≤ 2 ^ 53 * 2 ^ (10 : ℤ) := mul_le_mul_of_nonneg_left hpow (by positivity)
      _ = 2 ^ 63 := by norm_num
  exact_mod_cast hlt

theorem ofInt_near {n m : ℕ} {e : ℤ} (hc : Canonical m e) (hx : Near n m e) :
    Float.ofInt n = double false m e hc.pos := by
  have hpos : 0 < n := by exact_mod_cast hx.pos hc
  exact ofScientific_whole hc hx hpos

theorem two_pow_le_ten_pow {n k : ℕ} (h : n ≤ 3 * k) : 2 ^ n ≤ 10 ^ k := by
  calc 2 ^ n ≤ 2 ^ (3 * k) := Nat.pow_le_pow_right (by norm_num) h
    _ = 8 ^ k := pow_mul 2 3 k
    _ ≤ 10 ^ k := Nat.pow_le_pow_left (by norm_num) k

/-- A decimal that rounds to a double is far from both ends of the range that is looked at, so it is
read as that double. -/
theorem nearest_near {c k m : ℕ} {e : ℤ} (hc : Canonical m e) (he : e ≤ 971) (hk : 0 < k)
    (hx : Near (c / 10 ^ k) m e) : nearest c (-k) = double false m e hc.pos := by
  have hden : (0 : ℚ) < 10 ^ k := pow_pos (by norm_num) k
  have hpos : 0 < c := by
    have := mul_pos (hx.pos hc) hden
    rw [div_mul_cancel₀ _ (ne_of_gt hden)] at this
    exact_mod_cast this
  obtain ⟨hlow, hhigh, -⟩ := Decimal.digits_bounds hpos
  have hsmall : k < 400 + (digits c).length := by
    have htiny := hx.not_tiny hc
    rw [zpow_neg, le_div_iff₀ hden, inv_mul_le_iff₀ (zpow_pos (by norm_num) _)] at htiny
    have htiny : 10 ^ k ≤ 2 ^ 1075 * c := by exact_mod_cast htiny
    have hpow : 10 ^ k < 10 ^ (400 + (digits c).length) := by
      calc 10 ^ k ≤ 2 ^ 1075 * c := htiny
        _ < 2 ^ 1075 * 10 ^ (digits c).length := Nat.mul_lt_mul_of_pos_left hhigh (by positivity)
        _ ≤ 10 ^ 400 * 10 ^ (digits c).length :=
          Nat.mul_le_mul_right _ (two_pow_le_ten_pow (by norm_num))
        _ = 10 ^ (400 + (digits c).length) := (pow_add 10 400 _).symm
    exact (Nat.pow_lt_pow_iff_right (by norm_num)).1 hpow
  have hlarge : (digits c).length - 1 < 400 + k := by
    have hlt := hx.lt hc
    rw [div_lt_iff₀ hden] at hlt
    have hexp : (2 : ℚ) ^ e ≤ 2 ^ (971 : ℤ) := zpow_le_zpow_right₀ (by norm_num) he
    have hmax : (2 : ℚ) ^ 53 * 2 ^ (971 : ℤ) = 2 ^ 1024 := by
      rw [show (971 : ℤ) = (971 : ℕ) from rfl, zpow_natCast, ← pow_add]
    have hc' : (c : ℚ) < 2 ^ 1024 * 10 ^ k := by
      calc (c : ℚ) < 2 ^ 53 * 2 ^ e * 10 ^ k := hlt
        _ ≤ 2 ^ 53 * 2 ^ (971 : ℤ) * 10 ^ k :=
          mul_le_mul_of_nonneg_right (mul_le_mul_of_nonneg_left hexp (by positivity)) (le_of_lt hden)
        _ = 2 ^ 1024 * 10 ^ k := by rw [← hmax]
    have hc' : c < 2 ^ 1024 * 10 ^ k := by exact_mod_cast hc'
    have hpow : 10 ^ ((digits c).length - 1) < 10 ^ (400 + k) := by
      calc 10 ^ ((digits c).length - 1) ≤ c := hlow
        _ < 2 ^ 1024 * 10 ^ k := hc'
        _ ≤ 10 ^ 400 * 10 ^ k := Nat.mul_le_mul_right _ (two_pow_le_ten_pow (by norm_num))
        _ = 10 ^ (400 + k) := (pow_add 10 400 _).symm
    exact (Nat.pow_lt_pow_iff_right (by norm_num)).1 hpow
  have hsize : ¬(c = 0 ∨ Int.ofNat (digits c).length + -(k : ℤ) < -400) := by
    simp only [Int.ofNat_eq_natCast]
    omega
  have hsize' : ¬400 < Int.ofNat (digits c).length + -(k : ℤ) := by
    simp only [Int.ofNat_eq_natCast]
    omega
  have hplaces : (- -(k : ℤ)).toNat = k := by omega
  rw [nearest]
  simp only [if_neg hsize, if_neg hsize', hplaces]
  rw [if_pos (by omega)]
  exact ofScientific_places hc hx hpos

/-- Digits around a point are read as their number behind the places. -/
theorem read?_point {whole fraction : List Char} (hne : whole ≠ []) (hw : ∀ c ∈ whole, c.isDigit = true)
    (hf : ∀ c ∈ fraction, c.isDigit = true) :
    read? (whole ++ '.' :: fraction) =
      some (nearest (Text.digitsValue (whole ++ fraction)) (-(fraction.length : ℤ))) := by
  have htake := @Lexer.takeWhile_append_ends _ whole ('.' :: fraction) hw (by rintro _ ⟨⟩; decide)
  have htake' := @Lexer.takeWhile_append_ends _ fraction [] hf (fun _ h => nomatch h)
  rw [List.append_nil] at htake'
  have hunsigned : unsigned? (whole ++ '.' :: fraction) =
      some (nearest (Text.digitsValue (whole ++ fraction)) (-(fraction.length : ℤ))) := by
    simp only [unsigned?, htake.1, htake.2, htake'.1, htake'.2]
    rw [if_neg (by simp [hne])]
    rfl
  obtain ⟨c, whole, rfl⟩ := List.exists_cons_of_ne_nil hne
  have hc := hw c (.head _)
  unfold read?
  split
  rename_i negative rest heq
  split at heq
  · rename_i hcons
    cases hcons
    exact absurd hc (by decide)
  · rename_i hcons
    cases hcons
    exact absurd hc (by decide)
  · cases heq
    rw [hunsigned]
    rfl

end Number

open Number

/-! ### Numerals -/

/-- The numeral is read as the number. -/
def Spells (ds : List Char) (x : Float) : Prop :=
  Lexer.IsNumeral ds ∧ Parser.atom? (numeralLexeme ds) = some (.literal (.number x))

theorem spells_whole {ds : List Char} {m : ℕ} {e : ℤ} (hne : ds ≠ []) (hds : ∀ c ∈ ds, c.isDigit = true)
    (hc : Canonical m e) (he : e ≤ 10) (hx : Near (Text.digitsValue ds) m e) :
    Spells ds (double false m e hc.pos) := by
  refine ⟨Lexer.isNumeral_whole hne hds, ?_⟩
  rw [Lexer.numeralLexeme_whole hne hds (hx.lt_twoPow hc he), ← ofInt_near hc hx]
  rfl

theorem spells_point {whole fraction : List Char} {m : ℕ} {e : ℤ} (hne : whole ≠ []) (hf : fraction ≠ [])
    (hwhole : ∀ c ∈ whole, c.isDigit = true) (hfraction : ∀ c ∈ fraction, c.isDigit = true)
    (hc : Canonical m e) (he : e ≤ 971)
    (hx : Near (Text.digitsValue (whole ++ fraction) / 10 ^ fraction.length) m e) :
    Spells (whole ++ '.' :: fraction) (double false m e hc.pos) := by
  refine ⟨⟨whole, fraction, hne, hwhole, hfraction, by rw [if_neg hf]⟩, ?_⟩
  have hlength : 0 < fraction.length := List.length_pos_iff.2 hf
  rw [Lexer.numeralLexeme_point hne hf hwhole hfraction, Lexer.floatLexeme,
    read?_point hne hwhole hfraction, nearest_near hc he hlength hx]
  rfl

theorem isDigit_zeros (n : ℕ) : ∀ c ∈ zeros n, c.isDigit = true := by
  intro c hc
  rw [List.eq_of_mem_replicate hc]
  decide

theorem digitsValue_zeros (n : ℕ) : Text.digitsValue (zeros n) = 0 := by
  induction n with
  | zero => rfl
  | succ n ih =>
    have hcons : zeros (n + 1) = ['0'] ++ zeros n := rfl
    rw [hcons, Lexer.digitsValue_append, ih]
    exact (Nat.add_zero _).trans (Nat.zero_mul _)

theorem digitsValue_digits_zeros (c n : ℕ) : Text.digitsValue (digits c ++ zeros n) = c * 10 ^ n := by
  rw [Lexer.digitsValue_append, Lexer.digitsValue_digits, digitsValue_zeros, zeros,
    List.length_replicate, Nat.add_zero]
  rfl

theorem isDigit_append {ds ds' : List Char} (h : ∀ c ∈ ds, c.isDigit = true)
    (h' : ∀ c ∈ ds', c.isDigit = true) : ∀ c ∈ ds ++ ds', c.isDigit = true := by
  intro c hc
  rcases List.mem_append.1 hc with hc | hc
  · exact h c hc
  · exact h' c hc

section Positional

variable {c m : ℕ} {e : ℤ}

theorem spells_zeros_behind {n : ℕ} (hc : Canonical m e) (he : e ≤ 10) (hx : Near (c * 10 ^ n) m e) :
    Spells (digits c ++ zeros n) (double false m e hc.pos) := by
  refine spells_whole (by simp [Lexer.digits_ne_nil]) ?_ hc he ?_
  · exact isDigit_append (Lexer.isDigit_digits c) (isDigit_zeros n)
  · rw [digitsValue_digits_zeros]
    push_cast
    exact hx

/-- The point stands between two digits of the coefficient. -/
theorem spells_point_within {places : ℕ} (hc : Canonical m e) (he : e ≤ 10) (hplaces : 0 < places)
    (hlt : places < (digits c).length) (hx : Near (c / 10 ^ places) m e) :
    Spells ((digits c).take ((digits c).length - places) ++
      '.' :: (digits c).drop ((digits c).length - places)) (double false m e hc.pos) := by
  have hdigits := Lexer.isDigit_digits c
  have hlength : ((digits c).drop ((digits c).length - places)).length = places := by
    rw [List.length_drop]
    omega
  refine spells_point ?_ ?_ (fun c hc => hdigits c (List.mem_of_mem_take hc))
    (fun c hc => hdigits c (List.mem_of_mem_drop hc)) hc (by omega) ?_
  · rw [← List.length_pos_iff, List.length_take]
    omega
  · rw [← List.length_pos_iff, hlength]
    exact hplaces
  · rwa [List.take_append_drop, Lexer.digitsValue_digits, hlength]

/-- The point stands before the coefficient, with zeros to the first place that counts. -/
theorem spells_point_before {places : ℕ} (hc : Canonical m e) (he : e ≤ 10)
    (hlt : ¬places < (digits c).length) (hx : Near (c / 10 ^ places) m e) :
    Spells ('0' :: '.' :: zeros (places - (digits c).length) ++ digits c) (double false m e hc.pos) := by
  have hlength : (zeros (places - (digits c).length) ++ digits c).length = places := by
    rw [List.length_append, zeros, List.length_replicate]
    omega
  have hvalue : Text.digitsValue (['0'] ++ (zeros (places - (digits c).length) ++ digits c)) = c := by
    have hzero : Text.digitsValue ['0'] = 0 := rfl
    rw [Lexer.digitsValue_append, Lexer.digitsValue_append, hzero, digitsValue_zeros,
      Lexer.digitsValue_digits, Nat.zero_mul, Nat.zero_mul, Nat.zero_add, Nat.zero_add]
  have hfraction := isDigit_append (isDigit_zeros (places - (digits c).length)) (Lexer.isDigit_digits c)
  have htext : '0' :: '.' :: zeros (places - (digits c).length) ++ digits c =
      ['0'] ++ '.' :: (zeros (places - (digits c).length) ++ digits c) := rfl
  have hzeroDigit : ∀ c ∈ ['0'], c.isDigit = true := isDigit_zeros 1
  rw [htext]
  refine spells_point (List.cons_ne_nil _ _) (by simp [Lexer.digits_ne_nil]) hzeroDigit hfraction hc
    (by omega) ?_
  rwa [hvalue, hlength]

/-- A decimal written without an exponent is read as the double that it rounds to. -/
theorem spells_positional {d : Decimal} (hc : Canonical m e) (he : e ≤ 10) (hx : Near d.value m e) :
    Spells d.positional (double false m e hc.pos) := by
  have hcoefficient : d.coefficient ≠ 0 := by
    intro hzero
    have hpos := hx.pos hc
    rw [Decimal.value, hzero, Nat.cast_zero, zero_mul] at hpos
    exact lt_irrefl _ hpos
  rw [Decimal.positional]
  simp only [if_neg hcoefficient]
  by_cases hexp : 0 ≤ d.exponent
  · rw [if_pos hexp]
    rw [Decimal.value, ← Int.toNat_of_nonneg hexp, zpow_natCast] at hx
    exact spells_zeros_behind hc he hx
  · rw [if_neg hexp]
    rw [Decimal.value, zpow_eq_inv 10 hexp, ← div_eq_mul_inv] at hx
    have hplaces : 0 < (-d.exponent).toNat := by omega
    by_cases hlt : (-d.exponent).toNat < (digits d.coefficient).length
    · rw [if_pos hlt]
      exact spells_point_within hc he hplaces hlt hx
    · rw [if_neg hlt]
      exact spells_point_before hc he hlt hx

end Positional

/-! ### The text of a number -/

/-- The text is a numeral that is read as the number, or one behind a minus. -/
theorem numberText_spells {x : Float} (h : legibleNumber x = true) :
    ∃ ds y, Spells ds y ∧ ((numberText x).toList = ds ∧ y = x ∨
      (numberText x).toList = '-' :: ds ∧ -y = x) := by
  unfold legibleNumber at h
  split at h
  · rename_i negative m e hparts
    rw [Bool.and_eq_true, decide_eq_true_eq] at h
    obtain ⟨hzero, hlt⟩ := h
    -- The numeral is that of the number without its sign.
    rcases Nat.eq_zero_or_pos m with rfl | hm
    · have hpositive : negative = false := by simpa using hzero
      subst hpositive
      have htext : (numberText x).toList = digits 0 := by
        have hwhole : wholePart 0 e = 0 := by simp [wholePart]
        have hcond : (isWhole 0 e && decide (wholePart 0 e < tenPow 15)) = true := by
          rw [hwhole]
          simp [isWhole, tenPow]
        rw [numberText, hparts]
        simp only [hcond, if_true]
        rw [hwhole, String.toList_ofList]
        rfl
      refine ⟨digits 0, x, ⟨Lexer.isNumeral_whole (Lexer.digits_ne_nil 0) (Lexer.isDigit_digits 0), ?_⟩,
        .inl ⟨htext, rfl⟩⟩
      rw [Lexer.numeralLexeme_digits (by decide), eq_zero hparts]
      rfl
    · obtain ⟨hc, hmax, hx⟩ := eq_double hparts hm
      have he := exponent_le hc hlt
      have hsigned : ∀ ds, Spells ds (double false m e hc.pos) →
          (numberText x).toList = (if negative then '-' :: ds else ds) →
          ∃ ds y, Spells ds y ∧ ((numberText x).toList = ds ∧ y = x ∨
            (numberText x).toList = '-' :: ds ∧ -y = x) := by
        intro ds hds htext
        cases negative with
        | false => exact ⟨ds, _, hds, .inl ⟨htext, hx.symm⟩⟩
        | true => exact ⟨ds, _, hds, .inr ⟨htext, (neg_double hc hmax).trans hx.symm⟩⟩
      by_cases hcond : (isWhole m e && decide (wholePart m e < tenPow 15)) = true
      · have hvalue := wholePart_of_isWhole (Bool.and_eq_true_iff.1 hcond).1
        have hnear : Near (wholePart m e) m e := hvalue ▸ near_self m e
        have hpos : 0 < wholePart m e := by exact_mod_cast hnear.pos hc
        apply hsigned (digits (wholePart m e))
        · refine spells_whole (Lexer.digits_ne_nil _) (Lexer.isDigit_digits _) hc he ?_
          rwa [Lexer.digitsValue_digits]
        · rw [numberText, hparts]
          simp only [hcond, if_true, String.toList_ofList, Int.ofNat_eq_natCast]
          cases negative with
          | false =>
            rw [intDigits, if_neg (by simp)]
            rfl
          | true =>
            rw [intDigits, if_pos (by simpa using hpos)]
            simp
      · apply hsigned (Decimal.shortest .up m e).positional
        · exact spells_positional hc he (Decimal.shortest_near .up hc)
        · rw [numberText, hparts]
          simp only [hcond, plain, writeWith, hparts, Bool.false_eq_true, if_false, String.toList_ofList]
  · cases h

theorem numberText_numeral {x : Float} (h : legibleNumber x = true) :
    ∃ ds, Lexer.IsNumeral ds ∧ ((numberText x).toList = ds ∨ (numberText x).toList = '-' :: ds) := by
  obtain ⟨ds, y, hds, ⟨htext, -⟩ | ⟨htext, -⟩⟩ := numberText_spells h
  · exact ⟨ds, hds.1, .inl htext⟩
  · exact ⟨ds, hds.1, .inr htext⟩

theorem numberLexemes_plain {x : Float} {ds : List Char} (hds : Lexer.IsNumeral ds)
    (htext : (numberText x).toList = ds) : numberLexemes x = [numeralLexeme ds] := by
  obtain ⟨c, cs, hcs, hc⟩ := hds.head
  unfold numberLexemes
  split
  · rename_i heq
    rw [htext, hcs] at heq
    cases heq
    exact absurd hc (by decide)
  · rw [htext]

theorem numberLexemes_minus {x : Float} {ds : List Char} (htext : (numberText x).toList = '-' :: ds) :
    numberLexemes x = [.minus, numeralLexeme ds] := by
  unfold numberLexemes
  simp only [htext]

theorem ofInt_zero_legible : legibleNumber (Float.ofInt 0) = true ∧
    numberText (Float.ofInt 0) = String.ofList (intDigits 0) := by
  constructor <;> decide +kernel

/-- Both zeros have the text of the positive one. -/
theorem numberText_zero {x : Float} {negative : Bool} {e : ℤ} (h : parts x = .finite negative 0 e) :
    numberText x = numberText (Float.ofInt 0) := by
  have hwhole : wholePart 0 e = 0 := by simp [wholePart]
  have hcond : (isWhole 0 e && decide (wholePart 0 e < tenPow 15)) = true := by
    rw [hwhole]
    simp [isWhole, tenPow]
  rw [ofInt_zero_legible.2, numberText, h]
  simp only [hcond, if_true]
  rw [hwhole]
  cases negative <;> rfl

/-- The lexemes of a number are read as that number. -/
def NumberReadsBack (x : Float) : Prop :=
  (∃ l, numberLexemes x = [l] ∧ Parser.atom? l = some (.literal (.number x))) ∨
    ∃ l y, numberLexemes x = [.minus, l] ∧ Parser.atom? l = some (.literal (.number y)) ∧ -y = x

theorem numberReadsBack {x : Float} (h : legibleNumber x = true) : NumberReadsBack x := by
  obtain ⟨ds, y, ⟨hds, hatom⟩, ⟨htext, rfl⟩ | ⟨htext, hneg⟩⟩ := numberText_spells h
  · exact .inl ⟨_, numberLexemes_plain hds htext, hatom⟩
  · exact .inr ⟨_, y, numberLexemes_minus htext, hatom, hneg⟩

end GridQuery
