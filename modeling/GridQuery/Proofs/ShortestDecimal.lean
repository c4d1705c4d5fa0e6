import GridQuery.Proofs.Rounding
import GridQuery.Number.Decimal

/-!
The shortest decimal of a double rounds to that double. The numbers that round to it are an interval,
the digits are searched on finer and finer grids, and a grid of seventeen digits is finer than the
interval is wide.
-/

namespace GridQuery.Number
set_option autoImplicit false

namespace Decimal

/-- The number that a decimal stands for. -/
def value (d : Decimal) : ℚ :=
  d.coefficient * 10 ^ d.exponent

theorem value_strip (fuel : ℕ) (d : Decimal) : (strip fuel d).value = d.value := by
  induction fuel generalizing d with
  | zero => rfl
  | succ fuel ih =>
    rw [strip]
    split
    · rename_i h
      rw [ih, value, value]
      have hdiv : (d.coefficient : ℚ) = 10 * (d.coefficient / 10 : ℕ) := by
        exact_mod_cast (Nat.mul_div_cancel' (Nat.dvd_of_mod_eq_zero h.2)).symm
      rw [hdiv, zpow_add_one₀ (by norm_num)]
      ring
    · rfl

/-! ### The interval of a double -/

theorem twoPow_quotient (e : ℤ) :
    ((twoPow (e - 2).toNat : ℕ) : ℚ) / (twoPow (2 - e).toNat : ℕ) = 2 ^ (e - 2) := by
  rw [zpow_eq_div (by norm_num) (e - 2), neg_sub, twoPow_eq, twoPow_eq]
  push_cast
  rfl

theorem interval_den_pos (m : ℕ) (e : ℤ) : (0 : ℚ) < (interval m e).den := by
  have h : 0 < (interval m e).den := Nat.two_pow_pos _
  exact_mod_cast h

theorem interval_low {m : ℕ} (e : ℤ) (hm : 0 < m) :
    ((interval m e).low : ℚ) / (interval m e).den = (m - lowGap m e) * 2 ^ e := by
  have hfour : (2 : ℚ) ^ (e - 2) = 2 ^ e / 4 := by
    rw [zpow_sub₀ (by norm_num)]
    norm_num
  have h52 := twoPow_eq 52
  simp only [interval, lowGap, h52]
  rw [Nat.cast_mul, mul_div_assoc, twoPow_quotient, hfour]
  split
  · rw [Nat.cast_sub (by omega)]
    push_cast
    ring
  · rw [Nat.cast_sub (by omega)]
    push_cast
    ring

theorem interval_value (m : ℕ) (e : ℤ) :
    ((interval m e).value : ℚ) / (interval m e).den = m * 2 ^ e := by
  have hfour : (2 : ℚ) ^ (e - 2) = 2 ^ e / 4 := by
    rw [zpow_sub₀ (by norm_num)]
    norm_num
  simp only [interval]
  rw [Nat.cast_mul, mul_div_assoc, twoPow_quotient, hfour]
  push_cast
  ring

theorem interval_high (m : ℕ) (e : ℤ) :
    ((interval m e).high : ℚ) / (interval m e).den = (m + 1 / 2) * 2 ^ e := by
  have hfour : (2 : ℚ) ^ (e - 2) = 2 ^ e / 4 := by
    rw [zpow_sub₀ (by norm_num)]
    norm_num
  simp only [interval]
  rw [Nat.cast_mul, mul_div_assoc, twoPow_quotient, hfour]
  push_cast
  ring

/-- The interval of a double holds the numbers that round to it. -/
theorem holds_iff {m : ℕ} (e : ℤ) (hm : 0 < m) {num den : ℕ} (hden : 0 < den) :
    (interval m e).holds num den = true ↔ Near (num / den) m e := by
  have hi := interval_den_pos m e
  have hd : (0 : ℚ) < den := by exact_mod_cast hden
  have hle : ∀ a b : ℕ, a * den ≤ b * (interval m e).den ↔
      (a : ℚ) / (interval m e).den ≤ b / den := by
    intro a b
    rw [div_le_div_iff₀ hi hd]
    exact_mod_cast Iff.rfl
  have hle' : ∀ a b : ℕ, b * (interval m e).den ≤ a * den ↔
      (b : ℚ) / den ≤ a / (interval m e).den := by
    intro a b
    rw [div_le_div_iff₀ hd hi]
    exact_mod_cast Iff.rfl
  have hlow := interval_low e hm
  have hhigh := interval_high m e
  have hclosed : (interval m e).closed = decide (m % 2 = 0) := rfl
  rw [Near, ← hlow, ← hhigh, Interval.holds, hclosed]
  by_cases heven : m % 2 = 0
  · rw [if_pos (decide_eq_true heven), Bool.and_eq_true, decide_eq_true_iff, decide_eq_true_iff, hle,
      hle']
    have hodd : ¬m % 2 = 1 := by omega
    exact ⟨fun h => ⟨h.1, h.2, fun ho => absurd ho hodd⟩, fun h => ⟨h.1, h.2.1⟩⟩
  · have hodd : m % 2 = 1 := by omega
    rw [if_neg (by simpa using heven), Bool.and_eq_true, decide_eq_true_iff, decide_eq_true_iff,
      ← not_le, ← not_le, hle, hle', not_le, not_le]
    exact ⟨fun h => ⟨le_of_lt h.1, le_of_lt h.2, fun _ => h⟩, fun h => h.2.2 hodd⟩

/-! ### Grids -/

theorem tenPow_quotient (place : ℤ) :
    ((tenPow place.toNat : ℕ) : ℚ) / (tenPow (-place).toNat : ℕ) = 10 ^ place := by
  rw [zpow_eq_div (by norm_num) place, tenPow_eq, tenPow_eq]
  push_cast
  rfl

theorem tenPow_pos (n : ℕ) : 0 < tenPow n :=
  Nat.pow_pos (by norm_num)

/-- A point of the grid lies in the interval if it rounds to the double. -/
theorem grid_holds_iff {m : ℕ} (e place : ℤ) (hm : 0 < m) (c : ℕ) :
    (interval m e).holds (c * tenPow place.toNat) (tenPow (-place).toNat) = true ↔
      Near (c * 10 ^ place) m e := by
  rw [holds_iff e hm (tenPow_pos _), Nat.cast_mul, mul_div_assoc, tenPow_quotient]

theorem onGrid?_near {tie : Tie} {m c : ℕ} {e place : ℤ} (hm : 0 < m)
    (h : onGrid? tie (interval m e) place = some c) : Near (c * 10 ^ place) m e := by
  rw [← grid_holds_iff e place hm]
  simp only [onGrid?] at h
  split at h
  · rename_i h1 h2
    split at h
    · cases h
      exact h1
    · split at h
      · cases h
        exact h2
      · cases tie with
        | up =>
          cases h
          exact h2
        | even =>
          cases h
          split
          · exact h1
          · exact h2
  · rename_i h1 _
    cases h
    exact h1
  · rename_i _ h2
    cases h
    exact h2
  · cases h

/-- The steps of the grid up to the value of the double. -/
def stepsBelow (m : ℕ) (e place : ℤ) : ℕ :=
  (interval m e).value * tenPow (-place).toNat / ((interval m e).den * tenPow place.toNat)

theorem stepsBelow_le (m : ℕ) (e place : ℤ) : (stepsBelow m e place : ℚ) * 10 ^ place ≤ m * 2 ^ e := by
  have hden : (0 : ℚ) < (tenPow (-place).toNat : ℕ) := by exact_mod_cast tenPow_pos _
  rw [← interval_value, ← tenPow_quotient, ← mul_div_assoc,
    div_le_div_iff₀ hden (interval_den_pos m e)]
  have hfloor : stepsBelow m e place * tenPow place.toNat * (interval m e).den ≤
      (interval m e).value * tenPow (-place).toNat := by
    calc stepsBelow m e place * tenPow place.toNat * (interval m e).den
        = stepsBelow m e place * ((interval m e).den * tenPow place.toNat) := by ring
      _ ≤ (interval m e).value * tenPow (-place).toNat := Nat.div_mul_le_self _ _
  exact_mod_cast hfloor

theorem lt_stepsBelow_succ (m : ℕ) (e place : ℤ) :
    (m * 2 ^ e : ℚ) < ((stepsBelow m e place + 1 : ℕ) : ℚ) * 10 ^ place := by
  have hden : (0 : ℚ) < (tenPow (-place).toNat : ℕ) := by exact_mod_cast tenPow_pos _
  have hstep : 0 < (interval m e).den * tenPow place.toNat :=
    Nat.mul_pos (Nat.two_pow_pos _) (tenPow_pos _)
  rw [← interval_value, ← tenPow_quotient, ← mul_div_assoc,
    div_lt_div_iff₀ (interval_den_pos m e) hden]
  have hfloor : (interval m e).value * tenPow (-place).toNat <
      (stepsBelow m e place + 1) * tenPow place.toNat * (interval m e).den := by
    calc (interval m e).value * tenPow (-place).toNat
        < stepsBelow m e place * ((interval m e).den * tenPow place.toNat) +
          (interval m e).den * tenPow place.toNat := Nat.lt_div_mul_add hstep
      _ = (stepsBelow m e place + 1) * tenPow place.toNat * (interval m e).den := by ring
  exact_mod_cast hfloor

/-- Of two numbers around a double that are closer than its interval is wide, one rounds to it. -/
theorem near_or_near {x y : ℚ} {m : ℕ} {e : ℤ} (hx : x ≤ m * 2 ^ e) (hy : m * 2 ^ e < y)
    (h : y - x < (lowGap m e + 1 / 2) * 2 ^ e) : Near x m e ∨ Near y m e := by
  have hhalf := two_zpow_pos e
  have hgap := mul_pos (lowGap_pos m e) hhalf
  by_cases hlow : (m - lowGap m e) * 2 ^ e < x
  · exact .inl ⟨le_of_lt hlow, by linarith, fun _ => ⟨hlow, by linarith⟩⟩
  · have hhigh : y < (m + 1 / 2) * 2 ^ e := by linarith
    exact .inr ⟨by linarith, le_of_lt hhigh, fun _ => ⟨by linarith, hhigh⟩⟩

/-- On a grid finer than the interval there is a point that rounds to the double. -/
theorem onGrid?_isSome {tie : Tie} {m : ℕ} {e place : ℤ} (hm : 0 < m)
    (h : (10 : ℚ) ^ place < (lowGap m e + 1 / 2) * 2 ^ e) :
    (onGrid? tie (interval m e) place).isSome = true := by
  have hsome : Near (stepsBelow m e place * 10 ^ place) m e ∨
      Near ((stepsBelow m e place + 1 : ℕ) * 10 ^ place) m e := by
    apply near_or_near (stepsBelow_le m e place) (lt_stepsBelow_succ m e place)
    push_cast
    linarith
  rw [← grid_holds_iff e place hm, ← grid_holds_iff e place hm] at hsome
  have hsteps : (interval m e).value * tenPow (-place).toNat / ((interval m e).den * tenPow place.toNat) =
      stepsBelow m e place := rfl
  simp only [onGrid?, hsteps]
  split
  · split
    · rfl
    · split
      · rfl
      · cases tie <;> rfl
  · rfl
  · rfl
  · rename_i h1 h2
    rcases hsome with hsome | hsome
    · rw [h1] at hsome
      cases hsome
    · rw [h2] at hsome
      cases hsome

/-- The first grid with a point in the interval gives a number that rounds to the double, if the last
grid has one. -/
theorem firstGrid_near {tie : Tie} {m : ℕ} {e top : ℤ} (hm : 0 < m) (left count : ℕ)
    (h : (onGrid? tie (interval m e) (top - (count + left : ℕ))).isSome = true) :
    Near (firstGrid tie (interval m e) top count (left + 1)).value m e := by
  induction left generalizing count with
  | zero =>
    obtain ⟨c, hc⟩ := Option.isSome_iff_exists.1 h
    have hc' : onGrid? tie (interval m e) (top - Int.ofNat count) = some c := hc
    simp only [firstGrid, hc']
    rw [value_strip]
    exact onGrid?_near hm hc'
  | succ left ih =>
    rw [firstGrid]
    split
    · rename_i c hc
      rw [value_strip]
      exact onGrid?_near hm hc
    · apply ih
      rwa [show count + 1 + left = count + (left + 1) by omega]

/-! ### The size of the first digit -/

theorem digits_bounds {n : ℕ} (h : 0 < n) :
    10 ^ ((digits n).length - 1) ≤ n ∧ n < 10 ^ (digits n).length ∧ 0 < (digits n).length := by
  induction n using digits.induct with
  | case1 n hn =>
    rw [digits, if_pos hn]
    simp only [List.length_singleton, Nat.sub_self, pow_zero, pow_one]
    omega
  | case2 n hn ih =>
    obtain ⟨hlow, hhigh, hpos⟩ := ih (by omega)
    rw [digits, if_neg hn, List.length_append, List.length_singleton, Nat.add_sub_cancel]
    obtain ⟨k, hk⟩ := Nat.exists_eq_succ_of_ne_zero (Nat.ne_of_gt hpos)
    rw [hk] at hlow hhigh ⊢
    simp only [Nat.succ_eq_add_one, Nat.add_sub_cancel, pow_succ] at hlow hhigh ⊢
    omega

theorem leadingZeros_le (den : ℕ) {num : ℕ} (h : 0 < num) : den ≤ num * 10 ^ (leadingZeros num den + 1) := by
  induction num using leadingZeros.induct den with
  | case1 num hn ih =>
    rw [leadingZeros, dif_pos hn]
    calc den ≤ num * 10 * 10 ^ (leadingZeros (num * 10) den + 1) := ih (by omega)
      _ = num * 10 ^ (leadingZeros (num * 10) den + 1 + 1) := by ring
  | case2 num hn =>
    rw [leadingZeros, dif_neg hn]
    omega

/-- The first digit stands at the place that the scale says. -/
theorem scale_le {num den : ℕ} (hnum : 0 < num) (hden : 0 < den) :
    (10 : ℚ) ^ (scale num den - 1) ≤ num / den := by
  have hd : (0 : ℚ) < den := by exact_mod_cast hden
  rw [scale]
  split
  · rename_i hle
    have hq : 0 < num / den := Nat.div_pos hle hden
    obtain ⟨hlow, -, hpos⟩ := digits_bounds hq
    have hexp : Int.ofNat (digits (num / den)).length - 1 = ((digits (num / den)).length - 1 : ℕ) := by
      simp only [Int.ofNat_eq_natCast]
      omega
    rw [hexp, zpow_natCast, le_div_iff₀ hd]
    have : 10 ^ ((digits (num / den)).length - 1) * den ≤ num :=
      le_trans (Nat.mul_le_mul_right den hlow) (Nat.div_mul_le_self num den)
    exact_mod_cast this
  · have hle := leadingZeros_le den hnum
    have hexp : -Int.ofNat (leadingZeros num den) - 1 = -((leadingZeros num den + 1 : ℕ) : ℤ) := by
      simp only [Int.ofNat_eq_natCast]
      omega
    rw [hexp, zpow_neg, zpow_natCast, le_div_iff₀ hd, inv_mul_le_iff₀ (pow_pos (by norm_num) _),
      mul_comm]
    exact_mod_cast hle

/-- Seventeen digits are enough. -/
theorem seventeen {m : ℕ} {e top : ℤ} (hc : Canonical m e) (htop : (10 : ℚ) ^ (top - 1) ≤ m * 2 ^ e) :
    (10 : ℚ) ^ (top - 17) < (lowGap m e + 1 / 2) * 2 ^ e := by
  have hpow : (0 : ℚ) < 2 ^ e := two_zpow_pos e
  have hsplit : (10 : ℚ) ^ (top - 17) = 10 ^ (top - 1) / 10 ^ 16 := by
    rw [show top - 17 = top - 1 - 16 by ring, zpow_sub₀ (by norm_num)]
    norm_num
  have hm : (m : ℚ) / 10 ^ 16 < lowGap m e + 1 / 2 := by
    unfold lowGap
    split
    · rename_i h
      rw [h.1]
      norm_num
    · have : (m : ℚ) < 2 ^ 53 := by exact_mod_cast hc.lt
      rw [div_lt_iff₀ (by norm_num)]
      norm_num at this ⊢
      linarith
  rw [hsplit]
  calc (10 : ℚ) ^ (top - 1) / 10 ^ 16 ≤ m * 2 ^ e / 10 ^ 16 :=
        div_le_div_of_nonneg_right htop (by norm_num)
    _ = m / 10 ^ 16 * 2 ^ e := by ring
    _ < (lowGap m e + 1 / 2) * 2 ^ e := mul_lt_mul_of_pos_right hm hpow

/-- The shortest decimal of a double rounds to it. -/
theorem shortest_near (tie : Tie) {m : ℕ} {e : ℤ} (hc : Canonical m e) :
    Near (shortest tie m e).value m e := by
  have hvalue := interval_value m e
  have hnum : 0 < (interval m e).value :=
    Nat.mul_pos (Nat.mul_pos (by norm_num) hc.pos) (Nat.two_pow_pos _)
  have hden : 0 < (interval m e).den := Nat.two_pow_pos _
  have hscale := scale_le hnum hden
  rw [hvalue] at hscale
  rw [shortest, if_neg (Nat.ne_of_gt hc.pos)]
  exact firstGrid_near hc.pos 16 1 (onGrid?_isSome hc.pos (seventeen hc hscale))

/-- The shortest decimal of `2 ^ 63` is above it. -/
theorem shortest_two_pow_63 : shortest .up (2 ^ 52) 11 = ⟨9223372036854776, 3⟩ := by
  decide +kernel

end Decimal

end GridQuery.Number
