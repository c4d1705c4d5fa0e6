import Mathlib
import GridQuery.Number.Double

/-!
Rounding to the nearest double. The result of a product or a quotient is found in two steps, the bits of
the exact result with what lies behind them, and the nearest mantissa, a tie going to the even one. A
rational that is nearer to one double than to any other is rounded to that double.
-/

namespace GridQuery.Number
set_option autoImplicit false

open Float.Model Float.Model.UnpackedFloat

/-! ### Powers -/

theorem two_zpow_pos (e : ℤ) : (0 : ℚ) < 2 ^ e :=
  zpow_pos (by norm_num) e

theorem two_pow_mul_zpow (k : ℕ) (e : ℤ) : (2 : ℚ) ^ k * 2 ^ e = 2 ^ (k + e) := by
  rw [zpow_add₀ (by norm_num), zpow_natCast]

theorem twoPow_eq (n : ℕ) : twoPow n = 2 ^ n :=
  rfl

theorem tenPow_eq (n : ℕ) : tenPow n = 10 ^ n :=
  rfl

/-- A power is the quotient of two with natural exponents, one of them zero. -/
theorem zpow_eq_div {b : ℚ} (hb : b ≠ 0) (i : ℤ) : b ^ i = b ^ i.toNat / b ^ (-i).toNat := by
  rw [← zpow_natCast, ← zpow_natCast, ← zpow_sub₀ hb]
  congr 1
  omega

theorem zpow_eq_inv (b : ℚ) {i : ℤ} (h : ¬0 ≤ i) : b ^ i = (b ^ (-i).toNat)⁻¹ := by
  rw [← zpow_natCast, ← zpow_neg]
  congr 1
  omega

/-- A number between two powers of two orders their exponents. -/
theorem exponent_lt {x : ℚ} {i j : ℤ} (h : 2 ^ i ≤ x) (h' : x < 2 ^ j) : i < j :=
  (zpow_lt_zpow_iff_right₀ (by norm_num : (1 : ℚ) < 2)).1 (lt_of_le_of_lt h h')

/-! ### Mantissas with two further bits -/

/-- What a mantissa with a round bit and a sticky bit says of a number. -/
def Represents : ExtendedMantissa → ℚ → Prop
  | ⟨m, false, false⟩, x => x = m
  | ⟨m, false, true⟩, x => m < x ∧ x < m + 1 / 2
  | ⟨m, true, false⟩, x => x = m + 1 / 2
  | ⟨m, true, true⟩, x => m + 1 / 2 < x ∧ x < m + 1

theorem Represents.bounds {em : ExtendedMantissa} {x : ℚ} (h : Represents em x) :
    (em.mantissa : ℚ) ≤ x ∧ x < em.mantissa + 1 := by
  obtain ⟨m, r, s⟩ := em
  cases r <;> cases s
  · rw [Represents] at h
    constructor <;> dsimp only <;> linarith
  · obtain ⟨h, h'⟩ := h
    constructor <;> dsimp only <;> linarith
  · rw [Represents] at h
    constructor <;> dsimp only <;> linarith
  · obtain ⟨h, h'⟩ := h
    constructor <;> dsimp only <;> linarith

theorem Represents.mantissa_eq {em : ExtendedMantissa} {m : ℕ} (h : Represents em m) :
    em.mantissa = m := by
  obtain ⟨h, h'⟩ := h.bounds
  have h1 : em.mantissa ≤ m := by exact_mod_cast h
  have h2 : m < em.mantissa + 1 := by exact_mod_cast h'
  omega

theorem Represents.shiftRightOne {em : ExtendedMantissa} {x : ℚ} (h : Represents em x) :
    Represents em.shiftRightOne (x / 2) := by
  obtain ⟨m, r, s⟩ := em
  have hdiv : (m : ℚ) = 2 * (m / 2 : ℕ) + (m % 2 : ℕ) := by exact_mod_cast (Nat.div_add_mod m 2).symm
  rcases Nat.mod_two_eq_zero_or_one m with hm | hm
  · have hshift : (⟨m, r, s⟩ : ExtendedMantissa).shiftRightOne = ⟨m / 2, false, r || s⟩ := by
      simp [ExtendedMantissa.shiftRightOne, hm]
    rw [hm, Nat.cast_zero] at hdiv
    rw [hshift]
    cases r <;> cases s
    all_goals
      simp only [Represents, Bool.or_self, Bool.or_true, Bool.or_false] at h ⊢
      first
        | linarith
        | constructor <;> linarith
  · have hshift : (⟨m, r, s⟩ : ExtendedMantissa).shiftRightOne = ⟨m / 2, true, r || s⟩ := by
      simp [ExtendedMantissa.shiftRightOne, hm]
    rw [hm, Nat.cast_one] at hdiv
    rw [hshift]
    cases r <;> cases s
    all_goals
      simp only [Represents, Bool.or_self, Bool.or_true, Bool.or_false] at h ⊢
      first
        | linarith
        | constructor <;> linarith

theorem Represents.shiftRight {em : ExtendedMantissa} {x : ℚ} (h : Represents em x) (n : ℕ) :
    Represents (em >>> n) (x / 2 ^ n) := by
  change Represents (n.repeat ExtendedMantissa.shiftRightOne em) _
  induction n with
  | zero => simpa [Nat.repeat] using h
  | succ n ih =>
    rw [Nat.repeat, pow_succ, ← div_div]
    exact ih.shiftRightOne

/-- The number is no further than half from the whole number, and that only if it is even. -/
def RoundsTo (x : ℚ) (m : ℕ) : Prop :=
  m - 1 / 2 ≤ x ∧ x ≤ m + 1 / 2 ∧ (m % 2 = 1 → m - 1 / 2 < x ∧ x < m + 1 / 2)

theorem Represents.roundedMantissa {em : ExtendedMantissa} {x : ℚ} {m : ℕ} (h : Represents em x)
    (hm : RoundsTo x m) : em.roundedMantissa = m := by
  obtain ⟨hlow, hhigh, hodd⟩ := hm
  obtain ⟨q, r, s⟩ := em
  -- The mantissa is the whole number, or one less where the number is below it.
  have hq : q = m ∨ q + 1 = m := by
    obtain ⟨hle, hlt⟩ := h.bounds
    dsimp only at hle hlt
    have h1 : (q : ℚ) < m + 1 := by linarith
    have h2 : (m : ℚ) < q + 2 := by linarith
    have h1 : q < m + 1 := by exact_mod_cast h1
    have h2 : m < q + 2 := by exact_mod_cast h2
    omega
  cases r <;> cases s
  all_goals
    simp only [Represents] at h
    simp only [ExtendedMantissa.roundedMantissa, ExtendedMantissa.accuracy,
      Accuracy.roundToNearestEven]
  · rcases hq with rfl | rfl
    · rfl
    · push_cast at hlow
      linarith
  · rcases hq with rfl | rfl
    · rfl
    · push_cast at hlow
      linarith [h.2]
  · rcases hq with rfl | rfl
    · rcases Nat.mod_two_eq_zero_or_one q with hpar | hpar
      · rw [hpar, Nat.add_zero]
      · linarith [(hodd hpar).2]
    · rcases Nat.mod_two_eq_zero_or_one q with hpar | hpar
      · have := (hodd (by omega)).1
        push_cast at this
        linarith
      · rw [hpar]
  · rcases hq with rfl | rfl
    · linarith [h.1]
    · rfl

/-! ### Doubles and the numbers next to them -/

/-- Mantissa and exponent of a double that is not zero. -/
structure Canonical (m : ℕ) (e : ℤ) : Prop where
  pos : 0 < m
  lt : m < 2 ^ 53
  min : -1074 ≤ e
  normal : 2 ^ 52 ≤ m ∨ e = -1074

/-- How far below a double the numbers go that round to it: half of its last place, or half of that
below a power of two. -/
def lowGap (m : ℕ) (e : ℤ) : ℚ :=
  if m = 2 ^ 52 ∧ -1074 < e then 1 / 4 else 1 / 2

/-- The number rounds to the double `m * 2 ^ e`. -/
def Near (x : ℚ) (m : ℕ) (e : ℤ) : Prop :=
  (m - lowGap m e) * 2 ^ e ≤ x ∧ x ≤ (m + 1 / 2) * 2 ^ e ∧
    (m % 2 = 1 → (m - lowGap m e) * 2 ^ e < x ∧ x < (m + 1 / 2) * 2 ^ e)

theorem lowGap_le (m : ℕ) (e : ℤ) : lowGap m e ≤ 1 / 2 := by
  unfold lowGap
  split
  · norm_num
  · rfl

theorem lowGap_pos (m : ℕ) (e : ℤ) : 0 < lowGap m e := by
  unfold lowGap
  split
  · norm_num
  · norm_num

theorem near_self (m : ℕ) (e : ℤ) : Near (m * 2 ^ e) m e := by
  have he : (0 : ℚ) < 2 ^ e := two_zpow_pos e
  have hgap := mul_pos (lowGap_pos m e) he
  refine ⟨by linarith, by linarith, fun _ => ⟨by linarith, by linarith⟩⟩

theorem Near.roundsTo {x : ℚ} {m : ℕ} {e : ℤ} (h : Near x m e) : RoundsTo (x / 2 ^ e) m := by
  obtain ⟨hlow, hhigh, hodd⟩ := h
  have he : (0 : ℚ) < 2 ^ e := two_zpow_pos e
  have hgap := lowGap_le m e
  rw [← le_div_iff₀ he] at hlow
  rw [← div_le_iff₀ he] at hhigh
  refine ⟨by linarith, hhigh, fun hm => ?_⟩
  obtain ⟨h1, h2⟩ := hodd hm
  rw [← lt_div_iff₀ he] at h1
  rw [← div_lt_iff₀ he] at h2
  exact ⟨by linarith, h2⟩

theorem Near.pos {x : ℚ} {m : ℕ} {e : ℤ} (h : Near x m e) (hc : Canonical m e) : 0 < x := by
  have he : (0 : ℚ) < 2 ^ e := two_zpow_pos e
  have hm : (1 : ℚ) ≤ m := by exact_mod_cast hc.pos
  have hgap := lowGap_le m e
  have : 0 < (m - lowGap m e) * 2 ^ e := mul_pos (by linarith) he
  linarith [h.1]

/-- A number next to a double is below the next power of two. -/
theorem Near.lt {x : ℚ} {m : ℕ} {e : ℤ} (h : Near x m e) (hc : Canonical m e) :
    x < 2 ^ 53 * 2 ^ e := by
  have he : (0 : ℚ) < 2 ^ e := two_zpow_pos e
  have hm : (m : ℚ) + 1 ≤ 2 ^ 53 := by exact_mod_cast hc.lt
  calc x ≤ (m + 1 / 2) * 2 ^ e := h.2.1
    _ < 2 ^ 53 * 2 ^ e := by
      apply mul_lt_mul_of_pos_right _ he
      linarith

/-! ### The exponent of a result -/

theorem targetExponent_binary64 (t : ℤ) :
    Format.binary64.targetExponent t = max (t - 53) (-1074) := rfl

/-- The size of a number in front of a power of two. -/
theorem value_bounds {m : ℕ} (e : ℤ) (h : 0 < m) :
    (2 : ℚ) ^ (totalExponent m e - 1) ≤ m * 2 ^ e ∧ ((m + 1) * 2 ^ e : ℚ) ≤ 2 ^ totalExponent m e := by
  have hlog : (2 : ℚ) ^ m.log2 ≤ m := by exact_mod_cast Nat.log2_self_le (Nat.ne_of_gt h)
  have hlog' : (m : ℚ) + 1 ≤ 2 ^ (m.log2 + 1) := by exact_mod_cast Nat.lt_log2_self
  have hlow : totalExponent m e - 1 = m.log2 + e := by
    rw [totalExponent]
    ring
  have hhigh : totalExponent m e = (m.log2 + 1 : ℕ) + e := by
    rw [totalExponent]
    push_cast
    ring
  constructor
  · rw [hlow, ← two_pow_mul_zpow]
    exact mul_le_mul_of_nonneg_right hlog (le_of_lt (two_zpow_pos e))
  · rw [hhigh, ← two_pow_mul_zpow]
    exact mul_le_mul_of_nonneg_right hlog' (le_of_lt (two_zpow_pos e))

/-- The exponent that a number of a given size is rounded to. -/
theorem targetExponent_eq {q : ℕ} {x : ℚ} {e t : ℤ} (hq : (q : ℚ) * 2 ^ e ≤ x)
    (hq' : x < (q + 1) * 2 ^ e) (hlow : 2 ^ 52 * 2 ^ t ≤ x ∨ t = -1074) (hhigh : x < 2 ^ 53 * 2 ^ t)
    (ht : -1074 ≤ t) (he : e ≤ t) : Format.binary64.targetExponent (totalExponent q e) = t := by
  rw [targetExponent_binary64]
  rcases Nat.eq_zero_or_pos q with rfl | hpos
  · have ht' : t = -1074 := by
      refine hlow.resolve_left fun h => ?_
      have h1 : (2 : ℚ) ^ t ≤ 2 ^ 52 * 2 ^ t :=
        le_mul_of_one_le_left (le_of_lt (two_zpow_pos t)) (by norm_num)
      have h2 : (2 : ℚ) ^ e ≤ 2 ^ t := zpow_le_zpow_right₀ (by norm_num) he
      push_cast at hq'
      linarith
    rw [totalExponent, Nat.log2_zero]
    omega
  · obtain ⟨hsize, hsize'⟩ := value_bounds e hpos
    have h1 : totalExponent q e - 1 < (53 : ℕ) + t := by
      apply exponent_lt (le_trans hsize hq)
      rwa [← two_pow_mul_zpow]
    rcases hlow with hlow | rfl
    · rw [two_pow_mul_zpow] at hlow
      have h2 := exponent_lt hlow (lt_of_lt_of_le hq' hsize')
      push_cast at h1 h2
      omega
    · push_cast at h1
      omega

/-- The number that a mantissa stands for in front of `2 ^ e`, read with its accuracy. -/
def Stands (q : ℕ) (e : ℤ) (acc : Accuracy) (x : ℚ) : Prop :=
  Represents (ExtendedMantissa.ofMantissaAndAccuracy q acc) (x / 2 ^ e)

theorem mantissa_ofMantissaAndAccuracy (q : ℕ) (acc : Accuracy) :
    (ExtendedMantissa.ofMantissaAndAccuracy q acc).mantissa = q := by
  cases acc with
  | exact => rfl
  | inexact o => cases o <;> rfl

theorem stands_exact (q : ℕ) (e : ℤ) : Stands q e .exact (q * 2 ^ e) := by
  have he : (2 : ℚ) ^ e ≠ 0 := ne_of_gt (two_zpow_pos e)
  change (q : ℚ) * 2 ^ e / 2 ^ e = q
  rw [mul_div_assoc, div_self he, mul_one]

theorem Stands.bounds {q : ℕ} {e : ℤ} {acc : Accuracy} {x : ℚ} (h : Stands q e acc x) :
    (q : ℚ) * 2 ^ e ≤ x ∧ x < (q + 1) * 2 ^ e := by
  have he : (0 : ℚ) < 2 ^ e := two_zpow_pos e
  have hb := Represents.bounds h
  rw [mantissa_ofMantissaAndAccuracy, le_div_iff₀ he, div_lt_iff₀ he] at hb
  exact hb

/-- Shifting to the exponent of a number keeps what the mantissa stands for. -/
theorem shiftToTargetExponent_eq {q : ℕ} {e t : ℤ} {acc : Accuracy} {x : ℚ} (h : Stands q e acc x)
    (hlow : 2 ^ 52 * 2 ^ t ≤ x ∨ t = -1074) (hhigh : x < 2 ^ 53 * 2 ^ t) (ht : -1074 ≤ t)
    (he : e ≤ t) :
    ∃ em, shiftToTargetExponent Format.binary64 q e acc = (em, t) ∧ Represents em (x / 2 ^ t) := by
  have htarget := targetExponent_eq h.bounds.1 h.bounds.2 hlow hhigh ht he
  have hexp : e + ((t - e).toNat : ℤ) = t := by omega
  have hpow : x / 2 ^ e / 2 ^ (t - e).toNat = x / 2 ^ t := by
    rw [div_div, ← zpow_natCast, ← zpow_add₀ (by norm_num), hexp]
  refine ⟨ExtendedMantissa.ofMantissaAndAccuracy q acc >>> (t - e).toNat, ?_, ?_⟩
  · rw [shiftToTargetExponent, htarget]
    simp only [shiftToExponent, hexp]
  · rw [← hpow]
    exact Represents.shiftRight h _

/-- A number that is a double is not rounded. -/
theorem shiftToTargetExponent_exact {q m : ℕ} {e t : ℤ} (hc : Canonical m t)
    (h : (q : ℚ) * 2 ^ e = m * 2 ^ t) (he : e ≤ t) :
    ∃ em, shiftToTargetExponent Format.binary64 q e .exact = (em, t) ∧ em.mantissa = m := by
  have hpow : (0 : ℚ) < 2 ^ t := two_zpow_pos t
  have hstands := stands_exact q e
  rw [h] at hstands
  have hlow : (2 : ℚ) ^ 52 * 2 ^ t ≤ m * 2 ^ t ∨ t = -1074 := by
    refine hc.normal.imp_left fun hm => mul_le_mul_of_nonneg_right ?_ (le_of_lt hpow)
    exact_mod_cast hm
  have hhigh : (m : ℚ) * 2 ^ t < 2 ^ 53 * 2 ^ t := by
    refine mul_lt_mul_of_pos_right ?_ hpow
    exact_mod_cast hc.lt
  obtain ⟨em, hem, hrep⟩ := shiftToTargetExponent_eq hstands hlow hhigh hc.min he
  refine ⟨em, hem, Represents.mantissa_eq ?_⟩
  rwa [mul_div_assoc, div_self (ne_of_gt hpow), mul_one] at hrep

theorem roundWithAccuracy_of_shifts {s : Sign} {q m : ℕ} {e t t' : ℤ} {acc : Accuracy}
    {em em' : ExtendedMantissa} (h : shiftToTargetExponent Format.binary64 q e acc = (em, t))
    (h' : shiftToTargetExponent Format.binary64 em.roundedMantissa t .exact = (em', t'))
    (hm : em'.mantissa = m) (hpos : 0 < m) :
    roundWithAccuracy Format.binary64 s q e acc = .finite s m t' hpos := by
  subst hm
  simp only [roundWithAccuracy, h, h']
  rw [dif_neg (Nat.ne_of_gt hpos)]

/-- A number that is nearest to a double, yet below the normal mantissas of its exponent, lies just below
a power of two. -/
theorem Near.just_below {m : ℕ} {t : ℤ} {x : ℚ} (hx : Near x m t) (hc : Canonical m t)
    (hless : x < 2 ^ 52 * 2 ^ t) (hmin : -1074 < t) :
    m = 2 ^ 52 ∧ (2 ^ 53 - 1 / 2) * (2 : ℚ) ^ (t - 1) ≤ x ∧ x < 2 ^ 53 * (2 : ℚ) ^ (t - 1) := by
  have hhalf : (2 : ℚ) ^ (t - 1) = 2 ^ t / 2 := by
    rw [zpow_sub₀ (by norm_num), zpow_one]
  have hm : m = 2 ^ 52 := by
    have hnormal := hc.normal.resolve_right (ne_of_gt hmin)
    by_contra hne
    have hbig : (2 : ℚ) ^ 52 + 1 ≤ m := by exact_mod_cast Nat.lt_of_le_of_ne hnormal (Ne.symm hne)
    have hgap := lowGap_le m t
    have : (2 : ℚ) ^ 52 * 2 ^ t ≤ (m - lowGap m t) * 2 ^ t :=
      mul_le_mul_of_nonneg_right (by linarith) (le_of_lt (two_zpow_pos t))
    linarith [hx.1]
  have hgap : lowGap m t = 1 / 4 := if_pos ⟨hm, hmin⟩
  have hlow := hx.1
  rw [hgap, hm] at hlow
  push_cast at hlow
  rw [hhalf]
  exact ⟨hm, by linarith, by linarith⟩

/-- A number that is nearest to a double is rounded to it. -/
theorem roundWithAccuracy_near {s : Sign} {q m : ℕ} {e t : ℤ} {acc : Accuracy} {x : ℚ}
    (h : Stands q e acc x) (hc : Canonical m t) (hx : Near x m t) (he : e ≤ t)
    (hlow : x < 2 ^ 52 * 2 ^ t → -1074 < t → e < t) :
    roundWithAccuracy Format.binary64 s q e acc = .finite s m t hc.pos := by
  by_cases hsize : 2 ^ 52 * 2 ^ t ≤ x ∨ t = -1074
  · obtain ⟨em, hem, hrep⟩ := shiftToTargetExponent_eq h hsize (hx.lt hc) hc.min he
    have hround : em.roundedMantissa = m := hrep.roundedMantissa hx.roundsTo
    obtain ⟨em', hem', hm⟩ := shiftToTargetExponent_exact hc rfl (le_refl t)
    exact roundWithAccuracy_of_shifts hem (by rw [hround]; exact hem') hm hc.pos
  · -- The mantissa is rounded up to a power of two, and shifted again.
    rw [not_or, not_le] at hsize
    obtain ⟨hless, hmin⟩ := hsize
    have hlt : -1074 < t := lt_of_le_of_ne hc.min (Ne.symm hmin)
    obtain ⟨hm, hnear, hhigh⟩ := hx.just_below hc hless hlt
    have hlt' := hlow hless hlt
    have hpow : (0 : ℚ) < 2 ^ (t - 1) := two_zpow_pos _
    have hnormal : (2 : ℚ) ^ 52 * 2 ^ (t - 1) ≤ x :=
      le_trans (mul_le_mul_of_nonneg_right (by norm_num) (le_of_lt hpow)) hnear
    obtain ⟨em, hem, hrep⟩ := shiftToTargetExponent_eq h (.inl hnormal) hhigh (by omega) (by omega)
    have hround : em.roundedMantissa = 2 ^ 53 := by
      apply hrep.roundedMantissa
      rw [← le_div_iff₀ hpow] at hnear
      rw [← div_lt_iff₀ hpow] at hhigh
      refine ⟨by push_cast; exact hnear, by push_cast; linarith, fun hodd => ?_⟩
      norm_num at hodd
    have hshift : ((2 ^ 53 : ℕ) : ℚ) * 2 ^ (t - 1) = m * 2 ^ t := by
      rw [hm, zpow_sub₀ (by norm_num), zpow_one]
      push_cast
      ring
    obtain ⟨em', hem', hm'⟩ := shiftToTargetExponent_exact hc hshift (by omega)
    exact roundWithAccuracy_of_shifts hem (by rw [hround]; exact hem') hm' hc.pos

/-! ### Products and quotients -/

theorem mul_near {s₁ s₂ : Sign} {m₁ m₂ m : ℕ} {e₁ e₂ e : ℤ} {h₁ : 0 < m₁} {h₂ : 0 < m₂}
    (hc : Canonical m e) (hx : Near (m₁ * 2 ^ e₁ * (m₂ * 2 ^ e₂)) m e) (he : e₁ + e₂ < e) :
    mul Format.binary64 (.finite s₁ m₁ e₁ h₁) (.finite s₂ m₂ e₂ h₂) =
      .finite (s₁ * s₂) m e hc.pos := by
  have hvalue : (m₁ * 2 ^ e₁ * (m₂ * 2 ^ e₂) : ℚ) = (m₁ * m₂ : ℕ) * 2 ^ (e₁ + e₂) := by
    rw [zpow_add₀ (by norm_num)]
    push_cast
    ring
  rw [hvalue] at hx
  exact roundWithAccuracy_near (stands_exact _ _) hc hx (le_of_lt he) fun _ _ => he

/-- The remainder of a quotient says on which side of the half it lies. -/
theorem represents_quotient (n : ℕ) {d : ℕ} (hd : 0 < d) :
    Represents (ExtendedMantissa.ofMantissaAndAccuracy (n / d) (accuracyOfFraction (n % d) d))
      (n / d) := by
  have hdq : (0 : ℚ) < d := by exact_mod_cast hd
  have hdiv : (n : ℚ) = d * (n / d : ℕ) + (n % d : ℕ) := by exact_mod_cast (Nat.div_add_mod n d).symm
  have hx : (n : ℚ) / d = (n / d : ℕ) + (n % d : ℕ) / d := by
    rw [eq_comm, ← sub_eq_zero]
    field_simp
    linarith
  have hrem : ((n % d : ℕ) : ℚ) < d := by exact_mod_cast Nat.mod_lt n hd
  rw [hx]
  generalize hr : n % d = r at hrem ⊢
  generalize n / d = q
  unfold accuracyOfFraction
  split
  · rename_i hzero
    rw [hzero]
    change ((q : ℚ) + (0 : ℕ) / d) = q
    simp
  · rename_i hzero
    have hpos : (0 : ℚ) < r / d := by
      apply div_pos _ hdq
      exact_mod_cast Nat.pos_of_ne_zero hzero
    have hone : (r : ℚ) / d < 1 := by rwa [div_lt_one hdq]
    cases hcmp : compare (2 * r) d with
    | lt =>
      have hhalf : (r : ℚ) / d < 1 / 2 := by
        rw [div_lt_div_iff₀ hdq (by norm_num)]
        have : 2 * r < d := Nat.compare_eq_lt.1 hcmp
        have : (2 : ℚ) * r < d := by exact_mod_cast this
        linarith
      change (q : ℚ) < _ ∧ _ < (q : ℚ) + 1 / 2
      constructor <;> linarith
    | eq =>
      have hhalf : (r : ℚ) / d = 1 / 2 := by
        rw [div_eq_div_iff (ne_of_gt hdq) (by norm_num)]
        have : 2 * r = d := Nat.compare_eq_eq.1 hcmp
        have : (2 : ℚ) * r = d := by exact_mod_cast this
        linarith
      change _ = (q : ℚ) + 1 / 2
      rw [hhalf]
    | gt =>
      have hhalf : 1 / 2 < (r : ℚ) / d := by
        rw [div_lt_div_iff₀ (by norm_num) hdq]
        have : d < 2 * r := Nat.compare_eq_gt.1 hcmp
        have : (d : ℚ) < 2 * r := by exact_mod_cast this
        linarith
      change (q : ℚ) + 1 / 2 < _ ∧ _ < (q : ℚ) + 1
      constructor <;> linarith

/-- The sizes of the two sides of a quotient bound it from below. -/
theorem quotient_bounds {m₁ m₂ : ℕ} (e₁ e₂ : ℤ) (h₁ : 0 < m₁) (h₂ : 0 < m₂) :
    (2 : ℚ) ^ (totalExponent m₁ e₁ - totalExponent m₂ e₂ - 1) < m₁ * 2 ^ e₁ / (m₂ * 2 ^ e₂) := by
  obtain ⟨hlow, -⟩ := value_bounds e₁ h₁
  obtain ⟨-, hhigh⟩ := value_bounds e₂ h₂
  have hpos : (0 : ℚ) < m₂ * 2 ^ e₂ := mul_pos (by exact_mod_cast h₂) (two_zpow_pos e₂)
  have hlt : (m₂ * 2 ^ e₂ : ℚ) < 2 ^ totalExponent m₂ e₂ :=
    lt_of_lt_of_le (mul_lt_mul_of_pos_right (lt_add_one _) (two_zpow_pos e₂)) hhigh
  rw [lt_div_iff₀ hpos]
  calc (2 : ℚ) ^ (totalExponent m₁ e₁ - totalExponent m₂ e₂ - 1) * (m₂ * 2 ^ e₂)
      < 2 ^ (totalExponent m₁ e₁ - totalExponent m₂ e₂ - 1) * 2 ^ totalExponent m₂ e₂ :=
        mul_lt_mul_of_pos_left hlt (two_zpow_pos _)
    _ = 2 ^ (totalExponent m₁ e₁ - 1) := by
      rw [← zpow_add₀ (by norm_num)]
      congr 1
      ring
    _ ≤ m₁ * 2 ^ e₁ := hlow

/-- The quotient of the mantissas, the first one shifted, with its remainder stands for the quotient. -/
theorem stands_quotient {m₁ m₂ : ℕ} {e₁ e₂ t : ℤ} (h₂ : 0 < m₂) (ht : t ≤ e₁ - e₂) :
    Stands (m₁ <<< (e₁ - e₂ - t).toNat / m₂) t
      (accuracyOfFraction (m₁ <<< (e₁ - e₂ - t).toNat % m₂) m₂) (m₁ * 2 ^ e₁ / (m₂ * 2 ^ e₂)) := by
  have hvalue : (m₁ * 2 ^ e₁ / (m₂ * 2 ^ e₂) / 2 ^ t : ℚ) =
      (m₁ <<< (e₁ - e₂ - t).toNat : ℕ) / m₂ := by
    have hm₂ : (m₂ : ℚ) ≠ 0 := by exact_mod_cast Nat.ne_of_gt h₂
    have hpow : (2 : ℚ) ^ e₁ = 2 ^ (e₁ - e₂ - t).toNat * (2 ^ e₂ * 2 ^ t) := by
      rw [← zpow_add₀ (by norm_num), two_pow_mul_zpow]
      congr 1
      omega
    rw [Nat.shiftLeft_eq, hpow]
    push_cast
    field_simp
  rw [Stands, hvalue]
  exact represents_quotient _ h₂

theorem div_near {s₁ s₂ : Sign} {m₁ m₂ m : ℕ} {e₁ e₂ e : ℤ} {h₁ : 0 < m₁} {h₂ : 0 < m₂}
    (hc : Canonical m e) (hx : Near (m₁ * 2 ^ e₁ / (m₂ * 2 ^ e₂)) m e) :
    div Format.binary64 (.finite s₁ m₁ e₁ h₁) (.finite s₂ m₂ e₂ h₂) =
      .finite (s₁ / s₂) m e hc.pos := by
  have hbound := quotient_bounds e₁ e₂ h₁ h₂
  set size := totalExponent m₁ e₁ - totalExponent m₂ e₂ with hsize
  set t := min (e₁ - e₂) (Format.binary64.targetExponent size) with ht
  have htarget := targetExponent_binary64 size
  -- The exponent of the quotient is not above the exponent it is rounded to.
  have hle : t ≤ e := by
    have hlt := hx.lt hc
    rw [two_pow_mul_zpow] at hlt
    have h1 := exponent_lt (le_of_lt hbound) hlt
    have hmin := hc.min
    push_cast at h1
    omega
  have hlt : (m₁ * 2 ^ e₁ / (m₂ * 2 ^ e₂) : ℚ) < 2 ^ 52 * 2 ^ e → -1074 < e → t < e := by
    intro hless hmin
    rw [two_pow_mul_zpow] at hless
    have h1 := exponent_lt (le_of_lt hbound) hless
    push_cast at h1
    omega
  exact roundWithAccuracy_near (stands_quotient h₂ (by omega)) hc hx hle hlt

end GridQuery.Number
