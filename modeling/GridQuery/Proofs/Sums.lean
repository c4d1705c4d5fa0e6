import GridQuery.Proofs.Doubles

/-!
Sums and quotients of doubles. A zero in front of a number and a one below it leave the number as it is, but
for the negative zero, which loses its sign behind a zero. A sum that begins with zero never comes to the
negative zero, so a zero in front of such a sum changes nothing.
-/

namespace GridQuery.Number
set_option autoImplicit false

open Float.Model Float.Model.UnpackedFloat

/-! ### Kinds of doubles -/

theorem toNat_unpackExponent (b : BitVec 64) :
    (@unpackExponent Format.binary64 b).toNat = b.toNat / 2 ^ 52 % 2 ^ 11 := by
  simp only [unpackExponent, BitVec.toNat_cast, BitVec.extractLsb_toNat, Nat.shiftRight_eq_div_pow]

theorem toNat_unpackMantissa (b : BitVec 64) :
    (@unpackMantissa Format.binary64 b).toNat = b.toNat % 2 ^ 52 := by
  simp only [unpackMantissa, BitVec.toNat_cast, BitVec.extractLsb_toNat, Nat.shiftRight_zero]

/-- What is not a number is one double. -/
theorem eq_notANumber {x : Float} (h : parts x = .notANumber) : x = 0.0 / 0.0 := by
  obtain ⟨⟨b, hvalid⟩⟩ := x
  have hfields : b.toNat / 2 ^ 52 % 2 ^ 11 = 2047 ∧ b.toNat % 2 ^ 52 ≠ 0 := by
    simp only [parts] at h
    split at h
    · rename_i hfield
      split at h
      · cases h
      · rename_i hfraction
        exact ⟨hfield, hfraction⟩
    · split at h <;> cases h
  have hexponent : @unpackExponent Format.binary64 b.toBitVec = -1#_ := by
    apply BitVec.eq_of_toNat_eq
    exact (toNat_unpackExponent b.toBitVec).trans hfields.1
  have hmantissa : @unpackMantissa Format.binary64 b.toBitVec ≠ 0#_ := by
    intro hzero
    apply hfields.2
    exact (toNat_unpackMantissa b.toBitVec).symm.trans (congrArg BitVec.toNat hzero)
  have hbits := hvalid.eq_packedNaN hexponent hmantissa
  apply float_ext
  exact congrArg BitVec.toNat hbits

theorem eq_infinite {x : Float} {negative : Bool} (h : parts x = .infinite negative) :
    x = signed negative (1.0 / 0.0) := by
  have hlt : x.toBits.toNat < 2 ^ 64 := x.toBits.toNat_lt
  have hfields : x.toBits.toNat / 2 ^ 52 % 2 ^ 11 = 2047 ∧ x.toBits.toNat % 2 ^ 52 = 0 ∧
      decide (2 ^ 63 ≤ x.toBits.toNat) = negative := by
    simp only [parts] at h
    split at h
    · rename_i hfield
      split at h
      · rename_i hfraction
        exact ⟨hfield, hfraction, Parts.infinite.inj h⟩
      · cases h
    · split at h <;> cases h
  obtain ⟨hfield, hfraction, rfl⟩ := hfields
  apply float_ext
  by_cases hsign : 2 ^ 63 ≤ x.toBits.toNat
  · have hbits : (signed true (1.0 / 0.0)).toBits.toNat = 2 ^ 63 + 2047 * 2 ^ 52 := by decide +kernel
    rw [decide_eq_true hsign, hbits]
    omega
  · have hbits : (signed false (1.0 / 0.0)).toBits.toNat = 2047 * 2 ^ 52 := by decide +kernel
    rw [decide_eq_false hsign, hbits]
    omega

theorem eq_signed_zero {x : Float} {negative : Bool} {e : ℤ} (h : parts x = .finite negative 0 e) :
    x = signed negative 0.0 := by
  obtain ⟨hbits, -⟩ := toNat_toBits_of_parts h
  have hsmall : 0 < 2 ^ 52 := by norm_num
  apply float_ext
  rw [hbits, if_pos hsmall]
  cases negative with
  | false => decide +kernel
  | true => decide +kernel

/-- The kinds of doubles: what is not a number, infinities, zeros, and the others. -/
inductive Kind : Float → Prop where
  | notANumber : Kind (0.0 / 0.0)
  | infinite (negative : Bool) : Kind (signed negative (1.0 / 0.0))
  | zero (negative : Bool) : Kind (signed negative 0.0)
  | other (negative : Bool) {m : ℕ} {e : ℤ} (hc : Canonical m e) (he : e ≤ 971) : Kind (double negative m e hc.pos)

theorem kind (x : Float) : Kind x := by
  cases h : parts x with
  | notANumber =>
    rw [eq_notANumber h]
    exact .notANumber
  | infinite negative =>
    rw [eq_infinite h]
    exact .infinite negative
  | finite negative m e =>
    rcases Nat.eq_zero_or_pos m with rfl | hm
    · rw [eq_signed_zero h]
      exact .zero negative
    · obtain ⟨hc, he, rfl⟩ := eq_double h hm
      exact .other negative hc he

/-! ### A zero in front, a one below -/

theorem add_def (x y : Float) :
    x + y = .ofModel (Float.Model.pack (UnpackedFloat.add Format.binary64 x.toModel.unpack y.toModel.unpack)) :=
  rfl

theorem div_def (x y : Float) :
    x / y = .ofModel (Float.Model.pack (UnpackedFloat.div Format.binary64 x.toModel.unpack y.toModel.unpack)) :=
  rfl

theorem double_ne_negativeZero (negative : Bool) {m : ℕ} {e : ℤ} (hc : Canonical m e) (he : e ≤ 971) :
    double negative m e hc.pos ≠ -0.0 := by
  intro h
  have hbits := congrArg (fun x => x.toBits.toNat) h
  have hzero : (-0.0 : Float).toBits.toNat = 2 ^ 63 := by decide +kernel
  simp only [toNat_toBits_double negative hc he, hzero] at hbits
  obtain ⟨hpos, hlt, hmin, hnormal⟩ := hc
  split at hbits <;> split at hbits <;> omega

/-- Only the negative zero is changed by a zero in front. -/
theorem behind_zero_iff {x : Float} : 0.0 + x = x ↔ x ≠ -0.0 := by
  cases kind x with
  | notANumber => decide +kernel
  | infinite negative => cases negative <;> decide +kernel
  | zero negative => cases negative <;> decide +kernel
  | @other negative m e hc he =>
    have hzero : (0.0 : Float).toModel.unpack = .zero .positive := rfl
    have hne := double_ne_negativeZero negative hc he
    refine ⟨fun _ => hne, fun _ => ?_⟩
    rw [add_def, hzero, unpack_double negative hc he]
    rfl

theorem over_one (x : Float) : x / 1.0 = x := by
  cases kind x with
  | notANumber => decide +kernel
  | infinite negative => cases negative <;> decide +kernel
  | zero negative => cases negative <;> decide +kernel
  | @other negative m e hc he =>
    have hone : (1.0 : Float).toModel.unpack = .finite .positive (2 ^ 52) (-52) (Nat.two_pow_pos 52) := rfl
    have hvalue : (m : ℚ) * 2 ^ e / ((2 ^ 52 : ℕ) * 2 ^ (-52 : ℤ)) = m * 2 ^ e := by
      have hunit : (((2 ^ 52 : ℕ) : ℚ) * 2 ^ (-52 : ℤ)) = 1 := by norm_num
      rw [hunit, div_one]
    have hnear : Near ((m : ℚ) * 2 ^ e / ((2 ^ 52 : ℕ) * 2 ^ (-52 : ℤ))) m e := by
      rw [hvalue]
      exact near_self m e
    have hsign : signOf negative / .positive = signOf negative := by cases negative <;> rfl
    rw [div_def, unpack_double negative hc he, hone, div_near hc hnear, hsign]
    rfl

/-! ### Sums -/

/-- A mantissa with further bits is rounded to itself or to the next one. -/
theorem roundedMantissa_bounds (em : ExtendedMantissa) :
    em.mantissa ≤ em.roundedMantissa ∧ em.roundedMantissa ≤ em.mantissa + 1 := by
  obtain ⟨m, r, s⟩ := em
  have hpar := Nat.mod_lt m (by norm_num : 2 > 0)
  cases r <;> cases s
  all_goals
    simp only [ExtendedMantissa.roundedMantissa, ExtendedMantissa.accuracy, Accuracy.roundToNearestEven]
    omega

/-- The size of a number in front of the power that it is rounded to. -/
theorem target_bounds {q : ℕ} {e t : ℤ} (hq : 0 < q) (ht : t = max (totalExponent q e - 53) (-1074)) :
    (2 ^ 52 * 2 ^ t ≤ (q * 2 ^ e : ℚ) ∨ t = -1074) ∧ (q * 2 ^ e : ℚ) < 2 ^ 53 * 2 ^ t := by
  obtain ⟨hlow, hhigh⟩ := value_bounds e hq
  constructor
  · rcases le_total (totalExponent q e - 53) (-1074) with hsmall | hnormal
    · right
      rw [ht, max_eq_right hsmall]
    · left
      have hexponent : ((52 : ℕ) : ℤ) + t = totalExponent q e - 1 := by
        rw [ht, max_eq_left hnormal]
        push_cast
        ring
      rw [two_pow_mul_zpow, hexponent]
      exact hlow
  · have hnext : (q * 2 ^ e : ℚ) < (q + 1) * 2 ^ e := by
      apply mul_lt_mul_of_pos_right _ (two_zpow_pos e)
      linarith
    have hexponent : totalExponent q e ≤ ((53 : ℕ) : ℤ) + t := by
      push_cast
      omega
    rw [two_pow_mul_zpow]
    calc (q * 2 ^ e : ℚ) < (q + 1) * 2 ^ e := hnext
      _ ≤ 2 ^ totalExponent q e := hhigh
      _ ≤ 2 ^ (((53 : ℕ) : ℤ) + t) := zpow_le_zpow_right₀ (by norm_num) hexponent

/-- Rounding a mantissa to 53 bits carries at most into the next power. -/
theorem roundWithAccuracy_of_shift {s : Sign} {q : ℕ} {e t : ℤ} {em : ExtendedMantissa}
    (h : shiftToTargetExponent Format.binary64 q e .exact = (em, t)) (hem : Canonical em.mantissa t) :
    ∃ (m : ℕ) (t' : ℤ) (hc : Canonical m t'), t ≤ t' ∧
      roundWithAccuracy Format.binary64 s q e .exact = .finite s m t' hc.pos := by
  obtain ⟨hlow, hhigh⟩ := roundedMantissa_bounds em
  obtain ⟨hpos, hlt, hmin, hnormal⟩ := hem
  by_cases hcarry : em.roundedMantissa < 2 ^ 53
  · have hc : Canonical em.roundedMantissa t := ⟨by omega, hcarry, hmin, by omega⟩
    obtain ⟨em', hem', hm⟩ := shiftToTargetExponent_exact hc rfl (le_refl t)
    exact ⟨_, t, hc, le_refl t, roundWithAccuracy_of_shifts h hem' hm hc.pos⟩
  · have hc : Canonical (2 ^ 52) (t + 1) := ⟨by norm_num, by norm_num, by omega, .inl (le_refl _)⟩
    have hvalue : (em.roundedMantissa : ℚ) * 2 ^ t = (2 ^ 52 : ℕ) * 2 ^ (t + 1) := by
      have hfull : em.roundedMantissa = 2 ^ 53 := by omega
      rw [hfull, zpow_add₀ (by norm_num)]
      push_cast
      ring
    obtain ⟨em', hem', hm⟩ := shiftToTargetExponent_exact hc hvalue (by omega)
    exact ⟨_, t + 1, hc, by omega, roundWithAccuracy_of_shifts h hem' hm hc.pos⟩

/-- Shifting a number that does not vanish to its place gives the mantissa of a double. -/
theorem shift_canonical {q : ℕ} {e t : ℤ} {x : ℚ} (h : Stands q e .exact x)
    (hlow : 2 ^ 52 * 2 ^ t ≤ x ∨ t = -1074) (hhigh : x < 2 ^ 53 * 2 ^ t) (ht : -1074 ≤ t) (he : e ≤ t)
    (hx : 2 ^ t ≤ x) :
    ∃ em, shiftToTargetExponent Format.binary64 q e .exact = (em, t) ∧ Canonical em.mantissa t := by
  have hpow : (0 : ℚ) < 2 ^ t := two_zpow_pos t
  obtain ⟨em, hem, hrep⟩ := shiftToTargetExponent_eq h hlow hhigh ht he
  obtain ⟨hle, hlt⟩ := hrep.bounds
  rw [le_div_iff₀ hpow] at hle
  rw [div_lt_iff₀ hpow] at hlt
  refine ⟨em, hem, ?_⟩
  have hless : em.mantissa < 2 ^ 53 := by
    exact_mod_cast lt_of_mul_lt_mul_right (lt_of_le_of_lt hle hhigh) (le_of_lt hpow)
  rcases hlow with hfull | hleast
  · have hmore : 2 ^ 52 < em.mantissa + 1 := by
      exact_mod_cast lt_of_mul_lt_mul_right (lt_of_le_of_lt hfull hlt) (le_of_lt hpow)
    exact ⟨by omega, hless, ht, .inl (by omega)⟩
  · have hmore : 1 < em.mantissa + 1 := by
      rw [← one_mul ((2 : ℚ) ^ t)] at hx
      exact_mod_cast lt_of_mul_lt_mul_right (lt_of_le_of_lt hx hlt) (le_of_lt hpow)
    exact ⟨by omega, hless, ht, .inr hleast⟩

/-- What is rounded is not zero, if it stands in front of a power that a double can have. -/
theorem round_canonical (s : Sign) {q : ℕ} {e : ℤ} (hq : 0 < q) (he : -1074 ≤ e) :
    ∃ (m : ℕ) (t : ℤ) (hc : Canonical m t), UnpackedFloat.round Format.binary64 s q e = .finite s m t hc.pos := by
  obtain ⟨t, ht⟩ : ∃ t, t = max (totalExponent q e - 53) (-1074) := ⟨_, rfl⟩
  obtain ⟨k, hk⟩ : ∃ k, k = (e - t).toNat := ⟨_, rfl⟩
  obtain ⟨hlow, hhigh⟩ := target_bounds hq ht
  have hstands : Stands (q <<< k) (e - k) .exact (q * 2 ^ e) := by
    have hvalue : ((q <<< k : ℕ) : ℚ) * 2 ^ (e - k) = q * 2 ^ e := by
      rw [Nat.shiftLeft_eq]
      push_cast
      rw [mul_assoc, two_pow_mul_zpow]
      congr 2
      ring
    rw [← hvalue]
    exact stands_exact _ _
  have hx : (2 : ℚ) ^ t ≤ q * 2 ^ e := by
    rcases hlow with hfull | hleast
    · exact le_trans (le_mul_of_one_le_left (le_of_lt (two_zpow_pos t)) (by norm_num)) hfull
    · have hpowers : (2 : ℚ) ^ t ≤ 2 ^ e := zpow_le_zpow_right₀ (by norm_num) (by omega)
      have hcount : (1 : ℚ) ≤ q := by exact_mod_cast hq
      exact le_trans hpowers (le_mul_of_one_le_left (le_of_lt (two_zpow_pos e)) hcount)
  obtain ⟨em, hem, hc⟩ := shift_canonical hstands hlow hhigh (by omega) (by omega) hx
  have hround : UnpackedFloat.round Format.binary64 s q e =
      roundWithAccuracy Format.binary64 s (q <<< k) (e - k) .exact := by
    rw [hk, ht]
    rfl
  obtain ⟨m, t', hc', -, hresult⟩ := roundWithAccuracy_of_shift (s := s) hem hc
  exact ⟨m, t', hc', hround.trans hresult⟩

/-- What a sum is that begins with zero: any double but the negative zero. -/
inductive Total : UnpackedFloat → Prop where
  | notANumber : Total .notANumber
  | infinity (s : Sign) : Total (.infinity s)
  | zero : Total (.zero .positive)
  | finite (s : Sign) {m : ℕ} {e : ℤ} (hc : Canonical m e) : Total (.finite s m e hc.pos)

theorem total_unpack_or (x : Float) : Total x.toModel.unpack ∨ x.toModel.unpack = .zero .negative ∧ x = -0.0 := by
  cases kind x with
  | notANumber => exact .inl .notANumber
  | infinite negative =>
    cases negative with
    | false => exact .inl (.infinity .positive)
    | true => exact .inl (.infinity .negative)
  | zero negative =>
    cases negative with
    | false => exact .inl .zero
    | true => exact .inr ⟨rfl, rfl⟩
  | other negative hc he =>
    rw [unpack_double negative hc he]
    exact .inl (.finite (signOf negative) hc)

theorem total_normalize (mantissa : ℤ) {e : ℤ} (he : -1074 ≤ e) :
    Total (UnpackedFloat.normalize Format.binary64 mantissa e .positive) := by
  have hround (s : Sign) {q : ℕ} (hq : 0 < q) : Total (UnpackedFloat.round Format.binary64 s q e) := by
    obtain ⟨m, t, hc, h⟩ := round_canonical s hq he
    rw [h]
    exact .finite s hc
  unfold UnpackedFloat.normalize
  rcases Int.lt_trichotomy mantissa 0 with hneg | hzero | hpos
  · rw [Int.compare_eq_lt.mpr hneg]
    exact hround .negative (by omega)
  · rw [Int.compare_eq_eq.mpr hzero]
    exact .zero
  · rw [Int.compare_eq_gt.mpr hpos]
    exact hround .positive (by omega)

/-- One more number does not bring a sum to the negative zero. -/
theorem Total.add {x y : UnpackedFloat} (hx : Total x) (hy : Total y ∨ y = .zero .negative) :
    Total (UnpackedFloat.add Format.binary64 x y) := by
  cases hx with
  | notANumber => exact .notANumber
  | infinity s =>
    rcases hy with hy | rfl
    · cases hy with
      | notANumber => exact .notANumber
      | infinity s' =>
        -- infinities of two signs have no sum
        cases s <;> cases s' <;> first | exact .infinity _ | exact .notANumber
      | zero | finite => exact .infinity s
    · exact .infinity s
  | zero =>
    rcases hy with hy | rfl
    · cases hy with
      | notANumber => exact .notANumber
      | infinity s' => exact .infinity s'
      | zero => exact .zero
      | finite s' hc' => exact .finite s' hc'
    · exact .zero
  | finite s hc =>
    rcases hy with hy | rfl
    · cases hy with
      | notANumber => exact .notANumber
      | infinity s' => exact .infinity s'
      | zero => exact .finite s hc
      | finite s' hc' => exact total_normalize _ (le_min hc.min hc'.min)
    · exact .finite s hc

/-- A whole number of more than 53 bits is rounded to a double that is whole, or to what is too large for one. -/
theorem ofScientific_large {c : ℕ} (h : 2 ^ 53 ≤ c) :
    ∃ (m : ℕ) (e : ℤ) (hc : Canonical m e), 0 ≤ e ∧ Float.ofScientific c false 0 = double false m e hc.pos := by
  have hpos : 0 < c := by omega
  have hlog : 53 ≤ c.log2 := (Nat.le_log2 (Nat.ne_of_gt hpos)).2 h
  obtain ⟨t, ht⟩ : ∃ t : ℕ, c.log2 = 52 + t := ⟨c.log2 - 52, by omega⟩
  have hlow : (2 : ℚ) ^ 52 * 2 ^ (t : ℤ) ≤ c := by
    rw [zpow_natCast, ← pow_add, ← ht]
    exact_mod_cast Nat.log2_self_le (Nat.ne_of_gt hpos)
  have hhigh : (c : ℚ) < 2 ^ 53 * 2 ^ (t : ℤ) := by
    have hnext : 53 + t = c.log2 + 1 := by omega
    rw [zpow_natCast, ← pow_add, hnext]
    exact_mod_cast Nat.lt_log2_self
  have hplace : (2 : ℚ) ^ (t : ℤ) ≤ c :=
    le_trans (le_mul_of_one_le_left (le_of_lt (two_zpow_pos _)) (by norm_num)) hlow
  have hstands : Stands (c <<< 53 * 10 ^ 0) (-53 + 0) .exact c := by
    have hvalue : ((c <<< 53 * 10 ^ 0 : ℕ) : ℚ) * 2 ^ (-53 + 0 : ℤ) = c := by
      rw [pow_zero, mul_one, add_zero, Nat.shiftLeft_eq]
      exact value_whole 53
    have hexact := stands_exact (c <<< 53 * 10 ^ 0) (-53 + 0)
    rwa [hvalue] at hexact
  obtain ⟨em, hem, hc⟩ := shift_canonical hstands (.inl hlow) hhigh (by omega) (by omega) hplace
  obtain ⟨m, e, hc', hle, hround⟩ := roundWithAccuracy_of_shift (s := .positive) hem hc
  refine ⟨m, e, hc', by omega, ?_⟩
  have hsmall : ¬(0 : ℤ) < -((2 ^ Format.binary64.exponentBits : ℤ) + c.log2) := by
    have : (0 : ℤ) ≤ 2 ^ Format.binary64.exponentBits + (c.log2 : ℤ) := by positivity
    omega
  have hmodel : UnpackedFloat.ofScientific Format.binary64 c 0 = .finite .positive m e hc'.pos := by
    rw [UnpackedFloat.ofScientific, dif_neg (Nat.ne_of_gt hpos), if_neg (by decide), if_neg hsmall,
      if_pos (le_refl 0)]
    exact hround
  rw [Float.ofScientific, dif_neg (by omega)]
  exact congrArg (fun u => Float.ofModel (Float.Model.pack u)) hmodel

/-- A number beyond the largest double is packed to an infinity. -/
theorem pack_of_large (s : Sign) {m : ℕ} {e : ℤ} (hm : 0 < m) (he : 971 < e) :
    UnpackedFloat.pack Format.binary64 (.finite s m e hm) = packedInfinity Format.binary64 s := by
  have hlarge : 2 ^ Format.binary64.exponentBits ≤
      (e + Format.binary64.exponentBias + Format.binary64.mantissaBitsWithoutImplicit).toNat + 1 := by
    change 2 ^ 11 ≤ (e + 1023 + 52).toNat + 1
    omega
  simp only [UnpackedFloat.pack]
  rw [if_pos hlarge]

theorem Total.pack_ne {x : UnpackedFloat} (hx : Total x) : Float.ofModel (Float.Model.pack x) ≠ -0.0 := by
  cases hx with
  | notANumber => decide +kernel
  | infinity s => cases s <;> decide +kernel
  | zero => decide +kernel
  | @finite s m e hc =>
    by_cases he : e ≤ 971
    · cases s with
      | positive => exact double_ne_negativeZero false hc he
      | negative => exact double_ne_negativeZero true hc he
    · intro h
      have hbits := congrArg (fun x => x.toBits.toNat) h
      change (UInt64.ofBitVec (UnpackedFloat.pack Format.binary64 (.finite s m e hc.pos))).toNat = _ at hbits
      rw [pack_of_large s hc.pos (by omega)] at hbits
      cases s <;> exact absurd hbits (by decide +kernel)

theorem add_ne_negativeZero {x : Float} (hx : x ≠ -0.0) (y : Float) : x + y ≠ -0.0 := by
  have htotal : Total x.toModel.unpack := (total_unpack_or x).resolve_right fun h => hx h.2
  rw [add_def]
  exact (htotal.add ((total_unpack_or y).imp_right And.left)).pack_ne

/-- A sum that begins with zero is not changed by a zero in front. -/
theorem zero_add_foldl {α : Type} (term : α → Float) (items : List α) :
    0.0 + items.foldl (fun total a => total + term a) 0.0 = items.foldl (fun total a => total + term a) 0.0 := by
  have hrun : ∀ total : Float, total ≠ -0.0 → items.foldl (fun total a => total + term a) total ≠ -0.0 := by
    induction items with
    | nil =>
      intro total h
      exact h
    | cons a items ih =>
      intro total h
      exact ih _ (add_ne_negativeZero h (term a))
  apply behind_zero_iff.mpr
  apply hrun
  decide +kernel

end GridQuery.Number
