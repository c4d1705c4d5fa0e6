import GridQuery.Number.Numeral
import GridQuery.Proofs.Sums

/-!
What is not a number among the doubles. Packing, rounding and the reading of decimals never lead to it, so of the
texts that read as a double only its own word does: `nan`, in letters of either case, behind a sign or none. It is
the one double that is not equal to itself.
-/

namespace GridQuery.Number
set_option autoImplicit false

open Float.Model Float.Model.UnpackedFloat

/-! ### Packed doubles -/

/-- The parts of a double by its fields. -/
theorem notANumber_iff_fields {x : Float} {s : Sign} {ex : BitVec 11} {ma : BitVec 52}
    (h : x.toBits.toNat = (packComponents Format.binary64 s ex ma).toNat) :
    parts x = .notANumber ↔ ex.toNat = 2047 ∧ ma.toNat ≠ 0 := by
  have hex := ex.isLt
  have hma := ma.isLt
  rw [toNat_packComponents] at h
  have hfield : x.toBits.toNat / twoPow 52 % twoPow 11 = ex.toNat := by
    rw [h, twoPow_eq, twoPow_eq]
    omega
  have hfraction : x.toBits.toNat % twoPow 52 = ma.toNat := by
    rw [h, twoPow_eq]
    omega
  simp only [parts, hfield, hfraction]
  by_cases hspecial : ex.toNat = 2047
  · by_cases hzero : ma.toNat = 0 <;> simp [hspecial, hzero]
  · rw [if_neg hspecial]
    split <;> simp [hspecial]

theorem notANumber_iff {x : Float} : parts x = .notANumber ↔ x = 0.0 / 0.0 := by
  refine ⟨eq_notANumber, ?_⟩
  rintro rfl
  have hbits : (0.0 / 0.0 : Float).toBits.toNat = (packedNaN Format.binary64).toNat := by decide +kernel
  exact (notANumber_iff_fields hbits).mpr (by decide)

/-- The fields of any other double are those of an infinity, or the exponent is below its largest. -/
theorem exists_fields {u : UnpackedFloat} (h : u ≠ .notANumber) :
    ∃ (s : Sign) (ex : BitVec 11) (ma : BitVec 52),
      UnpackedFloat.pack Format.binary64 u = packComponents Format.binary64 s ex ma ∧
        (ex.toNat ≠ 2047 ∨ ma.toNat = 0) := by
  cases u with
  | notANumber => exact absurd rfl h
  | infinity s => exact ⟨s, _, _, rfl, .inr rfl⟩
  | zero s => exact ⟨s, _, _, rfl, .inr rfl⟩
  | finite s m e hm =>
    simp only [UnpackedFloat.pack]
    split
    · exact ⟨s, _, _, rfl, .inr rfl⟩
    · rename_i hsmall
      split
      · have hfit : (e + Format.binary64.exponentBias +
            Format.binary64.mantissaBitsWithoutImplicit).toNat + 1 < 2 ^ 11 :=
          Nat.lt_of_not_le hsmall
        refine ⟨s, _, _, rfl, .inl ?_⟩
        rw [BitVec.toNat_ofNat, Nat.mod_eq_of_lt (by omega)]
        omega
      · exact ⟨s, _, _, rfl, .inl (by decide)⟩

theorem parts_pack_ne {u : UnpackedFloat} (h : u ≠ .notANumber) :
    parts (.ofModel (Float.Model.pack u)) ≠ .notANumber := by
  obtain ⟨s, ex, ma, hpack, hfields⟩ := exists_fields h
  have hbits : (Float.ofModel (Float.Model.pack u)).toBits.toNat = (packComponents Format.binary64 s ex ma).toNat :=
    congrArg BitVec.toNat hpack
  rw [Ne, notANumber_iff_fields hbits]
  exact fun hnan => hfields.elim (fun hne => hne hnan.1) hnan.2

theorem neg_notANumber_iff (x : Float) : parts (-x) = .notANumber ↔ parts x = .notANumber := by
  cases kind x with
  | notANumber => exact iff_of_true (notANumber_iff.mpr (by decide +kernel)) (notANumber_iff.mpr rfl)
  | infinite negative =>
    rw [notANumber_iff, notANumber_iff]
    cases negative <;> decide +kernel
  | zero negative =>
    rw [notANumber_iff, notANumber_iff]
    cases negative <;> decide +kernel
  | @other negative m e hc he =>
    have hneg : -double negative m e hc.pos = .ofModel (Float.Model.pack (.finite (-signOf negative) m e hc.pos)) := by
      change Float.ofModel (Float.Model.pack (double negative m e hc.pos).toModel.unpack.neg) = _
      rw [unpack_double negative hc he]
      rfl
    rw [hneg]
    exact iff_of_false (parts_pack_ne nofun) (parts_pack_ne nofun)

/-! ### Rounded doubles -/

theorem roundWithAccuracy_ne (s : Sign) (m : ℕ) (e : ℤ) (acc : Accuracy) :
    roundWithAccuracy Format.binary64 s m e acc ≠ .notANumber := by
  unfold roundWithAccuracy
  simp only
  split <;> exact nofun

theorem ofScientific_model_ne (c : ℕ) (e : ℤ) : UnpackedFloat.ofScientific Format.binary64 c e ≠ .notANumber := by
  unfold UnpackedFloat.ofScientific
  repeat' split
  · exact nofun
  · exact nofun
  · exact nofun
  · exact roundWithAccuracy_ne _ _ _ _
  · exact roundWithAccuracy_ne _ _ _ _

/-- A whole number of at most 53 bits and a power of ten from the table are finite, so their product and their
quotient are rounded. -/
theorem tabled_ne {c : ℕ} (hc : c < 2 ^ 53) (k : Fin 23) :
    UnpackedFloat.mul Format.binary64 c.toUInt64.toFloat.toModel.unpack (tabled k).toModel.unpack ≠ .notANumber ∧
      UnpackedFloat.div Format.binary64 c.toUInt64.toFloat.toModel.unpack (tabled k).toModel.unpack ≠
        .notANumber := by
  obtain ⟨m, e, hm, -, hk⟩ := unpack_tabled k
  rw [hk]
  rcases Nat.eq_zero_or_pos c with rfl | hpos
  · have hzero : (0 : ℕ).toUInt64.toFloat.toModel.unpack = .zero .positive := by rfl
    rw [hzero]
    exact ⟨nofun, nofun⟩
  · rw [unpack_toFloat hpos hc]
    exact ⟨roundWithAccuracy_ne _ _ _ _, roundWithAccuracy_ne _ _ _ _⟩

theorem ofScientific_ne (c : ℕ) (negative : Bool) (k : ℕ) :
    parts (Float.ofScientific c negative k) ≠ .notANumber := by
  unfold Float.ofScientific
  split
  · rename_i h
    obtain ⟨hmul, hdiv⟩ := tabled_ne h.1 ⟨k, Nat.lt_succ_of_le h.2⟩
    cases negative with
    | true => exact parts_pack_ne hdiv
    | false => exact parts_pack_ne hmul
  · exact parts_pack_ne (ofScientific_model_ne _ _)

theorem ofInt_ne (n : ℤ) : parts (Float.ofInt n) ≠ .notANumber := by
  cases n with
  | ofNat n => exact ofScientific_ne n false 0
  | negSucc n =>
    change parts (-Float.ofNat (n + 1)) ≠ .notANumber
    rw [Ne, neg_notANumber_iff]
    exact ofScientific_ne (n + 1) false 0

/-! ### Read doubles -/

theorem nearest_ne (c : ℕ) (e : ℤ) : parts (nearest c e) ≠ .notANumber := by
  unfold nearest
  simp only
  repeat' split
  · exact ofScientific_ne 0 true 1
  · rw [Ne, notANumber_iff]
    decide +kernel
  · exact ofScientific_ne _ _ _
  · exact ofScientific_ne _ _ _

theorem unsigned?_ne {cs : List Char} {x : Float} (h : unsigned? cs = some x) : parts x ≠ .notANumber := by
  unfold unsigned? at h
  extract_lets whole afterWhole at h
  split at h
  rename_i fraction rest _
  split at h
  · cases h
  · split at h
    · obtain rfl := Option.some.inj h
      exact nearest_ne _ _
    · split at h
      · obtain ⟨e, -, rfl⟩ := Option.map_eq_some_iff.mp h
        exact nearest_ne _ _
      · cases h

theorem signed_notANumber_iff (negative : Bool) (x : Float) :
    parts (signed negative x) = .notANumber ↔ parts x = .notANumber := by
  cases negative with
  | true => exact neg_notANumber_iff x
  | false => exact Iff.rfl

def nanWord : List Char :=
  ['n', 'a', 'n']

/-- The word for what is not a number, behind a sign or none. -/
def nanTexts : List (List Char) :=
  [nanWord, '-' :: nanWord, '+' :: nanWord]

/-- What is no letter comes from itself alone. -/
theorem eq_of_toLower_eq {c d : Char} (h : c.toLower = d) (hd : d.isAlpha = false) : c = d := by
  have hc : c.isAlpha = false := by rw [← Char.isAlpha_toLower_eq_isAlpha, h, hd]
  have hupper : ¬c.isUpper := fun hupper => by simp [Char.isAlpha, hupper] at hc
  rw [← h, Char.toLower_eq_of_not_isUpper hupper]

theorem not_isDigit_of_isAlpha {c : Char} (h : c.isAlpha = true) : c.isDigit = false := by
  rw [Bool.eq_false_iff]
  intro hdigit
  simp only [Char.isAlpha, Char.isUpper, Char.isLower, Char.isDigit, Bool.or_eq_true, Bool.and_eq_true,
    decide_eq_true_eq, UInt32.le_iff_toNat_le] at h hdigit
  simp at h hdigit
  omega

theorem unsigned?_of_nanWord {cs : List Char} (h : cs.map Char.toLower = nanWord) : unsigned? cs = none := by
  cases cs with
  | nil => cases h
  | cons c rest =>
    have hletter : c.isAlpha = true := by
      rw [← Char.isAlpha_toLower_eq_isAlpha, (List.cons.inj h).1]
      decide
    have hpoint : c ≠ '.' := by
      rintro rfl
      exact absurd hletter (by decide)
    unfold unsigned?
    simp [not_isDigit_of_isAlpha hletter, hpoint]

theorem word?_notANumber_iff {cs : List Char} :
    (∃ x, word? cs = some x ∧ parts x = .notANumber) ↔ cs.map Char.toLower = nanWord := by
  constructor
  · rintro ⟨x, hx, hnan⟩
    unfold word? at hx
    simp only at hx
    split at hx
    · cases hx
      exact absurd (notANumber_iff.mp hnan) (by decide +kernel)
    · split at hx
      · rename_i hword
        exact hword
      · cases hx
  · intro h
    refine ⟨0.0 / 0.0, ?_, notANumber_iff.mpr rfl⟩
    simp [word?, h, nanWord]

theorem unsigned?_or_word?_notANumber_iff {cs : List Char} :
    (∃ x, (unsigned? cs).or (word? cs) = some x ∧ parts x = .notANumber) ↔ cs.map Char.toLower = nanWord := by
  cases hunsigned : unsigned? cs with
  | none => exact word?_notANumber_iff
  | some y =>
    constructor
    · rintro ⟨x, hx, hnan⟩
      obtain rfl : y = x := Option.some.inj hx
      exact absurd hnan (unsigned?_ne hunsigned)
    · intro h
      rw [unsigned?_of_nanWord h] at hunsigned
      cases hunsigned

theorem map_signed_notANumber_iff {negative : Bool} {y? : Option Float} :
    (∃ x, y?.map (signed negative) = some x ∧ parts x = .notANumber) ↔
      ∃ y, y? = some y ∧ parts y = .notANumber := by
  cases y? with
  | none => simp
  | some y => simp [signed_notANumber_iff]

/-- The texts that are read as what is not a number. -/
theorem read?_notANumber_iff {cs : List Char} :
    (∃ x, read? cs = some x ∧ parts x = .notANumber) ↔ cs.map Char.toLower ∈ nanTexts := by
  have hminus : Char.toLower '-' = '-' := by decide
  have hplus : Char.toLower '+' = '+' := by decide
  unfold read?
  split
  rename_i negative rest hsign
  rw [map_signed_notANumber_iff, unsigned?_or_word?_notANumber_iff]
  split at hsign
  · cases hsign
    simp [nanTexts, nanWord, hminus]
  · cases hsign
    simp [nanTexts, nanWord, hplus]
  · rename_i hnotMinus hnotPlus
    cases hsign
    simp only [nanTexts, List.mem_cons, List.not_mem_nil, or_false]
    refine ⟨.inl, ?_⟩
    rintro (h | h | h)
    · exact h
    all_goals
      obtain ⟨c, rest, rfl, hc, -⟩ := List.map_eq_cons_iff.mp h
      obtain rfl := eq_of_toLower_eq hc (by decide)
    · exact absurd rfl (hnotMinus rest)
    · exact absurd rfl (hnotPlus rest)

end GridQuery.Number
