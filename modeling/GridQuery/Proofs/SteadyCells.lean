import GridQuery.Proofs.Collected
import GridQuery.Proofs.NumberTexts

/-!
Steady cells. Empty cells, booleans, numbers that read back, and texts that read as nothing else are what
their texts are: `=` compares their texts, and those that sort alike have one text. So a pivot over such cells
collects what it counts by.
-/

namespace GridQuery
set_option autoImplicit false

namespace Number

/-- Where a number that reads back stands in the two orders, by its bits. -/
theorem ranks_of_legible {x : Float} (h : legibleNumber x = true) :
    x.toBits.toNat ≠ 2 ^ 63 ∧
      rank? x = some (if 2 ^ 63 ≤ x.toBits.toNat then -((x.toBits.toNat % 2 ^ 63 : ℕ) : ℤ)
        else ((x.toBits.toNat % 2 ^ 63 : ℕ) : ℤ)) ∧
      totalRank x = if 2 ^ 63 ≤ x.toBits.toNat then -((x.toBits.toNat % 2 ^ 63 : ℕ) : ℤ) - 1
        else ((x.toBits.toNat % 2 ^ 63 : ℕ) : ℤ) := by
  have h63 : twoPow 63 = 2 ^ 63 := rfl
  unfold legibleNumber at h
  split at h
  · rename_i negative m e hparts
    obtain ⟨hbits, hlt, hmin, hmax, -⟩ := toNat_toBits_of_parts hparts
    rw [Bool.and_eq_true] at h
    refine ⟨?_, ?_, ?_⟩
    · intro hzero
      rw [hzero] at hbits
      cases negative with
      | false =>
        simp only [Bool.false_eq_true, if_false] at hbits
        split at hbits <;> omega
      | true =>
        simp only [if_true] at hbits
        have hm : m ≠ 0 := by simpa using h.1
        split at hbits <;> omega
    · simp only [rank?, hparts, isNegative, h63, decide_eq_true_eq, Int.ofNat_eq_natCast]
    · simp only [totalRank, hparts, isNegative, h63, decide_eq_true_eq, Int.ofNat_eq_natCast]
  · cases h

/-- Each of the two orders tells such numbers apart. -/
theorem eq_of_rank {x y : Float} (hx : legibleNumber x = true) (hy : legibleNumber y = true)
    (h : rank? x = rank? y ∨ totalRank x = totalRank y) : x = y := by
  obtain ⟨hzero, hrank, htotal⟩ := ranks_of_legible hx
  obtain ⟨hzero', hrank', htotal'⟩ := ranks_of_legible hy
  have hlt : x.toBits.toNat < 2 ^ 64 := x.toBits.toNat_lt
  have hlt' : y.toBits.toNat < 2 ^ 64 := y.toBits.toNat_lt
  apply float_ext
  rcases h with h | h
  · rw [hrank, hrank', Option.some.injEq] at h
    split at h <;> split at h <;> omega
  · rw [htotal, htotal'] at h
    split at h <;> split at h <;> omega

theorem equal_iff {x y : Float} (hx : legibleNumber x = true) (hy : legibleNumber y = true) :
    equal x y = true ↔ x = y := by
  obtain ⟨_, hrank, _⟩ := ranks_of_legible hx
  obtain ⟨_, hrank', _⟩ := ranks_of_legible hy
  rw [equal, beq_iff_eq, order?, hrank, hrank']
  simp only [Option.some.injEq, Std.LawfulEqCmp.compare_eq_iff_eq]
  constructor
  · intro h
    apply eq_of_rank hx hy
    left
    rw [hrank, hrank', h]
  · rintro rfl
    rfl

end Number

/-- Numbers that read back are told apart by their texts. -/
theorem numberText_inj {x y : Float} (hx : legibleNumber x = true) (hy : legibleNumber y = true)
    (h : numberText x = numberText y) : x = y := by
  have hdigit {ds : List Char} {x : Float} (hds : Spells ds x) : ds.head? ≠ some '-' := by
    obtain ⟨c, cs, hcs, hc⟩ := hds.1.head
    rw [hcs]
    rintro ⟨⟩
    cases hc
  have hunique {ds : List Char} {v w : Float} (hv : Spells ds v) (hw : Spells ds w) : v = w := by
    have hsame := hv.2.symm.trans hw.2
    cases hsame
    rfl
  obtain ⟨ds, v, hv, hx⟩ := numberText_spells hx
  obtain ⟨es, w, hw, hy⟩ := numberText_spells hy
  rw [← h] at hy
  rcases hx with ⟨htext, rfl⟩ | ⟨htext, rfl⟩ <;> rcases hy with ⟨htext', rfl⟩ | ⟨htext', rfl⟩ <;>
    rw [htext] at htext'
  · exact hunique hv (htext' ▸ hw)
  · exact absurd (congrArg List.head? htext') (hdigit hv)
  · exact absurd (congrArg List.head? htext'.symm) (hdigit hw)
  · rw [hunique hv ((List.cons.inj htext').2 ▸ hw)]

namespace Cell

/-- An empty cell, a boolean, a number that reads back, or a text that reads as nothing else. -/
def steady : Cell → Bool
  | null => true
  | boolean _ => true
  | number x => legibleNumber x
  | date _ => false
  | text s => (text s).asNumber?.isNone && (text s).asMoment?.isNone

variable {a b : Cell}

theorem isNull_iff_of_steady (h : a.steady = true) : a.isNull = true ↔ a.key = "" := by
  cases a with
  | null => exact ⟨fun _ => rfl, fun _ => rfl⟩
  | boolean v => cases v <;> decide
  | number x =>
    obtain ⟨ds, hds, htext⟩ := numberText_numeral h
    obtain ⟨c, cs, rfl, _⟩ := hds.head
    have hne : numberText x ≠ "" := by
      intro hempty
      rw [hempty] at htext
      rcases htext with htext | htext <;> cases htext
    simp [isNull, key, hne]
  | date m => cases h
  | text s => simp [isNull, key]

/-- Only number cells among them read as numbers. -/
theorem eq_number_of_steady (h : a.steady = true) {x : Float} (hx : a.asNumber? = some x) :
    a = .number x := by
  cases a with
  | number y =>
    cases hx
    rfl
  | text s =>
    rw [steady, Bool.and_eq_true, hx] at h
    cases h.1
  | null | boolean | date => cases hx

theorem isDate_of_steady (h : a.steady = true) : a.isDate = false := by
  cases a with
  | date m => cases h
  | null | boolean | number | text => rfl

/-- On steady cells `=` compares texts. -/
theorem looseEq_iff_of_steady (ha : a.steady = true) (hb : b.steady = true) :
    a.looseEq b = true ↔ a.key = b.key := by
  have hnullA := isNull_iff_of_steady ha
  have hnullB := isNull_iff_of_steady hb
  unfold looseEq
  by_cases hnull : (a.isNull || b.isNull) = true
  · rw [if_pos hnull, Bool.and_eq_true, hnullA, hnullB]
    rw [Bool.or_eq_true, hnullA, hnullB] at hnull
    constructor
    · rintro ⟨hkeyA, hkeyB⟩
      rw [hkeyA, hkeyB]
    · intro hsame
      rcases hnull with hkey | hkey
      · exact ⟨hkey, hsame ▸ hkey⟩
      · exact ⟨hsame.trans hkey, hkey⟩
  · have hpairing : pairing a b = numericPairing a b := by
      simp [pairing, isDate_of_steady ha, isDate_of_steady hb]
    rw [if_neg hnull, hpairing, numericPairing]
    cases hnumberA : a.asNumber? with
    | none => exact beq_iff_eq
    | some x =>
      cases hnumberB : b.asNumber? with
      | none => exact beq_iff_eq
      | some y =>
        obtain rfl := eq_number_of_steady ha hnumberA
        obtain rfl := eq_number_of_steady hb hnumberB
        exact (Number.equal_iff ha hb).trans ⟨congrArg numberText, numberText_inj ha hb⟩

/-- Only equal keys are equal in the order of sorting. -/
theorem SortKey.eq_of_order {k l : SortKey} (h : k.order l = .eq) : k = l := by
  cases k with
  | null =>
    cases l with
    | null => rfl
    | boolean | number | date | text => cases h
  | boolean v =>
    cases l with
    | boolean w => cases v <;> cases w <;> first | rfl | cases h
    | null | number | date | text => cases h
  | number r =>
    cases l with
    | number q => rw [Int.compare_eq_eq.mp h]
    | null | boolean | date | text => cases h
  | date t =>
    cases l with
    | date u => rw [Int.compare_eq_eq.mp h]
    | null | boolean | number | text => cases h
  | text s =>
    cases l with
    | text t =>
      have hcompare : compare s t = .eq := h
      rw [Std.LawfulEqCmp.compare_eq_iff_eq.mp hcompare]
    | null | boolean | number | date => cases h

/-- A steady text sorts as itself. -/
theorem sortKey_text_of_steady {s : String} (h : (text s).steady = true) :
    (text s).sortKey = if s = "" then .null else .text s := by
  rw [steady, Bool.and_eq_true, Option.isNone_iff_eq_none, Option.isNone_iff_eq_none] at h
  rw [sortKey, h.1, h.2]

/-- Steady cells that sort alike have one text. -/
theorem key_eq_of_sortOrder (ha : a.steady = true) (hb : b.steady = true) (h : a.sortOrder b = .eq) :
    a.key = b.key := by
  have hsame : a.sortKey = b.sortKey := SortKey.eq_of_order h
  cases a with
  | null =>
    cases b with
    | null => rfl
    | text s =>
      rw [sortKey_text_of_steady hb] at hsame
      split at hsame
      · rename_i hempty
        exact hempty.symm
      · cases hsame
    | boolean | number | date => cases hsame
  | boolean v =>
    cases b with
    | boolean w =>
      cases hsame
      rfl
    | text s =>
      rw [sortKey_text_of_steady hb] at hsame
      split at hsame <;> cases hsame
    | null | number | date => cases hsame
  | number x =>
    cases b with
    | number y => rw [Number.eq_of_rank ha hb (Or.inr (SortKey.number.inj hsame))]
    | text s =>
      rw [sortKey_text_of_steady hb] at hsame
      split at hsame <;> cases hsame
    | null | boolean | date => cases hsame
  | date m => cases ha
  | text s =>
    rw [sortKey_text_of_steady ha] at hsame
    cases b with
    | null =>
      split at hsame
      · assumption
      · cases hsame
    | text t =>
      rw [sortKey_text_of_steady hb] at hsame
      split at hsame <;> split at hsame <;> cases hsame
      · rename_i hs ht
        rw [hs, ht]
      · rfl
    | boolean | number | date => split at hsame <;> cases hsame

end Cell

theorem EqualityCollects.of_steady {cells : List Cell} (h : ∀ c ∈ cells, c.steady = true) :
    EqualityCollects cells where
  same := by
    intro a ha b hb
    rw [Cell.looseEq_iff_of_steady (h a ha) (h b hb)]
    exact ⟨Or.inr, fun hor => hor.elim (Cell.key_eq_of_sortOrder (h a ha) (h b hb)) id⟩
  trans := by
    intro a ha b hb d hd hab hbd
    rw [Cell.looseEq_iff_of_steady (h a ha) (h b hb)] at hab
    rw [Cell.looseEq_iff_of_steady (h b hb) (h d hd)] at hbd
    exact (Cell.looseEq_iff_of_steady (h a ha) (h d hd)).mpr (hab.trans hbd)

end GridQuery
