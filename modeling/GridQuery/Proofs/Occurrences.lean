import GridQuery.Proofs.TextSlices

/-!
Occurrences of a text in another one. The search tries one place after the other, so it finds the first; a place
is told by the position of the slice that begins there. Looking for the bytes of a text instead finds the same
place: no byte that begins a character stands within another character, so where the bytes of a text stand, a
character begins, and the characters in front of it are counted.
-/

namespace GridQuery
set_option autoImplicit false

namespace Number

/-- A whole number of more than 53 bits may not count as itself, but it does not count as a small one. -/
theorem le_clampToNat_ofNat {limit n : ℕ} (hlimit : 2 ^ 52 ≤ limit) (hn : 2 ^ 53 ≤ n) :
    2 ^ 52 ≤ clampToNat limit (Float.ofNat n) := by
  obtain ⟨m, e, hc, he, hdouble⟩ := ofScientific_large hn
  have hofNat : Float.ofNat n = double false m e hc.pos := hdouble
  have hnormal : 2 ^ 52 ≤ m := hc.normal.resolve_right (by omega)
  rw [hofNat, clampToNat]
  by_cases hlarge : e ≤ 971
  · rw [parts_double false hc hlarge]
    dsimp only
    rw [wholePart, if_pos he, twoPow_eq]
    exact le_min hlimit (hnormal.trans (Nat.le_mul_of_pos_right m (Nat.two_pow_pos _)))
  · have hbits : (double false m e hc.pos).toBits.toNat = 2047 * 2 ^ 52 :=
      congrArg BitVec.toNat (pack_of_large .positive hc.pos (by omega))
    have hinfinite : parts (double false m e hc.pos) = .infinite false := by
      simp [parts, isNegative, hbits, twoPow_eq]
    rw [hinfinite]
    exact hlimit

end Number

namespace ScalarFunction

variable {needle cs : List Char}

/-! ### The first place -/

theorem indexOf?_eq_some {i : Nat} (h : indexOf? needle cs = some i) : IsLeast {j | needle <+: cs.drop j} i := by
  induction cs generalizing i with
  | nil =>
    unfold indexOf? at h
    split at h
    · cases h
      exact ⟨List.isPrefixOf_iff_prefix.mp ‹_›, fun j _ => Nat.zero_le j⟩
    · cases h
  | cons c r ih =>
    unfold indexOf? at h
    split at h
    · cases h
      exact ⟨List.isPrefixOf_iff_prefix.mp ‹_›, fun j _ => Nat.zero_le j⟩
    · rename_i hhere
      obtain ⟨k, hk, rfl⟩ := Option.map_eq_some_iff.mp h
      obtain ⟨hstands, hleast⟩ := ih hk
      refine ⟨hstands, fun j hj => ?_⟩
      cases j with
      | zero => exact absurd (List.isPrefixOf_iff_prefix.mpr hj) hhere
      | succ j => exact Nat.succ_le_succ (hleast hj)

theorem indexOf?_eq_none (h : indexOf? needle cs = none) (j : Nat) : ¬needle <+: cs.drop j := by
  induction cs generalizing j with
  | nil =>
    unfold indexOf? at h
    split at h
    · cases h
    · rename_i hhere
      rw [List.drop_nil]
      exact fun hj => hhere (List.isPrefixOf_iff_prefix.mpr hj)
  | cons c r ih =>
    unfold indexOf? at h
    split at h
    · cases h
    · rename_i hhere
      cases j with
      | zero => exact fun hj => hhere (List.isPrefixOf_iff_prefix.mpr hj)
      | succ j => exact ih (Option.map_eq_none_iff.mp h) j

/-! ### Places of bytes -/

/-- The bytes of a text, one to four for each character. -/
def bytes (cs : List Char) : List UInt8 :=
  cs.flatMap String.utf8EncodeChar

theorem bytes_append (cs ds : List Char) : bytes (cs ++ ds) = bytes cs ++ bytes ds :=
  List.flatMap_append

theorem bytes_prefix_iff : bytes needle <+: bytes cs ↔ needle <+: cs := by
  constructor
  · rintro ⟨behind, h⟩
    refine List.isPrefix_of_utf8Encode_append_eq_utf8Encode behind.toByteArray ?_
    rw [List.utf8Encode, List.utf8Encode, ← List.toByteArray_append]
    exact congrArg List.toByteArray h
  · rintro ⟨behind, rfl⟩
    exact ⟨bytes behind, (bytes_append needle behind).symm⟩

theorem bytes_length_pos (h : cs ≠ []) : 0 < (bytes cs).length := by
  obtain ⟨c, r, rfl⟩ := List.exists_cons_of_ne_nil h
  rw [bytes, List.flatMap_cons, List.length_append, String.length_utf8EncodeChar]
  have := c.utf8Size_pos
  omega

/-- A byte that begins a character stands where one begins. -/
theorem exists_before {b : Nat} {x : UInt8} (hx : (bytes cs)[b]? = some x) (hfirst : x.IsUTF8FirstByte) :
    ∃ before behind, cs = before ++ behind ∧ (bytes before).length = b := by
  induction cs generalizing b with
  | nil => cases hx
  | cons c r ih =>
    rw [bytes, List.flatMap_cons] at hx
    by_cases hwithin : b < (String.utf8EncodeChar c).length
    · rw [List.getElem?_append_left hwithin, List.getElem?_eq_getElem hwithin] at hx
      obtain rfl := Option.some.inj hx
      obtain rfl := UInt8.isUTF8FirstByte_getElem_utf8EncodeChar.mp hfirst
      exact ⟨[], c :: r, rfl, rfl⟩
    · rw [List.getElem?_append_right (Nat.le_of_not_lt hwithin)] at hx
      obtain ⟨before, behind, rfl, hlength⟩ := ih hx
      refine ⟨c :: before, behind, rfl, ?_⟩
      rw [bytes, List.flatMap_cons, List.length_append]
      change (String.utf8EncodeChar c).length + (bytes before).length = b
      omega

theorem exists_first_byte (h : cs ≠ []) : ∃ x, (bytes cs)[0]? = some x ∧ x.IsUTF8FirstByte := by
  obtain ⟨c, r, rfl⟩ := List.exists_cons_of_ne_nil h
  have hpos : 0 < (String.utf8EncodeChar c).length := by
    rw [String.length_utf8EncodeChar]
    exact c.utf8Size_pos
  refine ⟨(String.utf8EncodeChar c)[0], ?_, UInt8.isUTF8FirstByte_getElem_utf8EncodeChar.mpr rfl⟩
  rw [bytes, List.flatMap_cons, List.getElem?_append_left hpos, List.getElem?_eq_getElem hpos]

/-- Where the bytes of a text stand, a character begins, and the text stands there. -/
theorem exists_of_bytes_prefix (hne : needle ≠ []) {b : Nat} (h : bytes needle <+: (bytes cs).drop b) :
    ∃ before behind, cs = before ++ behind ∧ (bytes before).length = b ∧ needle <+: behind := by
  obtain ⟨x, hx, hfirst⟩ := exists_first_byte hne
  have hstands : (bytes cs)[b]? = some x := by
    obtain ⟨rest, hrest⟩ := h
    rw [← Nat.add_zero b, ← List.getElem?_drop, ← hrest,
      List.getElem?_append_left (bytes_length_pos hne), hx]
  obtain ⟨before, behind, rfl, rfl⟩ := exists_before hstands hfirst
  rw [bytes_append, List.drop_left] at h
  exact ⟨before, behind, rfl, rfl, bytes_prefix_iff.mp h⟩

theorem bytes_prefix_drop {j : Nat} (h : needle <+: cs.drop j) :
    bytes needle <+: (bytes cs).drop (bytes (cs.take j)).length := by
  have hsplit : bytes cs = bytes (cs.take j) ++ bytes (cs.drop j) := by
    rw [← bytes_append, List.take_append_drop]
  rw [hsplit, List.drop_left]
  exact bytes_prefix_iff.mpr h

/-- The first place of the bytes of a text is the first place of the text, and a character begins there. -/
theorem exists_of_least_byte {b : Nat} (h : IsLeast {b | bytes needle <+: (bytes cs).drop b} b) :
    ∃ before behind, cs = before ++ behind ∧ (bytes before).length = b ∧
      IsLeast {j | needle <+: cs.drop j} before.length := by
  obtain ⟨hb, hleast⟩ := h
  rcases eq_or_ne needle [] with rfl | hne
  · obtain rfl : b = 0 := Nat.le_zero.mp (hleast List.nil_prefix)
    exact ⟨[], cs, rfl, rfl, List.nil_prefix, fun j _ => Nat.zero_le j⟩
  · obtain ⟨before, behind, rfl, hlength, hbehind⟩ := exists_of_bytes_prefix hne hb
    refine ⟨before, behind, rfl, hlength, ?_, fun j hj => ?_⟩
    · change needle <+: (before ++ behind).drop before.length
      rwa [List.drop_left]
    · -- An earlier place of the text would be an earlier place of its bytes.
      by_contra hearlier
      have hle := hleast (bytes_prefix_drop hj)
      have hrest : before.drop j ≠ [] := by
        rw [ne_eq, List.drop_eq_nil_iff]
        exact hearlier
      have hpos := bytes_length_pos hrest
      have hsplit : (bytes before).length = (bytes (before.take j)).length + (bytes (before.drop j)).length := by
        rw [← List.length_append, ← bytes_append, List.take_append_drop]
      rw [List.take_append_of_le_length (by omega)] at hle
      omega

/-! ### Positions -/

/-- The positions from `p` on at which a slice as long as the text is the text. -/
def positions (clock : Calendar.Moment) (needle haystack : String) (p : Nat) : Set Nat :=
  {q | p ≤ q ∧ apply clock substring [.text haystack, counted q, apply clock length [.text needle]] = .text needle}

section

variable (clock : Calendar.Moment) {needle haystack : String}

/-- A position is where the characters in front of it end, also if it is too large to be counted exactly. -/
theorem drop_offset (hhaystack : haystack.length < 2 ^ 52) {args : List Cell} {i q : Nat}
    (h : args[i]? = some (counted q)) : haystack.toList.drop (offset args i) = haystack.toList.drop (q - 1) := by
  have hlength : haystack.toList.length = haystack.length := String.length_toList
  by_cases hq : q < 2 ^ 53
  · rw [offset_counted h hq]
  · have hcount : 2 ^ 52 ≤ count args i := by
      rw [count, number?, h]
      exact Number.le_clampToNat_ofNat (by rw [maxCount_eq]; norm_num) (Nat.le_of_not_lt hq)
    rw [List.drop_eq_nil_of_le (by rw [offset]; omega), List.drop_eq_nil_of_le (by omega)]

/-- The positions are the places behind the start, counted on from it. -/
theorem mem_positions_iff (hneedle : needle.length < 2 ^ 52) (hhaystack : haystack.length < 2 ^ 52) {p q : Nat}
    (hp : 1 ≤ p) : q ∈ positions clock needle haystack p ↔
      ∃ j, q = p + j ∧ needle.toList <+: (haystack.toList.drop (p - 1)).drop j := by
  have hlength : apply clock length [.text needle] = counted needle.toList.length := rfl
  have hcount : count [.text haystack, counted q, counted needle.toList.length] 2 = needle.toList.length :=
    count_counted rfl (by rw [String.length_toList]; omega)
  have hslice : apply clock substring [.text haystack, counted q, counted needle.toList.length] =
      ofChars ((haystack.toList.drop (q - 1)).take needle.toList.length) := by
    have hdrop : haystack.toList.drop (offset [.text haystack, counted q, counted needle.toList.length] 1) =
        haystack.toList.drop (q - 1) := drop_offset hhaystack rfl
    rw [apply, hcount, ← hdrop]
    rfl
  have hstands : apply clock substring [.text haystack, counted q, apply clock length [.text needle]] = .text needle ↔
      needle.toList <+: haystack.toList.drop (q - 1) := by
    rw [hlength, hslice, ← ofChars_toList needle, List.prefix_iff_eq_take]
    refine ⟨fun h => ?_, fun h => by rw [← h]⟩
    have htexts := Cell.text.inj h
    rw [String.ofList_inj] at htexts
    exact htexts.symm
  constructor
  · rintro ⟨hle, hslice⟩
    have hplace : p - 1 + (q - p) = q - 1 := by omega
    exact ⟨q - p, by omega, by rw [List.drop_drop, hplace]; exact hstands.mp hslice⟩
  · rintro ⟨j, rfl, hj⟩
    have hplace : p - 1 + j = p + j - 1 := by omega
    rw [List.drop_drop, hplace] at hj
    exact ⟨Nat.le_add_right p j, hstands.mpr hj⟩

theorem apply_charIndex {p : Nat} (hp : p < 2 ^ 52) :
    apply clock charIndex [.text needle, .text haystack, counted p] =
      match indexOf? needle.toList (haystack.toList.drop (p - 1)) with
      | some i => counted (min maxCount (p - 1 + (i + 1)))
      | none => counted 0 := by
  have hoffset : offset [.text needle, .text haystack, counted p] 2 = p - 1 := offset_counted rfl (by omega)
  rw [apply, hoffset]
  rfl

/-- The position that is found is never too large for a count. -/
theorem charIndex_of_isLeast (hhaystack : haystack.length < 2 ^ 52) {p i : Nat} (hp : 1 ≤ p) (hp' : p < 2 ^ 52)
    (h : IsLeast {j | needle.toList <+: (haystack.toList.drop (p - 1)).drop j} i) :
    apply clock charIndex [.text needle, .text haystack, counted p] = counted (p + i) := by
  have hle : i ≤ haystack.length := by
    by_contra hbeyond
    have hnil : (haystack.toList.drop (p - 1)).drop i = [] := by
      rw [List.drop_drop, List.drop_eq_nil_iff, String.length_toList]
      omega
    have hempty : needle.toList = [] := List.prefix_nil.mp (hnil ▸ h.1)
    have := h.2 (show needle.toList <+: (haystack.toList.drop (p - 1)).drop 0 from hempty ▸ List.nil_prefix)
    omega
  rw [apply_charIndex clock hp']
  cases hindex : indexOf? needle.toList (haystack.toList.drop (p - 1)) with
  | none => exact absurd h.1 (indexOf?_eq_none hindex i)
  | some k =>
    obtain rfl : k = i := (indexOf?_eq_some hindex).unique h
    have hposition : min maxCount (p - 1 + (k + 1)) = p + k := by
      rw [maxCount_eq]
      omega
    exact congrArg counted hposition

end

end ScalarFunction

open ScalarFunction in
/-- The search finds the leftmost occurrence: the least position from the start on at which a slice as long as the
text is the text, and zero if there is none. Without a start it begins at one. Over bytes it is the same: where the
bytes of the text first stand behind the start, a character begins, and its position is found. -/
theorem charIndex_leftmost (clock : Calendar.Moment) {needle haystack : String} (hneedle : needle.length < 2 ^ 52)
    (hhaystack : haystack.length < 2 ^ 52) :
    apply clock charIndex [.text needle, .text haystack] =
      apply clock charIndex [.text needle, .text haystack, counted 1] ∧
    ∀ p, 1 ≤ p → p < 2 ^ 52 →
      ((∃ q, q ∈ positions clock needle haystack p) → ∃ q, IsLeast (positions clock needle haystack p) q ∧
        apply clock charIndex [.text needle, .text haystack, counted p] = counted q) ∧
      ((¬∃ q, q ∈ positions clock needle haystack p) →
        apply clock charIndex [.text needle, .text haystack, counted p] = counted 0) ∧
      (∀ b, IsLeast {b | bytes needle.toList <+: (bytes (haystack.toList.drop (p - 1))).drop b} b →
        ∃ before behind, haystack.toList.drop (p - 1) = before ++ behind ∧ (bytes before).length = b ∧
          apply clock charIndex [.text needle, .text haystack, counted p] = counted (p + before.length)) ∧
      ((∀ b, ¬bytes needle.toList <+: (bytes (haystack.toList.drop (p - 1))).drop b) →
        apply clock charIndex [.text needle, .text haystack, counted p] = counted 0) := by
  refine ⟨?_, fun p hp hp' => ?_⟩
  · have hone : offset [.text needle, .text haystack, counted 1] 2 = 0 :=
      offset_counted (n := 1) rfl (by norm_num)
    rw [apply, apply, hone]
    rfl
  · have hmem : ∀ {q}, q ∈ positions clock needle haystack p ↔
        ∃ j, q = p + j ∧ needle.toList <+: (haystack.toList.drop (p - 1)).drop j :=
      mem_positions_iff clock hneedle hhaystack hp
    have hzero : (∀ j, ¬needle.toList <+: (haystack.toList.drop (p - 1)).drop j) →
        apply clock charIndex [.text needle, .text haystack, counted p] = counted 0 := by
      intro hnowhere
      rw [apply_charIndex clock hp']
      cases hindex : indexOf? needle.toList (haystack.toList.drop (p - 1)) with
      | none => rfl
      | some i => exact absurd (indexOf?_eq_some hindex).1 (hnowhere i)
    refine ⟨?_, fun hnone => hzero fun j hj => hnone ⟨p + j, hmem.mpr ⟨j, rfl, hj⟩⟩, fun b hb => ?_,
      fun hnone => hzero fun j hj => hnone _ (bytes_prefix_drop hj)⟩
    · rintro ⟨q, hq⟩
      obtain ⟨j, -, hj⟩ := hmem.mp hq
      cases hindex : indexOf? needle.toList (haystack.toList.drop (p - 1)) with
      | none => exact absurd hj (indexOf?_eq_none hindex j)
      | some i =>
        have hi := indexOf?_eq_some hindex
        refine ⟨p + i, ⟨hmem.mpr ⟨i, rfl, hi.1⟩, fun q hq => ?_⟩,
          charIndex_of_isLeast clock hhaystack hp hp' hi⟩
        obtain ⟨k, rfl, hk⟩ := hmem.mp hq
        exact Nat.add_le_add_left (hi.2 hk) p
    · obtain ⟨before, behind, hsplit, hlength, hleast⟩ := exists_of_least_byte hb
      exact ⟨before, behind, hsplit, hlength, charIndex_of_isLeast clock hhaystack hp hp' hleast⟩

open ScalarFunction in
/-- Of the occurrences of `éé` in `aééé`, which overlap, the second one is at the third character and the
fourth byte. -/
theorem charIndex_leftmost_overlapping :
    let clock : Calendar.Moment := .midnight ⟨2020, 1, 1⟩
    "éé".length < 2 ^ 52 ∧ "aééé".length < 2 ^ 52 ∧ 3 < 2 ^ 52 ∧ 3 ∈ positions clock "éé" "aééé" 3 ∧
      apply clock charIndex [.text "éé", .text "aééé", counted 3] = counted 3 := by
  intro clock
  have hneedle : "éé".length < 2 ^ 52 := by decide
  have hhaystack : "aééé".length < 2 ^ 52 := by decide
  have hprefix : "éé".toList <+: ("aééé".toList.drop (3 - 1)).drop 0 := List.isPrefixOf_iff_prefix.mp (by decide)
  have hthree : 3 ∈ positions clock "éé" "aééé" 3 :=
    (mem_positions_iff clock hneedle hhaystack (by decide)).mpr ⟨0, rfl, hprefix⟩
  obtain ⟨-, hsearch⟩ := charIndex_leftmost clock hneedle hhaystack
  obtain ⟨hfound, -⟩ := hsearch 3 (by decide) (by decide)
  obtain ⟨q, hq, hresult⟩ := hfound ⟨3, hthree⟩
  have hmin : q ≤ 3 := hq.2 hthree
  have hmax : 3 ≤ q := hq.1.1
  obtain rfl : q = 3 := by omega
  exact ⟨hneedle, hhaystack, by decide, hthree, hresult⟩

end GridQuery
