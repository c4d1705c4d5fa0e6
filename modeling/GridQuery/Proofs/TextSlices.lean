import GridQuery.Proofs.Sums
import GridQuery.ScalarFunction

/-!
Slices of a text. The functions that cut a text count its characters from one, and counts are doubles: a whole
number below `2 ^ 53` is one exactly and is read as itself. So the cuts fit together at every place, also behind
the end of the text. Whatever the counts are, also if they are no whole numbers or no numbers, no function
reads a place outside the text: with every place checked it gives the same.
-/

namespace GridQuery
set_option autoImplicit false

namespace Number

open Float.Model Float.Model.UnpackedFloat

theorem signOf_inj : ∀ {a b : Bool}, signOf a = signOf b → a = b
  | false, false, _ | true, true, _ => rfl
  | false, true, h | true, false, h => nomatch h

/-- The parts of a double are those it was made of: any others make another double. -/
theorem parts_double (negative : Bool) {m : ℕ} {e : ℤ} (hc : Canonical m e) (he : e ≤ 971) :
    parts (double negative m e hc.pos) = .finite negative m e := by
  have hunpack := unpack_double negative hc he
  cases hparts : parts (double negative m e hc.pos) with
  | notANumber =>
    rw [eq_notANumber hparts] at hunpack
    cases hunpack
  | infinite sign =>
    rw [eq_infinite hparts] at hunpack
    cases sign <;> cases hunpack
  | finite sign m' e' =>
    rcases Nat.eq_zero_or_pos m' with rfl | hpos
    · rw [eq_signed_zero hparts] at hunpack
      cases sign <;> cases hunpack
    · obtain ⟨hc', he', hsame⟩ := eq_double hparts hpos
      rw [hsame, unpack_double sign hc' he'] at hunpack
      obtain ⟨hsign, rfl, rfl⟩ := finite.inj hunpack
      rw [signOf_inj hsign]

theorem wholePart_whole (n k : ℕ) : wholePart (n * 2 ^ k) (-(k : ℤ)) = n := by
  unfold wholePart
  split
  · rename_i hk
    obtain rfl : k = 0 := by omega
    simp [twoPow_eq]
  · rw [neg_neg, Int.toNat_natCast, twoPow_eq, Nat.mul_div_cancel _ (Nat.two_pow_pos k)]

/-- A whole number of at most 53 bits counts as itself. -/
theorem clampToNat_ofNat {limit n : ℕ} (hlimit : n ≤ limit) (hn : n < 2 ^ 53) :
    clampToNat limit (Float.ofNat n) = n := by
  rcases Nat.eq_zero_or_pos n with rfl | hpos
  · have hparts : parts (Float.ofNat 0) = .finite false 0 (-1074) := by
      have hbits : (Float.ofNat 0).toBits.toNat = 0 := by decide +kernel
      simp [parts, isNegative, hbits, twoPow_eq]
    rw [clampToNat, hparts]
    simp [wholePart]
  · have hc := canonical_whole hpos hn
    have hnear : Near (n : ℚ) (n * 2 ^ (52 - n.log2)) (-((52 - n.log2 : ℕ) : ℤ)) := by
      have hself := near_self (n * 2 ^ (52 - n.log2)) (-((52 - n.log2 : ℕ) : ℤ))
      rwa [value_whole] at hself
    have hdouble : Float.ofNat n = double false _ _ hc.pos := ofScientific_whole hc hnear hpos
    rw [hdouble, clampToNat, parts_double false hc (by omega)]
    dsimp only
    rw [wholePart_whole, Nat.min_eq_right hlimit]

end Number

namespace ScalarFunction

/-- The stretch of a text from one place to another, none if these are not places of it in this order. -/
def slice? (cs : List Char) (start stop : Nat) : Option (List Char) :=
  if start ≤ stop ∧ stop ≤ cs.length then some ((cs.take stop).drop start) else none

/-- A difference of counts, none if it is below zero. -/
def minus? (m n : Nat) : Option Nat :=
  if n ≤ m then some (m - n) else none

/-- What a slicing function gives if each place is checked where it is used; a sum of counts is held at the largest
count. There is none as soon as a place is outside the text. -/
def sliced? (args : List Cell) : ScalarFunction → Option (List Char)
  | left => some ((chars args 0).take (count args 1))
  | right => do
    let start ← minus? (chars args 0).length (min (count args 1) (chars args 0).length)
    slice? (chars args 0) start (chars args 0).length
  | substring => do
    let start ← minus? (max (count args 1) 1) 1
    let length := if args.length ≤ 2 then (chars args 0).length else count args 2
    some (((chars args 0).drop start).take length)
  | stuff => do
    let first ← minus? (max (count args 1) 1) 1
    let start := min first (chars args 0).length
    let stop := min (min maxCount (start + count args 2)) (chars args 0).length
    let before ← slice? (chars args 0) 0 start
    let behind ← slice? (chars args 0) stop (chars args 0).length
    some (before ++ chars args 3 ++ behind)
  | _ => none

theorem maxCount_eq : maxCount = 2 ^ 64 - 1 :=
  rfl

theorem count_counted {args : List Cell} {i n : Nat} (h : args[i]? = some (counted n)) (hn : n < 2 ^ 53) :
    count args i = n := by
  have hmax : n ≤ maxCount := by
    rw [maxCount_eq]
    omega
  rw [count, number?, h]
  exact Number.clampToNat_ofNat hmax hn

theorem offset_counted {args : List Cell} {i n : Nat} (h : args[i]? = some (counted n)) (hn : n < 2 ^ 53) :
    offset args i = n - 1 := by
  rw [offset, count_counted h hn]
  omega

theorem slice?_behind {cs : List Char} {start : Nat} (h : start ≤ cs.length) :
    slice? cs start cs.length = some (cs.drop start) := by
  rw [slice?, if_pos ⟨h, le_refl _⟩, List.take_length]

theorem slice?_before {cs : List Char} {stop : Nat} (h : stop ≤ cs.length) :
    slice? cs 0 stop = some (cs.take stop) := by
  rw [slice?, if_pos ⟨Nat.zero_le _, h⟩, List.drop_zero]

theorem minus?_of_le {m n : Nat} (h : n ≤ m) : minus? m n = some (m - n) :=
  if_pos h

theorem take_min_length (n : Nat) (cs : List Char) : cs.take (min n cs.length) = cs.take n := by
  rw [← List.take_take, List.take_length]

/-- A place behind the end is as good as the end, and so is the largest count, which is behind it. -/
theorem drop_held {cs : List Char} (hcs : cs.length ≤ maxCount) (start length : Nat) :
    cs.drop (min (min maxCount (min start cs.length + length)) cs.length) = cs.drop (start + length) := by
  by_cases hend : start + length ≤ cs.length
  · congr 1
    omega
  · rw [List.drop_eq_nil_of_le (by omega), List.drop_eq_nil_of_le (by omega)]

/-- With its places checked each slicing function gives what it gives. -/
theorem sliced?_eq (clock : Calendar.Moment) {f : ScalarFunction} (hf : f ∈ [left, right, substring, stuff])
    {args : List Cell} (hargs : (chars args 0).length ≤ maxCount) :
    (sliced? args f).map ofChars = some (apply clock f args) := by
  have hoffset : minus? (max (count args 1) 1) 1 = some (offset args 1) := minus?_of_le (le_max_right _ _)
  fin_cases hf
  · rfl
  · simp only [sliced?, minus?_of_le (min_le_right _ _), Option.bind_eq_bind, Option.bind_some]
    rw [slice?_behind (Nat.sub_le _ _)]
    rfl
  · simp only [sliced?, hoffset, Option.bind_eq_bind, Option.bind_some, Option.map_some, apply]
    split
    · rw [List.take_of_length_le]
      simp
    · rfl
  · simp only [sliced?, hoffset, Option.bind_eq_bind, Option.bind_some, slice?_before (min_le_right _ _),
      slice?_behind (min_le_right _ _), Option.map_some, apply, stuffed, take_min_length, drop_held hargs]

section Laws

variable (clock : Calendar.Moment) (s : String) {n k : Nat}

theorem apply_concat (parts : List (List Char)) : apply clock concat (parts.map ofChars) = ofChars parts.flatten := by
  have hkey : ∀ cs : List Char, (ofChars cs).key.toList = cs := fun cs => String.toList_ofList
  simp [apply, List.flatMap_map, hkey]

theorem ofChars_toList : ofChars s.toList = .text s := by
  rw [ofChars, String.ofList_toList]

theorem apply_left (hn : n < 2 ^ 53) : apply clock left [.text s, counted n] = ofChars (s.toList.take n) := by
  rw [apply, leftOf, count_counted rfl hn]
  rfl

theorem apply_right (hn : n < 2 ^ 53) : apply clock right [.text s, counted n] =
    ofChars (s.toList.drop (s.toList.length - min n s.toList.length)) := by
  rw [apply, rightOf, count_counted rfl hn]
  rfl

theorem apply_substring (hn : n < 2 ^ 53) : apply clock substring [.text s, counted n] =
    ofChars (s.toList.drop (n - 1)) := by
  rw [apply, offset_counted rfl hn]
  rfl

theorem apply_substring_length (hn : n < 2 ^ 53) (hk : k < 2 ^ 53) :
    apply clock substring [.text s, counted n, counted k] = ofChars ((s.toList.drop (n - 1)).take k) := by
  rw [apply, offset_counted rfl hn, count_counted rfl hk]
  rfl

theorem apply_stuff (t : String) (hn : n < 2 ^ 53) (hk : k < 2 ^ 53) :
    apply clock stuff [.text s, counted n, counted k, .text t] =
      ofChars (s.toList.take (n - 1) ++ t.toList ++ s.toList.drop (n - 1 + k)) := by
  rw [apply, offset_counted rfl hn, count_counted rfl hk]
  rfl

end Laws

end ScalarFunction

open ScalarFunction in
/-- The slicing functions fit together. The first `n` characters of a text and what begins behind them are the text;
so are the first `n` and, if there are as many, the last ones that the length leaves. A slice with a length is the
first part of the slice without it, and stuffing puts the new text between what stands before the place and what
begins behind the characters that go. Whatever the counts are, no place outside the text is used. -/
theorem slices_fit (clock : Calendar.Moment) {s : String} (hs : s.length < 2 ^ 52) (t : String) :
    (∀ n < 2 ^ 52, apply clock concat [apply clock left [.text s, counted n],
      apply clock substring [.text s, counted (n + 1)]] = .text s) ∧
    (apply clock length [.text s] = counted s.length ∧
      ∀ n ≤ s.length, apply clock concat [apply clock left [.text s, counted n],
        apply clock right [.text s, counted (s.length - n)]] = .text s) ∧
    (∀ i k, 1 ≤ i → i < 2 ^ 52 → k < 2 ^ 52 →
      apply clock substring [.text s, counted i, counted k] =
        apply clock left [apply clock substring [.text s, counted i], counted k] ∧
      apply clock stuff [.text s, counted i, counted k, .text t] =
        apply clock concat [apply clock left [.text s, counted (i - 1)], .text t,
          apply clock substring [.text s, counted (i + k)]]) ∧
    ∀ f ∈ [left, right, substring, stuff], ∀ counts : List Cell,
      (sliced? (.text s :: counts) f).map ofChars = some (apply clock f (.text s :: counts)) := by
  have hlength : s.toList.length = s.length := String.length_toList
  refine ⟨fun n hn => ?_, ⟨?_, fun n hn => ?_⟩, fun i k hi hi' hk => ⟨?_, ?_⟩, fun f hf counts => ?_⟩
  · rw [apply_left clock s (by omega), apply_substring clock s (by omega), Nat.add_sub_cancel]
    refine (apply_concat clock [_, _]).trans ?_
    rw [List.flatten_cons, List.flatten_singleton, List.take_append_drop, ofChars_toList]
  · exact congrArg counted hlength
  · have hplace : s.toList.length - min (s.length - n) s.toList.length = n := by omega
    rw [apply_left clock s (by omega), apply_right clock s (by omega), hplace]
    refine (apply_concat clock [_, _]).trans ?_
    rw [List.flatten_cons, List.flatten_singleton, List.take_append_drop, ofChars_toList]
  · have hleft := apply_left clock (String.ofList (s.toList.drop (i - 1))) (n := k) (by omega)
    rw [String.toList_ofList] at hleft
    rw [apply_substring_length clock s (by omega) (by omega), apply_substring clock s (by omega)]
    exact hleft.symm
  · have hbehind : i + k - 1 = i - 1 + k := by omega
    rw [apply_stuff clock s t (by omega) (by omega), apply_left clock s (by omega),
      apply_substring clock s (by omega), hbehind, ← ofChars_toList t]
    refine Eq.trans ?_ (apply_concat clock [_, _, _]).symm
    simp
  · refine sliced?_eq clock hf ?_
    change s.toList.length ≤ maxCount
    rw [maxCount_eq]
    omega

open ScalarFunction in
/-- In `héllo` the stretch from the fourth character on is stuffed, also where it goes beyond the end. -/
theorem slices_fit_beyond :
    let clock : Calendar.Moment := .midnight ⟨2020, 1, 1⟩
    "héllo".length < 2 ^ 52 ∧
      apply clock stuff [.text "héllo", counted 4, counted 9, .text "p"] =
        apply clock concat [apply clock left [.text "héllo", counted 3], .text "p",
          apply clock substring [.text "héllo", counted 13]] := by
  intro clock
  have hshort : "héllo".length < 2 ^ 52 := by decide
  obtain ⟨-, -, hstuff, -⟩ := slices_fit clock hshort "p"
  exact ⟨hshort, (hstuff 4 9 (by decide) (by decide) (by decide)).2⟩

end GridQuery
