import Mathlib.Data.List.Induction
import GridQuery.Proofs.Spellings
import GridQuery.Proofs.Tables

/-!
Letters for columns. The letters of a column are a numeral without a zero, in which `A` counts one and `Z`
counts 26, and each number from one on has exactly one such numeral. So different columns have different
letters, and as letters hold no point, no letters are the title of another column behind the name of the
table: a table of data alone can always be made, and its columns are found under their letters.
-/

namespace GridQuery
set_option autoImplicit false

/-! ### Numerals of letters -/

def IsCapital (c : Char) : Prop :=
  'A' ≤ c ∧ c ≤ 'Z'

/-- The number of a numeral of letters, `A` being one; a place counts 26 of the next. -/
def lettersValue (cs : List Char) : Nat :=
  cs.foldl (fun n c => 26 * n + (c.toNat - 64)) 0

theorem isCapital_iff {c : Char} : IsCapital c ↔ 65 ≤ c.toNat ∧ c.toNat ≤ 90 := by
  unfold IsCapital
  rw [Char.le_def, Char.le_def, UInt32.le_iff_toNat_le, UInt32.le_iff_toNat_le]
  rfl

theorem toNat_capital {n : Nat} (h : n < 26) : (Char.ofNat (65 + n)).toNat = 65 + n := by
  have hvalid : (65 + n).isValidChar := .inl (by omega)
  rw [Char.ofNat, dif_pos hvalid]
  rfl

theorem isCapital_ofNat {n : Nat} (h : n < 26) : IsCapital (Char.ofNat (65 + n)) := by
  rw [isCapital_iff, toNat_capital h]
  omega

theorem lettersValue_concat (cs : List Char) (c : Char) :
    lettersValue (cs ++ [c]) = 26 * lettersValue cs + (c.toNat - 64) := by
  simp [lettersValue]

theorem columnLetters_capital (n : Nat) : ∀ c ∈ columnLetters n, IsCapital c := by
  induction n using columnLetters.induct with
  | case1 n hn =>
    rw [columnLetters, if_pos hn]
    simpa using isCapital_ofNat hn
  | case2 n hn ih =>
    rw [columnLetters, if_neg hn]
    intro c hc
    rcases List.mem_append.mp hc with hc | hc
    · exact ih c hc
    · rw [List.mem_singleton.mp hc]
      exact isCapital_ofNat (Nat.mod_lt n (by decide))

theorem lettersValue_columnLetters (n : Nat) : lettersValue (columnLetters n) = n + 1 := by
  induction n using columnLetters.induct with
  | case1 n hn =>
    rw [columnLetters, if_pos hn]
    simp only [lettersValue, List.foldl_cons, List.foldl_nil, toNat_capital hn]
    omega
  | case2 n hn ih =>
    rw [columnLetters, if_neg hn, lettersValue_concat, ih, toNat_capital (Nat.mod_lt n (by decide))]
    omega

/-- A number has one numeral: the last letter is told by the remainder, which is between one and 26. -/
theorem eq_of_lettersValue {cs ds : List Char} (hcs : ∀ c ∈ cs, IsCapital c) (hds : ∀ d ∈ ds, IsCapital d)
    (h : lettersValue cs = lettersValue ds) : cs = ds := by
  induction cs using List.reverseRecOn generalizing ds with
  | nil =>
    rcases List.eq_nil_or_concat ds with rfl | ⟨ds, d, rfl⟩
    · rfl
    · have hd := isCapital_iff.mp (hds d (by simp))
      rw [List.concat_eq_append, lettersValue_concat] at h
      simp only [lettersValue, List.foldl_nil] at h
      omega
  | append_singleton cs c ih =>
    have hc := isCapital_iff.mp (hcs c (by simp))
    rcases List.eq_nil_or_concat ds with rfl | ⟨ds, d, rfl⟩
    · rw [lettersValue_concat] at h
      simp only [lettersValue, List.foldl_nil] at h
      omega
    · rw [List.concat_eq_append] at hds h ⊢
      have hd := isCapital_iff.mp (hds d (by simp))
      rw [lettersValue_concat, lettersValue_concat] at h
      have hlast : c = d := Char.toNat_inj.mp (by omega)
      have hinit : cs = ds := by
        refine ih (fun c hc => hcs c (by simp [hc])) (fun d hd => hds d (by simp [hd])) ?_
        omega
      rw [hlast, hinit]

/-- The letters of a column are the one numeral of its number, counted from one. -/
theorem columnLetters_eq_iff (n : Nat) (cs : List Char) :
    columnLetters n = cs ↔ (∀ c ∈ cs, IsCapital c) ∧ lettersValue cs = n + 1 := by
  constructor
  · rintro rfl
    exact ⟨columnLetters_capital n, lettersValue_columnLetters n⟩
  · rintro ⟨hcs, hvalue⟩
    exact eq_of_lettersValue (columnLetters_capital n) hcs ((lettersValue_columnLetters n).trans hvalue.symm)

theorem columnLetter_injective : Function.Injective columnLetter := by
  intro m n h
  have hletters : columnLetters m = columnLetters n := by
    simpa [columnLetter] using congrArg String.toList h
  have hvalue := lettersValue_columnLetters m
  rw [hletters, lettersValue_columnLetters] at hvalue
  omega

theorem columnLetters_ne_nil (n : Nat) : columnLetters n ≠ [] := by
  intro h
  have hvalue := lettersValue_columnLetters n
  rw [h] at hvalue
  cases hvalue

/-! ### Letters as titles -/

namespace Text

theorem wordsFrom_solid {word cs : List Char} (hcs : ∀ c ∈ cs, isBlank c = false) (hne : word ≠ [] ∨ cs ≠ []) :
    wordsFrom word cs = [word.reverse ++ cs] := by
  induction cs generalizing word with
  | nil => simp [wordsFrom, hne.resolve_right (by simp)]
  | cons c cs ih =>
    rw [wordsFrom, hcs c List.mem_cons_self, if_neg Bool.false_ne_true,
      ih (fun d hd => hcs d (List.mem_cons_of_mem c hd)) (.inl (List.cons_ne_nil c word))]
    simp

end Text

theorem IsCapital.isBlank {c : Char} (h : IsCapital c) : Text.isBlank c = false := by
  have hc := isCapital_iff.mp h
  have hne : c ≠ ' ' := by
    rintro rfl
    exact absurd hc.1 (by decide)
  rw [Text.isBlank, if_pos (by omega)]
  simp only [hne, decide_false, Bool.false_or, Bool.and_eq_false_iff, decide_eq_false_iff_not]
  exact .inr (by omega)

theorem IsCapital.upperChar {c : Char} (h : IsCapital c) : Text.upperChar c = [c] := by
  have hc := isCapital_iff.mp h
  have hlower : ¬('a'.val ≤ c.val ∧ c.val ≤ 'z'.val) := by
    rintro ⟨hlow, -⟩
    have hlow : 97 ≤ c.toNat := UInt32.le_iff_toNat_le.mp hlow
    omega
  have hsame : c.toUpper = c := dif_neg hlower
  rw [Text.upperChar, if_pos (by omega), hsame]

/-- Capital letters are their own normalized form. -/
theorem normalize_capitals {s : String} (hs : ∀ c ∈ s.toList, IsCapital c) (hne : s ≠ "") : normalize s = s := by
  have hwords : Text.words s.toList = [s.toList] :=
    Text.wordsFrom_solid (fun c hc => (hs c hc).isBlank) (.inr (by simpa using hne))
  have hupper : s.toList.flatMap Text.upperChar = s.toList.flatMap fun c => [c] :=
    List.flatMap_congr fun c hc => (hs c hc).upperChar
  rw [normalize, hwords, Text.toUpper]
  simp [List.intercalate, hupper]

theorem columnLetter_capital (n : Nat) : ∀ c ∈ (columnLetter n).toList, IsCapital c := by
  simpa [columnLetter] using columnLetters_capital n

theorem columnLetter_ne_empty (n : Nat) : columnLetter n ≠ "" := by
  simpa [columnLetter] using columnLetters_ne_nil n

theorem normalize_columnLetter (n : Nat) : normalize (columnLetter n) = columnLetter n :=
  normalize_capitals (columnLetter_capital n) (columnLetter_ne_empty n)

/-- What stands behind the name of a table is not the letters of a column: it has a point. -/
theorem columnLetter_ne_qualified (n : Nat) (table title : String) : columnLetter n ≠ table ++ "." ++ title := by
  intro h
  have hpoint : IsCapital '.' := columnLetter_capital n '.' (by simp [h])
  exact absurd (isCapital_iff.mp hpoint) (by decide)

namespace Schema

/-- Of the spellings of a title only the title itself can be the letters of a column. -/
theorem find?_addSpellings_letter (s : Schema) (table : String) {title : String} (htitle : title ≠ "") (column n : Nat) :
    (s.addSpellings table none title column).find? (columnLetter n) =
      (s.find? (columnLetter n)).or (if columnLetter n = title then some column else none) := by
  have hbare := find?_insert s htitle column (columnLetter n)
  unfold addSpellings
  dsimp only
  split
  · exact hbare
  · have hqualified : normalize table ++ "." ++ title ≠ "" := by simp
    rw [find?_insert _ hqualified, if_neg (columnLetter_ne_qualified n _ _), Option.or_none]
    exact hbare

/-- Letters that are all free yet can be added as titles, and each is then known as its column. -/
theorem addTitles_letters (table : String) (count : Nat) (s : Schema) (first : Nat)
    (hfree : ∀ i, first ≤ i → s.find? (columnLetter i) = none) :
    ∃ s', addTitles table none s first ((List.range' first count).map columnLetter) = .ok s' ∧
      ∀ i, s'.find? (columnLetter i) =
        (s.find? (columnLetter i)).or (if first ≤ i ∧ i < first + count then some i else none) := by
  induction count generalizing s first with
  | zero =>
    refine ⟨s, rfl, fun i => ?_⟩
    rw [if_neg (by omega), Option.or_none]
  | succ count ih =>
    have hadd := find?_addSpellings_letter s table (columnLetter_ne_empty first) first
    obtain ⟨s', hs', hfind⟩ := ih (s.addSpellings table none (columnLetter first) first) (first + 1) fun i hi => by
      rw [hadd, hfree i (by omega), Option.none_or,
        if_neg fun h => absurd (columnLetter_injective h) (by omega)]
    refine ⟨s', ?_, fun i => ?_⟩
    · rw [List.range'_succ, List.map_cons, addTitles, normalize_columnLetter,
        if_neg (columnLetter_ne_empty first), hfree first (le_refl first), Option.isSome_none,
        if_neg Bool.false_ne_true]
      exact hs'
    · rw [hfind, hadd, Option.or_assoc]
      congr 1
      by_cases hi : i = first
      · simp [hi]
      · rw [if_neg fun h => hi (columnLetter_injective h), Option.none_or]
        congr 1
        exact propext ⟨fun h => ⟨by omega, by omega⟩, fun h => ⟨by omega, by omega⟩⟩

end Schema

theorem fitRow_of_le {width : Nat} {row : Row} (h : row.length ≤ width) :
    fitRow width row = row ++ List.replicate (width - row.length) .null := by
  rw [fitRow, List.take_of_length_le]
  simp [h]

/-- The letters of the first columns make a schema that knows each column by its letters. -/
theorem Schema.ofTitles_letters (name : String) (width : Nat) :
    ∃ schema, Schema.ofTitles name none ((List.range width).map columnLetter) = .ok schema ∧
      ∀ i < width, schema.column? (columnLetter i) = some i := by
  obtain ⟨schema, hschema, hfind⟩ := Schema.addTitles_letters name width .empty 0 fun _ _ => rfl
  refine ⟨schema, by rw [List.range_eq_range', Schema.ofTitles, hschema], fun i hi => ?_⟩
  have hfree : Schema.empty.find? (columnLetter i) = none := rfl
  rw [Schema.column?, normalize_columnLetter, hfind, hfree, if_pos ⟨Nat.zero_le i, by omega⟩, Option.none_or]

/-- A table of data alone can be made whatever its name is and however long its rows are. It is as wide as the
longest row, every row stands in it with nulls behind it, and its columns are found under their letters. These
letters are the numerals without a zero: for each number from one on there is one text of capital letters that has
this number as its value, `A` being one, and it is the text of the column that has the place before that number. So
no two columns share their letters. -/
theorem untitled_loads (name : String) (rows : List Row) :
    (∃ t, Table.untitled name rows = .ok t ∧
      t.width = (rows.map List.length).max?.getD 0 ∧
      t.rows = rows.map (fun row => row ++ List.replicate (t.width - row.length) .null) ∧
      ∀ i < t.width, t.titles[i]? = some (columnLetter i) ∧ t.column? (columnLetter i) = some i) ∧
    Function.Injective columnLetter ∧
    ∀ (n : Nat) (s : String),
      columnLetter n = s ↔ (∀ c ∈ s.toList, 'A' ≤ c ∧ c ≤ 'Z') ∧ lettersValue s.toList = n + 1 := by
  refine ⟨?_, columnLetter_injective, fun n s => ?_⟩
  · obtain ⟨width, hwidth⟩ : ∃ width, (rows.map List.length).max?.getD 0 = width := ⟨_, rfl⟩
    have hlongest : ∀ row ∈ rows, row.length ≤ width := fun row hrow =>
      hwidth ▸ List.le_max?_getD_of_mem (List.mem_map_of_mem hrow)
    obtain ⟨schema, hschema, hfind⟩ := Schema.ofTitles_letters name width
    have htitles : ((List.range width).map columnLetter).length = width := by simp
    refine ⟨Table.withSchema name ((List.range width).map columnLetter) rows schema, ?_, ?_, ?_, fun i hi => ?_⟩
    · rw [Table.untitled, List.foldl_max, hwidth, Nat.zero_max, Table.ofParts, hschema]
      rfl
    · exact htitles.trans hwidth.symm
    · refine List.map_congr_left fun row hrow => ?_
      exact fitRow_of_le ((hlongest row hrow).trans htitles.ge)
    · have hi : i < width := htitles ▸ hi
      exact ⟨by simp [Table.withSchema, hi], hfind i hi⟩
  · refine Iff.trans ?_ (columnLetters_eq_iff n s.toList)
    rw [columnLetter, ← String.toList_inj, String.toList_ofList]

end GridQuery
