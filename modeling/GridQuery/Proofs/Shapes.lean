import GridQuery.Proofs.Visible

/-!
What one lexeme takes. A lexeme goes on behind its first character in one of a few ways, and in each it is
the same without what stands behind it, as long as what it takes is left; so is the gap in front of it.
What it takes ends with a character that is no blank, unless it is an error.
-/

namespace GridQuery
set_option autoImplicit false

/-! ### All but the last -/

section

variable {α : Type} {k : Nat}

theorem rdrop_cons {r : List α} (h : k ≤ r.length) (t : α) : (t :: r).rdrop k = t :: r.rdrop k := by
  rw [List.rdrop, List.rdrop, List.length_cons, Nat.succ_sub h, List.take_succ_cons]

theorem rdrop_of_length_le {ts : List α} (h : ts.length ≤ k) : ts.rdrop k = [] := by
  rw [List.rdrop, Nat.sub_eq_zero_of_le h, List.take_zero]

theorem rdrop_drop (ts : List α) (n : Nat) : (ts.drop n).rdrop k = (ts.rdrop k).drop n := by
  rw [List.rdrop, List.rdrop, List.drop_take, List.length_drop, Nat.sub_right_comm]

theorem rdrop_length (ts : List α) : ts.rdrop ts.length = [] :=
  rdrop_of_length_le (Nat.le_refl _)

theorem suffix_rdrop {ts us : List α} (h : us <:+ ts) (hk : k ≤ us.length) :
    us.rdrop k <:+ ts.rdrop k := by
  obtain ⟨a, rfl⟩ := h
  rw [List.rdrop_append_of_le_length k hk]
  exact List.suffix_append a _

theorem rdrop_rdrop_length {ts us : List α} (hk : k ≤ us.length) (h : us.length ≤ ts.length) :
    (ts.rdrop k).rdrop (us.rdrop k).length = ts.rdrop us.length := by
  simp only [List.rdrop, List.length_take, List.take_take]
  congr 1
  omega

theorem head?_of_rdrop {ts : List α} {a : α} (h : (ts.rdrop k).head? = some a) :
    ts.head? = some a := by
  cases ts with
  | nil => simp [List.rdrop] at h
  | cons t r =>
    by_cases hk : k ≤ r.length
    · rw [rdrop_cons hk] at h
      exact h
    · rw [rdrop_of_length_le (Nat.lt_of_not_le hk)] at h
      cases h

end

/-! ### Bytes -/

namespace Text

theorem byteLength_suffix {cs ds : List Char} (h : ds <:+ cs) : byteLength ds ≤ byteLength cs := by
  obtain ⟨a, rfl⟩ := h
  rw [byteLength_append]
  exact Nat.le_add_left _ _

theorem byteLength_rdrop {cs ds : List Char} (h : ds <:+ cs) :
    byteLength (cs.rdrop ds.length) = byteLength cs - byteLength ds := by
  obtain ⟨a, rfl⟩ := h
  rw [List.rdrop_append_length, byteLength_append, Nat.add_sub_cancel]

theorem dropBytes_append (cs ds : List Char) : dropBytes (byteLength cs) (cs ++ ds) = ds := by
  induction cs with
  | nil =>
    cases ds <;> simp [byteLength, dropBytes]
  | cons c cs ih =>
    have hc := c.utf8Size_pos
    rw [List.cons_append, byteLength]
    obtain ⟨n, hn⟩ : ∃ n, c.utf8Size + byteLength cs = n + 1 := ⟨c.utf8Size + byteLength cs - 1, by omega⟩
    rw [hn, dropBytes, ← hn, Nat.add_sub_cancel_left, ih]

theorem takeBytes_append (cs ds : List Char) : takeBytes (byteLength cs) (cs ++ ds) = cs := by
  induction cs with
  | nil =>
    cases ds <;> simp [byteLength, takeBytes]
  | cons c cs ih =>
    have hc := c.utf8Size_pos
    rw [List.cons_append, byteLength]
    obtain ⟨n, hn⟩ : ∃ n, c.utf8Size + byteLength cs = n + 1 := ⟨c.utf8Size + byteLength cs - 1, by omega⟩
    rw [hn, takeBytes, if_neg (by omega), ← hn, Nat.add_sub_cancel_left, ih]

/-- The stretch of a text between two of its ends. -/
theorem sliceBytes_suffix {cs ds es : List Char} (hds : ds <:+ cs) (hes : es <:+ ds) :
    sliceBytes cs (byteLength cs - byteLength ds) (byteLength cs - byteLength es) =
      ds.rdrop es.length := by
  obtain ⟨a, rfl⟩ := hds
  obtain ⟨b, rfl⟩ := hes
  have hstart : byteLength (a ++ (b ++ es)) - byteLength (b ++ es) = byteLength a := by
    rw [byteLength_append, Nat.add_sub_cancel]
  have hstop : byteLength (a ++ (b ++ es)) - byteLength es - byteLength a = byteLength b := by
    simp only [byteLength_append]
    omega
  rw [sliceBytes, hstart, hstop, dropBytes_append, takeBytes_append, List.rdrop_append_length]

theorem sliceBytes_of_le {cs : List Char} {start stop : Nat} (h : stop ≤ start) :
    sliceBytes cs start stop = [] := by
  rw [sliceBytes, Nat.sub_eq_zero_of_le h]
  cases dropBytes start cs <;> simp [takeBytes]

end Text

namespace Lexer

variable {k : Nat}

/-! ### Gaps and spans -/

/-- A span that ends before the last `k` is the same without them. -/
theorem span_rdrop {p : Char → Bool} {l : List Char} (h : k ≤ (l.dropWhile p).length) :
    (l.rdrop k).takeWhile p = l.takeWhile p ∧ (l.rdrop k).dropWhile p = (l.dropWhile p).rdrop k := by
  have hsplit : l.rdrop k = l.takeWhile p ++ (l.dropWhile p).rdrop k := by
    rw [← List.rdrop_append_of_le_length k h, List.takeWhile_append_dropWhile]
  rw [hsplit]
  refine takeWhile_append_ends (fun c hc => List.mem_takeWhile_imp hc) fun c hc => ?_
  have hnot := List.head?_dropWhile_not p l
  rw [head?_of_rdrop hc] at hnot
  simpa using hnot

theorem skipBlock_suffix (cs : List Char) : skipBlock cs <:+ cs := by
  fun_induction skipBlock cs with
  | case1 r => exact ⟨['*', '/'], rfl⟩
  | case2 c r _ ih => exact ih.trans (List.suffix_cons c r)
  | case3 => exact List.suffix_rfl

theorem skipBlock_rdrop {l : List Char} (h : k ≤ (skipBlock l).length) :
    skipBlock (l.rdrop k) = (skipBlock l).rdrop k := by
  fun_induction skipBlock l with
  | case1 r => rw [rdrop_cons (Nat.le_succ_of_le h), rdrop_cons h, skipBlock]
  | case2 c r hno ih =>
    rw [rdrop_cons (h.trans (length_skipBlock_le r)), skipBlock, ih h]
    intro r' hc hr
    obtain ⟨s, rfl⟩ : ∃ s, r = '/' :: s := by
      have hhead : r.head? = some '/' := head?_of_rdrop (by rw [hr]; rfl)
      exact ⟨r.tail, (List.cons_head?_tail hhead).symm⟩
    exact hno s hc rfl
  | case3 => rw [rdrop_of_length_le (Nat.zero_le k), skipBlock]

theorem solid_rdrop {c : Char} {r : List Char} (h : Solid c r) : Solid c (r.rdrop k) :=
  ⟨h.1, fun hc hr => h.2.1 hc (head?_of_rdrop hr), fun hc hr => h.2.2 hc (head?_of_rdrop hr)⟩

theorem skip_solid {cs r : List Char} {c : Char} (h : skip cs = c :: r) : Solid c r := by
  fun_induction skip cs with
  | case1 r' ih => exact ih h
  | case2 r' ih => exact ih h
  | case3 c' r' _ _ _ ih => exact ih h
  | case4 c' r' hm hs hb =>
    cases h
    refine ⟨Bool.eq_false_iff.2 hb, fun hc hr => ?_, fun hc hr => ?_⟩
    · exact hm r.tail hc (List.cons_head?_tail hr).symm
    · exact hs r.tail hc (List.cons_head?_tail hr).symm
  | case5 => cases h

theorem skip_suffix (cs : List Char) : skip cs <:+ cs := by
  fun_induction skip cs with
  | case1 r ih => exact (ih.trans (List.dropWhile_suffix _)).trans ⟨['-', '-'], rfl⟩
  | case2 r ih => exact (ih.trans (skipBlock_suffix r)).trans ⟨['/', '*'], rfl⟩
  | case3 c r _ _ _ ih => exact ih.trans (List.suffix_cons c r)
  | case4 => exact List.suffix_rfl
  | case5 => exact List.suffix_rfl

/-- A gap is passed over without what stands behind it. -/
theorem skip_rdrop {cs : List Char} (hk : k ≤ (skip cs).length) :
    skip (cs.rdrop k) = (skip cs).rdrop k := by
  fun_induction skip cs with
  | case1 r ih =>
    have hrest : k ≤ (skipLine r).length := hk.trans (skip_suffix _).length_le
    have hline : skipLine (r.rdrop k) = (skipLine r).rdrop k := (span_rdrop hrest).2
    have hr : k ≤ r.length := hrest.trans (length_dropWhile_le _ _)
    rw [rdrop_cons (Nat.le_succ_of_le hr), rdrop_cons hr, skip, hline, ih hk]
  | case2 r ih =>
    have hrest : k ≤ (skipBlock r).length := hk.trans (skip_suffix _).length_le
    have hr : k ≤ r.length := hrest.trans (length_skipBlock_le r)
    rw [rdrop_cons (Nat.le_succ_of_le hr), rdrop_cons hr, skip, skipBlock_rdrop hrest, ih hk]
  | case3 c r hm hs hb ih =>
    rw [rdrop_cons (hk.trans (skip_suffix r).length_le), skip, if_pos hb]
    · exact ih hk
    · exact fun r' hc hr => hm _ hc (List.cons_head?_tail (head?_of_rdrop (by rw [hr]; rfl))).symm
    · exact fun r' hc hr => hs _ hc (List.cons_head?_tail (head?_of_rdrop (by rw [hr]; rfl))).symm
  | case4 c r hm hs hb =>
    have hskip : skip (c :: r) = c :: r := by
      rw [skip, if_neg hb] <;> assumption
    have hsolid : Solid c r := skip_solid hskip
    by_cases hr : k ≤ r.length
    · rw [rdrop_cons hr]
      exact skip_of_solid (solid_rdrop hsolid)
    · rw [rdrop_of_length_le (Nat.lt_of_not_le hr), skip]
  | case5 => rw [rdrop_of_length_le (Nat.zero_le k), skip]

/-! ### One lexeme -/

theorem takeWhile_nil_rdrop {p : Char → Bool} {l : List Char} (h : l.takeWhile p = []) :
    (l.rdrop k).takeWhile p = [] := by
  cases hl : l.rdrop k with
  | nil => rfl
  | cons c r =>
    have hhead : l.head? = some c := head?_of_rdrop (by rw [hl]; rfl)
    rw [List.cons_head?_tail hhead |>.symm, List.takeWhile_cons] at h
    rw [List.takeWhile_cons]
    split at h
    · cases h
    · rw [if_neg ‹_›]

theorem take_rdrop {l : List Char} {n : Nat} (hk : k ≤ (l.drop n).length) :
    (l.rdrop k).take n = l.take n := by
  rw [List.length_drop] at hk
  rw [List.rdrop, List.take_take]
  by_cases hn : n ≤ l.length
  · rw [Nat.min_eq_left (by omega)]
  · obtain rfl : k = 0 := by omega
    rw [List.take_of_length_le (by omega), List.take_of_length_le (by omega)]

/-- What was read behind a quote ends with the next one that is not doubled. -/
theorem quotedText?_body {quote : Char} {l value rest : List Char}
    (h : quotedText? quote l = some (value, rest)) :
    rest.head? ≠ some quote ∧
      l = (value.flatMap fun c => if c = quote then [c, c] else [c]) ++ quote :: rest := by
  fun_induction quotedText? quote l generalizing value with
  | case1 => cases h
  | case2 r ih =>
    obtain ⟨⟨v, rest'⟩, hv, heq⟩ := Option.map_eq_some_iff.1 h
    cases heq
    obtain ⟨hrest, rfl⟩ := ih hv
    exact ⟨hrest, by simp⟩
  | case3 d r hd =>
    cases h
    exact ⟨by simpa using hd, rfl⟩
  | case4 =>
    cases h
    exact ⟨by simp, rfl⟩
  | case5 c r hc ih =>
    obtain ⟨⟨v, rest'⟩, hv, heq⟩ := Option.map_eq_some_iff.1 h
    cases heq
    obtain ⟨hrest, rfl⟩ := ih hv
    exact ⟨hrest, by simp [hc]⟩

theorem quotedLexeme_rdrop {quote : Char} {l : String → Lexeme} {r : List Char}
    (hk : k ≤ (quotedLexeme quote l r).2.length) :
    quotedLexeme quote l (r.rdrop k) =
      ((quotedLexeme quote l r).1, (quotedLexeme quote l r).2.rdrop k) := by
  unfold quotedLexeme at hk ⊢
  cases h : quotedText? quote r with
  | some v =>
    obtain ⟨value, rest⟩ := v
    rw [h] at hk
    obtain ⟨hrest, hr⟩ := quotedText?_body h
    have hk : k ≤ rest.length := hk
    have hrest' : (rest.rdrop k).head? ≠ some quote := fun h => hrest (head?_of_rdrop h)
    have hagain := quotedText?_doubled quote hrest' value
    have hle : k ≤ (quote :: rest).length := Nat.le_succ_of_le hk
    rw [hr, List.rdrop_append_of_le_length k hle, rdrop_cons hk, hagain]
  | none =>
    rw [h] at hk
    obtain rfl : k = 0 := Nat.le_zero.1 hk
    rw [List.rdrop_zero, h]
    rfl

theorem paired_rdrop {second : List (Char × Lexeme)} {alone : Lexeme} {r : List Char}
    (hk : k ≤ (paired second alone r).2.length) :
    paired second alone (r.rdrop k) =
      ((paired second alone r).1, (paired second alone r).2.rdrop k) := by
  cases r with
  | nil => simp [paired, List.rdrop]
  | cons d r =>
    unfold paired at hk ⊢
    cases hd : second.lookup d with
    | some l =>
      simp only [hd] at hk ⊢
      rw [rdrop_cons hk]
      simp only [hd]
    | none =>
      simp only [hd] at hk ⊢
      by_cases hr : k ≤ r.length
      · rw [rdrop_cons hr]
        simp only [hd]
      · rw [rdrop_of_length_le (Nat.lt_of_not_le hr)]

theorem length_takeWhile_rdrop {p : Char → Bool} {l : List Char}
    (hk : k ≤ (l.drop (l.takeWhile p).length).length) : (l.rdrop k).takeWhile p = l.takeWhile p := by
  refine (span_rdrop ?_).1
  rw [List.length_drop] at hk
  have := congrArg List.length (List.takeWhile_append_dropWhile (p := p) (l := l))
  rw [List.length_append] at this
  omega

theorem fractionLength_rdrop {l : List Char} (hk : k ≤ (l.drop (fractionLength l)).length) :
    fractionLength (l.rdrop k) = fractionLength l := by
  cases l with
  | nil => simp [List.rdrop]
  | cons c r =>
    by_cases hc : c = '.'
    · subst hc
      by_cases hn : (r.takeWhile Char.isDigit).length = 0
      · have hnone : fractionLength ('.' :: r) = 0 := by simp only [fractionLength, hn, if_true]
        rw [hnone]
        by_cases hr : k ≤ r.length
        · rw [rdrop_cons hr, fractionLength, takeWhile_nil_rdrop (List.length_eq_zero_iff.1 hn)]
          rfl
        · rw [rdrop_of_length_le (Nat.lt_of_not_le hr)]
          rfl
      · have hsome : fractionLength ('.' :: r) = (r.takeWhile Char.isDigit).length + 1 := by
          simp only [fractionLength, hn, if_false]
        rw [hsome, List.drop_succ_cons] at hk
        have hr : k ≤ r.length := hk.trans (List.drop_suffix _ r).length_le
        rw [rdrop_cons hr, fractionLength, fractionLength, length_takeWhile_rdrop hk]
    · have hother : ∀ s : List Char, fractionLength (c :: s) = 0 := by
        intro s
        unfold fractionLength
        split
        · rename_i heq
          cases heq
          exact absurd rfl hc
        · rfl
      by_cases hr : k ≤ r.length
      · rw [rdrop_cons hr, hother, hother]
      · rw [rdrop_of_length_le (Nat.lt_of_not_le hr), hother]
        rfl

theorem exponentLength_cons (c d : Char) (r : List Char) : exponentLength (c :: d :: r) =
    if c = 'e' ∨ c = 'E' then
      if d = '+' ∨ d = '-' then (r.takeWhile Char.isDigit).length + 2
      else if ((d :: r).takeWhile Char.isDigit).length = 0 then 0
        else ((d :: r).takeWhile Char.isDigit).length + 1
    else 0 := rfl

/-- Where no exponent stands, none stands in less. -/
theorem exponentLength_rdrop_zero {l : List Char} (h : exponentLength l = 0) :
    exponentLength (l.rdrop k) = 0 := by
  cases l with
  | nil => simpa [List.rdrop] using h
  | cons c s =>
    by_cases hs : k ≤ s.length
    · rw [rdrop_cons hs]
      cases s with
      | nil => simp [List.rdrop, exponentLength]
      | cons d r =>
        by_cases hr : k ≤ r.length
        · rw [rdrop_cons hr, exponentLength_cons]
          rw [exponentLength_cons] at h
          split at h
          · rw [if_pos ‹_›]
            split at h
            · omega
            · rw [if_neg ‹_›]
              split at h
              · rw [← rdrop_cons hr, takeWhile_nil_rdrop (List.length_eq_zero_iff.1 ‹_›)]
                rfl
              · omega
          · rw [if_neg ‹_›]
        · rw [rdrop_of_length_le (Nat.lt_of_not_le hr)]
          rfl
    · rw [rdrop_of_length_le (Nat.lt_of_not_le hs)]
      rfl

theorem exponentLength_rdrop {l : List Char} (hk : k ≤ (l.drop (exponentLength l)).length) :
    exponentLength (l.rdrop k) = exponentLength l := by
  by_cases hzero : exponentLength l = 0
  · rw [hzero, exponentLength_rdrop_zero hzero]
  · match l with
    | [] => exact absurd rfl hzero
    | [c] => exact absurd rfl hzero
    | c :: d :: r =>
      rw [exponentLength_cons] at hk hzero ⊢
      split at hzero
      · simp only [if_pos ‹c = 'e' ∨ c = 'E'›] at hk ⊢
        split at hzero
        · simp only [if_pos ‹d = '+' ∨ d = '-'›, List.drop_succ_cons] at hk ⊢
          have hr : k ≤ r.length := hk.trans (List.drop_suffix _ r).length_le
          rw [rdrop_cons (Nat.le_succ_of_le hr), rdrop_cons hr, exponentLength_cons, if_pos ‹_›,
            if_pos ‹_›, length_takeWhile_rdrop hk]
        · simp only [if_neg ‹¬(d = '+' ∨ d = '-')›] at hk ⊢
          split at hzero
          · exact absurd rfl hzero
          · simp only [if_neg ‹¬((d :: r).takeWhile Char.isDigit).length = 0›,
              List.drop_succ_cons] at hk ⊢
            have hr : k ≤ r.length := by
              rw [List.length_drop, List.length_cons] at hk
              omega
            rw [rdrop_cons (Nat.le_succ_of_le hr), rdrop_cons hr, exponentLength_cons, if_pos ‹_›,
              if_neg ‹_›, ← rdrop_cons hr, length_takeWhile_rdrop hk, if_neg ‹_›]
      · exact absurd rfl hzero

theorem numberLexeme_rdrop {c : Char} {r : List Char} (hk : k ≤ (numberLexeme c r).2.length) :
    numberLexeme c (r.rdrop k) = ((numberLexeme c r).1, (numberLexeme c r).2.rdrop k) := by
  have hless : ∀ n i, k ≤ (r.drop (n + i)).length → k ≤ (r.drop n).length := by
    intro n i h
    rw [List.length_drop] at h ⊢
    omega
  have hexponent := hless _ _ hk
  have hfraction := hless _ _ hexponent
  have hwhole : (r.rdrop k).takeWhile Char.isDigit = r.takeWhile Char.isDigit :=
    length_takeWhile_rdrop hfraction
  unfold numberLexeme
  dsimp only
  rw [hwhole, ← rdrop_drop, fractionLength_rdrop (by rwa [List.drop_drop]), ← rdrop_drop,
    exponentLength_rdrop (by rwa [List.drop_drop]), ← rdrop_drop, take_rdrop hk]

/-- The ways of a lexeme behind its first character. -/
inductive Shape (f : List Char → Lexeme × List Char) : Prop where
  | single (l : Lexeme) (h : ∀ r, f r = (l, r))
  | span (p : Char → Bool) (l : List Char → Lexeme)
      (hp : ∀ d, p d = true → Text.isBlank d = false)
      (h : ∀ r, f r = (l (r.takeWhile p), r.dropWhile p))
  | paired (second : List (Char × Lexeme)) (alone : Lexeme)
      (hs : ∀ p ∈ second, Text.isBlank p.1 = false) (h : ∀ r, f r = paired second alone r)
  | quoted (quote : Char) (l : String → Lexeme) (hq : Text.isBlank quote = false)
      (h : ∀ r, f r = quotedLexeme quote l r)
  | number (c : Char) (h : ∀ r, f r = numberLexeme c r)

theorem isBlank_of_isDigit {c : Char} (h : c.isDigit = true) : Text.isBlank c = false := by
  apply Text.isBlank_of_isAlphanumeric
  have hlow : c.toNat < 128 := by
    rw [Char.isDigit, Bool.and_eq_true, decide_eq_true_eq, decide_eq_true_eq] at h
    have := UInt32.le_iff_toNat_le.mp h.2
    exact Nat.lt_of_le_of_lt this (by decide)
  rw [Text.isAlphanumeric, if_pos hlow, Char.isAlphanum, h, Bool.or_true]

theorem isBlank_of_isNameChar {c : Char} (h : isNameChar c = true) : Text.isBlank c = false := by
  simp only [isNameChar, Bool.or_eq_true, decide_eq_true_eq] at h
  rcases h with ((h | rfl) | rfl) | rfl
  · exact Text.isBlank_of_isAlphanumeric h
  · decide
  · decide
  · decide

/-- The characters that are a lexeme alone, whatever stands behind them. -/
def signs : List Char :=
  ['(', ')', ',', ';', '+', '-', '*', '/', '%', '=']

/-- The characters that begin a lexeme with more to it. -/
def openers : List Char :=
  ['?', '.', '<', '>', '!', '|', '\x27', '\x22', '\x60']

theorem lexeme_unexpected {c : Char} (hsign : c ∉ signs) (hopen : c ∉ openers)
    (hd : c.isDigit = false) (hw : ¬StartsWord c) (r : List Char) :
    lexeme c r = (unexpected c, r) := by
  unfold lexeme
  split
  all_goals first
    | exact absurd (by decide) hsign
    | exact absurd (by decide) hopen
    | skip
  rw [if_neg (by simp [hd]), if_neg (by simpa [StartsWord] using hw)]

theorem lexeme_shape (c : Char) : Shape (lexeme c) := by
  by_cases hd : c.isDigit = true
  · exact .number c (lexeme_digit hd)
  by_cases hw : StartsWord c
  · exact .span isNameChar (fun ds => wordLexeme (c :: ds)) (fun _ => isBlank_of_isNameChar)
      (lexeme_word hw)
  by_cases hsign : c ∈ signs
  · simp only [signs, List.mem_cons, List.not_mem_nil, or_false] at hsign
    rcases hsign with rfl | rfl | rfl | rfl | rfl | rfl | rfl | rfl | rfl | rfl
    all_goals exact .single _ fun _ => rfl
  by_cases hopen : c ∈ openers
  · simp only [openers, List.mem_cons, List.not_mem_nil, or_false] at hopen
    rcases hopen with rfl | rfl | rfl | rfl | rfl | rfl | rfl | rfl | rfl
    · exact .span Char.isDigit placeholderLexeme (fun _ => isBlank_of_isDigit) fun _ => rfl
    · refine .span Char.isDigit
        (fun ds => if ds.isEmpty then .dot else floatLexeme ('0' :: '.' :: ds))
        (fun _ => isBlank_of_isDigit) fun r => ?_
      have hdot : lexeme '.' r = if (r.takeWhile Char.isDigit).isEmpty then (.dot, r)
          else (floatLexeme ('0' :: '.' :: r.takeWhile Char.isDigit), r.dropWhile Char.isDigit) := rfl
      rw [hdot]
      by_cases hnone : (r.takeWhile Char.isDigit).isEmpty
      · rw [if_pos hnone, if_pos hnone]
        have := List.takeWhile_append_dropWhile (p := Char.isDigit) (l := r)
        rw [List.isEmpty_iff.1 hnone, List.nil_append] at this
        rw [this]
      · rw [if_neg hnone, if_neg hnone]
    · exact .paired _ _ (by decide) fun _ => rfl
    · exact .paired _ _ (by decide) fun _ => rfl
    · exact .paired _ _ (by decide) fun _ => rfl
    · exact .paired _ _ (by decide) fun _ => rfl
    · exact .quoted _ _ (by decide) fun _ => rfl
    · exact .quoted _ _ (by decide) fun _ => rfl
    · exact .quoted _ _ (by decide) fun _ => rfl
  exact .single _ (lexeme_unexpected hsign hopen (Bool.eq_false_iff.2 hd) hw)

/-- A lexeme is the same without what stands behind it. -/
theorem Shape.rdrop {f : List Char → Lexeme × List Char} (hf : Shape f) {r : List Char}
    (hk : k ≤ (f r).2.length) : f (r.rdrop k) = ((f r).1, (f r).2.rdrop k) := by
  cases hf with
  | single l h => rw [h, h]
  | span p l _ h =>
    rw [h] at hk
    obtain ⟨htake, hdrop⟩ := span_rdrop hk
    rw [h, h, htake, hdrop]
  | paired second alone _ h =>
    rw [h] at hk
    rw [h, h, paired_rdrop hk]
  | quoted quote l _ h =>
    rw [h] at hk
    rw [h, h, quotedLexeme_rdrop hk]
  | number c h =>
    rw [h] at hk
    rw [h, h, numberLexeme_rdrop hk]

/-- The characters end with none, or with one that is no blank. -/
def EndsVisibly (cs : List Char) : Prop :=
  ∀ c ∈ cs.getLast?, Text.isBlank c = false

theorem endsVisibly_of_forall {cs : List Char} (h : ∀ c ∈ cs, Text.isBlank c = false) :
    EndsVisibly cs :=
  fun c hc => h c (List.mem_of_getLast? hc)

theorem take_length_takeWhile (p : Char → Bool) (l : List Char) :
    l.take (l.takeWhile p).length = l.takeWhile p :=
  (List.prefix_iff_eq_take.1 (List.takeWhile_prefix p)).symm

theorem fraction_visible (l : List Char) :
    ∀ c ∈ l.take (fractionLength l), Text.isBlank c = false := by
  unfold fractionLength
  split
  · rename_i r
    dsimp only
    split
    · simp
    · rw [List.take_succ_cons]
      intro c hc
      rcases List.mem_cons.1 hc with rfl | hc
      · decide
      · rw [take_length_takeWhile] at hc
        exact isBlank_of_isDigit (List.mem_takeWhile_imp hc)
  · simp

theorem exponent_visible (l : List Char) :
    ∀ c ∈ l.take (exponentLength l), Text.isBlank c = false := by
  match l with
  | [] | [_] => simp [exponentLength]
  | c :: d :: r =>
    rw [exponentLength_cons]
    by_cases hc : c = 'e' ∨ c = 'E'
    · have hmark : Text.isBlank c = false := by
        rcases hc with rfl | rfl <;> decide
      rw [if_pos hc]
      by_cases hd : d = '+' ∨ d = '-'
      · have hsign : Text.isBlank d = false := by
          rcases hd with rfl | rfl <;> decide
        rw [if_pos hd, List.take_succ_cons, List.take_succ_cons, take_length_takeWhile,
          List.forall_mem_cons, List.forall_mem_cons]
        exact ⟨hmark, hsign, fun c hc => isBlank_of_isDigit (List.mem_takeWhile_imp hc)⟩
      · rw [if_neg hd]
        by_cases hn : ((d :: r).takeWhile Char.isDigit).length = 0
        · rw [if_pos hn]
          simp
        · rw [if_neg hn, List.take_succ_cons, take_length_takeWhile, List.forall_mem_cons]
          exact ⟨hmark, fun c hc => isBlank_of_isDigit (List.mem_takeWhile_imp hc)⟩
    · rw [if_neg hc]
      simp

theorem number_visible (r : List Char) (whole : Nat) (hw : whole = (r.takeWhile Char.isDigit).length) :
    ∀ c ∈ r.take (whole + fractionLength (r.drop whole) +
      exponentLength (r.drop (whole + fractionLength (r.drop whole)))), Text.isBlank c = false := by
  intro c hc
  rw [List.take_add, List.take_add, List.mem_append, List.mem_append] at hc
  rcases hc with (hc | hc) | hc
  · rw [hw, take_length_takeWhile] at hc
    exact isBlank_of_isDigit (List.mem_takeWhile_imp hc)
  · exact fraction_visible _ c hc
  · exact exponent_visible _ c hc

/-- What a lexeme takes ends visibly, unless it is an error. -/
theorem Shape.taken {f : List Char → Lexeme × List Char} (hf : Shape f) (r : List Char) :
    ∃ a, a ++ (f r).2 = r ∧ ((∀ m, (f r).1 ≠ .error m) → EndsVisibly a) := by
  cases hf with
  | single l h =>
    rw [h]
    exact ⟨[], rfl, fun _ => endsVisibly_of_forall (by simp)⟩
  | span p l hp h =>
    rw [h]
    exact ⟨_, List.takeWhile_append_dropWhile, fun _ =>
      endsVisibly_of_forall fun c hc => hp c (List.mem_takeWhile_imp hc)⟩
  | paired second alone hs h =>
    rw [h]
    unfold Lexer.paired
    split
    · rename_i d r'
      split
      · rename_i l hd
        obtain ⟨before, after, hsplit, _⟩ := List.lookup_eq_some_iff.mp hd
        refine ⟨[d], rfl, fun _ => endsVisibly_of_forall fun c hc => ?_⟩
        rw [List.mem_singleton.1 hc]
        exact hs (d, l) (hsplit ▸ List.mem_append_right _ List.mem_cons_self)
      · exact ⟨[], rfl, fun _ => endsVisibly_of_forall (by simp)⟩
    · exact ⟨[], rfl, fun _ => endsVisibly_of_forall (by simp)⟩
  | quoted quote l hq h =>
    rw [h]
    unfold quotedLexeme
    cases hv : quotedText? quote r with
    | some v =>
      obtain ⟨_, hr⟩ := quotedText?_body hv
      refine ⟨(v.1.flatMap fun c => if c = quote then [c, c] else [c]) ++ [quote], ?_, ?_⟩
      · rw [hr, List.append_assoc, List.singleton_append]
      · intro _ c hc
        rw [List.getLast?_concat] at hc
        cases hc
        exact hq
    | none => exact ⟨r, List.append_nil r, fun hno => absurd rfl (hno _)⟩
  | number c h =>
    rw [h]
    exact ⟨_, List.take_append_drop _ _, fun _ => endsVisibly_of_forall (number_visible r _ rfl)⟩

end Lexer

end GridQuery
