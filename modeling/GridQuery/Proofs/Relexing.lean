import GridQuery.Proofs.Places
import GridQuery.Proofs.Shapes

/-!
Lexing a piece of a text alone. Where some tokens are taken off the front of a text, the characters up to
the last of them give the same tokens without what stands behind: no token and no gap between tokens is
read by what follows it, as long as it is left in place.
-/

namespace GridQuery
set_option autoImplicit false

namespace Lexer

/-! ### Tokens off the front -/

/-- The tokens are cut off the front of the characters, and `es` is left. -/
inductive Lexes (size : Nat) : List Char → List Token → List Char → Prop where
  | nil (cs : List Char) : Lexes size cs [] cs
  | cons {cs r es : List Char} {c : Char} {a : List Token} (hskip : skip cs = c :: r)
      (hrest : Lexes size (lexeme c r).2 a es) :
      Lexes size cs
        (⟨(lexeme c r).1, size - Text.byteLength (c :: r),
          size - Text.byteLength (lexeme c r).2⟩ :: a) es

/-- Tokens with some behind them are cut off the front. -/
theorem exists_lexes {size : Nat} {a post : List Token} (hpost : post ≠ []) :
    ∀ {cs : List Char}, tokens size cs = a ++ post →
      ∃ es, Lexes size cs a es ∧ tokens size es = post := by
  induction a with
  | nil => exact fun {cs} h => ⟨cs, .nil cs, h⟩
  | cons t a ih =>
    intro cs h
    cases hskip : skip cs with
    | nil =>
      rw [tokens_of_skip_nil hskip, List.cons_append] at h
      obtain ⟨_, hnone⟩ := List.cons.inj h
      exact absurd (List.append_eq_nil_iff.1 hnone.symm).2 hpost
    | cons c r =>
      rw [tokens_of_skip_cons hskip] at h
      obtain ⟨rfl, hrest⟩ := List.cons.inj h
      obtain ⟨es, hes, hrest⟩ := ih hrest
      exact ⟨es, .cons hskip hes, hrest⟩

theorem lexeme_suffix (c : Char) (r : List Char) : (lexeme c r).2 <:+ r := by
  obtain ⟨a, ha, _⟩ := (lexeme_shape c).taken r
  exact ⟨a, ha⟩

theorem suffix_of_skip {cs r : List Char} {c : Char} (h : skip cs = c :: r) : c :: r <:+ cs :=
  h ▸ skip_suffix cs

namespace Lexes

variable {size : Nat} {cs es : List Char} {a : List Token}

theorem suffix (h : Lexes size cs a es) : es <:+ cs := by
  induction h with
  | nil cs => exact List.suffix_rfl
  | cons hskip _ ih =>
    exact ((ih.trans (lexeme_suffix _ _)).trans (List.suffix_cons _ _)).trans (suffix_of_skip hskip)

theorem solid (h : Lexes size cs a es) : ∀ t ∈ a, ∃ c r, Solid c r ∧ t.lexeme = (lexeme c r).1 := by
  induction h with
  | nil cs => exact List.forall_mem_nil _
  | @cons cs r es c a hskip hrest ih => exact List.forall_mem_cons.2 ⟨⟨c, r, skip_solid hskip, rfl⟩, ih⟩

/-- A place is where an end of the text begins that has `es` behind it. -/
def PlaceIn (size : Nat) (cs es : List Char) (p : Nat) : Prop :=
  ∃ ds, ds <:+ cs ∧ es <:+ ds ∧ p = size - Text.byteLength ds

theorem PlaceIn.mono {cs' : List Char} {p : Nat} (h : PlaceIn size cs' es p) (hcs : cs' <:+ cs) :
    PlaceIn size cs es p := by
  obtain ⟨ds, hds, hes, hp⟩ := h
  exact ⟨ds, hds.trans hcs, hes, hp⟩

theorem places (h : Lexes size cs a es) :
    ∀ t ∈ a, PlaceIn size cs es t.start ∧ PlaceIn size cs es t.stop := by
  induction h with
  | nil cs => simp
  | @cons cs r es c a hskip hrest ih =>
    have hbehind := (lexeme_suffix c r).trans ((List.suffix_cons _ _).trans (suffix_of_skip hskip))
    refine List.forall_mem_cons.2 ⟨⟨⟨_, suffix_of_skip hskip, ?_, rfl⟩, ⟨_, hbehind, hrest.suffix, rfl⟩⟩,
      fun t ht => ⟨(ih t ht).1.mono hbehind, (ih t ht).2.mono hbehind⟩⟩
    exact (hrest.suffix.trans (lexeme_suffix _ _)).trans (List.suffix_cons _ _)

/-- The first token begins at the first character that is in no gap. -/
theorem first_start {t : Token} (h : Lexes size cs (t :: a) es) :
    t.start = size - Text.byteLength (skip cs) := by
  cases h with
  | cons hskip hrest => rw [hskip]

/-- The last token ends where the rest begins. -/
theorem last_stop (h : Lexes size cs a es) {t : Token} (ht : a.getLast? = some t) :
    t.stop = size - Text.byteLength es := by
  induction h with
  | nil cs => cases ht
  | @cons cs r es c a hskip hrest ih =>
    cases hrest with
    | nil =>
      rw [List.getLast?_singleton] at ht
      cases ht
      rfl
    | cons hskip' hrest' =>
      rw [List.getLast?_cons_cons] at ht
      exact ih ht

/-- Where a gap in front is passed over, the tokens are the same. -/
theorem of_skip {t : Token} (h : Lexes size cs (t :: a) es) : Lexes size (skip cs) (t :: a) es := by
  cases h with
  | cons hskip hrest => exact .cons (by rw [hskip, skip_of_solid (skip_solid hskip)]) hrest

/-- The place of a token in the characters up to `es`, taken as a text of `size'` bytes. -/
def shift (size size' : Nat) (es : List Char) (p : Nat) : Nat :=
  size' - (size - Text.byteLength es - p)

theorem shift_place {size' : Nat} {ds : List Char} (hds : es <:+ ds)
    (hsize : Text.byteLength ds ≤ size) :
    shift size size' es (size - Text.byteLength ds) =
      size' - Text.byteLength (ds.rdrop es.length) := by
  have := Text.byteLength_suffix hds
  rw [shift, Text.byteLength_rdrop hds]
  congr 1
  omega

/-- The characters up to the rest are cut into the same tokens alone. -/
theorem alone (h : Lexes size cs a es) (hsize : Text.byteLength cs ≤ size) (size' : Nat) :
    tokens size' (cs.rdrop es.length) =
      a.map (Token.move (shift size size' es)) ++ [⟨.eof, size', size'⟩] := by
  induction h with
  | nil cs =>
    rw [rdrop_length]
    exact tokens_of_skip_nil (by rw [skip])
  | @cons cs r es c a hskip hrest ih =>
    have hr := Text.byteLength_suffix (suffix_of_skip hskip)
    have hbehind := Text.byteLength_suffix (lexeme_suffix c r)
    have hes : es <:+ r := hrest.suffix.trans (lexeme_suffix c r)
    have hsizeR : Text.byteLength (c :: r) ≤ size := hr.trans hsize
    have hsizeL : Text.byteLength (lexeme c r).2 ≤ size := by
      rw [Text.byteLength] at hsizeR
      omega
    have hgap : skip (cs.rdrop es.length) = c :: r.rdrop es.length := by
      rw [skip_rdrop (by rw [hskip]; exact Nat.le_succ_of_le hes.length_le), hskip,
        rdrop_cons hes.length_le]
    have hcut := (lexeme_shape c).rdrop hrest.suffix.length_le
    rw [tokens_of_skip_cons hgap, hcut, ih hsizeL, List.map_cons,
      List.cons_append, Token.move, shift_place (hes.trans (List.suffix_cons c r)) hsizeR,
      shift_place hrest.suffix hsizeL, rdrop_cons hes.length_le]

/-- The characters up to the rest end visibly where no token is an error. -/
theorem endsVisibly (h : Lexes size cs a es) (hno : ∀ t ∈ a, ∀ m, t.lexeme ≠ .error m) :
    EndsVisibly (cs.rdrop es.length) := by
  induction h with
  | nil cs =>
    rw [rdrop_length]
    exact endsVisibly_of_forall (by simp)
  | @cons cs r es c a hskip hrest ih =>
    obtain ⟨hno, hnoRest⟩ := List.forall_mem_cons.1 hno
    obtain ⟨gap, hgap⟩ := suffix_of_skip hskip
    obtain ⟨b, hb, hvisible⟩ := (lexeme_shape c).taken r
    have hcut : cs.rdrop es.length = (gap ++ c :: b) ++ (lexeme c r).2.rdrop es.length := by
      rw [← List.rdrop_append_of_le_length _ hrest.suffix.length_le, ← hgap, List.append_assoc,
        List.cons_append, hb]
    intro d hd
    rw [hcut, List.getLast?_append] at hd
    cases hlast : ((lexeme c r).2.rdrop es.length).getLast? with
    | some e =>
      rw [hlast] at hd
      cases hd
      exact ih hnoRest _ hlast
    | none =>
      rw [hlast, Option.none_or, List.getLast?_append] at hd
      cases hlastB : b.getLast? with
      | some e =>
        rw [List.getLast?_cons, hlastB] at hd
        cases hd
        exact hvisible hno _ hlastB
      | none =>
        rw [List.getLast?_cons, hlastB] at hd
        cases hd
        exact (skip_solid hskip).1

/-- A stretch between two tokens has the same characters in the text and up to the rest. -/
theorem slice_eq {src : List Char} (h : Lexes (Text.byteLength src) cs a es) (hcs : cs <:+ src) :
    ∀ t ∈ a, ∀ u ∈ a, Text.sliceBytes src t.start u.stop =
      Text.sliceBytes (cs.rdrop es.length)
        (shift (Text.byteLength src) (Text.byteLength (cs.rdrop es.length)) es t.start)
        (shift (Text.byteLength src) (Text.byteLength (cs.rdrop es.length)) es u.stop) := by
  intro t ht u hu
  obtain ⟨ds, hds, hesd, hstart⟩ := (h.places t ht).1
  obtain ⟨fs, hfs, hesf, hstop⟩ := (h.places u hu).2
  have hsized := Text.byteLength_suffix (hds.trans hcs)
  have hsizef := Text.byteLength_suffix (hfs.trans hcs)
  rw [hstart, hstop, shift_place hesd hsized, shift_place hesf hsizef]
  rcases List.suffix_or_suffix_of_suffix hfs hds with hfd | hdf
  · rw [Text.sliceBytes_suffix (hds.trans hcs) hfd,
      Text.sliceBytes_suffix (suffix_rdrop hds hesd.length_le) (suffix_rdrop hfd hesf.length_le),
      rdrop_rdrop_length hesf.length_le hfd.length_le]
  · have hle := Text.byteLength_suffix hdf
    have hle' := Text.byteLength_suffix (suffix_rdrop hdf hesd.length_le)
    rw [Text.sliceBytes_of_le (Nat.sub_le_sub_left hle _),
      Text.sliceBytes_of_le (Nat.sub_le_sub_left hle' _)]

end Lexes

theorem trimChars_of_visible {cs : List Char} (hfirst : ∀ c ∈ cs.head?, Text.isBlank c = false)
    (hlast : EndsVisibly cs) : Text.trimChars cs = cs := by
  have hkeep : ∀ ds : List Char, (∀ c ∈ ds.head?, Text.isBlank c = false) →
      ds.dropWhile Text.isBlank = ds := by
    intro ds hds
    cases ds with
    | nil => rfl
    | cons c r => exact List.dropWhile_cons_of_neg (by rw [hds c rfl]; exact Bool.false_ne_true)
  rw [Text.trimChars, Text.trimLeft, hkeep cs hfirst, Text.trimRight, hkeep, List.reverse_reverse]
  rw [List.head?_reverse]
  exact hlast

/-- A stretch of the tokens of a text: its characters need no trimming, are cut into the same tokens
alone, and have the same characters between two of these. -/
theorem stretch_alone {src : List Char} {before a after : List Token} {first last : Token}
    (hall : tokens (Text.byteLength src) src = before ++ (a ++ after))
    (hafter : after ≠ []) (hno : ∀ t ∈ a, ∀ m, t.lexeme ≠ .error m)
    (hfirst : a.head? = some first) (hlast : a.getLast? = some last) :
    ∃ piece g, Text.trimChars (Text.sliceBytes src first.start last.stop) = piece ∧
      tokens (Text.byteLength piece) piece =
        a.map (Token.move g) ++ [⟨.eof, Text.byteLength piece, Text.byteLength piece⟩] ∧
      ∀ t ∈ a, ∀ u ∈ a, Text.sliceBytes src t.start u.stop =
        Text.sliceBytes piece (g t.start) (g u.stop) := by
  obtain ⟨cs, hcs, htokens⟩ := exists_lexes (List.append_ne_nil_of_right_ne_nil a hafter) hall
  obtain ⟨es, hes, _⟩ := exists_lexes hafter htokens
  obtain ⟨a, rfl⟩ : ∃ b, a = first :: b := ⟨a.tail, (List.cons_head?_tail hfirst).symm⟩
  have hbody : skip cs <:+ src := (skip_suffix cs).trans hcs.suffix
  have hstart := hes.first_start
  have hstop := hes.last_stop hlast
  have hes := hes.of_skip
  refine ⟨(skip cs).rdrop es.length, _, ?_, hes.alone (Text.byteLength_suffix hbody) _,
    hes.slice_eq hbody⟩
  rw [hstart, hstop, Text.sliceBytes_suffix hbody hes.suffix]
  refine trimChars_of_visible (fun c hc => ?_) (hes.endsVisibly hno)
  exact (skip_solid (List.cons_head?_tail (head?_of_rdrop hc)).symm).1

/-- The last token marks the end. -/
theorem exists_tokens_concat (size : Nat) (cs : List Char) :
    ∃ ts, tokens size cs = ts ++ [⟨.eof, size, size⟩] := by
  generalize hn : cs.length = n
  induction n using Nat.strongRecOn generalizing cs with
  | ind n ih =>
    cases hskip : skip cs with
    | nil => exact ⟨[], tokens_of_skip_nil hskip⟩
    | cons c r =>
      have hlt : (lexeme c r).2.length < n := by
        have := (suffix_of_skip hskip).length_le
        have := (lexeme_suffix c r).length_le
        rw [List.length_cons] at *
        omega
      obtain ⟨ts, hts⟩ := ih _ hlt _ rfl
      exact ⟨_ :: ts, by rw [tokens_of_skip_cons hskip, hts, List.cons_append]⟩

end Lexer

namespace Parser

/-! ### The tokens of a text -/

/-- The tokens that are dropped off the end of a text. -/
def isTrailing (t : Token) : Bool :=
  t.lexeme == .eof || t.lexeme == .semicolon

theorem isError_eq_false {t : Token} : isError t = false ↔ ∀ m, t.lexeme ≠ .error m := by
  obtain ⟨l, start, stop⟩ := t
  cases l <;> simp [isError]

theorem numberPlaceholders_of_numbered {ts : List Token} (h : ∀ t ∈ ts, t.lexeme ≠ .placeholder none)
    (count : Nat) : numberPlaceholders count ts = ts := by
  induction ts with
  | nil => rfl
  | cons t ts ih =>
    obtain ⟨ht, hts⟩ := List.forall_mem_cons.1 h
    rw [numberPlaceholders, if_neg ht, ih hts]

/-- The tokens of a text are those before its end where none is an error, none is a placeholder
without a number, and the last is no semicolon. -/
theorem tokensOf_of_tokens {text : String} {ts : List Token} {t : Token}
    (hall : Lexer.tokens text.utf8ByteSize text.toList = ts ++ [t]) (ht : t.lexeme = .eof)
    (herror : ∀ u ∈ ts, ∀ m, u.lexeme ≠ .error m)
    (hlast : ∀ u ∈ ts.getLast?, isTrailing u = false)
    (hnumbered : ∀ u ∈ ts, u.lexeme ≠ .placeholder none) : tokensOf text = .ok ts := by
  have hfind : (ts ++ [t]).find? isError = none := by
    rw [List.find?_eq_none]
    intro u hu
    rcases List.mem_append.1 hu with hu | hu
    · rw [isError_eq_false.2 (herror u hu)]
      exact Bool.false_ne_true
    · rw [List.mem_singleton.1 hu, isError, ht]
      exact Bool.false_ne_true
  have hkeep : ts.rdropWhile isTrailing = ts := by
    rw [List.rdropWhile_eq_self_iff]
    intro hne
    rw [hlast _ (List.getLast?_eq_some_getLast hne)]
    exact Bool.false_ne_true
  have hdrop : ((ts ++ [t]).reverse.dropWhile
      fun u => u.lexeme == .eof || u.lexeme == .semicolon).reverse = ts :=
    (List.rdropWhile_concat_pos isTrailing ts t (by rw [isTrailing, ht]; rfl)).trans hkeep
  have hnone : (ts.any fun u => u.lexeme == .placeholder none) = false := by
    rw [List.any_eq_false]
    intro u hu
    simpa using hnumbered u hu
  unfold tokensOf
  rw [hall]
  simp only [hfind, hdrop, hnone, Bool.false_and, Bool.false_eq_true, if_false,
    numberPlaceholders_of_numbered hnumbered]

/-- Where every placeholder has its number, the tokens of a text stand at its front. -/
theorem tokens_of_tokensOf {text : String} {ts : List Token} (h : tokensOf text = .ok ts)
    (hnumbered : ∀ t ∈ Lexer.tokens text.utf8ByteSize text.toList, t.lexeme ≠ .placeholder none) :
    ∃ after, after ≠ [] ∧ Lexer.tokens text.utf8ByteSize text.toList = ts ++ after ∧
      ∀ t ∈ ts, ∀ m, t.lexeme ≠ .error m := by
  obtain ⟨body, t, hall, ht⟩ : ∃ body t,
      Lexer.tokens text.utf8ByteSize text.toList = body ++ [t] ∧ isTrailing t = true := by
    obtain ⟨body, hall⟩ := Lexer.exists_tokens_concat text.utf8ByteSize text.toList
    exact ⟨body, _, hall, rfl⟩
  have hcut : ((body ++ [t]).reverse.dropWhile
      fun u => u.lexeme == .eof || u.lexeme == .semicolon).reverse = body.rdropWhile isTrailing :=
    List.rdropWhile_concat_pos isTrailing body t ht
  obtain ⟨dropped, hdropped⟩ := List.rdropWhile_prefix isTrailing (l := body)
  have hmem : ∀ u ∈ body.rdropWhile isTrailing, u ∈ body ++ [t] := fun u hu =>
    List.mem_append_left _ (hdropped ▸ List.mem_append_left _ hu)
  unfold tokensOf at h
  rw [hall] at h hnumbered ⊢
  dsimp only at h
  rw [hcut, numberPlaceholders_of_numbered fun u hu => hnumbered u (hmem u hu)] at h
  split at h
  · cases h
  · rename_i hfind
    split at h
    · cases h
    · cases h
      refine ⟨dropped ++ [t], by simp, by rw [← List.append_assoc, hdropped], fun u hu => ?_⟩
      exact isError_eq_false.1 (Bool.eq_false_iff.2 (List.find?_eq_none.1 hfind u (hmem u hu)))

end Parser

end GridQuery
