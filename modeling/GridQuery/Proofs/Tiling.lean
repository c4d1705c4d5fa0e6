import GridQuery.Proofs.Formed
import GridQuery.Proofs.Relexing

/-!
The tokens of a text tile it. They stand in order and apart from each other, each on characters of its
own that are cut into the same lexeme alone, and what stands in front of each is blanks and comments.
-/

namespace GridQuery
set_option autoImplicit false

/-- A place between two characters of a text. -/
def Text.IsBoundary (cs : List Char) (n : Nat) : Prop :=
  ∃ before, before <+: cs ∧ Text.byteLength before = n

theorem Text.isBoundary_of_suffix {cs ds : List Char} (h : ds <:+ cs) :
    IsBoundary cs (byteLength cs - byteLength ds) := by
  obtain ⟨before, rfl⟩ := h
  exact ⟨before, List.prefix_append _ _, by rw [byteLength_append, Nat.add_sub_cancel]⟩

namespace Lexer

/-! ### Gaps -/

/-- Blanks and comments alone. A line comment runs up to the end of its line, a block comment up to the
first mark that closes it, and either may run up to the end of the text. -/
inductive Gap : List Char → Prop where
  | nil : Gap []
  | blank {c : Char} {r : List Char} (hc : Text.isBlank c = true) (hr : Gap r) : Gap (c :: r)
  | line {body r : List Char} (hbody : '\n' ∉ body) (hr : Gap r) (hend : ∀ c ∈ r.head?, c = '\n') :
      Gap ('-' :: '-' :: (body ++ r))
  | block {body r : List Char} (hbody : ¬['*', '/'] <:+: body) (hr : Gap r) :
      Gap ('/' :: '*' :: (body ++ '*' :: '/' :: r))
  | openBlock {body : List Char} (hbody : ¬['*', '/'] <:+: body) : Gap ('/' :: '*' :: body)

/-- A block comment runs up to the first mark that closes it, or to the end. -/
theorem skipBlock_body (cs : List Char) :
    ∃ body, ¬['*', '/'] <:+: body ∧
      (cs = body ++ '*' :: '/' :: skipBlock cs ∨ cs = body ∧ skipBlock cs = []) := by
  fun_induction skipBlock cs with
  | case1 r => exact ⟨[], by simp, .inl rfl⟩
  | case2 c r hno ih =>
    obtain ⟨body, hbody, hcs⟩ := ih
    refine ⟨c :: body, fun hin => ?_, ?_⟩
    · rcases List.infix_cons_iff.1 hin with hfront | hin
      · obtain ⟨rfl, b, hb⟩ := List.cons_prefix_cons.1 hfront
        subst hb
        rcases hcs with hcs | ⟨hcs, -⟩
        · exact hno _ rfl hcs
        · exact hno _ rfl hcs
      · exact hbody hin
    · rcases hcs with hcs | ⟨hcs, hnone⟩
      · exact .inl (congrArg (c :: ·) hcs)
      · exact .inr ⟨congrArg (c :: ·) hcs, hnone⟩
  | case3 => exact ⟨[], by simp, .inr ⟨rfl, rfl⟩⟩

/-- What is passed over whole is blanks and comments. -/
theorem gap_of_skip {cs : List Char} (h : skip cs = []) : Gap cs := by
  fun_induction skip cs with
  | case1 r ih =>
    have hsplit : r = (r.takeWhile fun c => c != '\n') ++ skipLine r :=
      List.takeWhile_append_dropWhile.symm
    rw [hsplit]
    refine .line (fun hin => ?_) (ih h) fun c hc => ?_
    · simpa using List.mem_takeWhile_imp hin
    · have hnot := List.head?_dropWhile_not (fun c => c != '\n') r
      rw [show (r.dropWhile fun c => c != '\n').head? = some c from hc] at hnot
      simpa using hnot
  | case2 r ih =>
    obtain ⟨body, hbody, hr | ⟨rfl, -⟩⟩ := skipBlock_body r
    · rw [hr]
      exact .block hbody (ih h)
    · exact .openBlock hbody
  | case3 c r _ _ hb ih => exact .blank hb (ih h)
  | case4 => cases h
  | case5 => exact .nil

/-! ### Where a token stands -/

/-- The tokens in front end where `es` begins. -/
def Reached (size : Nat) (before : List Token) (es : List Char) : Prop :=
  (before.getLast?.map Token.stop).getD 0 = size - Text.byteLength es

/-- A token with `es` from the end of the one in front of it, `ds` from its own beginning and `fs` from
its own end. -/
structure Stands (size : Nat) (t : Token) (es ds fs : List Char) : Prop where
  gap : skip es = ds
  start : t.start = size - Text.byteLength ds
  stop : t.stop = size - Text.byteLength fs
  cut : (ds = [] ∧ fs = [] ∧ t.lexeme = .eof) ∨
    ∃ c r, ds = c :: r ∧ fs = (lexeme c r).2 ∧ t.lexeme = (lexeme c r).1

variable {size : Nat} {cs : List Char}

theorem Lexes.reached {a : List Token} {es : List Char}
    (h : Lexes (Text.byteLength cs) cs a es) : Reached (Text.byteLength cs) a es := by
  unfold Reached
  cases hlast : a.getLast? with
  | some t => exact h.last_stop hlast
  | none =>
    rw [List.getLast?_eq_none_iff] at hlast
    subst hlast
    cases h
    exact (Nat.sub_self _).symm

/-- Each token of a text stands behind those in front of it. -/
theorem exists_stands {before after : List Token} {t : Token}
    (h : tokens (Text.byteLength cs) cs = before ++ t :: after) :
    ∃ es ds fs, fs <:+ ds ∧ ds <:+ es ∧ es <:+ cs ∧ Reached (Text.byteLength cs) before es ∧
      Stands (Text.byteLength cs) t es ds fs := by
  obtain ⟨es, hbefore, hrest⟩ := exists_lexes (List.cons_ne_nil t after) h
  cases hskip : skip es with
  | nil =>
    rw [tokens_of_skip_nil hskip] at hrest
    obtain ⟨rfl, -⟩ := List.cons.inj hrest
    exact ⟨es, [], [], List.suffix_rfl, List.nil_suffix, hbefore.suffix, hbefore.reached,
      hskip, rfl, rfl, .inl ⟨rfl, rfl, rfl⟩⟩
  | cons c r =>
    rw [tokens_of_skip_cons hskip] at hrest
    obtain ⟨rfl, -⟩ := List.cons.inj hrest
    exact ⟨es, c :: r, (lexeme c r).2, (lexeme_suffix c r).trans (List.suffix_cons c r),
      suffix_of_skip hskip, hbefore.suffix, hbefore.reached, hskip, rfl, rfl,
      .inr ⟨c, r, rfl, rfl, rfl⟩⟩

/-- A token ends where those behind it begin or before. -/
theorem Lexes.ordered {a : List Token} {es : List Char} (h : Lexes size cs a es) :
    a.Pairwise fun t u => t.stop ≤ u.start := by
  induction h with
  | nil cs => exact .nil
  | @cons cs r es c a hskip hrest ih =>
    refine .cons (fun u hu => ?_) ih
    obtain ⟨ds, hds, -, hstart⟩ := (hrest.places u hu).1
    rw [hstart]
    exact Nat.sub_le_sub_left (Text.byteLength_suffix hds) size

theorem Lexes.stop_le {a : List Token} {es : List Char} (h : Lexes size cs a es) :
    ∀ t ∈ a, t.stop ≤ size := by
  intro t ht
  obtain ⟨ds, -, -, hstop⟩ := (h.places t ht).2
  rw [hstop]
  exact Nat.sub_le _ _

theorem Lexes.ne_eof {a : List Token} {es : List Char} (h : Lexes size cs a es) :
    ∀ t ∈ a, t.lexeme ≠ .eof := by
  intro t ht
  obtain ⟨c, r, -, hl⟩ := h.solid t ht
  rw [hl]
  exact (Parser.lexeme_cut c r).2

namespace Stands

variable {t : Token} {es ds fs : List Char}

/-- What stands in front of a token is blanks and comments, and gives no token alone. -/
theorem gap_alone (h : Stands size t es ds fs) (n : Nat) :
    Gap (es.rdrop ds.length) ∧ tokens n (es.rdrop ds.length) = [⟨.eof, n, n⟩] := by
  have hnone : skip (es.rdrop ds.length) = [] := by
    rw [skip_rdrop (by rw [h.gap]), h.gap, rdrop_length]
  exact ⟨gap_of_skip hnone, tokens_of_skip_nil hnone⟩

/-- What a token stands on gives the same lexeme alone. -/
theorem alone (h : Stands size t es ds fs) (ht : t.lexeme ≠ .eof) (n : Nat) :
    ds.rdrop fs.length ≠ [] ∧
      tokens n (ds.rdrop fs.length) =
        [⟨t.lexeme, n - Text.byteLength (ds.rdrop fs.length), n⟩, ⟨.eof, n, n⟩] := by
  rcases h.cut with ⟨-, -, heof⟩ | ⟨c, r, rfl, rfl, hlexeme⟩
  · exact absurd heof ht
  have hbehind : (lexeme c r).2.length ≤ r.length := (lexeme_suffix c r).length_le
  have hsolid : Solid c (r.rdrop (lexeme c r).2.length) := solid_rdrop (skip_solid h.gap)
  have hcut := (lexeme_shape c).rdrop (Nat.le_refl (lexeme c r).2.length)
  rw [rdrop_length] at hcut
  rw [rdrop_cons hbehind]
  refine ⟨List.cons_ne_nil _ _, ?_⟩
  rw [tokens_of_skip_cons (skip_of_solid hsolid), hcut, tokens_of_skip_nil (by rw [skip]), hlexeme,
    Text.byteLength, Nat.sub_zero]

end Stands

/-! ### Tiles -/

/-- The tokens tile the characters: the last and no other marks the end, they begin and end between
characters, in order, each on some characters of its own that give it alone, and what stands in front of
each of them is blanks and comments. -/
structure Tiles (cs : List Char) (ts : List Token) : Prop where
  ends : ∃ body, ts = body ++ [⟨.eof, Text.byteLength cs, Text.byteLength cs⟩] ∧
    ∀ t ∈ body, t.lexeme ≠ .eof
  boundaries : ∀ t ∈ ts, Text.IsBoundary cs t.start ∧ Text.IsBoundary cs t.stop
  ordered : ts.Pairwise fun t u => t.stop ≤ u.start
  alone : ∀ t ∈ ts, t.lexeme ≠ .eof → ∃ piece, Text.sliceBytes cs t.start t.stop = piece ∧
    piece ≠ [] ∧ tokens (Text.byteLength piece) piece =
      [⟨t.lexeme, 0, Text.byteLength piece⟩, ⟨.eof, Text.byteLength piece, Text.byteLength piece⟩]
  gaps : ∀ before t after, ts = before ++ t :: after → ∃ gap,
    Text.sliceBytes cs ((before.getLast?.map Token.stop).getD 0) t.start = gap ∧ Gap gap ∧
      tokens (Text.byteLength gap) gap = [⟨.eof, Text.byteLength gap, Text.byteLength gap⟩]

theorem tokens_tile_chars (cs : List Char) : Tiles cs (tokens (Text.byteLength cs) cs) := by
  obtain ⟨body, hall⟩ := exists_tokens_concat (Text.byteLength cs) cs
  obtain ⟨es, hbody, -⟩ := exists_lexes (List.cons_ne_nil _ _) hall
  refine ⟨⟨body, hall, hbody.ne_eof⟩, fun t ht => ?_, ?_, fun t ht hne => ?_, fun before t after h => ?_⟩
  · obtain ⟨before, after, h⟩ := List.append_of_mem ht
    obtain ⟨es, ds, fs, hfs, hds, hes, -, hstands⟩ := exists_stands h
    rw [hstands.start, hstands.stop]
    exact ⟨Text.isBoundary_of_suffix (hds.trans hes),
      Text.isBoundary_of_suffix (hfs.trans (hds.trans hes))⟩
  · rw [hall, List.pairwise_append]
    refine ⟨hbody.ordered, List.pairwise_singleton _ _, fun t ht u hu => ?_⟩
    rw [List.mem_singleton.1 hu]
    exact hbody.stop_le t ht
  · obtain ⟨before, after, h⟩ := List.append_of_mem ht
    obtain ⟨es, ds, fs, hfs, hds, hes, -, hstands⟩ := exists_stands h
    obtain ⟨hsome, halone⟩ := hstands.alone hne (Text.byteLength (ds.rdrop fs.length))
    rw [hstands.start, hstands.stop, Text.sliceBytes_suffix (hds.trans hes) hfs]
    rw [Nat.sub_self] at halone
    exact ⟨_, rfl, hsome, halone⟩
  · obtain ⟨es, ds, fs, hfs, hds, hes, hreached, hstands⟩ := exists_stands h
    rw [show (before.getLast?.map Token.stop).getD 0 = _ from hreached, hstands.start,
      Text.sliceBytes_suffix hes hds]
    exact ⟨_, rfl, hstands.gap_alone _⟩

/-- The tokens of every text tile it. -/
theorem tokens_tile (text : String) : Tiles text.toList (tokens text.utf8ByteSize text.toList) := by
  have hsize := Text.byteLength_eq_utf8ByteSize text.toList
  rw [String.ofList_toList] at hsize
  rw [hsize]
  exact tokens_tile_chars text.toList

end Lexer

end GridQuery
