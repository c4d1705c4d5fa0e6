import GridQuery.Proofs.Lexing
import GridQuery.Proofs.Names
import GridQuery.Statement.Printer

/-!
Texts that are seen. The text of an expression has a character that is no blank, so it does not vanish as a
spelling, and a field answers to the text of its expression.
-/

namespace GridQuery
set_option autoImplicit false

/-- Some character of the text is no blank. -/
def Visible (s : String) : Prop :=
  ∃ c ∈ s.toList, Text.isBlank c = false

namespace Text

theorem blanks_not_numbers : ∀ a ∈ numberRanges, ∀ b ∈ whiteSpaceRanges, a.2 < b.1 ∨ b.2 < a.1 := by
  decide +kernel

theorem isBlank_of_isAlphanumeric {c : Char} (h : isAlphanumeric c = true) : isBlank c = false := by
  unfold isAlphanumeric at h
  by_cases hc : c.toNat < 128
  · rw [if_pos hc, Char.isAlphanum, Bool.or_eq_true] at h
    rcases h with h | h
    · apply Lexer.isBlank_of_isAlphabetic
      rw [isAlphabetic, if_pos hc]
      exact h
    · have hlow : 48 ≤ c.toNat := by
        rw [Char.isDigit, Bool.and_eq_true, decide_eq_true_eq] at h
        exact UInt32.le_iff_toNat_le.mp h.1
      have hne : c ≠ ' ' := by
        rintro rfl
        exact absurd hlow (by decide)
      rw [isBlank, if_pos hc]
      simp only [hne, decide_false, Bool.false_or, Bool.and_eq_false_iff, decide_eq_false_iff_not]
      exact .inr (by omega)
  · rw [if_neg hc, Bool.or_eq_true] at h
    rw [isBlank, if_neg hc]
    rcases h with h | h
    · exact Lexer.inRanges_of_disjoint Lexer.blanks_not_alphabetic h
    · exact Lexer.inRanges_of_disjoint blanks_not_numbers h

theorem upperLong_ne_nil : ∀ e ∈ upperLong, e.2 ≠ [] := by
  decide +kernel

theorem upperChar_ne_nil (c : Char) : upperChar c ≠ [] := by
  unfold upperChar
  split
  · exact List.cons_ne_nil _ _
  · cases hlong : upperLong.lookup c.toNat with
    | none => exact List.cons_ne_nil _ _
    | some ns =>
      obtain ⟨before, after, hsplit, _⟩ := List.lookup_eq_some_iff.mp hlong
      have hin : (c.toNat, ns) ∈ upperLong := hsplit ▸ List.mem_append_right _ List.mem_cons_self
      intro hnil
      exact upperLong_ne_nil _ hin (List.map_eq_nil_iff.mp hnil)

end Text

/-- What is seen does not vanish as a spelling. -/
theorem normalize_ne_empty {s : String} (h : Visible s) : normalize s ≠ "" := by
  obtain ⟨c, hc, hblank⟩ := h
  obtain ⟨before, after, hsplit⟩ := List.append_of_mem hc
  obtain ⟨ws, last, hbefore⟩ := Text.wordsFrom_before before [] hblank
  obtain ⟨w, rest, hbehind⟩ := Text.wordsFrom_behind after c
  have hwords : Text.words s.toList = ws ++ (last.reverse ++ c :: w) :: rest := by
    rw [hsplit, Text.words, hbefore, hbehind]
  have hnonempty : ['_'].intercalate (Text.words s.toList) ≠ [] := by
    rw [hwords, Text.intercalate_append]
    apply List.append_ne_nil_of_right_ne_nil
    cases rest <;> simp [List.intercalate]
  intro hempty
  rw [normalize, Text.toUpper, String.toList_ofList] at hempty
  have hnil := congrArg String.toList hempty
  rw [String.toList_ofList] at hnil
  obtain ⟨d, ds, hds⟩ := List.exists_cons_of_ne_nil hnonempty
  rw [hds, List.flatMap_cons] at hnil
  exact Text.upperChar_ne_nil d (List.append_eq_nil_iff.mp hnil).1

namespace Visible

theorem prepend {s : String} (h : Visible s) (t : String) : Visible (t ++ s) := by
  obtain ⟨c, hc, hblank⟩ := h
  exact ⟨c, by simp [hc], hblank⟩

theorem append {s : String} (h : Visible s) (t : String) : Visible (s ++ t) := by
  obtain ⟨c, hc, hblank⟩ := h
  exact ⟨c, by simp [hc], hblank⟩

end Visible

theorem visible_nameText (s : String) : Visible (nameText s) := by
  unfold nameText
  split
  · rename_i hplain
    unfold isPlainName at hplain
    split at hplain
    · cases hplain
    · rename_i c r hs
      rw [Bool.and_eq_true, List.all_cons, Bool.and_eq_true] at hplain
      refine ⟨c, hs ▸ List.mem_cons_self, ?_⟩
      obtain ⟨_, hc, _⟩ := hplain
      simp only [Bool.or_eq_true, decide_eq_true_eq] at hc
      rcases hc with ((hc | rfl) | rfl) | rfl
      · exact Text.isBlank_of_isAlphanumeric hc
      · decide
      · decide
      · decide
  · exact ⟨'\x60', by simp, by decide⟩

theorem visible_columnText (table : Option String) (name : String) : Visible (columnText table name) := by
  cases table with
  | none => exact visible_nameText name
  | some t => exact (visible_nameText name).prepend _

theorem visible_binaryOp (op : BinaryOp) : Visible op.text := by
  cases op <;> exact ⟨_, List.mem_cons_self, by decide⟩

theorem visible_sign (s : Sign) : Visible s.text := by
  cases s <;> exact ⟨_, List.mem_cons_self, by decide⟩

theorem visible_literalText {c : Cell} (h : ∀ x, c ≠ .number x) : Visible c.literalText := by
  cases c with
  | null => exact ⟨'N', List.mem_cons_self, by decide⟩
  | boolean b => cases b <;> exact ⟨_, List.mem_cons_self, by decide⟩
  | number x => exact absurd rfl (h x)
  | date m => exact ⟨'\x27', by simp [Cell.literalText], by decide⟩
  | text s => exact ⟨'\x27', by simp [Cell.literalText], by decide⟩

/-- Every expression but a number has a text that is seen. -/
theorem Expr.visible_text {e : Expr} (h : ∀ x, e ≠ .literal (.number x)) : Visible e.text := by
  cases e with
  | literal c => exact visible_literalText fun x hx => h x (hx ▸ rfl)
  | column table name => exact visible_columnText table name
  | binary op a b =>
    rw [Expr.text]
    exact (((visible_binaryOp op).prepend _).append _).append _
  | unary s a =>
    rw [Expr.text]
    exact (visible_sign s).append _
  | star table => exact ⟨'*', by cases table <;> simp [Expr.text, starText], by decide⟩
  | bind n => exact ⟨'?', by simp [Expr.text], by decide⟩
  | case branches otherwise => exact ⟨'C', by simp [Expr.text], by decide⟩
  | ite c a b => exact ⟨'I', by simp [Expr.text], by decide⟩
  | call | subquery | list | paren => exact ⟨'(', by simp [Expr.text], by decide⟩

end GridQuery
