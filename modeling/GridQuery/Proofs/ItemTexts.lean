import GridQuery.Proofs.Runs
import GridQuery.Proofs.Standalone

/-!
The text of a select item is the text of its expression. It is cut out of the source by the places of
its first and its last token, and read alone it gives the expression of the item again: the characters
between are cut into the same tokens, and the reader of the expression had left the tokens behind alone.
-/

namespace GridQuery
set_option autoImplicit false

open GridQuery.Parser

theorem Stretch.isTrailing {a : List Token} (h : Stretch a) :
    ∀ t ∈ a.getLast?, isTrailing t = false := by
  intro t ht
  rw [Parser.isTrailing, Bool.or_eq_false_iff, beq_eq_false_iff_ne, beq_eq_false_iff_ne]
  rcases h.last t ht with hplain | hright
  · constructor
    · intro heq
      rw [heq] at hplain
      exact hplain
    · intro heq
      rw [heq] at hplain
      exact hplain
  · simp [hright]

/-- The text of the tokens in front of the rest goes from the first of them to the last. -/
theorem sourceText_append {p : Place} {a rest : List Token} {first last : Token}
    (hfirst : a.head? = some first) (hlast : a.getLast? = some last) :
    sourceText p (a ++ rest) rest =
      String.ofList (Text.trimChars (Text.sliceBytes p.source first.start last.stop)) := by
  have hhead : (a ++ rest).head? = some first := by
    rw [List.head?_append, hfirst]
    rfl
  have htake : (a ++ rest).take ((a ++ rest).length - rest.length) = a := by
    rw [List.length_append, Nat.add_sub_cancel, List.take_left]
  unfold sourceText
  rw [hhead, htake, hlast]

/-- What was drawn from the tokens of a text is read again from its own text. -/
theorem Drawn.parseExpr {text : String} {ts after : List Token} {i : SelectItem}
    (h : Drawn text.toList ts i)
    (hall : Lexer.tokens text.utf8ByteSize text.toList = ts ++ after) (hafter : after ≠ [])
    (herror : ∀ t ∈ ts, ∀ m, t.lexeme ≠ .error m)
    (hnumbered : ∀ t ∈ ts, t.lexeme ≠ .placeholder none) : parseExpr i.text = .ok i.expr := by
  obtain ⟨stop, n, us, rest, ⟨before, behind, rfl⟩, ⟨a, hne, ha, rfl⟩, hread, htext⟩ := h
  have hmem : ∀ t ∈ a, t ∈ before ++ (a ++ rest) ++ behind := fun t ht => by simp [ht]
  obtain ⟨first, hfirst⟩ : ∃ t, a.head? = some t := ⟨_, List.head?_eq_some_head hne⟩
  obtain ⟨last, hlast⟩ : ∃ t, a.getLast? = some t := ⟨_, List.getLast?_eq_some_getLast hne⟩
  have hbytes : text.utf8ByteSize = Text.byteLength text.toList := by
    rw [← Text.byteLength_eq_utf8ByteSize, String.ofList_toList]
  have hcut : Lexer.tokens (Text.byteLength text.toList) text.toList =
      before ++ (a ++ (rest ++ behind ++ after)) := by
    rw [← hbytes, hall]
    simp
  obtain ⟨piece, g, hpiece, htokens, hsame⟩ := Lexer.stretch_alone hcut
    (List.append_ne_nil_of_right_ne_nil _ hafter) (fun t ht => herror t (hmem t ht)) hfirst hlast
  have hitem : i.text = String.ofList piece := by
    rw [htext, sourceText_append hfirst hlast, hpiece]
  have hmoved : ∀ u ∈ a.map (Token.move g), ∃ t ∈ a, t.lexeme = u.lexeme := fun u hu => by
    obtain ⟨t, ht, rfl⟩ := List.mem_map.1 hu
    exact ⟨t, ht, rfl⟩
  have hts : tokensOf (String.ofList piece) = .ok (a.map (Token.move g)) := by
    refine tokensOf_of_tokens (t := ⟨.eof, Text.byteLength piece, Text.byteLength piece⟩) ?_ rfl
      (fun u hu => ?_) (fun u hu => ?_) fun u hu => ?_
    · rw [Text.byteLength_eq_utf8ByteSize, String.toList_ofList, htokens]
    · obtain ⟨t, ht, heq⟩ := hmoved u hu
      exact heq ▸ herror t (hmem t ht)
    · rw [List.getLast?_map] at hu
      obtain ⟨t, ht, rfl⟩ := Option.map_eq_some_iff.1 hu
      exact ha.isTrailing t ht
    · obtain ⟨t, ht, heq⟩ := hmoved u hu
      exact heq ▸ hnumbered t (hmem t ht)
  have hagain : expr (Parser.placeOf (String.ofList piece) (a.map (Token.move g)))
      (budget (a.map (Token.move g))) 0 (a.map (Token.move g)) = .ok (i.expr, []) := by
    refine expr_alone (A := fun t => t ∈ a) ?_ (fun t ht => ht) ?_ hread
    · intro t u ht hu
      rw [hsame t ht u hu, String.toList_ofList]
    · rw [budget, List.length_map]
      omega
  rw [hitem, Parser.parseExpr, hts]
  simp only [ok_bind, hagain]
  rfl

/-- Where a text without placeholders that lack a number is parsed, the text of every select item, at
any depth of the statement, is parsed alone, and gives the expression of the item. -/
theorem parseExpr_itemText {text : String} {s : Statement} (h : parseStatement text = .ok s)
    (hnumbered : ∀ t ∈ Lexer.tokens text.utf8ByteSize text.toList, t.lexeme ≠ .placeholder none) :
    s.AllItems fun i => parseExpr i.text = .ok i.expr := by
  obtain ⟨ts, hts, hread⟩ := bind_eq_ok.mp h
  obtain ⟨after, hafter, hall, herror⟩ := tokens_of_tokensOf hts hnumbered
  have hnumberedTs : ∀ t ∈ ts, t.lexeme ≠ .placeholder none := fun t ht =>
    hnumbered t (hall ▸ List.mem_append_left _ ht)
  have hdrawn : s.AllItems (Drawn text.toList ts) :=
    (readersDraw text.toList ts (budget ts)).statement _ ts List.infix_rfl s hread
  exact fun q hq i hi => Drawn.parseExpr (hdrawn q hq i hi) hall hafter herror hnumberedTs

/-- A comment within an item, brackets around one, and items of statements in an item and in a
condition. -/
theorem parseExpr_itemText_nested :
    ∃ s, parseStatement
        "select (a /* b */) * -2 as c, (select max( d ) from t) from u where exists (select 'it''s' from v);" =
          .ok s ∧ s.AllItems fun i => parseExpr i.text = .ok i.expr := by
  have hparsed : (parseStatement
      "select (a /* b */) * -2 as c, (select max( d ) from t) from u where exists (select 'it''s' from v);"
        ).toOption.isSome = true := by decide +kernel
  cases hs : parseStatement
      "select (a /* b */) * -2 as c, (select max( d ) from t) from u where exists (select 'it''s' from v);" with
  | error e =>
    rw [hs] at hparsed
    cases hparsed
  | ok s => exact ⟨s, rfl, parseExpr_itemText hs (by decide +kernel)⟩

end GridQuery
