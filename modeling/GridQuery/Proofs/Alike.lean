import GridQuery.Proofs.Outcomes
import GridQuery.Proofs.Visible
import GridQuery.Formula

/-!
Expressions that differ in how names are written. Normalizing takes an ASCII letter for its other case, so
names that differ in case can stand for one another in any text. Expressions that are alike up to such
names have texts that are one name, and one formula.
-/

namespace GridQuery
set_option autoImplicit false

/-! ### Texts that are one name wherever they stand -/

/-- Texts that can stand for one another within a name. -/
def Interchangeable (s t : String) : Prop :=
  ∀ before after, normalize (before ++ s ++ after) = normalize (before ++ t ++ after)

namespace Interchangeable

variable {s s' t t' : String}

theorem refl (s : String) : Interchangeable s s :=
  fun _ _ => rfl

theorem append (hs : Interchangeable s s') (ht : Interchangeable t t') :
    Interchangeable (s ++ t) (s' ++ t') := by
  intro before after
  have hfirst := hs before (t ++ after)
  have hsecond := ht (before ++ s') after
  simp only [← String.append_assoc] at hfirst hsecond ⊢
  rw [hfirst, hsecond]

theorem normalize_eq (h : Interchangeable s t) : normalize s = normalize t := by
  simpa using h "" ""

end Interchangeable

namespace Text

/-- A character is its own capital, or both are ASCII letters. -/
theorem toUpper_cases (c : Char) : c.toUpper = c ∨
    (97 ≤ c.toNat ∧ c.toNat ≤ 122 ∧ c.toUpper.toNat = c.toNat - 32) := by
  by_cases h : c.isLower = true
  · have hrange : 97 ≤ c.toNat ∧ c.toNat ≤ 122 := by
      simp only [Char.isLower, Bool.and_eq_true, decide_eq_true_eq] at h
      exact ⟨UInt32.le_iff_toNat_le.mp h.1, UInt32.le_iff_toNat_le.mp h.2⟩
    refine .inr ⟨hrange.1, hrange.2, ?_⟩
    rw [Char.toUpper_eq_of_isLower h, Char.toNat_ofNat, if_pos (.inl (by omega))]
  · exact .inl (Char.toUpper_eq_of_not_isLower h)

theorem isBlank_toUpper (c : Char) : isBlank c.toUpper = isBlank c := by
  rcases toUpper_cases c with h | ⟨hlow, hhigh, hcapital⟩
  · rw [h]
  · have hletter : ∀ d : Char, 65 ≤ d.toNat → d.toNat < 128 → isBlank d = false := by
      intro d hd hd'
      have hne : d ≠ ' ' := by
        rintro rfl
        exact absurd hd (by decide)
      rw [isBlank, if_pos hd']
      simp only [hne, decide_false, Bool.false_or, Bool.and_eq_false_iff, decide_eq_false_iff_not]
      exact .inr (by omega)
    rw [hletter c (by omega) (by omega), hletter c.toUpper (by omega) (by omega)]

theorem upperChar_toUpper (c : Char) : upperChar c.toUpper = upperChar c := by
  rcases toUpper_cases c with h | ⟨hlow, hhigh, hcapital⟩
  · rw [h]
  · rw [upperChar, upperChar, if_pos (by omega), if_pos (by omega), Char.toUpper_toUpper_eq_toUpper]

theorem wordsFrom_map_toUpper (word cs : List Char) :
    wordsFrom (word.map Char.toUpper) (cs.map Char.toUpper) =
      (wordsFrom word cs).map (List.map Char.toUpper) := by
  induction cs generalizing word with
  | nil =>
    cases word <;> simp [wordsFrom]
  | cons c cs ih =>
    have hnil := ih []
    have hcons := ih (c :: word)
    rw [List.map_nil] at hnil
    rw [List.map_cons] at hcons ⊢
    unfold wordsFrom
    rw [isBlank_toUpper, hcons, hnil, List.isEmpty_map]
    split
    · split
      · rfl
      · rw [List.map_cons, List.map_reverse]
    · rfl

theorem flatMap_upperChar_map (cs : List Char) :
    (cs.map Char.toUpper).flatMap upperChar = cs.flatMap upperChar := by
  simp only [List.flatMap_map, upperChar_toUpper]

end Text

theorem normalize_asciiUpper (s : String) : normalize (Text.asciiUpper s) = normalize s := by
  have hwords : Text.words (s.toList.map Char.toUpper) =
      (Text.words s.toList).map (List.map Char.toUpper) := Text.wordsFrom_map_toUpper [] s.toList
  have hjoin : ∀ ws : List (List Char), ['_'].intercalate (ws.map (List.map Char.toUpper)) =
      (['_'].intercalate ws).map Char.toUpper := by
    intro ws
    induction ws with
    | nil => rfl
    | cons w ws ih =>
      cases ws with
      | nil => simp [List.intercalate]
      | cons v ws => simpa [List.intercalate] using ih
  simp only [normalize, Text.asciiUpper, Text.toUpper, String.toList_ofList, hwords, hjoin,
    Text.flatMap_upperChar_map]

theorem Text.asciiUpper_append (s t : String) :
    asciiUpper (s ++ t) = asciiUpper s ++ asciiUpper t := by
  simp [asciiUpper, String.ofList_append]

/-- Texts that differ in the case of ASCII letters are one name wherever they stand. -/
theorem interchangeable_of_asciiUpper {s t : String} (h : Text.asciiUpper s = Text.asciiUpper t) :
    Interchangeable s t := by
  intro before after
  rw [← normalize_asciiUpper, Text.asciiUpper_append, Text.asciiUpper_append, h,
    ← Text.asciiUpper_append, ← Text.asciiUpper_append, normalize_asciiUpper]

/-- Any mark that is no letter is its own capital and of no other character. -/
theorem Text.toUpper_eq_iff {d : Char} (hd : d.toUpper = d) (hlow : d.toNat < 65 ∨ 90 < d.toNat) (c : Char) :
    c.toUpper = d ↔ c = d := by
  constructor
  · intro h
    rcases toUpper_cases c with hc | ⟨hlow', hhigh, hcapital⟩
    · exact hc.symm.trans h
    · rw [h] at hcapital
      omega
  · rintro rfl
    exact hd

theorem Text.isDigit_toUpper (c : Char) : c.toUpper.isDigit = c.isDigit := by
  rcases toUpper_cases c with h | ⟨hlow, hhigh, hcapital⟩
  · rw [h]
  · have hletter : ∀ d : Char, 65 ≤ d.toNat → d.isDigit = false := by
      intro d hd
      rw [Char.isDigit, Bool.and_eq_false_iff, decide_eq_false_iff_not, decide_eq_false_iff_not]
      refine .inr fun hle => ?_
      have hle : d.toNat ≤ 57 := UInt32.le_iff_toNat_le.mp hle
      omega
    rw [hletter c (by omega), hletter c.toUpper (by omega)]

theorem Text.isAlphanumeric_toUpper (c : Char) : isAlphanumeric c.toUpper = isAlphanumeric c := by
  rcases toUpper_cases c with h | ⟨hlow, hhigh, hcapital⟩
  · rw [h]
  · rw [isAlphanumeric, isAlphanumeric, if_pos (by omega), if_pos (by omega), Char.isAlphanum,
      Char.isAlphanum, Char.isAlpha_toUpper_eq_isAlpha, isDigit_toUpper]

theorem isPlainName_asciiUpper (s : String) : isPlainName (Text.asciiUpper s) = isPlainName s := by
  have hplain : ∀ c : Char,
      (Text.isAlphanumeric c.toUpper || c.toUpper = '_' || c.toUpper = '$' || c.toUpper = '#') =
        (Text.isAlphanumeric c || c = '_' || c = '$' || c = '#') := by
    intro c
    rw [Text.isAlphanumeric_toUpper]
    simp only [Text.toUpper_eq_iff (d := '_') rfl (by decide), Text.toUpper_eq_iff (d := '$') rfl (by decide),
      Text.toUpper_eq_iff (d := '#') rfl (by decide)]
  unfold isPlainName Text.asciiUpper
  rw [String.toList_ofList]
  cases s.toList with
  | nil => rfl
  | cons c r =>
    simp only [List.map_cons, Text.isDigit_toUpper]
    rw [← List.map_cons, List.all_map]
    simp only [Function.comp_def, hplain]

theorem doubled_asciiUpper (s : String) :
    doubled '\x60' (Text.asciiUpper s) = Text.asciiUpper (doubled '\x60' s) := by
  have hquote : ∀ c : Char, c.toUpper = '\x60' ↔ c = '\x60' :=
    Text.toUpper_eq_iff rfl (by decide)
  simp only [doubled, Text.asciiUpper, String.toList_ofList, List.flatMap_map, List.map_flatMap, hquote]
  congr 2
  funext c
  split <;> rfl

theorem asciiUpper_nameText (s : String) :
    Text.asciiUpper (nameText s) = nameText (Text.asciiUpper s) := by
  unfold nameText
  rw [isPlainName_asciiUpper]
  split
  · rfl
  · rw [Text.asciiUpper_append, Text.asciiUpper_append, doubled_asciiUpper]
    rfl

/-! ### Expressions up to their names -/

mutual

/-- The expressions are the same but for names that can stand for one another. -/
inductive Expr.Alike : Expr → Expr → Prop where
  | literal (c : Cell) : Expr.Alike (.literal c) (.literal c)
  | column {table table' : Option String} {name name' : String}
      (hspelling : Interchangeable (columnSpelling table name) (columnSpelling table' name'))
      (htext : Interchangeable (columnText table name) (columnText table' name')) :
      Expr.Alike (.column table name) (.column table' name')
  | bind (n : Nat) : Expr.Alike (.bind n) (.bind n)
  | binary (op : BinaryOp) {a a' b b' : Expr} (ha : Expr.Alike a a') (hb : Expr.Alike b b') :
      Expr.Alike (.binary op a b) (.binary op a' b')
  | unary (s : Sign) {a a' : Expr} (ha : Expr.Alike a a') : Expr.Alike (.unary s a) (.unary s a')
  | call {name name' : String} (distinct : Bool) {args args' : List Expr}
      (hname : Text.asciiUpper name = Text.asciiUpper name') (hargs : ExprsAlike args args')
      (hword : ScalarFunction.ofName? name = some .convert → args[1]? = args'[1]?) :
      Expr.Alike (.call name distinct args) (.call name' distinct args')
  | case {branches branches' : List (Condition × Expr)} {otherwise otherwise' : Option Expr}
      (hb : BranchesAlike branches branches') (ho : ElseAlike otherwise otherwise') :
      Expr.Alike (.case branches otherwise) (.case branches' otherwise')
  | ite {c c' : Condition} {a a' b b' : Expr} (hc : Condition.Alike c c') (ha : Expr.Alike a a')
      (hb : Expr.Alike b b') : Expr.Alike (.ite c a b) (.ite c' a' b')
  | subquery (q : Statement) : Expr.Alike (.subquery q) (.subquery q)
  | list {items items' : List Expr} (hitems : ExprsAlike items items') :
      Expr.Alike (.list items) (.list items')
  | star (table : Option String) : Expr.Alike (.star table) (.star table)
  | paren {a a' : Expr} (ha : Expr.Alike a a') : Expr.Alike (.paren a) (.paren a')

inductive ExprsAlike : List Expr → List Expr → Prop where
  | nil : ExprsAlike [] []
  | cons {e e' : Expr} {es es' : List Expr} (he : Expr.Alike e e') (hes : ExprsAlike es es') :
      ExprsAlike (e :: es) (e' :: es')

inductive BranchesAlike : List (Condition × Expr) → List (Condition × Expr) → Prop where
  | nil : BranchesAlike [] []
  | cons {c c' : Condition} {e e' : Expr} {bs bs' : List (Condition × Expr)}
      (hc : Condition.Alike c c') (he : Expr.Alike e e') (hbs : BranchesAlike bs bs') :
      BranchesAlike ((c, e) :: bs) ((c', e') :: bs')

inductive ElseAlike : Option Expr → Option Expr → Prop where
  | none : ElseAlike none none
  | some {e e' : Expr} (he : Expr.Alike e e') : ElseAlike (some e) (some e')

inductive Condition.Alike : Condition → Condition → Prop where
  | compare (op : Comparison) {a a' b b' : Expr} (ha : Expr.Alike a a') (hb : Expr.Alike b b') :
      Condition.Alike (.compare op a b) (.compare op a' b')
  | logic (op : Connective) {terms terms' : List Condition} (hterms : TermsAlike terms terms') :
      Condition.Alike (.logic op terms) (.logic op terms')
  | not {c c' : Condition} (hc : Condition.Alike c c') : Condition.Alike (.not c) (.not c')
  | exists (negated : Bool) (q : Statement) :
      Condition.Alike (.exists negated q) (.exists negated q)

inductive TermsAlike : List Condition → List Condition → Prop where
  | nil : TermsAlike [] []
  | cons {c c' : Condition} {cs cs' : List Condition} (hc : Condition.Alike c c')
      (hcs : TermsAlike cs cs') : TermsAlike (c :: cs) (c' :: cs')

end

mutual

theorem Expr.Alike.refl : ∀ e : Expr, e.Alike e
  | .literal c => .literal c
  | .column _ _ => .column (.refl _) (.refl _)
  | .bind n => .bind n
  | .binary op a b => .binary op (Expr.Alike.refl a) (Expr.Alike.refl b)
  | .unary s a => .unary s (Expr.Alike.refl a)
  | .call _ distinct args => .call distinct rfl (exprsAlike_refl args) fun _ => rfl
  | .case branches otherwise => .case (branchesAlike_refl branches) (elseAlike_refl otherwise)
  | .ite c a b => .ite (Condition.Alike.refl c) (Expr.Alike.refl a) (Expr.Alike.refl b)
  | .subquery q => .subquery q
  | .list items => .list (exprsAlike_refl items)
  | .star table => .star table
  | .paren a => .paren (Expr.Alike.refl a)

theorem exprsAlike_refl : ∀ es : List Expr, ExprsAlike es es
  | [] => .nil
  | e :: es => .cons (Expr.Alike.refl e) (exprsAlike_refl es)

theorem branchesAlike_refl : ∀ bs : List (Condition × Expr), BranchesAlike bs bs
  | [] => .nil
  | (c, e) :: bs => .cons (Condition.Alike.refl c) (Expr.Alike.refl e) (branchesAlike_refl bs)

theorem elseAlike_refl : ∀ o : Option Expr, ElseAlike o o
  | none => .none
  | some e => .some (Expr.Alike.refl e)

theorem Condition.Alike.refl : ∀ c : Condition, c.Alike c
  | .compare op a b => .compare op (Expr.Alike.refl a) (Expr.Alike.refl b)
  | .logic op terms => .logic op (termsAlike_refl terms)
  | .not c => .not (Condition.Alike.refl c)
  | .exists negated q => .exists negated q

theorem termsAlike_refl : ∀ cs : List Condition, TermsAlike cs cs
  | [] => .nil
  | c :: cs => .cons (Condition.Alike.refl c) (termsAlike_refl cs)

end

/-- Columns whose names differ in the case of ASCII letters are alike. -/
theorem Expr.Alike.column_of_asciiUpper (table : Option String) {name name' : String}
    (h : Text.asciiUpper name = Text.asciiUpper name') :
    Expr.Alike (.column table name) (.column table name') := by
  have htext : Interchangeable (nameText name) (nameText name') :=
    interchangeable_of_asciiUpper (by rw [asciiUpper_nameText, h, ← asciiUpper_nameText])
  cases table with
  | none => exact .column (interchangeable_of_asciiUpper h) htext
  | some t =>
    exact .column ((Interchangeable.refl _).append (interchangeable_of_asciiUpper h))
      ((Interchangeable.refl _).append htext)

theorem ExprsAlike.length_eq : ∀ {es es' : List Expr}, ExprsAlike es es' → es.length = es'.length
  | _, _, .nil => rfl
  | _, _, .cons _ hes => congrArg Nat.succ hes.length_eq

/-! ### Texts -/

theorem Interchangeable.bracketed {s t : String} (h : Interchangeable s t) (on : Bool) :
    Interchangeable (bracketed on s) (bracketed on t) := by
  cases on with
  | false => exact h
  | true => exact ((Interchangeable.refl "(").append h).append (.refl ")")

theorem Condition.Alike.isLogic_eq {c c' : Condition} (h : c.Alike c') : c.isLogic = c'.isLogic := by
  cases h <;> rfl

theorem exprsText_cons (e f : Expr) (es : List Expr) :
    exprsText (e :: f :: es) = e.text ++ ", " ++ exprsText (f :: es) := rfl

theorem termsText_cons (op : Connective) (c d : Condition) (cs : List Condition) :
    termsText op (c :: d :: cs) =
      bracketed c.isLogic c.text ++ " " ++ op.text ++ " " ++ termsText op (d :: cs) := rfl

mutual

/-- Expressions that are alike have texts that are one name wherever they stand. -/
theorem Expr.Alike.text : ∀ {e e' : Expr}, e.Alike e' → Interchangeable e.text e'.text
  | _, _, .literal _ => .refl _
  | _, _, .column _ htext => by
    rw [Expr.text, Expr.text]
    exact htext
  | _, _, .bind _ => .refl _
  | _, _, .binary op ha hb => by
    rw [Expr.text, Expr.text]
    exact (((ha.text.append (.refl " ")).append (.refl op.text)).append (.refl " ")).append hb.text
  | _, _, .unary s ha => by
    rw [Expr.text, Expr.text]
    exact (Interchangeable.refl s.text).append ha.text
  | _, _, .call distinct hname hargs _ => by
    rw [Expr.text, Expr.text]
    exact (((interchangeable_of_asciiUpper hname).append (.refl _)).append (.refl _)).append
      hargs.text |>.append (.refl _)
  | _, _, .case hb ho => by
    rw [Expr.text, Expr.text]
    exact (((Interchangeable.refl _).append hb.text).append ho.text).append (.refl _)
  | _, _, .ite hc ha hb => by
    rw [Expr.text, Expr.text]
    exact ((((((Interchangeable.refl _).append hc.text).append (.refl _)).append ha.text).append
      (.refl _)).append hb.text).append (.refl _)
  | _, _, .subquery _ => .refl _
  | _, _, .list hitems => by
    rw [Expr.text, Expr.text]
    exact ((Interchangeable.refl _).append hitems.text).append (.refl _)
  | _, _, .star _ => .refl _
  | _, _, .paren ha => by
    rw [Expr.text, Expr.text]
    exact ((Interchangeable.refl _).append ha.text).append (.refl _)

theorem ExprsAlike.text : ∀ {es es' : List Expr}, ExprsAlike es es' →
    Interchangeable (exprsText es) (exprsText es')
  | _, _, .nil => .refl _
  | _, _, .cons he hes => by
    have hhead := he.text
    have htail := hes.text
    cases hes with
    | nil => exact hhead
    | cons hf hes =>
      rw [exprsText_cons, exprsText_cons]
      exact (hhead.append (.refl ", ")).append htail

theorem BranchesAlike.text : ∀ {bs bs' : List (Condition × Expr)}, BranchesAlike bs bs' →
    Interchangeable (branchesText bs) (branchesText bs')
  | _, _, .nil => .refl _
  | _, _, .cons hc he hbs => by
    rw [branchesText, branchesText]
    exact ((((Interchangeable.refl _).append hc.text).append (.refl _)).append he.text).append hbs.text

theorem ElseAlike.text : ∀ {o o' : Option Expr}, ElseAlike o o' →
    Interchangeable (elseText o) (elseText o')
  | _, _, .none => .refl _
  | _, _, .some he => by
    rw [elseText, elseText]
    exact (Interchangeable.refl _).append he.text

theorem Condition.Alike.text : ∀ {c c' : Condition}, c.Alike c' → Interchangeable c.text c'.text
  | _, _, .compare op ha hb => by
    rw [Condition.text, Condition.text]
    exact (((ha.text.append (.refl " ")).append (.refl op.text)).append (.refl " ")).append hb.text
  | _, _, .logic op hterms => by
    rw [Condition.text, Condition.text]
    exact hterms.text op
  | _, _, .not hc => by
    rw [Condition.text, Condition.text]
    exact ((Interchangeable.refl _).append hc.text).append (.refl _)
  | _, _, .exists _ _ => .refl _

theorem TermsAlike.text : ∀ {cs cs' : List Condition}, TermsAlike cs cs' → ∀ op,
    Interchangeable (termsText op cs) (termsText op cs')
  | _, _, .nil, _ => .refl _
  | _, _, .cons hc hcs, op => by
    have hhead := hc.text.bracketed
    have htail := hcs.text op
    cases hcs with
    | nil =>
      rw [termsText, termsText, hc.isLogic_eq]
      exact hhead _
    | cons hd hcs =>
      rw [termsText_cons, termsText_cons, hc.isLogic_eq]
      exact ((((hhead _).append (.refl " ")).append (.refl op.text)).append (.refl " ")).append htail

end

/-! ### Formulas -/

theorem Interchangeable.column?_eq {a b : String} (h : Interchangeable a b) (t : Table) :
    t.column? a = t.column? b := by
  rw [Table.column?, Table.column?, Schema.column?, Schema.column?, h.normalize_eq]

namespace Scope

variable (s : Scope)

theorem written?_alike {e e' : Expr} (h : e.Alike e') : s.written? e = s.written? e' :=
  h.text.column?_eq s.table

theorem column_alike {table table' : Option String} {name name' : String}
    (hspelling : Interchangeable (columnSpelling table name) (columnSpelling table' name'))
    (htext : Interchangeable (columnText table name) (columnText table' name')) :
    Carries id (s.column table name) (s.column table' name') := by
  unfold Scope.column
  rw [hspelling.column?_eq, s.written?_alike (.column hspelling htext)]
  split
  · exact .ok rfl
  · exact .error _ _

theorem function_alike {name name' : String} (hname : Text.asciiUpper name = Text.asciiUpper name')
    (text text' : String) (count : Nat) :
    Carries id (function name text count) (function name' text' count) := by
  unfold function Aggregator.ofName? ScalarFunction.ofName? ScalarFunction.checkArity
  rw [hname]
  split
  · exact .error _ _
  · split
    · exact .error _ _
    · split
      · exact .ok rfl
      · exact .error _ _

theorem ofName?_of_function {name text : String} {count : Nat} {f : ScalarFunction}
    (h : function name text count = .ok f) : ScalarFunction.ofName? name = some f := by
  unfold function at h
  split at h
  · cases h
  · split at h
    · cases h
    · rename_i g hg
      cases hcheck : g.checkArity name count with
      | error e =>
        rw [hcheck] at h
        cases h
      | ok u =>
        rw [hcheck] at h
        cases h
        exact hg

theorem typeWord?_eq_none {f : ScalarFunction} {i : Nat} (h : ¬(f = .convert ∧ i = 1)) (e : Expr) :
    typeWord? f i e = none := by
  unfold typeWord?
  split
  · rw [if_neg h]
  · rfl

mutual

/-- Expressions that are alike have one formula, or none. -/
theorem formula_alike : ∀ {e e' : Expr}, e.Alike e' → Carries id (s.formula e) (s.formula e')
  | _, _, .literal _ => .refl _
  | _, _, .column hspelling htext => by
    rw [formula, formula]
    exact s.column_alike hspelling htext
  | _, _, .bind _ => .refl _
  | _, _, .binary op ha hb => by
    rw [formula, formula, s.written?_alike (.binary op ha hb)]
    split
    · exact .ok rfl
    · exact (formula_alike ha).bind fun x => (formula_alike hb).bind fun y => .ok rfl
  | _, _, .unary sign ha => by
    rw [formula, formula, s.written?_alike (.unary sign ha)]
    split
    · exact .ok rfl
    · exact (formula_alike ha).bind fun x => .ok rfl
  | _, _, .call distinct hname hargs hword => by
    rw [formula, formula, s.written?_alike (.call distinct hname hargs hword), ← hargs.length_eq]
    split
    · exact .ok rfl
    · refine (function_alike hname _ _ _).bind_of fun f hf => ?_
      refine (arguments_alike f hargs 0 fun hconvert j hj => ?_).bind fun xs => .ok rfl
      rw [Nat.zero_add] at hj
      rw [hj]
      exact hword (hconvert ▸ ofName?_of_function hf)
  | _, _, .case hb ho => by
    rw [formula, formula, s.written?_alike (.case hb ho)]
    split
    · exact .ok rfl
    · exact (branches_alike hb).bind fun x => (optional_alike ho).bind fun y => .ok rfl
  | _, _, .ite hc ha hb => by
    rw [formula, formula, s.written?_alike (.ite hc ha hb)]
    split
    · exact .ok rfl
    · exact (test_alike hc).bind fun t => (formula_alike ha).bind fun x =>
        (formula_alike hb).bind fun y => .ok rfl
  | _, _, .subquery _ => .refl _
  | _, _, .list hitems => by
    rw [formula, formula, s.written?_alike (.list hitems)]
    split
    · exact .ok rfl
    · exact (formulas_alike hitems).bind fun xs => .ok rfl
  | _, _, .star _ => .refl _
  | _, _, .paren ha => by
    rw [formula, formula, s.written?_alike (.paren ha)]
    split
    · exact .ok rfl
    · exact formula_alike ha

theorem formulas_alike : ∀ {es es' : List Expr}, ExprsAlike es es' →
    Carries id (s.formulas es) (s.formulas es')
  | _, _, .nil => .refl _
  | _, _, .cons he hes => by
    rw [formulas, formulas]
    exact (formula_alike he).bind fun x => (formulas_alike hes).bind fun xs => .ok rfl

/-- The word for the type of a conversion is the same word in both. -/
theorem arguments_alike (f : ScalarFunction) : ∀ {es es' : List Expr}, ExprsAlike es es' → ∀ i,
    (f = .convert → ∀ j, i + j = 1 → es[j]? = es'[j]?) →
    Carries id (s.arguments f i es) (s.arguments f i es')
  | _, _, .nil, _, _ => .refl _
  | _, _, @ExprsAlike.cons e e' es es' he hes, i, hword => by
    have hrest (x : Formula) : Carries id
        (s.arguments f (i + 1) es >>= fun xs => (.ok (x :: xs) : Except QueryError (List Formula)))
        (s.arguments f (i + 1) es' >>= fun xs => .ok (x :: xs)) :=
      (arguments_alike f hes (i + 1) fun hf j hj => hword hf (j + 1) (by omega)).bind fun xs => .ok rfl
    rw [arguments, arguments]
    by_cases htype : f = .convert ∧ i = 1
    · have hsame : e = e' := by simpa using hword htype.1 0 (by omega)
      rw [hsame]
      split
      · exact hrest _
      · exact (Carries.refl _).bind hrest
    · rw [typeWord?_eq_none htype, typeWord?_eq_none htype]
      exact (formula_alike he).bind hrest

theorem branches_alike : ∀ {bs bs' : List (Condition × Expr)}, BranchesAlike bs bs' →
    Carries id (s.branches bs) (s.branches bs')
  | _, _, .nil => .refl _
  | _, _, .cons hc he hbs => by
    rw [branches, branches]
    exact (test_alike hc).bind fun t => (formula_alike he).bind fun x =>
      (branches_alike hbs).bind fun ys => .ok rfl

theorem optional_alike : ∀ {o o' : Option Expr}, ElseAlike o o' →
    Carries id (s.optional o) (s.optional o')
  | _, _, .none => .refl _
  | _, _, .some he => by
    rw [optional, optional]
    exact (formula_alike he).bind fun x => .ok rfl

theorem test_alike : ∀ {c c' : Condition}, c.Alike c' → Carries id (s.test c) (s.test c')
  | _, _, .compare op ha hb => by
    rw [test, test]
    exact (formula_alike ha).bind fun x => (formula_alike hb).bind fun y => .ok rfl
  | _, _, .logic op hterms => by
    rw [test, test]
    exact (tests_alike hterms).bind fun ts => .ok rfl
  | _, _, .not hc => by
    rw [test, test]
    exact (test_alike hc).bind fun t => .ok rfl
  | _, _, .exists _ _ => .refl _

theorem tests_alike : ∀ {cs cs' : List Condition}, TermsAlike cs cs' →
    Carries id (s.tests cs) (s.tests cs')
  | _, _, .nil => .refl _
  | _, _, .cons hc hcs => by
    rw [tests, tests]
    exact (test_alike hc).bind fun t => (tests_alike hcs).bind fun ts => .ok rfl

end

end Scope

end GridQuery
