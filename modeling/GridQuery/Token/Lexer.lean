import GridQuery.Number.Numeral
import GridQuery.Token

/-!
Cutting query text into tokens. Blanks and comments are passed over, and one step reads one token
off the front of the characters. A text that cannot be read gives error tokens, never a failure.
The characters left after a step are a shorter end of those before it, so cutting stops at the end.
-/

namespace GridQuery.Lexer
set_option autoImplicit false

def skipLine : List Char → List Char :=
  List.dropWhile fun c => c != '\n'

/-- Passes over a block comment whose opening is behind; one that is not closed runs to the end. -/
def skipBlock : List Char → List Char
  | '*' :: '/' :: r => r
  | _ :: r => skipBlock r
  | [] => []

theorem length_dropWhile_le (p : Char → Bool) (cs : List Char) :
    (cs.dropWhile p).length ≤ cs.length :=
  (List.dropWhile_suffix p).length_le

theorem length_skipBlock_le (cs : List Char) : (skipBlock cs).length ≤ cs.length := by
  fun_induction skipBlock cs <;> simp_all <;> omega

def skip : List Char → List Char
  | '-' :: '-' :: r => skip (skipLine r)
  | '/' :: '*' :: r => skip (skipBlock r)
  | c :: r => if Text.isBlank c then skip r else c :: r
  | [] => []
termination_by cs => cs.length
decreasing_by
  · have := length_dropWhile_le (fun c => c != '\n') r
    simp only [skipLine, List.length_cons]
    omega
  · have := length_skipBlock_le r
    simp only [List.length_cons]
    omega
  · simp

theorem length_skip_le (cs : List Char) : (skip cs).length ≤ cs.length := by
  fun_induction skip cs with
  | case1 r ih =>
    have := length_dropWhile_le (fun c => c != '\n') r
    simp only [skipLine, List.length_cons] at *
    omega
  | case2 r ih =>
    have := length_skipBlock_le r
    simp only [List.length_cons]
    omega
  | case3 c r _ _ _ ih =>
    simp only [List.length_cons]
    omega
  | case4 => exact Nat.le_refl _
  | case5 => exact Nat.le_refl _

def isNameChar (c : Char) : Bool :=
  Text.isAlphanumeric c || c = '_' || c = '$' || c = '#'

def wordLexeme (cs : List Char) : Lexeme :=
  match Keyword.ofText? (String.ofList cs) with
  | some k => .keyword k
  | none => .identifier (String.ofList cs)

def quotedText? (quote : Char) : List Char → Option (List Char × List Char)
  | [] => none
  | c :: r =>
    if c = quote then
      match r with
      | d :: r' =>
        if d = quote then (quotedText? quote r').map fun p => (quote :: p.1, p.2)
        else some ([], d :: r')
      | [] => some ([], [])
    else (quotedText? quote r).map fun p => (c :: p.1, p.2)

def quotedLexeme (quote : Char) (lexeme : String → Lexeme) (cs : List Char) : Lexeme × List Char :=
  match quotedText? quote cs with
  | some (value, r) => (lexeme (String.ofList value), r)
  | none => (.error ("Unterminated literal starting with " ++ String.singleton quote), [])

def fractionLength : List Char → Nat
  | '.' :: r => let n := (r.takeWhile Char.isDigit).length; if n = 0 then 0 else n + 1
  | _ => 0

/-- The characters of an exponent: its mark with a sign or digit behind it, and the digits. -/
def exponentLength : List Char → Nat
  | c :: d :: r =>
    if c = 'e' ∨ c = 'E' then
      if d = '+' ∨ d = '-' then (r.takeWhile Char.isDigit).length + 2
      else let n := ((d :: r).takeWhile Char.isDigit).length; if n = 0 then 0 else n + 1
    else 0
  | _ => 0

def floatLexeme (cs : List Char) : Lexeme :=
  match Number.read? cs with
  | some x => .float x
  | none => .error "Invalid float: invalid float literal"

def integerLexeme (ds : List Char) : Lexeme :=
  let n := Text.digitsValue ds
  if n < Number.twoPow 63 then .integer (Int.ofNat n)
  else .error "Invalid integer: number too large to fit in target type"

/-- A number that begins with the digit `c`. -/
def numberLexeme (c : Char) (r : List Char) : Lexeme × List Char :=
  let whole := (r.takeWhile Char.isDigit).length
  let fraction := fractionLength (r.drop whole)
  let exponent := exponentLength (r.drop (whole + fraction))
  let length := whole + fraction + exponent
  (if fraction + exponent = 0 then integerLexeme (c :: r.take length)
    else floatLexeme (c :: r.take length), r.drop length)

/-- A placeholder behind its mark: without a number, or numbered from one. -/
def placeholderLexeme (ds : List Char) : Lexeme :=
  if ds.isEmpty then .placeholder none
  else
    let n := Text.digitsValue ds
    if Number.twoPow 64 ≤ n then .error "Invalid placeholder: number too large to fit in target type"
    else if n = 0 then .error "Bind placeholders are numbered from ?1"
    else .placeholder (some n)

/-- An operator of two characters, or what its first one is alone. -/
def paired (second : List (Char × Lexeme)) (alone : Lexeme) (r : List Char) : Lexeme × List Char :=
  match r with
  | d :: r' =>
    match second.lookup d with
    | some l => (l, r')
    | none => (alone, r)
  | [] => (alone, r)

def unexpected (c : Char) : Lexeme :=
  .error ("Unexpected character: " ++ String.singleton c)

/-- The lexeme that begins with `c`, and the characters behind it. -/
def lexeme (c : Char) (r : List Char) : Lexeme × List Char :=
  match c with
  | '(' => (.leftParen, r)
  | ')' => (.rightParen, r)
  | ',' => (.comma, r)
  | ';' => (.semicolon, r)
  | '+' => (.plus, r)
  | '-' => (.minus, r)
  | '*' => (.star, r)
  | '/' => (.slash, r)
  | '%' => (.percent, r)
  | '=' => (.eq, r)
  | '?' => (placeholderLexeme (r.takeWhile Char.isDigit), r.dropWhile Char.isDigit)
  | '.' =>
    if (r.takeWhile Char.isDigit).isEmpty then (.dot, r)
    else (floatLexeme ('0' :: '.' :: r.takeWhile Char.isDigit), r.dropWhile Char.isDigit)
  | '<' => paired [('=', .ltEq), ('>', .notEq)] .lt r
  | '>' => paired [('=', .gtEq)] .gt r
  | '!' => paired [('=', .notEq)] (unexpected '!') r
  | '|' => paired [('|', .concat)] (unexpected '|') r
  | '\x27' => quotedLexeme c .string r
  | '\x22' => quotedLexeme c .string r
  | '\x60' => quotedLexeme c .identifier r
  | c =>
    if c.isDigit then numberLexeme c r
    else if Text.isAlphabetic c || c = '_' then
      (wordLexeme (c :: r.takeWhile isNameChar), r.dropWhile isNameChar)
    else (unexpected c, r)

theorem length_quotedText?_le {quote : Char} {cs value r : List Char}
    (h : quotedText? quote cs = some (value, r)) : r.length ≤ cs.length := by
  fun_induction quotedText? quote cs generalizing value r with
  | case1 => simp at h
  | case2 r' ih =>
    obtain ⟨p, hp, hv⟩ := Option.map_eq_some_iff.1 h
    cases hv
    have := ih hp
    simp only [List.length_cons]
    omega
  | case3 d r' _ =>
    cases h
    simp
  | case4 =>
    cases h
    simp
  | case5 c r' _ ih =>
    obtain ⟨p, hp, hv⟩ := Option.map_eq_some_iff.1 h
    cases hv
    have := ih hp
    simp only [List.length_cons]
    omega

theorem length_quotedLexeme_le (quote : Char) (l : String → Lexeme) (cs : List Char) :
    (quotedLexeme quote l cs).2.length ≤ cs.length := by
  unfold quotedLexeme
  split
  · rename_i h
    exact length_quotedText?_le h
  · simp

theorem length_numberLexeme_le (c : Char) (r : List Char) :
    (numberLexeme c r).2.length ≤ r.length := by
  simp only [numberLexeme, List.length_drop]
  omega

theorem length_paired_le (second : List (Char × Lexeme)) (alone : Lexeme) (r : List Char) :
    (paired second alone r).2.length ≤ r.length := by
  unfold paired
  repeat' split
  all_goals simp

/-- Reading a lexeme never puts characters back. -/
theorem length_lexeme_le (c : Char) (r : List Char) : (lexeme c r).2.length ≤ r.length := by
  unfold lexeme
  split <;> (try split) <;> (try split) <;>
    first
      | exact Nat.le_refl _
      | exact length_dropWhile_le _ _
      | exact length_paired_le _ _ _
      | exact length_quotedLexeme_le _ _ _
      | exact length_numberLexeme_le _ _

/-- Cuts the characters of a text that ends at byte `size`; the last token marks the end. -/
def tokens (size : Nat) (cs : List Char) : List Token :=
  match h : skip cs with
  | [] => [⟨.eof, size, size⟩]
  | c :: r =>
    have : (lexeme c r).2.length < cs.length := by
      have h1 := length_lexeme_le c r
      have h2 := length_skip_le cs
      rw [h] at h2
      simp only [List.length_cons] at h2
      omega
    ⟨(lexeme c r).1, size - Text.byteLength (c :: r), size - Text.byteLength (lexeme c r).2⟩ ::
      tokens size (lexeme c r).2
termination_by cs.length

end GridQuery.Lexer
