import GridQuery.Text.Ranges

/-!
Characters and cuts of text: blanks, letters and digits, trimming, the words between blanks, ASCII
case, and the stretch of a text between two byte positions.
-/

namespace GridQuery.Text
set_option autoImplicit false

/-- White space in the sense of Unicode. -/
def isBlank (c : Char) : Bool :=
  if c.toNat < 128 then c = ' ' || (decide (9 ≤ c.toNat) && decide (c.toNat ≤ 13))
  else inRanges whiteSpaceRanges c.toNat

def isAlphabetic (c : Char) : Bool :=
  if c.toNat < 128 then c.isAlpha else inRanges alphabeticRanges c.toNat

def isAlphanumeric (c : Char) : Bool :=
  if c.toNat < 128 then c.isAlphanum
  else inRanges alphabeticRanges c.toNat || inRanges numberRanges c.toNat

def trimLeft (cs : List Char) : List Char :=
  cs.dropWhile isBlank

def trimRight (cs : List Char) : List Char :=
  (cs.reverse.dropWhile isBlank).reverse

def trimChars (cs : List Char) : List Char :=
  trimRight (trimLeft cs)

def trim (s : String) : String :=
  String.ofList (trimChars s.toList)

/-- The non-empty stretches between blanks; `word` holds the stretch under way, backwards. -/
def wordsFrom (word : List Char) : List Char → List (List Char)
  | [] => if word.isEmpty then [] else [word.reverse]
  | c :: r =>
    if isBlank c then (if word.isEmpty then wordsFrom [] r else word.reverse :: wordsFrom [] r)
    else wordsFrom (c :: word) r

def words (cs : List Char) : List (List Char) :=
  wordsFrom [] cs

def asciiUpper (s : String) : String :=
  String.ofList (s.toList.map Char.toUpper)

def asciiLower (s : String) : String :=
  String.ofList (s.toList.map Char.toLower)

/-- Equality that takes an ASCII letter for its other case. -/
def eqIgnoringAsciiCase (s t : String) : Bool :=
  asciiLower s == asciiLower t

def byteLength : List Char → Nat
  | [] => 0
  | c :: r => c.utf8Size + byteLength r

def dropBytes : Nat → List Char → List Char
  | 0, cs => cs
  | _ + 1, [] => []
  | n + 1, c :: r => dropBytes (n + 1 - c.utf8Size) r
termination_by _ cs => cs.length

def takeBytes : Nat → List Char → List Char
  | 0, _ => []
  | _ + 1, [] => []
  | n + 1, c :: r => if n + 1 < c.utf8Size then [] else c :: takeBytes (n + 1 - c.utf8Size) r
termination_by _ cs => cs.length

def sliceBytes (cs : List Char) (start stop : Nat) : List Char :=
  takeBytes (stop - start) (dropBytes start cs)

def digitsValue (cs : List Char) : Nat :=
  cs.foldl (fun n c => 10 * n + (c.toNat - 48)) 0

end GridQuery.Text
