import GridQuery.Cell
import GridQuery.Text.CaseMap

/-!
The comparison operators between two cells, and the wildcard patterns of `LIKE`: `%` stands for any
stretch of text and `_` for one character, every other character for itself without regard to case.
-/

namespace GridQuery
set_option autoImplicit false

inductive Comparison where
  | eq
  | notEq
  | lt
  | ltEq
  | gt
  | gtEq
  | like
  | notLike
  | isIn
  | notIn
  | is
  | isNot
deriving DecidableEq, Repr

namespace Comparison

def text : Comparison → String
  | eq => "="
  | notEq => "<>"
  | lt => "<"
  | ltEq => "<="
  | gt => ">"
  | gtEq => ">="
  | like => "LIKE"
  | notLike => "NOT LIKE"
  | isIn => "IN"
  | notIn => "NOT IN"
  | is => "IS"
  | isNot => "IS NOT"

def all : List Comparison :=
  [eq, notEq, lt, ltEq, gt, gtEq, like, notLike, isIn, notIn, is, isNot]

end Comparison

namespace Wildcard

/-- For each suffix, whether it or a later one is marked. -/
def markEarlier : List Bool → List Bool
  | [] => []
  | b :: bs =>
    let later := markEarlier bs
    (b || later.head?.getD false) :: later

/-- Puts a character in front: a suffix is marked if it begins with one that `accepts` and the next
suffix is marked. -/
def markBefore (accepts : Char → Bool) : List Char → List Bool → List Bool
  | c :: cs, _ :: b :: bs => (accepts c && b) :: markBefore accepts cs (b :: bs)
  | _, _ => [false]

/-- For each suffix of a text, from the whole text to the empty one, whether the pattern covers it. -/
def suffixes : List Char → List Char → List Bool
  | [], cs => cs.map (fun _ => false) ++ [true]
  | p :: ps, cs =>
    if p = '%' then markEarlier (suffixes ps cs)
    else if p = '_' then markBefore (fun _ => true) cs (suffixes ps cs)
    else markBefore (fun c => Text.foldCase c == Text.foldCase p) cs (suffixes ps cs)

def covers (pattern text : List Char) : Bool :=
  ((suffixes pattern text).head?).getD false

end Wildcard

namespace Cell

/-- Null is like nothing. -/
def like (c : Cell) (pattern : String) : Bool :=
  !c.isNull && Wildcard.covers pattern.toList c.key.toList

/-- Null is in no list. -/
def inList (c : Cell) (items : List Cell) : Bool :=
  !c.isNull && items.any fun item => c.looseEq item

def holds (op : Comparison) (a b : Cell) : Bool :=
  match op with
  | .eq => a.looseEq b
  | .notEq => !a.looseEq b
  | .lt => a.order? b == some .lt
  | .ltEq => a.order? b == some .lt || a.order? b == some .eq
  | .gt => a.order? b == some .gt
  | .gtEq => a.order? b == some .gt || a.order? b == some .eq
  | .is => if b.isNull then a.isNull else a.looseEq b
  | .isNot => if b.isNull then !a.isNull else !a.looseEq b
  | .isIn => a.inList [b]
  | .notIn => !a.inList [b]
  | .like => a.like b.key
  | .notLike => !a.isNull && !a.like b.key

end Cell

end GridQuery
