import GridQuery.Number.Decimal
import GridQuery.Text.Quoted

/-!
The tokens of query text: reserved words, names, literals, operators and brackets, each with its
place in the text in bytes.
-/

namespace GridQuery
set_option autoImplicit false

inductive Keyword where
  | select
  | from_
  | where_
  | group
  | order
  | by_
  | having
  | limit
  | pivot
  | distinct
  | all
  | join
  | inner
  | left
  | right
  | full
  | outer
  | on
  | as_
  | union
  | intersect
  | except
  | and_
  | or_
  | not_
  | in_
  | like
  | is
  | null
  | true_
  | false_
  | exists_
  | between
  | asc
  | desc
  | case_
  | when
  | then_
  | else_
  | end_
deriving DecidableEq, Repr

namespace Keyword

def text : Keyword → String
  | select => "SELECT"
  | from_ => "FROM"
  | where_ => "WHERE"
  | group => "GROUP"
  | order => "ORDER"
  | by_ => "BY"
  | having => "HAVING"
  | limit => "LIMIT"
  | pivot => "PIVOT"
  | distinct => "DISTINCT"
  | all => "ALL"
  | join => "JOIN"
  | inner => "INNER"
  | left => "LEFT"
  | right => "RIGHT"
  | full => "FULL"
  | outer => "OUTER"
  | on => "ON"
  | as_ => "AS"
  | union => "UNION"
  | intersect => "INTERSECT"
  | except => "EXCEPT"
  | and_ => "AND"
  | or_ => "OR"
  | not_ => "NOT"
  | in_ => "IN"
  | like => "LIKE"
  | is => "IS"
  | null => "NULL"
  | true_ => "TRUE"
  | false_ => "FALSE"
  | exists_ => "EXISTS"
  | between => "BETWEEN"
  | asc => "ASC"
  | desc => "DESC"
  | case_ => "CASE"
  | when => "WHEN"
  | then_ => "THEN"
  | else_ => "ELSE"
  | end_ => "END"

def words : List Keyword :=
  [select, from_, where_, group, order, by_, having, limit, pivot, distinct, all, join, inner,
    left, right, full, outer, on, as_, union, intersect, except, and_, or_, not_, in_, like, is,
    null, true_, false_, exists_, between, asc, desc, case_, when, then_, else_, end_]

def ofText? (s : String) : Option Keyword :=
  let capitals := Text.asciiUpper s
  words.find? fun k => k.text == capitals

def title (k : Keyword) : String :=
  match k.text.toList with
  | [] => ""
  | c :: r => String.ofList (c :: r.map Char.toLower)

end Keyword

inductive Lexeme where
  | integer (value : Int)
  | float (value : Float)
  | string (value : String)
  | identifier (name : String)
  | keyword (word : Keyword)
  | plus
  | minus
  | star
  | slash
  | percent
  | eq
  | notEq
  | lt
  | ltEq
  | gt
  | gtEq
  | concat
  | leftParen
  | rightParen
  | comma
  | semicolon
  | dot
  | placeholder (number : Option Nat)
  | eof
  | error (message : String)
deriving DecidableEq, Inhabited

structure Token where
  lexeme : Lexeme
  start : Nat
  stop : Nat
deriving DecidableEq, Inhabited

namespace Lexeme

def name : Lexeme → String
  | integer _ => "Integer"
  | float _ => "Float"
  | string _ => "String"
  | identifier _ => "Identifier"
  | keyword _ => "Keyword"
  | plus => "Plus"
  | minus => "Minus"
  | star => "Star"
  | slash => "Slash"
  | percent => "Percent"
  | eq => "Eq"
  | notEq => "NotEq"
  | lt => "Lt"
  | ltEq => "LtEq"
  | gt => "Gt"
  | gtEq => "GtEq"
  | concat => "Concat"
  | leftParen => "LeftParen"
  | rightParen => "RightParen"
  | comma => "Comma"
  | semicolon => "Semicolon"
  | dot => "Dot"
  | placeholder _ => "Placeholder"
  | eof => "Eof"
  | error _ => "Error"

def payload? : Lexeme → Option String
  | integer i => some (String.ofList (Number.intDigits i))
  | float x => some (Number.tagged x)
  | string s => some (Text.quoted s)
  | identifier s => some (Text.quoted s)
  | keyword k => some k.title
  | placeholder none => some "None"
  | placeholder (some n) => some ("Some(" ++ String.ofList (Number.digits n) ++ ")")
  | error m => some (Text.quoted m)
  | _ => none

def shown (l : Lexeme) : String :=
  match l.payload? with
  | some p => l.name ++ "(" ++ p ++ ")"
  | none => l.name

end Lexeme

end GridQuery
