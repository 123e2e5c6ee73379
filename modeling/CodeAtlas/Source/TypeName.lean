/-
# Names within type texts and literals

A type text names other types: each run of identifier characters that does not begin with a digit.
A literal denotes a text by what stands between its quotes.

Key definitions: `TypeName.runs`, `TypeName.identifiers`, `TypeName.base?`, `unquote`.
-/
import CodeAtlas.Text.Blank
import CodeAtlas.Text.Letter

namespace CodeAtlas

namespace TypeName

/-- Whether a character may be part of an identifier. -/
def isPart (c : Char) : Bool := Text.isAlphanumeric c || c == '_' || c == '$'

/-- Whether a character may begin an identifier. -/
def isStart (c : Char) : Bool := Text.isAlphabetic c || c == '_' || c == '$'

/-- The longest runs of characters that satisfy `p`. -/
def runs (p : Char → Bool) : List Char → List (List Char)
  | [] => []
  | c :: cs =>
    if !p c then runs p cs
    else match cs with
      | [] => [[c]]
      | d :: _ =>
        if p d then
          match runs p cs with
          | run :: rest => (c :: run) :: rest
          | [] => [[c]]
        else [c] :: runs p cs

/-- Whether a run is an identifier. -/
def isIdentifier : List Char → Bool
  | [] => false
  | c :: _ => isStart c

/-- The identifiers in a type text, each once, in the order in which they first occur. -/
def identifiers (text : String) : List String :=
  Text.firstOccurrences (((runs isPart text.toList).filter isIdentifier).map String.ofList)

/-- The text up to its type arguments, if anything stands there. -/
def base? (text : String) : Option String :=
  let base := Text.trim (String.ofList (text.toList.takeWhile (· != '<')))
  if base == "" then none else some base

end TypeName

/-- The text between quotes. -/
def unquote (literal : String) : String := Text.trimMatches Text.isQuote (Text.trim literal)

end CodeAtlas
