/-
# Tokens of a source text

A source text is cut into words, numbers, texts in quotes, comments and marks, each with its place.
Blanks, and the mark that a file may begin with, stand between tokens.

Key definitions: `Source.Token`, `Source.tokens`.
-/
import CodeAtlas.Text.Letter
import CodeAtlas.Text.Blank

namespace CodeAtlas.Source

/-- What a token is. -/
inductive TokenKind where
  | word
  | number
  | quoted
  | comment
  | mark
  deriving DecidableEq

/-- A token, where it begins and ends in the text, and the rows of its ends. -/
structure Token where
  kind : TokenKind
  text : List Char
  start : Nat
  stop : Nat
  firstRow : Nat
  lastRow : Nat
  deriving DecidableEq

/-- Whether a character may stand in a word. -/
def isWordPart (c : Char) : Bool := Text.isAlphanumeric c || c == '_' || c == '$'

/-- Whether a character stands between tokens. -/
def isGap (c : Char) : Bool := Text.isBlank c || c.toNat == 0xFEFF

/-- The length of a text in quotes, from after the first quote on. -/
def quotedLength (quote : Char) : List Char → Nat
  | [] => 0
  | '\\' :: _ :: rest => 2 + quotedLength quote rest
  | c :: rest => if c == quote then 1 else 1 + quotedLength quote rest

/-- The length of a comment over lines, from after its opening on. -/
def commentLength : List Char → Nat
  | [] => 0
  | '*' :: '/' :: _ => 2
  | _ :: rest => 1 + commentLength rest

/-- The marks of more than one character. -/
def longMarks : List String :=
  ["...", "===", "!==", "=>", "==", "!=", "<=", ">=", "&&", "||", "??", "?.", "++", "--", "+=", "-="]

/-- The kind and the length of the token that comes first. -/
def measure : List Char → TokenKind × Nat
  | '/' :: '/' :: rest => (.comment, 2 + (rest.takeWhile (· != '\n')).length)
  | '/' :: '*' :: rest => (.comment, 2 + commentLength rest)
  | [] => (.mark, 0)
  | c :: rest =>
    if c.isDigit then (.number, 1 + (rest.takeWhile isWordPart).length)
    else if isWordPart c then (.word, 1 + (rest.takeWhile isWordPart).length)
    else if Text.isQuote c then (.quoted, 1 + quotedLength c rest)
    else match longMarks.find? fun m => m.toList.isPrefixOf (c :: rest) with
      | some m => (.mark, m.length)
      | none => (.mark, 1)

/-- The tokens of the characters from a place on, with a bound on their number. -/
def tokensFrom : Nat → Nat → Nat → List Char → List Token
  | 0, _, _, _ => []
  | _, _, _, [] => []
  | fuel + 1, place, row, c :: rest =>
    if isGap c then tokensFrom fuel (place + 1) (if c == '\n' then row + 1 else row) rest
    else
      let (kind, length) := measure (c :: rest)
      let text := (c :: rest).take length
      let last := row + text.count '\n'
      ⟨kind, text, place, place + text.length, row, last⟩ ::
        tokensFrom fuel (place + text.length) last ((c :: rest).drop length)

/-- The tokens of a text. -/
def tokens (source : List Char) : List Token := tokensFrom (source.length + 1) 0 0 source

end CodeAtlas.Source
