/-
# JSON texts

A value is written on one line without spaces, or one item to a line, each level indented by two
spaces. Within a text the quote, the backslash and the control characters are escaped and nothing
else is.

Key definitions: `Json.quote`, `Json.compact`, `Json.pretty`.
-/
import CodeAtlas.Json

namespace CodeAtlas.Json

/-- The digit of a number below sixteen. -/
def hexDigit (n : Nat) : Char := Nat.digitChar n

/-- One character within a quoted text. -/
def escapeChar (c : Char) : List Char :=
  if c == '"' then ['\\', '"']
  else if c == '\\' then ['\\', '\\']
  else if c == '\n' then ['\\', 'n']
  else if c == '\r' then ['\\', 'r']
  else if c == '\t' then ['\\', 't']
  else if c.toNat == 8 then ['\\', 'b']
  else if c.toNat == 12 then ['\\', 'f']
  else if c.toNat < 0x20 then ['\\', 'u', '0', '0', hexDigit (c.toNat / 16), hexDigit (c.toNat % 16)]
  else [c]

/-- The characters of a text in quotes. -/
def quoteChars (s : String) : List Char := '"' :: s.toList.flatMap escapeChar ++ ['"']

/-- A text in quotes. -/
def quote (s : String) : String := String.ofList (quoteChars s)

/-- A whole number in base ten. -/
def intText (n : Int) : String :=
  if n < 0 then "-" ++ Binary64.decimalText n.natAbs else Binary64.decimalText n.natAbs

/-- The text of a number. -/
def numberText : Number → String
  | .whole n => intText n
  | .float x => x.text

mutual

/-- The value on one line. -/
def compact : Json → String
  | .null => "null"
  | .bool b => if b then "true" else "false"
  | .number n => numberText n
  | .string s => quote s
  | .array [] => "[]"
  | .array (item :: items) => "[" ++ compact item ++ compactItems items ++ "]"
  | .object [] => "\x7b\x7d"
  | .object ((key, value) :: fields) =>
    "\x7b" ++ quote key ++ ":" ++ compact value ++ compactFields fields ++ "\x7d"

/-- The items after the first. -/
def compactItems : List Json → String
  | [] => ""
  | item :: items => "," ++ compact item ++ compactItems items

/-- The fields after the first. -/
def compactFields : List (String × Json) → String
  | [] => ""
  | (key, value) :: fields => "," ++ quote key ++ ":" ++ compact value ++ compactFields fields

end

/-- A line feed and the spaces of a level. -/
def newline (level : Nat) : String := String.ofList ('\n' :: List.replicate (2 * level) ' ')

mutual

/-- The value over several lines, for the given level. -/
def prettyAt (level : Nat) : Json → String
  | .null => "null"
  | .bool b => if b then "true" else "false"
  | .number n => numberText n
  | .string s => quote s
  | .array [] => "[]"
  | .array (item :: items) =>
    "[" ++ newline (level + 1) ++ prettyAt (level + 1) item ++ prettyItems level items ++
      newline level ++ "]"
  | .object [] => "\x7b\x7d"
  | .object ((key, value) :: fields) =>
    "\x7b" ++ newline (level + 1) ++ quote key ++ ": " ++ prettyAt (level + 1) value ++
      prettyFields level fields ++ newline level ++ "\x7d"

/-- The items after the first, each on a line. -/
def prettyItems (level : Nat) : List Json → String
  | [] => ""
  | item :: items =>
    "," ++ newline (level + 1) ++ prettyAt (level + 1) item ++ prettyItems level items

/-- The fields after the first, each on a line. -/
def prettyFields (level : Nat) : List (String × Json) → String
  | [] => ""
  | (key, value) :: fields =>
    "," ++ newline (level + 1) ++ quote key ++ ": " ++ prettyAt (level + 1) value ++
      prettyFields level fields

end

/-- The value over several lines. -/
def pretty (value : Json) : String := prettyAt 0 value

end CodeAtlas.Json
