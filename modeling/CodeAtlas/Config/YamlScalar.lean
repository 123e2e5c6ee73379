/-
# Texts of a settings file

A text stands between single quotes, between double quotes, or plain. A line break within a text is a
space, and each further break that follows at once is a line feed; blanks around breaks do not count.

Key definitions: `YamlText.single?`, `YamlText.double?`, `YamlText.segment`, `YamlText.fold`.
-/
import CodeAtlas.Config.Yaml

namespace CodeAtlas.YamlText

/-- Whether a character is a space or a tab. -/
def isSpace (c : Char) : Bool := c == ' ' || c == '\t'

/-- Whether nothing but a space, a tab or the end of a line comes next. -/
def atBlank : List Char → Bool
  | [] => true
  | c :: _ => isSpace c || c == '\n'

/-- What stands between two characters of a text: blanks, line breaks, or line breaks of which the first
was taken back. -/
inductive Gap where
  | blanks (cs : List Char)
  | breaks (n : Nat)
  | joined (n : Nat)

namespace Gap

/-- No gap. -/
def none : Gap := .blanks []

/-- A gap with a blank more. -/
def blank (c : Char) : Gap → Gap
  | .blanks cs => .blanks (cs ++ [c])
  | g => g

/-- A gap with a line break more. -/
def lineBreak : Gap → Gap
  | .blanks _ => .breaks 1
  | .breaks n => .breaks (n + 1)
  | .joined n => .joined (n + 1)

/-- What is read for a gap. -/
def chars : Gap → List Char
  | .blanks cs => cs
  | .breaks 1 => [' ']
  | .breaks n => List.replicate (n - 1) '\n'
  | .joined n => List.replicate n '\n'

end Gap

/-- The text after an opening single quote, and what follows the closing one. -/
def single? (acc : List Char) (gap : Gap) : List Char → Option (String × List Char)
  | [] => none
  | '\'' :: '\'' :: rest => single? (acc ++ gap.chars ++ ['\'']) .none rest
  | '\'' :: rest => some (String.ofList (acc ++ gap.chars), rest)
  | '\n' :: rest => single? acc gap.lineBreak rest
  | c :: rest =>
    if isSpace c then single? acc (gap.blank c) rest
    else single? (acc ++ gap.chars ++ [c]) .none rest

/-- The character that a backslash and another character stand for. -/
def escape? : Char → Option Char
  | '0' => some '\x00'
  | 'a' => some '\x07'
  | 'b' => some '\x08'
  | 't' => some '\t'
  | '\t' => some '\t'
  | 'n' => some '\n'
  | 'v' => some '\x0b'
  | 'f' => some '\x0c'
  | 'r' => some '\r'
  | 'e' => some '\x1b'
  | ' ' => some ' '
  | '"' => some '"'
  | '/' => some '/'
  | '\\' => some '\\'
  | 'N' => some (Char.ofNat 0x85)
  | '_' => some (Char.ofNat 0xA0)
  | 'L' => some (Char.ofNat 0x2028)
  | 'P' => some (Char.ofNat 0x2029)
  | _ => none

/-- The character with the given code. -/
def code? (n : Nat) : Option Char :=
  if 0xD800 ≤ n ∧ n ≤ 0xDFFF ∨ 0x10FFFF < n then none else some (Char.ofNat n)

/-- The character that hexadecimal digits stand for. -/
def hex? (cs : List Char) : Option Char := (Text.digits? 16 cs).bind code?

/-- The text after an opening double quote, and what follows the closing one. -/
def double? (acc : List Char) (gap : Gap) : List Char → Option (String × List Char)
  | [] => none
  | '"' :: rest => some (String.ofList (acc ++ gap.chars), rest)
  | '\\' :: '\n' :: rest => double? (acc ++ gap.chars) (.joined 0) rest
  | '\\' :: 'x' :: a :: b :: rest =>
    (hex? [a, b]).bind fun c => double? (acc ++ gap.chars ++ [c]) .none rest
  | '\\' :: 'u' :: a :: b :: c :: d :: rest =>
    (hex? [a, b, c, d]).bind fun x => double? (acc ++ gap.chars ++ [x]) .none rest
  | '\\' :: 'U' :: a :: b :: c :: d :: e :: f :: g :: h :: rest =>
    (hex? [a, b, c, d, e, f, g, h]).bind fun x => double? (acc ++ gap.chars ++ [x]) .none rest
  | '\\' :: c :: rest =>
    (escape? c).bind fun x => double? (acc ++ gap.chars ++ [x]) .none rest
  | '\n' :: rest => double? acc gap.lineBreak rest
  | c :: rest =>
    if isSpace c then double? acc (gap.blank c) rest
    else double? (acc ++ gap.chars ++ [c]) .none rest

/-- The text between quotes, and what follows it. -/
def quoted? : List Char → Option (String × List Char)
  | '\'' :: rest => single? [] .none rest
  | '"' :: rest => double? [] .none rest
  | _ => none

/-- Whether a character ends a plain text within brackets. -/
def isBracket (c : Char) : Bool := c == ',' || c == '[' || c == ']' || c == '\x7b' || c == '\x7d'

/-- Characters that a plain text does not begin with. -/
def indicators : List Char :=
  ['-', '?', ':', ',', '[', ']', '\x7b', '\x7d', '#', '&', '*', '!', '|', '>', '\'', '"', '%', '@',
   '\x60']

/-- Whether a plain text begins here. -/
def startsPlain (inBrackets : Bool) : List Char → Bool
  | [] => false
  | c :: rest =>
    (!isSpace c && c != '\n' && !indicators.contains c) || (c == '-' && !(rest.head?.any isSpace)) ||
      (!inBrackets && (c == '?' || c == ':') && !atBlank rest)

/-- The part of a plain text on one line, without blanks at its end, and what follows it. The blanks
since the last character are kept aside. -/
def segmentFrom (inBrackets : Bool) (acc blanks : List Char) : List Char → List Char × List Char
  | [] => (acc, [])
  | c :: rest =>
    if c == '\n' then (acc, c :: rest)
    else if isSpace c then segmentFrom inBrackets acc (blanks ++ [c]) rest
    else if c == '#' && !blanks.isEmpty then (acc, blanks ++ c :: rest)
    else if c == ':' && atBlank rest || inBrackets && isBracket c then (acc, c :: rest)
    else segmentFrom inBrackets (acc ++ blanks ++ [c]) [] rest

/-- The part of a plain text on one line, and what follows it. -/
def segment (inBrackets : Bool) (cs : List Char) : List Char × List Char :=
  segmentFrom inBrackets [] [] cs

/-- The line breaks that come next, the spaces after the last of them, and what follows these and other
blanks. -/
def breaksFrom (n column : Nat) (indenting : Bool) : List Char → Nat × Nat × List Char
  | [] => (n, column, [])
  | c :: rest =>
    if c == '\n' then breaksFrom (n + 1) 0 true rest
    else if c == ' ' && indenting then breaksFrom n (column + 1) true rest
    else if isSpace c then breaksFrom n column false rest
    else (n, column, c :: rest)

/-- What is read for line breaks within a plain text. -/
def fold (n : Nat) : List Char := Gap.chars (.breaks n)

end CodeAtlas.YamlText
