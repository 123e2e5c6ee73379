/-
# Tokens of a JSON text

The scanner reads one character at a time and keeps where it stands: between tokens, within a text,
within an escape, within a numeral or within a word. A text whose escapes do not pair up the halves of
a character has no value, but is a token all the same, since a reader that skips it need not care.

Key definitions: `Json.Token`, `Json.Scanner.step`, `Json.tokens?`.
-/
import CodeAtlas.Json.Numeral

namespace CodeAtlas.Json

/-- A token. A text is absent where its escapes denote no characters. -/
inductive Token where
  | mark (c : Char)
  | null
  | bool (value : Bool)
  | number (value : Numeral)
  | text (value : Option String)
  deriving DecidableEq

/-- A piece of a text: a character that stands for itself or by a short escape, or the 16-bit unit of
an escape with four digits. -/
inductive Piece where
  | char (c : Char)
  | unit (code : Nat)
  deriving DecidableEq

/-- Whether the unit is the first half of a character. -/
def isHighHalf (u : Nat) : Bool := 0xD800 ≤ u && u < 0xDC00

/-- Whether the unit is the second half of a character. -/
def isLowHalf (u : Nat) : Bool := 0xDC00 ≤ u && u < 0xE000

/-- The characters of the pieces; nothing where a half stands alone. -/
def joinPieces : List Piece → Option (List Char)
  | [] => some []
  | .char c :: rest => (joinPieces rest).map (c :: ·)
  | .unit u :: .unit v :: rest =>
    if isHighHalf u then
      if isLowHalf v then
        (joinPieces rest).map (Char.ofNat (0x10000 + (u - 0xD800) * 0x400 + (v - 0xDC00)) :: ·)
      else none
    else if isLowHalf u then none
    else (joinPieces (.unit v :: rest)).map (Char.ofNat u :: ·)
  | .unit u :: rest =>
    if isHighHalf u || isLowHalf u then none else (joinPieces rest).map (Char.ofNat u :: ·)

/-- Where the scanner stands. What it has read of a token is kept in reverse. -/
inductive Mode where
  | between
  | text (read : List Piece)
  | escape (read : List Piece)
  | code (read : List Piece) (value left : Nat)
  | number (read : List Char)
  | word (read : List Char)

/-- The scanner: where it stands, and the tokens read, the last one first. -/
structure Scanner where
  mode : Mode
  read : List Token

namespace Scanner

/-- The scanner before the first character. -/
def start : Scanner := ⟨.between, []⟩

/-- One token more, and between tokens again. -/
def emit (s : Scanner) (t : Token) : Scanner := ⟨.between, t :: s.read⟩

/-- The word a literal is written with. -/
def literal? (w : List Char) : Option Token :=
  if w = ['n', 'u', 'l', 'l'] then some .null
  else if w = ['t', 'r', 'u', 'e'] then some (.bool true)
  else if w = ['f', 'a', 'l', 's', 'e'] then some (.bool false)
  else none

/-- White space between tokens. -/
def isSpace (c : Char) : Bool := c == ' ' || c == '\n' || c == '\t' || c == '\r'

/-- Whether `c` may belong to a numeral. -/
def inNumeral (c : Char) : Bool :=
  c.isDigit || c == '-' || c == '+' || c == '.' || c == 'e' || c == 'E'

/-- A character between tokens. -/
def begin? (s : Scanner) (c : Char) : Option Scanner :=
  if isSpace c then some s
  else if c == '\x7b' || c == '\x7d' || c == '[' || c == ']' || c == ':' || c == ',' then
    some (s.emit (.mark c))
  else if c == '"' then some ⟨.text [], s.read⟩
  else if c.isDigit || c == '-' then some ⟨.number [c], s.read⟩
  else if c.isLower then some ⟨.word [c], s.read⟩
  else none

/-- The character of a short escape. -/
def shortEscape? (c : Char) : Option Char :=
  if c == '"' || c == '\\' || c == '/' then some c
  else if c == 'b' then some (Char.ofNat 8)
  else if c == 'f' then some (Char.ofNat 12)
  else if c == 'n' then some '\n'
  else if c == 'r' then some '\r'
  else if c == 't' then some '\t'
  else none

/-- The value of a digit in base sixteen. -/
def hexValue? (c : Char) : Option Nat :=
  if c.isDigit then some (c.toNat - 48)
  else if 'a' ≤ c && c ≤ 'f' then some (c.toNat - 87)
  else if 'A' ≤ c && c ≤ 'F' then some (c.toNat - 55)
  else none

/-- The text made of the pieces, read in reverse. -/
def closeText (s : Scanner) (read : List Piece) : Scanner :=
  s.emit (.text ((joinPieces read.reverse).map String.ofList))

/-- Ends the numeral or word under way. -/
def close? (s : Scanner) : Option Scanner :=
  match s.mode with
  | .between => some s
  | .number read => (Numeral.ofChars? read.reverse).map fun n => s.emit (.number n)
  | .word read => (literal? read.reverse).map s.emit
  | _ => none

/-- Reads one character. -/
def step? (s : Scanner) (c : Char) : Option Scanner :=
  match s.mode with
  | .between => s.begin? c
  | .text read =>
    if c == '"' then some (s.closeText read)
    else if c == '\\' then some ⟨.escape read, s.read⟩
    else if c.toNat < 0x20 then none
    else some ⟨.text (.char c :: read), s.read⟩
  | .escape read =>
    if c == 'u' then some ⟨.code read 0 4, s.read⟩
    else (shortEscape? c).map fun e => ⟨.text (.char e :: read), s.read⟩
  | .code read value left =>
    (hexValue? c).map fun d =>
      if left ≤ 1 then ⟨.text (.unit (value * 16 + d) :: read), s.read⟩
      else ⟨.code read (value * 16 + d) (left - 1), s.read⟩
  | .number read =>
    if inNumeral c then some ⟨.number (c :: read), s.read⟩ else s.close?.bind (·.begin? c)
  | .word read =>
    if c.isLower then some ⟨.word (c :: read), s.read⟩ else s.close?.bind (·.begin? c)

/-- Reads the characters in turn. -/
def run? : Scanner → List Char → Option Scanner
  | s, [] => some s
  | s, c :: cs => (s.step? c).bind (run? · cs)

end Scanner

/-- The tokens of a text. -/
def tokens? (s : String) : Option (List Token) :=
  ((Scanner.start.run? s.toList).bind Scanner.close?).map fun done => done.read.reverse

end CodeAtlas.Json
