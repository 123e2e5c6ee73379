/-
# Patterns of words

A pattern is a sequence of parts: the edge of a word, a literal text, one of several texts, or a gap of
one or more characters within a line. Letters match whatever their case; the long s and the Kelvin sign
count as forms of their letters.

Key definitions: `Pattern`, `Pattern.Part`, `Pattern.occursIn`.
-/
import CodeAtlas.Text.WordChar

namespace CodeAtlas

namespace Pattern

/-- A part of a pattern. -/
inductive Part where
  | edge
  | text (letters : String)
  | oneOf (options : List String)
  | gap
  deriving DecidableEq

end Pattern

/-- A sequence of parts. -/
abbrev Pattern := List Pattern.Part

namespace Pattern

/-- The small letter that a character is a form of, or the character itself. -/
def fold (c : Char) : Char :=
  if c == 'ſ' then 's' else if c == 'K' then 'k' else c.toLower

/-- Whether a character, if there is one, is part of a word. -/
def isWord : Option Char → Bool
  | some c => Text.isWordChar c
  | none => false

/-- What is left to match: it is given the character before and the characters after. -/
abbrev Rest := Option Char → List Char → Bool

/-- The letters one after the other, and then the rest. -/
def literal (next : Rest) : List Char → Rest
  | [], before, cs => next before cs
  | _ :: _, _, [] => false
  | l :: ls, _, c :: cs => fold c == fold l && literal next ls (some c) cs

/-- One or more characters of a line, and then the rest. -/
def skip (next : Rest) : List Char → Bool
  | [] => false
  | c :: cs => c != '\n' && (next (some c) cs || skip next cs)

/-- A part, and then the rest. -/
def Part.then (next : Rest) : Part → Rest
  | .edge, before, cs => (isWord before != isWord cs.head?) && next before cs
  | .text s, before, cs => literal next s.toList before cs
  | .oneOf options, before, cs => options.any fun s => literal next s.toList before cs
  | .gap, _, cs => skip next cs

/-- Whether the characters begin with the pattern. -/
def beginsAt (p : Pattern) : Rest := p.foldr (fun part next => part.then next) fun _ _ => true

/-- Whether the pattern begins at some place of the characters. -/
def occursFrom (p : Pattern) : Option Char → List Char → Bool
  | before, [] => p.beginsAt before []
  | before, c :: cs => p.beginsAt before (c :: cs) || occursFrom p (some c) cs

/-- Whether the pattern occurs in a text. -/
def occursIn (p : Pattern) (text : String) : Bool := p.occursFrom none text.toList

/-- A word. -/
def word (s : String) : Pattern := [.edge, .text s, .edge]

/-- A word with one of several endings. -/
def wordWith (s : String) (endings : List String) : Pattern :=
  [.edge, .text s, .oneOf endings, .edge]

/-- A word, perhaps in the plural. -/
def plural (s : String) : Pattern := wordWith s ["s", ""]

end Pattern

end CodeAtlas
