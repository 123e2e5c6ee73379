/-
# What a question asks about

Quoted spans are taken first, then words that look like names in code, then all other words but those
that only make up the question. Each is taken once, whatever its case.

Key definitions: `Entity.pieces`, `Entity.tokens`, `Entity.isCode`, `Entity.extract`.
-/
import CodeAtlas.Text.Blank
import CodeAtlas.Text.Casing

namespace CodeAtlas.Entity

/-- A character outside quotes, or a quoted span. -/
inductive Piece where
  | plain (c : Char)
  | quoted (inner : List Char)
  deriving DecidableEq

/-- What stands between an opening quote, which comes before the characters, and the next quote of that
kind, if it is not empty. -/
def inner? (quote : Char) (cs : List Char) : Option (List Char) :=
  let inner := cs.takeWhile (· != quote)
  if inner.isEmpty || inner.length == cs.length then none else some inner

/-- The pieces of the characters, the first `passed` of which are part of a span already taken. -/
def piecesFrom : Nat → List Char → List Piece
  | _, [] => []
  | passed + 1, _ :: cs => piecesFrom passed cs
  | 0, c :: cs =>
    match if Text.isQuote c then inner? c cs else none with
    | some inner => .quoted inner :: piecesFrom (inner.length + 1) cs
    | none => .plain c :: piecesFrom 0 cs

/-- The pieces of the characters. -/
def pieces (cs : List Char) : List Piece := piecesFrom 0 cs

/-- The quoted span, if the piece is one. -/
def Piece.span? : Piece → Option (List Char)
  | .plain _ => none
  | .quoted inner => some inner

/-- The character outside quotes; a blank for a quoted span. -/
def Piece.outside : Piece → Char
  | .plain c => c
  | .quoted _ => ' '

/-- Whether a token may begin with the character. -/
def isStart (c : Char) : Bool := c.isAlpha || c == '_' || c == '$' || c == '@'

/-- Whether a token may go on with the character. -/
def isPart (c : Char) : Bool :=
  c.isAlphanum || c == '_' || c == '$' || c == '.' || c == '/' || c == '-'

/-- The tokens of the characters, `current` being the one begun, in reverse. -/
def tokensFrom : Option (List Char) → List Char → List (List Char)
  | none, [] => []
  | some t, [] => [t.reverse]
  | none, c :: cs => tokensFrom (if isStart c then some [c] else none) cs
  | some t, c :: cs =>
    if isPart c then tokensFrom (some (c :: t)) cs
    else t.reverse :: tokensFrom (if isStart c then some [c] else none) cs

/-- Whether a token does not end with the character. -/
def isTrailing (c : Char) : Bool := c == '.' || c == '/' || c == '-'

/-- The tokens outside quotes. -/
def tokens (cs : List Char) : List (List Char) :=
  ((tokensFrom none ((pieces cs).map Piece.outside)).map (Text.dropEndWhile isTrailing)).filter
    (!·.isEmpty)

/-- Whether a token looks like a name in code. -/
def isCode (token : List Char) : Bool :=
  token.contains '_' || token.contains '.' || token.contains '/' ||
    ((token.drop 1).any Char.isUpper && token.any Char.isLower)

/-- Words that only make up a question. -/
def stopWords : List String :=
  ["a", "about", "all", "an", "and", "any", "are", "as", "associated", "at", "between", "by", "call",
   "called", "caller", "callers", "calls", "can", "class", "classes", "code", "component",
   "components", "connected", "contract", "contracts", "defined", "depend", "dependencies",
   "dependency", "depending", "depends", "describe", "did", "do", "does", "explain", "file", "files",
   "find", "flow", "flows", "fn", "for", "from", "func", "function", "functions", "get", "handler",
   "handlers", "how", "i", "import", "imports", "in", "interface", "interfaces", "is", "it", "list",
   "me", "method", "methods", "module", "modules", "need", "of", "on", "or", "package", "path",
   "reach", "reference", "references", "related", "require", "requires", "search", "show", "similar",
   "that", "the", "this", "to", "type", "types", "usage", "usages", "use", "used", "uses", "using",
   "what", "where", "which", "who", "why", "with"]

/-- Whether a token is a word of its own. -/
def isWord (token : List Char) : Bool :=
  !isCode token && !stopWords.contains (Text.lower (String.ofList token)) && 1 < token.length

/-- The texts, without those that came before in another or the same case. -/
def distinct (texts : List String) : List String :=
  (texts.foldl (fun (kept, seen) t =>
    if seen.contains (Text.lower t) then (kept, seen) else (kept ++ [t], Text.lower t :: seen))
    (([], []) : List String × List String)).1

/-- All that a text may ask about, in the order of preference. -/
def candidates (text : String) : List String :=
  let cs := text.toList
  let spans := (pieces cs).filterMap Piece.span?
  let tokens := tokens cs
  ((spans ++ tokens.filter isCode ++ tokens.filter isWord).map fun t =>
    Text.trim (String.ofList t)).filter (· != "")

/-- What a question asks about. -/
def extract (text : String) : List String := distinct (candidates text)

end CodeAtlas.Entity
