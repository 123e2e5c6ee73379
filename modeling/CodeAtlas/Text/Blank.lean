/-
# White space, lines and pieces of text

White space is what the Unicode property White_Space covers. Trimming, cutting into lines and
splitting work on the list of characters.

Key definitions: `Text.isBlank`, `Text.trim`, `Text.trimMatches`, `Text.lines`, `Text.splitOnChar`,
`Text.hasSub`, `Text.firstOccurrences`.
Key theorems: `Text.splitChars_ne_nil`.
-/
namespace CodeAtlas.Text

/-- Whether `c` is white space. -/
def isBlank (c : Char) : Bool :=
  let n := c.toNat
  (9 ≤ n && n ≤ 13) || n == 0x20 || n == 0x85 || n == 0xA0 || n == 0x1680 ||
    (0x2000 ≤ n && n ≤ 0x200A) || n == 0x2028 || n == 0x2029 || n == 0x202F || n == 0x205F ||
    n == 0x3000

/-- The characters without those at the end that satisfy `p`. -/
def dropEndWhile (p : Char → Bool) (cs : List Char) : List Char :=
  (cs.reverse.dropWhile p).reverse

/-- The characters without those at either end that satisfy `p`. -/
def stripWhile (p : Char → Bool) (cs : List Char) : List Char :=
  dropEndWhile p (cs.dropWhile p)

/-- The text without the characters at either end that satisfy `p`. -/
def trimMatches (p : Char → Bool) (s : String) : String :=
  String.ofList (stripWhile p s.toList)

/-- Whether a character is one of the three quotes. -/
def isQuote (c : Char) : Bool := c == '"' || c == '\'' || c == '\x60'

/-- The text without white space at either end. -/
def trim (s : String) : String := trimMatches isBlank s

/-- The text without the characters at its start that satisfy `p`. -/
def trimStart (p : Char → Bool) (s : String) : String :=
  String.ofList (s.toList.dropWhile p)

/-- The text without the characters at its end that satisfy `p`. -/
def trimEnd (p : Char → Bool) (s : String) : String :=
  String.ofList (dropEndWhile p s.toList)

/-- Whether the text is nothing but white space. -/
def isBlankText (s : String) : Bool := s.toList.all isBlank

/-- The pieces of the characters between the separators, an empty piece where two meet. -/
def splitChars (sep : Char) : List Char → List (List Char)
  | [] => [[]]
  | c :: cs =>
    if c == sep then [] :: splitChars sep cs
    else match splitChars sep cs with
      | piece :: rest => (c :: piece) :: rest
      | [] => [[c]]

theorem splitChars_ne_nil (sep : Char) (cs : List Char) : splitChars sep cs ≠ [] := by
  cases cs with
  | nil => simp [splitChars]
  | cons c cs =>
    unfold splitChars
    split
    · simp
    · split <;> simp

/-- The pieces of the text between the separators. -/
def splitOnChar (sep : Char) (s : String) : List String :=
  (splitChars sep s.toList).map String.ofList

/-- The lines of the characters without their line feeds. A text that ends in a line feed has no
further, empty line after it. -/
def lineChars : List Char → List (List Char)
  | [] => []
  | c :: cs =>
    if c == '\n' then [] :: lineChars cs
    else match lineChars cs with
      | line :: rest => (c :: line) :: rest
      | [] => [[c]]

/-- The lines of the text without their line feeds. -/
def lines (s : String) : List String :=
  (lineChars s.toList).map String.ofList

/-- Every `a` in the text written as `b`. -/
def replaceChar (a b : Char) (s : String) : String :=
  s.map fun c => if c == a then b else c

/-- Whether the characters `sub` stand together somewhere in the second list. -/
def hasSubList (sub : List Char) : List Char → Bool
  | [] => sub.isEmpty
  | c :: cs => sub.isPrefixOf (c :: cs) || hasSubList sub cs

/-- Whether `sub` is a piece of `s`. -/
def hasSub (sub s : String) : Bool := hasSubList sub.toList s.toList

/-- Whether the text begins with `start`. -/
def beginsWith (start s : String) : Bool := start.toList.isPrefixOf s.toList

/-- The rest of the text after `start`, if it begins with it. -/
def dropStart? (start s : String) : Option String :=
  if beginsWith start s then some (String.ofList (s.toList.drop start.toList.length)) else none

/-- The rest of the text before `ending`, if it ends with it. -/
def dropEnd? (ending s : String) : Option String :=
  if ending.toList.isSuffixOf s.toList then
    some (String.ofList (s.toList.take (s.toList.length - ending.toList.length)))
  else none

/-- One element more, unless it is there already. -/
def addNew {α : Type} [DecidableEq α] (xs : List α) (x : α) : List α :=
  if x ∈ xs then xs else xs ++ [x]

/-- The elements in the order in which they first occur, each once. -/
def firstOccurrences {α : Type} [DecidableEq α] (xs : List α) : List α :=
  xs.foldl addNew []

/-- The texts with `sep` between them. -/
def join (sep : String) (parts : List String) : String := sep.intercalate parts

end CodeAtlas.Text
