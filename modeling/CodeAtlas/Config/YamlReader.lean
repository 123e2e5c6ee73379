/-
# Reading a settings file

What stands in lines is read by indentation: the entries of a mapping or a list begin in the same
column, and what belongs to an entry stands further in. A list may stand in the column of the key it
belongs to. Tabs do not indent. What stands in brackets is read regardless of lines. A file holds one
document, after a line of three dashes or not.

Key definitions: `YamlReader.bracketed?`, `YamlReader.block?`, `Yaml.parse?`.
-/
import CodeAtlas.Config.YamlScalar

namespace CodeAtlas

namespace YamlReader

open YamlText

/-- The characters up to the end of the line, and from there on. -/
def line (cs : List Char) : List Char × List Char :=
  (cs.takeWhile (· != '\n'), cs.dropWhile (· != '\n'))

/-- What follows blanks, line breaks and comments. -/
def skipSpace : Nat → List Char → List Char
  | 0, cs => cs
  | fuel + 1, cs =>
    match cs.dropWhile (fun c => isSpace c || c == '\n') with
    | '#' :: rest => skipSpace fuel (line rest).2
    | rest => rest

/-- Whether a colon stands right before a bracket or a comma. -/
def hasLooseColon : List Char → Bool
  | [] => false
  | ':' :: c :: rest => isBracket c || c == '?' || hasLooseColon (c :: rest)
  | _ :: rest => hasLooseColon rest

/-- A plain text within brackets, over as many lines as it goes. -/
def plainInBrackets : Nat → List Char → List Char → Option (String × List Char)
  | 0, _, _ => none
  | fuel + 1, acc, cs =>
    let (part, rest) := segment true cs
    if hasLooseColon (part ++ rest.take 1) then none
    else
      let acc := acc ++ part
      match rest with
      | '\n' :: _ =>
        let (n, _, after) := breaksFrom 0 0 true rest
        if after.head?.any (fun c => c == '#' || isBracket c) || after.isEmpty ||
            (after.head? == some ':' && atBlank (after.drop 1)) then
          some (String.ofList acc, after)
        else plainInBrackets fuel (acc ++ fold n) after
      | _ => some (String.ofList acc, rest)

mutual

/-- A value within brackets, or that is bracketed itself. -/
def bracketed? : Nat → List Char → Option (Yaml × List Char)
  | 0, _ => none
  | fuel + 1, cs =>
    match cs with
    | '[' :: rest => items? fuel [] (skipSpace rest.length rest)
    | '\x7b' :: rest => pairs? fuel [] (skipSpace rest.length rest)
    | '\'' :: _ | '"' :: _ => (quoted? cs).map fun (text, rest) => (.quoted text, rest)
    | _ =>
      if startsPlain true cs then
        (plainInBrackets cs.length [] cs).map fun (text, rest) => (.plain text, rest)
      else none

/-- The items of a list up to its closing bracket. -/
def items? : Nat → List Yaml → List Char → Option (Yaml × List Char)
  | 0, _, _ => none
  | fuel + 1, done, cs =>
    match cs with
    | ']' :: rest => some (.sequence done.reverse, rest)
    | _ => do
      let (item, rest) ← bracketed? fuel cs
      let rest := skipSpace rest.length rest
      let (item, rest) ← match rest with
        | ':' :: after => do
          let (value, rest) ← valueAfterColon? fuel (skipSpace after.length after)
          return (Yaml.mapping [(← item.text?, value)], skipSpace rest.length rest)
        | _ => some (item, rest)
      match rest with
      | ',' :: after => items? fuel (item :: done) (skipSpace after.length after)
      | ']' :: after => some (.sequence (item :: done).reverse, after)
      | _ => none

/-- The entries of a mapping up to its closing bracket. -/
def pairs? : Nat → List (String × Yaml) → List Char → Option (Yaml × List Char)
  | 0, _, _ => none
  | fuel + 1, done, cs =>
    match cs with
    | '\x7d' :: rest => some (.mapping done.reverse, rest)
    | _ => do
      let (key, rest) ← bracketed? fuel cs
      let key ← key.text?
      let rest := skipSpace rest.length rest
      let (value, rest) ← match rest with
        | ':' :: after => valueAfterColon? fuel (skipSpace after.length after)
        | _ => some (Yaml.empty, rest)
      match skipSpace rest.length rest with
      | ',' :: after => pairs? fuel ((key, value) :: done) (skipSpace after.length after)
      | '\x7d' :: after => some (.mapping ((key, value) :: done).reverse, after)
      | _ => none

/-- The value after a colon within brackets, which may be left out. -/
def valueAfterColon? : Nat → List Char → Option (Yaml × List Char)
  | 0, _ => none
  | fuel + 1, cs =>
    match cs with
    | ',' :: _ | ']' :: _ | '\x7d' :: _ => some (.empty, cs)
    | _ => bracketed? fuel cs

end

/-- The number of spaces that come first. -/
def indent (cs : List Char) : Nat := (cs.takeWhile (· == ' ')).length

/-- What follows lines that are blank or hold only a comment; nothing where a tab indents. -/
def skipLines? : Nat → List Char → Option (List Char)
  | 0, cs => some cs
  | fuel + 1, cs =>
    match cs.dropWhile (· == ' ') with
    | [] => some []
    | '\t' :: _ => none
    | '\n' :: rest => skipLines? fuel rest
    | '#' :: rest => skipLines? fuel ((line rest).2.drop 1)
    | _ => some cs

/-- What follows the end of the line, on which there is nothing more but a comment. -/
def endLine? (cs : List Char) : Option (List Char) :=
  match cs.dropWhile isSpace with
  | [] => some []
  | '\n' :: rest => some rest
  | '#' :: rest => some ((line rest).2.drop 1)
  | _ => none

/-- Whether an item of a list begins here. -/
def startsItem : List Char → Bool
  | '-' :: rest => atBlank rest
  | _ => false

/-- The key that begins here, and what follows its colon. -/
def key? (cs : List Char) : Option (String × List Char) :=
  let (text, rest) := line cs
  let found : Option (String × List Char) :=
    match text with
    | '\'' :: _ | '"' :: _ => quoted? text
    | ':' :: after => if atBlank after then some ("", text) else some (plainKey text)
    | _ => if startsPlain false text then some (plainKey text) else none
  found.bind fun (key, after) =>
    match after.dropWhile isSpace with
    | ':' :: after => if atBlank after then some (key, after ++ rest) else none
    | _ => none
where
  /-- The plain text up to a colon. -/
  plainKey (text : List Char) : String × List Char :=
    let (part, rest) := segment false text
    (String.ofList part, rest)

/-- A plain text outside brackets, over the lines that stand at least `least` columns in. -/
def plainInLines : Nat → Nat → List Char → List Char → String × List Char
  | 0, _, acc, cs => (String.ofList acc, cs)
  | fuel + 1, least, acc, cs =>
    let (part, rest) := segment false cs
    let acc := acc ++ part
    match rest with
    | '\n' :: _ =>
      let (n, column, after) := breaksFrom 0 0 true rest
      if column < least || after.isEmpty || after.head? == some '#' then (String.ofList acc, rest)
      else plainInLines fuel least (acc ++ fold n) after
    | _ => (String.ofList acc, rest)

/-- A value that begins on a line and is no mapping or list in lines, and what follows its last line. -/
def inline? (least : Nat) (cs : List Char) : Option (Yaml × List Char) := do
  let (v, rest) ←
    match cs with
    | '\'' :: _ | '"' :: _ => (quoted? cs).map fun (text, rest) => (Yaml.quoted text, rest)
    | '[' :: _ | '\x7b' :: _ => bracketed? (2 * cs.length + 1) cs
    | _ =>
      if startsPlain false cs then
        let (text, rest) := plainInLines cs.length least [] cs
        some (Yaml.plain text, rest)
      else none
  return (v, ← endLine? rest)

mutual

/-- The value that begins on the next line, if it stands at least `least` columns in. -/
def block? : Nat → Nat → List Char → Option (Yaml × List Char)
  | 0, _, _ => none
  | fuel + 1, least, cs => do
    let cs ← skipLines? cs.length cs
    let column := indent cs
    let text := cs.drop column
    if text.isEmpty || column < least then return (.empty, cs)
    if startsItem text then sequence? fuel column [] cs
    else match key? text with
      | some _ => mapping? fuel column [] cs
      | none => inline? least text

/-- The items of a list that begin in a column. -/
def sequence? : Nat → Nat → List Yaml → List Char → Option (Yaml × List Char)
  | 0, _, _, _ => none
  | fuel + 1, column, done, cs => do
    let cs ← skipLines? cs.length cs
    let text := cs.drop column
    if column < indent cs && !text.isEmpty then none
    else if indent cs < column || !startsItem text then return (.sequence done.reverse, cs)
    else
      let (item, rest) ←
        block? fuel (column + 1) (List.replicate (column + 1) ' ' ++ text.drop 1)
      sequence? fuel column (item :: done) rest

/-- The entries of a mapping that begin in a column. -/
def mapping? : Nat → Nat → List (String × Yaml) → List Char → Option (Yaml × List Char)
  | 0, _, _, _ => none
  | fuel + 1, column, done, cs => do
    let cs ← skipLines? cs.length cs
    let text := cs.drop column
    if text.isEmpty || indent cs < column then return (.mapping done.reverse, cs)
    if column < indent cs || startsItem text then none
    let (key, rest) ← key? text
    let (value, rest) ← entry? fuel column rest
    mapping? fuel column ((key, value) :: done) rest

/-- The value of an entry, from what follows its colon. -/
def entry? : Nat → Nat → List Char → Option (Yaml × List Char)
  | 0, _, _ => none
  | fuel + 1, column, cs => do
    let text := cs.dropWhile isSpace
    match endLine? text with
    | none => inline? (column + 1) text
    | some rest =>
      let rest ← skipLines? rest.length rest
      if indent rest == column && startsItem (rest.drop column) then sequence? fuel column [] rest
      else block? fuel (column + 1) rest

end

/-- Whether a character may stand in a file. -/
def isAllowed (c : Char) : Bool :=
  let n := c.toNat
  n == 9 || n == 10 || (0x20 ≤ n && n ≤ 0x7E) || n == 0x85 || (0xA0 ≤ n && n != 0xFEFF && n ≤ 0xFFFD) ||
    0x10000 ≤ n

/-- The characters with every line break as a line feed. -/
def breaksUnified : List Char → List Char
  | [] => []
  | '\r' :: '\n' :: rest => '\n' :: breaksUnified rest
  | c :: rest =>
    (if c == '\r' || c.toNat == 0x85 || c.toNat == 0x2028 || c.toNat == 0x2029 then '\n' else c) ::
      breaksUnified rest

/-- Whether a line is the given mark, with or without something after it. -/
def isMark (mark text : List Char) : Bool := mark.isPrefixOf text && atBlank (text.drop mark.length)

/-- Whether a line is blank or holds only a comment. -/
def isEmptyLine (text : List Char) : Bool :=
  match text.dropWhile (· == ' ') with
  | [] | '#' :: _ => true
  | _ => false

/-- The mark that a document begins with. -/
def startMark : List Char := ['-', '-', '-']

/-- The mark that a document ends with. -/
def endMark : List Char := ['.', '.', '.']

/-- The value of the lines of a document. -/
def ofLines? (lines : List (List Char)) : Option Yaml := do
  let cs := List.flatten (lines.map (· ++ ['\n']))
  let (v, rest) ← block? (4 * cs.length + 4) 0 cs
  if (skipLines? rest.length rest) == some [] then some v else none

/-- The value of a document after the mark it begins with. -/
def afterMark? (first : List Char) (lines : List (List Char)) : Option Yaml := do
  if (endLine? first).isSome then ofLines? lines
  else
    let cs := List.flatten ((first.dropWhile isSpace :: lines).map (· ++ ['\n']))
    let (v, rest) ← inline? 0 cs
    if (skipLines? rest.length rest) == some [] then some v else none

/-- The value of the one document that lines hold. -/
def document? (lines : List (List Char)) : Option Yaml :=
  let body := lines.takeWhile fun l => !isMark endMark l
  let after := lines.drop body.length
  if !after.all fun l => isMark endMark l && (endLine? (l.drop 3)).isSome || isEmptyLine l then none
  else match body.dropWhile isEmptyLine with
    | [] => some .empty
    | first :: rest =>
      if rest.any (isMark startMark) then none
      else if isMark startMark first then afterMark? (first.drop 3) rest
      else ofLines? (first :: rest)

end YamlReader

/-- The value of a settings file. -/
def Yaml.parse? (text : String) : Option Yaml :=
  let cs := YamlReader.breaksUnified (match text.toList with
    | c :: rest => if c.toNat == 0xFEFF then rest else c :: rest
    | [] => [])
  if cs.all YamlReader.isAllowed then YamlReader.document? (Text.splitChars '\n' cs) else none

end CodeAtlas
