/-
# Environment files

A file of lines `NAME=value` adds to the environment the names that are not in it yet. Values may be
quoted, over several lines too; outside single quotes a dollar sign stands before the name of a
variable. The first line that cannot be read ends the file; what came before it counts.

Key definitions: `EnvFile.logicalLine`, `EnvFile.value?`, `EnvFile.assignment`, `EnvFile.load`.
-/
import CodeAtlas.SortedMap
import CodeAtlas.Text.Blank
import CodeAtlas.Text.Letter

namespace CodeAtlas.EnvFile

/-- The variables by name. -/
abbrev Variables := SortedMap String String

/-- Where in a line a character stands. -/
inductive Place where
  | bare
  | blank
  | escaped
  | strong
  | strongEscaped
  | weak
  | weakEscaped
  deriving DecidableEq

namespace Place

/-- The place after an unquoted character. -/
def ofBare (c : Char) : Place :=
  if c == '\\' then .escaped else if c == '"' then .weak else if c == '\'' then .strong else .bare

/-- The place after a character. -/
def step (c : Char) : Place → Place
  | .bare => if Text.isBlank c && c != '\n' && c != '\r' then .blank else ofBare c
  | .blank => ofBare c
  | .escaped => .bare
  | .strong => if c == '\\' then .strongEscaped else if c == '\'' then .bare else .strong
  | .strongEscaped => .strong
  | .weak => if c == '\\' then .weakEscaped else if c == '"' then .bare else .weak
  | .weakEscaped => .weak

end Place

/-- The place after a line, or the part of the line before a comment. -/
def scan : Place → List Char → List Char → Place ⊕ List Char
  | place, _, [] => .inl place
  | place, before, c :: rest =>
    if place = .blank ∧ c = '#' then .inr before.reverse
    else scan (place.step c) (c :: before) rest

/-- The text without the line break at its end. -/
def withoutBreak (cs : List Char) : List Char :=
  match cs.reverse with
  | '\n' :: '\r' :: rest | '\n' :: rest => rest.reverse
  | _ => cs

/-- Whether the first character that is not blank begins a comment. -/
def isComment (cs : List Char) : Bool := (cs.dropWhile Text.isBlank).head? == some '#'

/-- The next line of a file, which goes on where a quote is open, and the lines after it; nothing where
the file ends within it. Lines have their line breaks. -/
def logicalLine (place : Place) (done : List Char) :
    List (List Char) → Option (List Char × List (List Char))
  | [] => none
  | line :: rest =>
    let text := done ++ line
    if isComment text then some ([], rest)
    else match scan place [] line with
      | .inr before => some (done ++ before, rest)
      | .inl .bare => some (withoutBreak text, rest)
      | .inl place => logicalLine place text rest

/-- The lines of a file with their line breaks. -/
def physicalLines : List Char → List (List Char)
  | [] => []
  | c :: rest =>
    if c == '\n' then [c] :: physicalLines rest
    else match physicalLines rest with
      | line :: more => (c :: line) :: more
      | [] => [[c]]

/-- How far a name after a dollar sign has been read. -/
inductive Naming where
  | off
  | open (name : List Char)
  | braced (name : List Char)

/-- What has been read of a value. -/
structure Reading where
  output : List Char := []
  place : Place := .bare
  naming : Naming := .off

namespace Reading

/-- The value of a variable: that of the environment, else that of the file. -/
def valueOf (env known : Variables) (name : List Char) : List Char :=
  (((env.get? (String.ofList name)).or (known.get? (String.ofList name))).getD "").toList

/-- The reading with a character more. -/
def push (r : Reading) (c : Char) : Reading := { r with output := r.output ++ [c] }

/-- The reading with the value of a variable more. -/
def pushValue (env known : Variables) (name : List Char) (r : Reading) : Reading :=
  { r with output := r.output ++ valueOf env known name, naming := .off }

/-- The reading after a character of a name. -/
def stepName (env known : Variables) (name : List Char) (braced : Bool) (c : Char) (r : Reading) :
    Reading :=
  if Text.isAlphanumeric c then
    { r with naming := if braced then .braced (name ++ [c]) else .open (name ++ [c]) }
  else if braced then
    if c == '\x7d' then r.pushValue env known name else { r with naming := .braced (name ++ [c]) }
  else if c == '\x7b' && name.isEmpty then { r with naming := .braced [] }
  else
    let r := r.pushValue env known name
    if c == '$' then { r with naming := .open [] } else r.push c

/-- The reading after a character; nothing where it cannot stand there. A blank ends the value. -/
def step? (env known : Variables) (r : Reading) (c : Char) : Option Reading :=
  match r.place, r.naming with
  | .blank, _ => if c == ' ' || c == '\t' then some r else none
  | .escaped, _ | .weakEscaped, _ =>
    let after := { r with place := if r.place = Place.escaped then Place.bare else Place.weak }
    if ['\\', '\'', '"', '$', ' '].contains c then some (after.push c)
    else if c == 'n' then some (after.push '\n')
    else none
  | .strong, _ | .strongEscaped, _ =>
    some (if c == '\'' then { r with place := .bare } else r.push c)
  | _, .open name => some (r.stepName env known name false c)
  | _, .braced name => some (r.stepName env known name true c)
  | .weak, .off =>
    some (if c == '$' then { r with naming := .open [] }
      else if c == '"' then { r with place := .bare }
      else if c == '\\' then { r with place := .weakEscaped }
      else r.push c)
  | .bare, .off =>
    some (if c == '$' then { r with naming := .open [] }
      else if c == '\'' then { r with place := .strong }
      else if c == '"' then { r with place := .weak }
      else if c == '\\' then { r with place := .escaped }
      else if c == ' ' || c == '\t' then { r with place := .blank }
      else r.push c)

/-- The value at the end of a line; nothing where a quote or a brace is open. -/
def finish? (env known : Variables) (r : Reading) : Option String :=
  match r.place, r.naming with
  | .strong, _ | .strongEscaped, _ | .weak, _ | .weakEscaped, _ | _, .braced _ => none
  | _, .open name => some (String.ofList (r.pushValue env known name).output)
  | _, .off => some (String.ofList r.output)

end Reading

/-- The value that characters write; a comment after blanks does not count. -/
def value? (env known : Variables) (r : Reading) : List Char → Option String
  | [] => r.finish? env known
  | c :: rest =>
    if r.place = .blank ∧ c = '#' then r.finish? env known
    else (r.step? env known c).bind fun r => value? env known r rest

/-- A name and what follows it. -/
def name? (cs : List Char) : Option (String × List Char) :=
  if cs.head?.any fun c => c.isAlpha || c == '_' then
    let inName := fun (c : Char) => c.isAlphanum || c == '_' || c == '.'
    some (String.ofList (cs.takeWhile inName), (cs.dropWhile inName).dropWhile Text.isBlank)
  else none

/-- What a line says: nothing, or the value of a name; no answer where it cannot be read. -/
def assignment (env known : Variables) (line : List Char) : Option (Option (String × String)) := do
  let cs := line.dropWhile Text.isBlank
  if cs.isEmpty || cs.head? == some '#' then return none
  let (name, rest) ← name? cs
  let (name, rest) ← match rest with
    | '=' :: rest => some (name, rest)
    | _ =>
      if name == "export" then
        match name? rest with
        | some (name, '=' :: rest) => some (name, rest)
        | _ => none
      else none
  let rest := rest.dropWhile Text.isBlank
  if rest.isEmpty || rest.head? == some '#' then return some (name, "")
  return some (name, ← value? env known {} rest)

/-- The environment with what the lines add to it, and the values that lines gave. -/
def loadLines : Nat → Variables → Variables → List (List Char) → Variables
  | 0, env, _, _ => env
  | fuel + 1, env, known, lines =>
    match logicalLine .bare [] lines with
    | none => env
    | some (line, rest) =>
      match assignment env known line with
      | none => env
      | some none => loadLines fuel env known rest
      | some (some (name, value)) =>
        let next := if env.contains name then env else env.insert name value
        loadLines fuel next (known.insert name value) rest

/-- The environment with what the text of a file adds to it. -/
def load (env : Variables) (text : String) : Variables :=
  let cs := match text.toList with
    | c :: rest => if c.toNat == 0xFEFF then rest else c :: rest
    | [] => []
  let lines := physicalLines cs
  loadLines (lines.length + 1) env .empty lines

end CodeAtlas.EnvFile
