/-
# Paths

A path is a text whose pieces stand between slashes. Its segments are what the pieces mean: empty
pieces and dots mean nothing, save the slash or the dot that a path begins with. Two paths with the
same segments are the same path, but cutting a path keeps the rest as it was written, without pieces
at its ends that mean nothing.

A path is normalized when no dots are left, each `..` having taken back the name before it; one that
would leave the root has no normal form.

Key definitions: `Segment`, `Path.segments`, `Path.parent?`, `Path.join`, `Path.strip?`,
`Path.extension?`, `Path.normalize?`, `Path.absolute?`.
-/
import CodeAtlas.Text.Blank

namespace CodeAtlas

/-- A meaningful piece of a path. -/
inductive Segment where
  | root
  | here
  | up
  | name (text : String)
  deriving DecidableEq

namespace Path

/-- Whether a piece means nothing. -/
def isTrivial (piece : String) : Bool := piece == "" || piece == "."

/-- What a piece after the first means. -/
def segment? (piece : String) : Option Segment :=
  if isTrivial piece then none else if piece == ".." then some .up else some (.name piece)

/-- What the pieces of a path mean. -/
def ofPieces : List String → List Segment
  | [] => []
  | first :: rest =>
    if first == "" && !rest.isEmpty then .root :: rest.filterMap segment?
    else if first == "." then .here :: rest.filterMap segment?
    else (first :: rest).filterMap segment?

/-- The pieces of a path between its slashes. -/
def pieces (path : String) : List String := Text.splitOnChar '/' path

/-- The path of the pieces. -/
def ofParts (parts : List String) : String := Text.join "/" parts

/-- The segments of a path. -/
def segments (path : String) : List Segment := ofPieces (pieces path)

/-- The pieces without those at the end that mean nothing. -/
def dropEnd (parts : List String) : List String := (parts.reverse.dropWhile isTrivial).reverse

/-- Whether the first piece of a path means something although it is empty or a dot. -/
def leads : List String → Bool
  | [] => false
  | first :: rest => (first == "" && !rest.isEmpty) || first == "."

/-- The path of a leading piece and further pieces, without those at the end that mean nothing. -/
def withLead (first : String) (rest : List String) : String :=
  match dropEnd rest with
  | [] => if first == "" then "/" else first
  | kept => ofParts (first :: kept)

/-- The path of the pieces without those at the end that mean nothing. -/
def trimmed : List String → String
  | [] => ""
  | first :: rest =>
    if leads (first :: rest) then withLead first rest else ofParts (dropEnd (first :: rest))

/-- The path of the pieces without its last segment. -/
def parentOf : List String → Option String
  | [] => none
  | first :: rest =>
    if leads (first :: rest) then
      match dropEnd rest with
      | [] => if first == "." then some "" else none
      | kept => some (withLead first kept.dropLast)
    else
      match dropEnd (first :: rest) with
      | [] => none
      | kept => some (ofParts (dropEnd kept.dropLast))

/-- The path without its last segment. -/
def parent? (path : String) : Option String := parentOf (pieces path)

/-- The name that a path ends in. -/
def fileName? (path : String) : Option String :=
  match (segments path).getLast? with
  | some (.name s) => some s
  | _ => none

/-- What follows the last dot of a name, unless the name has no dot but at its start. -/
def extensionOf (name : String) : Option String :=
  match (Text.splitChars '.' name.toList).reverse with
  | ext :: before :: rest =>
    if rest.isEmpty && before.isEmpty then none else some (String.ofList ext)
  | _ => none

/-- The extension of the name that a path ends in. -/
def extension? (path : String) : Option String := (fileName? path).bind extensionOf

/-- Whether a path begins at the root. -/
def isAbsolute (path : String) : Bool := Text.beginsWith "/" path

/-- The second path, taken from the first unless it begins at the root. -/
def join (base path : String) : String :=
  if isAbsolute path || base == "" then path
  else if "/".toList.isSuffixOf base.toList then base ++ path
  else base ++ "/" ++ path

/-- Whether the segments of `base` are the first ones of `path`. -/
def isWithin (base path : String) : Bool := (segments base).isPrefixOf (segments path)

/-- The pieces after the first `count` that mean something. -/
def dropSegments : Nat → List String → List String
  | 0, parts => parts
  | _ + 1, [] => []
  | count + 1, part :: rest =>
    if isTrivial part then dropSegments (count + 1) rest else dropSegments count rest

/-- The rest of `path` within `base`. -/
def strip? (base path : String) : Option String :=
  let count := (segments base).length
  if !isWithin base path then none
  else if count = 0 then some (trimmed (pieces path))
  else
    let parts := pieces path
    let rest := if leads parts then dropSegments (count - 1) parts.tail else dropSegments count parts
    some (ofParts (dropEnd (rest.dropWhile isTrivial)))

/-- The text of a path with slashes for backslashes. -/
def slashed (path : String) : String := Text.replaceChar '\\' '/' path

/-- The rest of `path` within `root`, or the path itself where it is not within it. -/
def relative (root path : String) : String := slashed ((strip? root path).getD path)

/-- Takes a segment onto the names so far, the last one first. -/
def push? : List String → Segment → Option (List String)
  | names, .root | names, .here => some names
  | [], .up => none
  | _ :: names, .up => some names
  | names, .name s => some (s :: names)

/-- Takes the segments onto the names in turn. -/
def pushAll? : List String → List Segment → Option (List String)
  | names, [] => some names
  | names, s :: rest => (push? names s).bind (pushAll? · rest)

/-- The names from the root that the segments lead to, each `..` taking back the name before it. -/
def normalize? (path : List Segment) : Option (List String) :=
  (pushAll? [] path).map List.reverse

/-- The path of the names from the root. -/
def ofNames (names : List String) : String := "/" ++ Text.join "/" names

/-- The names from the root that `path` leads to when `cwd` is the working directory. -/
def absolute? (cwd : List String) (path : String) : Option (List String) :=
  if path == "" then none
  else if isAbsolute path then normalize? (segments path)
  else normalize? (cwd.map Segment.name ++ segments path)

end Path

end CodeAtlas
