/-
# The values of a settings file

A settings file is YAML: mappings and lists, written in lines or in brackets, over texts that stand
plain or between quotes. What a text means depends on what is asked for: a plain text is a number only
where a number is wanted. A value that is left empty counts as an empty list or an empty mapping.

Key definitions: `Text.digits?`, `Yaml`, `Yaml.text?`, `Yaml.optText?`, `Yaml.texts?`,
`Yaml.natBelow?`, `Yaml.entries?`.
-/
import CodeAtlas.Binary64
import CodeAtlas.Text.Blank

namespace CodeAtlas

namespace Text

/-- The value of a digit in a base up to sixteen. -/
def digit? (base : Nat) (c : Char) : Option Nat :=
  let n :=
    if c.isDigit then c.toNat - 48
    else if 'a' ≤ c ∧ c ≤ 'f' then c.toNat - 87
    else if 'A' ≤ c ∧ c ≤ 'F' then c.toNat - 55
    else base
  if n < base then some n else none

/-- The number that digits write in a base; there is at least one. -/
def digits? (base : Nat) (cs : List Char) : Option Nat :=
  if cs.isEmpty then none
  else (cs.mapM (digit? base)).map (·.foldl (fun n d => n * base + d) 0)

end Text

/-- A value of a settings file. -/
inductive Yaml where
  | plain (text : String)
  | quoted (text : String)
  | sequence (items : List Yaml)
  | mapping (entries : List (String × Yaml))

namespace Yaml

/-- The value of a text that says nothing. -/
def empty : Yaml := .plain ""

/-- A text, plain or quoted. -/
def text? : Yaml → Option String
  | .plain text | .quoted text => some text
  | _ => none

/-- The plain texts that stand for no value. -/
def nullTexts : List String := ["", "null", "Null", "NULL", "~"]

/-- A text that may be absent. -/
def optText? : Yaml → Option (Option String)
  | .plain text => some (if nullTexts.contains text then none else some text)
  | v => v.text?.map some

/-- A list of texts. -/
def texts? : Yaml → Option (List String)
  | .sequence items => items.mapM text?
  | .plain "" => some []
  | _ => none

/-- A number below a power of two. -/
def within (width n : Nat) : Option Nat := if n < twoTo width then some n else none

/-- The characters after a plus sign, if there is one. -/
def unsigned : List Char → List Char
  | '+' :: rest => rest
  | cs => cs

/-- A decimal number, after a plus sign or not. -/
def decimal? (width : Nat) (text : String) : Option Nat :=
  (Text.digits? 10 (unsigned text.toList)).bind (within width)

/-- The number of a text in base sixteen, eight or two, where it says so. -/
def based? : List Char → Option Nat
  | '0' :: 'x' :: rest => Text.digits? 16 rest
  | '0' :: 'o' :: rest => Text.digits? 8 rest
  | '0' :: 'b' :: rest => Text.digits? 2 rest
  | _ => none

/-- Whether a decimal number has a zero in front of its other digits. -/
def isZeroPadded : List Char → Bool
  | '0' :: rest => !rest.isEmpty
  | _ => false

/-- A whole number that has at most `width` binary digits. Only a plain text is one. -/
def natBelow? (width : Nat) : Yaml → Option Nat
  | .plain text =>
    let cs := unsigned text.toList
    match (based? cs).bind (within width) with
    | some n => some n
    | none => if isZeroPadded cs then none else (Text.digits? 10 cs).bind (within width)
  | _ => none

/-- The entries of a mapping in which none of the names occurs twice. -/
def entries? (names : List String) : Yaml → Option (List (String × Yaml))
  | .mapping entries =>
    if names.all fun name => (entries.filter (·.1 == name)).length ≤ 1 then some entries else none
  | .plain "" => some []
  | _ => none

/-- The value of an entry, or its default where there is no entry. -/
def withDefault {α : Type} (entries : List (String × Yaml)) (key : String)
    (read : Yaml → Option α) (default : α) : Option α :=
  match entries.lookup key with
  | some v => read v
  | none => some default

end Yaml

end CodeAtlas
