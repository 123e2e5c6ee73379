/-
# JSON documents

A document is a JSON text taken apart, but not yet judged: repeated fields are kept, a number is absent
where it is too large and a text where it denotes no characters. Reading a value from it judges all of
it, and refuses a document nested too deep. A reader that skips a part judges nothing in that part.

The tokens are taken in one at a time; what is still open is a stack of frames.

Key definitions: `Document`, `Document.ofTokens?`, `Document.parse?`, `Document.json?`, `Json.parse?`.
-/
import CodeAtlas.Binary64
import CodeAtlas.Json.Token

namespace CodeAtlas

/-- A JSON text taken apart. -/
inductive Document where
  | null
  | bool (value : Bool)
  | number (value : Option Number)
  | text (value : Option String)
  | list (items : List Document)
  | record (fields : List (Option String × Document))

instance : Inhabited Document := ⟨.null⟩

namespace Document

/-- A list or record still open, what it holds in reverse. -/
inductive Frame where
  | list (read : List Document)
  | record (read : List (Option String × Document))
  | field (read : List (Option String × Document)) (key : Option String)

/-- What may come next. -/
inductive Expect where
  | value
  | valueOrClose
  | key
  | keyOrClose
  | colon
  | next
  | finish (whole : Document)

/-- The frames still open, the innermost first, and what may come next. -/
structure Builder where
  frames : List Frame
  expect : Expect

namespace Builder

/-- The builder before the first token. -/
def start : Builder := ⟨[], .value⟩

/-- A document is complete: it is the whole, an item or the value of a field. -/
def complete (frames : List Frame) (d : Document) : Option Builder :=
  match frames with
  | [] => some ⟨[], .finish d⟩
  | .list read :: rest => some ⟨.list (d :: read) :: rest, .next⟩
  | .field read key :: rest => some ⟨.record ((key, d) :: read) :: rest, .next⟩
  | .record _ :: _ => none

/-- A token where a value is due. -/
def value? (frames : List Frame) : Json.Token → Option Builder
  | .null => complete frames .null
  | .bool b => complete frames (.bool b)
  | .number n => complete frames (.number n.value?)
  | .text s => complete frames (.text s)
  | .mark c =>
    if c = '[' then some ⟨.list [] :: frames, .valueOrClose⟩
    else if c = '\x7b' then some ⟨.record [] :: frames, .keyOrClose⟩
    else none

/-- Ends the innermost list or record. -/
def close? : List Frame → Char → Option Builder
  | .list read :: rest, c => if c = ']' then complete rest (.list read.reverse) else none
  | .record read :: rest, c => if c = '\x7d' then complete rest (.record read.reverse) else none
  | _, _ => none

/-- The key of the next field. -/
def key? : List Frame → Json.Token → Option Builder
  | .record read :: rest, .text s => some ⟨.field read s :: rest, .colon⟩
  | _, _ => none

/-- Goes on after a comma. -/
def more? : List Frame → Option Builder
  | .list read :: rest => some ⟨.list read :: rest, .value⟩
  | .record read :: rest => some ⟨.record read :: rest, .key⟩
  | _ => none

/-- Takes in one token. -/
def step? (b : Builder) (t : Json.Token) : Option Builder :=
  match b.expect with
  | .value => value? b.frames t
  | .valueOrClose => if t = .mark ']' then close? b.frames ']' else value? b.frames t
  | .key => key? b.frames t
  | .keyOrClose => if t = .mark '\x7d' then close? b.frames '\x7d' else key? b.frames t
  | .colon => if t = .mark ':' then some ⟨b.frames, .value⟩ else none
  | .next =>
    match t with
    | .mark c => if c = ',' then more? b.frames else close? b.frames c
    | _ => none
  | .finish _ => none

/-- Takes in the tokens in turn. -/
def run? : Builder → List Json.Token → Option Builder
  | b, [] => some b
  | b, t :: ts => (b.step? t).bind (run? · ts)

end Builder

/-- The document that all the tokens make up. -/
def ofTokens? (ts : List Json.Token) : Option Document :=
  match Builder.start.run? ts with
  | some ⟨_, .finish d⟩ => some d
  | _ => none

/-- The document of a text. -/
def parse? (s : String) : Option Document := (Json.tokens? s).bind ofTokens?

/-- How deep lists and records may be nested, the bound itself excluded. -/
def depthLimit : Nat := 128

mutual

/-- The value of a document, with `depth` levels left. -/
def json? (depth : Nat) : Document → Option Json
  | .null => some .null
  | .bool b => some (.bool b)
  | .number n => n.map .number
  | .text s => s.map .string
  | .list items => if depth ≤ 1 then none else (jsonItems? (depth - 1) items).map .array
  | .record fields =>
    if depth ≤ 1 then none
    else (jsonFields? (depth - 1) fields).map fun fs => .object (SortedMap.ofList fs).entries

/-- The values of the items. -/
def jsonItems? (depth : Nat) : List Document → Option (List Json)
  | [] => some []
  | d :: ds =>
    match json? depth d, jsonItems? depth ds with
    | some v, some vs => some (v :: vs)
    | _, _ => none

/-- The values of the fields. -/
def jsonFields? (depth : Nat) : List (Option String × Document) → Option (List (String × Json))
  | [] => some []
  | (key, d) :: ds =>
    match key, json? depth d, jsonFields? depth ds with
    | some k, some v, some vs => some ((k, v) :: vs)
    | _, _, _ => none

end

/-- The fields of the value as properties, if it is a record. -/
def properties? (depth : Nat) : Document → Option Properties
  | .record fields =>
    if depth ≤ 1 then none else (jsonFields? (depth - 1) fields).map SortedMap.ofList
  | _ => none

/-- The text, if the document is one. -/
def string? : Document → Option String
  | .text s => s
  | _ => none

/-- The truth value, if the document is one. -/
def bool? : Document → Option Bool
  | .bool b => some b
  | _ => none

/-- The items, if the document is a list. -/
def items? : Document → Option (List Document)
  | .list items => some items
  | _ => none

/-- The number, if the document is one. -/
def number? : Document → Option Number
  | .number n => n
  | _ => none

/-- The whole number in the given range, if the document is one. -/
def intIn? (low high : Int) (d : Document) : Option Int :=
  match d.number? with
  | some (.whole n) => if low ≤ n ∧ n ≤ high then some n else none
  | _ => none

/-- A signed 64-bit integer. -/
def int? (d : Document) : Option Int := d.intIn? (-(twoTo 63 : Int)) ((twoTo 63 : Int) - 1)

/-- An unsigned integer below `2 ^ width`. -/
def natBelow? (width : Nat) (d : Document) : Option Nat :=
  (d.intIn? 0 ((twoTo width : Int) - 1)).map Int.toNat

/-- An unsigned 64-bit integer. -/
def nat? (d : Document) : Option Nat := d.natBelow? 64

/-- A list of texts. -/
def strings? (d : Document) : Option (List String) := d.items?.bind (·.mapM string?)

/-- The last value given for the key, if the document is a record. -/
def field? (key : String) : Document → Option Document
  | .record fields => (fields.reverse.find? fun f => f.1 = some key).map Prod.snd
  | _ => none

end Document

mutual

/-- The document of a value. -/
def Document.ofJson : Json → Document
  | .null => .null
  | .bool b => .bool b
  | .number n => .number (some n)
  | .string s => .text (some s)
  | .array items => .list (ofJsonItems items)
  | .object fields => .record (ofJsonFields fields)

/-- The documents of the items. -/
def Document.ofJsonItems : List Json → List Document
  | [] => []
  | v :: vs => ofJson v :: ofJsonItems vs

/-- The documents of the fields. -/
def Document.ofJsonFields : List (String × Json) → List (Option String × Document)
  | [] => []
  | (k, v) :: vs => (some k, ofJson v) :: ofJsonFields vs

end

/-- The value of a JSON text. -/
def Json.parse? (s : String) : Option Json :=
  (Document.parse? s).bind (Document.json? Document.depthLimit)

end CodeAtlas
