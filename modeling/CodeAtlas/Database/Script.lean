/-
# Scripted servers

A scripted server answers by rules and remembers what it was sent. For each statement, and for each of
the words that begin, commit or roll back a transaction, the first rule counts that matches a piece of
the text and is not used up. Without a rule it accepts, and answers with no rows.

Key definitions: `Rule`, `Script`, `Script.apply`, `Script.server`, `Rule.ofJson?`,
`Script.Entry.toJson`.
-/
import CodeAtlas.Database.Server

namespace CodeAtlas

/-- A rule: what it matches, how often, and what it answers or how it refuses. -/
structure Rule where
  pattern : String
  times : Option Nat
  columns : List String
  rows : List (List Value)
  fail : Option String
  failReading : Option String

namespace Rule

/-- Whether the rule counts for a text. -/
def accepts (r : Rule) (text : String) : Bool := r.times != some 0 && Text.hasSub r.pattern text

/-- The rule after it has counted once. -/
def used (r : Rule) : Rule := { r with times := r.times.map (· - 1) }

/-- The rows by column. -/
def table (r : Rule) : List Row := r.rows.map fun row => r.columns.zip row

/-- The properties of an element of the graph. -/
def props? (element : List (String × Json)) : Option (List (String × Json)) :=
  match element.lookup "props" with
  | some (.object props) => some props
  | none => some []
  | _ => none

mutual

/-- A value of a rule; an object with the one key `$node` or `$rel` is an element of the graph. -/
def value? : Json → Option Value
  | .array items => (values? items).map .list
  | .object fields =>
    match fields with
    | [("$node", .object element)] => do
      let id ← (element.lookup "id").bind Json.int?
      return .node id (Value.ofFields (← props? element))
    | [("$rel", .object element)] => do
      let int := fun key => (element.lookup key).bind Json.int?
      let kind ← (element.lookup "type").bind Json.string?
      return .relation (← int "id") (← int "start") (← int "end") kind
        (Value.ofFields (← props? element))
    | _ => (fields? fields).map .map
  | v => some (.ofJson v)

/-- The values of a list. -/
def values? : List Json → Option (List Value)
  | [] => some []
  | v :: vs => do return (← value? v) :: (← values? vs)

/-- The values of fields. -/
def fields? : List (String × Json) → Option (List (String × Value))
  | [] => some []
  | (key, v) :: rest => do return (key, ← value? v) :: (← fields? rest)

end

/-- A field that may be absent or null. -/
def optional {α : Type} (j : Json) (key : String) (read : Json → Option α) : Option (Option α) :=
  match j.field? key with
  | none | some .null => some none
  | some v => (read v).map some

/-- The rule of a JSON value. -/
def ofJson? (j : Json) : Option Rule := do
  let columns ← optional j "columns" fun v => v.items?.bind (·.mapM Json.string?)
  let rows ← optional j "rows" fun v => v.items?.bind (·.mapM fun row => row.items?.bind values?)
  return {
    pattern := ← (j.field? "match").bind Json.string?
    times := ← optional j "times" Json.nat?
    columns := columns.getD []
    rows := rows.getD []
    fail := ← optional j "fail" Json.string?
    failReading := ← optional j "fail_pull" Json.string? }

end Rule

namespace Script

/-- What a server was sent. -/
inductive Entry where
  | hello (user password : String)
  | run (text : String) (params : List (String × Value)) (database : String)
  | transaction (word : String)

namespace Entry

/-- The entry as JSON. -/
def toJson : Entry → Json
  | .hello user password =>
    .object [("hello", .object
      [("principal", .string user), ("credentials", .string password)])]
  | .run text params database =>
    .object
      [("run", .string text), ("params", ((Value.map params).json?).getD .null),
       ("db", .string database)]
  | .transaction word => .object [("tx", .string word)]

/-- The statement of an entry. -/
def statement? : Entry → Option String
  | .run text _ _ => some text
  | _ => none

end Entry

end Script

/-- A scripted server: its rules, what it was sent, and whether it was greeted. -/
structure Script where
  rules : List Rule
  log : List Script.Entry := []
  greeted : Bool := false

namespace Script

/-- The first rule that counts for a text, and the rules after it has counted. -/
def pick (text : String) : List Rule → Option Rule × List Rule
  | [] => (none, [])
  | r :: rs =>
    if r.accepts text then (some r, r.used :: rs)
    else
      let (found, rest) := pick text rs
      (found, r :: rest)

/-- The rule for a text, and the server after it has counted. -/
def apply (text : String) (s : Script) : Option Rule × Script :=
  let (found, rules) := pick text s.rules
  (found, { s with rules := rules })

/-- The server after it was sent a statement. -/
def record (c : Call) (s : Script) : Script :=
  let greeting := if s.greeted then [] else [Entry.hello c.user c.password]
  { s with
    log := s.log ++ greeting ++ [.run c.text c.params c.database]
    greeted := true }

/-- Runs a statement without reading rows. -/
def run (c : Call) (s : Script) : Except Refused Unit × Script :=
  match (s.record c).apply c.text with
  | (none, s) => (.ok (), s)
  | (some r, s) =>
    match r.fail.or r.failReading with
    | some reason => (.error (.told reason), s)
    | none => (.ok (), s)

/-- Runs a statement and reads its rows. -/
def fetch (c : Call) (s : Script) : Except Refused (List Row) × Script :=
  match (s.record c).apply c.text with
  | (none, s) => (.ok [], s)
  | (some r, s) =>
    match r.fail, r.failReading with
    | some reason, _ => (.error (.told reason), s)
    | none, some reason => (.error (.unexpected reason), s)
    | none, none => (.ok r.table, s)

/-- Takes a word about a transaction. -/
def transaction (word : String) (s : Script) : Except Refused Unit × Script :=
  match ({ s with log := s.log ++ [.transaction word] } : Script).apply word with
  | (some { fail := some reason, .. }, s) => (.error (.unexpected reason), s)
  | (_, s) => (.ok (), s)

/-- What can be asked of a scripted server. -/
def server : Server Script where
  run := run
  fetch := fetch
  begin := transaction "BEGIN"
  commit := transaction "COMMIT"
  rollback := transaction "ROLLBACK"

/-- The texts of the statements that were sent. -/
def statements (s : Script) : List String := s.log.filterMap Entry.statement?

end Script

end CodeAtlas
