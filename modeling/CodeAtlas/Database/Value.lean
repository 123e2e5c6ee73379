/-
# Values of a graph database

What is sent to a graph database and what comes back: plain values, lists and maps, and nodes and
relationships with the numbers that the database knows them by. Numbers are signed 64-bit integers or
floats; a whole number out of that range is sent as a float. A value is read only as what it is.

Key definitions: `Value`, `Value.ofJson`, `Value.json?`, `Row`, `Row.int?`, `Row.node?`,
`Value.toNode`, `Value.toRelationship?`.
-/
import CodeAtlas.Binary64
import CodeAtlas.Graph.Ident
import CodeAtlas.Store.Record

namespace CodeAtlas

/-- A value of a graph database. -/
inductive Value where
  | null
  | bool (b : Bool)
  | int (n : Int)
  | float (x : Binary64)
  | string (s : String)
  | list (items : List Value)
  | map (fields : List (String × Value))
  | node (id : Int) (fields : List (String × Value))
  | relation (id start stop : Int) (kind : String) (fields : List (String × Value))

namespace Value

/-- A number as a value. -/
def ofNumber : Number → Value
  | .whole n => if Word.isSigned n then .int n else .float (.ofInt n)
  | .float x => .float x

mutual

/-- A JSON value as a value of the database. -/
def ofJson : Json → Value
  | .null => .null
  | .bool b => .bool b
  | .number n => ofNumber n
  | .string s => .string s
  | .array items => .list (ofItems items)
  | .object fields => .map (ofFields fields)

/-- The items as values. -/
def ofItems : List Json → List Value
  | [] => []
  | v :: vs => ofJson v :: ofItems vs

/-- The fields as values. -/
def ofFields : List (String × Json) → List (String × Value)
  | [] => []
  | (key, v) :: rest => (key, ofJson v) :: ofFields rest

end

mutual

/-- The value as JSON; nothing where it holds a node or a relationship. -/
def json? : Value → Option Json
  | .null => some .null
  | .bool b => some (.bool b)
  | .int n => some (.int n)
  | .float x => some (Record.finiteNumber x)
  | .string s => some (.string s)
  | .list items => (items? items).map .array
  | .map fields => (fields? fields).map fun fs => .ofProperties (.ofList fs)
  | .node .. | .relation .. => none

/-- The values as JSON. -/
def items? : List Value → Option (List Json)
  | [] => some []
  | v :: vs => do return (← json? v) :: (← items? vs)

/-- The fields as JSON. -/
def fields? : List (String × Value) → Option (List (String × Json))
  | [] => some []
  | (key, v) :: rest => do return (key, ← json? v) :: (← fields? rest)

end

/-- An integer. -/
def int? : Value → Option Int
  | .int n => some n
  | _ => none

/-- A text. -/
def string? : Value → Option String
  | .string s => some s
  | _ => none

/-- A text among fields. -/
def text? (fields : List (String × Value)) (key : String) : Option String :=
  (fields.lookup key).bind string?

/-- The fields that can be read as JSON. -/
def stored (fields : List (String × Value)) : List (String × Json) :=
  fields.filterMap fun (key, v) => v.json?.map fun j => (key, j)

/-- The id of an element that has none of its own. -/
def numbered (n : Int) : String := "neo4j:" ++ Json.intText n

/-- The node that a node of the database stands for. -/
def toNode (id : Int) (fields : List (String × Value)) : Node :=
  let own := (text? fields "id").getD (numbered id)
  let (properties, metadata) := Record.split Record.nodeEnvelope (stored fields)
  { id := own
    kind := ((text? fields "type").bind NodeKind.ofName?).getD .unknown
    name := (text? fields "name").getD own
    properties := properties
    metadata := metadata }

/-- The relationship that a relationship of the database stands for, if it is of a known kind. -/
def toRelationship? (start stop : Int) (kind : String) (fields : List (String × Value)) :
    Option Relationship :=
  (RelationKind.ofName? kind).map fun kind =>
    let source := (text? fields "source").getD (numbered start)
    let target := (text? fields "target").getD (numbered stop)
    let (properties, metadata) := Record.split Record.relationshipEnvelope (stored fields)
    { id := (text? fields "id").getD (Ident.relationship kind source target)
      kind := kind
      source := source
      target := target
      properties := properties
      metadata := metadata }

/-- The node that a value is. -/
def node? : Value → Option Node
  | .node id fields => some (toNode id fields)
  | _ => none

/-- The relationship that a value is; one of an unknown kind is none at all. -/
def relation? : Value → Option (Option Relationship)
  | .relation _ start stop kind fields => some (toRelationship? start stop kind fields)
  | _ => none

/-- The values of a list. -/
def list? : Value → Option (List Value)
  | .list items => some items
  | _ => none

end Value

/-- A row of an answer, by column. -/
abbrev Row := List (String × Value)

namespace Row

/-- An integer in a column. -/
def int? (r : Row) (column : String) : Option Int := (r.lookup column).bind Value.int?

/-- A text in a column. -/
def string? (r : Row) (column : String) : Option String := (r.lookup column).bind Value.string?

/-- A node in a column. -/
def node? (r : Row) (column : String) : Option Node := (r.lookup column).bind Value.node?

/-- A relationship in a column. -/
def relation? (r : Row) (column : String) : Option Relationship :=
  ((r.lookup column).bind Value.relation?).bind id

/-- The nodes of a column that holds nothing but nodes. -/
def nodes (r : Row) (column : String) : List Node :=
  (((r.lookup column).bind Value.list?).bind (·.mapM Value.node?)).getD []

/-- The relationships of known kinds in a column that holds nothing but relationships. -/
def relations (r : Row) (column : String) : List Relationship :=
  ((((r.lookup column).bind Value.list?).bind (·.mapM Value.relation?)).getD []).filterMap id

end Row

end CodeAtlas
