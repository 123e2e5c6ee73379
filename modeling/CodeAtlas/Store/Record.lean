/-
# Stored records

A graph database stores texts, numbers and truth values under plain keys. A map of nested properties
is stored by its leaves: the names on the way to a leaf are joined by an underscore, a list is stored
as its JSON text, and nothing is stored for a null. Further data is stored beside the properties,
under keys that begin with `metadata_`.

Key definitions: `Record.leaves`, `Record.flatten`, `Record.ofNode`, `Record.ofRelationship`,
`Record.split`.
-/
import CodeAtlas.Graph.Element
import CodeAtlas.Json.Write

namespace CodeAtlas.Record

/-- The key of `child` within `parent`. -/
def childKey (parent child : String) : String := parent ++ "_" ++ child

mutual

/-- What is stored of a value, in order, under keys that begin with `key`. -/
def leaves (key : String) : Json → List (String × Json)
  | .null => []
  | .object fields => fieldLeaves key fields
  | .array items => [(key, .string (Json.array items).compact)]
  | .bool b => [(key, .bool b)]
  | .number n => [(key, .number n)]
  | .string s => [(key, .string s)]

/-- What is stored of the fields of an object. -/
def fieldLeaves (key : String) : List (String × Json) → List (String × Json)
  | [] => []
  | (child, value) :: rest => leaves (childKey key child) value ++ fieldLeaves key rest

end

/-- What the keys of further data begin with. -/
def metadataTag : String := "metadata"

/-- What is stored of properties, in order. -/
def propertyLeaves (properties : Properties) : List (String × Json) :=
  properties.entries.flatMap fun e => leaves e.1 e.2

/-- What is stored of further data, in order. -/
def metadataLeaves (metadata : Properties) : List (String × Json) :=
  metadata.entries.flatMap fun e => leaves (childKey metadataTag e.1) e.2

/-- The record of properties and further data. Where keys meet, the last leaf is stored. -/
def flatten (properties metadata : Properties) : Properties :=
  SortedMap.ofList (propertyLeaves properties ++ metadataLeaves metadata)

/-- The stored attributes of a node. -/
def nodeAttributes (n : Node) : Properties :=
  (((flatten n.properties n.metadata).insert "id" (.string n.id)).insert "type"
    (.string n.kind.name)).insert "name" (.string n.name)

/-- The row that a node is imported by. -/
def ofNode (n : Node) : Properties :=
  .ofList [("id", .string n.id), ("props", .ofProperties (nodeAttributes n))]

/-- The stored attributes of a relationship. The ids of its ends are among them, so that it can be
rebuilt from them alone. -/
def relationshipAttributes (r : Relationship) : Properties :=
  (((flatten r.properties r.metadata).insert "id" (.string r.id)).insert "source"
    (.string r.source)).insert "target" (.string r.target)

/-- The row that a relationship is imported by. -/
def ofRelationship (r : Relationship) : Properties :=
  .ofList
    [("id", .string r.id), ("type", .string r.kind.name), ("source", .string r.source),
     ("target", .string r.target), ("props", .ofProperties (relationshipAttributes r))]

/-- The attributes of a node that are not its properties. -/
def nodeEnvelope : List String := ["id", "type", "name"]

/-- The attributes of a relationship that are not its properties. -/
def relationshipEnvelope : List String := ["id", "source", "target", "updated_at"]

/-- Properties and further data of stored attributes, those of the envelope left out. -/
def split (envelope : List String) (stored : List (String × Json)) : Properties × Properties :=
  stored.foldl
    (fun (properties, metadata) (key, value) =>
      if envelope.contains key then (properties, metadata)
      else match Text.dropStart? "metadata_" key with
        | some rest => (properties, metadata.insert rest value)
        | none => (properties.insert key value, metadata))
    (.empty, .empty)

/-- The number, or null where it is not finite. -/
def finiteNumber (x : Binary64) : Json := if x.isFinite then .float x else .null

end CodeAtlas.Record
