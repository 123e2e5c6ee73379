/-
# Nodes and relationships as JSON

How kinds, nodes, relationships and counts are written as JSON, and how they are read. A kind is read
by its exact name. Properties and further data may be left out.

Key definitions: `Node.toJson`, `Node.ofDocument?`, `Relationship.toJson`,
`Relationship.ofDocument?`, `GraphStats.toJson`, `GraphStats.ofDocument?`.
-/
import CodeAtlas.Graph.Element
import CodeAtlas.Json.Fields

namespace CodeAtlas

namespace NodeKind

/-- The kind a document names. -/
def ofDocument? (d : Document) : Option NodeKind := d.name?.bind named?

/-- The kind as JSON. -/
def toJson (k : NodeKind) : Json := .string k.name

end NodeKind

namespace RelationKind

/-- The kind a document names. -/
def ofDocument? (d : Document) : Option RelationKind := d.name?.bind named?

/-- The kind as JSON. -/
def toJson (k : RelationKind) : Json := .string k.name

end RelationKind

namespace Node

/-- The node of a document, with `depth` levels left. -/
def ofDocument? (depth : Nat) (d : Document) : Option Node := do
  let f ← Fields.of? ["id", "type", "name", "properties", "metadata"] d
  return {
    id := ← f.required "id" Document.string?
    kind := ← f.required "type" NodeKind.ofDocument?
    name := ← f.required "name" Document.string?
    properties := ← f.withDefault "properties" (Document.properties? (depth - 1)) .empty
    metadata := ← f.withDefault "metadata" (Document.properties? (depth - 1)) .empty }

/-- The node as JSON. -/
def toJson (n : Node) : Json :=
  .object
    [("id", .string n.id), ("type", n.kind.toJson), ("name", .string n.name),
     ("properties", .ofProperties n.properties), ("metadata", .ofProperties n.metadata)]

end Node

namespace Relationship

/-- The relationship of a document, with `depth` levels left. -/
def ofDocument? (depth : Nat) (d : Document) : Option Relationship := do
  let f ← Fields.of? ["id", "type", "source", "target", "properties", "metadata"] d
  return {
    id := ← f.required "id" Document.string?
    kind := ← f.required "type" RelationKind.ofDocument?
    source := ← f.required "source" Document.string?
    target := ← f.required "target" Document.string?
    properties := ← f.withDefault "properties" (Document.properties? (depth - 1)) .empty
    metadata := ← f.withDefault "metadata" (Document.properties? (depth - 1)) .empty }

/-- The relationship as JSON. -/
def toJson (r : Relationship) : Json :=
  .object
    [("id", .string r.id), ("type", r.kind.toJson), ("source", .string r.source),
     ("target", .string r.target), ("properties", .ofProperties r.properties),
     ("metadata", .ofProperties r.metadata)]

end Relationship

/-- Numbers by name as JSON. -/
def Json.counts (m : SortedMap String Nat) : Json :=
  .object (m.entries.map fun e => (e.1, .nat e.2))

namespace GraphStats

/-- The counts of a document. -/
def ofDocument? (d : Document) : Option GraphStats := do
  let f ← Fields.of?
    ["total_nodes", "total_relationships", "nodes_by_type", "relationships_by_type"] d
  return {
    totalNodes := ← f.required "total_nodes" Document.nat?
    totalRelationships := ← f.required "total_relationships" Document.nat?
    nodesByKind := ← f.required "nodes_by_type" (Document.mapOf? Document.nat?)
    relationshipsByKind := ← f.required "relationships_by_type" (Document.mapOf? Document.nat?) }

/-- The counts as JSON. -/
def toJson (s : GraphStats) : Json :=
  .object
    [("total_nodes", .nat s.totalNodes), ("total_relationships", .nat s.totalRelationships),
     ("nodes_by_type", .counts s.nodesByKind),
     ("relationships_by_type", .counts s.relationshipsByKind)]

end GraphStats

end CodeAtlas
