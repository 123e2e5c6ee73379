/-
# Nodes and relationships

A node has an id, a kind, a name, properties and further data; a relationship has an id, a kind and
the ids of its two ends. Some properties have a meaning to the graph itself: how sure the extraction
is of a relationship, when it was made, its description, and the file that a node or relationship was
extracted from.

Key definitions: `Node`, `Relationship`, `Relationship.make`, `Relationship.confidence`,
`Relationship.createdAt`, `Relationship.description?`, `Relationship.filePath?`, `GraphStats`.
-/
import CodeAtlas.Json
import CodeAtlas.Graph.Ident
import CodeAtlas.Text.Blank

namespace CodeAtlas

/-- A node of the graph. -/
structure Node where
  id : String
  kind : NodeKind
  name : String
  properties : Properties
  metadata : Properties
  deriving DecidableEq, Inhabited

namespace Node

/-- A node without properties. -/
def make (id : String) (kind : NodeKind) (name : String) : Node := ⟨id, kind, name, .empty, .empty⟩

/-- The node with a property written. -/
def withProperty (n : Node) (key : String) (value : Json) : Node :=
  { n with properties := n.properties.insert key value }

/-- The node with an entry of its further data written. -/
def withMetadata (n : Node) (key : String) (value : Json) : Node :=
  { n with metadata := n.metadata.insert key value }

/-- The file the node was extracted from. -/
def filePath? (n : Node) : Option String := (n.properties.get? "file_path").bind Json.string?

end Node

/-- A relationship from one node to another. -/
structure Relationship where
  id : String
  kind : RelationKind
  source : String
  target : String
  properties : Properties
  metadata : Properties
  deriving DecidableEq, Inhabited

namespace Relationship

/-- A relationship with the id of its kind and ends. -/
def make (kind : RelationKind) (source target : String) : Relationship :=
  ⟨Ident.relationship kind source target, kind, source, target, .empty, .empty⟩

/-- The relationship with a property written. -/
def withProperty (r : Relationship) (key : String) (value : Json) : Relationship :=
  { r with properties := r.properties.insert key value }

/-- The confidence of a relationship that states none. -/
def defaultConfidence : Binary64 := .ofDecimal 5 (-1)

/-- How sure the relationship is. -/
def confidence (r : Relationship) : Binary64 :=
  ((r.properties.get? "confidence").bind Json.float?).getD defaultConfidence

/-- When the relationship was made, in milliseconds of the epoch. -/
def createdAt (r : Relationship) : Int :=
  ((r.properties.get? "created_at").bind Json.int?).getD 0

/-- The description, if it is more than white space. -/
def description? (r : Relationship) : Option String :=
  ((r.properties.get? "description").bind Json.string?).filter fun d => !Text.isBlankText d

/-- The file the relationship was extracted from. -/
def filePath? (r : Relationship) : Option String :=
  (r.properties.get? "file_path").bind Json.string?

/-- What the relationship says: its kind and its ends. -/
def triple (r : Relationship) : RelationKind × String × String := (r.kind, r.source, r.target)

end Relationship

/-- Numbers of nodes and relationships, in all and by kind. -/
structure GraphStats where
  totalNodes : Nat
  totalRelationships : Nat
  nodesByKind : SortedMap String Nat
  relationshipsByKind : SortedMap String Nat
  deriving DecidableEq

end CodeAtlas
