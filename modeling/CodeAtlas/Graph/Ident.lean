/-
# Ids

The id of a node or relationship is a function of the fields that define it: a tag, and the first half
of the SHA-256 digest of the fields. Each field goes in with its length in front, so that two lists of
fields never make the same input.

Key definitions: `Ident.encode`, `Ident.node`, `Ident.relationship`, `Ident.file`, `Ident.package`.
-/
import CodeAtlas.Sha256
import CodeAtlas.Graph.Kind

namespace CodeAtlas.Ident

/-- The bytes of a text. -/
def bytes (s : String) : List UInt8 := s.toUTF8.data.toList

/-- A field: the number of its bytes in eight bytes, and the bytes. -/
def field (s : String) : List UInt8 := Sha256.wordBytes (bytes s).length ++ bytes s

/-- The fields one after the other. -/
def encode (fields : List String) : List UInt8 := fields.flatMap field

/-- A tag and the first thirty-two digits of the digest of the fields. -/
def ofFields (tag : String) (fields : List String) : String :=
  tag ++ ":" ++ String.ofList ((Sha256.hexChars (encode fields)).take 32)

/-- The fields that define a node. -/
def nodeFields (kind : NodeKind) (space name : String) (mark : Option String) : List String :=
  [kind.name, space, name, mark.getD ""]

/-- The id of a node: its kind, the space of names it is in, its name, and a mark that tells it from
others of that name there. -/
def node (kind : NodeKind) (space name : String) (mark : Option String) : String :=
  ofFields kind.tag (nodeFields kind space name mark)

/-- The fields that define a relationship. -/
def relationshipFields (kind : RelationKind) (source target : String) : List String :=
  [kind.name, source, target]

/-- The id of a relationship: its kind and the ids of its ends. -/
def relationship (kind : RelationKind) (source target : String) : String :=
  ofFields "rel" (relationshipFields kind source target)

/-- The id of a source file, by its path. -/
def file (path : String) : String := node .file "" path none

/-- The id of a package outside the project, by its name. -/
def package (name : String) : String := node .module "" name none

end CodeAtlas.Ident
