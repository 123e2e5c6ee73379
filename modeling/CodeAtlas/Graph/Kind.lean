/-
# Kinds of nodes and relationships

The kinds are closed lists. Each has the name it is written with; a node kind also has the short tag
that its ids begin with, and a relationship kind its place in the order of preference, the first being
preferred.

Key definitions: `NodeKind`, `RelationKind`, `NodeKind.ofName?`, `RelationKind.ofName?`,
`RelationKind.priority`.
-/
import CodeAtlas.Text.Casing

namespace CodeAtlas

/-- What a node of the graph stands for. A `module` is a package outside the project, and an
`unknown` is an end of a relationship that nothing else is known of. -/
inductive NodeKind where
  | file
  | function
  | classType
  | interface
  | typeAlias
  | import
  | export
  | module
  | unknown
  deriving DecidableEq, Inhabited

namespace NodeKind

/-- The name of the kind. -/
def name : NodeKind → String
  | .file => "File"
  | .function => "Function"
  | .classType => "Class"
  | .interface => "Interface"
  | .typeAlias => "TypeAlias"
  | .import => "Import"
  | .export => "Export"
  | .module => "Module"
  | .unknown => "Unknown"

/-- What ids of the kind begin with. -/
def tag : NodeKind → String
  | .file => "file"
  | .function => "fn"
  | .classType => "class"
  | .interface => "iface"
  | .typeAlias => "type"
  | .import => "import"
  | .export => "export"
  | .module => "module"
  | .unknown => "node"

/-- All kinds, in their order. -/
def all : List NodeKind :=
  [.file, .function, .classType, .interface, .typeAlias, .import, .export, .module, .unknown]

/-- The kind with exactly this name. -/
def named? (s : String) : Option NodeKind := all.find? fun k => k.name == s

/-- The kind with this name, capital letters or not. -/
def ofName? (s : String) : Option NodeKind :=
  all.find? fun k => Text.foldAscii k.name == Text.foldAscii s

end NodeKind

/-- How one node is related to another. -/
inductive RelationKind where
  | imports
  | exports
  | contains
  | defines
  | implements
  | extends
  | hasMethod
  | calls
  | usesType
  | dependsOn
  | references
  | relatedTo
  | documents
  deriving DecidableEq, Inhabited

namespace RelationKind

/-- The name of the kind. -/
def name : RelationKind → String
  | .imports => "IMPORTS"
  | .exports => "EXPORTS"
  | .contains => "CONTAINS"
  | .defines => "DEFINES"
  | .implements => "IMPLEMENTS"
  | .extends => "EXTENDS"
  | .hasMethod => "HAS_METHOD"
  | .calls => "CALLS"
  | .usesType => "USES_TYPE"
  | .dependsOn => "DEPENDS_ON"
  | .references => "REFERENCES"
  | .relatedTo => "RELATED_TO"
  | .documents => "DOCUMENTS"

/-- The place in the order of preference, from one. -/
def priority : RelationKind → Nat
  | .imports => 1
  | .exports => 2
  | .contains => 3
  | .defines => 4
  | .implements => 5
  | .extends => 6
  | .hasMethod => 7
  | .calls => 8
  | .usesType => 9
  | .dependsOn => 10
  | .references => 11
  | .relatedTo => 12
  | .documents => 13

/-- All kinds, the preferred ones first. -/
def all : List RelationKind :=
  [.imports, .exports, .contains, .defines, .implements, .extends, .hasMethod, .calls, .usesType,
   .dependsOn, .references, .relatedTo, .documents]

theorem priority_injective {a b : RelationKind} (h : a.priority = b.priority) : a = b := by
  cases a <;> cases b <;> first | rfl | cases h

/-- The kind with exactly this name. -/
def named? (s : String) : Option RelationKind := all.find? fun k => k.name == s

/-- The kind with this name, capital letters or not. -/
def ofName? (s : String) : Option RelationKind :=
  all.find? fun k => Text.foldAscii k.name == Text.foldAscii s

end RelationKind

end CodeAtlas
