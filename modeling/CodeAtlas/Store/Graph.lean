/-
# The graph in memory

A store holds nodes and relationships by id. Importing merges into what is there: a node takes over
kind, name and attributes, and is resolved; an end of a relationship that is not there becomes an
unresolved stub. Retiring files takes out the relationships extracted from them, marks their nodes as
unresolved, and then takes out the unresolved nodes that no relationship has as an end.

Key definitions: `StoredNode`, `Store`, `Store.importBatch`, `Store.retire`, `Store.remove`,
`Store.stats`.
-/
import CodeAtlas.Store.Result

namespace CodeAtlas

/-- A node, and whether it was extracted from a file that is part of the graph. -/
structure StoredNode where
  node : Node
  resolved : Bool
  deriving DecidableEq

/-- Nodes and relationships by id. -/
structure Store where
  nodes : SortedMap String StoredNode
  relationships : SortedMap String Relationship
  deriving DecidableEq

namespace Store

/-- The store without nodes and relationships. -/
def empty : Store := ⟨.empty, .empty⟩

/-- A node written over one of its id. -/
def mergedNode (old : Node) (n : Node) : Node :=
  { old with
    kind := n.kind
    name := n.name
    properties := old.properties.union n.properties
    metadata := old.metadata.union n.metadata }

/-- The nodes with one merged into them. -/
def mergeNode (nodes : SortedMap String StoredNode) (n : Node) : SortedMap String StoredNode :=
  match nodes.get? n.id with
  | some old => nodes.insert n.id ⟨mergedNode old.node n, true⟩
  | none => nodes.insert n.id ⟨n, true⟩

/-- What stands for a node that only a relationship tells of. -/
def stub (id : String) : StoredNode := ⟨Node.make id .unknown id, false⟩

/-- The nodes with a stub for an id that is not there. -/
def addStub (nodes : SortedMap String StoredNode) (id : String) : SortedMap String StoredNode :=
  if nodes.contains id then nodes else nodes.insert id (stub id)

/-- The nodes with the ends of a relationship. -/
def addEnds (nodes : SortedMap String StoredNode) (r : Relationship) :
    SortedMap String StoredNode :=
  addStub (addStub nodes r.source) r.target

/-- A relationship written over one of its id. -/
def mergedRelationship (old r : Relationship) : Relationship :=
  { old with
    properties := old.properties.union r.properties
    metadata := old.metadata.union r.metadata }

/-- The relationships with one merged into them. -/
def mergeRelationship (rs : SortedMap String Relationship) (r : Relationship) :
    SortedMap String Relationship :=
  match rs.get? r.id with
  | some old => rs.insert r.id (mergedRelationship old r)
  | none => rs.insert r.id r

/-- Merges nodes, and then relationships, into the store. -/
def importBatch (s : Store) (nodes : List Node) (relationships : List Relationship) : Store where
  nodes := relationships.foldl addEnds (nodes.foldl mergeNode s.nodes)
  relationships := relationships.foldl mergeRelationship s.relationships

/-- Takes out the relationships of the given ids. -/
def remove (s : Store) (ids : List String) : Store :=
  { s with relationships := ids.foldl SortedMap.erase s.relationships }

/-- Whether something was extracted from one of the files. -/
def isOf (paths : List String) (path : Option String) : Bool := path.any paths.contains

/-- Whether the node is an end of a relationship of the store. -/
def isEnd (rs : SortedMap String Relationship) (id : String) : Bool :=
  rs.values.any fun r => r.source == id || r.target == id

/-- The relationships that were not extracted from the files. -/
def keptRelationships (s : Store) (paths : List String) : SortedMap String Relationship :=
  s.relationships.filter fun _ r => !isOf paths r.filePath?

/-- The nodes, those extracted from the files being unresolved. -/
def unresolvedNodes (s : Store) (paths : List String) : SortedMap String StoredNode :=
  s.nodes.mapValues fun _ n => if isOf paths n.node.filePath? then { n with resolved := false } else n

/-- Takes out what was extracted from the files. -/
def retire (s : Store) (paths : List String) : Store where
  relationships := s.keptRelationships paths
  nodes := (s.unresolvedNodes paths).filter fun id n =>
    n.resolved || isEnd (s.keptRelationships paths) id

/-- What retiring the files takes out. -/
def retireSummary (s : Store) (paths : List String) : RetireSummary where
  relationshipsRemoved := s.relationships.size - (s.retire paths).relationships.size
  nodesUnresolved := s.nodes.values.countP fun n => isOf paths n.node.filePath?
  nodesPruned := s.nodes.size - (s.retire paths).nodes.size

/-- Counts the elements of a list by a name. -/
def countBy {α : Type} (name : α → String) (l : List α) : SortedMap String Nat :=
  l.foldl (fun m a => m.insert (name a) ((m.get? (name a)).getD 0 + 1)) .empty

/-- The numbers of nodes and relationships. -/
def stats (s : Store) : GraphStats where
  totalNodes := s.nodes.size
  totalRelationships := s.relationships.size
  nodesByKind := countBy (fun n => n.node.kind.name) s.nodes.values
  relationshipsByKind := countBy (fun r => r.kind.name) s.relationships.values

end Store

end CodeAtlas
