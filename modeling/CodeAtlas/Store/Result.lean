/-
# Results of store operations

What is found by a query, and what an import or a retirement did. Found nodes and relationships are
collected in the order in which they are found, each id once.

Key definitions: `Found`, `Found.addNode`, `Found.addRelationship`, `ImportSummary`, `RetireSummary`.
-/
import CodeAtlas.Graph.Written

namespace CodeAtlas

/-- Nodes and relationships found, and the number of rows they were found in. -/
structure Found where
  nodes : List Node
  relationships : List Relationship
  rows : Nat
  deriving DecidableEq

namespace Found

/-- Nothing found. -/
def nothing : Found := ⟨[], [], 0⟩

/-- One node more, unless its id was found already. -/
def addNode (f : Found) (n : Node) : Found :=
  if f.nodes.any (·.id == n.id) then f else { f with nodes := f.nodes ++ [n] }

/-- One relationship more, unless its id was found already. -/
def addRelationship (f : Found) (r : Relationship) : Found :=
  if f.relationships.any (·.id == r.id) then f
  else { f with relationships := f.relationships ++ [r] }

/-- One row more. -/
def addRow (f : Found) : Found := { f with rows := f.rows + 1 }

/-- Whether neither node nor relationship was found. -/
def isEmpty (f : Found) : Bool := f.nodes.isEmpty && f.relationships.isEmpty

/-- What a document says was found, with `depth` levels left. -/
def ofDocument? (depth : Nat) (d : Document) : Option Found := do
  let f ← Fields.of? ["nodes", "relationships", "rows"] d
  return {
    nodes := ← f.required "nodes" (Document.listOf? (Node.ofDocument? (depth - 2)))
    relationships := ← f.required "relationships"
      (Document.listOf? (Relationship.ofDocument? (depth - 2)))
    rows := ← f.required "rows" Document.nat? }

/-- What was found as JSON. -/
def toJson (f : Found) : Json :=
  .object
    [("nodes", .array (f.nodes.map Node.toJson)),
     ("relationships", .array (f.relationships.map Relationship.toJson)), ("rows", .nat f.rows)]

end Found

/-- What an import wrote, in how many batches, and by which strategy. -/
structure ImportSummary where
  nodesWritten : Nat
  relationshipsWritten : Nat
  batches : Nat
  strategy : String
  deriving DecidableEq

namespace ImportSummary

/-- The summary of a document. -/
def ofDocument? (d : Document) : Option ImportSummary := do
  let f ← Fields.of? ["nodes_written", "relationships_written", "batches", "strategy"] d
  return {
    nodesWritten := ← f.required "nodes_written" Document.nat?
    relationshipsWritten := ← f.required "relationships_written" Document.nat?
    batches := ← f.required "batches" Document.nat?
    strategy := ← f.required "strategy" Document.string? }

/-- The summary as JSON. -/
def toJson (s : ImportSummary) : Json :=
  .object
    [("nodes_written", .nat s.nodesWritten),
     ("relationships_written", .nat s.relationshipsWritten), ("batches", .nat s.batches),
     ("strategy", .string s.strategy)]

end ImportSummary

/-- What a retirement of files took out of the graph. -/
structure RetireSummary where
  relationshipsRemoved : Nat
  nodesUnresolved : Nat
  nodesPruned : Nat
  deriving DecidableEq

namespace RetireSummary

/-- Nothing retired. -/
def nothing : RetireSummary := ⟨0, 0, 0⟩

/-- The summary of a document. -/
def ofDocument? (d : Document) : Option RetireSummary := do
  let f ← Fields.of? ["relationships_removed", "nodes_unresolved", "nodes_pruned"] d
  return {
    relationshipsRemoved := ← f.required "relationships_removed" Document.nat?
    nodesUnresolved := ← f.required "nodes_unresolved" Document.nat?
    nodesPruned := ← f.required "nodes_pruned" Document.nat? }

/-- The summary as JSON. -/
def toJson (s : RetireSummary) : Json :=
  .object
    [("relationships_removed", .nat s.relationshipsRemoved),
     ("nodes_unresolved", .nat s.nodesUnresolved), ("nodes_pruned", .nat s.nodesPruned)]

end RetireSummary

end CodeAtlas
