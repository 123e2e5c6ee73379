/-
# Import statements

Nodes and relationships are imported in batches, each by one statement with the rows of the batch.
Nodes are grouped by kind. Relationships are grouped by kind as well, the kind standing in the text of
the statement, or, where the database can take the kind from the row, go in their order.

Key definitions: `Statement`, `Statement.chunks`, `Statement.forNodes`, `ImportStrategy`,
`ImportStrategy.statements`.
-/
import CodeAtlas.Store.Record

namespace CodeAtlas

/-- A statement of the database's language with the rows it is run on. -/
structure Statement where
  label : String
  text : String
  rows : List Properties
  deriving DecidableEq

namespace Statement

/-- The statement as JSON. -/
def toJson (s : Statement) : Json :=
  .object
    [("label", .string s.label), ("cypher", .string s.text),
     ("rows", .array (s.rows.map Json.ofProperties))]

/-- The list cut into pieces of `more + 1` elements, the last one perhaps shorter. -/
def chunks {α : Type} (more : Nat) : List α → List (List α)
  | [] => []
  | a :: rest => (a :: rest.take more) :: chunks more (rest.drop more)
termination_by l => l.length

/-- The batches of at most `size` elements; a size of zero counts as one. -/
def batches {α : Type} (size : Nat) (l : List α) : List (List α) := chunks (size - 1) l

/-- One statement for each batch, numbered from one. -/
def ofBatches {α : Type} (title text : String) (row : α → Properties) (size : Nat) (l : List α) :
    List Statement :=
  (batches size l).zipIdx.map fun (batch, i) =>
    ⟨title ++ " #" ++ toString (i + 1), text, batch.map row⟩

/-- Merges nodes by id. -/
def nodeMerge : String :=
  "\nUNWIND $rows AS row\nMERGE (n:Entity \x7bid: row.id\x7d)\nON CREATE SET n.created_at = timestamp()\n" ++
  "SET n += row.props, n.updated_at = timestamp(), n.resolved = true\n"

/-- Merges the ends of relationships by id, an absent end as a stub. -/
def endpointMerge : String :=
  "\nUNWIND $rows AS row\nMERGE (s:Entity \x7bid: row.source\x7d)\n" ++
  "ON CREATE SET s.type = 'Unknown', s.name = row.source, s.resolved = false, s.created_at = timestamp()\n" ++
  "MERGE (t:Entity \x7bid: row.target\x7d)\n" ++
  "ON CREATE SET t.type = 'Unknown', t.name = row.target, t.resolved = false, t.created_at = timestamp()\n"

/-- Merges relationships of one kind. -/
def kindMerge (kind : RelationKind) : String :=
  endpointMerge ++ "MERGE (s)-[r:" ++ kind.name ++ " \x7bid: row.id\x7d]->(t)\n" ++
    "SET r += row.props, r.updated_at = timestamp()\n"

/-- Merges relationships of the kinds that their rows name. -/
def anyMerge : String :=
  endpointMerge ++
    "CALL apoc.merge.relationship(s, row.type, \x7bid: row.id\x7d, row.props, t, row.props) YIELD rel\n" ++
    "SET rel.updated_at = timestamp()\n"

/-- The statements that import nodes, kind by kind. -/
def forNodes (nodes : List Node) (size : Nat) : List Statement :=
  NodeKind.all.flatMap fun kind =>
    ofBatches (kind.name ++ " nodes") nodeMerge Record.ofNode size (nodes.filter (·.kind = kind))

/-- The statements that import relationships, kind by kind. -/
def grouped (relationships : List Relationship) (size : Nat) : List Statement :=
  RelationKind.all.flatMap fun kind =>
    ofBatches (kind.name ++ " relationships") (kindMerge kind) Record.ofRelationship size
      (relationships.filter (·.kind = kind))

/-- The statements that import relationships in their order, whatever their kinds. -/
def mixed (relationships : List Relationship) (size : Nat) : List Statement :=
  ofBatches "relationships" anyMerge Record.ofRelationship size relationships

end Statement

/-- How relationships are imported. -/
inductive ImportStrategy where
  | grouped
  | accelerated
  deriving DecidableEq, Inhabited

namespace ImportStrategy

/-- The name of the strategy. -/
def name : ImportStrategy → String
  | .grouped => "grouped"
  | .accelerated => "accelerated"

/-- The procedure of the database that the accelerated strategy needs. -/
def requiredProcedure : String := "apoc.merge.relationship"

/-- The strategy for a database with or without that procedure. -/
def select (available : Bool) : ImportStrategy := if available then .accelerated else .grouped

/-- The statements that import relationships. -/
def statements : ImportStrategy → List Relationship → Nat → List Statement
  | .grouped => Statement.grouped
  | .accelerated => Statement.mixed

end ImportStrategy

end CodeAtlas
