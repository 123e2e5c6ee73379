/-
# Queries for questions

A question becomes one query of the graph database: its text is fixed by the shape of what is looked
for, and all that comes from the question goes into parameters.

Key definitions: `QueryConfig`, `Question`, `Question.of`, `Shape`, `GraphQuery`, `GraphQuery.of`.
-/
import CodeAtlas.Graph.Kind
import CodeAtlas.Json.Fields
import CodeAtlas.Query.Entity
import CodeAtlas.Query.Intent

namespace CodeAtlas

/-- How many results a query gives at most: unless it says otherwise, and in any case. -/
structure QueryConfig where
  defaultLimit : Nat := 20
  maxLimit : Nat := 200
  deriving DecidableEq

namespace QueryConfig

/-- The settings of a document; what it leaves out has its default. -/
def ofDocument? (d : Document) : Option QueryConfig := do
  let f ← Fields.of? ["default_limit", "max_limit"] d
  return {
    defaultLimit := ← f.withDefault "default_limit" Document.nat? 20
    maxLimit := ← f.withDefault "max_limit" Document.nat? 200 }

/-- The settings as JSON. -/
def toJson (c : QueryConfig) : Json :=
  .object [("default_limit", .nat c.defaultLimit), ("max_limit", .nat c.maxLimit)]

end QueryConfig

/-- A question and what was made of it. -/
structure Question where
  raw : String
  intent : Intent
  entities : List String
  limit : Nat
  deriving DecidableEq

namespace Question

/-- The number of results asked for, within what is allowed. -/
def limitOf (config : QueryConfig) (asked : Option Nat) : Nat :=
  max 1 (min (asked.getD config.defaultLimit) (max config.maxLimit 1))

/-- What is made of a text. -/
def of (config : QueryConfig) (text : String) (asked : Option Nat) : Question where
  raw := Text.trim text
  intent := Intent.classify text
  entities := Entity.extract text
  limit := limitOf config asked

/-- What is looked for, in lower case. -/
def terms (q : Question) : List String := q.entities.map Text.lower

/-- The question of a document. -/
def ofDocument? (d : Document) : Option Question := do
  let f ← Fields.of? ["raw_query", "intent", "entities", "result_limit"] d
  return {
    raw := ← f.required "raw_query" Document.string?
    intent := ← f.required "intent" fun d => d.name?.bind Intent.ofName?
    entities := ← f.required "entities" Document.strings?
    limit := ← f.required "result_limit" Document.nat? }

/-- The question as JSON. -/
def toJson (q : Question) : Json :=
  .object
    [("raw_query", .string q.raw), ("intent", .string q.intent.name),
     ("entities", .strings q.entities), ("result_limit", .nat q.limit)]

end Question

/-- What is looked for: nodes alone, nodes with what they point to, with what points to them, or with
both, or the shortest path between two of them. -/
inductive Shape where
  | nodes
  | outgoing
  | incoming
  | neighbors
  | path
  deriving DecidableEq

namespace Shape

/-- The name of the shape. -/
def name : Shape → String
  | .nodes => "nodes"
  | .outgoing => "outgoing"
  | .incoming => "incoming"
  | .neighbors => "neighbors"
  | .path => "path"

/-- All shapes. -/
def all : List Shape := [.nodes, .outgoing, .incoming, .neighbors, .path]

/-- The shape of a name. -/
def ofName? (s : String) : Option Shape := all.find? fun k => k.name == s

end Shape

/-- How many relationships a path has at most. -/
def maxPathHops : Nat := 6

/-- A query with its parameters. -/
structure GraphQuery where
  text : String
  params : Properties
  shape : Shape
  deriving DecidableEq

namespace GraphQuery

/-- Which nodes are looked for. -/
def nodeFilter : String :=
  "(size($node_types) = 0 OR n.type IN $node_types)\n" ++
  "  AND (size($terms) = 0 OR any(term IN $terms WHERE any(field IN $search_fields\n" ++
  "       WHERE toLower(toString(coalesce(n[field], ''))) CONTAINS term)))"

/-- Which relationships are followed. -/
def relationFilter : String := "(size($rel_types) = 0 OR type(r) IN $rel_types)"

/-- The query for nodes and relationships that fit a pattern. -/
def edgesText (pattern : String) : String :=
  "MATCH " ++ pattern ++ "\nWHERE " ++ nodeFilter ++ "\n  AND " ++ relationFilter ++
    "\nRETURN n, r, m\nORDER BY n.name, m.name\nLIMIT $limit"

/-- The text of the query for a shape. -/
def textOf : Shape → String
  | .nodes =>
    "MATCH (n:Entity)\nWHERE " ++ nodeFilter ++ "\nRETURN n\nORDER BY n.name\nLIMIT $limit"
  | .outgoing => edgesText "(n:Entity)-[r]->(m:Entity)"
  | .incoming => edgesText "(m:Entity)-[r]->(n:Entity)"
  | .neighbors => edgesText "(n:Entity)-[r]-(m:Entity)"
  | .path =>
    "MATCH (a:Entity), (b:Entity)\nWHERE toLower(a.name) CONTAINS $from AND " ++
    "toLower(b.name) CONTAINS $to AND a.id <> b.id\nMATCH p = shortestPath((a)-[*.." ++
    toString maxPathHops ++ "]-(b))\nRETURN nodes(p) AS nodes, relationships(p) AS rels\n" ++
    "ORDER BY length(p)\nLIMIT $limit"

/-- The relationships that lead to what something depends on. -/
def dependencyKinds : List RelationKind :=
  [.imports, .dependsOn, .calls, .extends, .implements, .usesType]

/-- The relationships by which something is used. -/
def usageKinds : List RelationKind :=
  [.calls, .dependsOn, .extends, .implements, .usesType, .references]

/-- What a question looks for: the shape, the kinds of nodes and of relationships, and the attributes
that are searched. -/
structure Target where
  shape : Shape
  nodeKinds : List NodeKind
  relationKinds : List RelationKind
  fields : List String

/-- The attributes searched for things that need not go by their name. -/
def broadFields : List String := ["name", "description", "file_path"]

/-- What a question of an intent looks for, given the terms. -/
def target (terms : List String) : Intent → Target
  | .findFunction => ⟨.nodes, [.function], [], ["name"]⟩
  | .findClass => ⟨.nodes, [.classType], [], ["name"]⟩
  | .findInterface => ⟨.nodes, [.interface, .typeAlias], [], ["name"]⟩
  | .findDependencies =>
    ⟨.outgoing, if terms.isEmpty then [.file] else [], dependencyKinds, ["name"]⟩
  | .findUsage => ⟨.incoming, [], usageKinds, ["name"]⟩
  | .findRelated => ⟨.neighbors, [], [], ["name"]⟩
  | .analyzePath => ⟨if 2 ≤ terms.length then .path else .neighbors, [], [], ["name"]⟩
  | .explainConcept | .findGeneral | .unknown => ⟨.nodes, [], [], broadFields⟩

/-- The parameters that a shape needs. -/
def shapeParams (terms : List String) (t : Target) : List (String × Json) :=
  match t.shape, terms with
  | .path, start :: goal :: _ => [("from", .string start), ("to", .string goal)]
  | .path, _ => []
  | shape, terms =>
    [("node_types", .strings (t.nodeKinds.map NodeKind.name)), ("terms", .strings terms),
     ("search_fields", .strings t.fields)] ++
    if shape = .nodes then [] else [("rel_types", .strings (t.relationKinds.map RelationKind.name))]

/-- The query for a question. -/
def of (q : Question) : GraphQuery :=
  let t := target q.terms q.intent
  { text := textOf t.shape
    params := .ofList
      ([("mode", .string t.shape.name), ("limit", .nat q.limit)] ++ shapeParams q.terms t)
    shape := t.shape }

end GraphQuery

/-- What each thing asked about adds to the confidence. -/
def entityBonus : Binary64 := .ofDecimal 5 (-2)

/-- What things asked about add to the confidence at most. -/
def maxEntityBonus : Binary64 := .ofDecimal 15 (-2)

/-- How sure the reading of a question is. -/
def confidenceOf (intent : Intent) (count : Nat) : Binary64 :=
  (intent.baseConfidence.add (((Binary64.ofInt count).mul entityBonus).min maxEntityBonus)).clamp
    (.ofDecimal 0 0) (.ofDecimal 1 0)

end CodeAtlas
