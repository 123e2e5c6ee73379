/-
# Searching the graph in memory

A query is given by its parameters: which kinds of nodes and relationships are looked for, which terms
their attributes must hold, and whether nodes alone are wanted, nodes with their relationships, or a
shortest path. A path is searched breadth first; where several are as short, the one by the smaller ids
is found.

Key definitions: `NodeFilter`, `NodeFilter.accepts`, `Store.shortestPath?`, `Store.search`.
-/
import CodeAtlas.Binary64
import CodeAtlas.Json.Write
import CodeAtlas.Ordered
import CodeAtlas.Query.Template
import CodeAtlas.Store.Graph

namespace CodeAtlas

/-- Which nodes are looked for: of certain kinds, if any are given, with a term, if any are given, in
one of the fields. -/
structure NodeFilter where
  kinds : List String
  terms : List String
  fields : List String
  deriving DecidableEq

namespace NodeFilter

/-- The texts in a list of parameters. -/
def texts (params : Properties) (key : String) : List String :=
  (((params.get? key).bind Json.items?).getD []).filterMap Json.string?

/-- The filter that parameters give. -/
def ofParams (params : Properties) : NodeFilter where
  kinds := texts params "node_types"
  terms := texts params "terms"
  fields :=
    let fields := texts params "search_fields"
    if fields.isEmpty then ["name"] else fields

/-- The text of a field of a node. -/
def fieldText? (n : Node) (field : String) : Option String :=
  if field == "name" then some n.name
  else if field == "id" then some n.id
  else if field == "type" then some n.kind.name
  else (n.properties.get? field).map fun v =>
    match v with
    | .string s => s
    | v => v.compact

/-- Whether a field of the node holds the term. -/
def holds (f : NodeFilter) (n : Node) (term : String) : Bool :=
  f.fields.any fun field => (fieldText? n field).any fun s => Text.hasSub term (Text.lower s)

/-- Whether the node is looked for. -/
def accepts (f : NodeFilter) (n : Node) : Bool :=
  (f.kinds.isEmpty || f.kinds.contains n.kind.name) && (f.terms.isEmpty || f.terms.any (f.holds n))

end NodeFilter

namespace Store

/-- A node reached, and the relationships on the way to it. -/
abbrev Walk := String × List Relationship

/-- The other end of a relationship of a node. -/
def otherEnd (id : String) (r : Relationship) : String := if r.source == id then r.target else r.source

/-- Goes on from a node by its relationships to nodes that were not reached before. -/
def extend (rs : List Relationship) (state : List String × List Walk) (walk : Walk) :
    List String × List Walk :=
  (rs.filter fun r => r.source == walk.1 || r.target == walk.1).foldl
    (fun (reached, walks) r =>
      let next := otherEnd walk.1 r
      if reached.contains next then (reached, walks)
      else (next :: reached, walks ++ [(next, walk.2 ++ [r])]))
    state

/-- The first walk that ends at a node, going on for at most `hops` steps. -/
def searchFrom (rs : List Relationship) (goal : String) :
    Nat → List String → List Walk → Option (List Relationship)
  | hops, reached, walks =>
    match walks.find? (·.1 == goal) with
    | some walk => some walk.2
    | none =>
      match hops with
      | 0 => none
      | hops + 1 =>
        let (reached, walks) := walks.foldl (extend rs) (reached, [])
        searchFrom rs goal hops reached walks

/-- A shortest path between two nodes, in whatever direction its relationships go. -/
def shortestPath? (rs : SortedMap String Relationship) (start goal : String) :
    Option (List Relationship) :=
  searchFrom rs.values goal maxPathHops [start] [(start, [])]

/-- Finds a node of an id. -/
def foundNode (s : Store) (f : Found) (id : String) : Found :=
  match s.nodes.get? id with
  | some n => f.addNode n.node
  | none => f

/-- Finds a relationship and its ends. -/
def foundEdge (s : Store) (f : Found) (r : Relationship) : Found :=
  (s.foundNode (s.foundNode f r.source) r.target).addRelationship r

/-- Whether a node of an id is there and looked for. -/
def isMatch (s : Store) (f : NodeFilter) (id : String) : Bool :=
  (s.nodes.get? id).any fun n => f.accepts n.node

/-- Whether a relationship is one of a shape. -/
def hasShape (s : Store) (f : NodeFilter) (shape : Shape) (r : Relationship) : Bool :=
  match shape with
  | .outgoing => s.isMatch f r.source
  | .incoming => s.isMatch f r.target
  | _ => s.isMatch f r.source || s.isMatch f r.target

/-- The relationships of a shape, by id. -/
def searchEdges (s : Store) (f : NodeFilter) (kinds : List String) (shape : Shape) (limit : Nat) :
    Found :=
  ((s.relationships.values.filter fun r =>
    (kinds.isEmpty || kinds.contains r.kind.name) && s.hasShape f shape r).take limit).foldl
    (fun f r => (s.foundEdge f r).addRow) .nothing

/-- The nodes whose name holds a text. -/
def named (s : Store) (part : String) : List Node :=
  (s.nodes.values.filter fun n => Text.hasSub part (Text.lower n.node.name)).map (·.node)

/-- The first path between nodes whose names hold two texts. -/
def searchPath (s : Store) (start goal : String) : Found :=
  let pairs := (s.named start).flatMap fun a => (s.named goal).map fun b => (a.id, b.id)
  match pairs.findSome? fun (a, b) => if a == b then none else shortestPath? s.relationships a b with
  | some path => { path.foldl s.foundEdge .nothing with rows := 1 }
  | none => .nothing

/-- Whether a node comes before another, by name and id. -/
def precedes (a b : Node) : Bool := ((compare a.name b.name).then (compare a.id b.id)).isLE

/-- The nodes that are looked for, by name. -/
def searchNodes (s : Store) (f : NodeFilter) (limit : Nat) : Found :=
  ((Ordered.sort precedes ((s.nodes.values.map (·.node)).filter f.accepts)).take limit).foldl
    (fun f n => (f.addNode n).addRow) .nothing

/-- What the parameters of a query look for. -/
def search (s : Store) (params : Properties) : Found :=
  let limit := ((params.get? "limit").bind Json.nat?).getD (twoTo 64 - 1)
  let f := NodeFilter.ofParams params
  let kinds := NodeFilter.texts params "rel_types"
  let text key := ((params.get? key).bind Json.string?).getD ""
  match ((params.get? "mode").bind Json.string?).bind Shape.ofName? with
  | some .outgoing => s.searchEdges f kinds .outgoing limit
  | some .incoming => s.searchEdges f kinds .incoming limit
  | some .neighbors => s.searchEdges f kinds .neighbors limit
  | some .path => s.searchPath (text "from") (text "to")
  | some .nodes | none => s.searchNodes f limit

end Store

end CodeAtlas
