/-
# Backends

A backend is what graph operations run on: a type of states and the operations on them, each of which
may fail, and may have changed the state even so. The graph in memory is one; it remembers the queries
it was given, and can be told to fail them.

Key definitions: `Action`, `Backend`, `Memory`, `Memory.backend`.
-/
import CodeAtlas.Fault
import CodeAtlas.Store.Search

namespace CodeAtlas

/-- A step on states that may fail, the state it leaves counting all the same. -/
abbrev Action (σ α : Type) := σ → Except Fault α × σ

/-- The operations of a graph store. -/
structure Backend (σ : Type) where
  health : Action σ Unit
  importBatch : List Node → List Relationship → Action σ ImportSummary
  query : String → Properties → Action σ Found
  stats : Action σ GraphStats
  relationships : Action σ (List Relationship)
  remove : List String → Action σ Nat
  retire : List String → Action σ RetireSummary
  clear : Action σ Unit

/-- A graph in memory, the queries it was given, and whether it fails them. -/
structure Memory where
  store : Store
  queries : List (String × Properties)
  failing : Bool
  deriving DecidableEq

namespace Memory

/-- An empty graph that was asked nothing. -/
def empty : Memory := ⟨.empty, [], false⟩

/-- What an import writes. -/
def importSummary (nodes : List Node) (relationships : List Relationship) : ImportSummary where
  nodesWritten := nodes.length
  relationshipsWritten := relationships.length
  batches := (!nodes.isEmpty).toNat + (!relationships.isEmpty).toNat
  strategy := "mock"

/-- Runs a query, unless queries are to fail. -/
def query (text : String) (params : Properties) : Action Memory Found := fun m =>
  let m := { m with queries := m.queries ++ [(text, params)] }
  if m.failing then (.error (.queryExecution text "mock failure"), m)
  else (.ok (m.store.search params), m)

/-- How many of the ids, taken in turn, are there and not yet taken. -/
def countPresent (rs : SortedMap String Relationship) : List String → Nat
  | [] => 0
  | id :: ids => (rs.contains id).toNat + countPresent (rs.erase id) ids

/-- The operations of a graph in memory. -/
def backend : Backend Memory where
  health m := (.ok (), m)
  importBatch nodes relationships m :=
    (.ok (importSummary nodes relationships),
      { m with store := m.store.importBatch nodes relationships })
  query := query
  stats m := (.ok m.store.stats, m)
  relationships m := (.ok m.store.relationships.values, m)
  remove ids m :=
    (.ok (countPresent m.store.relationships ids), { m with store := m.store.remove ids })
  retire paths m :=
    (.ok (m.store.retireSummary paths), { m with store := m.store.retire paths })
  clear m := (.ok (), { m with store := .empty })

end Memory

end CodeAtlas
