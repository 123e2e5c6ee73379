/-
# The graph in a database

A client keeps a graph in a database. Connecting checks the settings, reaches the server, prepares the
schema, and finds out how relationships are imported. Each statement of an import is a transaction of
its own, which is tried again, after ever longer waits, until the time for it is used up.

Key definitions: `Client`, `Client.connect`, `Client.runStatement`, `Client.backend`.
-/
import CodeAtlas.Binary64
import CodeAtlas.Config.Settings
import CodeAtlas.Database.Server
import CodeAtlas.Store.Backend
import CodeAtlas.Store.Statement

namespace CodeAtlas

/-- A connection: the server's state, the settings, and how relationships are imported. -/
structure Client (δ : Type) where
  server : δ
  config : DatabaseConfig
  strategy : ImportStrategy

namespace Client

variable {δ α : Type}

/-- The database that is used where none is named. -/
def defaultDatabase : String := "neo4j"

/-- A statement as a client of these settings sends it. -/
def call (c : DatabaseConfig) (text : String) (params : List (String × Value)) : Call where
  user := c.user
  password := c.password
  database := (c.database.filter (· != "")).getD defaultDatabase
  text := text
  params := params

/-- The statement that a connection is tried with. -/
def probe : String := "RETURN 1"

/-- The statements that prepare the schema. -/
def schema : List String :=
  ["CREATE CONSTRAINT entity_id IF NOT EXISTS FOR (n:Entity) REQUIRE n.id IS UNIQUE",
   "CREATE INDEX entity_type IF NOT EXISTS FOR (n:Entity) ON (n.type)",
   "CREATE INDEX entity_name IF NOT EXISTS FOR (n:Entity) ON (n.name)",
   "CREATE INDEX entity_file_path IF NOT EXISTS FOR (n:Entity) ON (n.file_path)"]

/-- The query that counts the procedures of a name. -/
def procedureQuery : String :=
  "SHOW PROCEDURES YIELD name WHERE name = $name RETURN count(*) AS found"

/-- Whether rows say that something was found. -/
def isFound (rows : List Row) : Bool :=
  match rows.head?.bind fun row => row.int? "found" with
  | some n => 0 < n
  | none => false

/-- Prepares the schema; a statement that fails is passed over. -/
def prepare (s : Server δ) (c : DatabaseConfig) (db : δ) : δ :=
  schema.foldl (fun db text => (s.run (call c text []) db).2) db

/-- Connects to the server of the settings. -/
def connect (net : Network) (s : Server δ) (c : DatabaseConfig) (db : δ) :
    Except Fault (Client δ) × δ :=
  match c.validate with
  | .error fault => (.error fault, db)
  | .ok () =>
    match net.reach c.uri with
    | .error reason => (.error (.connection (c.uri ++ ": " ++ reason)), db)
    | .ok () =>
      match s.run (call c probe []) db with
      | (.error refused, db) => (.error (.connection (c.uri ++ ": " ++ refused.message)), db)
      | (.ok (), db) =>
        let db := prepare s c db
        let name := Value.string ImportStrategy.requiredProcedure
        let (found, db) := s.fetch (call c procedureQuery [("name", name)]) db
        let available := match found with
          | .ok rows => isFound rows
          | .error _ => false
        (.ok ⟨db, c, .select available⟩, db)

/-- Runs a query and reads its rows. -/
def fetch (s : Server δ) (text : String) (params : List (String × Value)) :
    Action (Client δ) (List Row) := fun c =>
  match s.fetch (call c.config text params) c.server with
  | (.ok rows, db) => (.ok rows, { c with server := db })
  | (.error refused, db) =>
    (.error (.queryExecution text refused.message), { c with server := db })

/-- Runs a statement in a transaction of its own. -/
def transact (s : Server δ) (c : DatabaseConfig) (statement : Statement) (db : δ) :
    Except Refused Unit × δ :=
  let rows := Value.list (statement.rows.map fun row => Value.ofJson (.ofProperties row))
  match s.begin db with
  | (.error refused, db) => (.error refused, db)
  | (.ok (), db) =>
    match s.run (call c statement.text [("rows", rows)]) db with
    | (.error refused, db) => (.error refused, (s.rollback db).2)
    | (.ok (), db) => s.commit db

/-- The wait after so many attempts, in milliseconds. -/
def backoff (attempts : Nat) : Nat := 100 * twoTo (min attempts 6)

/-- Tries a statement, `elapsed` milliseconds after the first attempt, until the time is used up. -/
def attempt (s : Server δ) (c : DatabaseConfig) (statement : Statement) :
    Nat → Nat → Nat → δ → Except Fault Unit × δ
  | 0, attempts, _, db => (.error (.transaction statement.label attempts ""), db)
  | fuel + 1, attempts, elapsed, db =>
    match transact s c statement db with
    | (.ok (), db) => (.ok (), db)
    | (.error refused, db) =>
      if c.maxRetryMillis ≤ elapsed then
        (.error (.transaction statement.label (attempts + 1) refused.message), db)
      else
        let wait := min (backoff (attempts + 1)) (c.maxRetryMillis - elapsed)
        attempt s c statement fuel (attempts + 1) (elapsed + wait) db

/-- Runs a statement of an import. Every wait but the last is at least two hundred milliseconds. -/
def runStatement (s : Server δ) (statement : Statement) : Action (Client δ) Unit := fun c =>
  let (result, db) :=
    attempt s c.config statement (c.config.maxRetryMillis / 200 + 2) 0 0 c.server
  (result, { c with server := db })

/-- Runs the statements of an import one after the other. -/
def runAll (s : Server δ) : List Statement → Action (Client δ) Unit
  | [], c => (.ok (), c)
  | statement :: rest, c =>
    match runStatement s statement c with
    | (.ok (), c) => runAll s rest c
    | (.error fault, c) => (.error fault, c)

/-- The number of rows of statements. -/
def rowCount (statements : List Statement) : Nat := statements.foldl (fun n s => n + s.rows.length) 0

/-- Imports nodes, then relationships. -/
def importBatch (s : Server δ) (nodes : List Node) (relationships : List Relationship) :
    Action (Client δ) ImportSummary := fun c =>
  let forNodes := Statement.forNodes nodes c.config.batchSize
  let forRelationships := c.strategy.statements relationships c.config.batchSize
  match runAll s (forNodes ++ forRelationships) c with
  | (.error fault, c) => (.error fault, c)
  | (.ok (), c) =>
    (.ok {
      nodesWritten := rowCount forNodes
      relationshipsWritten := rowCount forRelationships
      batches := forNodes.length + forRelationships.length
      strategy := c.strategy.name }, c)

/-- What a row adds to what was found. -/
def addRow (found : Found) (row : Row) : Found :=
  let nodes := (["n", "m", "source", "target"].filterMap row.node?) ++ row.nodes "nodes"
  let relationships := (row.relation? "r").toList ++ row.relations "rels"
  relationships.foldl Found.addRelationship (nodes.foldl Found.addNode found.addRow)

/-- Runs a query of a reader. -/
def query (s : Server δ) (text : String) (params : Properties) : Action (Client δ) Found := fun c =>
  match fetch s text (Value.ofFields params.entries) c with
  | (.ok rows, c) => (.ok (rows.foldl addRow .nothing), c)
  | (.error fault, c) => (.error fault, c)

/-- A count as an unsigned 64-bit number. -/
def countOf (n : Int) : Nat := (n % (twoTo 64 : Int)).toNat

/-- The counts of rows by kind, a kind that is not told under the given name. -/
def countsOf (unnamed : String) (rows : List Row) : Nat × SortedMap String Nat :=
  rows.foldl
    (fun (total, counts) row =>
      let kind := (row.string? "type").getD unnamed
      let n := countOf ((row.int? "count").getD 0)
      (total + n, counts.insert kind ((counts.get? kind).getD 0 + n)))
    (0, .empty)

/-- The query that counts nodes. -/
def nodeCounts : String :=
  "MATCH (n:Entity) RETURN coalesce(n.type, 'Unknown') AS type, count(n) AS count"

/-- The query that counts relationships. -/
def relationshipCounts : String :=
  "MATCH (:Entity)-[r]->(:Entity) RETURN type(r) AS type, count(r) AS count"

/-- Counts nodes and relationships. -/
def stats (s : Server δ) : Action (Client δ) GraphStats := fun c =>
  match fetch s nodeCounts [] c with
  | (.error fault, c) => (.error fault, c)
  | (.ok nodeRows, c) =>
    match fetch s relationshipCounts [] c with
    | (.error fault, c) => (.error fault, c)
    | (.ok relationshipRows, c) =>
      let (nodes, nodesByKind) := countsOf "Unknown" nodeRows
      let (relationships, relationshipsByKind) := countsOf "" relationshipRows
      (.ok ⟨nodes, relationships, nodesByKind, relationshipsByKind⟩, c)

/-- All relationships, in the order of their rows. -/
def relationships (s : Server δ) : Action (Client δ) (List Relationship) := fun c =>
  match fetch s "MATCH (:Entity)-[r]->(:Entity) RETURN r" [] c with
  | (.ok rows, c) => (.ok (rows.filterMap (·.relation? "r")), c)
  | (.error fault, c) => (.error fault, c)

/-- A statement over indented lines. -/
def indented (lines : List String) : String :=
  Text.join "" (lines.map fun line => "\n            " ++ line) ++ "\n        "

/-- The statement that removes relationships by id. -/
def removal : String :=
  indented
    ["UNWIND $ids AS rid", "MATCH (:Entity)-[r \x7bid: rid\x7d]->(:Entity)", "DELETE r",
     "RETURN count(r) AS removed"]

/-- The number in a column of the first row. -/
def firstCount (column : String) (rows : List Row) : Nat :=
  countOf ((rows.head?.bind fun row => row.int? column).getD 0)

/-- Texts as a value. -/
def texts (items : List String) : Value := .list (items.map .string)

/-- Removes relationships, batch by batch. -/
def removeBatches (s : Server δ) : List (List String) → Nat → Action (Client δ) Nat
  | [], removed, c => (.ok removed, c)
  | ids :: rest, removed, c =>
    match fetch s removal [("ids", texts ids)] c with
    | (.error fault, c) => (.error fault, c)
    | (.ok rows, c) => removeBatches s rest (removed + firstCount "removed" rows) c

/-- The statement that removes the relationships of files. -/
def dropEdges : String :=
  indented
    ["MATCH (:Entity)-[r]->(:Entity)", "WHERE r.file_path IN $paths", "DELETE r",
     "RETURN count(r) AS count"]

/-- The statement that marks the nodes of files as not declared. -/
def unresolve : String :=
  indented
    ["MATCH (n:Entity)", "WHERE n.file_path IN $paths", "SET n.resolved = false",
     "RETURN count(n) AS count"]

/-- The statement that removes nodes that are neither declared nor connected. -/
def prune : String :=
  indented
    ["MATCH (n:Entity)", "WHERE n.resolved = false AND NOT (n)--()", "DELETE n",
     "RETURN count(n) AS count"]

/-- Retires files. -/
def retire (s : Server δ) (paths : List String) : Action (Client δ) RetireSummary := fun c =>
  if paths.isEmpty then (.ok .nothing, c)
  else match fetch s dropEdges [("paths", texts paths)] c with
    | (.error fault, c) => (.error fault, c)
    | (.ok dropped, c) =>
      match fetch s unresolve [("paths", texts paths)] c with
      | (.error fault, c) => (.error fault, c)
      | (.ok unresolved, c) =>
        match fetch s prune [] c with
        | (.error fault, c) => (.error fault, c)
        | (.ok pruned, c) =>
          (.ok ⟨firstCount "count" dropped, firstCount "count" unresolved,
            firstCount "count" pruned⟩, c)

/-- Runs a statement without reading rows; `fault` tells of a refusal. -/
def command (s : Server δ) (text : String) (fault : String → Fault) : Action (Client δ) Unit :=
  fun c =>
    match s.run (call c.config text []) c.server with
    | (.ok (), db) => (.ok (), { c with server := db })
    | (.error refused, db) => (.error (fault refused.message), { c with server := db })

/-- The statement that removes everything. -/
def removeAll : String := "MATCH (n:Entity) DETACH DELETE n"

/-- The operations of a graph in a database. -/
def backend (s : Server δ) : Backend (Client δ) where
  health := command s probe .connection
  importBatch := importBatch s
  query := query s
  stats := stats s
  relationships := relationships s
  remove ids c := removeBatches s (Statement.batches c.config.batchSize ids) 0 c
  retire := retire s
  clear := command s removeAll (.queryExecution removeAll)

end Client

end CodeAtlas
