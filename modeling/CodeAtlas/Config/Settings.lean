/-
# Settings

The settings of a run come from a settings file and from the environment. Where both speak of the same,
the environment counts; what neither says has its default. A file that cannot be read, or that holds a
value of the wrong kind, counts as absent as a whole.

Key definitions: `DatabaseConfig`, `Config`, `Config.ofYaml?`, `Config.load`,
`DatabaseConfig.validate`.
-/
import CodeAtlas.Config.YamlReader
import CodeAtlas.Fault
import CodeAtlas.Project.Discover
import CodeAtlas.Query.Template
import CodeAtlas.SortedMap
import CodeAtlas.Sync.Plan

namespace CodeAtlas

/-- The variables of the environment. -/
abbrev Environment := SortedMap String String

/-- How to reach the graph database, and how to write to it. -/
structure DatabaseConfig where
  uri : String := "bolt://localhost:7687"
  user : String := "neo4j"
  password : String := ""
  database : Option String := none
  maxPoolSize : Nat := 16
  maxRetryMillis : Nat := 30000
  batchSize : Nat := 500
  deriving DecidableEq

namespace DatabaseConfig

/-- The settings of a section. -/
def ofYaml? (v : Yaml) : Option DatabaseConfig := do
  let standard : DatabaseConfig := {}
  let f ← v.entries?
    ["uri", "user", "password", "database", "max_pool_size", "max_transaction_retry_ms", "batch_size"]
  return {
    uri := ← Yaml.withDefault f "uri" Yaml.text? standard.uri
    user := ← Yaml.withDefault f "user" Yaml.text? standard.user
    password := ← Yaml.withDefault f "password" Yaml.text? standard.password
    database := ← Yaml.withDefault f "database" Yaml.optText? standard.database
    maxPoolSize := ← Yaml.withDefault f "max_pool_size" (Yaml.natBelow? 64) standard.maxPoolSize
    maxRetryMillis := ←
      Yaml.withDefault f "max_transaction_retry_ms" (Yaml.natBelow? 64) standard.maxRetryMillis
    batchSize := ← Yaml.withDefault f "batch_size" (Yaml.natBelow? 64) standard.batchSize }

/-- The settings as JSON. -/
def toJson (c : DatabaseConfig) : Json :=
  .object
    [("uri", .string c.uri), ("user", .string c.user), ("password", .string c.password),
     ("database", .optString c.database), ("max_pool_size", .nat c.maxPoolSize),
     ("max_transaction_retry_ms", .nat c.maxRetryMillis), ("batch_size", .nat c.batchSize)]

/-- Checks what is needed to connect. -/
def validate (c : DatabaseConfig) : Except Fault Unit :=
  if Text.isBlankText c.uri then .error (.config "NEO4J_URI is empty")
  else if Text.isBlankText c.user || c.password == "" then
    .error (.config "NEO4J_USER and NEO4J_PASSWORD are required")
  else if c.batchSize = 0 then .error (.config "batch_size must be positive")
  else .ok ()

end DatabaseConfig

/-- The settings of a section. -/
def ExtractionConfig.ofYaml? (v : Yaml) : Option ExtractionConfig := do
  let standard : ExtractionConfig := {}
  let f ← v.entries? ["extensions", "ignored_dirs", "max_file_size"]
  return {
    extensions := ← Yaml.withDefault f "extensions" Yaml.texts? standard.extensions
    ignoredDirs := ← Yaml.withDefault f "ignored_dirs" Yaml.texts? standard.ignoredDirs
    maxFileSize := ← Yaml.withDefault f "max_file_size" (Yaml.natBelow? 64) standard.maxFileSize }

/-- The settings of a section. -/
def SyncConfig.ofYaml? (v : Yaml) : Option SyncConfig := do
  let standard : SyncConfig := {}
  let f ← v.entries? ["state_path", "full_sync_after_days"]
  return {
    statePath := ← Yaml.withDefault f "state_path" Yaml.text? standard.statePath
    fullSyncAfterDays := ←
      Yaml.withDefault f "full_sync_after_days" (Yaml.natBelow? 32) standard.fullSyncAfterDays }

/-- The settings of a section. -/
def QueryConfig.ofYaml? (v : Yaml) : Option QueryConfig := do
  let standard : QueryConfig := {}
  let f ← v.entries? ["default_limit", "max_limit"]
  return {
    defaultLimit := ← Yaml.withDefault f "default_limit" (Yaml.natBelow? 64) standard.defaultLimit
    maxLimit := ← Yaml.withDefault f "max_limit" (Yaml.natBelow? 64) standard.maxLimit }

/-- The settings of a run. -/
structure Config where
  database : DatabaseConfig := {}
  extraction : ExtractionConfig := {}
  sync : SyncConfig := {}
  query : QueryConfig := {}
  deriving DecidableEq

namespace Config

/-- The settings of a file. -/
def ofYaml? (v : Yaml) : Option Config := do
  let f ← v.entries? ["neo4j", "extraction", "sync", "query"]
  return {
    database := ← Yaml.withDefault f "neo4j" DatabaseConfig.ofYaml? {}
    extraction := ← Yaml.withDefault f "extraction" ExtractionConfig.ofYaml? {}
    sync := ← Yaml.withDefault f "sync" SyncConfig.ofYaml? {}
    query := ← Yaml.withDefault f "query" QueryConfig.ofYaml? {} }

/-- The settings of the text of a file, or the defaults where there is none or it cannot be read. -/
def ofText (text : Option String) : Config := ((text.bind Yaml.parse?).bind ofYaml?).getD {}

/-- The number of a variable, or the given one where it is not set or is no number. -/
def number (env : Environment) (name : String) (otherwise : Nat) : Nat :=
  ((env.get? name).bind (Yaml.decimal? 64)).getD otherwise

/-- The settings with those of the environment in their place. -/
def override (env : Environment) (c : Config) : Config :=
  { c with
    database := { c.database with
      uri := (env.get? "NEO4J_URI").getD c.database.uri
      user := (env.get? "NEO4J_USER").getD c.database.user
      password := (env.get? "NEO4J_PASSWORD").getD c.database.password
      database := ((env.get? "NEO4J_DATABASE").or c.database.database).filter
        fun name => !Text.isBlankText name
      maxPoolSize := number env "NEO4J_MAX_POOL_SIZE" c.database.maxPoolSize
      maxRetryMillis := number env "NEO4J_MAX_TX_RETRY_MS" c.database.maxRetryMillis }
    sync := { c.sync with
      statePath := (env.get? "CODEGRAPH_STATE_PATH").getD c.sync.statePath } }

/-- The settings of a file and the environment. -/
def load (text : Option String) (env : Environment) : Config := override env (ofText text)

end Config

end CodeAtlas
