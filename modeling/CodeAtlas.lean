import CodeAtlas.Binary64
import CodeAtlas.Command.Arguments
import CodeAtlas.Command.Run
import CodeAtlas.Config.EnvFile
import CodeAtlas.Config.Settings
import CodeAtlas.Config.Yaml
import CodeAtlas.Config.YamlReader
import CodeAtlas.Config.YamlScalar
import CodeAtlas.Database.Client
import CodeAtlas.Database.Script
import CodeAtlas.Database.Server
import CodeAtlas.Database.Value
import CodeAtlas.Fault
import CodeAtlas.Graph.Build
import CodeAtlas.Graph.Element
import CodeAtlas.Graph.Ident
import CodeAtlas.Graph.Index
import CodeAtlas.Graph.Kind
import CodeAtlas.Graph.Reduce
import CodeAtlas.Graph.Symbol
import CodeAtlas.Graph.Written
import CodeAtlas.Json
import CodeAtlas.Json.Document
import CodeAtlas.Json.Fields
import CodeAtlas.Json.Numeral
import CodeAtlas.Json.Token
import CodeAtlas.Json.Write
import CodeAtlas.Main
import CodeAtlas.Operation
import CodeAtlas.Ordered
import CodeAtlas.Project.Discover
import CodeAtlas.Project.FileSystem
import CodeAtlas.Project.Package
import CodeAtlas.Project.Path
import CodeAtlas.Project.Reading
import CodeAtlas.Proofs.Accounting
import CodeAtlas.Proofs.Agreement
import CodeAtlas.Proofs.Anchored
import CodeAtlas.Proofs.Answering
import CodeAtlas.Proofs.Batching
import CodeAtlas.Proofs.Binary64
import CodeAtlas.Proofs.Building
import CodeAtlas.Proofs.CalledNames
import CodeAtlas.Proofs.ClassBlocks
import CodeAtlas.Proofs.Cleaning
import CodeAtlas.Proofs.Closure
import CodeAtlas.Proofs.Collecting
import CodeAtlas.Proofs.CommentFree
import CodeAtlas.Proofs.CommentFreeParts
import CodeAtlas.Proofs.Comments
import CodeAtlas.Proofs.Convergence
import CodeAtlas.Proofs.Coverage
import CodeAtlas.Proofs.DigestInputs
import CodeAtlas.Proofs.Discovery
import CodeAtlas.Proofs.Entities
import CodeAtlas.Proofs.Extraction
import CodeAtlas.Proofs.FileOrder
import CodeAtlas.Proofs.FileTree
import CodeAtlas.Proofs.Flattening
import CodeAtlas.Proofs.Identity
import CodeAtlas.Proofs.Idle
import CodeAtlas.Proofs.Importing
import CodeAtlas.Proofs.Imports
import CodeAtlas.Proofs.Incremental
import CodeAtlas.Proofs.Integrity
import CodeAtlas.Proofs.Intents
import CodeAtlas.Proofs.JsonText
import CodeAtlas.Proofs.LastExtraction
import CodeAtlas.Proofs.Lookup
import CodeAtlas.Proofs.Manifests
import CodeAtlas.Proofs.Namespaces
import CodeAtlas.Proofs.Normalizing
import CodeAtlas.Proofs.Occurrences
import CodeAtlas.Proofs.Owners
import CodeAtlas.Proofs.Packages
import CodeAtlas.Proofs.PathSearch
import CodeAtlas.Proofs.Paths
import CodeAtlas.Proofs.Plans
import CodeAtlas.Proofs.Preference
import CodeAtlas.Proofs.Reading
import CodeAtlas.Proofs.Rebuild
import CodeAtlas.Proofs.Reducing
import CodeAtlas.Proofs.Retiring
import CodeAtlas.Proofs.Retry
import CodeAtlas.Proofs.Runs
import CodeAtlas.Proofs.SavedTree
import CodeAtlas.Proofs.Saving
import CodeAtlas.Proofs.Scan
import CodeAtlas.Proofs.Selection
import CodeAtlas.Proofs.SortedMap
import CodeAtlas.Proofs.Splitting
import CodeAtlas.Proofs.Staleness
import CodeAtlas.Proofs.StateFile
import CodeAtlas.Proofs.StateLoss
import CodeAtlas.Proofs.Storing
import CodeAtlas.Proofs.SymbolCache
import CodeAtlas.Proofs.Syncing
import CodeAtlas.Proofs.Tokens
import CodeAtlas.Proofs.TypeNames
import CodeAtlas.Query.Answer
import CodeAtlas.Query.Entity
import CodeAtlas.Query.Intent
import CodeAtlas.Query.Pattern
import CodeAtlas.Query.Template
import CodeAtlas.Report
import CodeAtlas.Sha256
import CodeAtlas.SortedMap
import CodeAtlas.Source.Declaration
import CodeAtlas.Source.Extract
import CodeAtlas.Source.Grammar
import CodeAtlas.Source.Outline
import CodeAtlas.Source.Sample
import CodeAtlas.Source.Token
import CodeAtlas.Source.Tree
import CodeAtlas.Source.TypeName
import CodeAtlas.Source.Written
import CodeAtlas.Store.Backend
import CodeAtlas.Store.Graph
import CodeAtlas.Store.Record
import CodeAtlas.Store.Result
import CodeAtlas.Store.Search
import CodeAtlas.Store.Statement
import CodeAtlas.Sync.Changes
import CodeAtlas.Sync.Fingerprint
import CodeAtlas.Sync.Plan
import CodeAtlas.Sync.State
import CodeAtlas.Text.Blank
import CodeAtlas.Text.Casing
import CodeAtlas.Text.Letter
import CodeAtlas.Text.Printable
import CodeAtlas.Text.Timestamp
import CodeAtlas.Text.WordChar
