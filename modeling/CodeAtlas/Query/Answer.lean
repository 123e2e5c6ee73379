/-
# Answers to questions

An answer holds what was found, how the question was understood, and what to ask next.

Key definitions: `Answer`, `Answer.explain`, `Answer.suggest`, `Answer.of`.
-/
import CodeAtlas.Query.Template
import CodeAtlas.Store.Result

namespace CodeAtlas

/-- The answer to a question. -/
structure Answer where
  success : Bool
  intent : Intent
  entities : List String
  confidence : Binary64
  nodes : List Node
  relationships : List Relationship
  explanation : String
  suggestions : List String
  queryText : String
  elapsed : Nat
  deriving DecidableEq

namespace Answer

/-- What an intent looks for. -/
def subject : Intent → String
  | .findFunction => "functions"
  | .findClass => "classes"
  | .findInterface => "interfaces and type aliases"
  | .findDependencies => "dependencies"
  | .findUsage => "usages"
  | .findRelated => "related entities"
  | .analyzePath => "connections"
  | .explainConcept => "entities describing the concept"
  | .findGeneral | .unknown => "entities"

/-- Texts in quotes. -/
def quotedList (texts : List String) : String :=
  Text.join ", " (texts.map fun t => "'" ++ t ++ "'")

/-- What was looked for, in words. -/
def matching (shape : Shape) : List String → String
  | [] => ""
  | first :: rest =>
    match shape, rest with
    | .path, second :: _ => " between '" ++ first ++ "' and '" ++ second ++ "'"
    | _, rest => " matching " ++ quotedList (first :: rest)

/-- What was found, in words. -/
def findings (f : Found) : String :=
  match f.nodes.length, f.relationships.length with
  | 0, 0 => "nothing was found"
  | nodes, 0 => "found " ++ toString nodes ++ " node(s)"
  | nodes, edges =>
    "found " ++ toString nodes ++ " node(s) and " ++ toString edges ++ " relationship(s)"

/-- How a question was understood, and what was found. -/
def explain (q : Question) (shape : Shape) (f : Found) : String :=
  "Interpreted as " ++ q.intent.name ++ " (" ++ subject q.intent ++ "): looked for " ++
    subject q.intent ++ matching shape q.entities ++ "; " ++ findings f ++ "."

/-- What to do where nothing was found. -/
def suggestForNothing (q : Question) : List String :=
  (if q.entities.isEmpty then
    ["Name the entity you are looking for, e.g. \"find function createLogger\""]
  else
    ["Broaden the search with a shorter or partial name",
     "Check the spelling of " ++ quotedList q.entities]) ++
  ["Run a sync if the code changed since the graph was last updated"]

/-- What to ask next about a name. -/
def suggestAbout (name : String) : Intent → List String
  | .findFunction | .findClass | .findInterface =>
    ["who uses " ++ name, "what does " ++ name ++ " depend on"]
  | .findDependencies => ["who uses " ++ name]
  | .findUsage => ["what does " ++ name ++ " depend on", "things related to " ++ name]
  | .findRelated | .analyzePath => ["explain " ++ name]
  | .explainConcept | .findGeneral | .unknown => ["things related to " ++ name]

/-- What to ask or to do next. -/
def suggest (q : Question) (f : Found) : List String :=
  if f.isEmpty then suggestForNothing q
  else
    let name := q.entities.head?.or (f.nodes.head?.map (·.name))
    (name.map fun n => suggestAbout n q.intent).getD [] ++
    (if q.intent = .unknown then
      ["Start the query with what you want, e.g. \"find class\" or \"who calls\""] else []) ++
    if q.limit ≤ f.rows then
      ["Results were capped at " ++ toString q.limit ++ "; raise the limit or narrow the query"]
    else []

/-- The answer to a question, from what its query found. -/
def of (q : Question) (g : GraphQuery) (f : Found) : Answer where
  success := true
  intent := q.intent
  entities := q.entities
  confidence := confidenceOf q.intent q.entities.length
  nodes := f.nodes
  relationships := f.relationships
  explanation := explain q g.shape f
  suggestions := suggest q f
  queryText := g.text
  elapsed := 0

/-- Whether neither node nor relationship was found. -/
def isEmpty (a : Answer) : Bool := a.nodes.isEmpty && a.relationships.isEmpty

/-- A floating-point number. -/
def float? (d : Document) : Option Binary64 := d.number?.map Number.toFloat

/-- The answer of a document, with `depth` levels left. -/
def ofDocument? (depth : Nat) (d : Document) : Option Answer := do
  let f ← Fields.of?
    ["success", "intent", "entities", "confidence", "nodes", "relationships", "explanation",
     "suggestions", "cypher", "execution_time_ms"] d
  return {
    success := ← f.required "success" Document.bool?
    intent := ← f.required "intent" fun d => d.name?.bind Intent.ofName?
    entities := ← f.required "entities" Document.strings?
    confidence := ← f.required "confidence" float?
    nodes := ← f.required "nodes" (Document.listOf? (Node.ofDocument? (depth - 2)))
    relationships := ← f.required "relationships"
      (Document.listOf? (Relationship.ofDocument? (depth - 2)))
    explanation := ← f.required "explanation" Document.string?
    suggestions := ← f.required "suggestions" Document.strings?
    queryText := ← f.required "cypher" Document.string?
    elapsed := ← f.required "execution_time_ms" Document.nat? }

/-- The fields of an answer as JSON, but for the time it took. -/
def fields (a : Answer) : List (String × Json) :=
  [("success", .bool a.success), ("intent", .string a.intent.name),
   ("entities", .strings a.entities), ("confidence", .float a.confidence),
   ("nodes", .array (a.nodes.map Node.toJson)),
   ("relationships", .array (a.relationships.map Relationship.toJson)),
   ("explanation", .string a.explanation), ("suggestions", .strings a.suggestions),
   ("cypher", .string a.queryText)]

/-- The answer as JSON. -/
def toJson (a : Answer) : Json := .object (a.fields ++ [("execution_time_ms", .nat a.elapsed)])

end Answer

end CodeAtlas
