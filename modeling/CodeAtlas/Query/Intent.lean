/-
# What a question asks for

A question in words is taken for the first intent, in the order of a table, with a pattern that occurs
in it.

Key definitions: `Intent`, `Intent.table`, `Intent.classify`, `Intent.baseConfidence`.
-/
import CodeAtlas.Binary64
import CodeAtlas.Query.Pattern

namespace CodeAtlas

/-- What a question asks for. -/
inductive Intent where
  | findFunction
  | findClass
  | findInterface
  | findDependencies
  | findUsage
  | findRelated
  | analyzePath
  | explainConcept
  | findGeneral
  | unknown
  deriving DecidableEq

namespace Intent

/-- The name of the intent. -/
def name : Intent → String
  | .findFunction => "find_function"
  | .findClass => "find_class"
  | .findInterface => "find_interface"
  | .findDependencies => "find_dependencies"
  | .findUsage => "find_usage"
  | .findRelated => "find_related"
  | .analyzePath => "analyze_path"
  | .explainConcept => "explain_concept"
  | .findGeneral => "find_general"
  | .unknown => "unknown"

/-- All intents in the order of the table. -/
def all : List Intent :=
  [.findFunction, .findClass, .findInterface, .findDependencies, .findUsage, .findRelated,
   .analyzePath, .explainConcept, .findGeneral, .unknown]

/-- The intent of a name. -/
def ofName? (s : String) : Option Intent := all.find? fun i => i.name == s

/-- How sure an intent is before the things asked about are counted. -/
def baseConfidence : Intent → Binary64
  | .findFunction | .findClass | .findInterface => .ofDecimal 8 (-1)
  | .findDependencies | .findUsage => .ofDecimal 75 (-2)
  | .findRelated | .analyzePath => .ofDecimal 7 (-1)
  | .explainConcept => .ofDecimal 6 (-1)
  | .findGeneral => .ofDecimal 5 (-1)
  | .unknown => .ofDecimal 3 (-1)

open Pattern (word wordWith plural)

/-- The patterns of each intent. -/
def patterns : Intent → List Pattern
  | .findFunction =>
    [plural "function", plural "method", word "func", word "fn", plural "handler"]
  | .findClass => [wordWith "class" ["es", ""], plural "component"]
  | .findInterface => [plural "interface", plural "type", plural "contract"]
  | .findDependencies =>
    [wordWith "depend" ["s", "encies", "ency", "ing", ""], plural "import", plural "require",
     [.edge, .text "what does ", .gap, .text " ", .oneOf ["use", "call", "need"], .edge]]
  | .findUsage =>
    [plural "usage", word "used", plural "caller", wordWith "who " ["calls", "uses"],
     wordWith "what " ["calls", "uses"], [.edge, .text "reference", .oneOf ["s", ""], .text " to", .edge]]
  | .findRelated =>
    [word "related", word "connected", word "associated", word "similar",
     [.edge, .text "neighbo", .oneOf ["u", ""], .text "r", .oneOf ["s", ""], .edge]]
  | .analyzePath =>
    [word "path", plural "flow", word "between" ++ .gap :: word "and",
     word "from" ++ .gap :: word "to",
     [.edge, .text "how does ", .gap, .text " reach", .edge]]
  | .explainConcept =>
    [word "explain", word "describe", wordWith "what " ["is", "are"],
     wordWith "how " ["does", "do", "is"], word "why"]
  | .findGeneral =>
    [word "find", word "show", word "list", word "search", word "where", word "get"]
  | .unknown => []

/-- Whether a pattern of the intent occurs in the text. -/
def isAskedBy (text : String) (i : Intent) : Bool := i.patterns.any (·.occursIn text)

/-- The intent of a question. -/
def classify (text : String) : Intent := (all.find? (isAskedBy text)).getD .unknown

end Intent

end CodeAtlas
