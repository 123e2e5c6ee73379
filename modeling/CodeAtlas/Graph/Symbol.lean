/-
# Declared names and their ids

An exported declaration at the top of a file is known by its package and name, so that a reference
from anywhere reconciles with it. Any other declaration is also known by its file, so that helpers of
one name in different files stay apart. A method is known by its class.

Key definitions: `Symbol`, `FileSymbols`, `SymbolMap`, `Scope`, `Scope.topLevelId`,
`Scope.methodId`, `FileSymbols.ofFacts`.
-/
import CodeAtlas.Graph.Written
import CodeAtlas.Source.Declaration

namespace CodeAtlas

/-- A declared name. A method has the id of its class as its owner. -/
structure Symbol where
  kind : NodeKind
  name : String
  id : String
  exported : Bool
  owner : Option String
  deriving DecidableEq

/-- What a file declares. -/
structure FileSymbols where
  package : String
  symbols : List Symbol
  deriving DecidableEq

/-- What files declare, by path. -/
abbrev SymbolMap := SortedMap String FileSymbols

/-- How ids are given to the declarations of a file. -/
structure Scope where
  package : String
  path : String
  exported : List String

namespace Scope

/-- The names that a declaration exports: its own, or those of an export statement without source. -/
def exportedBy : Declaration → List String
  | .function f => if f.className.isNone && f.isExported then [f.name] else []
  | .classType c => if c.isExported then [c.name] else []
  | .interface i => if i.isExported then [i.name] else []
  | .typeAlias t => if t.isExported then [t.name] else []
  | .export e => if e.source.isNone then e.names else []
  | .import _ => []

/-- The scope of a file. -/
def ofFacts (f : FileFacts) : Scope := ⟨f.package, f.path, f.declarations.flatMap exportedBy⟩

/-- Whether the file exports a name. -/
def isExported (s : Scope) (name : String) : Bool := s.exported.contains name

/-- The id of a declaration at the top of the file. -/
def topLevelId (s : Scope) (kind : NodeKind) (name : String) : String :=
  Ident.node kind s.package name (if s.isExported name then none else some s.path)

/-- The id of a class. -/
def classId (s : Scope) (className : String) : String := s.topLevelId .classType className

/-- The id of a method. -/
def methodId (s : Scope) (className name : String) : String :=
  Ident.node .function s.package name
    (some (if s.isExported className then className else s.path ++ "#" ++ className))

/-- The id of a function or method. -/
def functionId (s : Scope) (f : FunctionInfo) : String :=
  match f.className with
  | some className => s.methodId className f.name
  | none => s.topLevelId .function f.name

/-- The symbol of a declaration at the top of the file. -/
def topLevel (s : Scope) (kind : NodeKind) (name : String) : Symbol :=
  ⟨kind, name, s.topLevelId kind name, s.isExported name, none⟩

/-- The symbol that a declaration declares. -/
def symbol? (s : Scope) : Declaration → Option Symbol
  | .function f =>
    match f.className with
    | some className =>
      some ⟨.function, f.name, s.methodId className f.name, false, some (s.classId className)⟩
    | none => some (s.topLevel .function f.name)
  | .classType c => some (s.topLevel .classType c.name)
  | .interface i => some (s.topLevel .interface i.name)
  | .typeAlias t => some (s.topLevel .typeAlias t.name)
  | .import _ | .export _ => none

end Scope

namespace Symbol

/-- The symbol of a document. -/
def ofDocument? (d : Document) : Option Symbol := do
  let f ← Fields.of? ["kind", "name", "id", "exported", "owner"] d
  return {
    kind := ← f.required "kind" NodeKind.ofDocument?
    name := ← f.required "name" Document.string?
    id := ← f.required "id" Document.string?
    exported := ← f.required "exported" Document.bool?
    owner := ← f.withDefault "owner" (Fields.nullable Document.string?) none }

/-- The symbol as JSON; an owner is written only where there is one. -/
def toJson (s : Symbol) : Json :=
  .object
    ([("kind", s.kind.toJson), ("name", .string s.name), ("id", .string s.id),
      ("exported", .bool s.exported)] ++ (s.owner.map fun o => ("owner", Json.string o)).toList)

end Symbol

namespace FileSymbols

/-- What a file declares, from what is known of it. -/
def ofFacts (f : FileFacts) : FileSymbols :=
  ⟨f.package, f.declarations.filterMap (Scope.ofFacts f).symbol?⟩

/-- The symbols of a document. -/
def ofDocument? (d : Document) : Option FileSymbols := do
  let f ← Fields.of? ["package", "symbols"] d
  return {
    package := ← f.required "package" Document.string?
    symbols := ← f.required "symbols" (Document.listOf? Symbol.ofDocument?) }

/-- The symbols as JSON. -/
def toJson (s : FileSymbols) : Json :=
  .object [("package", .string s.package), ("symbols", .array (s.symbols.map Symbol.toJson))]

end FileSymbols

namespace SymbolMap

/-- The symbols of files, by path. -/
def ofFacts (files : List FileFacts) : SymbolMap :=
  .ofList (files.map fun f => (f.path, FileSymbols.ofFacts f))

/-- The symbols as JSON. -/
def toJson (m : SymbolMap) : Json := .object (m.entries.map fun e => (e.1, e.2.toJson))

end SymbolMap

end CodeAtlas
