/-
# Declarations as JSON

How declarations and what is known of a file are written as JSON, and how they are read. A declaration
is a record of its fields with a tag beside them, or a list with the tag in front.

Key definitions: `Declaration.tag`, `Declaration.fields`, `Declaration.ofTagged?`,
`Declaration.ofDocument?`, `FileFacts.ofDocument?`.
-/
import CodeAtlas.Source.Declaration
import CodeAtlas.Json.Fields

namespace CodeAtlas

/-- A line or a count below `2 ^ 32`. -/
def Document.word? (d : Document) : Option Nat := d.natBelow? 32

/-- The element of a list that a document names. -/
def Document.named? {α : Type} (name : α → String) (all : List α) (d : Document) : Option α :=
  d.name?.bind fun s => all.find? fun a => name a == s

namespace Parameter

/-- The parameter of a document. -/
def ofDocument? (d : Document) : Option Parameter := do
  let f ← Fields.of? ["name", "type_name", "optional", "default_value"] d
  return {
    name := ← f.required "name" Document.string?
    typeName := ← f.optional "type_name" Document.string?
    optional := ← f.required "optional" Document.bool?
    defaultValue := ← f.optional "default_value" Document.string? }

/-- The parameter as JSON. -/
def toJson (p : Parameter) : Json :=
  .object
    [("name", .string p.name), ("type_name", .optString p.typeName), ("optional", .bool p.optional),
     ("default_value", .optString p.defaultValue)]

end Parameter

namespace Access

/-- The access a document names. -/
def ofDocument? (d : Document) : Option Access := d.named? keyword all

/-- The access as JSON. -/
def toJson (a : Access) : Json := .string a.keyword

/-- The access as JSON, or null. -/
def optJson (a : Option Access) : Json := .optString (a.map keyword)

end Access

namespace FunctionInfo

/-- The function of a document. -/
def ofDocument? (d : Document) : Option FunctionInfo := do
  let f ← Fields.of?
    ["name", "params", "return_type", "is_async", "is_generator", "is_exported", "is_static",
     "access", "class_name", "line_start", "line_end", "calls", "complexity", "docstring"] d
  return {
    name := ← f.required "name" Document.string?
    params := ← f.required "params" (Document.listOf? Parameter.ofDocument?)
    returnType := ← f.optional "return_type" Document.string?
    isAsync := ← f.required "is_async" Document.bool?
    isGenerator := ← f.required "is_generator" Document.bool?
    isExported := ← f.required "is_exported" Document.bool?
    isStatic := ← f.required "is_static" Document.bool?
    access := ← f.optional "access" Access.ofDocument?
    className := ← f.optional "class_name" Document.string?
    lineStart := ← f.required "line_start" Document.word?
    lineEnd := ← f.required "line_end" Document.word?
    calls := ← f.required "calls" Document.strings?
    complexity := ← f.required "complexity" Document.word?
    docstring := ← f.optional "docstring" Document.string? }

/-- The fields of a function as JSON. -/
def fields (f : FunctionInfo) : List (String × Json) :=
  [("name", .string f.name), ("params", .array (f.params.map Parameter.toJson)),
   ("return_type", .optString f.returnType), ("is_async", .bool f.isAsync),
   ("is_generator", .bool f.isGenerator), ("is_exported", .bool f.isExported),
   ("is_static", .bool f.isStatic), ("access", Access.optJson f.access),
   ("class_name", .optString f.className), ("line_start", .nat f.lineStart),
   ("line_end", .nat f.lineEnd), ("calls", .strings f.calls), ("complexity", .nat f.complexity),
   ("docstring", .optString f.docstring)]

end FunctionInfo

namespace ClassInfo

/-- The class of a document. -/
def ofDocument? (d : Document) : Option ClassInfo := do
  let f ← Fields.of?
    ["name", "is_abstract", "is_exported", "superclass", "implements", "methods", "properties",
     "access", "line_start", "line_end", "docstring"] d
  return {
    name := ← f.required "name" Document.string?
    isAbstract := ← f.required "is_abstract" Document.bool?
    isExported := ← f.required "is_exported" Document.bool?
    superclass := ← f.optional "superclass" Document.string?
    implements := ← f.required "implements" Document.strings?
    methods := ← f.required "methods" Document.strings?
    properties := ← f.required "properties" Document.strings?
    access := ← f.optional "access" Access.ofDocument?
    lineStart := ← f.required "line_start" Document.word?
    lineEnd := ← f.required "line_end" Document.word?
    docstring := ← f.optional "docstring" Document.string? }

/-- The fields of a class as JSON. -/
def fields (c : ClassInfo) : List (String × Json) :=
  [("name", .string c.name), ("is_abstract", .bool c.isAbstract),
   ("is_exported", .bool c.isExported), ("superclass", .optString c.superclass),
   ("implements", .strings c.implements), ("methods", .strings c.methods),
   ("properties", .strings c.properties), ("access", Access.optJson c.access),
   ("line_start", .nat c.lineStart), ("line_end", .nat c.lineEnd),
   ("docstring", .optString c.docstring)]

end ClassInfo

namespace Member

/-- The member of a document. -/
def ofDocument? (d : Document) : Option Member := do
  let f ← Fields.of? ["name", "type_text", "optional"] d
  return {
    name := ← f.required "name" Document.string?
    typeText := ← f.optional "type_text" Document.string?
    optional := ← f.required "optional" Document.bool? }

/-- The member as JSON. -/
def toJson (m : Member) : Json :=
  .object
    [("name", .string m.name), ("type_text", .optString m.typeText), ("optional", .bool m.optional)]

end Member

namespace InterfaceInfo

/-- The interface of a document. -/
def ofDocument? (d : Document) : Option InterfaceInfo := do
  let f ← Fields.of?
    ["name", "is_exported", "extends", "properties", "methods", "line_start", "line_end",
     "docstring"] d
  return {
    name := ← f.required "name" Document.string?
    isExported := ← f.required "is_exported" Document.bool?
    parents := ← f.required "extends" Document.strings?
    properties := ← f.required "properties" (Document.listOf? Member.ofDocument?)
    methods := ← f.required "methods" (Document.listOf? Member.ofDocument?)
    lineStart := ← f.required "line_start" Document.word?
    lineEnd := ← f.required "line_end" Document.word?
    docstring := ← f.optional "docstring" Document.string? }

/-- The fields of an interface as JSON. -/
def fields (i : InterfaceInfo) : List (String × Json) :=
  [("name", .string i.name), ("is_exported", .bool i.isExported), ("extends", .strings i.parents),
   ("properties", .array (i.properties.map Member.toJson)),
   ("methods", .array (i.methods.map Member.toJson)), ("line_start", .nat i.lineStart),
   ("line_end", .nat i.lineEnd), ("docstring", .optString i.docstring)]

end InterfaceInfo

namespace AliasInfo

/-- The type alias of a document. -/
def ofDocument? (d : Document) : Option AliasInfo := do
  let f ← Fields.of? ["name", "definition", "is_exported", "line_start", "line_end"] d
  return {
    name := ← f.required "name" Document.string?
    definition := ← f.required "definition" Document.string?
    isExported := ← f.required "is_exported" Document.bool?
    lineStart := ← f.required "line_start" Document.word?
    lineEnd := ← f.required "line_end" Document.word? }

/-- The fields of a type alias as JSON. -/
def fields (t : AliasInfo) : List (String × Json) :=
  [("name", .string t.name), ("definition", .string t.definition),
   ("is_exported", .bool t.isExported), ("line_start", .nat t.lineStart),
   ("line_end", .nat t.lineEnd)]

end AliasInfo

namespace ImportKind

/-- The kind a document names. -/
def ofDocument? (d : Document) : Option ImportKind := d.named? name all

/-- The kind as JSON. -/
def toJson (k : ImportKind) : Json := .string k.name

end ImportKind

namespace ImportedName

/-- The imported name of a document. -/
def ofDocument? (d : Document) : Option ImportedName := do
  let f ← Fields.of? ["name", "alias"] d
  return {
    name := ← f.required "name" Document.string?
    localName := ← f.optional "alias" Document.string? }

/-- The imported name as JSON. -/
def toJson (s : ImportedName) : Json :=
  .object [("name", .string s.name), ("alias", .optString s.localName)]

end ImportedName

namespace ImportInfo

/-- The import of a document. -/
def ofDocument? (d : Document) : Option ImportInfo := do
  let f ← Fields.of? ["module", "kinds", "specifiers", "is_internal", "line"] d
  return {
    module := ← f.required "module" Document.string?
    kinds := ← f.required "kinds" (Document.listOf? ImportKind.ofDocument?)
    specifiers := ← f.required "specifiers" (Document.listOf? ImportedName.ofDocument?)
    isInternal := ← f.required "is_internal" Document.bool?
    line := ← f.required "line" Document.word? }

/-- The fields of an import as JSON. -/
def fields (i : ImportInfo) : List (String × Json) :=
  [("module", .string i.module), ("kinds", .array (i.kinds.map ImportKind.toJson)),
   ("specifiers", .array (i.specifiers.map ImportedName.toJson)),
   ("is_internal", .bool i.isInternal), ("line", .nat i.line)]

end ImportInfo

namespace ExportKind

/-- The kind a document names. -/
def ofDocument? (d : Document) : Option ExportKind := d.named? name kinds

/-- The kind as JSON. -/
def toJson (k : ExportKind) : Json := .string k.name

end ExportKind

namespace ExportInfo

/-- The export of a document. -/
def ofDocument? (d : Document) : Option ExportInfo := do
  let f ← Fields.of? ["kind", "names", "source", "line"] d
  return {
    kind := ← f.required "kind" ExportKind.ofDocument?
    names := ← f.required "names" Document.strings?
    source := ← f.optional "source" Document.string?
    line := ← f.required "line" Document.word? }

/-- The fields of an export as JSON. -/
def fields (e : ExportInfo) : List (String × Json) :=
  [("kind", e.kind.toJson), ("names", .strings e.names), ("source", .optString e.source),
   ("line", .nat e.line)]

end ExportInfo

namespace Declaration

/-- The tag of each kind of declaration. -/
def tag : Declaration → String
  | .function _ => "function"
  | .classType _ => "class"
  | .interface _ => "interface"
  | .typeAlias _ => "type_alias"
  | .import _ => "import"
  | .export _ => "export"

/-- The fields of a declaration as JSON. -/
def fields : Declaration → List (String × Json)
  | .function f => f.fields
  | .classType c => c.fields
  | .interface i => i.fields
  | .typeAlias t => t.fields
  | .import i => i.fields
  | .export e => e.fields

/-- The declaration as JSON, its tag under the given key. -/
def toJson (key : String) (d : Declaration) : Json := .object ((key, .string d.tag) :: d.fields)

/-- The declaration of a tag and the fields in a document. -/
def ofTagged? (tag : String) (d : Document) : Option Declaration :=
  if tag == "function" then (FunctionInfo.ofDocument? d).map .function
  else if tag == "class" then (ClassInfo.ofDocument? d).map .classType
  else if tag == "interface" then (InterfaceInfo.ofDocument? d).map .interface
  else if tag == "type_alias" then (AliasInfo.ofDocument? d).map .typeAlias
  else if tag == "import" then (ImportInfo.ofDocument? d).map .import
  else if tag == "export" then (ExportInfo.ofDocument? d).map .export
  else none

/-- The tag of a declaration. -/
def tagKey : String := "kind"

/-- The tag of a document and what is left of it: a record without its tag, which it must have once,
or a list without its first element. -/
def untag? : Document → Option (String × Document)
  | .record fields =>
    match fields.filter fun f => f.1 == some tagKey with
    | [(_, .text (some tag))] => some (tag, .record (fields.filter fun f => f.1 != some tagKey))
    | _ => none
  | .list (.text (some tag) :: rest) => some (tag, .list rest)
  | _ => none

/-- The declaration of a document. All of the document must be sound, with `depth` levels left, also
what is passed over. -/
def ofDocument? (depth : Nat) (d : Document) : Option Declaration :=
  if (d.json? depth).isSome then (untag? d).bind fun (tag, rest) => ofTagged? tag rest else none

end Declaration

namespace FileFacts

/-- A pair of texts. -/
def pair? : Document → Option (String × String)
  | .list [a, b] => do return (← a.string?, ← b.string?)
  | _ => none

/-- What a document says of a file, with `depth` levels left. -/
def ofDocument? (depth : Nat) (d : Document) : Option FileFacts := do
  let f ← Fields.of?
    ["path", "language", "hash", "package", "line_count", "declarations", "resolved_imports"] d
  return {
    path := ← f.required "path" Document.string?
    language := ← f.required "language" Document.string?
    hash := ← f.required "hash" Document.string?
    package := ← f.required "package" Document.string?
    lineCount := ← f.required "line_count" Document.word?
    declarations := ← f.required "declarations"
      (Document.listOf? (Declaration.ofDocument? (depth - 2)))
    resolvedImports := ← f.required "resolved_imports" (Document.listOf? pair?) }

/-- What is known of a file as JSON, the tags of its declarations under the given key. -/
def toJson (key : String) (f : FileFacts) : Json :=
  .object
    [("path", .string f.path), ("language", .string f.language), ("hash", .string f.hash),
     ("package", .string f.package), ("line_count", .nat f.lineCount),
     ("declarations", .array (f.declarations.map (Declaration.toJson key))),
     ("resolved_imports",
       .array (f.resolvedImports.map fun (module, path) => .strings [module, path]))]

end FileFacts

end CodeAtlas
