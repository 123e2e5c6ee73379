/-
# The graph of source files

A file, its declarations, its imports and its exports become nodes, and what they say of each other
becomes relationships. The nodes of a file depend on the file alone. A call, a base class or a type is
a name, which is looked up in an index of declarations; one that is not found there still gets a
relationship, to the node that such a declaration of the same package would have, save that a type
gets none and neither does a call of a well-known method.

Key definitions: `Batch`, `Build.fileNodes`, `Build.fileRelationships`, `Batch.ofFiles`.
-/
import CodeAtlas.Graph.Index
import CodeAtlas.Source.TypeName

namespace CodeAtlas

/-- Nodes and relationships built together. -/
structure Batch where
  nodes : List Node
  relationships : List Relationship
  deriving DecidableEq

namespace Build

/-- The confidence of what the source text states. -/
def structural : Binary64 := .ofDecimal 1 0

/-- The confidence of a reference that was found. -/
def resolvedReference : Binary64 := .ofDecimal 9 (-1)

/-- The confidence of a dependency on a file of the project. -/
def resolvedFile : Binary64 := .ofDecimal 95 (-2)

/-- The confidence of a call that was found. -/
def resolvedCall : Binary64 := .ofDecimal 8 (-1)

/-- The confidence of a base class or interface that was not found. -/
def unresolvedHeritage : Binary64 := .ofDecimal 7 (-1)

/-- The confidence of the use of a type. -/
def typeUsage : Binary64 := .ofDecimal 7 (-1)

/-- The confidence of a call that was not found. -/
def unresolvedCall : Binary64 := .ofDecimal 5 (-1)

/-- Calls that mean nothing where no declaration is found for them. -/
def commonCalls : List String :=
  ["require", "log", "warn", "error", "push", "pop", "map", "filter", "forEach", "reduce", "then",
   "catch", "finally", "toString", "setTimeout", "setInterval", "clearTimeout", "parseInt",
   "parseFloat", "stringify", "parse", "keys", "values", "entries", "resolve", "reject", "slice",
   "splice", "join", "split", "includes", "indexOf", "assign"]

/-- The node of a file. -/
def fileNode (f : FileFacts) : Node :=
  (((((((Node.make (Ident.file f.path) .file
    ((Text.splitOnChar '/' f.path).getLast?.getD f.path)).withProperty "path"
    (.string f.path)).withProperty "file_path"
    (.string f.path)).withProperty "language"
    (.string f.language)).withProperty "hash"
    (.string f.hash)).withProperty "package"
    (.string f.package)).withProperty "line_count" (.nat f.lineCount))

/-- The node of something that a file declares between two lines. -/
def declaredNode (f : FileFacts) (kind : NodeKind) (id name : String) (first last : Nat) : Node :=
  ((((Node.make id kind name).withProperty "file_path"
    (.string f.path)).withProperty "package"
    (.string f.package)).withProperty "line_start"
    (.nat first)).withProperty "line_end" (.nat last)

/-- An object, its keys in order. -/
def record (fields : List (String × Json)) : Json := .ofProperties (.ofList fields)

/-- A parameter in the data of a function. -/
def parameterData (p : Parameter) : Json :=
  record
    [("name", .string p.name), ("type", .optString p.typeName), ("optional", .bool p.optional),
     ("default", .optString p.defaultValue)]

/-- A parameter in a signature. -/
def parameterText (p : Parameter) : String :=
  match p.typeName with
  | some t => p.name ++ ": " ++ t
  | none => p.name

/-- The signature of a function. -/
def signature (f : FunctionInfo) : String :=
  (if f.isAsync then "async " else "") ++ f.name ++ "(" ++
    Text.join ", " (f.params.map parameterText) ++ ")" ++
    (match f.returnType with
      | some r => ": " ++ r
      | none => "")

/-- The node of a function or method. -/
def functionNode (file : FileFacts) (f : FunctionInfo) : Node :=
  let id := (Scope.ofFacts file).functionId f
  let properties : List (String × Json) :=
    [("signature", .string (signature f)), ("async", .bool f.isAsync),
     ("generator", .bool f.isGenerator), ("exported", .bool f.isExported),
     ("static", .bool f.isStatic), ("access", .optString (f.access.map Access.keyword)),
     ("class_name", .optString f.className), ("return_type", .optString f.returnType),
     ("complexity", .nat f.complexity), ("description", .optString f.docstring)]
  let node := properties.foldl (fun n e => n.withProperty e.1 e.2)
    (declaredNode file .function id f.name f.lineStart f.lineEnd)
  (node.withMetadata "params" (.array (f.params.map parameterData))).withMetadata "calls"
    (.strings f.calls)

/-- The node of a class. -/
def classNode (file : FileFacts) (c : ClassInfo) : Node :=
  let id := (Scope.ofFacts file).topLevelId .classType c.name
  let properties : List (String × Json) :=
    [("abstract", .bool c.isAbstract), ("exported", .bool c.isExported),
     ("access", .optString (c.access.map Access.keyword)),
     ("description", .optString c.docstring)]
  let node := properties.foldl (fun n e => n.withProperty e.1 e.2)
    (declaredNode file .classType id c.name c.lineStart c.lineEnd)
  (node.withMetadata "methods" (.strings c.methods)).withMetadata "properties"
    (.strings c.properties)

/-- A member in the data of an interface. -/
def memberData (m : Member) : Json :=
  record
    [("name", .string m.name), ("type", .optString m.typeText), ("optional", .bool m.optional)]

/-- The node of an interface. -/
def interfaceNode (file : FileFacts) (i : InterfaceInfo) : Node :=
  let id := (Scope.ofFacts file).topLevelId .interface i.name
  (((declaredNode file .interface id i.name i.lineStart i.lineEnd).withProperty "exported"
    (.bool i.isExported)).withProperty "description"
    (.optString i.docstring)).withMetadata "members"
    (.array ((i.properties ++ i.methods).map memberData))

/-- The node of a type alias. -/
def aliasNode (file : FileFacts) (t : AliasInfo) : Node :=
  let id := (Scope.ofFacts file).topLevelId .typeAlias t.name
  ((declaredNode file .typeAlias id t.name t.lineStart t.lineEnd).withProperty "definition"
    (.string t.definition)).withProperty "exported" (.bool t.isExported)

/-- The id of an import. -/
def importId (file : FileFacts) (i : ImportInfo) : String :=
  Ident.node .import file.package i.module (some file.path)

/-- An imported name in the data of an import. -/
def specifierData (s : ImportedName) : Json :=
  record [("name", .string s.name), ("alias", .optString s.localName)]

/-- The node of an import. -/
def importNode (file : FileFacts) (i : ImportInfo) : Node :=
  let properties : List (String × Json) :=
    [("module", .string i.module), ("internal", .bool i.isInternal),
     ("kind", .string (Text.join "," (i.kinds.map ImportKind.name))),
     ("file_path", .string file.path), ("line", .nat i.line)]
  (properties.foldl (fun n e => n.withProperty e.1 e.2)
    (Node.make (importId file i) .import i.module)).withMetadata "specifiers"
    (.array (i.specifiers.map specifierData))

/-- The node of a package outside the project. -/
def packageNode (name : String) : Node :=
  (Node.make (Ident.package name) .module name).withProperty "external" (.bool true)

/-- What an export is called. -/
def exportName (e : ExportInfo) : String :=
  if e.names.isEmpty then
    match e.source with
    | some source => "* from " ++ source
    | none => e.kind.name
  else Text.join ", " e.names

/-- The id of an export. -/
def exportId (file : FileFacts) (e : ExportInfo) : String :=
  Ident.node .export file.package (exportName e) (some file.path)

/-- The node of an export. -/
def exportNode (file : FileFacts) (e : ExportInfo) : Node :=
  let properties : List (String × Json) :=
    [("kind", .string e.kind.name), ("source", .optString e.source),
     ("file_path", .string file.path), ("line", .nat e.line)]
  (properties.foldl (fun n p => n.withProperty p.1 p.2)
    (Node.make (exportId file e) .export (exportName e))).withMetadata "names" (.strings e.names)

/-- The package that an import depends on. -/
def importedPackage? (i : ImportInfo) : Option String := i.packageName?

/-- The nodes of a declaration other than an export. -/
def declarationNodes (file : FileFacts) : Declaration → List Node
  | .function f => [functionNode file f]
  | .classType c => [classNode file c]
  | .interface i => [interfaceNode file i]
  | .typeAlias t => [aliasNode file t]
  | .import i => importNode file i :: ((importedPackage? i).map packageNode).toList
  | .export _ => []

/-- The nodes of an export. -/
def exportNodes (file : FileFacts) : Declaration → List Node
  | .export e => [exportNode file e]
  | _ => []

/-- The nodes of a file: the file, its declarations, and its exports after all of them. -/
def fileNodes (file : FileFacts) : List Node :=
  fileNode file :: (file.declarations.flatMap (declarationNodes file) ++
    file.declarations.flatMap (exportNodes file))

/-- A relationship that a line of a file states. -/
def edge (createdAt : Int) (file : FileFacts) (kind : RelationKind) (source target : String)
    (confidence : Binary64) (description : String) (line : Nat) : Relationship :=
  (((((Relationship.make kind source target).withProperty "confidence"
    (.float confidence)).withProperty "created_at"
    (.int createdAt)).withProperty "description"
    (.string description)).withProperty "file_path"
    (.string file.path)).withProperty "line" (.nat line)

/-- What a base class or interface is: the declaration that was found, or else the one that the
package would export by that name. -/
def heritageTarget (found : Option String) (kind : NodeKind) (package name : String) :
    String × Binary64 :=
  match found with
  | some id => (id, resolvedReference)
  | none => (Ident.node kind package name none, unresolvedHeritage)

/-- What a call calls: a method of the same class, a function, or else the function that the package
would export by that name. -/
def callTarget? (ix : SymbolIndex) (file : FileFacts) (classId : Option String) (callee : String) :
    Option (String × Binary64) :=
  match (classId.bind fun id => ix.method? id callee).or
      (ix.function? callee file.package file.path) with
  | some id => some (id, resolvedCall)
  | none =>
    if commonCalls.contains callee then none
    else some (Ident.node .function file.package callee none, unresolvedCall)

/-- The names in the types of a function. -/
def typeNames (f : FunctionInfo) : List String :=
  Text.firstOccurrences
    ((f.params.filterMap (·.typeName) ++ f.returnType.toList).flatMap TypeName.identifiers)

/-- What the body and the types of a function refer to. -/
def functionEdges (createdAt : Int) (ix : SymbolIndex) (file : FileFacts) (f : FunctionInfo) :
    List Relationship :=
  let scope := Scope.ofFacts file
  let id := scope.functionId f
  let classId := f.className.map scope.classId
  (f.calls.filterMap fun callee =>
    (callTarget? ix file classId callee).map fun (target, confidence) =>
      edge createdAt file .calls id target confidence (f.name ++ " calls " ++ callee)
        f.lineStart) ++
  ((typeNames f).filterMap fun name =>
    (ix.type? name file.package file.path).map fun target =>
      edge createdAt file .usesType id target typeUsage (f.name ++ " uses type " ++ name)
        f.lineStart)

/-- Where a function belongs: to its class, or to the file. -/
def functionPlace (createdAt : Int) (file : FileFacts) (f : FunctionInfo) : Relationship :=
  let scope := Scope.ofFacts file
  match f.className with
  | some className =>
    edge createdAt file .hasMethod (scope.classId className) (scope.functionId f) structural
      (className ++ " has method " ++ f.name) f.lineStart
  | none =>
    edge createdAt file .contains (Ident.file file.path) (scope.functionId f) structural
      (file.path ++ " contains function " ++ f.name) f.lineStart

/-- What a class is related to. -/
def classEdges (createdAt : Int) (ix : SymbolIndex) (file : FileFacts) (c : ClassInfo) :
    List Relationship :=
  let id := (Scope.ofFacts file).topLevelId .classType c.name
  edge createdAt file .contains (Ident.file file.path) id structural
    (file.path ++ " contains class " ++ c.name) c.lineStart ::
  ((c.superclass.toList.map fun base =>
    let (target, confidence) :=
      heritageTarget (ix.class? base file.package file.path) .classType file.package base
    edge createdAt file .extends id target confidence (c.name ++ " extends " ++ base) c.lineStart) ++
  c.implements.map fun base =>
    let (target, confidence) :=
      heritageTarget (ix.interface? base file.package file.path) .interface file.package base
    edge createdAt file .implements id target confidence (c.name ++ " implements " ++ base)
      c.lineStart)

/-- What an interface is related to. -/
def interfaceEdges (createdAt : Int) (ix : SymbolIndex) (file : FileFacts) (i : InterfaceInfo) :
    List Relationship :=
  let id := (Scope.ofFacts file).topLevelId .interface i.name
  edge createdAt file .defines (Ident.file file.path) id structural
    (file.path ++ " defines interface " ++ i.name) i.lineStart ::
  i.parents.map fun base =>
    let (target, confidence) :=
      heritageTarget (ix.interface? base file.package file.path) .interface file.package base
    edge createdAt file .extends id target confidence (i.name ++ " extends " ++ base) i.lineStart

/-- What a file depends on by an import: the file it leads to, or a package. -/
def importTarget? (file : FileFacts) (i : ImportInfo) : Option (String × Binary64 × String) :=
  if i.isInternal then
    (file.resolvedImports.lookup i.module).map fun target =>
      (Ident.file target, resolvedFile, file.path ++ " depends on " ++ target)
  else
    (importedPackage? i).map fun package =>
      (Ident.package package, resolvedReference, file.path ++ " depends on package " ++ package)

/-- What an import is related to. -/
def importEdges (createdAt : Int) (file : FileFacts) (i : ImportInfo) : List Relationship :=
  edge createdAt file .imports (Ident.file file.path) (importId file i) structural
    (file.path ++ " imports " ++ i.module) i.line ::
  ((importTarget? file i).map fun (target, confidence, description) =>
    edge createdAt file .dependsOn (Ident.file file.path) target confidence description
      i.line).toList

/-- The relationships of a declaration other than an export. -/
def declarationEdges (createdAt : Int) (ix : SymbolIndex) (file : FileFacts) :
    Declaration → List Relationship
  | .function f => functionPlace createdAt file f :: functionEdges createdAt ix file f
  | .classType c => classEdges createdAt ix file c
  | .interface i => interfaceEdges createdAt ix file i
  | .typeAlias t =>
    [edge createdAt file .defines (Ident.file file.path)
      ((Scope.ofFacts file).topLevelId .typeAlias t.name) structural
      (file.path ++ " defines type " ++ t.name) t.lineStart]
  | .import i => importEdges createdAt file i
  | .export _ => []

/-- The name and id of a declaration at the top of a file. -/
def local? (file : FileFacts) (d : Declaration) : Option (String × String) :=
  if d.isMethod then none else ((Scope.ofFacts file).symbol? d).map fun s => (s.name, s.id)

/-- The id of the last declaration of a name at the top of a file. -/
def localId? (file : FileFacts) (name : String) : Option String :=
  ((file.declarations.filterMap (local? file)).reverse.lookup name)

/-- What an export is related to: the file, and the declarations it exports unless they are those of
another module. -/
def exportEdges (createdAt : Int) (file : FileFacts) : Declaration → List Relationship
  | .export e =>
    edge createdAt file .exports (Ident.file file.path) (exportId file e) structural
      (file.path ++ " exports " ++ exportName e) e.line ::
    (if e.source.isSome then [] else
      e.names.filterMap fun name =>
        (localId? file name).map fun target =>
          edge createdAt file .references (exportId file e) target resolvedReference
            ("export of " ++ name) e.line)
  | _ => []

/-- The relationships of a file, those of its exports after all others. -/
def fileRelationships (createdAt : Int) (ix : SymbolIndex) (file : FileFacts) :
    List Relationship :=
  file.declarations.flatMap (declarationEdges createdAt ix file) ++
    file.declarations.flatMap (exportEdges createdAt file)

/-- The nodes without those whose id came before. -/
def distinctNodes (nodes : List Node) : List Node :=
  (nodes.foldl (fun (kept, seen) n =>
    if seen.contains n.id then (kept, seen) else (n :: kept, seen.insert n.id ()))
    (([], .empty) : List Node × SortedMap String Unit)).1.reverse

end Build

namespace Batch

/-- The graph of files, names being looked up in an index. -/
def ofFilesWith (createdAt : Int) (ix : SymbolIndex) (files : List FileFacts) : Batch where
  nodes := Build.distinctNodes (files.flatMap Build.fileNodes)
  relationships := files.flatMap (Build.fileRelationships createdAt ix)

/-- The graph of files, names being looked up in the files themselves. -/
def ofFiles (createdAt : Int) (files : List FileFacts) : Batch :=
  ofFilesWith createdAt (SymbolIndex.ofFacts files) files

/-- Whether there is neither node nor relationship. -/
def isEmpty (b : Batch) : Bool := b.nodes.isEmpty && b.relationships.isEmpty

end Batch

end CodeAtlas
