/-
# Declarations

What a source file declares: functions and methods, classes, interfaces, type aliases, imports and
exports, each with what the graph records of it.

Key definitions: `Declaration`, `FunctionInfo`, `ClassInfo`, `InterfaceInfo`, `AliasInfo`,
`ImportInfo`, `ExportInfo`, `FileFacts`.
-/
import CodeAtlas.Text.Blank

namespace CodeAtlas

/-- A parameter of a function. -/
structure Parameter where
  name : String
  typeName : Option String
  optional : Bool
  defaultValue : Option String
  deriving DecidableEq

/-- Who may use a member of a class: everyone, the class alone, or it and its subclasses. -/
inductive Access where
  | everyone
  | ownClass
  | subclasses
  deriving DecidableEq

namespace Access

/-- The keyword. -/
def keyword : Access → String
  | .everyone => "public"
  | .ownClass => "private"
  | .subclasses => "protected"

/-- All keywords. -/
def all : List Access := [.everyone, .ownClass, .subclasses]

/-- The access of a keyword, white space around it apart. -/
def ofKeyword? (s : String) : Option Access := all.find? fun a => a.keyword == Text.trim s

end Access

/-- A function or, with the name of its class, a method. -/
structure FunctionInfo where
  name : String
  params : List Parameter
  returnType : Option String
  isAsync : Bool
  isGenerator : Bool
  isExported : Bool
  isStatic : Bool
  access : Option Access
  className : Option String
  lineStart : Nat
  lineEnd : Nat
  calls : List String
  complexity : Nat
  docstring : Option String
  deriving DecidableEq

/-- A class, with the names of its methods and properties. -/
structure ClassInfo where
  name : String
  isAbstract : Bool
  isExported : Bool
  superclass : Option String
  implements : List String
  methods : List String
  properties : List String
  access : Option Access
  lineStart : Nat
  lineEnd : Nat
  docstring : Option String
  deriving DecidableEq

/-- A property or method of an interface. -/
structure Member where
  name : String
  typeText : Option String
  optional : Bool
  deriving DecidableEq

/-- An interface. -/
structure InterfaceInfo where
  name : String
  isExported : Bool
  parents : List String
  properties : List Member
  methods : List Member
  lineStart : Nat
  lineEnd : Nat
  docstring : Option String
  deriving DecidableEq

/-- A type alias. -/
structure AliasInfo where
  name : String
  definition : String
  isExported : Bool
  lineStart : Nat
  lineEnd : Nat
  deriving DecidableEq

/-- What an import brings in. -/
inductive ImportKind where
  | default
  | named
  | wholeModule
  | dynamic
  | sideEffect
  deriving DecidableEq

namespace ImportKind

/-- The name of the kind. -/
def name : ImportKind → String
  | .default => "default"
  | .named => "named"
  | .wholeModule => "namespace"
  | .dynamic => "dynamic"
  | .sideEffect => "side_effect"

/-- All kinds. -/
def all : List ImportKind := [.default, .named, .wholeModule, .dynamic, .sideEffect]

end ImportKind

/-- A name that an import brings in, and the name it is given. -/
structure ImportedName where
  name : String
  localName : Option String
  deriving DecidableEq

/-- An import, with the module as it is written. -/
structure ImportInfo where
  module : String
  kinds : List ImportKind
  specifiers : List ImportedName
  isInternal : Bool
  line : Nat
  deriving DecidableEq

namespace ImportInfo

/-- Whether a module is written as a path within the project. -/
def isInternalReference (module : String) : Bool :=
  Text.beginsWith "./" module || Text.beginsWith "../" module || Text.beginsWith "/" module ||
    module == "." || module == ".."

/-- The package of a module outside the project: the part before the first slash, or before the second
where the first part is a scope. -/
def packageName? (i : ImportInfo) : Option String :=
  if i.isInternal then none
  else match Text.splitOnChar '/' i.module with
    | [] => none
    | first :: rest =>
      if Text.beginsWith "@" first then rest.head?.map fun second => first ++ "/" ++ second
      else some first

end ImportInfo

/-- What an export statement exports: a default value, named declarations, all of another module, or
what it declares itself. -/
inductive ExportKind where
  | default
  | named
  | all
  | declaration
  deriving DecidableEq

namespace ExportKind

/-- The name of the kind. -/
def name : ExportKind → String
  | .default => "default"
  | .named => "named"
  | .all => "all"
  | .declaration => "declaration"

/-- The kinds. -/
def kinds : List ExportKind := [.default, .named, .all, .declaration]

end ExportKind

/-- An export statement, with the names as they are known in the file. -/
structure ExportInfo where
  kind : ExportKind
  names : List String
  source : Option String
  line : Nat
  deriving DecidableEq

/-- A fact of a source file. -/
inductive Declaration where
  | function (info : FunctionInfo)
  | classType (info : ClassInfo)
  | interface (info : InterfaceInfo)
  | typeAlias (info : AliasInfo)
  | import (info : ImportInfo)
  | export (info : ExportInfo)
  deriving DecidableEq

namespace Declaration

/-- The name that is declared. -/
def name? : Declaration → Option String
  | .function f => some f.name
  | .classType c => some c.name
  | .interface i => some i.name
  | .typeAlias t => some t.name
  | .import _ | .export _ => none

/-- Whether the declaration is a method of a class. -/
def isMethod : Declaration → Bool
  | .function f => f.className.isSome
  | _ => false

/-- The import, if the declaration is one. -/
def import? : Declaration → Option ImportInfo
  | .import i => some i
  | _ => none

/-- The function, if the declaration is one. -/
def function? : Declaration → Option FunctionInfo
  | .function f => some f
  | _ => none

end Declaration

/-- What is known of a source file: its path within the project, its language, the hash of its content,
the package it belongs to, its declarations, and the files its internal imports lead to. -/
structure FileFacts where
  path : String
  language : String
  hash : String
  package : String
  lineCount : Nat
  declarations : List Declaration
  resolvedImports : List (String × String)
  deriving DecidableEq

namespace FileFacts

/-- The imports of the file. -/
def imports (f : FileFacts) : List ImportInfo := f.declarations.filterMap Declaration.import?

end FileFacts

end CodeAtlas
