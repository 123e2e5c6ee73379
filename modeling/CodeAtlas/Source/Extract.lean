/-
# Declarations of a syntax tree

The declarations are found from the top of the tree down. A declaration, an import and an export
statement is taken as a whole; the body of a namespace is searched, and so is every other node but a
function's body. Below an export statement declarations are exported, but not in a namespace within
it, whose members are exported only by a statement of their own.

A dynamic import is found anywhere, after all else.

Key definitions: `Extract.calls`, `Extract.complexity`, `Extract.documentation?`,
`Extract.functionInfo`, `Extract.classBlock`, `Extract.interface?`, `Extract.import?`,
`Extract.ofTree`, `Extract.declarations`.
-/
import CodeAtlas.Source.Tree
import CodeAtlas.Source.Declaration
import CodeAtlas.Source.TypeName

namespace CodeAtlas.Extract

/-- The name a call is made by: of a function, or of a member of some value. -/
def callee? (call : Tree) : Option String :=
  (call.field? "function").bind fun f =>
    if f.kind == "identifier" then some f.text
    else if f.kind == "member_expression" then f.fieldText? "property"
    else none

/-- The name called by a node, if the node is a call. -/
def called? (t : Tree) : Option String :=
  if t.kind == "call_expression" then callee? t else none

/-- The names called in a tree, each once, in the order in which they first occur. -/
def calls (t : Tree) : List String := Text.firstOccurrences (t.preorder.filterMap called?)

/-- The kinds of nodes that add a path through a function. -/
def branchKinds : List String :=
  ["if_statement", "while_statement", "do_statement", "for_statement", "for_in_statement",
   "switch_case", "catch_clause", "ternary_expression"]

/-- The operators that add a path. -/
def branchOperators : List String := ["&&", "||", "??"]

/-- Whether a node adds a path. -/
def isBranch (t : Tree) : Bool :=
  branchKinds.contains t.kind ||
    (t.kind == "binary_expression" &&
      (t.field? "operator").any fun op => branchOperators.contains op.kind)

/-- The number of paths through a function: one, and one for each branch. -/
def complexity (t : Tree) : Nat := 1 + t.preorder.countP isBranch

/-- The characters after all openings of a documentation comment. -/
def dropOpenings : List Char → List Char
  | '/' :: '*' :: '*' :: rest => dropOpenings rest
  | cs => cs

/-- The characters, in reverse, before all closings of a comment. -/
def dropClosings : List Char → List Char
  | '/' :: '*' :: rest => dropClosings rest
  | cs => cs

/-- A line of a comment without its stars. -/
def docLine (line : String) : String := Text.trim (Text.trimStart (· == '*') (Text.trim line))

/-- The lines of a documentation comment that say something. -/
def docText? (comment : String) : Option String :=
  if !Text.beginsWith "/**" comment then none
  else
    let inner := (dropClosings (dropOpenings comment.toList).reverse).reverse
    let doc := Text.join "\n"
      (((Text.lines (String.ofList inner)).map docLine).filter (· != ""))
    if doc == "" then none else some doc

/-- The documentation given by the node before a declaration. -/
def documentation? (before : Option Tree) : Option String :=
  before.bind fun t => if t.kind == "comment" then docText? t.text else none

/-- The text of a type annotation after its colon. -/
def annotation? (t : Tree) : Option String :=
  let text := Text.trim (Text.trimStart (· == ':') t.text)
  if text == "" then none else some text

/-- The name of a type without its arguments. -/
def baseType? (t : Tree) : Option String :=
  TypeName.base? (if t.kind == "generic_type" then (t.field? "name").getD t else t).text

/-- The access that a modifier gives. -/
def access? (t : Tree) : Option Access :=
  (t.childOfKind? "accessibility_modifier").bind fun m => Access.ofKeyword? m.text

/-- A parameter of a parameter list. -/
def parameter? (t : Tree) : Option Parameter :=
  if t.kind == "required_parameter" || t.kind == "optional_parameter" then
    let default := t.fieldText? "value"
    some {
      name := (((t.field? "pattern").or (t.childOfKind? "identifier")).map Tree.text).getD "_"
      typeName := (t.field? "type").bind annotation?
      optional := t.kind == "optional_parameter" || default.isSome
      defaultValue := default }
  else if t.kind == "identifier" then some ⟨t.text, none, false, none⟩
  else none

/-- The parameters of a function; one that has no list may have a single one. -/
def parameters (f : Tree) : List Parameter :=
  match f.field? "parameters" with
  | some list => list.namedChildren.filterMap parameter?
  | none => ((f.fieldText? "parameter").map fun name => ⟨name, none, false, none⟩).toList

/-- A function declared by `decl`, with the signature and body of `f`; `before` is the node that may
hold its documentation. -/
def functionInfo (decl f : Tree) (before : Option Tree) (name : String) (exported : Bool)
    (className : Option String) : FunctionInfo where
  name := name
  params := parameters f
  returnType := (f.field? "return_type").bind annotation?
  isAsync := f.hasChildOfKind "async"
  isGenerator := Text.beginsWith "generator" f.kind || f.hasChildOfKind "*"
  isExported := exported
  isStatic := f.hasChildOfKind "static"
  access := access? f
  className := className
  lineStart := decl.firstLine
  lineEnd := decl.lastLine
  calls := ((f.field? "body").map calls).getD []
  complexity := complexity f
  docstring := documentation? before

/-- A function declaration. -/
def function? (t : Tree) (before : Option Tree) (exported : Bool) : Option FunctionInfo :=
  (t.fieldText? "name").map fun name => functionInfo t t before name exported none

/-- The elements with the one before each. -/
def withBefore (before : Option Tree) : List Tree → List (Option Tree × Tree)
  | [] => []
  | t :: rest => (before, t) :: withBefore (some t) rest

/-- The kinds of nodes that are methods of a class. -/
def methodKinds : List String :=
  ["method_definition", "abstract_method_signature", "method_signature"]

/-- The method that a member of a class declares. -/
def method? (className : String) (member : Option Tree × Tree) : Option FunctionInfo :=
  if methodKinds.contains member.2.kind then
    (member.2.fieldText? "name").map fun name =>
      functionInfo member.2 member.2 member.1 name false (some className)
  else none

/-- The property that a member of a class declares. -/
def property? (member : Tree) : Option String :=
  if member.kind == "public_field_definition" || member.kind == "field_definition" then
    ((member.field? "name").or (member.field? "property")).map Tree.text
  else none

/-- The clauses of what a class extends and implements. -/
def heritage (t : Tree) : List Tree := ((t.childOfKind? "class_heritage").map Tree.children).getD []

/-- The class that a class extends, by the last clause that says so. -/
def superclass? (t : Tree) : Option String :=
  ((heritage t).filter (·.kind == "extends_clause")).getLast?.bind fun clause =>
    (clause.field? "value").bind baseType?

/-- The interfaces that a class implements. -/
def implemented (t : Tree) : List String :=
  ((heritage t).filter (·.kind == "implements_clause")).flatMap fun clause =>
    clause.namedChildren.filterMap baseType?

/-- The members of a class, interface or namespace. -/
def members (t : Tree) : List Tree := ((t.field? "body").map Tree.children).getD []

/-- A class and its methods after it. -/
def classBlock (t : Tree) (before : Option Tree) (exported : Bool) : List Declaration :=
  match t.fieldText? "name" with
  | none => []
  | some name =>
    let methods := (withBefore none (members t)).filterMap (method? name)
    let info : ClassInfo := {
      name := name
      isAbstract := t.kind == "abstract_class_declaration" || t.hasChildOfKind "abstract"
      isExported := exported
      superclass := superclass? t
      implements := implemented t
      methods := methods.map (·.name)
      properties := (members t).filterMap property?
      access := access? t
      lineStart := t.firstLine
      lineEnd := t.lastLine
      docstring := documentation? before }
    .classType info :: methods.map .function

/-- A property of an interface. -/
def propertySignature? (t : Tree) : Option Member :=
  if t.kind == "property_signature" then
    (t.fieldText? "name").map fun name =>
      ⟨name, (t.field? "type").bind annotation?, t.hasChildOfKind "?"⟩
  else none

/-- A method of an interface, with its text up to the mark that ends it. -/
def methodSignature? (t : Tree) : Option Member :=
  if t.kind == "method_signature" then
    (t.fieldText? "name").map fun name =>
      ⟨name, some (Text.trimEnd (fun c => c == ';' || c == ',') t.text), t.hasChildOfKind "?"⟩
  else none

/-- An interface. -/
def interface? (t : Tree) (before : Option Tree) (exported : Bool) : Option InterfaceInfo :=
  (t.fieldText? "name").map fun name =>
    let members := (members t).filter (·.label.isNamed)
    { name := name
      isExported := exported
      parents := ((t.childOfKind? "extends_type_clause").map fun clause =>
        clause.namedChildren.filterMap baseType?).getD []
      properties := members.filterMap propertySignature?
      methods := members.filterMap methodSignature?
      lineStart := t.firstLine
      lineEnd := t.lastLine
      docstring := documentation? before }

/-- A type alias. -/
def alias? (t : Tree) (exported : Bool) : Option AliasInfo :=
  (t.fieldText? "name").map fun name =>
    ⟨name, (t.fieldText? "value").getD "", exported, t.firstLine, t.lastLine⟩

/-- A name in the braces of an import. -/
def specifier? (t : Tree) : Option ImportedName :=
  if t.kind == "import_specifier" then
    (t.fieldText? "name").map fun name => ⟨name, t.fieldText? "alias"⟩
  else none

/-- What a part of an import clause brings in. -/
def importPart (t : Tree) : List ImportKind × List ImportedName :=
  if t.kind == "identifier" then ([.default], [⟨t.text, none⟩])
  else if t.kind == "namespace_import" then
    ([.wholeModule], ((t.childOfKind? "identifier").map fun i => ⟨"*", some i.text⟩).toList)
  else if t.kind == "named_imports" then ([.named], t.namedChildren.filterMap specifier?)
  else ([], [])

/-- An import statement. -/
def import? (t : Tree) : Option ImportInfo :=
  ((t.field? "source").or (t.childOfKind? "string")).map fun literal =>
    let module := unquote literal.text
    let parts :=
      (((t.childOfKind? "import_clause").map Tree.namedChildren).getD []).map importPart
    let kinds := parts.flatMap Prod.fst
    { module := module
      kinds := if kinds.isEmpty then [.sideEffect] else kinds
      specifiers := parts.flatMap Prod.snd
      isInternal := ImportInfo.isInternalReference module
      line := t.firstLine }

/-- The literal that a dynamic import is given. -/
def dynamicModule? (t : Tree) : Option String :=
  if t.kind == "call_expression" && (t.field? "function").any (·.kind == "import") then
    ((t.field? "arguments").bind (·.namedChildren.head?)).bind fun arg =>
      if arg.kind == "string" then some (unquote arg.text) else none
  else none

/-- A dynamic import. -/
def dynamicImport? (t : Tree) : Option ImportInfo :=
  (dynamicModule? t).map fun module =>
    ⟨module, [.dynamic], [], ImportInfo.isInternalReference module, t.firstLine⟩

/-- The kinds of values that are functions. -/
def functionKinds : List String :=
  ["arrow_function", "function_expression", "function", "generator_function"]

/-- The function that a variable is given. -/
def boundFunction? (decl : Tree) (before : Option Tree) (exported : Bool) (t : Tree) :
    Option FunctionInfo :=
  if t.kind == "variable_declarator" then
    (t.fieldText? "name").bind fun name =>
      (t.field? "value").bind fun value =>
        if functionKinds.contains value.kind then
          some (functionInfo decl value before name exported none)
        else none
  else none

/-- The names that an export statement exports by declaring them. -/
def exportedNames (declared : List Declaration) : List String :=
  (declared.filter fun d => !d.isMethod).filterMap Declaration.name?

/-- Whether a node is a namespace. -/
def isNamespace (kind : String) : Bool := kind == "internal_module" || kind == "module"

/-- What an export statement with a declaration says, given what is declared in it. -/
def exportOfDeclaration (t declaration : Tree) (declared : List Declaration) : ExportInfo where
  kind := if t.hasChildOfKind "default" then .default else .declaration
  names :=
    if isNamespace declaration.kind then
      ((declaration.fieldText? "name").map unquote).toList
    else exportedNames declared
  source := none
  line := t.firstLine

/-- What an export statement without a declaration says. -/
def exportOfNames? (t : Tree) : Option ExportInfo :=
  let source := (t.fieldText? "source").map unquote
  match t.childOfKind? "export_clause" with
  | some clause =>
    some ⟨.named, (clause.namedChildren.filter (·.kind == "export_specifier")).filterMap
      (·.fieldText? "name"), source, t.firstLine⟩
  | none =>
    if t.hasChildOfKind "*" || t.hasChildOfKind "namespace_export" then
      some ⟨.all, [], source, t.firstLine⟩
    else if t.hasChildOfKind "default" then
      let names := (((t.field? "value").filter (·.kind == "identifier")).map Tree.text).toList
      some ⟨.default, names, none, t.firstLine⟩
    else none

/-- The kinds of nodes that are not searched. -/
def closedKinds : List String :=
  ["statement_block", "arrow_function", "function_expression", "function"]

/-- What the children of a node have before them for their documentation: where the node is an export
statement, what stands before it, and otherwise each child's own neighbour. -/
def above (kind : String) (before : Option Tree) : Option (Option Tree) :=
  if kind == "export_statement" then some before else none

mutual

/-- The declarations of a node. `before` stands before it, and `documented` before the statement it
belongs to. -/
def ofTree (exported : Bool) (before documented : Option Tree) : Tree → List Declaration
  | .node l cs =>
    let t := Tree.node l cs
    let kind := l.kind
    if kind == "function_declaration" || kind == "generator_function_declaration" then
      ((function? t documented exported).map .function).toList
    else if kind == "class_declaration" || kind == "abstract_class_declaration" then
      classBlock t documented exported
    else if kind == "interface_declaration" then
      ((interface? t documented exported).map .interface).toList
    else if kind == "type_alias_declaration" then ((alias? t exported).map .typeAlias).toList
    else if kind == "import_statement" then ((import? t).map .import).toList
    else if kind == "export_statement" then
      match t.field? "declaration" with
      | some declaration =>
        let declared := ofChildren true (some before) none cs
        declared ++ [.export (exportOfDeclaration t declaration declared)]
      | none => ((exportOfNames? t).map .export).toList
    else if kind == "lexical_declaration" || kind == "variable_declaration" then
      (cs.filterMap (boundFunction? t documented exported)).map .function
    else if isNamespace kind then
      match l.fields.lookup "body" with
      | some position => ofChildAt position none cs
      | none => []
    else if closedKinds.contains kind then []
    else ofChildren exported none none cs

/-- The declarations of the children of a node, the first of which has `before` before it. -/
def ofChildren (exported : Bool) (above : Option (Option Tree)) (before : Option Tree) :
    List Tree → List Declaration
  | [] => []
  | t :: rest =>
    ofTree exported before (above.getD before) t ++ ofChildren exported above (some t) rest

/-- The declarations in the child at a position, none of which is exported by what is around it. -/
def ofChildAt (position : Nat) (before : Option Tree) : List Tree → List Declaration
  | [] => []
  | .node l cs :: rest =>
    match position with
    | 0 => ofChildren false (above l.kind before) none cs
    | position + 1 => ofChildAt position (some (.node l cs)) rest

end

/-- The declarations of a source file. -/
def declarations (root : Tree) : List Declaration :=
  ofChildren false (above root.kind none) none root.children ++
    (root.preorder.filterMap dynamicImport?).map .import

end CodeAtlas.Extract
