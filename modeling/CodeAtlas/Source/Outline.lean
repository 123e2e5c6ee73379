/-
# Outlines of source texts

A reader for texts whose tree is not known. It makes out functions, variables that are given functions,
what is exported of them, their parameters, and the calls that are made; whatever else a text holds is
in the tree as its tokens.

Key definitions: `Source.Piece`, `Source.expression`, `Source.statement`, `Source.outline`.
-/
import CodeAtlas.Source.Token
import CodeAtlas.Source.Tree

namespace CodeAtlas.Source

/-- A tree and the part of the text that it covers. -/
structure Piece where
  tree : Tree
  start : Nat
  stop : Nat

/-- The kind of node that a token is. -/
def nodeKind (t : Token) : String :=
  match t.kind with
  | .word => if keywords.contains (String.ofList t.text) then String.ofList t.text else "identifier"
  | .number => "number"
  | .quoted => "string"
  | .comment => "comment"
  | .mark => String.ofList t.text
where
  /-- The words that are no names. -/
  keywords : List String :=
    ["async", "await", "class", "const", "default", "else", "export", "for", "from", "function", "if",
     "import", "let", "new", "return", "var", "while"]

/-- A token as a piece. -/
def leaf (t : Token) : Piece :=
  let kind := nodeKind t
  let named := t.kind != .mark && (t.kind != .word || kind == "identifier")
  ⟨.node ⟨kind, named, String.ofList t.text, t.firstRow, t.lastRow, []⟩ [], t.start, t.stop⟩

/-- A part of a node: a piece, and its role if it has one. -/
abbrev Part := Option String × Piece

/-- The part without a role. -/
def plainPart (p : Piece) : Part := (none, p)

/-- The roles of parts by position. -/
def roles (parts : List Part) : List (String × Nat) :=
  parts.zipIdx.filterMap fun (part, i) => part.1.map fun role => (role, i)

/-- The node of the given parts, over all they cover. -/
def inner (source : List Char) (kind : String) (first : Piece) (rest : List Part)
    (firstRole : Option String) : Piece :=
  let parts := (firstRole, first) :: rest
  let last := (rest.getLast?.map Prod.snd).getD first
  let text := String.ofList ((source.drop first.start).take (last.stop - first.start))
  ⟨.node ⟨kind, true, text, first.tree.label.firstRow, last.tree.label.lastRow, roles parts⟩
    (parts.map (·.2.tree)), first.start, last.stop⟩

/-- Whether a token is the given word or mark. -/
def isText (s : String) (t : Token) : Bool := t.text == s.toList

/-- Whether a mark comes next. -/
def startsWith (s : String) (ts : List Token) : Bool := ts.head?.any (isText s)

/-- How a token changes the number of open brackets. -/
def depthAfter (depth : Nat) (t : Token) : Nat :=
  if ["(", "[", "\x7b"].any fun s => isText s t then depth + 1
  else if [")", "]", "\x7d"].any fun s => isText s t then depth - 1
  else depth

/-- The tokens up to one outside brackets that satisfies `stop`, and from there on. -/
def upTo (stop : Token → Bool) (depth : Nat) : List Token → List Token × List Token
  | [] => ([], [])
  | t :: rest =>
    if depth = 0 ∧ stop t then ([], t :: rest)
    else
      let (before, after) := upTo stop (depthAfter depth t) rest
      (t :: before, after)

/-- What follows the bracket that closes an open one. -/
def afterClosing (ts : List Token) : List Token := (upTo (isText ")") 0 ts).2.drop 1

/-- Whether the arrow of a function comes after its parameters, with or without a type. -/
def isArrowNext (ts : List Token) : Bool :=
  startsWith "=>" ts ||
    (startsWith ":" ts && startsWith "=>" (upTo (fun t => isText "=>" t || isText ";" t) 0 ts).2)

/-- A node over tokens as they are. -/
def group? (source : List Char) (kind : String) : List Token → Option Piece
  | [] => none
  | t :: rest => some (inner source kind (leaf t) (rest.map fun t => plainPart (leaf t)) none)

/-- A parameter of a list. -/
def parameter? (source : List Char) (ts : List Token) : Option Piece :=
  let (pattern, rest) := upTo (fun t => isText ":" t || isText "=" t || isText "?" t) 0 ts
  let (mark, rest) := if startsWith "?" rest then (rest.take 1, rest.drop 1) else ([], rest)
  let (type, rest) :=
    if startsWith ":" rest then upTo (isText "=") 0 rest else ([], rest)
  let name := match pattern with
    | [t] => some (leaf t)
    | ts => group? source "object_pattern" ts
  name.map fun name =>
    let kind := if mark.isEmpty then "required_parameter" else "optional_parameter"
    let parts := mark.map (fun t => plainPart (leaf t)) ++
      ((group? source "type_annotation" type).map fun p => (some "type", p)).toList ++
      (match rest with
        | eq :: value =>
          plainPart (leaf eq) ::
            ((group? source "expression" value).map fun p => (some "value", p)).toList
        | [] => [])
    inner source kind name parts (some "pattern")

/-- The parameters between commas. -/
def parameters (source : List Char) : Nat → List Token → List Part
  | 0, _ => []
  | fuel + 1, ts =>
    let (first, rest) := upTo (isText ",") 0 ts
    ((parameter? source first).map plainPart).toList ++
      (match rest with
        | comma :: rest => plainPart (leaf comma) :: parameters source fuel rest
        | [] => [])

/-- A list of parameters in brackets, and what follows it. -/
def parameterList? (source : List Char) : List Token → Option (Piece × List Token)
  | [] => none
  | t :: rest =>
    let (within, after) := upTo (isText ")") 0 rest
    match after with
    | close :: after =>
      if isText "(" t then
        some (inner source "formal_parameters" (leaf t)
          (parameters source (within.length + 1) within ++ [plainPart (leaf close)]) none, after)
      else none
    | [] => none

/-- The type after a list of parameters, if there is one, up to what ends it. -/
def returnType (source : List Char) (stop : String) (ts : List Token) : List Part × List Token :=
  if startsWith ":" ts then
    let (type, rest) := upTo (isText stop) 0 ts
    (((group? source "type_annotation" type).map fun p => (some "return_type", p)).toList, rest)
  else ([], ts)

/-- The words in front of a function, and what follows them. -/
def leading (words : List String) : List Token → List Part × List Token
  | [] => ([], [])
  | t :: rest =>
    if words.any fun w => isText w t then
      let (parts, rest) := leading words rest
      (plainPart (leaf t) :: parts, rest)
    else ([], t :: rest)

/-- The node of some parts, if there are any. -/
def ofParts? (source : List Char) (kind : String) : List Part → Option Piece
  | [] => none
  | (role, first) :: rest => some (inner source kind first rest role)

mutual

/-- A function with its name, if it has one, its parameters and its body. -/
def function? (source : List Char) (isDeclared : Bool) :
    Nat → List Token → Option (Piece × List Token)
  | 0, _ => none
  | fuel + 1, ts => do
    let (words, rest) := leading ["async", "function", "*"] ts
    if !(words.any fun w => w.2.tree.kind == "function") then none
    let isGenerator := words.any fun w => w.2.tree.kind == "*"
    let (name, rest) : List Part × List Token := match rest with
      | t :: after =>
        if t.kind = .word then ([(some "name", leaf t)], after) else ([], t :: after)
      | [] => ([], [])
    if isDeclared && name.isEmpty then none
    let (list, rest) ← parameterList? source rest
    let (type, rest) := returnType source "\x7b" rest
    let (body, rest) ← block? source fuel rest
    let kind := if isGenerator then "generator_function" else "function"
    let kind := if isDeclared then kind ++ "_declaration"
      else if isGenerator then kind else "function_expression"
    let parts := words ++ name ++ [(some "parameters", list)] ++ type ++ [(some "body", body)]
    return (← ofParts? source kind parts, rest)

/-- An arrow function. -/
def arrow? (source : List Char) : Nat → List Token → Option (Piece × List Token)
  | 0, _ => none
  | fuel + 1, ts => do
    let (words, rest) := leading ["async"] ts
    let found : Option (List Part × List Token) := match rest with
      | t :: after =>
        if isText "(" t && isArrowNext (afterClosing after) then
          (parameterList? source rest).map fun (list, rest) =>
            let (type, rest) := returnType source "=>" rest
            ((some "parameters", list) :: type, rest)
        else if t.kind = .word && startsWith "=>" after then
          some ([(some "parameter", leaf t)], after)
        else none
      | [] => none
    let (params, rest) ← found
    match rest with
    | [] => none
    | arrow :: rest =>
      let (body, rest) ←
        if startsWith "\x7b" rest then block? source fuel rest else expression source fuel rest
      let parts := words ++ params ++ [plainPart (leaf arrow), (some "body", body)]
      return (← ofParts? source "arrow_function" parts, rest)

/-- A value: a function, or tokens with the calls among them. -/
def expression (source : List Char) : Nat → List Token → Option (Piece × List Token)
  | 0, _ => none
  | fuel + 1, ts =>
    match arrow? source fuel ts with
    | some found => some found
    | none =>
      match function? source false fuel ts with
      | some found => some found
      | none => do
        let (parts, rest) := operands source fuel ts
        match parts with
        | [(_, p)] => return (p, rest)
        | parts => return (← ofParts? source "expression" parts, rest)

/-- The parts of a value up to what ends it. -/
def operands (source : List Char) : Nat → List Token → List Part × List Token
  | 0, ts => ([], ts)
  | _, [] => ([], [])
  | fuel + 1, t :: rest =>
    if [",", ";", ")", "]", "\x7d"].any fun s => isText s t then ([], t :: rest)
    else if ["(", "[", "\x7b"].any fun s => isText s t then
      let (p, rest) := bracket source fuel t rest
      let (p, rest) := chain source fuel p rest
      let (parts, rest) := operands source fuel rest
      (plainPart p :: parts, rest)
    else
      let (p, rest) := chain source fuel (leaf t) rest
      let (parts, rest) := operands source fuel rest
      (plainPart p :: parts, rest)

/-- What stands between an open bracket and the one that closes it. -/
def bracket (source : List Char) : Nat → Token → List Token → Piece × List Token
  | 0, t, ts => (leaf t, ts)
  | fuel + 1, t, ts =>
    let (parts, rest) := arguments source fuel ts
    let (close, rest) := (rest.take 1, rest.drop 1)
    let kind := if isText "(" t then "arguments" else if isText "[" t then "array" else "object"
    (inner source kind (leaf t) (parts ++ close.map fun c => plainPart (leaf c)) none, rest)

/-- The values between commas. -/
def arguments (source : List Char) : Nat → List Token → List Part × List Token
  | 0, ts => ([], ts)
  | fuel + 1, ts =>
    if startsWith "," ts || startsWith ";" ts then
      let (parts, rest) := arguments source fuel (ts.drop 1)
      ((ts.take 1).map (fun t => plainPart (leaf t)) ++ parts, rest)
    else match expression source fuel ts with
      | none => ([], ts)
      | some (p, rest) =>
        let (parts, rest) := arguments source fuel rest
        (plainPart p :: parts, rest)

/-- A name or a value with the members and calls that follow it. -/
def chain (source : List Char) : Nat → Piece → List Token → Piece × List Token
  | 0, p, ts => (p, ts)
  | fuel + 1, p, ts =>
    match ts with
    | dot :: name :: rest =>
      if isText "." dot && name.kind = .word then
        let property := inner source "property_identifier" (leaf name) [] none
        chain source fuel
          (inner source "member_expression" p
            [plainPart (leaf dot), (some "property", property)] (some "object")) rest
      else if isText "(" dot && p.tree.label.isNamed then
        let (args, rest) := bracket source fuel dot (name :: rest)
        chain source fuel
          (inner source "call_expression" p [(some "arguments", args)] (some "function")) rest
      else (p, ts)
    | _ => (p, ts)

/-- Statements in braces. -/
def block? (source : List Char) : Nat → List Token → Option (Piece × List Token)
  | 0, _ => none
  | _, [] => none
  | fuel + 1, t :: rest =>
    if isText "\x7b" t then
      let (parts, rest) := statements source fuel rest
      some (inner source "statement_block" (leaf t)
        (parts ++ (rest.take 1).map fun c => plainPart (leaf c)) none, rest.drop 1)
    else none

/-- Statements up to the end or a closing brace. -/
def statements (source : List Char) : Nat → List Token → List Part × List Token
  | 0, ts => ([], ts)
  | _, [] => ([], [])
  | fuel + 1, t :: rest =>
    if isText "\x7d" t then ([], t :: rest)
    else
      let (p, rest) := statement source fuel t rest
      let (parts, rest) := statements source fuel rest
      (plainPart p :: parts, rest)

/-- One statement. -/
def statement (source : List Char) : Nat → Token → List Token → Piece × List Token
  | 0, t, ts => (leaf t, ts)
  | fuel + 1, t, rest =>
    if isText "export" t then
      let (words, after) := leading ["default"] rest
      match declaration? source fuel after with
      | some (p, after) =>
        (inner source "export_statement" (leaf t) (words ++ [(some "declaration", p)]) none, after)
      | none => (leaf t, rest)
    else match declaration? source fuel (t :: rest) with
      | some found => found
      | none =>
        match expression source fuel (t :: rest) with
        | some (p, rest) =>
          (inner source "expression_statement" p
            ((rest.take 1).filter (isText ";") |>.map fun c => plainPart (leaf c)) none,
            if startsWith ";" rest then rest.drop 1 else rest)
        | none => (leaf t, rest)

/-- A function or variables with what they are given. -/
def declaration? (source : List Char) : Nat → List Token → Option (Piece × List Token)
  | 0, _ => none
  | _, [] => none
  | fuel + 1, t :: rest =>
    if ["const", "let", "var"].any fun s => isText s t then
      let (parts, rest) := declarators source fuel rest
      let kind := if isText "var" t then "variable_declaration" else "lexical_declaration"
      some (inner source kind (leaf t) parts none, rest)
    else function? source true fuel (t :: rest)

/-- Variables between commas, up to the end of their statement. -/
def declarators (source : List Char) : Nat → List Token → List Part × List Token
  | 0, ts => ([], ts)
  | fuel + 1, ts =>
    let (head, rest) := upTo (fun t => isText "=" t || isText "," t || isText ";" t) 0 ts
    let (value, rest) := match rest with
      | eq :: after =>
        if isText "=" eq then
          match expression source fuel after with
          | some (p, rest) => ([plainPart (leaf eq), (some "value", p)], rest)
          | none => ([plainPart (leaf eq)], after)
        else ([], rest)
      | [] => ([], [])
    let declared := match head with
      | name :: type => ((ofParts? source "variable_declarator"
          ([(some "name", leaf name)] ++
            ((group? source "type_annotation" type).map fun p => (some "type", p)).toList ++ value)).map
          plainPart).toList
      | [] => []
    match rest with
    | t :: after =>
      if isText "," t then
        let (parts, rest) := declarators source fuel after
        (declared ++ plainPart (leaf t) :: parts, rest)
      else if isText ";" t then (declared ++ [plainPart (leaf t)], after)
      else (declared, rest)
    | [] => (declared, [])

end

/-- The nodes of the statements of a text. -/
def topLevel (source : List Char) : Nat → List Token → List Tree
  | 0, _ => []
  | _, [] => []
  | fuel + 1, t :: rest =>
    if t.kind = .comment then (leaf t).tree :: topLevel source fuel rest
    else
      let (p, rest) := statement source (8 * rest.length + 16) t rest
      p.tree :: topLevel source fuel rest

/-- The tree of what can be made out in a text. -/
def outline (text : String) : Tree :=
  let source := text.toList
  let ts := tokens source
  .node ⟨"program", true, text, 0, source.count '\n', []⟩ (topLevel source (ts.length + 1) ts)

end CodeAtlas.Source
