/-
# Syntax trees

The tree of a source text, as the grammar of its language makes it. A node has a kind, its text and
the rows it spans, and all its children in order; the tokens of the grammar are nodes too, but have no
name of their own, and comments are named nodes. A field gives a child a role.

A tree is also given as the list of its nodes, each before its children, with the position of its
parent. Taken from the last node to the first, the children of a node are the trees in front that name
it as their parent.

Key definitions: `Tree`, `Tree.field?`, `Tree.preorder`, `Tree.Entry`, `Tree.ofEntries?`.
-/
import CodeAtlas.Text.Blank

namespace CodeAtlas

namespace Tree

/-- What a node is apart from its children. A field gives the position of its child. -/
structure Label where
  kind : String
  isNamed : Bool
  text : String
  firstRow : Nat
  lastRow : Nat
  fields : List (String × Nat)
  deriving DecidableEq, Inhabited

end Tree

/-- A syntax tree. -/
inductive Tree where
  | node (label : Tree.Label) (children : List Tree)

namespace Tree

/-- The node without its children. -/
def label : Tree → Label
  | node l _ => l

/-- All children in order. -/
def children : Tree → List Tree
  | node _ cs => cs

/-- The kind of the node. -/
def kind (t : Tree) : String := t.label.kind

/-- The text the node covers. -/
def text (t : Tree) : String := t.label.text

/-- The number of its first line. -/
def firstLine (t : Tree) : Nat := t.label.firstRow + 1

/-- The number of its last line. -/
def lastLine (t : Tree) : Nat := t.label.lastRow + 1

/-- The children that are named nodes. -/
def namedChildren (t : Tree) : List Tree := t.children.filter (·.label.isNamed)

/-- The child in the given role. -/
def field? (t : Tree) (name : String) : Option Tree :=
  (t.label.fields.lookup name).bind (t.children[·]?)

/-- The text of the child in the given role. -/
def fieldText? (t : Tree) (name : String) : Option String := (t.field? name).map text

/-- The first child of a kind. -/
def childOfKind? (t : Tree) (kind : String) : Option Tree := t.children.find? (·.kind == kind)

/-- Whether there is a child of a kind. -/
def hasChildOfKind (t : Tree) (kind : String) : Bool := t.children.any (·.kind == kind)

mutual

/-- All nodes, each before its children. -/
def preorder : Tree → List Tree
  | node l cs => node l cs :: preorderAll cs

/-- All nodes of several trees, one tree after the other. -/
def preorderAll : List Tree → List Tree
  | [] => []
  | t :: ts => preorder t ++ preorderAll ts

end

/-- A node given by its place: the bytes of the source text that it covers, and the position of its
parent in the list of nodes. -/
structure Entry where
  kind : String
  isNamed : Bool
  start : Nat
  stop : Nat
  firstRow : Nat
  lastRow : Nat
  parent : Int
  fields : List (String × Nat)

/-- The text of a range of bytes. -/
def slice (source : ByteArray) (start stop : Nat) : String :=
  (String.fromUTF8? (source.extract start stop)).getD ""

/-- The label of a node given by its place. -/
def Entry.label (source : ByteArray) (e : Entry) : Label :=
  ⟨e.kind, e.isNamed, slice source e.start e.stop, e.firstRow, e.lastRow, e.fields⟩

/-- Takes a node in front of trees that wait for their parents: the trees that name it as their
parent become its children. -/
def attach (source : ByteArray) (e : Entry) (position : Nat) (waiting : List (Int × Tree)) :
    List (Int × Tree) :=
  let mine := waiting.takeWhile (·.1 == (position : Int))
  let rest := waiting.dropWhile (·.1 == (position : Int))
  (e.parent, node (e.label source) (mine.map Prod.snd)) :: rest

/-- The tree of the nodes of a source text. -/
def ofEntries? (source : String) (entries : List Entry) : Option Tree :=
  let bytes := source.toUTF8
  match entries.zipIdx.foldr (fun e waiting => attach bytes e.1 e.2 waiting) [] with
  | [(_, root)] => some root
  | _ => none

end Tree

end CodeAtlas
