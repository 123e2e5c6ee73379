/-
# Reading source texts

Reading a text with a grammar is a function that the library is given, and that may give no tree; what a
file declares is found in the tree. A reader may know the trees of some texts beforehand; others it has
to read.

Key definitions: `Reader`, `Sample`, `Sample.reader`, `FileFacts.read`.
-/
import CodeAtlas.Fault
import CodeAtlas.Graph.Ident
import CodeAtlas.Project.Path
import CodeAtlas.Source.Extract
import CodeAtlas.Source.Grammar
import CodeAtlas.Text.Printable

namespace CodeAtlas

/-- Reads a source text with a grammar, unless it gives up. -/
abbrev Reader := Grammar → String → Option Tree

/-- A text with the tree it has in a grammar. -/
structure Sample where
  grammar : Grammar
  text : String
  tree : Tree

namespace Sample

/-- Reads texts by the known trees, and others by `otherwise`. -/
def reader (otherwise : String → Tree) (samples : List Sample) : Reader := fun grammar text =>
  match samples.find? fun s => s.grammar = grammar && s.text == text with
  | some s => some s.tree
  | none => some (otherwise text)

end Sample

namespace FileFacts

/-- What the source text of a file declares, or why it cannot be read. The package and the resolved
imports are not known from the text. -/
def read (reader : Reader) (path source : String) : Except Fault FileFacts :=
  let ext := (Path.extension? path).getD ""
  let fail (message : String) : Except Fault FileFacts :=
    .error (.parse (Path.slashed path) message)
  match Grammar.ofExtension? ext with
  | none => fail ("unsupported file extension: " ++ Text.quoted ext)
  | some grammar =>
    match reader grammar source with
    | none => fail "parser returned no tree"
    | some tree =>
      .ok {
        path := Path.slashed path
        language := languageOf ext
        hash := contentHash (Ident.bytes source)
        package := ""
        lineCount := (Text.lineChars source.toList).length
        declarations := Extract.declarations tree
        resolvedImports := [] }

end FileFacts

end CodeAtlas
