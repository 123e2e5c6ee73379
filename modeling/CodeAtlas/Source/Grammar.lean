/-
# Languages and their grammars

The extension of a file tells its language and the grammar it is read with.

Key definitions: `Grammar`, `Grammar.ofExtension?`, `languageOf`, `contentHash`.
-/
import CodeAtlas.Sha256
import CodeAtlas.Text.Casing

namespace CodeAtlas

/-- A grammar that source texts are read with. -/
inductive Grammar where
  | typeScript
  | tsx
  deriving DecidableEq

namespace Grammar

/-- The name of the grammar. -/
def name : Grammar → String
  | .typeScript => "TypeScript"
  | .tsx => "Tsx"

/-- The grammar for files with an extension. -/
def ofExtension? (ext : String) : Option Grammar :=
  let ext := Text.lower ext
  if ["ts", "mts", "cts", "js", "mjs", "cjs"].contains ext then some .typeScript
  else if ["tsx", "jsx"].contains ext then some .tsx
  else none

end Grammar

/-- The language of files with an extension. -/
def languageOf (ext : String) : String :=
  if ["js", "jsx", "mjs", "cjs"].contains (Text.lower ext) then "javascript" else "typescript"

/-- The hash of a content. -/
def contentHash (bytes : List UInt8) : String := Sha256.hex bytes

end CodeAtlas
