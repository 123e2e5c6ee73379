/-
# Finding declarations by name

A name in a source file stands for a declaration of that name: one of the same file, or else one that
the same package exports, or any package, or else one of the same package that is not exported. Among
several of one rank the first by package and path is taken.

Key definitions: `Candidate`, `SymbolIndex`, `SymbolIndex.candidates`, `SymbolIndex.pick`,
`SymbolIndex.find?`, `SymbolIndex.method?`.
-/
import CodeAtlas.Graph.Symbol
import CodeAtlas.Ordered

namespace CodeAtlas

/-- A declaration that a name may stand for. -/
structure Candidate where
  kind : NodeKind
  name : String
  package : String
  path : String
  exported : Bool
  id : String
  deriving DecidableEq

namespace Candidate

/-- The order by package, path, whether it is exported, and id. -/
def compare (a b : Candidate) : Ordering :=
  (Ord.compare a.package b.package).then
    ((Ord.compare a.path b.path).then
      ((Ord.compare a.exported.toNat b.exported.toNat).then (Ord.compare a.id b.id)))

/-- The candidate of a symbol of a file. -/
def ofSymbol (path : String) (file : FileSymbols) (s : Symbol) : Candidate :=
  ⟨s.kind, s.name, file.package, path, s.exported, s.id⟩

/-- The candidates without those whose id came before. -/
def distinct (l : List Candidate) : List Candidate :=
  l.foldl (fun kept c => if kept.any (·.id == c.id) then kept else kept ++ [c]) []

end Candidate

/-- A method of a class, by the id of the class. -/
structure MethodEntry where
  owner : String
  name : String
  id : String
  deriving DecidableEq

/-- The declarations that names are looked up in. -/
structure SymbolIndex where
  declared : List Candidate
  methods : List MethodEntry
  deriving DecidableEq

namespace SymbolIndex

/-- The declarations of files in their order. -/
def ofFiles (files : List (String × FileSymbols)) : SymbolIndex where
  declared := files.flatMap fun (path, file) =>
    (file.symbols.filter (·.owner.isNone)).map (Candidate.ofSymbol path file)
  methods := files.flatMap fun (_, file) =>
    file.symbols.filterMap fun s => s.owner.map fun owner => ⟨owner, s.name, s.id⟩

/-- The declarations of a map of symbols. -/
def ofMap (m : SymbolMap) : SymbolIndex := ofFiles m.entries

/-- The declarations of parsed files. -/
def ofFacts (files : List FileFacts) : SymbolIndex := ofMap (SymbolMap.ofFacts files)

/-- The declarations of a name and certain kinds, each id once, in order. -/
def candidates (ix : SymbolIndex) (kinds : List NodeKind) (name : String) : List Candidate :=
  Ordered.sort (fun a b => (a.compare b).isLE)
    (Candidate.distinct (ix.declared.filter fun c => kinds.contains c.kind && c.name == name))

/-- The preferred one of several candidates, seen from a file of a package. -/
def pick (l : List Candidate) (package path : String) : Option Candidate :=
  (l.find? (·.path == path)).or
    ((l.find? fun c => c.exported && c.package == package).or
      ((l.find? (·.exported)).or (l.find? (·.package == package))))

/-- The id of what a name stands for. -/
def find? (ix : SymbolIndex) (kinds : List NodeKind) (name package path : String) :
    Option String :=
  (pick (ix.candidates kinds name) package path).map Candidate.id

/-- The id of a function. -/
def function? (ix : SymbolIndex) : String → String → String → Option String := ix.find? [.function]

/-- The id of a class. -/
def class? (ix : SymbolIndex) : String → String → String → Option String := ix.find? [.classType]

/-- The id of an interface. -/
def interface? (ix : SymbolIndex) : String → String → String → Option String :=
  ix.find? [.interface]

/-- The id of a class, an interface or a type alias. -/
def type? (ix : SymbolIndex) : String → String → String → Option String :=
  ix.find? [.classType, .interface, .typeAlias]

/-- The id of a method of a class, by the last entry for it. -/
def method? (ix : SymbolIndex) (owner name : String) : Option String :=
  (ix.methods.reverse.find? fun m => m.owner == owner && m.name == name).map MethodEntry.id

end SymbolIndex

end CodeAtlas
