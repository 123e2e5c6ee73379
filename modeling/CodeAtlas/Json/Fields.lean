/-
# Records read by field

A value of several fields is written as a record, by name, or as a list, by position. In a record a
field must not occur twice and fields of other names are passed over; a list must not be longer than
there are fields. A field that may be absent from a record may still be due in a list.

Key definitions: `Fields`, `Fields.of?`, `Fields.required`, `Fields.optional`, `Fields.withDefault`.
-/
import CodeAtlas.Json.Document

namespace CodeAtlas

/-- The fields of a value: by name, or by position in the order of the names. -/
inductive Fields where
  | named (values : List (Option String × Document))
  | listed (names : List String) (values : List Document)

namespace Fields

/-- Whether no field of that name occurs twice. -/
def isSingle (values : List (Option String × Document)) (name : String) : Bool :=
  (values.filter fun v => v.1 == some name).length ≤ 1

/-- The fields of the given names. -/
def of? (names : List String) : Document → Option Fields
  | .record values =>
    if values.all (·.1.isSome) && names.all (isSingle values) then some (.named values) else none
  | .list values => if values.length ≤ names.length then some (.listed names values) else none
  | _ => none

/-- What is given for a field. -/
def value? (key : String) : Fields → Option Document
  | .named values => (values.find? fun v => v.1 == some key).map Prod.snd
  | .listed names values => ((names.zip values).find? fun v => v.1 == key).map Prod.snd

/-- Whether the fields are given by name. -/
def isNamed : Fields → Bool
  | .named _ => true
  | .listed .. => false

/-- A field that must be given. -/
def required {α : Type} (f : Fields) (key : String) (read : Document → Option α) : Option α :=
  (f.value? key).bind read

/-- A value, or null for none. -/
def nullable {α : Type} (read : Document → Option α) : Document → Option (Option α)
  | .null => some none
  | d => (read d).map some

/-- A field that may be null, or absent from a record. -/
def optional {α : Type} (f : Fields) (key : String) (read : Document → Option α) :
    Option (Option α) :=
  match f.value? key with
  | some d => nullable read d
  | none => if f.isNamed then some none else none

/-- A field that stands for `default` where it is not given. -/
def withDefault {α : Type} (f : Fields) (key : String) (read : Document → Option α) (default : α) :
    Option α :=
  match f.value? key with
  | some d => read d
  | none => some default

end Fields

namespace Document

/-- A list of values of one type. -/
def listOf? {α : Type} (read : Document → Option α) (d : Document) : Option (List α) :=
  d.items?.bind (·.mapM read)

/-- The entries of a map with values of one type; the last value of a key counts. -/
def mapOf? {α : Type} (read : Document → Option α) : Document → Option (SortedMap String α)
  | .record fields =>
    (fields.mapM fun (f : Option String × Document) => do
      return (← f.1, ← read f.2)).map SortedMap.ofList
  | _ => none

/-- One of several names: as a text, or as the only field of a record, with null as its value. -/
def name? : Document → Option String
  | .text s => s
  | .record [(key, .null)] => key
  | _ => none

end Document

end CodeAtlas
