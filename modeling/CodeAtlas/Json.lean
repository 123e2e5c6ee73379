/-
# JSON values

Properties of nodes and relationships hold JSON values. A number is a whole number or a 64-bit
floating-point number, and an object keeps its fields in the order given; a map of properties holds
them by ascending key.

Key definitions: `Number`, `Json`, `Properties`, `Json.string?`, `Json.int?`, `Json.nat?`,
`Json.float?`.
-/
import CodeAtlas.Binary64
import CodeAtlas.SortedMap

namespace CodeAtlas

/-- A JSON number. -/
inductive Number where
  | whole (value : Int)
  | float (value : Binary64)
  deriving DecidableEq

/-- A JSON value. -/
inductive Json where
  | null
  | bool (value : Bool)
  | number (value : Number)
  | string (value : String)
  | array (items : List Json)
  | object (fields : List (String × Json))

instance : Inhabited Json := ⟨.null⟩

/-- Attributes by name. -/
abbrev Properties := SortedMap String Json

namespace Number

/-- The number as a floating-point number. -/
def toFloat : Number → Binary64
  | .whole n => Binary64.ofInt n
  | .float x => x

end Number

namespace Json

mutual

/-- Equality of values is decidable. -/
def decEq : (a b : Json) → Decidable (a = b)
  | .null, .null => isTrue rfl
  | .bool a, .bool b =>
    if h : a = b then isTrue (h ▸ rfl) else isFalse fun e => h (Json.bool.inj e)
  | .number a, .number b =>
    if h : a = b then isTrue (h ▸ rfl) else isFalse fun e => h (Json.number.inj e)
  | .string a, .string b =>
    if h : a = b then isTrue (h ▸ rfl) else isFalse fun e => h (Json.string.inj e)
  | .array a, .array b =>
    match decEqItems a b with
    | isTrue h => isTrue (h ▸ rfl)
    | isFalse h => isFalse fun e => h (Json.array.inj e)
  | .object a, .object b =>
    match decEqFields a b with
    | isTrue h => isTrue (h ▸ rfl)
    | isFalse h => isFalse fun e => h (Json.object.inj e)
  | .null, .bool _ | .null, .number _ | .null, .string _ | .null, .array _ | .null, .object _
  | .bool _, .null | .bool _, .number _ | .bool _, .string _ | .bool _, .array _
  | .bool _, .object _ | .number _, .null | .number _, .bool _ | .number _, .string _
  | .number _, .array _ | .number _, .object _ | .string _, .null | .string _, .bool _
  | .string _, .number _ | .string _, .array _ | .string _, .object _ | .array _, .null
  | .array _, .bool _ | .array _, .number _ | .array _, .string _ | .array _, .object _
  | .object _, .null | .object _, .bool _ | .object _, .number _ | .object _, .string _
  | .object _, .array _ => isFalse nofun

/-- Equality of lists of values is decidable. -/
def decEqItems : (a b : List Json) → Decidable (a = b)
  | [], [] => isTrue rfl
  | [], _ :: _ | _ :: _, [] => isFalse nofun
  | a :: as, b :: bs =>
    match decEq a b, decEqItems as bs with
    | isTrue h, isTrue h' => isTrue (h ▸ h' ▸ rfl)
    | isFalse h, _ => isFalse fun e => h (List.cons.inj e).1
    | _, isFalse h => isFalse fun e => h (List.cons.inj e).2

/-- Equality of lists of fields is decidable. -/
def decEqFields : (a b : List (String × Json)) → Decidable (a = b)
  | [], [] => isTrue rfl
  | [], _ :: _ | _ :: _, [] => isFalse nofun
  | (k, a) :: as, (l, b) :: bs =>
    if hk : k = l then
      match decEq a b, decEqFields as bs with
      | isTrue h, isTrue h' => isTrue (hk ▸ h ▸ h' ▸ rfl)
      | isFalse h, _ => isFalse fun e => h (Prod.mk.inj (List.cons.inj e).1).2
      | _, isFalse h => isFalse fun e => h (List.cons.inj e).2
    else isFalse fun e => hk (Prod.mk.inj (List.cons.inj e).1).1

end

instance : DecidableEq Json := decEq

/-- A whole number. -/
def int (n : Int) : Json := .number (.whole n)

/-- A natural number. -/
def nat (n : Nat) : Json := .number (.whole n)

/-- A floating-point number. -/
def float (x : Binary64) : Json := .number (.float x)

/-- A list of texts. -/
def strings (items : List String) : Json := .array (items.map .string)

/-- A text, or null. -/
def optString : Option String → Json
  | some s => .string s
  | none => .null

/-- A map of properties as an object. -/
def ofProperties (p : Properties) : Json := .object p.entries

/-- The text, if the value is one. -/
def string? : Json → Option String
  | .string s => some s
  | _ => none

/-- The truth value, if the value is one. -/
def bool? : Json → Option Bool
  | .bool b => some b
  | _ => none

/-- The items, if the value is a list. -/
def items? : Json → Option (List Json)
  | .array items => some items
  | _ => none

/-- The whole number, if the value is one in the range of signed 64-bit integers. -/
def int? : Json → Option Int
  | .number (.whole n) => if Word.isSigned n then some n else none
  | _ => none

/-- The natural number, if the value is one in the range of unsigned 64-bit integers. -/
def nat? : Json → Option Nat
  | .number (.whole n) => if Word.isUnsigned 64 n then some n.toNat else none
  | _ => none

/-- The number as a floating-point number, if the value is one. -/
def float? : Json → Option Binary64
  | .number n => some n.toFloat
  | _ => none

/-- The value of the field `key`, if the value is an object that has it. -/
def field? (key : String) : Json → Option Json
  | .object fields => fields.lookup key
  | _ => none

end Json

end CodeAtlas
