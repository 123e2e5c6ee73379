/-
# What an id is a digest of

An id shows a digest, so two things can have one id for two reasons: their inputs are the same, or the
digest makes one of two inputs. The first happens only where it is meant to. The fields are read back
from the input, since each says how long it is (`Ident.encode_injective`), and from the fields what they
define is read back (`Ident.Subject.ofFields?_fields`): four fields are a node and three a relationship.
Only a node without a mark and one with an empty mark are not told apart.

Key definitions: `Ident.Subject`, `Ident.Subject.input`, `Ident.Subject.settled`.
Key theorems: `Ident.Subject.ofFields?_fields`, `Ident.Subject.input_exact`.
-/
import CodeAtlas.Proofs.Batching
import CodeAtlas.Proofs.Identity

namespace CodeAtlas.Ident

/-- What has an id, by what defines it. -/
inductive Subject where
  | node (kind : NodeKind) (space name : String) (mark : Option String)
  | relationship (kind : RelationKind) (source target : String)
  deriving DecidableEq

namespace Subject

def id : Subject → String
  | .node kind space name mark => Ident.node kind space name mark
  | .relationship kind source target => Ident.relationship kind source target

/-- What the id begins with. -/
def tag : Subject → String
  | .node kind .. => kind.tag
  | .relationship .. => "rel"

def fields : Subject → List String
  | .node kind space name mark => nodeFields kind space name mark
  | .relationship kind source target => relationshipFields kind source target

/-- The bytes that are digested. -/
def input (a : Subject) : List UInt8 := encode a.fields

/-- The texts that are given, next to the kind. -/
def texts : Subject → List String
  | .node _ space name mark => [space, name, mark.getD ""]
  | .relationship _ source target => [source, target]

/-- The given texts are short enough for their lengths to be written. -/
def Fits (a : Subject) : Prop := ∀ s ∈ a.texts, Ident.Fits s

instance (a : Subject) : Decidable a.Fits := inferInstanceAs (Decidable (∀ s ∈ a.texts, Ident.Fits s))

/-- The same, with an empty mark where there is none. -/
def settled : Subject → Subject
  | .node kind space name mark => .node kind space name (some (mark.getD ""))
  | .relationship kind source target => .relationship kind source target

/-- What the fields define. -/
def ofFields? : List String → Option Subject
  | [kind, space, name, mark] =>
    (NodeKind.named? kind).map fun k => .node k space name (some mark)
  | [kind, source, target] =>
    (RelationKind.named? kind).map fun k => .relationship k source target
  | _ => none

variable {a b : Subject}

theorem toList_id (a : Subject) : a.id.toList = a.tag.toList ++ ':' :: digest a.input := by
  cases a <;> exact toList_ofFields ..

theorem fields_settled (a : Subject) : a.settled.fields = a.fields := by cases a <;> rfl

theorem ofFields?_fields (a : Subject) : ofFields? a.fields = some a.settled := by
  cases a with
  | node kind space name mark => simp [fields, nodeFields, ofFields?, settled, NodeKind.named?_name]
  | relationship kind source target =>
    simp [fields, relationshipFields, ofFields?, settled, RelationKind.named?_name]

theorem fields_eq_iff : a.fields = b.fields ↔ a.settled = b.settled := by
  constructor
  · intro h
    have := (ofFields?_fields a).symm.trans ((congrArg ofFields? h).trans (ofFields?_fields b))
    exact Option.some.inj this
  · intro h
    rw [← fields_settled a, h, fields_settled b]

theorem Fits.fields (h : a.Fits) : ∀ s ∈ a.fields, Ident.Fits s := by
  cases a with
  | node kind space name mark =>
    exact List.forall_mem_cons.mpr ⟨by cases kind <;> decide, h⟩
  | relationship kind source target =>
    exact List.forall_mem_cons.mpr ⟨by cases kind <;> decide, h⟩

/-- An id is a tag and a digest of the input, and the input is the same for those alone that are the
same up to an empty mark: never for a node and a relationship. -/
theorem input_exact (ha : a.Fits) (hb : b.Fits) :
    a.id.toList = a.tag.toList ++ ':' :: digest a.input ∧
      (a.input = b.input ↔ a.settled = b.settled) := by
  refine ⟨toList_id a, ?_⟩
  rw [← fields_eq_iff]
  exact ⟨encode_injective ha.fields hb.fields, congrArg encode⟩

end Subject

namespace Trial

/-- A space of names that ends in what reads like the length of the next field. -/
def early : Subject := .node .file "ab\x00\x00\x00\x00\x00\x00\x00\x01" "c" none

/-- The same bytes, at the start of the next field. -/
def late : Subject := .node .file "ab" "\x00\x00\x00\x00\x00\x00\x00\x01c" (some "")

theorem input_early_ne_late : early.Fits ∧ late.Fits ∧ early.input.length = late.input.length ∧
    early.input ≠ late.input := by
  have he : early.Fits := by decide +kernel
  have hl : late.Fits := by decide +kernel
  refine ⟨he, hl, by decide +kernel, fun h => ?_⟩
  exact absurd ((Subject.input_exact he hl).2.mp h) (by decide +kernel)

end Trial

end CodeAtlas.Ident
