import ModuleAtlas.Document.Basic

/-!
# Record documents

A record is spelled as an object, where unknown keys are passed over and no known key may occur
twice, or as the array of its fields in order.
-/

namespace ModuleAtlas

/-- The fields that a document gives to a record, each key at most once. -/
structure Record where
  fields : List (String × Document)

namespace Record

def required {α : Type} (record : Record) (key : String) (read : Document → Option α) :
    Option α :=
  (record.fields.lookup key).bind read

def optional {α : Type} (record : Record) (key : String) (absent : α)
    (read : Document → Option α) : Option α :=
  match record.fields.lookup key with
  | none => some absent
  | some document => read document

end Record

/--
Read the spelling of a record with the given keys.  An array gives the fields in the order of the
keys, at least `shortest` of them and not more than there are keys.
-/
def Document.record? (keys : List String) (shortest : Nat) : Document → Option Record
  | object entries =>
    let known := entries.filter fun entry => entry.1 ∈ keys
    if (known.map Prod.fst).Nodup then some ⟨known⟩ else none
  | array values =>
    if shortest ≤ values.length ∧ values.length ≤ keys.length then some ⟨keys.zip values⟩
    else none
  | _ => none

end ModuleAtlas
