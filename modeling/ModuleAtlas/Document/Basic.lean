/-!
# Documents

The values that settings, locations, comments and deprecations are exchanged in, and the readers
of plain values.  A reader answers `none` where the document does not have the shape it reads.
-/

namespace ModuleAtlas

inductive Document where
  | null
  | bool (value : Bool)
  | integer (value : Int)
  /-- A number written with `places` decimal places; it is never read as an integer. -/
  | decimal (digits : Int) (places : Nat)
  | string (value : String)
  | array (values : List Document)
  | object (entries : List (String × Document))

namespace Document

instance : Inhabited Document := ⟨null⟩

def bool? : Document → Option Bool
  | bool value => some value
  | _ => none

def string? : Document → Option String
  | string value => some value
  | _ => none

def below? (bound : Nat) : Document → Option Nat
  | integer value => if 0 ≤ value ∧ value < bound then some value.toNat else none
  | _ => none

def byte? (document : Document) : Option UInt8 :=
  (document.below? UInt8.size).map UInt8.ofNat

def word? (document : Document) : Option UInt32 :=
  (document.below? UInt32.size).map UInt32.ofNat

def list? {α : Type} (read : Document → Option α) : Document → Option (List α)
  | array values => values.mapM read
  | _ => none

def nullable? {α : Type} (read : Document → Option α) : Document → Option (Option α)
  | null => some none
  | document => (read document).map some

def ofOption {α : Type} (write : α → Document) : Option α → Document
  | none => null
  | some value => write value

end Document

end ModuleAtlas
