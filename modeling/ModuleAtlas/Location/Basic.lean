import ModuleAtlas.Location.Path

/-!
# Locations

Where an entity was declared: a position in a file, or nowhere for entities without source text.
Equality of the type compares paths letter for letter; `Location.same` compares their components.
-/

namespace ModuleAtlas

structure Location where
  file : Option String
  line : UInt32
  column : UInt32
  deriving DecidableEq

namespace Location

def synthetic : Location := ⟨none, 0, 0⟩

instance : Inhabited Location := ⟨synthetic⟩

def inFile (file : String) (line column : UInt32) : Location := ⟨some file, line, column⟩

/-- A location without a file is synthetic, whatever its line and column. -/
def isSynthetic (location : Location) : Bool := location.file.isNone

def text (location : Location) : String :=
  match location.file with
  | some file =>
    file ++ ":" ++ toString location.line.toNat ++ ":" ++ toString location.column.toNat
  | none => "<synthetic>"

def sameFile : Option String → Option String → Bool
  | none, none => true
  | some left, some right => Path.same left right
  | _, _ => false

def same (left right : Location) : Bool :=
  sameFile left.file right.file && left.line == right.line && left.column == right.column

end Location

end ModuleAtlas
