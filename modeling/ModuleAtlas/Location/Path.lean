/-!
# Path components

Paths are kept and shown letter for letter and compared by their components.  Repeated and
trailing slashes do not matter, nor does a dot component, unless a relative path starts with it.
Parent components are compared like names, a backslash is an ordinary letter.
-/

namespace ModuleAtlas

namespace Path

inductive Component where
  /-- The slash that an absolute path starts with. -/
  | root
  /-- The dot that a relative path starts with. -/
  | here
  | name (text : String)
  deriving DecidableEq

/-- The pieces of a text between its slashes, empty ones included. -/
def pieces : List Char → List (List Char)
  | [] => [[]]
  | letter :: rest =>
    if letter = '/' then [] :: pieces rest
    else match pieces rest with
      | [] => [[letter]]
      | piece :: others => (letter :: piece) :: others

def isName (piece : List Char) : Bool := piece != [] && piece != ['.']

def start (letters : List Char) : List Component :=
  if letters.head? = some '/' then [.root]
  else if (pieces letters).head? = some ['.'] then [.here]
  else []

/-- The components that a path is compared by. -/
def components (path : String) : List Component :=
  let letters := path.toList
  start letters ++ ((pieces letters).filter isName).map fun piece => .name (String.ofList piece)

/-- Two paths are the same path if they have the same components. -/
def same (left right : String) : Bool := components left = components right

end Path

end ModuleAtlas
