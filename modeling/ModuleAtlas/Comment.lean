import ModuleAtlas.Location.Basic

/-!
# Comments and deprecations

Records that documentation tools attach to a module.  An atlas stores them and never looks inside.
-/

namespace ModuleAtlas

structure Comment where
  /-- The lines of the comment without its markers. -/
  content : List String
  location : Location
  deriving DecidableEq

namespace Comment

def synopsis (comment : Comment) : Option String := comment.content.head?

def same (left right : Comment) : Bool :=
  left.content == right.content && left.location.same right.location

end Comment

/-- A mark that a module is out of use, explained or not. -/
structure Deprecation where
  comment : Option Comment
  deriving DecidableEq

namespace Deprecation

/-- Whether two deprecations are both unexplained or explained by the same comment. -/
def same (left right : Deprecation) : Bool :=
  match left.comment, right.comment with
  | none, none => true
  | some left, some right => left.same right
  | _, _ => false

end Deprecation

end ModuleAtlas
