import ModuleAtlas.Comment
import ModuleAtlas.Document.Record
import ModuleAtlas.Fault
import ModuleAtlas.Settings

/-!
# Document forms

How levels, handles, settings, locations, comments and deprecations are written and read.  Records
are written as objects with all fields and read in every spelling.
-/

namespace ModuleAtlas

/-! ## Plain values -/

namespace Visibility

def toDocument (level : Visibility) : Document := .string level.keyword

/-- A level is read from its keyword, bare or as the single key of an object with a null value. -/
def ofDocument? : Document → Option Visibility
  | .string word => ofKeyword? word
  | .object [(word, .null)] => ofKeyword? word
  | _ => Option.none

end Visibility

namespace Handle

variable {kind : Kind}

def toDocument (handle : Handle kind) : Document := .integer handle.index

/-- Positions within the capacity of an arena are handles. -/
def ofDocument? (document : Document) : Option (Handle kind) :=
  (document.below? capacity).map Handle.mk

end Handle

/-! ## Settings -/

namespace Settings

/-- The settings in the order of their array spelling. -/
def keys : List String := ["check_acyclic", "strict_ordering", "verbosity"]

def toDocument (settings : Settings) : Document :=
  .object
    [("check_acyclic", .bool settings.checkAcyclic),
      ("strict_ordering", .bool settings.strictOrdering),
      ("verbosity", .integer settings.verbosity.toNat)]

/-- Every setting may be absent and then has its default value. -/
def ofDocument? (document : Document) : Option Settings := do
  let record ← document.record? keys 0
  let checkAcyclic ← record.optional "check_acyclic" default.checkAcyclic Document.bool?
  let strictOrdering ← record.optional "strict_ordering" default.strictOrdering Document.bool?
  let verbosity ← record.optional "verbosity" default.verbosity Document.byte?
  return { checkAcyclic, strictOrdering, verbosity }

end Settings

/-! ## Locations -/

namespace Location

def keys : List String := ["file", "line", "column"]

def toDocument (location : Location) : Document :=
  .object
    [("file", .ofOption .string location.file),
      ("line", .integer location.line.toNat),
      ("column", .integer location.column.toNat)]

/-- A location without a file need not say so; its line and column have to be given. -/
def ofDocument? (document : Document) : Option Location := do
  let record ← document.record? keys 3
  let file ← record.optional "file" none (Document.nullable? Document.string?)
  let line ← record.required "line" Document.word?
  let column ← record.required "column" Document.word?
  return { file, line, column }

end Location

/-! ## Comments and deprecations -/

namespace Comment

def keys : List String := ["content", "location"]

def toDocument (comment : Comment) : Document :=
  .object
    [("content", .array (comment.content.map .string)),
      ("location", comment.location.toDocument)]

def ofDocument? (document : Document) : Option Comment := do
  let record ← document.record? keys 2
  let content ← record.required "content" (Document.list? Document.string?)
  let location ← record.required "location" Location.ofDocument?
  return { content, location }

end Comment

namespace Deprecation

def keys : List String := ["doc"]

def toDocument (deprecation : Deprecation) : Document :=
  .object [("doc", .ofOption Comment.toDocument deprecation.comment)]

/-- A deprecation without a comment need not say so. -/
def ofDocument? (document : Document) : Option Deprecation := do
  let record ← document.record? keys 1
  let comment ← record.optional "doc" none (Document.nullable? Comment.ofDocument?)
  return { comment }

end Deprecation

end ModuleAtlas
