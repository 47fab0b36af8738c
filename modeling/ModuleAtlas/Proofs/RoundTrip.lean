import ModuleAtlas.Document.Form
import ModuleAtlas.Proofs.Spelling

/-!
# Reading what was written

A plain value, a list or a nullable value is read as it was written, and so is a record whose fields
are.  What may be left out of a record and which records are inside it is the shape of the record;
each reader reads on after every step between spellings in that shape.
-/

namespace ModuleAtlas

/-! ## Plain values -/

namespace Document

def Gives (document : Document) (key : String) (value : Document) : Prop :=
  match document with
  | object entries => (key, value) ∈ entries
  | _ => False

theorem below?_integer {bound value : Nat} (inside : value < bound) :
    (integer value).below? bound = some value := by
  simp [below?, inside]

theorem byte?_integer (value : UInt8) : (integer value.toNat).byte? = some value := by
  rw [byte?, below?_integer value.toNat_lt, Option.map_some, UInt8.ofNat_toNat]

theorem word?_integer (value : UInt32) : (integer value.toNat).word? = some value := by
  rw [word?, below?_integer value.toNat_lt, Option.map_some, UInt32.ofNat_toNat]

theorem string?_string (value : String) : (string value).string? = some value := rfl

theorem list?_array {α : Type} {read : Document → Option α} {write : α → Document}
    (written : ∀ value, read (write value) = some value) (values : List α) :
    (array (values.map write)).list? read = some values := by
  have each : read ∘ write = some := funext written
  rw [list?, List.mapM_map, each]
  exact (List.mapM_pure (m := Option) (f := id)).trans (congrArg some (List.map_id values))

section Nullable

variable {α : Type} {read : Document → Option α} {document other : Document} {value : α}

theorem nullable?_eq_none_iff : document.nullable? read = some none ↔ document = null := by
  cases document <;> simp [nullable?]

/-- Where null is not read as a value, nothing else is taken for it. -/
theorem nullable?_eq_some_iff (unread : read null = none) :
    document.nullable? read = some (some value) ↔ read document = some value := by
  cases document <;> simp [nullable?, unread]

theorem nullable?_ofOption {write : α → Document}
    (written : ∀ value, read (write value) = some value)
    (unread : read null = none) (value : Option α) :
    (ofOption write value).nullable? read = some value := by
  cases value with
  | none => rfl
  | some value => exact (nullable?_eq_some_iff unread).2 (written value)

theorem nullable?_of_kept (unread : read null = none) (notNull : document ≠ null)
    (kept : ∀ value, read document = some value → read other = some value) {value : Option α}
    (given : document.nullable? read = some value) : other.nullable? read = some value := by
  cases value with
  | none => exact absurd (nullable?_eq_none_iff.1 given) notNull
  | some value =>
    rw [nullable?_eq_some_iff unread] at given ⊢
    exact kept value given

end Nullable

end Document

/-! ## Levels -/

theorem Visibility.ofDocument?_toDocument (level : Visibility) :
    ofDocument? level.toDocument = some level := by
  cases level <;> rfl

/-! ## Settings -/

namespace Settings

/-- Every setting may be left out where it has its default value. -/
def shape : RecordShape where
  keys := keys
  silent := (toDocument default).Gives
  inner _ _ _ := False

theorem ofDocument?_eq_some_iff {document : Document} {settings : Settings} :
    ofDocument? document = some settings ↔ ∃ record, document.record? keys 0 = some record ∧
      record.optional "check_acyclic" default.checkAcyclic Document.bool? =
        some settings.checkAcyclic ∧
      record.optional "strict_ordering" default.strictOrdering Document.bool? =
        some settings.strictOrdering ∧
      record.optional "verbosity" default.verbosity Document.byte? = some settings.verbosity := by
  simp only [ofDocument?, Option.bind_eq_bind, Option.bind_eq_some_iff, Option.pure_def,
    Option.some.injEq]
  grind

theorem ofDocument?_toDocument (settings : Settings) :
    ofDocument? settings.toDocument = some settings := by
  have record : settings.toDocument.record? shape.keys 0 = some _ :=
    RecordShape.record?_object_of_keys (by decide) rfl
  refine ofDocument?_eq_some_iff.2 ⟨_, record, rfl, rfl, ?_⟩
  exact RecordShape.optional_of_given rfl (Document.byte?_integer _)

theorem ofDocument?_respells {settings : Settings} (document other : Document)
    (step : shape.Respells document other) (read : ofDocument? document = some settings) :
    ofDocument? other = some settings := by
  obtain ⟨record, isRecord, checkAcyclic, strictOrdering, verbosity⟩ :=
    ofDocument?_eq_some_iff.1 read
  obtain ⟨next, isNext, adjusts⟩ := step.adjusts (by decide) (by decide) isRecord
  refine ofDocument?_eq_some_iff.2 ⟨next, isNext, ?_, ?_, ?_⟩
  · refine adjusts.optional (by decide) (fun document silent => ?_) nofun checkAcyclic
    obtain rfl : document = .bool default.checkAcyclic := by
      simpa [shape, toDocument, Document.Gives] using silent
    rfl
  · refine adjusts.optional (by decide) (fun document silent => ?_) nofun strictOrdering
    obtain rfl : document = .bool default.strictOrdering := by
      simpa [shape, toDocument, Document.Gives] using silent
    rfl
  · refine adjusts.optional (by decide) (fun document silent => ?_) nofun verbosity
    obtain rfl : document = .integer default.verbosity.toNat := by
      simpa [shape, toDocument, Document.Gives] using silent
    exact Document.byte?_integer _

end Settings

/-! ## Locations -/

namespace Location

/-- A file that is null may be left out. -/
def shape : RecordShape where
  keys := keys
  silent key document := key = "file" ∧ document = .null
  inner _ _ _ := False

theorem ofDocument?_eq_some_iff {document : Document} {location : Location} :
    ofDocument? document = some location ↔ ∃ record, document.record? keys 3 = some record ∧
      record.optional "file" none (Document.nullable? Document.string?) = some location.file ∧
      record.required "line" Document.word? = some location.line ∧
      record.required "column" Document.word? = some location.column := by
  simp only [ofDocument?, Option.bind_eq_bind, Option.bind_eq_some_iff, Option.pure_def,
    Option.some.injEq]
  grind

theorem ofDocument?_toDocument (location : Location) :
    ofDocument? location.toDocument = some location := by
  have record : location.toDocument.record? shape.keys 3 = some _ :=
    RecordShape.record?_object_of_keys (by decide) rfl
  refine ofDocument?_eq_some_iff.2 ⟨_, record, ?_, ?_, ?_⟩
  · have written := Document.nullable?_ofOption Document.string?_string rfl location.file
    exact RecordShape.optional_of_given rfl written
  · exact RecordShape.required_of_given rfl (Document.word?_integer _)
  · exact RecordShape.required_of_given rfl (Document.word?_integer _)

theorem ofDocument?_respells {location : Location} (document other : Document)
    (step : shape.Respells document other) (read : ofDocument? document = some location) :
    ofDocument? other = some location := by
  obtain ⟨record, isRecord, file, line, column⟩ := ofDocument?_eq_some_iff.1 read
  obtain ⟨next, isNext, adjusts⟩ := step.adjusts (by decide) (by decide) isRecord
  refine ofDocument?_eq_some_iff.2 ⟨next, isNext, ?_, ?_, ?_⟩
  · exact adjusts.optional (by decide) (fun _ silent => silent.2 ▸ rfl) nofun file
  · exact adjusts.required (by decide) (fun _ silent => absurd silent.1 (by decide)) nofun line
  · exact adjusts.required (by decide) (fun _ silent => absurd silent.1 (by decide)) nofun column

end Location

/-! ## Comments and deprecations -/

namespace Comment

/-- Nothing may be left out; the location may be spelled otherwise. -/
def shape : RecordShape where
  keys := keys
  silent _ _ := False
  inner key document other := key = "location" ∧ Location.shape.Respells document other

theorem ofDocument?_eq_some_iff {document : Document} {comment : Comment} :
    ofDocument? document = some comment ↔ ∃ record, document.record? keys 2 = some record ∧
      record.required "content" (Document.list? Document.string?) = some comment.content ∧
      record.required "location" Location.ofDocument? = some comment.location := by
  simp only [ofDocument?, Option.bind_eq_bind, Option.bind_eq_some_iff, Option.pure_def,
    Option.some.injEq]
  grind

theorem ofDocument?_toDocument (comment : Comment) :
    ofDocument? comment.toDocument = some comment := by
  have record : comment.toDocument.record? shape.keys 2 = some _ :=
    RecordShape.record?_object_of_keys (by decide) rfl
  refine ofDocument?_eq_some_iff.2 ⟨_, record, ?_, ?_⟩
  · have written := Document.list?_array Document.string?_string comment.content
    exact RecordShape.required_of_given rfl written
  · exact RecordShape.required_of_given rfl (Location.ofDocument?_toDocument _)

theorem ofDocument?_respells {comment : Comment} (document other : Document)
    (step : shape.Respells document other) (read : ofDocument? document = some comment) :
    ofDocument? other = some comment := by
  obtain ⟨record, isRecord, content, location⟩ := ofDocument?_eq_some_iff.1 read
  obtain ⟨next, isNext, adjusts⟩ := step.adjusts (by decide) (by decide) isRecord
  refine ofDocument?_eq_some_iff.2 ⟨next, isNext, ?_, ?_⟩
  · refine adjusts.required (by decide) nofun (fun _ _ inner => ?_) content
    exact absurd inner.1 (by decide)
  · refine adjusts.required (by decide) nofun (fun _ _ inner => ?_) location
    exact Location.ofDocument?_respells _ _ inner.2

end Comment

namespace Deprecation

/-- A comment that is null may be left out, and another one may be spelled otherwise. -/
def shape : RecordShape where
  keys := keys
  silent key document := key = "doc" ∧ document = .null
  inner key document other := key = "doc" ∧ Comment.shape.Respells document other

theorem ofDocument?_eq_some_iff {document : Document} {deprecation : Deprecation} :
    ofDocument? document = some deprecation ↔ ∃ record, document.record? keys 1 = some record ∧
      record.optional "doc" none (Document.nullable? Comment.ofDocument?) =
        some deprecation.comment := by
  simp only [ofDocument?, Option.bind_eq_bind, Option.bind_eq_some_iff, Option.pure_def,
    Option.some.injEq]
  grind

theorem ofDocument?_toDocument (deprecation : Deprecation) :
    ofDocument? deprecation.toDocument = some deprecation := by
  have record : deprecation.toDocument.record? shape.keys 1 = some _ :=
    RecordShape.record?_object_of_keys (by decide) rfl
  refine ofDocument?_eq_some_iff.2 ⟨_, record, ?_⟩
  have written :=
    Document.nullable?_ofOption Comment.ofDocument?_toDocument rfl deprecation.comment
  exact RecordShape.optional_of_given rfl written

theorem ofDocument?_respells {deprecation : Deprecation} (document other : Document)
    (step : shape.Respells document other) (read : ofDocument? document = some deprecation) :
    ofDocument? other = some deprecation := by
  obtain ⟨record, isRecord, comment⟩ := ofDocument?_eq_some_iff.1 read
  obtain ⟨next, isNext, adjusts⟩ := step.adjusts (by decide) (by decide) isRecord
  refine ofDocument?_eq_some_iff.2 ⟨next, isNext, ?_⟩
  refine adjusts.optional (by decide) (fun _ silent => silent.2 ▸ rfl) ?_ comment
  rintro first second ⟨_, inner⟩
  -- A comment that can be spelled otherwise is there, and stays there.
  exact Document.nullable?_of_kept rfl inner.ne_null
    fun _ => Comment.ofDocument?_respells _ _ inner

end Deprecation

/-! ## All documents -/

/--
Levels, settings, locations, comments and deprecations are read as they were written, and all but
levels from every spelling: after any number of permutations of keys, additions of unknown keys,
omissions of fields that say what their absence says and replacements of objects by the arrays of
their fields, in the record itself and in the records inside it.
-/
theorem documents_round_trip :
    (∀ level : Visibility, Visibility.ofDocument? level.toDocument = some level) ∧
      (∀ (settings : Settings) (document : Document),
        Settings.shape.Spells settings.toDocument document →
          Settings.ofDocument? document = some settings) ∧
      (∀ (location : Location) (document : Document),
        Location.shape.Spells location.toDocument document →
          Location.ofDocument? document = some location) ∧
      (∀ (comment : Comment) (document : Document),
        Comment.shape.Spells comment.toDocument document →
          Comment.ofDocument? document = some comment) ∧
      ∀ (deprecation : Deprecation) (document : Document),
        Deprecation.shape.Spells deprecation.toDocument document →
          Deprecation.ofDocument? document = some deprecation := by
  refine ⟨Visibility.ofDocument?_toDocument, ?_, ?_, ?_, ?_⟩
  · intro settings document spelled
    exact spelled.read Settings.ofDocument?_respells (Settings.ofDocument?_toDocument settings)
  · intro location document spelled
    exact spelled.read Location.ofDocument?_respells (Location.ofDocument?_toDocument location)
  · intro comment document spelled
    exact spelled.read Comment.ofDocument?_respells (Comment.ofDocument?_toDocument comment)
  · intro deprecation document spelled
    exact spelled.read Deprecation.ofDocument?_respells
      (Deprecation.ofDocument?_toDocument deprecation)

/--
A deprecation as an array in an array, around a location without its file and with a unit, and
settings of which only one is given.
-/
theorem documents_round_trip_through_layers :
    let deprecation : Deprecation := ⟨some ⟨["use b"], ⟨none, 3, 1⟩⟩⟩
    let location := Document.object
      [("unit", .string "mm"), ("line", .integer 3), ("column", .integer 1)]
    let layers := Document.array [.array [.array [.string "use b"], location]]
    let settings : Settings := ⟨true, true, 1⟩
    let strict := Document.object [("strict_ordering", .bool true)]
    Deprecation.shape.Spells deprecation.toDocument layers ∧
      Deprecation.ofDocument? layers = some deprecation ∧
      Settings.shape.Spells settings.toDocument strict ∧
      Settings.ofDocument? strict = some settings := by
  intro deprecation location layers settings strict
  obtain ⟨_, readSettings, _, _, readDeprecation⟩ := documents_round_trip
  have spelledLayers : Deprecation.shape.Spells deprecation.toDocument layers := by
    refine .head (.inObject ⟨rfl, .permuted (.swap _ _ _)⟩) ?_
    refine .head (.inObject ⟨rfl, .inObject ⟨rfl, .dropped ⟨rfl, rfl⟩⟩⟩) ?_
    have added : Location.shape.Respells _ location := .added (by decide)
    refine .head (.inObject ⟨rfl, .inObject ⟨rfl, added⟩⟩) ?_
    let comment := Document.object [("location", location), ("content", .array [.string "use b"])]
    have listed : Comment.shape.Respells comment (.array [.array [.string "use b"], location]) :=
      .listed (.cons (.inl rfl) (.cons (.inl rfl) .nil))
    have inArray : Deprecation.shape.Respells (.array [comment]) (.array ([comment].set 0 _)) :=
      .inArray rfl rfl ⟨rfl, listed⟩
    exact .head (.listed (.cons (.inl rfl) .nil)) (.single inArray)
  have spelledStrict : Settings.shape.Spells settings.toDocument strict := by
    refine .head (.dropped ?_) (.head (.permuted (.swap _ _ _)) (.single (.dropped ?_)))
    · exact .head _
    · exact .tail _ (.tail _ (.head _))
  exact ⟨spelledLayers, readDeprecation _ _ spelledLayers, spelledStrict,
    readSettings _ _ spelledStrict⟩

end ModuleAtlas
