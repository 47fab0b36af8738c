import Mathlib.Data.List.Forall2
import Mathlib.Logic.Relation
import ModuleAtlas.Document.Record

/-!
# Spellings of records

A record can be spelled in several ways: in another order of its keys, with additional keys, without
the fields that say what their absence says, as the array of its fields, and with the records inside
it spelled in these ways.  A step from one spelling to another leads from a record to a record, and
changes what is given for a key at most to something that is read in the same way.
-/

namespace ModuleAtlas

/-! ## Lookup among different keys -/

section Lookup

variable {β : Type} {entries others : List (String × β)} {key : String} {value : β}

theorem lookup_cons_of_ne {first : String × β} (other : key ≠ first.1) :
    (first :: entries).lookup key = entries.lookup key := by
  rw [List.lookup_cons, beq_false_of_ne other]

theorem lookup_eq_none_of_notMem (absent : key ∉ entries.map Prod.fst) :
    entries.lookup key = none := by
  refine List.lookup_eq_none_iff.2 fun entry listed => ?_
  have other : key ≠ entry.1 := fun same => absent (same ▸ List.mem_map_of_mem listed)
  exact bne_iff_ne.2 other

theorem lookup_eq_some_iff_mem (once : (entries.map Prod.fst).Nodup) :
    entries.lookup key = some value ↔ (key, value) ∈ entries := by
  induction entries with
  | nil => simp
  | cons first rest ih =>
    obtain ⟨firstKey, firstValue⟩ := first
    obtain ⟨fresh, onceRest⟩ := List.nodup_cons.1 once
    by_cases same : key = firstKey
    · subst same
      have notInRest : (key, value) ∉ rest := fun listed =>
        fresh (List.mem_map.2 ⟨_, listed, rfl⟩)
      simp [notInRest, eq_comm]
    · rw [lookup_cons_of_ne same, ih onceRest]
      simp [same]

theorem lookup_perm (once : (entries.map Prod.fst).Nodup) (perm : entries.Perm others) :
    entries.lookup key = others.lookup key := by
  have onceOthers : (others.map Prod.fst).Nodup := (perm.map Prod.fst).nodup_iff.1 once
  refine Option.ext fun value => ?_
  rw [lookup_eq_some_iff_mem once, lookup_eq_some_iff_mem onceOthers, perm.mem_iff]

/-- Values listed in the order of their keys are found at the positions of the keys. -/
theorem lookup_zip {keys : List String} (once : keys.Nodup) {i : Nat} (isKey : keys[i]? = some key)
    (values : List β) : (keys.zip values).lookup key = values[i]? := by
  induction keys generalizing i values with
  | nil => cases isKey
  | cons first rest ih =>
    obtain ⟨fresh, onceRest⟩ := List.nodup_cons.1 once
    cases values with
    | nil => rfl
    | cons value values =>
      cases i with
      | zero =>
        obtain rfl := Option.some.inj isKey
        exact List.lookup_cons_self
      | succ i =>
        have listed : key ∈ rest := List.mem_of_getElem? isKey
        have other : key ≠ first := fun same => fresh (same ▸ listed)
        rw [List.zip_cons_cons, lookup_cons_of_ne other]
        exact ih onceRest isKey values

/-- Among values that each fit their key, the one found for a key fits it. -/
theorem exists_lookup_zip {keys : List String} {values : List β} {fits : String → β → Prop}
    (inOrder : List.Forall₂ fits keys values) (isKey : key ∈ keys) :
    ∃ value, (keys.zip values).lookup key = some value ∧ fits key value := by
  induction inOrder with
  | nil => cases isKey
  | @cons first value rest values fit _ ih =>
    by_cases same : key = first
    · subst same
      exact ⟨value, List.lookup_cons_self, fit⟩
    · rw [List.zip_cons_cons, lookup_cons_of_ne same]
      exact ih ((List.mem_cons.1 isKey).resolve_left same)

end Lookup

/-! ## Shapes of records -/

/--
The keys of a record in order, the fields that may be left out because they say what their absence
says, and the other spellings of what is given for a key.
-/
structure RecordShape where
  keys : List String
  silent : String → Document → Prop
  inner : String → Document → Document → Prop

namespace RecordShape

variable {shape : RecordShape} {document other : Document} {shortest : Nat} {record next : Record}

/--
One step from a spelling to another one.  Together with a permutation, the steps at the first key of
an object reach every key.
-/
inductive Respells (shape : RecordShape) : Document → Document → Prop where
  | permuted {entries others} (perm : entries.Perm others) :
      Respells shape (.object entries) (.object others)
  | added {entries key value} (unknown : key ∉ shape.keys) :
      Respells shape (.object entries) (.object ((key, value) :: entries))
  | dropped {entries key value} (silent : shape.silent key value) :
      Respells shape (.object ((key, value) :: entries)) (.object entries)
  | inObject {entries key value other} (inner : shape.inner key value other) :
      Respells shape (.object ((key, value) :: entries)) (.object ((key, other) :: entries))
  /-- A field that the object leaves out has a place in the array as well. -/
  | listed {entries values}
      (inOrder : List.Forall₂ (fun key value => entries.lookup key = some value ∨
        entries.lookup key = none ∧ shape.silent key value) shape.keys values) :
      Respells shape (.object entries) (.array values)
  | inArray {values i key value other} (isKey : shape.keys[i]? = some key)
      (isValue : values[i]? = some value) (inner : shape.inner key value other) :
      Respells shape (.array values) (.array (values.set i other))

theorem Respells.ne_null (step : shape.Respells document other) : document ≠ .null := by
  cases step <;> nofun

inductive Changes (shape : RecordShape) (key : String) :
    Option Document → Option Document → Prop where
  | kept (given) : Changes shape key given given
  | dropped {value} (silent : shape.silent key value) : Changes shape key (some value) none
  | filled {value} (silent : shape.silent key value) : Changes shape key none (some value)
  | inner {value other} (inner : shape.inner key value other) :
      Changes shape key (some value) (some other)

/-! ## Records of documents -/

def known (shape : RecordShape) (entries : List (String × Document)) : List (String × Document) :=
  entries.filter fun entry => entry.1 ∈ shape.keys

section Known

variable {entries others : List (String × Document)} {key : String} {value : Document}

theorem known_cons (isKey : key ∈ shape.keys) :
    shape.known ((key, value) :: entries) = (key, value) :: shape.known entries :=
  List.filter_cons_of_pos (by simpa using isKey)

theorem known_cons_unknown (unknown : key ∉ shape.keys) :
    shape.known ((key, value) :: entries) = shape.known entries :=
  List.filter_cons_of_neg (by simpa using unknown)

theorem lookup_known (isKey : key ∈ shape.keys) :
    (shape.known entries).lookup key = entries.lookup key := by
  induction entries with
  | nil => rfl
  | cons first rest ih =>
    obtain ⟨firstKey, firstValue⟩ := first
    by_cases same : key = firstKey
    · subst same
      rw [known_cons isKey, List.lookup_cons_self, List.lookup_cons_self]
    · rw [lookup_cons_of_ne same, ← ih]
      by_cases isFirstKey : firstKey ∈ shape.keys
      · rw [known_cons isFirstKey, lookup_cons_of_ne same]
      · rw [known_cons_unknown isFirstKey]

theorem record?_object_iff :
    (Document.object entries).record? shape.keys shortest = some record ↔
      ((shape.known entries).map Prod.fst).Nodup ∧ record = ⟨shape.known entries⟩ := by
  simp [Document.record?, known, eq_comm]

theorem record?_array_iff {values : List Document} :
    (Document.array values).record? shape.keys shortest = some record ↔
      (shortest ≤ values.length ∧ values.length ≤ shape.keys.length) ∧
        record = ⟨shape.keys.zip values⟩ := by
  simp [Document.record?, eq_comm]

/-- An object that gives exactly the keys, in order, is read as it stands. -/
theorem record?_object_of_keys (once : shape.keys.Nodup)
    (exactly : entries.map Prod.fst = shape.keys) :
    (Document.object entries).record? shape.keys shortest = some ⟨entries⟩ := by
  have all : shape.known entries = entries := by
    refine List.filter_eq_self.2 fun entry listed => decide_eq_true ?_
    exact exactly ▸ List.mem_map_of_mem listed
  rw [record?_object_iff, all, exactly]
  exact ⟨once, rfl⟩

end Known

def Adjusts (shape : RecordShape) (record next : Record) : Prop :=
  ∀ key ∈ shape.keys, shape.Changes key (record.fields.lookup key) (next.fields.lookup key)

theorem Adjusts.rfl : shape.Adjusts record record := fun _ _ => .kept _

theorem adjusts_permuted {entries others : List (String × Document)} (perm : entries.Perm others)
    (once : ((shape.known entries).map Prod.fst).Nodup) :
    ((shape.known others).map Prod.fst).Nodup ∧
      shape.Adjusts ⟨shape.known entries⟩ ⟨shape.known others⟩ := by
  have permKnown : (shape.known entries).Perm (shape.known others) := perm.filter _
  refine ⟨(permKnown.map Prod.fst).nodup_iff.1 once, fun key _ => ?_⟩
  rw [lookup_perm once permKnown]
  exact .kept _

theorem adjusts_dropped {entries : List (String × Document)} {key : String} {value : Document}
    (silent : shape.silent key value)
    (once : ((shape.known ((key, value) :: entries)).map Prod.fst).Nodup) :
    ((shape.known entries).map Prod.fst).Nodup ∧
      shape.Adjusts ⟨shape.known ((key, value) :: entries)⟩ ⟨shape.known entries⟩ := by
  by_cases isKey : key ∈ shape.keys
  · rw [known_cons isKey] at once ⊢
    -- The key occurs once among the known ones, so it is gone afterwards.
    obtain ⟨fresh, onceRest⟩ := List.nodup_cons.1 once
    refine ⟨onceRest, fun wanted _ => ?_⟩
    by_cases same : wanted = key
    · subst same
      rw [List.lookup_cons_self, lookup_eq_none_of_notMem fresh]
      exact .dropped silent
    · rw [lookup_cons_of_ne same]
      exact .kept _
  · rw [known_cons_unknown isKey] at once ⊢
    exact ⟨once, .rfl⟩

theorem adjusts_inObject {entries : List (String × Document)} {key : String}
    {value other : Document} (inner : shape.inner key value other)
    (once : ((shape.known ((key, value) :: entries)).map Prod.fst).Nodup) :
    ((shape.known ((key, other) :: entries)).map Prod.fst).Nodup ∧
      shape.Adjusts ⟨shape.known ((key, value) :: entries)⟩
        ⟨shape.known ((key, other) :: entries)⟩ := by
  by_cases isKey : key ∈ shape.keys
  · rw [known_cons isKey] at once ⊢
    rw [known_cons isKey]
    refine ⟨once, fun wanted _ => ?_⟩
    by_cases same : wanted = key
    · subst same
      rw [List.lookup_cons_self, List.lookup_cons_self]
      exact .inner inner
    · rw [lookup_cons_of_ne same, lookup_cons_of_ne same]
      exact .kept _
  · rw [known_cons_unknown isKey] at once ⊢
    rw [known_cons_unknown isKey]
    exact ⟨once, .rfl⟩

theorem adjusts_listed {entries : List (String × Document)} {values : List Document}
    (inOrder : List.Forall₂ (fun key value => entries.lookup key = some value ∨
      entries.lookup key = none ∧ shape.silent key value) shape.keys values) :
    shape.Adjusts ⟨shape.known entries⟩ ⟨shape.keys.zip values⟩ := by
  intro key isKey
  obtain ⟨value, atKey, given⟩ := exists_lookup_zip inOrder isKey
  rw [lookup_known isKey, atKey]
  rcases given with given | ⟨absent, silent⟩
  · rw [given]
    exact .kept _
  · rw [absent]
    exact .filled silent

theorem adjusts_inArray (onceKeys : shape.keys.Nodup) {values : List Document} {i : Nat}
    {key : String} {value other : Document} (isKey : shape.keys[i]? = some key)
    (isValue : values[i]? = some value) (inner : shape.inner key value other) :
    shape.Adjusts ⟨shape.keys.zip values⟩ ⟨shape.keys.zip (values.set i other)⟩ := by
  intro wanted isWanted
  obtain ⟨j, atWanted⟩ := List.mem_iff_getElem?.1 isWanted
  rw [lookup_zip onceKeys atWanted, lookup_zip onceKeys atWanted]
  by_cases same : i = j
  · subst same
    obtain rfl := Option.some.inj (isKey.symm.trans atWanted)
    have inside : i < values.length := (List.getElem?_eq_some_iff.1 isValue).1
    rw [List.getElem?_set_self inside, isValue]
    exact .inner inner
  · rw [List.getElem?_set_ne same]
    exact .kept _

/-- A step leads from a record to a record, and adjusts what it gives. -/
theorem Respells.adjusts (onceKeys : shape.keys.Nodup) (enough : shortest ≤ shape.keys.length)
    (step : shape.Respells document other)
    (read : document.record? shape.keys shortest = some record) :
    ∃ next, other.record? shape.keys shortest = some next ∧ shape.Adjusts record next := by
  cases step with
  | permuted perm =>
    obtain ⟨once, rfl⟩ := record?_object_iff.1 read
    obtain ⟨onceOthers, adjusts⟩ := adjusts_permuted perm once
    exact ⟨_, record?_object_iff.2 ⟨onceOthers, rfl⟩, adjusts⟩
  | added unknown =>
    obtain ⟨once, rfl⟩ := record?_object_iff.1 read
    rw [← known_cons_unknown unknown] at once ⊢
    exact ⟨_, record?_object_iff.2 ⟨once, rfl⟩, .rfl⟩
  | dropped silent =>
    obtain ⟨once, rfl⟩ := record?_object_iff.1 read
    obtain ⟨onceOthers, adjusts⟩ := adjusts_dropped silent once
    exact ⟨_, record?_object_iff.2 ⟨onceOthers, rfl⟩, adjusts⟩
  | inObject inner =>
    obtain ⟨once, rfl⟩ := record?_object_iff.1 read
    obtain ⟨onceOthers, adjusts⟩ := adjusts_inObject inner once
    exact ⟨_, record?_object_iff.2 ⟨onceOthers, rfl⟩, adjusts⟩
  | @listed entries values inOrder =>
    obtain ⟨_, rfl⟩ := record?_object_iff.1 read
    have all : shape.keys.length = values.length := inOrder.length_eq
    have fits : shortest ≤ values.length ∧ values.length ≤ shape.keys.length := by omega
    exact ⟨_, record?_array_iff.2 ⟨fits, rfl⟩, adjusts_listed inOrder⟩
  | inArray isKey isValue inner =>
    obtain ⟨fits, rfl⟩ := record?_array_iff.1 read
    refine ⟨_, record?_array_iff.2 ⟨?_, rfl⟩, adjusts_inArray onceKeys isKey isValue inner⟩
    rwa [List.length_set]

/-! ## Reading fields -/

section Fields

variable {α : Type} {key : String} {read : Document → Option α} {absent value : α}

theorem required_of_given (given : record.fields.lookup key = some document)
    (reads : read document = some value) : record.required key read = some value := by
  rw [Record.required, given, Option.bind_some, reads]

theorem optional_of_given (given : record.fields.lookup key = some document)
    (reads : read document = some value) : record.optional key absent read = some value := by
  rw [Record.optional, given]
  exact reads

/-- A field that is never silent is read as before. -/
theorem Adjusts.required (adjusts : shape.Adjusts record next) (isKey : key ∈ shape.keys)
    (never : ∀ document, ¬ shape.silent key document)
    (inner : ∀ document other, shape.inner key document other →
      read document = some value → read other = some value)
    (given : record.required key read = some value) : next.required key read = some value := by
  have changes := adjusts key isKey
  unfold Record.required at given ⊢
  generalize record.fields.lookup key = before at changes given
  generalize next.fields.lookup key = after at changes ⊢
  revert given
  cases changes with
  | kept => exact id
  | dropped silent => exact absurd silent (never _)
  | filled silent => exact absurd silent (never _)
  | inner spelled => exact inner _ _ spelled

/-- A field whose silence is read as its absence is read as before. -/
theorem Adjusts.optional (adjusts : shape.Adjusts record next) (isKey : key ∈ shape.keys)
    (silence : ∀ document, shape.silent key document → read document = some absent)
    (inner : ∀ document other, shape.inner key document other →
      read document = some value → read other = some value)
    (given : record.optional key absent read = some value) :
    next.optional key absent read = some value := by
  have changes := adjusts key isKey
  unfold Record.optional at given ⊢
  generalize record.fields.lookup key = before at changes given
  generalize next.fields.lookup key = after at changes ⊢
  revert given
  cases changes with
  | kept => exact id
  | dropped silent => exact fun given => (silence _ silent).symm.trans given
  | filled silent => exact fun given => (silence _ silent).trans given
  | inner spelled => exact inner _ _ spelled

end Fields

def Spells (shape : RecordShape) : Document → Document → Prop :=
  Relation.ReflTransGen shape.Respells

/-- A value that is read on after every step is read from every spelling. -/
theorem Spells.read {α : Type} {read : Document → Option α} {value : α}
    (spelled : shape.Spells document other)
    (step : ∀ first second, shape.Respells first second →
      read first = some value → read second = some value)
    (written : read document = some value) : read other = some value := by
  induction spelled with
  | refl => exact written
  | tail _ last ih => exact step _ _ last ih

end RecordShape

end ModuleAtlas
