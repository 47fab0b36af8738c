import ModuleAtlas.Handle

/-!
# Name index

Finds the modules that share a plain name.
-/

namespace ModuleAtlas

/-- The modules of each name, first created first. -/
structure NameIndex where
  entries : List (String × List ModuleId) := []
  deriving DecidableEq

namespace NameIndex

def find (index : NameIndex) (name : String) : List ModuleId :=
  (index.entries.lookup name).getD []

def addTo (name : String) (id : ModuleId) :
    List (String × List ModuleId) → List (String × List ModuleId)
  | [] => [(name, [id])]
  | (other, ids) :: rest =>
    if other = name then (other, ids ++ [id]) :: rest else (other, ids) :: addTo name id rest

def add (index : NameIndex) (name : String) (id : ModuleId) : NameIndex :=
  ⟨addTo name id index.entries⟩

/-- Adding under a name changes what that name finds and nothing else. -/
theorem lookup_addTo (entries : List (String × List ModuleId)) (name other : String)
    (id : ModuleId) :
    ((addTo name id entries).lookup other).getD [] =
      (entries.lookup other).getD [] ++ if other = name then [id] else [] := by
  induction entries with
  | nil =>
    by_cases same : other = name
    · simp [addTo, same]
    · simp [addTo, List.lookup_cons, beq_false_of_ne same, same]
  | cons entry rest ih =>
    obtain ⟨key, ids⟩ := entry
    rw [addTo]
    by_cases same : other = key
    · subst same
      split <;> simp_all
    · split
      next keyIsName =>
        subst keyIsName
        simp [List.lookup_cons, beq_false_of_ne same, same]
      next => simp [List.lookup_cons, beq_false_of_ne same, ih]

/-- A name finds what it found before, and the new module if it is its name. -/
theorem find_add (index : NameIndex) (name other : String) (id : ModuleId) :
    (index.add name id).find other = index.find other ++ if other = name then [id] else [] :=
  lookup_addTo index.entries name other id

end NameIndex

end ModuleAtlas
