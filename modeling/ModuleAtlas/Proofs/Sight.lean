import ModuleAtlas.Visibility.Scope

/-!
# What modules should see

Imports with their levels make a graph with labelled edges.  What a module should see at a level is
told by the words that its trails through this graph spell, without any order in which imports are
propagated; the first edge of a trail gives the equations that absorbing a scope has to meet.
-/

namespace ModuleAtlas

/-- The imports of each module with their levels, in the order in which they are declared. -/
abbrev Declarations := ModuleId → List (ModuleId × Visibility)

namespace Declarations

variable {imports : Declarations} {m t x : ModuleId} {level : Visibility} {word : List Visibility}

/-- Imports lead from one module to another one and their levels spell a word. -/
def Trail (imports : Declarations) : ModuleId → List Visibility → ModuleId → Prop
  | m, [], x => x = m
  | m, level :: word, x => ∃ t, (t, level) ∈ imports m ∧ imports.Trail t word x

def Passed (level : Visibility) : Prop := level = .intrude ∨ level = .pub

def Intrudes (imports : Declarations) (m x : ModuleId) : Prop :=
  ∃ word, imports.Trail m word x ∧ word ≠ [] ∧ ∀ level ∈ word, level = .intrude

/-- A trail of intrusions and public imports, which may be empty. -/
def Exports (imports : Declarations) (m x : ModuleId) : Prop :=
  ∃ word, imports.Trail m word x ∧ ∀ level ∈ word, Passed level

/-- A trail of intrusions and at least one public import. -/
def SeesPublicly (imports : Declarations) (m x : ModuleId) : Prop :=
  ∃ word, imports.Trail m word x ∧ (∀ level ∈ word, Passed level) ∧ .pub ∈ word

/-- A trail of intrusions, then one private import, then intrusions and public imports. -/
def SeesPrivately (imports : Declarations) (m x : ModuleId) : Prop :=
  ∃ before after, imports.Trail m (before ++ .priv :: after) x ∧
    (∀ level ∈ before, level = .intrude) ∧ ∀ level ∈ after, Passed level

/-! ## The first edge of a trail -/

theorem intrudes_iff :
    imports.Intrudes m x ↔ ∃ t, (t, .intrude) ∈ imports m ∧ (x = t ∨ imports.Intrudes t x) := by
  constructor
  · rintro ⟨word, trail, nonempty, intrusions⟩
    cases word with
    | nil => exact absurd rfl nonempty
    | cons level word =>
      obtain ⟨t, edge, trail⟩ := trail
      obtain ⟨rfl, further⟩ := List.forall_mem_cons.1 intrusions
      refine ⟨t, edge, ?_⟩
      cases word with
      | nil => exact Or.inl trail
      | cons next word => exact Or.inr ⟨next :: word, trail, List.cons_ne_nil _ _, further⟩
  · rintro ⟨t, edge, rfl | ⟨word, trail, _, intrusions⟩⟩
    · exact ⟨[.intrude], ⟨x, edge, rfl⟩, List.cons_ne_nil _ _, List.forall_mem_singleton.2 rfl⟩
    · exact ⟨.intrude :: word, ⟨t, edge, trail⟩, List.cons_ne_nil _ _,
        List.forall_mem_cons.2 ⟨rfl, intrusions⟩⟩

/-- What is passed on is the module itself and what it sees at a level that is passed on. -/
theorem exports_iff :
    imports.Exports m x ↔ x = m ∨ imports.Intrudes m x ∨ imports.SeesPublicly m x := by
  constructor
  · rintro ⟨word, trail, passed⟩
    by_cases isPublic : Visibility.pub ∈ word
    · exact Or.inr (Or.inr ⟨word, trail, passed, isPublic⟩)
    · cases word with
      | nil => exact Or.inl trail
      | cons level word =>
        refine Or.inr (Or.inl ⟨level :: word, trail, List.cons_ne_nil _ _, ?_⟩)
        intro other listed
        apply (passed other listed).resolve_right
        rintro rfl
        exact isPublic listed
  · rintro (rfl | ⟨word, trail, _, intrusions⟩ | ⟨word, trail, passed, _⟩)
    · exact ⟨[], rfl, fun _ listed => nomatch listed⟩
    · exact ⟨word, trail, fun other listed => Or.inl (intrusions other listed)⟩
    · exact ⟨word, trail, passed⟩

theorem seesPublicly_iff :
    imports.SeesPublicly m x ↔
      ∃ t, (t, .intrude) ∈ imports m ∧ imports.SeesPublicly t x ∨
        (t, .pub) ∈ imports m ∧ imports.Exports t x := by
  constructor
  · rintro ⟨word, trail, passed, isPublic⟩
    cases word with
    | nil => cases isPublic
    | cons level word =>
      obtain ⟨t, edge, trail⟩ := trail
      obtain ⟨first, further⟩ := List.forall_mem_cons.1 passed
      refine ⟨t, ?_⟩
      rcases first with rfl | rfl
      · have later : Visibility.pub ∈ word := by simpa using isPublic
        exact Or.inl ⟨edge, word, trail, further, later⟩
      · exact Or.inr ⟨edge, word, trail, further⟩
  · rintro ⟨t, ⟨edge, word, trail, passed, isPublic⟩ | ⟨edge, word, trail, passed⟩⟩
    · exact ⟨.intrude :: word, ⟨t, edge, trail⟩, List.forall_mem_cons.2 ⟨Or.inl rfl, passed⟩,
        List.mem_cons_of_mem _ isPublic⟩
    · exact ⟨.pub :: word, ⟨t, edge, trail⟩, List.forall_mem_cons.2 ⟨Or.inr rfl, passed⟩,
        List.mem_cons_self⟩

theorem seesPrivately_iff :
    imports.SeesPrivately m x ↔
      ∃ t, (t, .intrude) ∈ imports m ∧ imports.SeesPrivately t x ∨
        (t, .priv) ∈ imports m ∧ imports.Exports t x := by
  constructor
  · rintro ⟨before, after, trail, intrusions, passed⟩
    cases before with
    | nil =>
      obtain ⟨t, edge, trail⟩ := trail
      exact ⟨t, Or.inr ⟨edge, after, trail, passed⟩⟩
    | cons level before =>
      obtain ⟨t, edge, trail⟩ := trail
      obtain ⟨rfl, further⟩ := List.forall_mem_cons.1 intrusions
      exact ⟨t, Or.inl ⟨edge, before, after, trail, further, passed⟩⟩
  · rintro ⟨t, ⟨edge, before, after, trail, intrusions, passed⟩ | ⟨edge, after, trail, passed⟩⟩
    · exact ⟨.intrude :: before, after, ⟨t, edge, trail⟩,
        List.forall_mem_cons.2 ⟨rfl, intrusions⟩, passed⟩
    · exact ⟨[], after, ⟨t, edge, trail⟩, fun _ listed => (nomatch listed), passed⟩

/-! ## Scopes that tell the trails -/

/-- A scope tells exactly the trails that start with one of some given imports. -/
structure Tells (imports : Declarations) (given : List (ModuleId × Visibility)) (scope : Scope) :
    Prop where
  intrude : ∀ x, x ∈ scope.intrude ↔
    ∃ t, (t, .intrude) ∈ given ∧ (x = t ∨ imports.Intrudes t x)
  pub : ∀ x, x ∈ scope.pub ↔
    ∃ t, (t, .intrude) ∈ given ∧ imports.SeesPublicly t x ∨ (t, .pub) ∈ given ∧ imports.Exports t x
  priv : ∀ x, x ∈ scope.priv ↔
    ∃ t, (t, .intrude) ∈ given ∧ imports.SeesPrivately t x ∨
      (t, .priv) ∈ given ∧ imports.Exports t x

namespace Tells

theorem empty (imports : Declarations) : imports.Tells [] .empty where
  intrude := by simp [Scope.empty]
  pub := by simp [Scope.empty]
  priv := by simp [Scope.empty]

variable {scope imported : Scope}

theorem mem_intrude (tells : imports.Tells (imports m) scope) :
    x ∈ scope.intrude ↔ imports.Intrudes m x :=
  (tells.intrude x).trans intrudes_iff.symm

theorem mem_pub (tells : imports.Tells (imports m) scope) :
    x ∈ scope.pub ↔ imports.SeesPublicly m x :=
  (tells.pub x).trans seesPublicly_iff.symm

theorem mem_priv (tells : imports.Tells (imports m) scope) :
    x ∈ scope.priv ↔ imports.SeesPrivately m x :=
  (tells.priv x).trans seesPrivately_iff.symm

/-- A module whose scope tells its trails passes on what the trails pass on. -/
theorem mem_passed (tells : imports.Tells (imports m) scope) :
    x = m ∨ x ∈ scope.exported ↔ imports.Exports m x := by
  rw [Scope.mem_exported, tells.mem_intrude, tells.mem_pub, exports_iff]

theorem exists_snoc {given : List (ModuleId × Visibility)} {level other : Visibility}
    {property : ModuleId → Prop} :
    (∃ x, (x, other) ∈ given ++ [(t, level)] ∧ property x) ↔
      (∃ x, (x, other) ∈ given ∧ property x) ∨ level = other ∧ property t := by
  simp only [List.mem_append, List.mem_singleton, Prod.mk.injEq, or_and_right, exists_or, and_assoc,
    exists_eq_left, @eq_comm Visibility level]

/-- Absorbing an import whose scope tells its trails adds the trails through this import. -/
theorem absorb {given : List (ModuleId × Visibility)} (tells : imports.Tells given scope)
    (tellsImported : imports.Tells (imports t) imported) (level : Visibility) :
    imports.Tells (given ++ [(t, level)]) (scope.absorb t level imported) := by
  constructor
  · intro x
    rw [Scope.mem_intrude_absorb, tells.intrude, tellsImported.mem_intrude, exists_snoc]
  · intro x
    rw [Scope.mem_pub_absorb, tells.pub, tellsImported.mem_pub, tellsImported.mem_passed]
    simp only [exists_or, exists_snoc]
    exact or_or_or_comm
  · intro x
    rw [Scope.mem_priv_absorb, tells.priv, tellsImported.mem_priv, tellsImported.mem_passed]
    simp only [exists_or, exists_snoc]
    exact or_or_or_comm

end Tells

end Declarations

end ModuleAtlas
