import ModuleAtlas.Handle
import ModuleAtlas.NodeSet.Lemmas
import ModuleAtlas.Visibility.Level

/-!
# Scopes

The scope of a module is what it sees, one set of modules for each level above none.  A module may
sit in several sets; the highest counts.  Scopes only grow, by absorbing the scopes of imports.
-/

namespace ModuleAtlas

/-- The modules that are seen at each level. -/
structure Scope where
  intrude : NodeSet ModuleId := ∅
  pub : NodeSet ModuleId := ∅
  priv : NodeSet ModuleId := ∅
  deriving DecidableEq

namespace Scope

def empty : Scope := {}

def levelOf (scope : Scope) (module : ModuleId) : Visibility :=
  if module ∈ scope.intrude then .intrude
  else if module ∈ scope.pub then .pub
  else if module ∈ scope.priv then .priv
  else .none

def size (scope : Scope) : Nat := scope.intrude.size + scope.pub.size + scope.priv.size

def isEmpty (scope : Scope) : Bool := scope.size == 0

/-- What a public or private import passes on of its own scope: all but the private part. -/
def exported (scope : Scope) : NodeSet ModuleId := scope.intrude ∪ scope.pub

/--
See `module` at a level and take over the scope `imported` of that module.  Intrusion keeps every
level of it.  Public and private imports flatten what the module exports into their own level.
Seeing nothing of a module changes nothing.
-/
def absorb (scope : Scope) (module : ModuleId) (level : Visibility) (imported : Scope) : Scope :=
  match level with
  | .intrude =>
    { intrude := scope.intrude.insert module ∪ imported.intrude
      pub := scope.pub ∪ imported.pub
      priv := scope.priv ∪ imported.priv }
  | .pub => { scope with pub := scope.pub.insert module ∪ imported.exported }
  | .priv => { scope with priv := scope.priv.insert module ∪ imported.exported }
  | .none => scope

def added (before after : Scope) : Nat := after.size - before.size

/-! ## What absorbing does to each set -/

variable {scope imported : Scope} {module x : ModuleId} {level : Visibility}

@[simp] theorem mem_exported : x ∈ scope.exported ↔ x ∈ scope.intrude ∨ x ∈ scope.pub :=
  NodeSet.mem_union

/-- Only intrusion adds to the intrude set. -/
theorem mem_intrude_absorb :
    x ∈ (scope.absorb module level imported).intrude ↔
      x ∈ scope.intrude ∨ level = .intrude ∧ (x = module ∨ x ∈ imported.intrude) := by
  cases level with
  | intrude => simp [absorb, or_assoc, or_left_comm]
  | none => simp [absorb]
  | priv => simp [absorb]
  | pub => simp [absorb]

/-- A public import adds all it exports to the public set, intrusion only the public part. -/
theorem mem_pub_absorb :
    x ∈ (scope.absorb module level imported).pub ↔
      x ∈ scope.pub ∨ level = .intrude ∧ x ∈ imported.pub ∨
        level = .pub ∧ (x = module ∨ x ∈ imported.exported) := by
  cases level with
  | pub => simp [absorb, or_assoc, or_left_comm]
  | none => simp [absorb]
  | priv => simp [absorb]
  | intrude => simp [absorb]

/-- A private import adds all it exports to the private set, intrusion only the private part. -/
theorem mem_priv_absorb :
    x ∈ (scope.absorb module level imported).priv ↔
      x ∈ scope.priv ∨ level = .intrude ∧ x ∈ imported.priv ∨
        level = .priv ∧ (x = module ∨ x ∈ imported.exported) := by
  cases level with
  | priv => simp [absorb, or_assoc, or_left_comm]
  | none => simp [absorb]
  | pub => simp [absorb]
  | intrude => simp [absorb]

end Scope

end ModuleAtlas
