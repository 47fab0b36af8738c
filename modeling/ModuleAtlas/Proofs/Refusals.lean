import ModuleAtlas.Proofs.Progress

/-!
# What hierarchies refuse

A hierarchy refuses nodes that it does not know and edges that close a cycle.  Operations never get
so far as to be refused an edge, and the only command that looks for one beforehand is a declaration
of imports.  So no other command fails with what a hierarchy refuses.
-/

namespace ModuleAtlas

def Fault.IsRefusal : Fault → Prop
  | unknownNode .. | cycle .. => True
  | _ => False

/-- Checks that may fail, but not with what a hierarchy refuses. -/
def SparesRefusals {α : Type} (checks : Except Fault α) : Prop :=
  ∀ fault, fault.IsRefusal → checks ≠ .error fault

namespace SparesRefusals

variable {α β : Type} {fault : Fault}

theorem ok (value : α) : SparesRefusals (.ok value) := fun _ _ same => nomatch same

theorem error (other : ¬ fault.IsRefusal) : SparesRefusals (.error fault : Except Fault α) := by
  rintro _ refusal ⟨⟩
  exact other refusal

theorem bind {first : Except Fault α} {next : α → Except Fault β} (spares : SparesRefusals first)
    (rest : ∀ value, SparesRefusals (next value)) : SparesRefusals (first >>= next) := by
  cases first with
  | ok value => exact rest value
  | error fault => exact .error fun refusal => spares fault refusal rfl

/-- A guard does not fail with a refusal if its fault is none. -/
theorem guard {condition : Prop} [Decidable condition] {next : PUnit → Except Fault α}
    (other : ¬ fault.IsRefusal) (rest : SparesRefusals (next ⟨⟩)) :
    SparesRefusals (if condition then throw fault >>= next else next ⟨⟩) := by
  split
  · exact .error other
  · exact rest

theorem map {checks : Except Fault α} (spares : SparesRefusals checks) (f : α → β) :
    SparesRefusals (checks.map f) := by
  cases checks with
  | ok value => exact .ok (f value)
  | error fault => exact .error fun refusal => spares fault refusal rfl

end SparesRefusals

namespace Atlas

/-! ## Look-ups -/

theorem sparesRefusals_next (kind : Kind) (position : Nat) :
    SparesRefusals (Handle.next kind position) := by
  unfold Handle.next
  split
  · exact .ok _
  · exact .error not_false

variable (atlas : Atlas)

theorem sparesRefusals_findProject (id : ProjectId) : SparesRefusals (atlas.findProject id) := by
  unfold findProject
  split
  · exact .ok _
  · exact .error not_false

theorem sparesRefusals_findGroup (id : GroupId) : SparesRefusals (atlas.findGroup id) := by
  unfold findGroup
  split
  · exact .ok _
  · exact .error not_false

theorem sparesRefusals_findModule (id : ModuleId) : SparesRefusals (atlas.findModule id) := by
  unfold findModule
  split
  · exact .ok _
  · exact .error not_false

/-! ## Plans -/

theorem sparesRefusals_planGroup (project : ProjectId) (parent : Option GroupId) (name : String) :
    SparesRefusals (atlas.planGroup project parent name) := by
  refine (atlas.sparesRefusals_findProject project).bind fun _ => ?_
  cases parent with
  | none => exact (sparesRefusals_next .group _).bind fun _ => .ok _
  | some parent =>
    refine (atlas.sparesRefusals_findGroup parent).bind fun _ => ?_
    exact (sparesRefusals_next .group _).bind fun _ => .ok _

theorem sparesRefusals_planLoose (name : String) (location : Location) (fictive : Bool) :
    SparesRefusals (atlas.planLoose name location fictive) :=
  (sparesRefusals_next .module _).bind fun _ => .ok _

theorem sparesRefusals_planMember (group : GroupId) (name : String) (location : Location) :
    SparesRefusals (atlas.planMember group name location) := by
  refine (sparesRefusals_next .module _).bind fun id => ?_
  refine (atlas.sparesRefusals_findGroup group).bind fun home => ?_
  refine (atlas.sparesRefusals_findProject home.project).bind fun project => ?_
  dsimp only
  split
  · split
    · exact .error not_false
    · exact .ok _
  · exact .ok _

theorem sparesRefusals_planDefault (group : GroupId) (module : ModuleId) :
    SparesRefusals (atlas.planDefault group module) := by
  refine (atlas.sparesRefusals_findModule module).bind fun candidate => ?_
  refine (atlas.sparesRefusals_findGroup group).bind fun home => ?_
  refine .guard not_false ?_
  dsimp only
  split
  · exact .ok _
  · split
    · exact .error not_false
    · exact .ok _

theorem sparesRefusals_planVisibility (module target : ModuleId) (level : Visibility) :
    SparesRefusals (atlas.planVisibility module target level) := by
  refine (atlas.sparesRefusals_findModule module).bind fun importer => ?_
  refine (atlas.sparesRefusals_findModule target).bind fun imported => ?_
  refine .guard not_false ?_
  refine .guard not_false ?_
  exact .guard not_false (.ok _)

theorem sparesRefusals_planAttachment (module : ModuleId) (attachment : Module → Module) :
    SparesRefusals (atlas.planAttachment module attachment) :=
  (atlas.sparesRefusals_findModule module).bind fun _ => .ok _

/-- No single command but a declaration of imports fails with what a hierarchy refuses. -/
theorem sparesRefusals_plan {command : Command} (single : command.IsSingle)
    (other : ∀ module imports, command ≠ .setImports module imports) :
    SparesRefusals (atlas.plan command) := by
  cases command with
  | createProject name => exact ((sparesRefusals_next .project _).bind fun _ => .ok _).map _
  | createGroup project parent name =>
    exact (atlas.sparesRefusals_planGroup project parent name).map _
  | createModule group name location =>
    cases group with
    | none => exact (atlas.sparesRefusals_planLoose name location false).map _
    | some group => exact (atlas.sparesRefusals_planMember group name location).map _
  | createFictive name => exact (atlas.sparesRefusals_planLoose name .synthetic true).map _
  | setDefault group module => exact (atlas.sparesRefusals_planDefault group module).map _
  | setImports module imports => exact absurd rfl (other module imports)
  | setVisibility module target level =>
    exact (atlas.sparesRefusals_planVisibility module target level).map _
  | declareImports module imports => exact absurd single id
  | setFictive module fictive => exact (atlas.sparesRefusals_planAttachment module _).map _
  | setComment module comment => exact (atlas.sparesRefusals_planAttachment module _).map _
  | setDeprecation module deprecation =>
    exact (atlas.sparesRefusals_planAttachment module _).map _

end Atlas

end ModuleAtlas
