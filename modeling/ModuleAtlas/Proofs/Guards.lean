import Mathlib.Data.List.Nodup
import ModuleAtlas.Proofs.Arrangement

/-!
# Checks that settings switch off

Settings can switch off the check for cycles and the check for levels that come out of order.  Both
do nothing but refuse.  As long as they refuse nothing, every command answers without them what it
answers with them, other faults included, and the atlas grows in the same way.
-/

namespace ModuleAtlas

/-- Settings that differ from others only in that some checks are switched off. -/
structure Settings.Relaxes (relaxed settings : Settings) : Prop where
  verbosity : relaxed.verbosity = settings.verbosity
  checkAcyclic : relaxed.checkAcyclic → settings.checkAcyclic
  strictOrdering : relaxed.strictOrdering → settings.strictOrdering

/-- The fault of a check that settings can switch off. -/
def Fault.IsOptional : Fault → Prop
  | .cycle .. | .missingImport .. | .premature .. => True
  | _ => False

/-! ## Hierarchies without the check for cycles -/

namespace Hierarchy

variable {α : Type} [LT α] [DecidableEq α]

theorem register_withAcyclicCheck (hierarchy : Hierarchy α) (node : α) (enabled : Bool) :
    (hierarchy.withAcyclicCheck enabled).register node =
      (hierarchy.register node).withAcyclicCheck enabled := by
  have same : (hierarchy.withAcyclicCheck enabled).contains node = hierarchy.contains node := rfl
  unfold register
  rw [same]
  split
  · rfl
  · rfl

variable [DecidableLT α] [LE α] [Std.IsLinearOrder α] [Std.LawfulOrderLT α]

/-- What passes the check for cycles passes without it. -/
theorem relate_withAcyclicCheck {hierarchy next : Hierarchy α} {greater smaller : α}
    {enabled : Bool} (weaker : enabled → hierarchy.checkAcyclic)
    (accepted : hierarchy.relate greater smaller = .ok next) :
    (hierarchy.withAcyclicCheck enabled).relate greater smaller =
      .ok (next.withAcyclicCheck enabled) := by
  obtain ⟨upper, lower, upperFound, lowerFound, effect⟩ := relate_eq_ok_iff.1 accepted
  refine relate_eq_ok_iff.2 ⟨upper, lower, upperFound, lowerFound, ?_⟩
  split at effect
  next present => rw [if_pos present, effect]
  next absent =>
    obtain ⟨harmless, rfl⟩ := effect
    rw [if_neg absent]
    exact ⟨fun closes => harmless ⟨weaker closes.1, closes.2⟩, rfl⟩

theorem run_fan_withAcyclicCheck {hierarchy : Hierarchy α} (closed : hierarchy.Closed)
    {enabled : Bool} (weaker : enabled → hierarchy.checkAcyclic) {source : α} {targets : List α}
    (extendable : hierarchy.Extendable source targets) :
    (hierarchy.withAcyclicCheck enabled).run (fan source targets) =
      (hierarchy.run (fan source targets)).withAcyclicCheck enabled := by
  induction targets generalizing hierarchy with
  | nil => rfl
  | cons target rest ih =>
    obtain ⟨next, accepted, further⟩ := extendable.step closed
    have weakerNext : enabled → next.checkAcyclic := by
      rw [checkAcyclic_relate accepted]
      exact weaker
    rw [run_fan_cons accepted, run_fan_cons (relate_withAcyclicCheck weaker accepted)]
    exact ih (closed_relate closed accepted) weakerNext further

end Hierarchy

namespace Atlas

/-! ## Atlases under other settings -/

/-- The same atlas with other settings, and both hierarchies with the check that these ask for. -/
def under (atlas : Atlas) (settings : Settings) : Atlas :=
  { atlas with
    settings
    nesting := atlas.nesting.withAcyclicCheck settings.checkAcyclic
    importation := atlas.importation.withAcyclicCheck settings.checkAcyclic }

theorem empty_under (settings relaxed : Settings) :
    (empty settings).under relaxed = empty relaxed := rfl

variable {atlas : Atlas} {relaxed : Settings}

theorem wellFormed_under (wellFormed : atlas.WellFormed) (settings : Settings) :
    (atlas.under settings).WellFormed where
  checked := by
    intro axis
    cases axis with
    | nesting => rfl
    | importation => rfl
  closed := by
    intro axis
    cases axis with
    | nesting => exact Hierarchy.closed_withAcyclicCheck (wellFormed.closed .nesting) _
    | importation => exact Hierarchy.closed_withAcyclicCheck (wellFormed.closed .importation) _
  nodes := by
    intro axis
    cases axis with
    | nesting => exact wellFormed.nodes .nesting
    | importation => exact wellFormed.nodes .importation
  ids := wellFormed.ids
  members := wellFormed.members
  standing := wellFormed.standing
  parents := wellFormed.parents
  owners := wellFormed.owners

theorem under_addGroup (atlas : Atlas) (group : Group) (settings : Settings) :
    (atlas.under settings).addGroup group = (atlas.addGroup group).under settings := by
  unfold addGroup
  cases group.parent with
  | none => rfl
  | some parent => rfl

theorem under_addModule (atlas : Atlas) (module : Module) (settings : Settings) :
    (atlas.under settings).addModule module = (atlas.addModule module).under settings := by
  simp only [addModule, under, Hierarchy.register_withAcyclicCheck]

/-- Edges that are all accepted are added in the same way. -/
theorem under_linked (wellFormed : atlas.WellFormed)
    (weaker : relaxed.checkAcyclic → atlas.settings.checkAcyclic) (axis : Axis) {source : ModuleId}
    {targets : List ModuleId} (extendable : (atlas.hierarchy axis).Extendable source targets) :
    (atlas.under relaxed).withHierarchy axis
        (((atlas.under relaxed).hierarchy axis).run (Hierarchy.fan source targets)) =
      (atlas.withHierarchy axis
        ((atlas.hierarchy axis).run (Hierarchy.fan source targets))).under relaxed := by
  have weakerHierarchy : relaxed.checkAcyclic → (atlas.hierarchy axis).checkAcyclic := by
    rw [wellFormed.checked axis]
    exact weaker
  have switched : (atlas.under relaxed).hierarchy axis =
      (atlas.hierarchy axis).withAcyclicCheck relaxed.checkAcyclic := by
    cases axis with
    | nesting => rfl
    | importation => rfl
  rw [switched, Hierarchy.run_fan_withAcyclicCheck (wellFormed.closed axis) weakerHierarchy
    extendable]
  cases axis with
  | nesting => rfl
  | importation => rfl

/-- Nesting edges that are never refused do not depend on the check. -/
theorem under_nested (wellFormed : atlas.WellFormed)
    (weaker : relaxed.checkAcyclic → atlas.settings.checkAcyclic) {owner : ModuleId}
    (known : atlas.nesting.contains owner) {members : List ModuleId}
    (own : ∀ member ∈ members, atlas.MayOwn owner member) :
    (atlas.under relaxed).nested owner members = (atlas.nested owner members).under relaxed :=
  under_linked wellFormed weaker .nesting (wellFormed.extendable_nesting known own)

theorem under_appointed (wellFormed : atlas.WellFormed)
    (weaker : relaxed.checkAcyclic → atlas.settings.checkAcyclic) {group : GroupId} {home : Group}
    {owner : ModuleId} (found : atlas.group? group = some home)
    (vacant : home.defaultModule = none) (member : owner ∈ home.members) :
    (atlas.under relaxed).appointed group home.members owner =
      (atlas.appointed group home.members owner).under relaxed := by
  have designated := wellFormed_designate wellFormed found vacant member
  have foundAfter := Loading.group?_designate_self owner found
  have stands : (atlas.designate group owner).StandsFor owner group := ⟨_, foundAfter, rfl⟩
  have known : ((atlas.designate group owner).hierarchy .nesting).contains owner :=
    designated.contains_of_home (designated.home_of_standsFor stands)
  have own := designated.mayOwn_others foundAfter rfl
  exact under_nested designated weaker known own

theorem under_settled (wellFormed : atlas.WellFormed)
    (weaker : relaxed.checkAcyclic → atlas.settings.checkAcyclic) {group : GroupId}
    {module : ModuleId} (home : atlas.Home module group) :
    (atlas.under relaxed).settled group module = (atlas.settled group module).under relaxed := by
  have groups : (atlas.under relaxed).groups = atlas.groups := rfl
  have sameOwner := ownerIn_congr groups group module
  unfold settled
  rw [sameOwner]
  cases found : atlas.ownerIn group module with
  | none => rfl
  | some owner =>
    obtain ⟨⟨upper, stands⟩, mayOwn⟩ := mayOwn_of_ownerIn home found
    have known : (atlas.hierarchy .nesting).contains owner :=
      wellFormed.contains_of_home (wellFormed.home_of_standsFor stands)
    exact under_nested wellFormed weaker known (List.forall_mem_singleton.2 mayOwn)

theorem under_joined (wellFormed : atlas.WellFormed)
    (weaker : relaxed.checkAcyclic → atlas.settings.checkAcyclic) {group : GroupId} {home : Group}
    {module : Module} (found : atlas.group? group = some home)
    (next : module.id = ⟨atlas.modules.length⟩) (isGroup : module.group = some group)
    (free : home.name = module.name → home.defaultModule = none) :
    (atlas.under relaxed).joined group home module =
      (atlas.joined group home module).under relaxed := by
  have grown := Loading.wellFormed_grown wellFormed next isGroup
  have homeGrown := Loading.home_grown next isGroup
  have grows : ((atlas.under relaxed).addModule module).addMember group module.id =
      ((atlas.addModule module).addMember group module.id).under relaxed := by
    rw [under_addModule]
    rfl
  by_cases named : home.name = module.name
  · have member : module.id ∈ home.members ++ [module.id] :=
      List.mem_append_right _ (List.mem_singleton.2 rfl)
    have foundGrown : ((atlas.addModule module).addMember group module.id).group? group =
        some { home with members := home.members ++ [module.id] } := Loading.group?_grown found
    have appoints := under_appointed grown weaker foundGrown (free named) member
    have appointed := Loading.wellFormed_appointed grown foundGrown (free named) member
    rw [Loading.joined_named named, Loading.joined_named named, grows, appoints]
    exact under_settled appointed weaker homeGrown
  · rw [Loading.joined_unnamed named, Loading.joined_unnamed named, grows]
    exact under_settled grown weaker homeGrown

/-- Imports that pass the check for cycles are added without it as well. -/
theorem under_importing (wellFormed : atlas.WellFormed)
    (weaker : relaxed.checkAcyclic → atlas.settings.checkAcyclic) {module : ModuleId}
    {importer : Module} (known : atlas.module? module = some importer) {imports : List ModuleId}
    (checked : atlas.checkImports module imports = .ok ()) :
    (atlas.under relaxed).importing module imports =
      (atlas.importing module imports).under relaxed :=
  under_linked wellFormed weaker .importation
    (Loading.extendable_imports wellFormed known checked)

end Atlas

/-! ## Results of checks -/

/--
What checks give, and what they give when some optional ones are left out: the same fault, or values
that correspond.  Only where an optional check refuses, nothing is said.
-/
def Persists {α β : Type} (carry : α → β) (checked : Except Fault α) (free : Except Fault β) :
    Prop :=
  match checked with
  | .ok value => free = .ok (carry value)
  | .error fault => fault.IsOptional ∨ free = .error fault

namespace Persists

variable {α β γ δ : Type} {carry : α → β} {carryNext : γ → δ}

protected theorem ok {value : α} {free : Except Fault β} (same : free = .ok (carry value)) :
    Persists carry (.ok value) free := same

protected theorem error {fault : Fault} : Persists carry (.error fault) (.error fault) := Or.inr rfl

/-- A check that is not optional is made in the same way. -/
theorem same (result : Except Fault α) : Persists id result result := by
  cases result with
  | ok value => exact .ok rfl
  | error fault => exact .error

theorem bind {checked : Except Fault α} {free : Except Fault β} {next : α → Except Fault γ}
    {nextFree : β → Except Fault δ} (first : Persists carry checked free)
    (rest : ∀ value, checked = .ok value →
      Persists carryNext (next value) (nextFree (carry value))) :
    Persists carryNext (checked >>= next) (free >>= nextFree) := by
  cases checked with
  | ok value =>
    have passed : free = .ok (carry value) := first
    rw [passed]
    exact rest value rfl
  | error fault =>
    rcases first with optional | refused
    · exact Or.inl optional
    · rw [refused]
      exact .error

/-- A guard may be left out where its fault is optional, and never is made stronger. -/
theorem guard {condition test : Prop} [Decidable condition] [Decidable test] {fault : Fault}
    {next : PUnit → Except Fault γ} {nextFree : PUnit → Except Fault δ}
    (weaker : test → condition) (optional : condition → test ∨ fault.IsOptional)
    (rest : Persists carryNext (next ⟨⟩) (nextFree ⟨⟩)) :
    Persists carryNext (if condition then throw fault >>= next else next ⟨⟩)
      (if test then throw fault >>= nextFree else nextFree ⟨⟩) := by
  by_cases holds : condition
  · rw [if_pos holds]
    rcases optional holds with tested | isOptional
    · rw [if_pos tested]
      exact .error
    · exact Or.inl isOptional
  · rw [if_neg holds, if_neg (mt weaker holds)]
    exact rest

theorem map {checked : Except Fault α} {free : Except Fault β} {f : α → γ} {g : β → δ}
    (first : Persists carry checked free) (agree : ∀ value, carryNext (f value) = g (carry value)) :
    Persists carryNext (checked.map f) (free.map g) := by
  cases checked with
  | ok value =>
    have passed : free = .ok (carry value) := first
    rw [passed]
    exact .ok (congrArg _ (agree value).symm)
  | error fault =>
    rcases first with optional | refused
    · exact Or.inl optional
    · rw [refused]
      exact .error

end Persists

namespace Atlas

variable {atlas : Atlas} {relaxed : Settings}

/-! ## Plans without optional checks -/

def resultUnder {α : Type} (settings : Settings) (result : α × Atlas) : α × Atlas :=
  (result.1, result.2.under settings)

theorem persists_result {α : Type} {next nextUnder : Atlas} (value : α)
    (same : nextUnder = next.under relaxed) :
    Persists (resultUnder relaxed) (.ok (value, next)) (.ok (value, nextUnder)) := by
  rw [same]
  exact .ok rfl

theorem planProject_persists (atlas : Atlas) (relaxed : Settings) (name : String) :
    Persists (resultUnder relaxed) (atlas.planProject name)
      ((atlas.under relaxed).planProject name) :=
  .bind (.same _) fun _ _ => .ok rfl

theorem planGroup_persists (atlas : Atlas) (relaxed : Settings) (project : ProjectId)
    (parent : Option GroupId) (name : String) :
    Persists (resultUnder relaxed) (atlas.planGroup project parent name)
      ((atlas.under relaxed).planGroup project parent name) := by
  refine .bind (.same _) fun _ _ => ?_
  cases parent with
  | none =>
    refine .bind (.same _) fun id _ => ?_
    exact persists_result id (under_addGroup atlas _ relaxed)
  | some parent =>
    refine .bind (.same _) fun _ _ => ?_
    refine .bind (.same _) fun id _ => ?_
    exact persists_result id (under_addGroup atlas _ relaxed)

theorem planLoose_persists (atlas : Atlas) (relaxed : Settings) (name : String)
    (location : Location) (fictive : Bool) :
    Persists (resultUnder relaxed) (atlas.planLoose name location fictive)
      ((atlas.under relaxed).planLoose name location fictive) := by
  refine .bind (.same _) fun id _ => ?_
  exact persists_result id (under_addModule atlas _ relaxed)

theorem planAttachment_persists (atlas : Atlas) (relaxed : Settings) (module : ModuleId)
    (attachment : Module → Module) :
    Persists (resultUnder relaxed) (atlas.planAttachment module attachment)
      ((atlas.under relaxed).planAttachment module attachment) :=
  .bind (.same _) fun _ _ => .ok rfl

theorem planMember_persists (wellFormed : atlas.WellFormed)
    (weaker : relaxed.checkAcyclic → atlas.settings.checkAcyclic) (group : GroupId)
    (name : String) (location : Location) :
    Persists (resultUnder relaxed) (atlas.planMember group name location)
      ((atlas.under relaxed).planMember group name location) := by
  refine .bind (.same _) fun id isNext => ?_
  refine .bind (.same _) fun home isHome => ?_
  refine .bind (.same _) fun project _ => ?_
  have found := Loading.findGroup_eq_ok_iff.1 isHome
  have next := Loading.next_eq_ok isNext
  let module : Module :=
    { id, name, fullName := Module.qualified project.name name, location, group := some group }
  have joins (free : home.name = name → home.defaultModule = none) :
      (atlas.under relaxed).joined group home module =
        (atlas.joined group home module).under relaxed :=
    under_joined wellFormed weaker found next rfl free
  dsimp only [id_eq]
  by_cases named : home.name = name
  · rw [if_pos named, if_pos named]
    cases stands : home.defaultModule with
    | some existing => exact .error
    | none => exact persists_result id (joins fun _ => stands)
  · rw [if_neg named, if_neg named]
    exact persists_result id (joins fun same => absurd same named)

theorem planDefault_persists (wellFormed : atlas.WellFormed)
    (weaker : relaxed.checkAcyclic → atlas.settings.checkAcyclic) (group : GroupId)
    (module : ModuleId) :
    Persists (resultUnder relaxed) (atlas.planDefault group module)
      ((atlas.under relaxed).planDefault group module) := by
  refine .bind (.same _) fun candidate _ => ?_
  refine .bind (.same _) fun home isHome => ?_
  have found := Loading.findGroup_eq_ok_iff.1 isHome
  dsimp only [id_eq]
  by_cases member : module ∈ home.members
  · have listed : ¬ (!home.members.contains module) = true := by simp [member]
    rw [if_neg listed, if_neg listed]
    cases stands : home.defaultModule with
    | none =>
      have appoints := under_appointed wellFormed weaker found stands member
      exact persists_result () appoints
    | some existing =>
      dsimp only
      split
      · exact .error
      · exact .ok rfl
  · have foreign : (!home.members.contains module) = true := by simp [member]
    rw [if_pos foreign, if_pos foreign]
    exact .error

theorem checkImport_persists (weaker : relaxed.checkAcyclic → atlas.settings.checkAcyclic)
    (module imported : ModuleId) :
    Persists id (atlas.checkImport module imported)
      ((atlas.under relaxed).checkImport module imported) := by
  refine .bind (.same _) fun _ _ => ?_
  refine .guard ?_ (fun _ => Or.inr trivial) (.ok rfl)
  intro cycle
  obtain ⟨looked, closes⟩ := Bool.and_eq_true_iff.1 cycle
  exact Bool.and_eq_true_iff.2 ⟨weaker looked, closes⟩

theorem checkImports_persists (weaker : relaxed.checkAcyclic → atlas.settings.checkAcyclic)
    (module : ModuleId) (imports : List ModuleId) :
    Persists id (atlas.checkImports module imports)
      ((atlas.under relaxed).checkImports module imports) := by
  induction imports with
  | nil => exact .ok rfl
  | cons imported rest ih => exact .bind (checkImport_persists weaker module imported) fun _ _ => ih

theorem planImports_persists (wellFormed : atlas.WellFormed)
    (weaker : relaxed.checkAcyclic → atlas.settings.checkAcyclic) (module : ModuleId)
    (imports : List ModuleId) :
    Persists (resultUnder relaxed) (atlas.planImports module imports)
      ((atlas.under relaxed).planImports module imports) := by
  refine .bind (.same _) fun importer isImporter => ?_
  refine .bind (.same _) fun entry _ => ?_
  refine .guard id Or.inl ?_
  refine .bind (checkImports_persists weaker module imports) fun _ checked => ?_
  have known := Loading.findModule_eq_ok_iff.1 isImporter
  exact persists_result () (under_importing wellFormed weaker known checked)

theorem planVisibility_persists
    (weaker : relaxed.strictOrdering → atlas.settings.strictOrdering) (module target : ModuleId)
    (level : Visibility) :
    Persists (resultUnder relaxed) (atlas.planVisibility module target level)
      ((atlas.under relaxed).planVisibility module target level) := by
  have fewer {outOfOrder : Bool} (tested : (relaxed.strictOrdering && outOfOrder) = true) :
      (atlas.settings.strictOrdering && outOfOrder) = true := by
    obtain ⟨strict, found⟩ := Bool.and_eq_true_iff.1 tested
    exact Bool.and_eq_true_iff.2 ⟨weaker strict, found⟩
  refine .bind (.same _) fun importer _ => ?_
  refine .bind (.same _) fun imported _ => ?_
  refine .guard id Or.inl ?_
  refine .guard fewer (fun _ => Or.inr trivial) ?_
  exact .guard fewer (fun _ => Or.inr trivial) (.ok rfl)

/-- Without optional checks a command has the plan that it has with them. -/
theorem plan_persists (wellFormed : atlas.WellFormed) (relaxes : relaxed.Relaxes atlas.settings)
    (command : Command) :
    Persists (resultUnder relaxed) (atlas.plan command) ((atlas.under relaxed).plan command) := by
  have acyclic := relaxes.checkAcyclic
  cases command with
  | createProject name => exact (planProject_persists atlas relaxed name).map fun _ => rfl
  | createGroup project parent name =>
    exact (planGroup_persists atlas relaxed project parent name).map fun _ => rfl
  | createModule group name location =>
    cases group with
    | none => exact (planLoose_persists atlas relaxed name location false).map fun _ => rfl
    | some group =>
      exact (planMember_persists wellFormed acyclic group name location).map fun _ => rfl
  | createFictive name =>
    exact (planLoose_persists atlas relaxed name .synthetic true).map fun _ => rfl
  | setDefault group module =>
    exact (planDefault_persists wellFormed acyclic group module).map fun _ => rfl
  | setImports module imports =>
    exact (planImports_persists wellFormed acyclic module imports).map fun _ => rfl
  | setVisibility module target level =>
    exact (planVisibility_persists relaxes.strictOrdering module target level).map fun _ => rfl
  | declareImports module imports =>
    exact (planImports_persists wellFormed acyclic module (imports.map Prod.fst)).map fun _ => rfl
  | setFictive module fictive =>
    exact (planAttachment_persists atlas relaxed module _).map fun _ => rfl
  | setComment module comment =>
    exact (planAttachment_persists atlas relaxed module _).map fun _ => rfl
  | setDeprecation module deprecation =>
    exact (planAttachment_persists atlas relaxed module _).map fun _ => rfl

/-! ## Runs without optional checks -/

/-- Commands that are accepted with optional checks are accepted without them. -/
theorem Progress.under {after : Atlas} {trace : List Command}
    (progress : Progress atlas trace after) (wellFormed : atlas.WellFormed)
    (relaxes : relaxed.Relaxes atlas.settings) :
    Progress (atlas.under relaxed) trace (after.under relaxed) := by
  induction progress with
  | nil => exact .nil _
  | @cons _ _ _ command _ _ single planned _ ih =>
    have persists := plan_persists wellFormed relaxes command
    rw [planned] at persists
    have settings := (grown_of_plan wellFormed single planned).settings
    exact .cons single persists (ih (wellFormed_plan wellFormed planned) (settings ▸ relaxes))

/-- Stages fail without optional checks where they failed with them, if no such check failed. -/
theorem Staged.under {after : Atlas} {stages : List Command} {result : Except Fault Unit}
    (staged : Staged atlas stages result after) (wellFormed : atlas.WellFormed)
    (relaxes : relaxed.Relaxes atlas.settings)
    (spared : ∀ fault, result = .error fault → ¬ fault.IsOptional) :
    Staged (atlas.under relaxed) stages result (after.under relaxed) := by
  cases staged with
  | all progress => exact .all (progress.under wellFormed relaxes)
  | @part _ _ _ failing _ divided progress single refused =>
    have settings := settings_of_progress wellFormed progress
    have persists := plan_persists (progress.wellFormed wellFormed) (settings ▸ relaxes) failing
    rw [refused] at persists
    have fails := persists.resolve_left (spared _ rfl)
    exact .part divided (progress.under wellFormed relaxes) single fails

/-- A command that no optional check refuses does without these checks what it does with them. -/
theorem perform_under (wellFormed : atlas.WellFormed) (relaxes : relaxed.Relaxes atlas.settings)
    (command : Command)
    (spared : ∀ fault, (atlas.perform command).answer = .error fault → ¬ fault.IsOptional) :
    ((atlas.under relaxed).perform command).answer = (atlas.perform command).answer ∧
      ((atlas.under relaxed).perform command).atlas =
        (atlas.perform command).atlas.under relaxed := by
  have wellFormedUnder := wellFormed_under wellFormed relaxed
  by_cases single : command.IsSingle
  · have persists := plan_persists wellFormed relaxes command
    cases planned : atlas.plan command with
    | ok result =>
      rw [planned] at persists
      obtain ⟨answered, reached⟩ := perform_of_plan_ok wellFormed single planned
      obtain ⟨answeredUnder, reachedUnder⟩ := perform_of_plan_ok wellFormedUnder single persists
      rw [answered, reached, answeredUnder, reachedUnder]
      exact ⟨rfl, rfl⟩
    | error fault =>
      rw [planned] at persists
      obtain ⟨answered, reached⟩ := perform_of_plan_error wellFormed single planned
      have fails := persists.resolve_left (spared fault answered)
      obtain ⟨answeredUnder, reachedUnder⟩ := perform_of_plan_error wellFormedUnder single fails
      rw [answered, reached, answeredUnder, reachedUnder]
      exact ⟨rfl, rfl⟩
  · cases command with
    | declareImports module imports =>
      obtain ⟨result, answered, staged⟩ := perform_declaration wellFormed module imports
      obtain ⟨resultUnder, answeredUnder, stagedUnder⟩ :=
        perform_declaration wellFormedUnder module imports
      have sparedResult (fault : Fault) (failed : result = .error fault) : ¬ fault.IsOptional := by
        refine spared fault ?_
        rw [answered, failed]
        rfl
      obtain ⟨sameResult, sameAtlas⟩ :=
        (staged.under wellFormed relaxes sparedResult).unique stagedUnder
      rw [answered, answeredUnder, sameResult]
      exact ⟨rfl, sameAtlas⟩
    | _ => exact absurd trivial single

theorem run_under (wellFormed : atlas.WellFormed) (relaxes : relaxed.Relaxes atlas.settings)
    {commands : List Command}
    (spared : ∀ fault, .error fault ∈ atlas.answers commands → ¬ fault.IsOptional) :
    (atlas.under relaxed).answers commands = atlas.answers commands ∧
      ∀ earlier, earlier <+: commands →
        (atlas.under relaxed).run earlier = (atlas.run earlier).under relaxed := by
  induction commands generalizing atlas with
  | nil =>
    refine ⟨rfl, fun earlier isEarlier => ?_⟩
    rw [List.prefix_nil.1 isEarlier]
    rfl
  | cons command rest ih =>
    have sparedFirst (fault : Fault) (failed : (atlas.perform command).answer = .error fault) :
        ¬ fault.IsOptional := spared fault (failed ▸ List.mem_cons_self)
    obtain ⟨sameAnswer, sameAtlas⟩ := perform_under wellFormed relaxes command sparedFirst
    have relaxesNext : relaxed.Relaxes (atlas.perform command).atlas.settings := by
      rw [settings_perform wellFormed command]
      exact relaxes
    obtain ⟨sameAnswers, sameRuns⟩ := ih (wellFormed_perform wellFormed command) relaxesNext
      fun fault failed => spared fault (List.mem_cons_of_mem _ failed)
    constructor
    · change ((atlas.under relaxed).perform command).answer ::
        ((atlas.under relaxed).perform command).atlas.answers rest = _
      rw [sameAnswer, sameAtlas, sameAnswers]
      rfl
    · intro earlier isEarlier
      rcases List.prefix_cons_iff.1 isEarlier with rfl | ⟨others, rfl, isPrefix⟩
      · rfl
      · change ((atlas.under relaxed).perform command).atlas.run others = _
        rw [sameAtlas, sameRuns others isPrefix]
        rfl

/--
The checks that settings can switch off do nothing but refuse.  If none of them refuses any of the
commands, then these commands answer the same under settings with fewer checks, whether they succeed
or fail, and lead to the same atlas at every step but for the settings themselves.
-/
theorem checks_only_refuse (settings relaxed : Settings) (relaxes : relaxed.Relaxes settings)
    (commands : List Command)
    (spared : ∀ fault, .error fault ∈ (empty settings).answers commands → ¬ fault.IsOptional) :
    (empty relaxed).answers commands = (empty settings).answers commands ∧
      ∀ earlier, earlier <+: commands →
        (empty relaxed).run earlier = ((empty settings).run earlier).under relaxed := by
  rw [← empty_under settings relaxed]
  exact run_under (wellFormed_empty settings) relaxes spared

/-- Three commands fail for other reasons, and do so as well when nothing is checked. -/
theorem checks_only_refuse_among_faults :
    let strict : Settings := { strictOrdering := true }
    let relaxed : Settings := { checkAcyclic := false }
    let commands : List Command := [.createFictive "a", .createFictive "b",
      .declareImports ⟨0⟩ [(⟨1⟩, .pub), (⟨1⟩, .none)], .setImports ⟨0⟩ [⟨0⟩],
      .setVisibility ⟨1⟩ ⟨2⟩ .pub]
    relaxed.Relaxes strict ∧
      (∀ fault, .error fault ∈ (empty strict).answers commands → ¬ fault.IsOptional) ∧
      (empty relaxed).answers commands = (empty strict).answers commands ∧
      (empty relaxed).run commands = ((empty strict).run commands).under relaxed := by
  intro strict relaxed commands
  have relaxes : relaxed.Relaxes strict := ⟨rfl, by decide, by decide⟩
  have answers : (empty strict).answers commands =
      [.ok (.module ⟨0⟩), .ok (.module ⟨1⟩), .error (.invalidVisibility "a" "b" .none),
        .error (.importsAlreadySet "a"), .error (.unknownModule ⟨2⟩)] := by decide
  have spared (fault : Fault) (failed : .error fault ∈ (empty strict).answers commands) :
      ¬ fault.IsOptional := by
    rw [answers] at failed
    simp only [List.mem_cons, Except.error.injEq, reduceCtorEq, false_or, List.not_mem_nil,
      or_false] at failed
    rcases failed with rfl | rfl | rfl
    all_goals exact id
  obtain ⟨sameAnswers, sameRuns⟩ := checks_only_refuse strict relaxed relaxes commands spared
  exact ⟨relaxes, spared, sameAnswers, sameRuns commands (List.prefix_refl commands)⟩

end Atlas

end ModuleAtlas
