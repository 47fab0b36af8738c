import ModuleAtlas.Proofs.Admission

/-!
# Progress

Commands are carried out at once, but for declarations of imports, which are carried out in stages.
Performing a command carries out its stages up to the first that fails, so every run of commands
comes to a run of accepted stages, and what accepted stages keep holds of all atlases that are
reached.
-/

namespace ModuleAtlas

namespace Command

/-- A command that is carried out at once or not at all. -/
def IsSingle : Command → Prop
  | declareImports .. => False
  | _ => True

/-- The imports of a declaration are wired first and then given their levels one by one. -/
def stages : Command → List Command
  | declareImports module imports =>
    setImports module (imports.map Prod.fst) ::
      imports.map fun (target, level) => setVisibility module target level
  | command => [command]

end Command

namespace Atlas

/-- The plan of a command; of a declaration it is the plan of the first stage. -/
def plan (atlas : Atlas) : Command → Except Fault (Answer × Atlas)
  | .createProject name => (atlas.planProject name).map fun result => (.project result.1, result.2)
  | .createGroup project parent name =>
    (atlas.planGroup project parent name).map fun result => (.group result.1, result.2)
  | .createModule none name location =>
    (atlas.planLoose name location false).map fun result => (.module result.1, result.2)
  | .createModule (some group) name location =>
    (atlas.planMember group name location).map fun result => (.module result.1, result.2)
  | .createFictive name =>
    (atlas.planLoose name .synthetic true).map fun result => (.module result.1, result.2)
  | .setDefault group module =>
    (atlas.planDefault group module).map fun result => (.done, result.2)
  | .setImports module imports =>
    (atlas.planImports module imports).map fun result => (.done, result.2)
  | .setVisibility module target level =>
    (atlas.planVisibility module target level).map fun result => (.done, result.2)
  | .declareImports module imports =>
    (atlas.planImports module (imports.map Prod.fst)).map fun result => (.done, result.2)
  | .setFictive module fictive =>
    (atlas.planAttachment module fun entity => { entity with fictive }).map
      fun result => (.done, result.2)
  | .setComment module comment =>
    (atlas.planAttachment module fun entity => { entity with comment }).map
      fun result => (.done, result.2)
  | .setDeprecation module deprecation =>
    (atlas.planAttachment module fun entity => { entity with deprecation }).map
      fun result => (.done, result.2)

theorem map_eq_ok {α β : Type} {plan : Except Fault α} {f : α → β} {value : β} :
    plan.map f = .ok value ↔ ∃ result, plan = .ok result ∧ f result = value := by
  cases plan with
  | error fault => simp [Except.map]
  | ok result => simp [Except.map]

/--
What an accepted plan comes to: a new project, group, module or member, a default module, the
declared imports of a module, the scope that it took over, something attached to it, or nothing.
-/
inductive Step (before : Atlas) : Command → Atlas → Prop where
  | project (name : String) :
      Step before (.createProject name)
        { before with projects := before.projects ++ [{ id := ⟨before.projects.length⟩, name }] }
  | group {project : ProjectId} {parent : Option GroupId} (name : String)
      (projectKnown : ∃ owner, before.project? project = some owner)
      (parentKnown : ∀ upper, parent = some upper → ∃ entity, before.group? upper = some entity) :
      Step before (.createGroup project parent name)
        (before.addGroup { id := ⟨before.groups.length⟩, name, project, parent })
  | loose {command : Command} (name : String) (location : Location) (fictive : Bool) :
      Step before command
        (before.addModule
          { id := ⟨before.modules.length⟩, name, fullName := name, location, group := none,
            fictive })
  | member {group : GroupId} {home : Group} {project : Project} (name : String)
      (location : Location) (found : before.group? group = some home)
      (inProject : before.project? home.project = some project)
      (free : home.name = name → home.defaultModule = none) :
      Step before (.createModule (some group) name location)
        (before.joined group home
          { id := ⟨before.modules.length⟩, name, fullName := Module.qualified project.name name,
            location, group := some group })
  | appointed {group : GroupId} {home : Group} {owner : ModuleId}
      (found : before.group? group = some home) (vacant : home.defaultModule = none)
      (member : owner ∈ home.members) :
      Step before (.setDefault group owner) (before.appointed group home.members owner)
  | confirmed {group : GroupId} {owner : ModuleId} : Step before (.setDefault group owner) before
  | importing {command : Command} {module : ModuleId} {imports : List ModuleId}
      (wires : command.IsSingle → command = .setImports module imports) :
      Step before command (before.importing module imports)
  | absorbing {module target : ModuleId} {level : Visibility} {importer imported : Module}
      (known : before.module? module = some importer) :
      Step before (.setVisibility module target level)
        (before.updateModule module fun _ => importer.absorbing target level imported.scope)
  | attached {command : Command} (module : ModuleId) (fictive : Module → Bool)
      (comment : Module → Option Comment) (deprecation : Module → Option Deprecation) :
      Step before command
        (before.updateModule module fun entity =>
          { entity with
            fictive := fictive entity
            comment := comment entity
            deprecation := deprecation entity })

theorem step_of_plan {atlas next : Atlas} {command : Command} {answer : Answer}
    (planned : atlas.plan command = .ok (answer, next)) : Step atlas command next := by
  cases command with
  | createProject name =>
    obtain ⟨⟨id, after⟩, accepted, ⟨⟩⟩ := map_eq_ok.1 planned
    obtain ⟨rfl, rfl⟩ := planProject_ok accepted
    exact .project name
  | createGroup project parent name =>
    obtain ⟨⟨id, after⟩, accepted, ⟨⟩⟩ := map_eq_ok.1 planned
    obtain ⟨projectKnown, parentKnown, rfl, rfl⟩ := planGroup_ok accepted
    exact .group name projectKnown parentKnown
  | createModule group name location =>
    cases group with
    | none =>
      obtain ⟨⟨id, after⟩, accepted, ⟨⟩⟩ := map_eq_ok.1 planned
      obtain ⟨rfl, rfl⟩ := planLoose_ok accepted
      exact .loose name location false
    | some group =>
      obtain ⟨⟨id, after⟩, accepted, ⟨⟩⟩ := map_eq_ok.1 planned
      obtain ⟨home, project, found, inProject, free, rfl, rfl⟩ := planMember_ok accepted
      exact .member name location found inProject free
  | createFictive name =>
    obtain ⟨⟨id, after⟩, accepted, ⟨⟩⟩ := map_eq_ok.1 planned
    obtain ⟨rfl, rfl⟩ := planLoose_ok accepted
    exact .loose name .synthetic true
  | setDefault group module =>
    obtain ⟨⟨done, after⟩, accepted, ⟨⟩⟩ := map_eq_ok.1 planned
    obtain ⟨home, found, member, ⟨vacant, rfl⟩ | ⟨_, rfl⟩⟩ := planDefault_ok accepted
    · exact .appointed found vacant member
    · exact .confirmed
  | setImports module imports =>
    obtain ⟨⟨done, after⟩, accepted, ⟨⟩⟩ := map_eq_ok.1 planned
    obtain ⟨_, _, _, _, _, _, rfl⟩ := planImports_eq_ok_iff.1 accepted
    exact .importing fun _ => rfl
  | setVisibility module target level =>
    obtain ⟨⟨done, after⟩, accepted, ⟨⟩⟩ := map_eq_ok.1 planned
    obtain ⟨importer, imported, known, _, _, _, rfl⟩ := planVisibility_eq_ok_iff.1 accepted
    exact .absorbing known
  | declareImports module imports =>
    obtain ⟨⟨done, after⟩, accepted, ⟨⟩⟩ := map_eq_ok.1 planned
    obtain ⟨_, _, _, _, _, _, rfl⟩ := planImports_eq_ok_iff.1 accepted
    exact .importing fun single => absurd single id
  | setFictive module fictive =>
    obtain ⟨⟨done, after⟩, accepted, ⟨⟩⟩ := map_eq_ok.1 planned
    rw [(planAttachment_ok accepted).2]
    exact .attached module (fun _ => fictive) Module.comment Module.deprecation
  | setComment module comment =>
    obtain ⟨⟨done, after⟩, accepted, ⟨⟩⟩ := map_eq_ok.1 planned
    rw [(planAttachment_ok accepted).2]
    exact .attached module Module.fictive (fun _ => comment) Module.deprecation
  | setDeprecation module deprecation =>
    obtain ⟨⟨done, after⟩, accepted, ⟨⟩⟩ := map_eq_ok.1 planned
    rw [(planAttachment_ok accepted).2]
    exact .attached module Module.fictive Module.comment fun _ => deprecation

/-- Accepted plans keep atlases well-formed. -/
theorem wellFormed_plan {atlas next : Atlas} (wellFormed : atlas.WellFormed) {command : Command}
    {answer : Answer} (planned : atlas.plan command = .ok (answer, next)) : next.WellFormed := by
  cases step_of_plan planned with
  | project name => exact wellFormed_addProject wellFormed _
  | group name projectKnown parentKnown => exact wellFormed_addGroup wellFormed rfl rfl parentKnown
  | loose name location fictive => exact wellFormed_addModule wellFormed rfl
  | member name location found inProject free =>
    exact Loading.wellFormed_joined wellFormed found rfl rfl free
  | appointed found vacant member =>
    exact Loading.wellFormed_appointed wellFormed found vacant member
  | confirmed => exact wellFormed
  | importing wires => exact wellFormed_import wellFormed _ _
  | @absorbing module _ _ importer _ isImporter =>
    have found {entity : Module} (known : atlas.module? module = some entity) :
        entity = importer := Option.some.inj (known.symm.trans isImporter)
    refine wellFormed_updateModule wellFormed module (fun known => ?_) fun known => ?_
    · rw [found known]
      rfl
    · rw [found known]
      rfl
  | attached module => exact wellFormed_updateModule wellFormed module (fun _ => rfl) fun _ => rfl

/-! ## Single commands -/

/-- In a well-formed atlas the operation of a single command follows its plan. -/
theorem operation_follows {atlas : Atlas} (wellFormed : atlas.WellFormed) {command : Command}
    (single : command.IsSingle) : Loading.Follows command.operation atlas (atlas.plan command) := by
  cases command with
  | createProject name => exact .map _ (Loading.createProject_follows atlas name)
  | createGroup project parent name =>
    exact .map_reported _ (Loading.createGroup_follows atlas project parent name)
  | createModule group name location =>
    cases group with
    | none => exact .map_reported _ (Loading.createLoose_follows atlas name location false)
    | some group =>
      exact .map_reported _ (Loading.createMember_follows wellFormed group name location)
  | createFictive name => exact .map _ (Loading.createLoose_follows atlas name .synthetic true)
  | setDefault group module =>
    exact .map_reported _ (Loading.setDefault_follows wellFormed group module)
  | setImports module imports =>
    exact .map_reported _ (Loading.setImports_follows wellFormed module imports)
  | setVisibility module target level =>
    exact .map_reported _ (Loading.setVisibility_follows atlas module target level)
  | declareImports module imports => exact absurd single id
  | setFictive module fictive => exact .map _ (Loading.attach_follows atlas module _)
  | setComment module comment => exact .map _ (Loading.attach_follows atlas module _)
  | setDeprecation module deprecation => exact .map _ (Loading.attach_follows atlas module _)

theorem perform_of_plan_ok {atlas next : Atlas} (wellFormed : atlas.WellFormed) {command : Command}
    (single : command.IsSingle) {answer : Answer}
    (planned : atlas.plan command = .ok (answer, next)) :
    (atlas.perform command).answer = .ok answer ∧ (atlas.perform command).atlas = next := by
  have follows := operation_follows wellFormed single
  rw [planned] at follows
  exact perform_of_yields follows

theorem perform_of_plan_error {atlas : Atlas} (wellFormed : atlas.WellFormed) {command : Command}
    (single : command.IsSingle) {fault : Fault} (planned : atlas.plan command = .error fault) :
    (atlas.perform command).answer = .error fault ∧ (atlas.perform command).atlas = atlas := by
  have follows := operation_follows wellFormed single
  rw [planned] at follows
  exact perform_of_yields follows

/-- What holds of an atlas and of everything that may be planned for it holds after a command. -/
theorem perform_of_plan {atlas : Atlas} (wellFormed : atlas.WellFormed) {command : Command}
    (single : command.IsSingle) {property : Atlas → Prop} (unchanged : property atlas)
    (accepted : ∀ answer next, atlas.plan command = .ok (answer, next) → property next) :
    property (atlas.perform command).atlas := by
  cases planned : atlas.plan command with
  | ok result =>
    rw [(perform_of_plan_ok wellFormed single planned).2]
    exact accepted _ _ planned
  | error fault =>
    rw [(perform_of_plan_error wellFormed single planned).2]
    exact unchanged

/-- A command that succeeds was planned. -/
theorem plan_of_answer_ok {atlas : Atlas} (wellFormed : atlas.WellFormed) {command : Command}
    (single : command.IsSingle) {answer : Answer}
    (answered : (atlas.perform command).answer = .ok answer) :
    atlas.plan command = .ok (answer, (atlas.perform command).atlas) := by
  cases planned : atlas.plan command with
  | error fault =>
    rw [(perform_of_plan_error wellFormed single planned).1] at answered
    cases answered
  | ok result =>
    obtain ⟨given, reached⟩ := perform_of_plan_ok wellFormed single planned
    rw [given] at answered
    rw [reached, ← Except.ok.inj answered]

/-! ## Accepted commands -/

/-- Single commands that are accepted one after another lead from an atlas to another one. -/
inductive Progress : Atlas → List Command → Atlas → Prop where
  | nil (atlas : Atlas) : Progress atlas [] atlas
  | cons {atlas next after : Atlas} {command : Command} {rest : List Command} {answer : Answer}
      (single : command.IsSingle) (planned : atlas.plan command = .ok (answer, next))
      (later : Progress next rest after) : Progress atlas (command :: rest) after

namespace Progress

variable {atlas middle after : Atlas} {first second : List Command}

theorem append (earlier : Progress atlas first middle) (later : Progress middle second after) :
    Progress atlas (first ++ second) after := by
  induction earlier with
  | nil => exact later
  | cons single planned _ ih => exact .cons single planned (ih later)

theorem wellFormed (progress : Progress atlas first after) (start : atlas.WellFormed) :
    after.WellFormed := by
  induction progress with
  | nil => exact start
  | cons _ planned _ ih => exact ih (wellFormed_plan start planned)

/-- Progress is what performing the commands comes to. -/
theorem run_eq (progress : Progress atlas first after) (start : atlas.WellFormed) :
    atlas.run first = after := by
  induction progress with
  | nil => rfl
  | @cons atlas next after command rest answer single planned _ ih =>
    change (atlas.perform command).atlas.run rest = after
    rw [(perform_of_plan_ok start single planned).2]
    exact ih (wellFormed_plan start planned)

theorem answers_ok (progress : Progress atlas first after) (start : atlas.WellFormed) :
    ∀ answer ∈ atlas.answers first, ∃ value, answer = .ok value := by
  induction progress with
  | nil => exact fun _ member => nomatch member
  | @cons atlas next after command rest answer single planned _ ih =>
    obtain ⟨answered, reached⟩ := perform_of_plan_ok start single planned
    intro other member
    rcases List.mem_cons.1 member with rfl | further
    · exact ⟨answer, answered⟩
    · rw [reached] at further
      exact ih (wellFormed_plan start planned) other further

end Progress

/-! ## Stages -/

/-- Stages were all accepted, or those before the first one that fails. -/
inductive Staged (atlas : Atlas) (stages : List Command) : Except Fault Unit → Atlas → Prop where
  | all {after : Atlas} (progress : Progress atlas stages after) :
      Staged atlas stages (.ok ()) after
  | part {after : Atlas} {done rest : List Command} {failing : Command} {fault : Fault}
      (divided : stages = done ++ failing :: rest) (progress : Progress atlas done after)
      (single : failing.IsSingle) (refused : after.plan failing = .error fault) :
      Staged atlas stages (.error fault) after

theorem Staged.wellFormed {atlas after : Atlas} {stages : List Command} {result : Except Fault Unit}
    (staged : Staged atlas stages result after) (start : atlas.WellFormed) : after.WellFormed := by
  cases staged with
  | all progress => exact progress.wellFormed start
  | part _ progress _ _ => exact progress.wellFormed start

/-- What failed and what had been carried out before. -/
theorem Staged.divided {atlas after : Atlas} {stages : List Command} {fault : Fault}
    (staged : Staged atlas stages (.error fault) after) :
    ∃ done rest failing, stages = done ++ failing :: rest ∧ Progress atlas done after ∧
      failing.IsSingle ∧ after.plan failing = .error fault := by
  cases staged with
  | part divided progress single refused => exact ⟨_, _, _, divided, progress, single, refused⟩

theorem Staged.cons {atlas next after : Atlas} {command : Command} {rest : List Command}
    {answer : Answer} {result : Except Fault Unit} (single : command.IsSingle)
    (planned : atlas.plan command = .ok (answer, next)) (later : Staged next rest result after) :
    Staged atlas (command :: rest) result after := by
  cases later with
  | all progress => exact .all (.cons single planned progress)
  | part divided progress failingSingle refused =>
    rw [divided]
    exact .part rfl (.cons single planned progress) failingSingle refused

theorem Staged.of_nil {atlas after : Atlas} {result : Except Fault Unit}
    (staged : Staged atlas [] result after) : result = .ok () ∧ after = atlas := by
  cases staged with
  | all progress =>
    cases progress
    exact ⟨rfl, rfl⟩
  | part divided _ _ _ => exact absurd divided.symm (List.append_ne_nil_of_right_ne_nil _ (by simp))

/-- The first stage was accepted and the others went as they did, or nothing was carried out. -/
theorem Staged.cons_cases {atlas after : Atlas} {command : Command} {rest : List Command}
    {result : Except Fault Unit} (staged : Staged atlas (command :: rest) result after) :
    (∃ answer next, atlas.plan command = .ok (answer, next) ∧ Staged next rest result after) ∨
      ∃ fault, atlas.plan command = .error fault ∧ result = .error fault ∧ after = atlas := by
  cases staged with
  | all progress =>
    cases progress with
    | cons single planned later => exact Or.inl ⟨_, _, planned, .all later⟩
  | @part _ done _ _ _ divided progress single refused =>
    cases done with
    | nil =>
      obtain ⟨rfl, rfl⟩ := List.cons.inj divided
      cases progress
      exact Or.inr ⟨_, refused, rfl, rfl⟩
    | cons first others =>
      obtain ⟨rfl, rfl⟩ := List.cons.inj divided
      cases progress with
      | cons firstSingle planned later =>
        exact Or.inl ⟨_, _, planned, .part rfl later single refused⟩

/-- There is one way to carry out stages. -/
theorem Staged.unique {atlas after other : Atlas} {stages : List Command}
    {result otherResult : Except Fault Unit} (staged : Staged atlas stages result after)
    (twin : Staged atlas stages otherResult other) : otherResult = result ∧ other = after := by
  induction stages generalizing atlas with
  | nil =>
    obtain ⟨rfl, rfl⟩ := staged.of_nil
    exact twin.of_nil
  | cons command rest ih =>
    rcases staged.cons_cases with ⟨answer, next, planned, later⟩ | ⟨fault, refused, rfl, rfl⟩
    · rcases twin.cons_cases with ⟨_, _, twinPlanned, twinLater⟩ | ⟨_, twinRefused, _, _⟩
      · obtain ⟨rfl, rfl⟩ := Prod.mk.inj (Except.ok.inj (twinPlanned.symm.trans planned))
        exact ih later twinLater
      · cases twinRefused.symm.trans planned
    · rcases twin.cons_cases with ⟨_, _, twinPlanned, _⟩ | ⟨_, twinRefused, rfl, rfl⟩
      · cases twinPlanned.symm.trans refused
      · exact ⟨congrArg _ (Except.error.inj (twinRefused.symm.trans refused)), rfl⟩

/-- Levels are given one by one up to the first that is refused. -/
theorem levels_staged (module : ModuleId) (imports : List (ModuleId × Visibility))
    (atlas : Atlas) :
    ∃ result after, Loading.Yields
      (imports.forM fun (target, level) =>
        Loading.reported (Loading.setVisibility module target level)) atlas result after ∧
      Staged atlas (imports.map fun (target, level) => .setVisibility module target level)
        result after := by
  induction imports generalizing atlas with
  | nil => exact ⟨.ok (), atlas, .forM_nil _ atlas, .all (.nil atlas)⟩
  | cons entry rest ih =>
    obtain ⟨target, level⟩ := entry
    have follows := Loading.setVisibility_follows atlas module target level
    cases planned : atlas.planVisibility module target level with
    | ok result =>
      obtain ⟨⟨⟩, next⟩ := result
      rw [planned] at follows
      have accepted : atlas.plan (.setVisibility module target level) = .ok (.done, next) := by
        simp only [plan, planned, Except.map]
      obtain ⟨result, after, yields, staged⟩ := ih next
      exact ⟨result, after, .forM_cons (.reported follows) yields, staged.cons trivial accepted⟩
    | error fault =>
      rw [planned] at follows
      have refused : atlas.plan (.setVisibility module target level) = .error fault := by
        simp only [plan, planned, Except.map]
      have single : (Command.setVisibility module target level).IsSingle := trivial
      exact ⟨.error fault, atlas, .fail (.reported follows),
        .part rfl (.nil atlas) single refused⟩

theorem declareImports_staged {atlas : Atlas} (wellFormed : atlas.WellFormed) (module : ModuleId)
    (imports : List (ModuleId × Visibility)) :
    ∃ result after, Loading.Yields (Loading.declareImports module imports) atlas result after ∧
      Staged atlas (Command.declareImports module imports).stages result after := by
  have follows := Loading.setImports_follows wellFormed module (imports.map Prod.fst)
  cases planned : atlas.planImports module (imports.map Prod.fst) with
  | ok result =>
    obtain ⟨⟨⟩, wired⟩ := result
    rw [planned] at follows
    have accepted :
        atlas.plan (.setImports module (imports.map Prod.fst)) = .ok (.done, wired) := by
      simp only [plan, planned, Except.map]
    obtain ⟨result, after, yields, staged⟩ := levels_staged module imports wired
    exact ⟨result, after, .bind (.reported follows) yields, staged.cons trivial accepted⟩
  | error fault =>
    rw [planned] at follows
    have refused : atlas.plan (.setImports module (imports.map Prod.fst)) = .error fault := by
      simp only [plan, planned, Except.map]
    have single : (Command.setImports module (imports.map Prod.fst)).IsSingle := trivial
    exact ⟨.error fault, atlas, .fail (.reported follows), .part rfl (.nil atlas) single refused⟩

/-- A declaration carries out its stages up to the first that fails. -/
theorem perform_declaration {atlas : Atlas} (wellFormed : atlas.WellFormed) (module : ModuleId)
    (imports : List (ModuleId × Visibility)) :
    ∃ result, (atlas.perform (.declareImports module imports)).answer =
        result.map (fun _ => Answer.done) ∧
      Staged atlas (Command.declareImports module imports).stages result
        (atlas.perform (.declareImports module imports)).atlas := by
  obtain ⟨result, after, yields, staged⟩ := declareImports_staged wellFormed module imports
  have operation : Loading.Yields (Command.declareImports module imports).operation atlas
      (result.map fun _ => Answer.done) after := yields.map _
  obtain ⟨answered, reached⟩ := perform_of_yields operation
  rw [reached]
  exact ⟨result, answered, staged⟩

/-- Every command carries out its stages up to the first that fails, and fails as that one does. -/
theorem perform_staged {atlas : Atlas} (wellFormed : atlas.WellFormed) (command : Command) :
    Staged atlas command.stages ((atlas.perform command).answer.map fun _ => ())
      (atlas.perform command).atlas := by
  by_cases single : command.IsSingle
  · have alone : command.stages = [command] := by
      cases command with
      | declareImports module imports => exact absurd single id
      | _ => rfl
    rw [alone]
    cases planned : atlas.plan command with
    | ok result =>
      obtain ⟨answered, reached⟩ := perform_of_plan_ok wellFormed single planned
      rw [answered, reached]
      exact .all (.cons single planned (.nil _))
    | error fault =>
      obtain ⟨answered, reached⟩ := perform_of_plan_error wellFormed single planned
      rw [answered, reached]
      exact .part rfl (.nil atlas) single planned
  · cases command with
    | declareImports module imports =>
      obtain ⟨result, answered, staged⟩ := perform_declaration wellFormed module imports
      rw [answered]
      cases result with
      | ok value => exact staged
      | error fault => exact staged
    | _ => exact absurd trivial single

/-! ## Atlases that commands lead to -/

theorem wellFormed_perform {atlas : Atlas} (wellFormed : atlas.WellFormed) (command : Command) :
    (atlas.perform command).atlas.WellFormed :=
  (perform_staged wellFormed command).wellFormed wellFormed

theorem wellFormed_run {atlas : Atlas} (wellFormed : atlas.WellFormed) (commands : List Command) :
    (atlas.run commands).WellFormed := by
  induction commands generalizing atlas with
  | nil => exact wellFormed
  | cons command rest ih => exact ih (wellFormed_perform wellFormed command)

/-- Every atlas that commands lead to is well-formed. -/
theorem wellFormed_reached (settings : Settings) (commands : List Command) :
    ((empty settings).run commands).WellFormed :=
  wellFormed_run (wellFormed_empty settings) commands

end Atlas

end ModuleAtlas
