import ModuleAtlas.Proofs.Forest

/-!
# Groups below groups of other projects

A group is created in a project and below a parent, and nothing compares the project of the parent
with that of the group.  Groups never change their project, so trees of groups and with them owners
stay within projects exactly if every group was created in the project of its parent.
-/

namespace ModuleAtlas

namespace Atlas

def InProject (atlas : Atlas) (group : GroupId) (project : ProjectId) : Prop :=
  ∃ entity, atlas.group? group = some entity ∧ entity.project = project

def Aligned (atlas : Atlas) : Prop :=
  ∀ parent group, atlas.IsParent parent group →
    ∃ project, atlas.InProject parent project ∧ atlas.InProject group project

section Groups

variable {before after : Atlas} {id : GroupId} {project : ProjectId}

theorem InProject.unique {other : ProjectId} (first : before.InProject id project)
    (second : before.InProject id other) : other = project := by
  obtain ⟨entity, found, rfl⟩ := first
  obtain ⟨twin, foundTwin, rfl⟩ := second
  rw [found, Option.some.injEq] at foundTwin
  rw [foundTwin]

/-- What groups were created with is found for the same groups if the same ones were created. -/
theorem exists_group?_of_outlines {property : Group → Prop}
    (created : ∀ group : Group, property group.outline ↔ property group)
    (same : after.groups.map Group.outline = before.groups.map Group.outline) :
    (∃ entity, after.group? id = some entity ∧ property entity) ↔
      ∃ entity, before.group? id = some entity ∧ property entity := by
  have outlined (atlas : Atlas) : (∃ entity, atlas.group? id = some entity ∧ property entity) ↔
      ∃ outline, (atlas.groups.map Group.outline)[id.index]? = some outline ∧
        property outline := by
    rw [List.getElem?_map]
    change _ ↔ ∃ outline, (atlas.group? id).map Group.outline = some outline ∧ property outline
    cases atlas.group? id with
    | none => simp
    | some entity => simp [created]
  rw [outlined, outlined, same]

theorem aligned_congr (same : after.groups.map Group.outline = before.groups.map Group.outline) :
    after.Aligned ↔ before.Aligned := by
  have isParent (parent group : GroupId) :
      after.IsParent parent group ↔ before.IsParent parent group :=
    exists_group?_of_outlines (fun _ => Iff.rfl) same
  have inProject (group : GroupId) (project : ProjectId) :
      after.InProject group project ↔ before.InProject group project :=
    exists_group?_of_outlines (fun _ => Iff.rfl) same
  simp only [Aligned, isParent, inProject]

/-! ## Single commands -/

/-- Groups that were there before are in the same project after a new one was created. -/
theorem inProject_addGroup (group : Group) (known : before.Knows id) :
    (before.addGroup group).InProject id project ↔ before.InProject id project := by
  obtain ⟨entity, known⟩ := known
  obtain ⟨children, found⟩ := group?_addGroup_of_some known group
  simp [InProject, known, found]

/-- The atlas stays aligned if and only if the new group is in the project of its parent. -/
theorem aligned_addGroup_iff (forested : before.Forested) {group : Group}
    (parentKnown : ∀ upper, group.parent = some upper → before.Knows upper) :
    (before.addGroup group).Aligned ↔ before.Aligned ∧
      ∀ upper, group.parent = some upper → before.InProject upper group.project := by
  have new : ∃ children, (before.addGroup group).group? ⟨before.groups.length⟩ =
      some { group with children } := by
    rw [group?_addGroup, List.getElem?_concat_length, Option.map_some]
    split
    · exact ⟨_, rfl⟩
    · exact ⟨group.children, rfl⟩
  obtain ⟨children, isNew⟩ := new
  have kept {parent child : GroupId} (isParent : before.IsParent parent child) :
      (before.addGroup group).IsParent parent child := by
    obtain ⟨entity, known, parentOf⟩ := isParent
    obtain ⟨_, found⟩ := group?_addGroup_of_some known group
    exact ⟨_, found, parentOf⟩
  constructor
  · intro aligned
    constructor
    · intro parent child isParent
      obtain ⟨project, above, below⟩ := aligned parent child (kept isParent)
      rw [inProject_addGroup group (forested.parents isParent)] at above
      rw [inProject_addGroup group isParent.knows] at below
      exact ⟨project, above, below⟩
    · intro upper isParent
      obtain ⟨project, above, below⟩ := aligned upper _ ⟨_, isNew, isParent⟩
      rw [inProject_addGroup group (parentKnown upper isParent)] at above
      have same : project = group.project := InProject.unique ⟨_, isNew, rfl⟩ below
      exact same ▸ above
  · rintro ⟨aligned, chosen⟩ parent child ⟨entity, found, isParent⟩
    obtain ⟨old, _, rfl, known | ⟨rfl, rfl⟩⟩ := group?_addGroup_cases found
    · have wasParent : before.IsParent parent child := ⟨old, known, isParent⟩
      obtain ⟨project, above, below⟩ := aligned parent child wasParent
      exact ⟨project, (inProject_addGroup group (forested.parents wasParent)).2 above,
        (inProject_addGroup group wasParent.knows).2 below⟩
    · refine ⟨old.project, ?_, ⟨_, found, rfl⟩⟩
      exact (inProject_addGroup old (parentKnown parent isParent)).2 (chosen parent isParent)

end Groups

/-- Only the creation of a group changes which groups there are. -/
theorem outlines_perform {atlas : Atlas} (wellFormed : atlas.WellFormed) {command : Command}
    (other : ∀ project parent name, command ≠ .createGroup project parent name) :
    (atlas.perform command).atlas.groups.map Group.outline =
      atlas.groups.map Group.outline := by
  have populates := populates_perform wellFormed command
  generalize (atlas.perform command).atlas = after at populates
  cases populates with
  | steady alike => rw [alike.groups]
  | project name => rfl
  | group name projectKnown parentKnown => exact absurd rfl (other _ _ _)
  | loose name location fictive => rfl
  | @member group home project name location found inProject free =>
    apply outlines_of_group? fun id => group?_joined atlas group id home _
    intro id entity
    split <;> rfl
  | @appointed group home owner found vacant member =>
    apply outlines_of_group? fun id => group?_designate atlas group id owner
    intro id entity
    split <;> rfl

/--
A command keeps an atlas aligned exactly if it does not create a group below one of another project.
-/
theorem aligned_perform_iff {atlas : Atlas} (wellFormed : atlas.WellFormed)
    (forested : atlas.Forested) (command : Command) :
    (atlas.perform command).atlas.Aligned ↔ atlas.Aligned ∧
      ∀ project parent name answer, command = .createGroup project (some parent) name →
        (atlas.perform command).answer = .ok answer → atlas.InProject parent project := by
  by_cases creates : ∃ project parent name, command = .createGroup project parent name
  · obtain ⟨project, parent, name, rfl⟩ := creates
    have single : (Command.createGroup project parent name).IsSingle := trivial
    cases planned : atlas.plan (.createGroup project parent name) with
    | ok result =>
      obtain ⟨answered, reached⟩ := perform_of_plan_ok wellFormed single planned
      obtain ⟨⟨id, after⟩, accepted, ⟨⟩⟩ := map_eq_ok.1 planned
      obtain ⟨_, parentKnown, _, rfl⟩ := planGroup_ok accepted
      rw [reached, answered, aligned_addGroup_iff forested parentKnown]
      refine and_congr_right fun _ => ⟨?_, ?_⟩
      · rintro chosen _ upper _ _ ⟨⟩ _
        exact chosen upper rfl
      · rintro chosen upper rfl
        exact chosen project upper name _ rfl rfl
    | error fault =>
      obtain ⟨answered, reached⟩ := perform_of_plan_error wellFormed single planned
      rw [reached, answered]
      refine (and_iff_left ?_).symm
      rintro _ _ _ _ _ ⟨⟩
  · have other (project : ProjectId) (parent : Option GroupId) (name : String) :
        command ≠ .createGroup project parent name :=
      fun same => creates ⟨project, parent, name, same⟩
    rw [aligned_congr (outlines_perform wellFormed other)]
    refine (and_iff_left ?_).symm
    exact fun project parent name _ same => absurd same (other project (some parent) name)

/-! ## Runs -/

/-- An atlas is aligned exactly if every group was created in the project of its parent. -/
theorem aligned_reached_iff (settings : Settings) (commands : List Command) :
    ((empty settings).run commands).Aligned ↔
      ∀ earlier project parent name answer,
        earlier ++ [.createGroup project (some parent) name] <+: commands →
        (((empty settings).run earlier).perform (.createGroup project (some parent) name)).answer =
          .ok answer →
        ((empty settings).run earlier).InProject parent project := by
  induction commands using List.reverseRecOn with
  | nil =>
    refine iff_of_true ?_ ?_
    · rintro parent group ⟨entity, found, _⟩
      cases found
    · intro earlier project parent name answer begins
      exact absurd (List.prefix_nil.1 begins) (List.concat_ne_nil _ _)
  | append_singleton before command ih =>
    have step := aligned_perform_iff (wellFormed_reached settings before)
      (forested_reached settings before) command
    rw [run_append]
    refine step.trans ?_
    rw [ih]
    constructor
    · rintro ⟨sooner, last⟩ earlier project parent name answer begins accepted
      rcases List.prefix_concat_iff.1 begins with whole | within
      · obtain ⟨rfl, same⟩ := List.append_inj' whole rfl
        obtain rfl := List.singleton_inj.1 same
        exact last project parent name answer rfl accepted
      · exact sooner earlier project parent name answer within accepted
    · intro all
      constructor
      · intro earlier project parent name answer within
        exact all earlier project parent name answer (within.trans (List.prefix_append _ _))
      · rintro project parent name answer rfl accepted
        exact all before project parent name answer (List.prefix_refl _) accepted

/-- In an aligned atlas a group is in the same project as all groups above it. -/
theorem Aligned.atOrAbove {atlas : Atlas} (aligned : atlas.Aligned) {upper lower : GroupId}
    (above : atlas.AtOrAbove upper lower) {project : ProjectId}
    (inProject : atlas.InProject lower project) : atlas.InProject upper project := by
  induction above using Relation.ReflTransGen.head_induction_on with
  | refl => exact inProject
  | head isParent _ ih =>
    obtain ⟨other, parentIn, groupIn⟩ := aligned _ _ isParent
    obtain rfl := groupIn.unique ih
    exact parentIn

def ShareProject (atlas : Atlas) (first second : ModuleId) : Prop :=
  ∃ upper lower project, atlas.Home first upper ∧ atlas.Home second lower ∧
    atlas.InProject upper project ∧ atlas.InProject lower project

/--
In an atlas that commands lead to, every group is in the project of its parent exactly if every
group was created in the project of the parent that it was given.  If so, modules only own modules
of their own project, through however many others.
-/
theorem projects_apart_iff (settings : Settings) (commands : List Command) :
    let after (trace : List Command) := (empty settings).run trace
    let atlas := after commands
    (atlas.Aligned ↔ ∀ earlier project parent name answer,
      earlier ++ [.createGroup project (some parent) name] <+: commands →
      ((after earlier).perform (.createGroup project (some parent) name)).answer = .ok answer →
      (after earlier).InProject parent project) ∧
    (atlas.Aligned → ∀ owner member, atlas.nesting.gt owner member →
      atlas.ShareProject owner member) := by
  intro after atlas
  refine ⟨aligned_reached_iff settings commands, ?_⟩
  intro aligned owner member owns
  have wellFormed : atlas.WellFormed := wellFormed_reached settings commands
  have arranged : atlas.Arranged := arranged_reached settings commands
  have path := (wellFormed.closed .nesting).gt_iff_path.1 owns
  obtain ⟨_, upper, lower, stands, home, above⟩ := wellFormed.mayOwn_of_path path
  obtain ⟨entity, known, _⟩ := arranged.listed home
  have inProject : atlas.InProject lower entity.project := ⟨entity, known, rfl⟩
  exact ⟨upper, lower, entity.project, wellFormed.home_of_standsFor stands, home,
    aligned.atOrAbove above inProject, inProject⟩

/-- Of two projects one has a tree of two groups, and both groups were created in it. -/
theorem projects_apart_iff_on_tree :
    let commands : List Command := [.createProject "p", .createProject "q",
      .createGroup ⟨0⟩ none "outer", .createGroup ⟨1⟩ none "other",
      .createGroup ⟨0⟩ (some ⟨0⟩) "inner", .createModule (some ⟨0⟩) "outer" .synthetic,
      .createModule (some ⟨2⟩) "b" .synthetic]
    let atlas := (empty {}).run commands
    let earlier := commands.take 4
    let created : Command := .createGroup ⟨0⟩ (some ⟨0⟩) "inner"
    atlas.Aligned ∧
      (earlier ++ [created] <+: commands ∧
        (((empty {}).run earlier).perform created).answer = .ok (.group ⟨2⟩) ∧
        ((empty {}).run earlier).InProject ⟨0⟩ ⟨0⟩) ∧
      atlas.nesting.gt ⟨0⟩ ⟨1⟩ ∧ atlas.ShareProject ⟨0⟩ ⟨1⟩ := by
  intro commands atlas earlier created
  have aligned : atlas.Aligned := by
    rintro parent ⟨index⟩ ⟨entity, found, isParent⟩
    match index with
    | 0 => cases found; cases isParent
    | 1 => cases found; cases isParent
    | 2 =>
      cases found
      cases isParent
      exact ⟨⟨0⟩, ⟨_, rfl, rfl⟩, ⟨_, rfl, rfl⟩⟩
    | _ + 3 => cases found
  obtain ⟨creations, owners⟩ := projects_apart_iff {} commands
  have begins : earlier ++ [created] <+: commands := ⟨commands.drop 5, rfl⟩
  have accepted : (((empty {}).run earlier).perform created).answer = .ok (.group ⟨2⟩) := by
    decide
  have owns : atlas.nesting.gt ⟨0⟩ ⟨1⟩ := by decide
  exact ⟨aligned, ⟨begins, accepted, creations.1 aligned earlier ⟨0⟩ ⟨0⟩ "inner" _ begins accepted⟩,
    owns, owners aligned ⟨0⟩ ⟨1⟩ owns⟩

/-- A group below a group of another project: its members are owned from that project. -/
theorem projects_mixed :
    let commands : List Command := [.createProject "p", .createProject "q",
      .createGroup ⟨0⟩ none "outer", .createGroup ⟨1⟩ (some ⟨0⟩) "inner",
      .createModule (some ⟨0⟩) "outer" .synthetic, .createModule (some ⟨1⟩) "b" .synthetic]
    let atlas := (empty {}).run commands
    (atlas.IsParent ⟨0⟩ ⟨1⟩ ∧ atlas.InProject ⟨0⟩ ⟨0⟩ ∧ atlas.InProject ⟨1⟩ ⟨1⟩) ∧
      ¬ atlas.Aligned ∧ atlas.nesting.gt ⟨0⟩ ⟨1⟩ ∧ ¬ atlas.ShareProject ⟨0⟩ ⟨1⟩ := by
  intro commands atlas
  have isParent : atlas.IsParent ⟨0⟩ ⟨1⟩ := ⟨_, rfl, rfl⟩
  have outer : atlas.InProject ⟨0⟩ ⟨0⟩ := ⟨_, rfl, rfl⟩
  have inner : atlas.InProject ⟨1⟩ ⟨1⟩ := ⟨_, rfl, rfl⟩
  have apart (project : ProjectId) (above : atlas.InProject ⟨0⟩ project)
      (below : atlas.InProject ⟨1⟩ project) : False := by
    have same := (outer.unique above).symm.trans (inner.unique below)
    exact absurd same (by decide)
  refine ⟨⟨isParent, outer, inner⟩, ?_, by decide, ?_⟩
  · intro aligned
    obtain ⟨project, above, below⟩ := aligned ⟨0⟩ ⟨1⟩ isParent
    exact apart project above below
  · rintro ⟨upper, lower, project, home, place, above, below⟩
    obtain rfl : upper = ⟨0⟩ := home.unique ⟨_, rfl, rfl⟩
    obtain rfl : lower = ⟨1⟩ := place.unique ⟨_, rfl, rfl⟩
    exact apart project above below

end Atlas

end ModuleAtlas
