import ModuleAtlas.Atlas.Command
import ModuleAtlas.Proofs.Fan

/-!
# What operations come to

Events are only ever recorded, never looked at.  So what an operation answers and which atlas it
leaves depends on the atlas alone, and can be put together from what its parts come to.
-/

namespace ModuleAtlas

def Session.answering {α : Type} (session : Session) :
    Except Fault α → EStateM.Result Fault Session α
  | .ok value => .ok value session
  | .error fault => .error fault session

namespace Loading

variable {α β : Type}

/-- From one atlas an operation gives an answer and leaves another atlas, whatever was recorded. -/
def Yields (operation : Loading α) (before : Atlas) (answer : Except Fault α) (after : Atlas) :
    Prop :=
  ∀ events, ∃ later, operation ⟨before, events⟩ = Session.answering ⟨after, later⟩ answer

namespace Yields

variable {operation : Loading α} {before middle after : Atlas}

protected theorem pure (value : α) (atlas : Atlas) :
    Yields (pure value) atlas (.ok value) atlas :=
  fun events => ⟨events, rfl⟩

protected theorem throw (fault : Fault) (atlas : Atlas) :
    Yields (throw fault : Loading α) atlas (.error fault) atlas :=
  fun events => ⟨events, rfl⟩

theorem bind {next : α → Loading β} {value : α} {answer : Except Fault β}
    (first : Yields operation before (.ok value) middle)
    (second : Yields (next value) middle answer after) :
    Yields (operation >>= next) before answer after := by
  intro events
  obtain ⟨recorded, firstRun⟩ := first events
  obtain ⟨later, secondRun⟩ := second recorded
  refine ⟨later, ?_⟩
  rw [bind_run, firstRun]
  exact secondRun

/-- A part that fails ends the operation. -/
theorem fail {next : α → Loading β} {fault : Fault}
    (first : Yields operation before (.error fault) after) :
    Yields (operation >>= next) before (.error fault) after := by
  intro events
  obtain ⟨later, firstRun⟩ := first events
  refine ⟨later, ?_⟩
  rw [bind_run, firstRun]
  rfl

theorem map {answer : Except Fault α} (f : α → β)
    (run : Yields operation before answer after) :
    Yields (f <$> operation) before (answer.map f) after := by
  intro events
  obtain ⟨later, result⟩ := run events
  refine ⟨later, ?_⟩
  rw [map_run, result]
  cases answer with
  | ok value => rfl
  | error fault => rfl

theorem reported {answer : Except Fault α} (run : Yields operation before answer after) :
    Yields (Loading.reported operation) before answer after := by
  intro events
  obtain ⟨later, result⟩ := run events
  rw [reported_run, result]
  cases answer with
  | ok value => exact ⟨later, rfl⟩
  | error fault =>
    simp only [Session.answering, Session.record]
    split
    · exact ⟨_, rfl⟩
    · exact ⟨later, rfl⟩

/-! ## Primitives -/

protected theorem current (atlas : Atlas) : Yields current atlas (.ok atlas) atlas :=
  fun events => ⟨events, rfl⟩

protected theorem change (step : Atlas → Atlas) (atlas : Atlas) :
    Yields (change step) atlas (.ok ()) (step atlas) :=
  fun events => ⟨events, rfl⟩

protected theorem emit (event : Event) (atlas : Atlas) :
    Yields (emit event) atlas (.ok ()) atlas := by
  intro events
  rw [emit_run, Session.record]
  split
  · exact ⟨_, rfl⟩
  · exact ⟨events, rfl⟩

protected theorem look {query : Atlas → Except Fault α} {atlas : Atlas} {answer : Except Fault α}
    (found : query atlas = answer) : Yields (look query) atlas answer atlas := by
  intro events
  refine ⟨events, ?_⟩
  rw [look_run, found]
  cases answer with
  | ok value => rfl
  | error fault => rfl

/-! ## Loops -/

protected theorem forM_nil (body : β → Loading Unit) (atlas : Atlas) :
    Yields (([] : List β).forM body) atlas (.ok ()) atlas :=
  Yields.pure () atlas

protected theorem forM_cons {body : β → Loading Unit} {x : β} {rest : List β}
    {answer : Except Fault Unit} (first : Yields (body x) before (.ok ()) middle)
    (others : Yields (rest.forM body) middle answer after) :
    Yields ((x :: rest).forM body) before answer after :=
  bind first others

theorem forM_emit (events : List Event) (atlas : Atlas) :
    Yields (events.forM emit) atlas (.ok ()) atlas := by
  induction events with
  | nil => exact Yields.forM_nil emit atlas
  | cons event rest ih => exact Yields.forM_cons (Yields.emit event atlas) ih

end Yields

/-! ## Edges -/

theorem hierarchy_withHierarchy (atlas : Atlas) (axis : Axis) (hierarchy : Hierarchy ModuleId) :
    (atlas.withHierarchy axis hierarchy).hierarchy axis = hierarchy := by
  cases axis with
  | nesting => rfl
  | importation => rfl

theorem withHierarchy_withHierarchy (atlas : Atlas) (axis : Axis)
    (first second : Hierarchy ModuleId) :
    (atlas.withHierarchy axis first).withHierarchy axis second =
      atlas.withHierarchy axis second := by
  cases axis with
  | nesting => rfl
  | importation => rfl

theorem withHierarchy_hierarchy (atlas : Atlas) (axis : Axis) :
    atlas.withHierarchy axis (atlas.hierarchy axis) = atlas := by
  cases axis with
  | nesting => rfl
  | importation => rfl

theorem link_yields {atlas : Atlas} {axis : Axis} {greater smaller : ModuleId}
    {next : Hierarchy ModuleId}
    (accepted : (atlas.hierarchy axis).relate greater smaller = .ok next) :
    Yields (link axis greater smaller) atlas (.ok ()) (atlas.withHierarchy axis next) := by
  unfold link
  refine .bind (.current atlas) ?_
  simp only [accepted]
  exact .bind (.forM_emit _ atlas) (.change _ atlas)

/-- Edges out of one module that can be added are added; each may be followed by an event. -/
theorem links_yield {body : ModuleId → Loading Unit} {axis : Axis} {source : ModuleId}
    (one : ∀ {atlas : Atlas} {target : ModuleId} {next : Hierarchy ModuleId},
      (atlas.hierarchy axis).relate source target = .ok next →
        Yields (body target) atlas (.ok ()) (atlas.withHierarchy axis next))
    {atlas : Atlas} (closed : (atlas.hierarchy axis).Closed) {targets : List ModuleId}
    (extendable : (atlas.hierarchy axis).Extendable source targets) :
    Yields (targets.forM body) atlas (.ok ())
      (atlas.withHierarchy axis ((atlas.hierarchy axis).run (Hierarchy.fan source targets))) := by
  induction targets generalizing atlas with
  | nil =>
    have unchanged :
        (atlas.hierarchy axis).run (Hierarchy.fan source []) = atlas.hierarchy axis := rfl
    rw [unchanged, withHierarchy_hierarchy]
    exact .forM_nil body atlas
  | cons target rest ih =>
    obtain ⟨next, accepted, further⟩ := extendable.step closed
    have hierarchyNext := hierarchy_withHierarchy atlas axis next
    have others := @ih (atlas.withHierarchy axis next)
      (by rw [hierarchyNext]; exact Hierarchy.closed_relate closed accepted)
      (by rw [hierarchyNext]; exact further)
    rw [hierarchyNext, withHierarchy_withHierarchy] at others
    rw [Hierarchy.run_fan_cons accepted]
    exact .forM_cons (one accepted) others

end Loading

/-- Performing a command gives what its operation yields. -/
theorem Atlas.perform_of_yields {atlas after : Atlas} {command : Command}
    {answer : Except Fault Answer}
    (run : Loading.Yields command.operation atlas answer after) :
    (atlas.perform command).answer = answer ∧ (atlas.perform command).atlas = after := by
  obtain ⟨later, result⟩ := run []
  unfold Atlas.perform
  rw [result]
  cases answer with
  | ok value => exact ⟨rfl, rfl⟩
  | error fault => exact ⟨rfl, rfl⟩

end ModuleAtlas
