import ModuleAtlas.Atlas.Basic
import ModuleAtlas.Event
import ModuleAtlas.Hierarchy.Edit

/-!
# Loading

Operations on an atlas work on a session: the atlas as it is so far and the events recorded so far.
An operation that fails keeps what it changed before it failed.
-/

namespace ModuleAtlas

structure Session where
  atlas : Atlas
  events : List Event := []
  deriving DecidableEq

def Session.record (session : Session) (event : Event) : Session :=
  if session.atlas.settings.records event.severity then
    { session with events := session.events ++ [event] }
  else session

/-- An operation on a session, which may fail with a fault. -/
abbrev Loading := EStateM Fault Session

namespace Loading

variable {α β : Type}

def current : Loading Atlas := do return (← get).atlas

def change (step : Atlas → Atlas) : Loading Unit :=
  modify fun session => { session with atlas := step session.atlas }

def emit (event : Event) : Loading Unit := modify fun session => session.record event

/-- Look something up; a look-up that fails makes the operation fail. -/
def look (query : Atlas → Except Fault α) : Loading α := do ofExcept (query (← current))

def reported (operation : Loading α) : Loading α := fun session =>
  match operation session with
  | .ok value next => .ok value next
  | .error fault next => .error fault (next.record (.violation fault))

/-! ## Edges -/

/-- The fault of an edge that a hierarchy refuses: a cycle is told in full names. -/
def edgeFault (atlas : Atlas) (axis : Axis) (refusal : Hierarchy.Refusal ModuleId) : Fault :=
  match refusal with
  | .cycle .. => refusal.fault (atlas.hierarchy axis).name atlas.fullNameOf
  | .unknown _ => refusal.fault (atlas.hierarchy axis).name Handle.text

def link (axis : Axis) (greater smaller : ModuleId) : Loading Unit := do
  let atlas ← current
  let hierarchy := atlas.hierarchy axis
  match hierarchy.relate greater smaller with
  | .ok next =>
    (hierarchy.extension greater smaller).forM emit
    change fun atlas => atlas.withHierarchy axis next
  | .error refusal => throw (edgeFault atlas axis refusal)

/-! ## What the primitives do to a session -/

@[simp] theorem pure_run (value : α) (session : Session) :
    (pure value : Loading α) session = .ok value session := rfl

@[simp] theorem throw_run (fault : Fault) (session : Session) :
    (throw fault : Loading α) session = .error fault session := rfl

@[simp] theorem bind_run (operation : Loading α) (next : α → Loading β) (session : Session) :
    (operation >>= next) session =
      match operation session with
      | .ok value after => next value after
      | .error fault after => .error fault after := by
  cases result : operation session with
  | ok value after => simp [bind, EStateM.bind, result]
  | error fault after => simp [bind, EStateM.bind, result]

@[simp] theorem map_run (f : α → β) (operation : Loading α) (session : Session) :
    (f <$> operation) session =
      match operation session with
      | .ok value after => .ok (f value) after
      | .error fault after => .error fault after := by
  cases result : operation session with
  | ok value after => simp [Functor.map, EStateM.map, result]
  | error fault after => simp [Functor.map, EStateM.map, result]

@[simp] theorem current_run (session : Session) : current session = .ok session.atlas session :=
  rfl

@[simp] theorem change_run (step : Atlas → Atlas) (session : Session) :
    change step session = .ok () { session with atlas := step session.atlas } := rfl

@[simp] theorem emit_run (event : Event) (session : Session) :
    emit event session = .ok () (session.record event) := rfl

/-- A look-up leaves the session alone. -/
@[simp] theorem look_run (query : Atlas → Except Fault α) (session : Session) :
    look query session =
      match query session.atlas with
      | .ok value => .ok value session
      | .error fault => .error fault session := by
  cases found : query session.atlas with
  | ok value => simp [look, bind_run, found, ofExcept]
  | error fault => simp [look, bind_run, found, ofExcept]

/-- Reporting changes nothing but the events, and those only after a fault. -/
@[simp] theorem reported_run (operation : Loading α) (session : Session) :
    reported operation session =
      match operation session with
      | .ok value after => .ok value after
      | .error fault after => .error fault (after.record (.violation fault)) := rfl

end Loading

end ModuleAtlas
