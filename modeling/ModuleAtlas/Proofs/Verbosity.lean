import ModuleAtlas.Proofs.Arrangement

/-!
# Verbosity

How much is recorded changes nothing but the record.  At any verbosity a command answers and does
what it does when everything is recorded, and its events are those of the full record without the
severities that the verbosity leaves out.
-/

namespace ModuleAtlas

def Atlas.withVerbosity (atlas : Atlas) (verbosity : UInt8) : Atlas :=
  { atlas with settings := atlas.settings.withVerbosity verbosity }

namespace Event

def isHeard (verbosity : UInt8) (event : Event) : Bool :=
  (Settings.default.withVerbosity verbosity).records event.severity

/-- What is recorded depends on the verbosity only. -/
theorem isHeard_eq (settings : Settings) (verbosity : UInt8) (event : Event) :
    (settings.withVerbosity verbosity).records event.severity = event.isHeard verbosity := by
  unfold isHeard
  cases event.severity with
  | trace => rfl
  | debug => rfl
  | warn => rfl
  | error => rfl

theorem isHeard_quiet (event : Event) :
    event.isHeard 0 = decide (event.severity ≠ .warn ∧ event.severity ≠ .debug) := by
  unfold isHeard
  cases event.severity with
  | trace => rfl
  | debug => rfl
  | warn => rfl
  | error => rfl

theorem isHeard_normal (event : Event) : event.isHeard 1 = decide (event.severity ≠ .debug) := by
  unfold isHeard
  cases event.severity with
  | trace => rfl
  | debug => rfl
  | warn => rfl
  | error => rfl

theorem isHeard_always {event : Event} (always : event.severity = .trace ∨ event.severity = .error)
    (verbosity : UInt8) : event.isHeard verbosity := by
  unfold isHeard
  rcases always with isTrace | isError
  · rw [isTrace]
    rfl
  · rw [isError]
    rfl

end Event

/-- Settings that follow every step record every event. -/
theorem Settings.records_of_isDebug {settings : Settings} (follows : settings.isDebug)
    (severity : Severity) : settings.records severity := by
  cases severity with
  | trace => rfl
  | debug => exact follows
  | warn =>
    have above : 1 < settings.verbosity := of_decide_eq_true follows
    have noted : 0 < settings.verbosity := by
      rw [UInt8.lt_iff_toNat_lt] at above ⊢
      exact Nat.lt_of_le_of_lt (Nat.zero_le _) above
    exact decide_eq_true noted
  | error => rfl

theorem Event.isHeard_full {verbosity : UInt8} (high : 2 ≤ verbosity) (event : Event) :
    event.isHeard verbosity := by
  apply Settings.records_of_isDebug
  have above : 1 < verbosity := by
    rw [UInt8.le_iff_toNat_le] at high
    exact UInt8.lt_iff_toNat_lt.2 high
  exact decide_eq_true above

namespace Session

def Full (session : Session) : Prop := session.atlas.settings.isDebug

/-- What a full session would be at a verbosity. -/
def hushed (session : Session) (verbosity : UInt8) : Session where
  atlas := session.atlas.withVerbosity verbosity
  events := session.events.filter (Event.isHeard verbosity)

theorem Full.record {session : Session} (full : session.Full) (event : Event) :
    session.record event = { session with events := session.events ++ [event] } := by
  rw [Session.record, if_pos (Settings.records_of_isDebug full event.severity)]

theorem record_hushed {session : Session} (full : session.Full) (event : Event)
    (verbosity : UInt8) :
    (session.hushed verbosity).record event = (session.record event).hushed verbosity := by
  have heard : (session.hushed verbosity).atlas.settings.records event.severity =
      event.isHeard verbosity := Event.isHeard_eq session.atlas.settings verbosity event
  rw [full.record, Session.record, heard]
  cases recorded : event.isHeard verbosity with
  | true => simp [hushed, List.filter_append, recorded]
  | false => simp [hushed, List.filter_append, recorded]

end Session

namespace Loading

variable {α β : Type} {verbosity : UInt8}

/--
At a verbosity, the first operation comes to what the second one comes to in a full session, with
the same value or fault.
-/
def Echoes (verbosity : UInt8) (hushed full : Loading α) : Prop :=
  ∀ session, session.Full → ∃ answer after, after.Full ∧
    full session = Session.answering after answer ∧
    hushed (session.hushed verbosity) = Session.answering (after.hushed verbosity) answer

namespace Echoes

protected theorem pure (value : α) : Echoes verbosity (pure value) (pure value) :=
  fun session full => ⟨.ok value, session, full, rfl, rfl⟩

protected theorem throw (fault : Fault) :
    Echoes verbosity (throw fault : Loading α) (throw fault) :=
  fun session full => ⟨.error fault, session, full, rfl, rfl⟩

theorem bind {hushed full : Loading α} {hushedNext fullNext : α → Loading β}
    (first : Echoes verbosity hushed full)
    (rest : ∀ value, Echoes verbosity (hushedNext value) (fullNext value)) :
    Echoes verbosity (hushed >>= hushedNext) (full >>= fullNext) := by
  intro session isFull
  obtain ⟨answer, middle, middleFull, fullRun, hushedRun⟩ := first session isFull
  simp only [bind_run, fullRun, hushedRun]
  cases answer with
  | ok value => exact rest value middle middleFull
  | error fault => exact ⟨.error fault, middle, middleFull, rfl, rfl⟩

/-- What would follow a refusal does not matter. -/
theorem fail {hushedNext fullNext : α → Loading β} (fault : Fault) :
    Echoes verbosity (throw fault >>= hushedNext) (throw fault >>= fullNext) := by
  intro session isFull
  exact ⟨.error fault, session, isFull, rfl, rfl⟩

theorem map {hushed full : Loading α} (f : α → β) (echoes : Echoes verbosity hushed full) :
    Echoes verbosity (f <$> hushed) (f <$> full) := by
  intro session isFull
  obtain ⟨answer, after, afterFull, fullRun, hushedRun⟩ := echoes session isFull
  simp only [map_run, fullRun, hushedRun]
  cases answer with
  | ok value => exact ⟨.ok (f value), after, afterFull, rfl, rfl⟩
  | error fault => exact ⟨.error fault, after, afterFull, rfl, rfl⟩

/-! ## Primitives -/

/-- The atlas that is looked at differs in its verbosity only. -/
theorem current {hushedNext fullNext : Atlas → Loading β}
    (rest : ∀ atlas : Atlas,
      Echoes verbosity (hushedNext (atlas.withVerbosity verbosity)) (fullNext atlas)) :
    Echoes verbosity (Loading.current >>= hushedNext) (Loading.current >>= fullNext) := by
  intro session isFull
  simp only [bind_run, current_run]
  exact rest session.atlas session isFull

theorem look {query : Atlas → Except Fault α}
    (same : ∀ atlas : Atlas, query (atlas.withVerbosity verbosity) = query atlas) :
    Echoes verbosity (Loading.look query) (Loading.look query) := by
  intro session isFull
  have sameHere : query (session.hushed verbosity).atlas = query session.atlas := same session.atlas
  simp only [look_run, sameHere]
  cases query session.atlas with
  | ok value => exact ⟨.ok value, session, isFull, rfl, rfl⟩
  | error fault => exact ⟨.error fault, session, isFull, rfl, rfl⟩

theorem change {step : Atlas → Atlas}
    (same : ∀ atlas : Atlas,
      step (atlas.withVerbosity verbosity) = (step atlas).withVerbosity verbosity)
    (settings : ∀ atlas : Atlas, (step atlas).settings = atlas.settings) :
    Echoes verbosity (Loading.change step) (Loading.change step) := by
  intro session isFull
  refine ⟨.ok (), { session with atlas := step session.atlas }, ?_, rfl, ?_⟩
  · rw [Session.Full, settings]
    exact isFull
  · have sameHere : step (session.hushed verbosity).atlas =
        (step session.atlas).withVerbosity verbosity := same session.atlas
    rw [change_run, sameHere]
    rfl

theorem emit (event : Event) : Echoes verbosity (Loading.emit event) (Loading.emit event) := by
  intro session isFull
  refine ⟨.ok (), session.record event, ?_, rfl, ?_⟩
  · rw [isFull.record]
    exact isFull
  · rw [emit_run, Session.record_hushed isFull]
    rfl

theorem reported {hushed full : Loading α} (echoes : Echoes verbosity hushed full) :
    Echoes verbosity (Loading.reported hushed) (Loading.reported full) := by
  intro session isFull
  obtain ⟨answer, after, afterFull, fullRun, hushedRun⟩ := echoes session isFull
  simp only [reported_run, fullRun, hushedRun]
  cases answer with
  | ok value => exact ⟨.ok value, after, afterFull, rfl, rfl⟩
  | error fault =>
    refine ⟨.error fault, after.record (.violation fault), ?_, rfl, ?_⟩
    · rw [afterFull.record]
      exact afterFull
    · simp only [Session.answering, Session.record_hushed afterFull]

theorem forM {γ : Type} {hushed full : γ → Loading Unit} (items : List γ)
    (each : ∀ item, Echoes verbosity (hushed item) (full item)) :
    Echoes verbosity (items.forM hushed) (items.forM full) := by
  induction items with
  | nil => exact .pure ()
  | cons item rest ih => exact bind (each item) fun _ => ih

/-- A part that is carried out under a condition, as the refusal of a guard is. -/
theorem optional {condition : Prop} [Decidable condition] {part : Loading PUnit}
    {hushedNext fullNext : PUnit → Loading β} (first : Echoes verbosity part part)
    (rest : Echoes verbosity (hushedNext ⟨⟩) (fullNext ⟨⟩)) :
    Echoes verbosity (if condition then part >>= hushedNext else hushedNext ⟨⟩)
      (if condition then part >>= fullNext else fullNext ⟨⟩) := by
  split
  · exact bind first fun _ => rest
  · exact rest

end Echoes

/-! ## Edges and adoptions -/

theorem echoes_link (axis : Axis) (greater smaller : ModuleId) :
    Echoes verbosity (link axis greater smaller) (link axis greater smaller) := by
  have changed (next : Hierarchy ModuleId) :
      Echoes verbosity (change fun atlas => atlas.withHierarchy axis next)
        (change fun atlas => atlas.withHierarchy axis next) := by
    cases axis with
    | nesting => exact .change (fun _ => rfl) fun _ => rfl
    | importation => exact .change (fun _ => rfl) fun _ => rfl
  apply Echoes.current
  intro atlas
  have same : (atlas.withVerbosity verbosity).hierarchy axis = atlas.hierarchy axis := by
    cases axis with
    | nesting => rfl
    | importation => rfl
  simp only [same]
  cases (atlas.hierarchy axis).relate greater smaller with
  | ok next =>
    apply Echoes.bind (Echoes.forM _ Echoes.emit)
    exact fun _ => changed next
  | error refusal =>
    have sameFault : edgeFault (atlas.withVerbosity verbosity) axis refusal =
        edgeFault atlas axis refusal := by
      unfold edgeFault
      rw [same]
      rfl
    simp only [sameFault]
    exact .throw _

theorem echoes_adopt (owner member : ModuleId) :
    Echoes verbosity (adopt owner member) (adopt owner member) := by
  apply Echoes.bind (echoes_link .nesting owner member)
  intro _
  apply Echoes.current
  exact fun atlas => .emit (.adopted (atlas.nameOf owner) (atlas.nameOf member))

theorem echoes_adoptMembers (group : GroupId) (owner : ModuleId) :
    Echoes verbosity (adoptMembers group owner) (adoptMembers group owner) := by
  apply Echoes.bind (.look fun _ => rfl)
  exact fun home => .forM _ fun member => echoes_adopt owner member

theorem echoes_appoint (group : GroupId) (owner : ModuleId) :
    Echoes verbosity (appoint group owner) (appoint group owner) := by
  apply Echoes.bind
  · exact .change (fun _ => rfl) fun _ => rfl
  · exact fun _ => echoes_adoptMembers group owner

theorem echoes_nest (group : GroupId) (module : ModuleId) :
    Echoes verbosity (nest group module) (nest group module) := by
  apply Echoes.current
  intro atlas
  have groups : (atlas.withVerbosity verbosity).groups = atlas.groups := rfl
  have same := Atlas.ownerIn_congr groups group module
  simp only [same]
  cases atlas.ownerIn group module with
  | none => exact .pure ()
  | some owner =>
    apply Echoes.bind (echoes_link .nesting owner module)
    intro _
    apply Echoes.current
    exact fun atlas => .emit (.nested (atlas.nameOf owner) (atlas.nameOf module))

/-! ## Operations -/

theorem echoes_createProject (name : String) :
    Echoes verbosity (createProject name) (createProject name) := by
  apply Echoes.bind (.look fun _ => rfl)
  intro id
  apply Echoes.bind
  · exact .change (fun _ => rfl) fun _ => rfl
  · exact fun _ => .pure id

theorem echoes_createGroup (project : ProjectId) (parent : Option GroupId) (name : String) :
    Echoes verbosity (createGroup project parent name) (createGroup project parent name) := by
  apply Echoes.bind (.look fun _ => rfl)
  intro _
  cases parent with
  | none =>
    apply Echoes.bind (.look fun _ => rfl)
    intro id
    apply Echoes.bind
    · exact .change (fun _ => rfl) fun _ => rfl
    · exact fun _ => .pure id
  | some parent =>
    apply Echoes.bind (.look fun _ => rfl)
    intro _
    apply Echoes.bind (.look fun _ => rfl)
    intro id
    apply Echoes.bind
    · exact .change (fun _ => rfl) fun _ => rfl
    · exact fun _ => .pure id

theorem echoes_createLoose (name : String) (location : Location) (fictive : Bool) :
    Echoes verbosity (createLoose name location fictive) (createLoose name location fictive) := by
  apply Echoes.bind (.look fun _ => rfl)
  intro id
  apply Echoes.bind
  · exact .change (fun _ => rfl) fun _ => rfl
  · exact fun _ => .pure id

theorem echoes_createMember (group : GroupId) (name : String) (location : Location) :
    Echoes verbosity (createMember group name location) (createMember group name location) := by
  apply Echoes.bind (.look fun _ => rfl)
  intro id
  apply Echoes.bind (.look fun _ => rfl)
  intro home
  apply Echoes.bind (.look fun _ => rfl)
  intro project
  dsimp only
  by_cases named : home.name = name
  · simp only [if_pos named]
    cases home.defaultModule with
    | some existing =>
      apply Echoes.current
      exact fun atlas => .fail (defaultFault atlas home existing name)
    | none =>
      apply Echoes.bind
      · exact .change (fun _ => rfl) fun _ => rfl
      intro _
      apply Echoes.bind
      · exact .change (fun _ => rfl) fun _ => rfl
      intro _
      apply Echoes.bind (echoes_appoint group id)
      intro _
      apply Echoes.bind (echoes_nest group id)
      exact fun _ => .pure id
  · simp only [if_neg named]
    apply Echoes.bind
    · exact .change (fun _ => rfl) fun _ => rfl
    intro _
    apply Echoes.bind
    · exact .change (fun _ => rfl) fun _ => rfl
    intro _
    apply Echoes.bind (echoes_nest group id)
    exact fun _ => .pure id

theorem echoes_createModule (group : Option GroupId) (name : String) (location : Location) :
    Echoes verbosity (createModule group name location) (createModule group name location) := by
  cases group with
  | none => exact echoes_createLoose name location false
  | some group => exact echoes_createMember group name location

theorem echoes_setDefault (group : GroupId) (module : ModuleId) :
    Echoes verbosity (setDefault group module) (setDefault group module) := by
  apply Echoes.bind (.look fun _ => rfl)
  intro candidate
  apply Echoes.bind (.look fun _ => rfl)
  intro home
  apply Echoes.optional (.throw _)
  dsimp only
  cases home.defaultModule with
  | none => exact echoes_appoint group module
  | some existing =>
    dsimp only
    split
    · apply Echoes.current
      exact fun atlas => .throw (defaultFault atlas home existing candidate.name)
    · exact .pure ()

theorem echoes_setImports (module : ModuleId) (imports : List ModuleId) :
    Echoes verbosity (setImports module imports) (setImports module imports) := by
  apply Echoes.bind (.look fun _ => rfl)
  intro importer
  apply Echoes.bind (.look fun _ => rfl)
  intro entry
  apply Echoes.optional (.throw _)
  apply Echoes.bind (.look fun _ => rfl)
  intro _
  apply Echoes.bind (.forM imports (echoes_link .importation module))
  exact fun _ => .emit (.importsSet importer.name imports.length)

theorem echoes_outOfOrder (fault : Fault) :
    Echoes verbosity (outOfOrder fault) (outOfOrder fault) := by
  apply Echoes.current
  intro atlas
  have same : (atlas.withVerbosity verbosity).settings.strictOrdering =
      atlas.settings.strictOrdering := rfl
  rw [same]
  split
  · exact .throw fault
  · exact .emit (.anomaly fault)

theorem echoes_setVisibility (module target : ModuleId) (level : Visibility) :
    Echoes verbosity (setVisibility module target level) (setVisibility module target level) := by
  apply Echoes.bind (.look fun _ => rfl)
  intro importer
  apply Echoes.bind (.look fun _ => rfl)
  intro imported
  apply Echoes.optional (.throw _)
  apply Echoes.current
  intro atlas
  apply Echoes.optional (echoes_outOfOrder _)
  apply Echoes.optional (echoes_outOfOrder _)
  apply Echoes.bind
  · exact .change (fun _ => rfl) fun _ => rfl
  · exact fun _ => .emit _

theorem echoes_declareImports (module : ModuleId) (imports : List (ModuleId × Visibility)) :
    Echoes verbosity (declareImports module imports) (declareImports module imports) := by
  apply Echoes.bind (echoes_setImports module (imports.map Prod.fst)).reported
  intro _
  apply Echoes.forM
  exact fun entry => (echoes_setVisibility module entry.1 entry.2).reported

theorem echoes_attach (module : ModuleId) (attachment : Module → Module) :
    Echoes verbosity (attach module attachment) (attach module attachment) := by
  apply Echoes.bind (.look fun _ => rfl)
  exact fun _ => .change (fun _ => rfl) fun _ => rfl

end Loading

open Loading in
/-- At a verbosity every command comes to what it comes to when everything is recorded. -/
theorem Command.echoes_operation (verbosity : UInt8) (command : Command) :
    Echoes verbosity command.operation command.operation := by
  cases command with
  | createProject name => exact (echoes_createProject name).map _
  | createGroup project parent name => exact (echoes_createGroup project parent name).reported.map _
  | createModule group name location =>
    exact (echoes_createModule group name location).reported.map _
  | createFictive name => exact (echoes_createLoose name .synthetic true).map _
  | setDefault group module => exact (echoes_setDefault group module).reported.map _
  | setImports module imports => exact (echoes_setImports module imports).reported.map _
  | setVisibility module target level =>
    exact (echoes_setVisibility module target level).reported.map _
  | declareImports module imports => exact (echoes_declareImports module imports).map _
  | setFictive module fictive => exact (echoes_attach module _).map _
  | setComment module comment => exact (echoes_attach module _).map _
  | setDeprecation module deprecation => exact (echoes_attach module _).map _

namespace Atlas

/-! ## Runs -/

def logs (atlas : Atlas) : List Command → List (List Event)
  | [] => []
  | command :: rest =>
    let outcome := atlas.perform command
    outcome.events :: outcome.atlas.logs rest

variable {atlas : Atlas}

/-- What a command comes to at a verbosity, given what it comes to when everything is recorded. -/
theorem perform_withVerbosity (full : atlas.settings.isDebug) (verbosity : UInt8)
    (command : Command) :
    (atlas.perform command).atlas.settings.isDebug ∧
      ((atlas.withVerbosity verbosity).perform command).answer = (atlas.perform command).answer ∧
      ((atlas.withVerbosity verbosity).perform command).atlas =
        (atlas.perform command).atlas.withVerbosity verbosity ∧
      ((atlas.withVerbosity verbosity).perform command).events =
        (atlas.perform command).events.filter (Event.isHeard verbosity) := by
  obtain ⟨answer, after, afterFull, fullRun, hushedRun⟩ :=
    command.echoes_operation verbosity { atlas } full
  have hushedRun : command.operation { atlas := atlas.withVerbosity verbosity } =
    Session.answering (after.hushed verbosity) answer := hushedRun
  unfold perform
  rw [fullRun, hushedRun]
  cases answer with
  | ok value => exact ⟨afterFull, rfl, rfl, rfl⟩
  | error fault => exact ⟨afterFull, rfl, rfl, rfl⟩

theorem answers_withVerbosity (full : atlas.settings.isDebug) (verbosity : UInt8)
    (commands : List Command) :
    (atlas.withVerbosity verbosity).answers commands = atlas.answers commands := by
  induction commands generalizing atlas with
  | nil => rfl
  | cons command rest ih =>
    obtain ⟨fullNext, answer, reached, _⟩ := perform_withVerbosity full verbosity command
    simp only [answers, answer, reached, ih fullNext]

theorem run_withVerbosity (full : atlas.settings.isDebug) (verbosity : UInt8)
    (commands : List Command) :
    (atlas.withVerbosity verbosity).run commands =
      (atlas.run commands).withVerbosity verbosity := by
  induction commands generalizing atlas with
  | nil => rfl
  | cons command rest ih =>
    obtain ⟨fullNext, _, reached, _⟩ := perform_withVerbosity full verbosity command
    have later := ih fullNext
    rw [← reached] at later
    exact later

theorem logs_withVerbosity (full : atlas.settings.isDebug) (verbosity : UInt8)
    (commands : List Command) :
    (atlas.withVerbosity verbosity).logs commands =
      (atlas.logs commands).map (List.filter (Event.isHeard verbosity)) := by
  induction commands generalizing atlas with
  | nil => rfl
  | cons command rest ih =>
    obtain ⟨fullNext, _, reached, events⟩ := perform_withVerbosity full verbosity command
    simp only [logs, events, reached, ih fullNext, List.map_cons]

/--
The verbosity changes neither answers nor atlases, whatever the commands, and at each of them it
filters the events.  Quiet records leave out anomalies and single steps, normal ones only the steps,
and from the second verbosity on everything is recorded.  Steps of the closure and faults are
recorded at every verbosity.
-/
theorem verbosity_only_filters (settings : Settings) (commands : List Command) :
    let start (verbosity : UInt8) := empty (settings.withVerbosity verbosity)
    let full := (start 2).logs commands
    (∀ verbosity,
      (start verbosity).answers commands = (empty settings).answers commands ∧
      ∀ earlier, earlier <+: commands →
        (start verbosity).run earlier = ((empty settings).run earlier).withVerbosity verbosity) ∧
    (start 0).logs commands = full.map (List.filter fun event =>
      event.severity ≠ .warn ∧ event.severity ≠ .debug) ∧
    (start 1).logs commands = full.map (List.filter fun event => event.severity ≠ .debug) ∧
    (∀ verbosity, 2 ≤ verbosity → (start verbosity).logs commands = full) ∧
    ∀ verbosity,
      ((start verbosity).logs commands).map (List.filter fun event =>
        event.severity = .trace ∨ event.severity = .error) =
      full.map (List.filter fun event => event.severity = .trace ∨ event.severity = .error) := by
  intro start full
  have follows : (start 2).settings.isDebug := rfl
  have original : empty settings = (start 2).withVerbosity settings.verbosity := rfl
  have filtered (verbosity : UInt8) : (start verbosity).logs commands =
      full.map (List.filter (Event.isHeard verbosity)) :=
    logs_withVerbosity follows verbosity commands
  refine ⟨?_, ?_, ?_, ?_, ?_⟩
  · intro verbosity
    constructor
    · rw [original, answers_withVerbosity follows]
      exact answers_withVerbosity follows verbosity commands
    · intro earlier _
      rw [original, run_withVerbosity follows]
      exact run_withVerbosity follows verbosity earlier
  · rw [filtered, funext Event.isHeard_quiet]
  · rw [filtered, funext Event.isHeard_normal]
  · intro verbosity high
    rw [filtered]
    apply List.map_id''
    exact fun events => List.filter_eq_self.2 fun event _ => Event.isHeard_full high event
  · intro verbosity
    rw [filtered, List.map_map]
    apply List.map_congr_left
    intro events _
    rw [Function.comp_apply, List.filter_filter]
    apply List.filter_congr
    intro event _
    cases always : decide (event.severity = .trace ∨ event.severity = .error) with
    | false => rfl
    | true => exact Event.isHeard_always (of_decide_eq_true always) verbosity

/-- A propagation that comes too early is noted on request only, and followed only at level two. -/
theorem verbosity_only_filters_anomaly :
    let commands : List Command := [.createFictive "a", .createFictive "b",
      .setVisibility ⟨0⟩ ⟨1⟩ .pub, .setImports ⟨0⟩ [⟨1⟩], .setImports ⟨0⟩ []]
    let start (verbosity : UInt8) := empty { verbosity }
    let extended : Event := .closureExtended "importation" 1 1
    let refused : Event := .violation (.importsAlreadySet "a")
    (commands.take 3 <+: commands ∧ (2 : UInt8) ≤ 7) ∧
      (start 0).run (commands.take 3) = ((start 1).run (commands.take 3)).withVerbosity 0 ∧
      (start 7).logs commands = [[], [], [.anomaly (.missingImport "a" "b"),
        .propagated "a" "module#1" .pub 1], [extended, .importsSet "a" 1], [refused]] ∧
      (start 1).logs commands =
        [[], [], [.anomaly (.missingImport "a" "b")], [extended], [refused]] ∧
      (start 0).logs commands = [[], [], [], [extended], [refused]] := by
  intro commands start extended refused
  have earlier : commands.take 3 <+: commands := List.take_prefix 3 commands
  have high : (2 : UInt8) ≤ 7 := by decide
  have full : (start 2).logs commands = [[], [], [.anomaly (.missingImport "a" "b"),
      .propagated "a" "module#1" .pub 1], [extended, .importsSet "a" 1], [refused]] := by decide
  obtain ⟨unchanged, quiet, normal, loud, _⟩ := verbosity_only_filters {} commands
  refine ⟨⟨earlier, high⟩, (unchanged 0).2 _ earlier, ?_, ?_, ?_⟩
  · exact (loud 7 high).trans full
  · exact normal.trans (congrArg _ full)
  · exact quiet.trans (congrArg _ full)

end Atlas

end ModuleAtlas
