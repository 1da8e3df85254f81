import SqlRender.Listener
import SqlRender.Output
import SqlRender.Script

/-!
# Performing scripts

A `Run` changes the state of a render and may fail; a failed run keeps the state that it reached,
because a caller's part may go on behind a failure. `Action.perform` is the meaning of an action.

Modes are restored however a run under them ends. Clauses are not: a clause is closed only where
the run inside it ended well, so that a run which goes on behind a failure goes on with the clauses
that the failed run had opened.
-/

namespace SqlRender

/-- What a render is run with. -/
structure Configuration where
  settings : Settings := {}
  listeners : List Listener := []

/-- What a step of a caller's part found out. -/
inductive Finding where
  | done
  | tags (tags : List Clause)
  | plan (p : Plan)
  /-- How an attempt ended: well, or with an error. -/
  | ended (e : Option RenderError)
  /-- The open clauses and the modes. -/
  | state (path : List Clause) (modes : Modes)

/-- A step that has ended, and what it found out. -/
structure Entry where
  step : Step
  finding : Finding

/-- The state of a render. -/
structure State where
  modes : Modes := {}
  /-- The open clauses, outermost first. -/
  path : List Clause := []
  /-- Whether every clause that was closed was the innermost one. -/
  orderly : Bool := true
  /-- What has been written. -/
  out : List Segment := []
  /-- The bind values, by slot. -/
  params : List Value := []
  /-- The slot of each name that is bound; slots are numbered from one. -/
  names : List (String × Nat) := []
  /-- The events that have happened. -/
  notices : List Notice := []
  /-- The steps of callers' parts that have ended. -/
  journal : List Entry := []

/-- A change of the state that may fail. -/
abbrev Run (α : Type) := EStateM RenderError State α

namespace Run

/-- Writes a segment. -/
def write (s : Segment) : Run Unit :=
  modify fun st => { st with out := st.out ++ [s] }

/-- Notes what a step found out. -/
def log (step : Step) (finding : Finding) : Run Unit :=
  modify fun st => { st with journal := st.journal ++ [⟨step, finding⟩] }

/-- Runs under changed modes and restores the modes afterwards, whether the run failed or not. -/
def under (change : Modes → Modes) (run : Run Unit) : Run Unit := fun st =>
  match run { st with modes := change st.modes } with
  | .ok a st' => .ok a { st' with modes := st.modes }
  | .error e st' => .error e { st' with modes := st.modes }

/-- Runs and answers how it ended, keeping the state either way. -/
def outcome (run : Run Unit) : Run (Option RenderError) := fun st =>
  match run st with
  | .ok _ st' => .ok none st'
  | .error e st' => .ok (some e) st'

end Run

/-! ## Events -/

/-- Lets an event happen: every listener is told, until one refuses it. -/
def Configuration.notify (cfg : Configuration) (kind : EventKind) (part : Option Part) :
    Run Unit := fun st =>
  let e : Event :=
    { kind, part, path := st.path, dialect := cfg.settings.dialect,
      declareTables := st.modes.declareTables, declareFields := st.modes.declareFields }
  let (calls, refusal) := tell st.notices e cfg.listeners 0
  let st' := { st with notices := st.notices ++ [⟨e, calls⟩] }
  match refusal with
  | none => .ok () st'
  | some reason => .error (.listener e.clause reason) st'

/-- Opens a clause. -/
def Configuration.start (cfg : Configuration) (part : Option Part) (c : Clause) : Run Unit := do
  modify fun st => { st with path := st.path ++ [c] }
  cfg.notify .clauseStart part

/-- Closes the innermost clause, which should be the given one. -/
def Configuration.close (cfg : Configuration) (part : Option Part) (c : Clause) : Run Unit := do
  cfg.notify .clauseEnd part
  modify fun st =>
    { st with
      path := st.path.dropLast
      orderly := st.orderly && st.path.getLast? = some c }

/-! ## Parameters -/

/-- Writes a value as a literal, which infinities and NaNs do not have. -/
def Configuration.literal (cfg : Configuration) (o : Occurrence) : Run Unit := do
  match o.param.value with
  | .float x =>
    if x.isFinite then Run.write (.literal o)
    else throw (.invalidLiteral x cfg.settings.dialect (← get).path.getLast?)
  | _ => Run.write (.literal o)

/-- The slot of a parameter's name, if the name is bound already. -/
def State.slotOf? (st : State) (p : Param) : Option Nat :=
  p.name.bind fun name => st.names.lookup name

/-- The name of a parameter that is bound already, to a value that does not agree with the
parameter's. -/
def State.conflict? (st : State) (p : Param) : Option String :=
  p.name.filter fun name =>
    (st.names.lookup name).any fun slot =>
      !((st.params[slot - 1]?).any fun v => v.agrees p.value)

/-- The state with a parameter's value bound in the next slot. A name keeps the first slot that it
was bound in. -/
def State.bindNext (st : State) (p : Param) : State :=
  let slot := st.params.length + 1
  { st with
    params := st.params ++ [p.value]
    names := match p.name with
      | none => st.names
      | some name =>
        if (st.names.lookup name).isSome then st.names else st.names ++ [(name, slot)] }

/-- Writes a placeholder. Where placeholders are numbered, a name that is bound already shares its
slot; otherwise the value is bound in the next slot. -/
def Configuration.placeholder (cfg : Configuration) (o : Occurrence) : Run Unit := do
  let st ← get
  match st.slotOf? o.param, cfg.settings.capabilities.numberedPlaceholders with
  | some slot, true => Run.write (.placeholder slot o)
  | _, _ =>
    modify fun st => st.bindNext o.param
    Run.write (.placeholder (st.params.length + 1) o)

/-- Writes an occurrence, in place or as a placeholder. A name that is bound already must carry a
value that agrees. -/
def Configuration.place (cfg : Configuration) (o : Occurrence) : Run Unit := do
  let st ← get
  match st.conflict? o.param with
  | some name => throw (.paramConflict name st.path.getLast?)
  | none => if o.inPlace cfg.settings then cfg.literal o else cfg.placeholder o

/-- Writes a parameter, which takes the assumed type if it declares none. -/
def Configuration.bind (cfg : Configuration) (p : Param) : Run Unit := do
  cfg.place (p.occurrence (← get).modes)

/-! ## Actions -/

/-- What a reading finds out in a state. -/
def Reading.finding (st : State) : Reading → Finding
  | .done => .done
  | .tagsOf p => .tags (p.tags st.modes)
  | .plan p => .plan p
  | .state => .state st.path st.modes

mutual

/-- Performs an action. -/
def Action.perform (cfg : Configuration) : Action → Run Unit
  | .text s => Run.write (.text s)
  | .keyword word => Run.write (.keyword word)
  | .ident name => Run.write (.ident name)
  | .bind p => cfg.bind p
  | .literal v type => cfg.literal ⟨{ value := v, inline := true }, type⟩
  | .visit part body => do
    cfg.notify .visitStart (some part)
    let tags := part.tags (← get).modes
    tags.forM (cfg.start (some part))
    Script.perform cfg body
    tags.reverse.forM (cfg.close (some part))
    cfg.notify .visitEnd (some part)
  | .within c body => do
    cfg.start none c
    Script.perform cfg body
    cfg.close none c
  | .switch mode on body => Run.under (·.switch mode on) (Script.perform cfg body)
  | .assume type body => Run.under (·.assume type) (Script.perform cfg body)
  | .whenOn mode body => do
    if (← get).modes.isOn mode then Script.perform cfg body
  | .fail e => throw e
  | .attempt step body => do
    Run.log step (.ended (← Run.outcome (Script.perform cfg body)))
  | .note step reading => do
    Run.log step (reading.finding (← get))

/-- Performs actions in order. -/
def Script.perform (cfg : Configuration) : List Action → Run Unit
  | [] => pure ()
  | a :: as => do
    a.perform cfg
    Script.perform cfg as

end

end SqlRender
