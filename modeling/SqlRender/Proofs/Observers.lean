import SqlRender.Proofs.Failures
import SqlRender.Proofs.Nesting

/-!
# Observers

A listener may refuse an event and so end a render. It has no other influence. To see this, two runs
of one script are put side by side, which differ in their settings and in the events that happened
before:

```text
   state   ──run──▸   how it ended
     │                     │
   retell g             retell g
     ▾                     ▾
   state'  ──run'──▸  how it ended
```

`Action.mirrors` says that such a square of single events is all it takes for the square of a whole
script, whatever is attempted in it. Events that nobody refuses make such a square: a history that
nobody heard becomes one that everybody heard (`Configuration.Tolerant.accompanies`). So a render
that is observed is the render that is not, with all of its events told to all listeners.
-/

namespace SqlRender

/-! ## Runs side by side -/

/-- The state with another history of events. -/
def State.retell (g : List Notice → List Notice) (st : State) : State :=
  { st with notices := g st.notices }

namespace Run

variable {α β : Type} {g : List Notice → List Notice}

/-- How a run ended, with another history of events. -/
def retell (g : List Notice → List Notice) :
    EStateM.Result RenderError State α → EStateM.Result RenderError State α
  | .ok a st => .ok a (st.retell g)
  | .error e st => .error e (st.retell g)

/-- A run that does from another history what `run` does, and ends with the other history of what
`run` ends with. -/
def Mirrors (g : List Notice → List Notice) (run' run : Run α) : Prop :=
  ∀ st, run' (st.retell g) = retell g (run st)

theorem mirrors_pure (a : α) : Mirrors g (pure a) (pure a) := fun _ => rfl

theorem mirrors_throw (e : RenderError) : Mirrors g (throw e : Run α) (throw e) := fun _ => rfl

theorem mirrors_modify {f f' : State → State} (hf : ∀ st, f' (st.retell g) = (f st).retell g) :
    Mirrors g (modify f') (modify f) := by
  intro st
  show EStateM.Result.ok PUnit.unit (f' (st.retell g)) = .ok PUnit.unit ((f st).retell g)
  rw [hf]

/-- What is read off the two states may differ, as long as the runs that go on with it mirror each
other. -/
theorem mirrors_get_bind {next next' : State → Run α}
    (h : ∀ st, Mirrors g (next' (st.retell g)) (next st)) :
    Mirrors g (get >>= next') (get >>= next) :=
  fun st => h st st

theorem Mirrors.bind {run run' : Run α} {next next' : α → Run β} (h : Mirrors g run' run)
    (hnext : ∀ a, Mirrors g (next' a) (next a)) : Mirrors g (run' >>= next') (run >>= next) := by
  intro st
  simp only [Bind.bind, EStateM.bind]
  rw [h st]
  cases run st with
  | ok a st₁ => exact hnext a st₁
  | error e st₁ => rfl

theorem Mirrors.under {run run' : Run Unit} (h : Mirrors g run' run) (change : Modes → Modes) :
    Mirrors g (under change run') (under change run) := by
  intro st
  have hst : run' { st.retell g with modes := change (st.retell g).modes } =
      retell g (run { st with modes := change st.modes }) := h { st with modes := change st.modes }
  unfold Run.under
  rw [hst]
  cases run { st with modes := change st.modes } <;> rfl

theorem Mirrors.outcome {run run' : Run Unit} (h : Mirrors g run' run) :
    Mirrors g (outcome run') (outcome run) := by
  intro st
  unfold Run.outcome
  rw [h st]
  cases run st <;> rfl

theorem mirrors_forM {f f' : β → Run PUnit} (hf : ∀ b, Mirrors g (f' b) (f b)) (bs : List β) :
    Mirrors g (bs.forM f') (bs.forM f) := by
  induction bs with
  | nil => exact mirrors_pure _
  | cons b bs ih => exact (hf b).bind fun _ => ih

end Run

open Run

/-! ## Configurations side by side -/

/-- A configuration for the same dialect and the same parameter style, whose events mirror those of
another one. -/
structure Configuration.Accompanies (g : List Notice → List Notice) (cfg' cfg : Configuration) :
    Prop where
  dialect_eq : cfg'.settings.dialect = cfg.settings.dialect
  paramStyle_eq : cfg'.settings.paramStyle = cfg.settings.paramStyle
  notify : ∀ kind part, Mirrors g (cfg'.notify kind part) (cfg.notify kind part)

namespace Configuration

variable {g : List Notice → List Notice} {cfg cfg' : Configuration}

/-- What is placed depends on the dialect and on the parameter style alone. -/
theorem place_congr (hdialect : cfg'.settings.dialect = cfg.settings.dialect)
    (hstyle : cfg'.settings.paramStyle = cfg.settings.paramStyle) :
    cfg'.place = cfg.place ∧ cfg'.literal = cfg.literal := by
  have hliteral : cfg'.literal = cfg.literal := by
    unfold literal
    rw [hdialect]
  have hplaceholder : cfg'.placeholder = cfg.placeholder := by
    unfold placeholder Settings.capabilities
    rw [hdialect]
  refine ⟨?_, hliteral⟩
  unfold place Occurrence.inPlace
  rw [hstyle, hliteral, hplaceholder]

/-- A literal is written whatever happened before. -/
theorem mirrors_literal (o : Occurrence) : Mirrors g (cfg.literal o) (cfg.literal o) := by
  unfold literal
  split
  · split
    · exact mirrors_modify fun _ => rfl
    · exact mirrors_get_bind fun _ => mirrors_throw _
  · exact mirrors_modify fun _ => rfl

/-- A placeholder is written whatever happened before. -/
theorem mirrors_placeholder (o : Occurrence) :
    Mirrors g (cfg.placeholder o) (cfg.placeholder o) := by
  apply mirrors_get_bind
  intro st
  have hslot : (st.retell g).slotOf? o.param = st.slotOf? o.param := rfl
  rw [hslot]
  split
  · exact mirrors_modify fun _ => rfl
  · refine Mirrors.bind ?_ fun _ => ?_
    · exact mirrors_modify fun _ => rfl
    · exact mirrors_modify fun _ => rfl

/-- An occurrence is placed whatever happened before. -/
theorem mirrors_place (o : Occurrence) : Mirrors g (cfg.place o) (cfg.place o) := by
  apply mirrors_get_bind
  intro st
  have hconflict : (st.retell g).conflict? o.param = st.conflict? o.param := rfl
  rw [hconflict]
  split
  · exact mirrors_throw _
  · split
    · exact mirrors_literal o
    · exact mirrors_placeholder o

namespace Accompanies

variable (h : cfg'.Accompanies g cfg)

include h

theorem place (o : Occurrence) : Mirrors g (cfg'.place o) (cfg.place o) := by
  rw [(place_congr h.dialect_eq h.paramStyle_eq).1]
  exact mirrors_place o

theorem literal (o : Occurrence) : Mirrors g (cfg'.literal o) (cfg.literal o) := by
  rw [(place_congr h.dialect_eq h.paramStyle_eq).2]
  exact mirrors_literal o

theorem start (part : Option Part) (c : Clause) :
    Mirrors g (cfg'.start part c) (cfg.start part c) := by
  refine Mirrors.bind ?_ fun _ => h.notify .clauseStart part
  exact mirrors_modify fun _ => rfl

theorem close (part : Option Part) (c : Clause) :
    Mirrors g (cfg'.close part c) (cfg.close part c) := by
  apply (h.notify .clauseEnd part).bind
  intro _
  exact mirrors_modify fun _ => rfl

end Accompanies

end Configuration

mutual

/-- **Actions mirror each other if single events do**, whatever is attempted in them. -/
theorem Action.mirrors {g : List Notice → List Notice} {cfg cfg' : Configuration}
    (h : cfg'.Accompanies g cfg) : ∀ a : Action, Mirrors g (a.perform cfg') (a.perform cfg)
  | .text _ | .keyword _ | .ident _ => by
    simp only [Action.perform]
    exact mirrors_modify fun _ => rfl
  | .bind p => by
    simp only [Action.perform]
    exact mirrors_get_bind fun st => h.place (p.occurrence st.modes)
  | .literal _ _ => by
    simp only [Action.perform]
    exact h.literal _
  | .visit part body => by
    simp only [Action.perform]
    apply (h.notify _ _).bind
    intro _
    -- the tags depend on the modes only
    apply mirrors_get_bind
    intro st
    apply (mirrors_forM (h.start _) (part.tags st.modes)).bind
    intro _
    apply (Script.mirrors h body).bind
    intro _
    exact (mirrors_forM (h.close _) _).bind fun _ => h.notify _ _
  | .within c body => by
    simp only [Action.perform]
    apply (h.start none c).bind
    intro _
    exact (Script.mirrors h body).bind fun _ => h.close none c
  | .switch _ _ body | .assume _ body => by
    simp only [Action.perform]
    exact (Script.mirrors h body).under _
  | .whenOn mode body => by
    simp only [Action.perform]
    apply mirrors_get_bind
    intro st
    show Mirrors g (if st.modes.isOn mode then _ else _) (if st.modes.isOn mode then _ else _)
    split
    · exact Script.mirrors h body
    · exact mirrors_pure _
  | .fail e => by
    simp only [Action.perform]
    exact mirrors_throw e
  | .attempt step body => by
    simp only [Action.perform]
    apply (Script.mirrors h body).outcome.bind
    intro _
    exact mirrors_modify fun _ => rfl
  | .note step reading => by
    simp only [Action.perform]
    apply mirrors_get_bind
    intro st
    -- a reading sees the clauses and the modes, and these are the same
    have hfinding : reading.finding (st.retell g) = reading.finding st := by
      cases reading <;> rfl
    rw [hfinding]
    exact mirrors_modify fun _ => rfl

/-- Scripts mirror each other if single events do. -/
theorem Script.mirrors {g : List Notice → List Notice} {cfg cfg' : Configuration}
    (h : cfg'.Accompanies g cfg) :
    ∀ as : List Action, Mirrors g (Script.perform cfg' as) (Script.perform cfg as)
  | [] => by
    simp only [Script.perform]
    exact mirrors_pure _
  | a :: as => by
    simp only [Script.perform]
    exact (Action.mirrors h a).bind fun _ => Script.mirrors h as

end

/-! ## Renders side by side -/

namespace Configuration

variable {g : List Notice → List Notice} {cfg cfg' : Configuration}

/-- Runs mirror each other if the events before them do. -/
theorem Accompanies.run (h : cfg'.Accompanies g cfg) (part : Part) (modes : Modes)
    (past : List Notice) :
    cfg'.run part modes (g past) = Run.retell g (cfg.run part modes past) := by
  unfold Configuration.run
  rw [h.dialect_eq]
  exact Action.mirrors h _ { modes, notices := past }

/-- The configuration with nobody listening. -/
def unobserved (cfg : Configuration) : Configuration := { settings := cfg.settings }

/-- An event that all listeners of a configuration are told. -/
def toldToAll (cfg : Configuration) (e : Event) : Notice :=
  ⟨e, e.callsFrom 0 cfg.listeners.length⟩

/-- What nobody heard, told to the listeners of a configuration behind what they remember. -/
def announce (cfg : Configuration) (past notices : List Notice) : List Notice :=
  past ++ notices.map fun n => cfg.toldToAll n.event

theorem announce_concat (cfg : Configuration) (past notices : List Notice) (n : Notice) :
    cfg.announce past (notices ++ [n]) =
      cfg.announce past notices ++ [cfg.toldToAll n.event] := by
  simp [announce]

/-- Listeners have heard what they remember, and all of what was announced. -/
theorem heard_announce (cfg : Configuration) (past notices : List Notice) {place : Nat}
    (hplace : place < cfg.listeners.length) :
    heard (cfg.announce past notices) place = heard past place ++ notices.map Notice.event := by
  have hnew : heard (notices.map fun n => cfg.toldToAll n.event) place =
      notices.map Notice.event := by
    induction notices with
    | nil => rfl
    | cons n notices ih =>
      have hone : heard [cfg.toldToAll n.event] place = [n.event] := by
        rw [toldToAll, heard_callsFrom, if_pos hplace]
      rw [List.map_cons, List.map_cons, ← List.singleton_append, heard_append, hone, ih]
      rfl
  rw [announce, heard_append, hnew]

/-- An event that nobody refuses happens, and is told to all listeners. -/
theorem notify_of_tolerant (h : cfg.Tolerant) (kind : EventKind) (part : Option Part)
    (st : State) :
    cfg.notify kind part st =
      .ok () { st with notices := st.notices ++
        [cfg.toldToAll (st.modes.event cfg.settings.dialect kind part st.path)] } := by
  have htell : ∀ e, tell st.notices e cfg.listeners 0 =
      (e.callsFrom 0 cfg.listeners.length, none) := by
    intro e
    have hrefusal : (tell st.notices e cfg.listeners 0).2 = none := tell_tolerant 0 h
    exact Prod.ext (tell_of_not_refused hrefusal) hrefusal
  simp only [notify, htell]
  rfl

/-- Listeners that refuse nothing are told every event that happens without them. -/
theorem Tolerant.accompanies (h : cfg.Tolerant) (past : List Notice) :
    cfg.Accompanies (cfg.announce past) cfg.unobserved where
  dialect_eq := rfl
  paramStyle_eq := rfl
  notify := by
    intro kind part st
    have hsilent : cfg.unobserved.Tolerant := tolerant_of_nil rfl
    rw [notify_of_tolerant h, notify_of_tolerant hsilent]
    simp only [retell, State.retell, announce_concat]
    rfl

end Configuration

/-! ## Observed renders -/

namespace Configuration

variable {cfg : Configuration}

/-- If a run does what it does with nobody listening, and all of its events are told, then its render
leaves what the render that nobody observes leaves, with all of its events told. -/
theorem render_of_retell {part : Part} {modes : Modes} {past : List Notice}
    (hrun : cfg.run part modes past =
      Run.retell (cfg.announce past) (cfg.unobserved.run part modes [])) :
    cfg.render part modes past =
      { cfg.unobserved.render part modes [] with
        notices := cfg.announce [] (cfg.unobserved.render part modes []).notices } := by
  unfold render
  rw [hrun]
  cases cfg.unobserved.run part modes [] <;>
    simp [Run.retell, State.retell, announce, rendered, unobserved]

/-- A render that is observed leaves what the render that is not leaves, with all of its events
told. -/
theorem render_of_tolerant (h : cfg.Tolerant) (part : Part) (modes : Modes)
    (past : List Notice) :
    cfg.render part modes past =
      { cfg.unobserved.render part modes [] with
        notices := cfg.announce [] (cfg.unobserved.render part modes []).notices } := by
  have hpast : cfg.announce past [] = past := List.append_nil past
  have hrun := (h.accompanies past).run part modes []
  rw [hpast] at hrun
  exact render_of_retell hrun

/-- **Observers change nothing.** Whatever a part does, be it that it goes on behind a failure, its
render leaves the same result to listeners that refuse nothing as it does with nobody listening: the
same text and bind values, or the same error at the same clause. The events are the same, and each
is told to all listeners, in the order in which they are registered, before the next one happens. So
all listeners hear one and the same word of events. -/
theorem observers_change_nothing (h : cfg.Tolerant) (part : Part) (modes : Modes)
    (past : List Notice) :
    let unobserved := cfg.unobserved.render part modes []
    let observed := cfg.render part modes past
    let es := unobserved.notices.map Notice.event
    observed.result = unobserved.result ∧
    observed.out = unobserved.out ∧ observed.journal = unobserved.journal ∧
    (calls observed.notices = es.flatMap fun e =>
      (List.range cfg.listeners.length).map fun place => ⟨place, e⟩) ∧
    ∀ place, place < cfg.listeners.length → heard observed.notices place = es := by
  intro unobserved observed es
  have hobserved : observed = { unobserved with notices := cfg.announce [] unobserved.notices } :=
    render_of_tolerant h part modes past
  refine ⟨by rw [hobserved], by rw [hobserved], by rw [hobserved], ?_, fun place hplace => ?_⟩
  · rw [hobserved]
    simp [calls, announce, toldToAll, Event.callsFrom, List.range_eq_range', es, List.flatMap_map]
  · rw [hobserved]
    exact cfg.heard_announce [] unobserved.notices hplace

/-- A part that goes on behind an empty list, to two recorders and to nobody. -/
theorem observers_change_nothing_attempt :
    let part : Part := .custom [.select]
      [.attempt [.within .selectWhere [.failEmpty .fieldRow]], .visit (.field (.named "a"))]
    let cfg : Configuration := { listeners := [.silent, .silent] }
    cfg.Tolerant ∧
    (cfg.render part {} []).result = (cfg.unobserved.render part {} []).result ∧
    (cfg.render part {} []).result = .ok ⟨"\"a\"", []⟩ ∧
    heard (cfg.render part {} []).notices 0 = heard (cfg.render part {} []).notices 1 ∧
    (heard (cfg.render part {} []).notices 1).length = 11 := by
  intro part cfg
  have htolerant : cfg.Tolerant := by
    intro l hl past e
    have hsilent : l = .silent := by simpa [cfg] using hl
    rw [hsilent]
    rfl
  obtain ⟨hresult, -, -, -, hheard⟩ :=
    observers_change_nothing htolerant part {} []
  refine ⟨htolerant, hresult, ?_, ?_, ?_⟩
  · exact Report.result_eq_ok (by decide +kernel)
  · rw [hheard 0 (by decide), hheard 1 (by decide)]
  · decide +kernel

end Configuration

end SqlRender
