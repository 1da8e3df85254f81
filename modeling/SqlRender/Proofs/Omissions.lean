import SqlRender.Proofs.Observers

/-!
# What a dialect omits

A dialect may omit the `RETURNING` list of an insert or an update, and what an insert assigns where
a row exists already. Two statements that differ only in lists that are omitted are laid out alike, so
their renders could differ for one reason only: every event of the statement itself carries the
statement, and a listener might look at its lists. To a listener that overlooks them the two renders
are one:

```text
   events with the one statement    ──run──▸   how it ended
                 │                                  │
              written                            written
                 ▾                                  ▾
   the same events, omitted lists dropped  ──▸  the same end
```

A script that is performed inside both statements starts behind two histories. Putting the history
into what the listeners remember (`Configuration.recalling`) makes it one script under one
configuration (`Configuration.Overlooks.alike_script`), so that nothing has to be said about what
the script does.
-/

namespace SqlRender

/-! ## Statements as they are written -/

/-- A list, unless the dialect omits the feature that it is for. -/
def Dialect.kept {α : Type} (d : Dialect) (f : Feature) (items : List α) : List α :=
  if d.resolve f = .omit then [] else items

theorem Dialect.kept_of_omit {α : Type} {d : Dialect} {f : Feature} (h : d.resolve f = .omit)
    (items : List α) : d.kept f items = [] := if_pos h

/-- The insert without the lists that a dialect omits. -/
def Insert.written (d : Dialect) (i : Insert) : Insert :=
  { i with
    onDuplicateKeyUpdate := d.kept .onDuplicateKeyUpdate i.onDuplicateKeyUpdate
    returning := d.kept .returning i.returning }

/-- The update without the list that a dialect omits. -/
def Update.written (d : Dialect) (u : Update) : Update :=
  { u with returning := d.kept .returning u.returning }

/-- The part without the lists that a dialect omits. -/
def Part.written (d : Dialect) : Part → Part
  | .insert i => .insert (i.written d)
  | .update u => .update (u.written d)
  | p => p

/-- An event without the lists that its dialect omits. -/
def Event.written (e : Event) : Event := { e with part := e.part.map (Part.written e.dialect) }

/-- A call with an event without the lists that its dialect omits. -/
def Call.written (call : Call) : Call := { call with event := call.event.written }

/-- An event that happened, without the lists that its dialect omits. -/
def Notice.written (n : Notice) : Notice :=
  { event := n.event.written, calls := n.calls.map Call.written }

/-- What came of telling an event, the calls and the reason of a refusal, without the lists that its
dialect omits. -/
def writtenAnswer (answer : List Call × Option String) : List Call × Option String :=
  (answer.1.map Call.written, answer.2)

/-- What a render leaves, with events that carry no list that is omitted. -/
def Report.written (report : Report) : Report :=
  { report with notices := report.notices.map Notice.written }

/-- The tags of a part do not depend on its lists. -/
theorem Part.tags_written (d : Dialect) (p : Part) (m : Modes) :
    (p.written d).tags m = p.tags m := by
  cases p <;> rfl

theorem heard_map_written (notices : List Notice) (place : Nat) :
    heard (notices.map Notice.written) place = (heard notices place).map Event.written := by
  have hcalls : calls (notices.map Notice.written) = (calls notices).map Call.written := by
    simp only [calls, List.flatMap_map, List.map_flatMap]
    rfl
  have hcall : ∀ call : Call, call.written.eventAt? place =
      (call.eventAt? place).map Event.written := fun call => by
    simp only [Call.eventAt?, Call.written]
    split <;> simp [*]
  rw [heard, heard, hcalls, List.filterMap_map, List.map_filterMap]
  exact congrArg (List.filterMap · (calls notices)) (funext hcall)

/-- Listeners that overlook what is omitted: they answer alike to events that differ in no more than
the omitted lists of their statements, whatever of such events they heard before. -/
def Configuration.Overlooks (cfg : Configuration) : Prop :=
  ∀ l ∈ cfg.listeners, ∀ {past past' : List Event} {e e' : Event},
    past.map Event.written = past'.map Event.written → e.written = e'.written →
      l past e = l past' e'

/-- Listeners that refuse nothing overlook everything. -/
theorem Configuration.Tolerant.overlooks {cfg : Configuration} (h : cfg.Tolerant) :
    cfg.Overlooks := by
  intro l hl past past' e e' _ _
  rw [h l hl, h l hl]

/-! ## Memory -/

/-- The state behind an event, with what came of telling it: the calls, and the reason of the refusal
if there was one. -/
def State.after (st : State) (e : Event) (answer : List Call × Option String) :
    EStateM.Result RenderError State Unit :=
  let st' := { st with notices := st.notices ++ [⟨e, answer.1⟩] }
  match answer.2 with
  | none => .ok () st'
  | some reason => .error (.listener e.clause reason) st'

namespace Configuration

/-- A notification puts the answer of the listeners behind the event. -/
theorem notify_eq_after (cfg : Configuration) (kind : EventKind) (part : Option Part)
    (st : State) :
    let e := st.modes.event cfg.settings.dialect kind part st.path
    cfg.notify kind part st = st.after e (tell st.notices e cfg.listeners 0) := rfl

/-- The configuration whose listeners remember a past that is in no history. -/
def recalling (cfg : Configuration) (past : List Notice) : Configuration :=
  { cfg with
    listeners := cfg.listeners.mapIdx fun place l es e => l (heard past place ++ es) e }

/-- It is the same to have heard a past and to remember it. -/
theorem tell_append (past notices : List Notice) (e : Event) :
    ∀ (ls : List Listener) (place : Nat),
      tell (past ++ notices) e ls place =
        tell notices e (ls.mapIdx fun i l es e => l (heard past (place + i) ++ es) e) place
  | [], _ => rfl
  | l :: ls, place => by
    rw [List.mapIdx_cons, tell, tell, heard_append, tell_append past notices e ls (place + 1)]
    simp only [Nat.add_zero, ← Nat.add_assoc, Nat.add_right_comm place 1]

/-- A run goes on behind a past as it does with listeners that remember it. -/
theorem accompanies_recalling (cfg : Configuration) (past : List Notice) :
    cfg.Accompanies (past ++ ·) (cfg.recalling past) where
  dialect_eq := rfl
  paramStyle_eq := rfl
  notify := by
    intro kind part st
    let e := st.modes.event cfg.settings.dialect kind part st.path
    have htell : tell (past ++ st.notices) e cfg.listeners 0 =
        tell st.notices e (cfg.recalling past).listeners 0 := by
      rw [tell_append]
      simp only [Nat.zero_add]
      rfl
    have hafter : ∀ answer, (st.retell (past ++ ·)).after e answer =
        Run.retell (past ++ ·) (st.after e answer) := by
      rintro ⟨calls, _ | reason⟩ <;>
        simp only [State.after, State.retell, Run.retell, List.append_assoc]
    calc cfg.notify kind part (st.retell (past ++ ·))
        = (st.retell (past ++ ·)).after e (tell (past ++ st.notices) e cfg.listeners 0) :=
          cfg.notify_eq_after kind part _
      _ = Run.retell (past ++ ·)
            (st.after e (tell st.notices e (cfg.recalling past).listeners 0)) := by
          rw [htell, hafter]

variable {cfg : Configuration} {past past' : List Notice}

/-- Listeners that overlook what is omitted tell two pasts apart by nothing else. -/
theorem Overlooks.recalling_eq (h : cfg.Overlooks)
    (hpast : past.map Notice.written = past'.map Notice.written) :
    cfg.recalling past = cfg.recalling past' := by
  have hheard : ∀ place, (heard past place).map Event.written =
      (heard past' place).map Event.written := fun place => by
    rw [← heard_map_written, hpast, heard_map_written]
  unfold recalling
  congr 1
  apply List.ext_getElem?
  intro i
  simp only [List.getElem?_mapIdx]
  cases hl : cfg.listeners[i]? with
  | none => rfl
  | some l =>
    have hmem : l ∈ cfg.listeners := List.mem_of_getElem? hl
    simp only [Option.map_some, Option.some.injEq]
    funext es e
    apply h l hmem _ rfl
    rw [List.map_append, List.map_append, hheard]

/-- Listeners that overlook what is omitted answer alike to events that differ in nothing else. -/
theorem Overlooks.tell_eq {e e' : Event}
    (hpast : past.map Notice.written = past'.map Notice.written) (he : e.written = e'.written) :
    ∀ {ls : List Listener} (place : Nat), Configuration.Overlooks { cfg with listeners := ls } →
      writtenAnswer (tell past e ls place) = writtenAnswer (tell past' e' ls place)
  | [], _, _ => rfl
  | l :: ls, place, h => by
    have hheard : (heard past place).map Event.written = (heard past' place).map Event.written := by
      rw [← heard_map_written, hpast, heard_map_written]
    have hanswer : l (heard past place) e = l (heard past' place) e' :=
      h l List.mem_cons_self hheard he
    have hrest : writtenAnswer (tell past e ls (place + 1)) =
        writtenAnswer (tell past' e' ls (place + 1)) :=
      tell_eq hpast he (place + 1) fun l' hl' => h l' (List.mem_cons_of_mem _ hl')
    have hcall : Call.written ⟨place, e⟩ = Call.written ⟨place, e'⟩ :=
      congrArg (Call.mk place) he
    rw [tell, tell, hanswer]
    cases l (heard past' place) e' with
    | none =>
      show (Call.written ⟨place, e⟩ :: (writtenAnswer (tell past e ls (place + 1))).1,
        (writtenAnswer (tell past e ls (place + 1))).2) = _
      rw [hcall, hrest]
      rfl
    | some reason => exact congrArg (fun call => ([call], some reason)) hcall

end Configuration

/-! ## Runs that are written alike -/

/-- The state with events that carry no list that is omitted. -/
def State.written (st : State) : State := st.retell (List.map Notice.written)

namespace Run

variable {α β : Type}

/-- How a run ended, with events that carry no list that is omitted. -/
def written (result : EStateM.Result RenderError State α) : EStateM.Result RenderError State α :=
  retell (List.map Notice.written) result

/-- Two runs that end alike from states that are alike, but for the omitted lists of the statements
in their events. -/
def Alike (run run' : Run α) : Prop :=
  ∀ st st' : State, st.written = st'.written → written (run st) = written (run' st')

theorem alike_modify {f : State → State} (hf : ∀ st, (f st).written = f st.written) :
    Alike (modify f : Run Unit) (modify f) := by
  intro st st' hst
  show EStateM.Result.ok PUnit.unit (f st).written = .ok PUnit.unit (f st').written
  rw [hf, hf, hst]

theorem Alike.bind {run run' : Run α} {next next' : α → Run β} (h : Alike run run')
    (hnext : ∀ a, Alike (next a) (next' a)) : Alike (run >>= next) (run' >>= next') := by
  intro st st' hst
  have hrun := h st st' hst
  simp only [Bind.bind, EStateM.bind]
  cases hok : run st with
  | ok a st₁ =>
    cases hok' : run' st' with
    | ok a' st₁' =>
      rw [hok, hok'] at hrun
      obtain ⟨rfl, hst₁⟩ := EStateM.Result.ok.inj hrun
      exact hnext a st₁ st₁' hst₁
    | error e st₁' => rw [hok, hok'] at hrun; cases hrun
  | error e st₁ =>
    cases hok' : run' st' with
    | ok a' st₁' => rw [hok, hok'] at hrun; cases hrun
    | error e' st₁' =>
      rw [hok, hok'] at hrun
      obtain ⟨rfl, hst₁⟩ := EStateM.Result.error.inj hrun
      exact congrArg (EStateM.Result.error e) hst₁

theorem alike_forM {f f' : β → Run PUnit} (hf : ∀ b, Alike (f b) (f' b)) (bs : List β) :
    Alike (bs.forM f) (bs.forM f') := by
  induction bs with
  | nil => exact fun st st' hst => congrArg (EStateM.Result.ok PUnit.unit) hst
  | cons b bs ih => exact (hf b).bind fun _ => ih

end Run

open Run

/-- States that are alike differ in no more than their events, and these are written alike. -/
theorem State.eq_of_written {st st' : State} (h : st.written = st'.written) :
    st = { st' with notices := st.notices } ∧
      st.notices.map Notice.written = st'.notices.map Notice.written := by
  obtain ⟨modes, path, orderly, out, params, names, notices, journal⟩ := st
  simp only [State.written, State.retell, State.mk.injEq] at h
  obtain ⟨rfl, rfl, rfl, rfl, rfl, rfl, hnotices, rfl⟩ := h
  exact ⟨rfl, hnotices⟩

/-- An event that carries no list that is omitted ends as the event does. -/
theorem State.written_after (st : State) (e : Event) (answer : List Call × Option String) :
    Run.written (st.after e answer) = st.written.after e.written (writtenAnswer answer) := by
  have hnotices : (st.notices ++ [(⟨e, answer.1⟩ : Notice)]).map Notice.written =
      st.notices.map Notice.written ++ [⟨e.written, answer.1.map Call.written⟩] := List.map_append
  obtain ⟨calls, refusal⟩ := answer
  cases refusal with
  | none =>
    simp only [State.after, State.written, writtenAnswer, Run.written, State.retell, Run.retell,
      hnotices]
  | some reason =>
    simp only [State.after, State.written, writtenAnswer, Run.written, State.retell, Run.retell,
      hnotices]
    rfl

namespace Configuration.Overlooks

variable {cfg : Configuration} (h : cfg.Overlooks) {p p' : Part}

include h

/-- A script is performed alike behind histories that are alike: behind either one it is performed
as by listeners that remember it, and these are the same. -/
theorem alike_script (as : Script) : Alike (Script.perform cfg as) (Script.perform cfg as) := by
  intro st st' hst
  obtain ⟨hst', hnotices⟩ := State.eq_of_written hst
  have hsplit : ∀ st : State, Script.perform cfg as st =
      Run.retell (st.notices ++ ·)
        (Script.perform (cfg.recalling st.notices) as { st with notices := [] }) := fun st => by
    rw [← Script.mirrors (cfg.accompanies_recalling st.notices) as, State.retell,
      List.append_nil]
  have hfresh : ({ st with notices := [] } : State) = { st' with notices := [] } := by
    rw [hst']
  rw [hsplit st, hsplit st', h.recalling_eq hnotices, hfresh]
  cases Script.perform (cfg.recalling st'.notices) as { st' with notices := [] } <;>
    simp only [written, Run.retell, State.retell, List.map_append, hnotices]

/-- Parts that are written alike let events happen alike. -/
theorem alike_notify (kind : EventKind)
    (hp : p.written cfg.settings.dialect = p'.written cfg.settings.dialect) :
    Alike (cfg.notify kind (some p)) (cfg.notify kind (some p')) := by
  intro st st' hst
  obtain ⟨hst', hnotices⟩ := State.eq_of_written hst
  have hmodes : st.modes = st'.modes := by rw [hst']
  have hpath : st.path = st'.path := by rw [hst']
  let d := cfg.settings.dialect
  let e := st.modes.event d kind (some p) st.path
  let e' := st'.modes.event d kind (some p') st'.path
  have hevent : e.written = e'.written := by
    simp only [e, e', hmodes, hpath, Event.written, Modes.event, Option.map_some, d, hp]
  have htell : writtenAnswer (tell st.notices e cfg.listeners 0) =
      writtenAnswer (tell st'.notices e' cfg.listeners 0) := tell_eq hnotices hevent 0 h
  calc Run.written (cfg.notify kind (some p) st)
      = Run.written (st.after e (tell st.notices e cfg.listeners 0)) := by
        rw [cfg.notify_eq_after]
    _ = Run.written (st'.after e' (tell st'.notices e' cfg.listeners 0)) := by
        rw [State.written_after, State.written_after, hst, hevent, htell]
    _ = Run.written (cfg.notify kind (some p') st') := by rw [cfg.notify_eq_after]

theorem alike_start (c : Clause)
    (hp : p.written cfg.settings.dialect = p'.written cfg.settings.dialect) :
    Alike (cfg.start (some p) c) (cfg.start (some p') c) := by
  refine Alike.bind ?_ fun _ => h.alike_notify .clauseStart hp
  exact alike_modify fun _ => rfl

theorem alike_close (c : Clause)
    (hp : p.written cfg.settings.dialect = p'.written cfg.settings.dialect) :
    Alike (cfg.close (some p) c) (cfg.close (some p') c) := by
  apply (h.alike_notify .clauseEnd hp).bind
  intro _
  exact alike_modify fun _ => rfl

/-- **Two parts that are written alike are visited alike**, if the same is written inside them. -/
theorem alike_visit (body : Script)
    (hp : p.written cfg.settings.dialect = p'.written cfg.settings.dialect) :
    Alike ((Action.visit p body).perform cfg) ((Action.visit p' body).perform cfg) := by
  simp only [Action.perform]
  apply (h.alike_notify .visitStart hp).bind
  intro _ st st' hst
  have htags : p.tags st.modes = p'.tags st'.modes := by
    have hmodes : st.modes = st'.modes := by rw [(State.eq_of_written hst).1]
    rw [← Part.tags_written cfg.settings.dialect, hp, Part.tags_written, hmodes]
  have hrest : Alike
      (do (p.tags st.modes).forM (cfg.start (some p))
          Script.perform cfg body
          (p.tags st.modes).reverse.forM (cfg.close (some p))
          cfg.notify .visitEnd (some p))
      (do (p'.tags st'.modes).forM (cfg.start (some p'))
          Script.perform cfg body
          (p'.tags st'.modes).reverse.forM (cfg.close (some p'))
          cfg.notify .visitEnd (some p')) := by
    rw [← htags]
    apply (alike_forM (h.alike_start · hp) _).bind
    intro _
    apply (h.alike_script body).bind
    intro _
    exact (alike_forM (h.alike_close · hp) _).bind fun _ => h.alike_notify .visitEnd hp
  exact hrest st st' hst

end Configuration.Overlooks

/-! ## Renders that are written alike -/

/-- A list that the dialect omits is laid out as no list. -/
theorem layoutReturning_kept (d : Dialect) (fields : List Field) :
    layoutReturning d (d.kept .returning fields) = layoutReturning d fields := by
  unfold Dialect.kept
  split
  · next homit => simp [layoutReturning, homit]
  · rfl

theorem Insert.layoutOnDuplicate_kept (d : Dialect) (as : List Assignment) :
    Insert.layoutOnDuplicate d (d.kept .onDuplicateKeyUpdate as) =
      Insert.layoutOnDuplicate d as := by
  unfold Dialect.kept
  split
  · next homit => simp [Insert.layoutOnDuplicate, homit]
  · rfl

/-- An insert is laid out as it is written. -/
theorem Insert.body_written (d : Dialect) (i : Insert) : (i.written d).body d = i.body d := by
  simp only [Insert.body, Insert.written, layoutReturning_kept, Insert.layoutOnDuplicate_kept]

/-- An update is laid out as it is written. -/
theorem Update.body_written (d : Dialect) (u : Update) : (u.written d).body d = u.body d := by
  simp only [Update.body, Update.written, layoutReturning_kept]

namespace Configuration

variable {cfg : Configuration} {modes : Modes} {past : List Notice}

/-- Two parts that are written alike leave the same, if the same is written inside them. -/
theorem Overlooks.report_eq (h : cfg.Overlooks) {part part' p p' : Part} {body : Script}
    (hpart : part.visit cfg.settings.dialect = .visit p body)
    (hpart' : part'.visit cfg.settings.dialect = .visit p' body)
    (hp : p.written cfg.settings.dialect = p'.written cfg.settings.dialect) :
    (cfg.render part modes past).written = (cfg.render part' modes past).written := by
  have hrun : Run.written (cfg.run part modes past) = Run.written (cfg.run part' modes past) := by
    unfold run
    rw [hpart, hpart']
    exact h.alike_visit body hp _ _ rfl
  unfold render Report.written
  cases hok : cfg.run part modes past with
  | ok a st =>
    cases hok' : cfg.run part' modes past with
    | ok a' st' =>
      rw [hok, hok'] at hrun
      obtain ⟨hst, hnotices⟩ := State.eq_of_written (EStateM.Result.ok.inj hrun).2
      rw [hst]
      simp only [List.map_drop, hnotices, rendered]
    | error e st' => rw [hok, hok'] at hrun; cases hrun
  | error e st =>
    cases hok' : cfg.run part' modes past with
    | ok a st' => rw [hok, hok'] at hrun; cases hrun
    | error e' st' =>
      rw [hok, hok'] at hrun
      obtain ⟨rfl, hwritten⟩ := EStateM.Result.error.inj hrun
      obtain ⟨hst, hnotices⟩ := State.eq_of_written hwritten
      rw [hst]
      simp only [List.map_drop, hnotices]

/-- Two inserts that are written alike leave the same. -/
theorem Overlooks.insert_eq (h : cfg.Overlooks) {i i' : Insert}
    (hi : i.written cfg.settings.dialect = i'.written cfg.settings.dialect) :
    (cfg.render (.insert i) modes past).written = (cfg.render (.insert i') modes past).written := by
  let d := cfg.settings.dialect
  have hbody : i'.body d = i.body d := by
    rw [← Insert.body_written, ← hi, Insert.body_written]
  have hvisit : (Part.insert i').visit d = .visit (.insert i') (i.body d) := by
    rw [← hbody]
    rfl
  exact h.report_eq rfl hvisit (congrArg Part.insert hi)

/-- Two updates that are written alike leave the same. -/
theorem Overlooks.update_eq (h : cfg.Overlooks) {u u' : Update}
    (hu : u.written cfg.settings.dialect = u'.written cfg.settings.dialect) :
    (cfg.render (.update u) modes past).written = (cfg.render (.update u') modes past).written := by
  let d := cfg.settings.dialect
  have hbody : u'.body d = u.body d := by
    rw [← Update.body_written, ← hu, Update.body_written]
  have hvisit : (Part.update u').visit d = .visit (.update u') (u.body d) := by
    rw [← hbody]
    rfl
  exact h.report_eq rfl hvisit (congrArg Part.update hu)

variable (cfg) in
/-- **What a dialect omits has no influence.** Where it omits `RETURNING`, two inserts or two
updates that differ in no more than this list leave the same: the same text and bind values, or the same
error, the same output up to there, and the same events, each told to the same listeners. Where it
omits `ON DUPLICATE KEY UPDATE`, two inserts that differ in these assignments do. The only trace of
the lists is in the statement that its own events carry. Whether the lists could be rendered, and
whether their parameters share names with the rest of the statement, does not matter. -/
theorem omitted_has_no_influence (h : cfg.Overlooks) (modes : Modes) (past : List Notice) :
    let d := cfg.settings.dialect
    let left (part : Part) : Report := (cfg.render part modes past).written
    (d.resolve .returning = .omit →
      (∀ (i : Insert) (fields fields' : List Field),
        left (.insert { i with returning := fields }) =
          left (.insert { i with returning := fields' })) ∧
      ∀ (u : Update) (fields fields' : List Field),
        left (.update { u with returning := fields }) =
          left (.update { u with returning := fields' })) ∧
    (d.resolve .onDuplicateKeyUpdate = .omit →
      ∀ (i : Insert) (as as' : List Assignment),
        left (.insert { i with onDuplicateKeyUpdate := as }) =
          left (.insert { i with onDuplicateKeyUpdate := as' })) := by
  intro d left
  refine ⟨fun homit => ⟨fun i fields fields' => ?_, fun u fields fields' => ?_⟩,
    fun homit i as as' => ?_⟩
  · apply h.insert_eq
    rw [Insert.written, Insert.written, Dialect.kept_of_omit homit, Dialect.kept_of_omit homit]
  · apply h.update_eq
    rw [Update.written, Update.written, Dialect.kept_of_omit homit, Dialect.kept_of_omit homit]
  · apply h.insert_eq
    rw [Insert.written, Insert.written, Dialect.kept_of_omit homit, Dialect.kept_of_omit homit]

/-- Lists of an empty row, of another value for a name and of rows of different degrees, to a
listener that refuses one clause, and to one that refuses nothing. -/
theorem omitted_has_no_influence_unrenderable :
    let stop : Listener := fun _ e => if e.clause = some .updateReturning then some "stop" else none
    let cfg : Configuration := { settings := { dialect := .sqlite }, listeners := [stop] }
    let i : Insert :=
      { into := .ofName "t", columns := [.named "a"], source := .values [[.param "p" (1 : Int64)]] }
    let u : Update :=
      { table := .ofName "t",
        assignments := [{ target := .named "a", value := .param "p" (1 : Int64) }] }
    let fields : List Field := [.row [], .param "p" (2 : Int64)]
    let as : List Assignment := [{ target := .row [.named "a"], value := .row [] }]
    let render (part : Part) : Report := cfg.render part {} []
    let recording : Configuration := { cfg with listeners := [.silent] }
    cfg.Overlooks ∧ recording.Overlooks ∧
    Dialect.sqlite.resolve .returning = .omit ∧
    Dialect.sqlite.resolve .onDuplicateKeyUpdate = .omit ∧
    (render (.insert { i with returning := fields })).written =
      (render (.insert { i with returning := [] })).written ∧
    (render (.insert { i with onDuplicateKeyUpdate := as })).written =
      (render (.insert { i with onDuplicateKeyUpdate := [] })).written ∧
    (render (.insert { i with returning := fields })).result =
      .ok ⟨"INSERT INTO \"t\" (\"a\") VALUES (?)", [.int 1]⟩ ∧
    (render (.update { u with returning := fields })).written =
      (render (.update { u with returning := [] })).written ∧
    (render (.update { u with returning := fields })).result =
      .error (.listener (some .updateReturning) "stop") ∧
    (recording.render (.update { u with returning := fields }) {} []).written =
      (recording.render (.update { u with returning := [] }) {} []).written := by
  intro stop cfg i u fields as render recording
  have hoverlooks : cfg.Overlooks := by
    intro l hl past past' e e' _ he
    obtain rfl : l = stop := by simpa [cfg] using hl
    have hclause : e.written.clause = e'.written.clause := congrArg Event.clause he
    replace hclause : e.clause = e'.clause := hclause
    simp only [stop, hclause]
  have hrecording : recording.Overlooks := by
    apply Tolerant.overlooks
    intro l hl past e
    obtain rfl : l = .silent := by simpa [recording] using hl
    rfl
  have hreturning : Dialect.sqlite.resolve .returning = .omit := by decide
  have hduplicate : Dialect.sqlite.resolve .onDuplicateKeyUpdate = .omit := by decide
  obtain ⟨hlists, hassignments⟩ := cfg.omitted_has_no_influence hoverlooks {} []
  obtain ⟨hinserts, hupdates⟩ := hlists hreturning
  obtain ⟨-, hrecorded⟩ := (recording.omitted_has_no_influence hrecording {} []).1 hreturning
  exact ⟨hoverlooks, hrecording, hreturning, hduplicate, hinserts i fields [],
    hassignments hduplicate i as [], Report.result_eq_ok (by decide +kernel), hupdates u fields [],
    Report.result_eq_error (by decide +kernel), hrecorded u fields []⟩

end Configuration

end SqlRender
