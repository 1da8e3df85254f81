import SqlRender.Proofs.Observers
import SqlRender.Proofs.OpenClauses

/-!
# Refusals

A listener that refuses an event ends the render there. What the others were told by then depends on
where they are registered:

```text
                 e₀      e₁      e₂
listener 0       told    told    told
listener 1       told    told    told, and refuses
listener 2       told    told    —
```

To say which refusal ends a render, the events are taken that happen when nobody listens. Told these
one after the other, a listener refuses some of them or none (`Configuration.Refuses`), and the
first refusal of all is that of the first event, and there of the first listener. `Run.Heeds` puts a
run beside the one that nobody listens to: up to the first refusal both do the same. This needs that
errors are passed on; a caller's part that goes on behind a failure goes on behind a refusal as
well.
-/

namespace SqlRender

/-! ## The first refusal -/

namespace Configuration

variable (cfg : Configuration) (past : List Notice)

/-- Told these events one after the other, the listener at a place refuses the event with a number,
having heard the events before it. -/
def Refuses (es : List Event) (number place : Nat) (reason : String) : Prop :=
  ∃ l e, cfg.listeners[place]? = some l ∧ es[number]? = some e ∧
    l (heard past place ++ es.take number) e = some reason

/-- No listener refuses any of these events. -/
def Accepts (es : List Event) : Prop :=
  ∀ number place reason, ¬ cfg.Refuses past es number place reason

/-- A refusal of the first event that is refused, by the first listener that refuses it. -/
structure FirstRefusal (es : List Event) (number place : Nat) (reason : String) : Prop where
  refuses : cfg.Refuses past es number place reason
  first : ∀ number' place' reason', cfg.Refuses past es number' place' reason' →
    number < number' ∨ number = number' ∧ place ≤ place'

variable {cfg past} {es es' : List Event} {number place : Nat} {reason : String}

theorem Refuses.lt_length (h : cfg.Refuses past es number place reason) : number < es.length := by
  obtain ⟨l, e, -, he, -⟩ := h
  exact (List.getElem?_eq_some_iff.1 he).1

/-- Whether an event is refused does not depend on the events behind it. -/
theorem refuses_append_iff (hlt : number < es.length) :
    cfg.Refuses past (es ++ es') number place reason ↔ cfg.Refuses past es number place reason := by
  unfold Refuses
  rw [List.getElem?_append_left hlt, List.take_append_of_le_length (Nat.le_of_lt hlt)]

theorem FirstRefusal.append (h : cfg.FirstRefusal past es number place reason)
    (es' : List Event) : cfg.FirstRefusal past (es ++ es') number place reason where
  refuses := (refuses_append_iff h.refuses.lt_length).2 h.refuses
  first := by
    intro number' place' reason' h'
    by_cases hlt : number' < es.length
    · exact h.first _ _ _ ((refuses_append_iff hlt).1 h')
    · have hnumber := h.refuses.lt_length
      exact .inl (by omega)

/-- There is only one first refusal. -/
theorem FirstRefusal.unique {number' place' : Nat} {reason' : String}
    (h : cfg.FirstRefusal past es number place reason)
    (h' : cfg.FirstRefusal past es number' place' reason') :
    number' = number ∧ place' = place ∧ reason' = reason := by
  have hle := h.first _ _ _ h'.refuses
  have hle' := h'.first _ _ _ h.refuses
  obtain rfl : number' = number := by omega
  obtain rfl : place' = place := by omega
  obtain ⟨l, e, hl, he, hreason⟩ := h.refuses
  obtain ⟨l', e', hl', he', hreason'⟩ := h'.refuses
  rw [hl] at hl'
  rw [he] at he'
  cases hl'
  cases he'
  rw [hreason] at hreason'
  exact ⟨rfl, rfl, (Option.some.inj hreason').symm⟩

theorem Accepts.nil : cfg.Accepts past [] := by
  intro number place reason h
  exact absurd h.lt_length (Nat.not_lt_zero _)

/-- A refusal among one more event is one of this event, if none was refused before. -/
theorem Accepts.number_eq (h : cfg.Accepts past es) {e : Event}
    (hrefuses : cfg.Refuses past (es ++ [e]) number place reason) : number = es.length := by
  have hlt := hrefuses.lt_length
  rw [List.length_append, List.length_singleton] at hlt
  rcases Nat.lt_succ_iff_lt_or_eq.1 hlt with hbefore | heq
  · exact absurd ((refuses_append_iff hbefore).1 hrefuses) (h _ _ _)
  · exact heq

/-- The next event is refused by a listener that has heard all events before it. -/
theorem refuses_concat_iff {e : Event} :
    cfg.Refuses past (es ++ [e]) es.length place reason ↔
      ∃ l, cfg.listeners[place]? = some l ∧ l (heard past place ++ es) e = some reason := by
  have hget : (es ++ [e])[es.length]? = some e := List.getElem?_concat_length
  have htake : (es ++ [e]).take es.length = es := List.take_left
  unfold Refuses
  rw [hget, htake]
  constructor
  · rintro ⟨l, e', hl, he, hreason⟩
    cases he
    exact ⟨l, hl, hreason⟩
  · rintro ⟨l, hl, hreason⟩
    exact ⟨l, e, hl, rfl, hreason⟩

/-- One more event is accepted if no listener that has heard the others refuses it. -/
theorem Accepts.concat (h : cfg.Accepts past es) {e : Event}
    (hnone : ∀ (place : Nat) (l : Listener), cfg.listeners[place]? = some l →
      l (heard past place ++ es) e = none) :
    cfg.Accepts past (es ++ [e]) := by
  intro number place reason hrefuses
  obtain rfl := h.number_eq hrefuses
  obtain ⟨l, hl, hreason⟩ := refuses_concat_iff.1 hrefuses
  rw [hnone place l hl] at hreason
  cases hreason

/-- One more event is refused first if a listener that has heard the others refuses it, and no
listener before does. -/
theorem Accepts.firstRefusal_concat (h : cfg.Accepts past es) {e : Event} {l : Listener}
    (hl : cfg.listeners[place]? = some l) (hreason : l (heard past place ++ es) e = some reason)
    (hbefore : ∀ (place' : Nat) (l' : Listener), place' < place →
      cfg.listeners[place']? = some l' → l' (heard past place' ++ es) e = none) :
    cfg.FirstRefusal past (es ++ [e]) es.length place reason where
  refuses := refuses_concat_iff.2 ⟨l, hl, hreason⟩
  first := by
    intro number' place' reason' hrefuses
    obtain rfl := h.number_eq hrefuses
    obtain ⟨l', hl', hreason'⟩ := refuses_concat_iff.1 hrefuses
    refine .inr ⟨rfl, Nat.not_lt.1 ?_⟩
    intro hlt
    rw [hbefore place' l' hlt hl'] at hreason'
    cases hreason'

end Configuration

/-! ## Runs that heed their listeners -/

/-- How a run ends that is stopped by the refusal of an event: with the reason at the innermost
clause of the event. All listeners were told the events before it, and the event was told up to the
listener that refused it. -/
def Configuration.Stopped (cfg : Configuration) (past notices : List Notice) (number place : Nat)
    (reason : String) (result : EStateM.Result RenderError State Unit) : Prop :=
  ∃ n st, notices[number]? = some n ∧ result = .error (.listener n.event.clause reason) st ∧
    st.notices = cfg.announce past (notices.take number) ++
      [⟨n.event, n.event.callsFrom 0 (place + 1)⟩]

namespace Configuration.Stopped

variable {cfg : Configuration} {past notices : List Notice} {number place : Nat} {reason : String}

/-- What would have happened behind the refusal does not matter. -/
theorem append {result : EStateM.Result RenderError State Unit}
    (h : cfg.Stopped past notices number place reason result) (new : List Notice) :
    cfg.Stopped past (notices ++ new) number place reason result := by
  obtain ⟨n, st, hn, hresult, htold⟩ := h
  have hlt : number < notices.length := (List.getElem?_eq_some_iff.1 hn).1
  refine ⟨n, st, ?_, hresult, ?_⟩
  · rw [List.getElem?_append_left hlt]
    exact hn
  · rw [List.take_append_of_le_length (Nat.le_of_lt hlt)]
    exact htold

/-- Nothing is run behind a run that is stopped. -/
theorem bind {run : Run Unit} {st : State}
    (h : cfg.Stopped past notices number place reason (run st)) (next : Unit → Run Unit) :
    cfg.Stopped past notices number place reason ((run >>= next) st) := by
  obtain ⟨n, st', hn, hrun, htold⟩ := h
  refine ⟨n, st', hn, ?_, htold⟩
  simp only [Bind.bind, EStateM.bind, hrun]

end Configuration.Stopped

namespace Run

/-- A run that does what another does with nobody listening, until a listener refuses an event. -/
structure Heeds (cfg : Configuration) (past : List Notice) (run alone : Run Unit) : Prop where
  /-- Alone the run takes no event back. -/
  grows : ∀ st, st.notices <+: (alone.final st).notices
  /-- If nothing was refused before, then nothing is, and the run does the same as alone; or an
  event is refused first, and the run is stopped there. -/
  heeds : ∀ st, cfg.Accepts past st.events →
    (cfg.Accepts past (alone.final st).events ∧
      run (st.retell (cfg.announce past)) = retell (cfg.announce past) (alone st)) ∨
    ∃ number place reason, cfg.FirstRefusal past (alone.final st).events number place reason ∧
      cfg.Stopped past (alone.final st).notices number place reason
        (run (st.retell (cfg.announce past)))

variable {cfg : Configuration} {past : List Notice} {run alone : Run Unit}

/-- What lets no event happen is refused nothing. -/
theorem Heeds.of_mirrors (h : Mirrors (cfg.announce past) run alone)
    (hkeeps : Keeps State.notices alone) : Heeds cfg past run alone where
  grows st := (hkeeps st).symm ▸ List.prefix_rfl
  heeds st hst := by
    have hevents : (alone.final st).events = st.events :=
      congrArg (List.map Notice.event) (hkeeps st)
    rw [hevents]
    exact .inl ⟨hst, h st⟩

theorem Heeds.bind {next nextAlone : Unit → Run Unit} (h : Heeds cfg past run alone)
    (hnext : ∀ a, Heeds cfg past (next a) (nextAlone a)) :
    Heeds cfg past (run >>= next) (alone >>= nextAlone) where
  grows st := by
    have hgrows := h.grows st
    simp only [final, Bind.bind, EStateM.bind] at hgrows ⊢
    cases halone : alone st with
    | error e st₁ => rwa [halone] at hgrows
    | ok a st₁ =>
      rw [halone] at hgrows
      exact hgrows.trans ((hnext a).grows st₁)
  heeds st hst := by
    have hheeds := h.heeds st hst
    unfold final at hheeds
    cases halone : alone st with
    | error e st₁ =>
      have hfinal : (alone >>= nextAlone).final st = st₁ := by
        simp only [final, Bind.bind, EStateM.bind, halone]
      rw [halone] at hheeds
      rw [hfinal]
      rcases hheeds with ⟨haccepts, hrun⟩ | ⟨number, place, reason, hfirst, hstopped⟩
      · refine .inl ⟨haccepts, ?_⟩
        simp only [Bind.bind, EStateM.bind, halone, hrun]
        rfl
      · exact .inr ⟨number, place, reason, hfirst, hstopped.bind next⟩
    | ok a st₁ =>
      have hfinal : (alone >>= nextAlone).final st = (nextAlone a).final st₁ := by
        simp only [final, Bind.bind, EStateM.bind, halone]
      rw [halone] at hheeds
      rw [hfinal]
      rcases hheeds with ⟨haccepts, hrun⟩ | ⟨number, place, reason, hfirst, hstopped⟩
      · have hbehind := (hnext a).heeds st₁ haccepts
        simp only [Bind.bind, EStateM.bind, halone, hrun]
        exact hbehind
      · obtain ⟨new, hnew⟩ := (hnext a).grows st₁
        have hevents : ((nextAlone a).final st₁).events =
            st₁.events ++ new.map Notice.event := by
          rw [State.events, ← hnew, List.map_append]
          rfl
        refine .inr ⟨number, place, reason, ?_, ?_⟩
        · rw [hevents]
          exact hfirst.append _
        · rw [← hnew]
          exact (hstopped.append new).bind next

/-- The modes that a run is put under are no matter of its listeners. -/
theorem Heeds.under (h : Heeds cfg past run alone) (change : Modes → Modes) :
    Heeds cfg past (under change run) (under change alone) where
  grows st := by
    rw [final_under]
    exact h.grows { st with modes := change st.modes }
  heeds st hst := by
    let g := cfg.announce past
    rw [final_under]
    rcases h.heeds { st with modes := change st.modes } hst with
      ⟨haccepts, hrun⟩ | ⟨number, place, reason, hfirst, n, st', hn, hrun, htold⟩
    · refine .inl ⟨haccepts, ?_⟩
      have hunder : run { st.retell g with modes := change (st.retell g).modes } =
          retell g (alone { st with modes := change st.modes }) := hrun
      unfold Run.under
      rw [hunder]
      cases alone { st with modes := change st.modes } <;> rfl
    · refine .inr ⟨number, place, reason, hfirst, n, { st' with modes := st.modes }, hn, ?_, htold⟩
      have hunder : run { st.retell g with modes := change (st.retell g).modes } =
          .error (.listener n.event.clause reason) st' := hrun
      unfold Run.under
      rw [hunder]
      rfl

end Run

open Run

namespace Configuration

variable (cfg : Configuration) (past : List Notice)

section

variable {cfg} {kind : EventKind} {part : Option Part} {st : State} {e : Event}
  {calls : List Call}
  (he : st.modes.event cfg.settings.dialect kind part st.path = e)

include he

/-- An event that no listener refuses happens. -/
theorem notify_of_told (htell : tell st.notices e cfg.listeners 0 = (calls, none)) :
    cfg.notify kind part st = .ok () { st with notices := st.notices ++ [⟨e, calls⟩] } := by
  subst he
  unfold Modes.event at htell ⊢
  simp only [notify, htell]

/-- An event that a listener refuses has happened as well, and the run fails. -/
theorem notify_of_refused {reason : String}
    (htell : tell st.notices e cfg.listeners 0 = (calls, some reason)) :
    cfg.notify kind part st =
      .error (.listener e.clause reason) { st with notices := st.notices ++ [⟨e, calls⟩] } := by
  subst he
  unfold Modes.event at htell ⊢
  simp only [notify, htell]

end

/-- An event is told to all listeners, or up to the first one that refuses it. -/
theorem heeds_notify (kind : EventKind) (part : Option Part) :
    Heeds cfg past (cfg.notify kind part) (cfg.unobserved.notify kind part) := by
  have halone : ∀ st, cfg.unobserved.notify kind part st = .ok () { st with
      notices := st.notices ++ [⟨st.modes.event cfg.settings.dialect kind part st.path, []⟩] } :=
    notify_of_tolerant (tolerant_of_nil rfl) kind part
  constructor
  · intro st
    rw [final, halone]
    exact List.prefix_append _ _
  intro st hst
  obtain ⟨e, he⟩ : ∃ e, st.modes.event cfg.settings.dialect kind part st.path = e := ⟨_, rfl⟩
  have he' : (st.retell (cfg.announce past)).modes.event cfg.settings.dialect kind part
      (st.retell (cfg.announce past)).path = e := he
  have hheard : ∀ place l, cfg.listeners[place]? = some l →
      heard (cfg.announce past st.notices) (0 + place) = heard past place ++ st.events := by
    intro place l hl
    rw [Nat.zero_add]
    exact cfg.heard_announce past st.notices (List.getElem?_eq_some_iff.1 hl).1
  have hlength : st.events.length = st.notices.length := List.length_map _
  have hevents : State.events { st with notices := st.notices ++ [⟨e, []⟩] } = st.events ++ [e] := by
    simp [State.events]
  rw [final, halone, he]
  dsimp only
  rw [hevents]
  rcases tell_cases (cfg.announce past st.notices) e cfg.listeners 0 with
    ⟨hnone, htell⟩ | ⟨place, l, reason, hl, hreason, hbefore, htell⟩
  · refine .inl ⟨hst.concat ?_, ?_⟩
    · intro place l hl
      rw [← hheard place l hl]
      exact hnone place l hl
    · rw [notify_of_told he' htell]
      simp only [retell, State.retell, announce_concat, toldToAll]
  · rw [hheard place l hl] at hreason
    refine .inr ⟨st.events.length, place, reason, hst.firstRefusal_concat hl hreason ?_,
      ⟨e, []⟩, _, ?_, notify_of_refused he' htell, ?_⟩
    · intro place' l' hlt hl'
      rw [← hheard place' l' hl']
      exact hbefore place' l' hlt hl'
    · rw [hlength, List.getElem?_concat_length]
    · rw [hlength, List.take_left]
      rfl

theorem heeds_start (part : Option Part) (c : Clause) :
    Heeds cfg past (cfg.start part c) (cfg.unobserved.start part c) := by
  refine Heeds.bind ?_ fun _ => cfg.heeds_notify past .clauseStart part
  exact .of_mirrors (mirrors_modify fun _ => rfl) (keeps_modify fun _ => rfl)

theorem heeds_close (part : Option Part) (c : Clause) :
    Heeds cfg past (cfg.close part c) (cfg.unobserved.close part c) := by
  apply (cfg.heeds_notify past .clauseEnd part).bind
  intro _
  exact .of_mirrors (mirrors_modify fun _ => rfl) (keeps_modify fun _ => rfl)

/-- A deed that lets no event happen is done alike. -/
theorem mirrors_of_silent {deed : Deed} (h : deed.isSilent = true) :
    Mirrors (cfg.announce past) (deed.perform cfg) (deed.perform cfg.unobserved) := by
  obtain ⟨hplace, hliteral⟩ : cfg.unobserved.place = cfg.place ∧
      cfg.unobserved.literal = cfg.literal := place_congr rfl rfl
  cases deed with
  | enter | leave | start | close | attempt => cases h
  | text | keyword | ident => exact mirrors_modify fun _ => rfl
  | bind p =>
    apply mirrors_get_bind
    intro st
    show Mirrors _ (cfg.place (p.occurrence st.modes)) (cfg.unobserved.place _)
    rw [hplace]
    exact mirrors_place _
  | literal v type =>
    show Mirrors _ (cfg.literal _) (cfg.unobserved.literal _)
    rw [hliteral]
    exact mirrors_literal _
  | fail e => exact mirrors_throw e
  | note step reading =>
    simp only [Deed.perform, Action.perform]
    apply mirrors_get_bind
    intro st
    have hfinding : reading.finding (st.retell (cfg.announce past)) = reading.finding st := by
      cases reading <;> rfl
    rw [hfinding]
    exact mirrors_modify fun _ => rfl

/-- Every deed but an attempt heeds the listeners. -/
theorem heeds_deed {deed : Deed} (h : deed.isAttempt = false) :
    Heeds cfg past (deed.perform cfg) (deed.perform cfg.unobserved) := by
  by_cases hsilent : deed.isSilent = true
  · refine .of_mirrors (cfg.mirrors_of_silent past hsilent) fun st => ?_
    have hmv : (Move.mk st.modes deed).deed.isSilent = true := hsilent
    have hkeeps : Keeps (fun st => (st.notices, st.path, st.orderly))
        ((Move.mk st.modes deed).perform cfg.unobserved) := Move.keeps_of_silent hmv
    have hkept := congrArg Prod.fst (hkeeps st)
    rwa [Move.perform, final_under] at hkept
  · cases deed with
    | enter p => exact cfg.heeds_notify past .visitStart (some p)
    | leave p => exact cfg.heeds_notify past .visitEnd (some p)
    | start part c => exact cfg.heeds_start past part c
    | close part c => exact cfg.heeds_close past part c
    | attempt => cases h
    | _ => exact absurd rfl hsilent

/-- **Moves heed the listeners**: they are made as with nobody listening, up to the first refusal.
-/
theorem heeds_performAll {mvs : List Move} (h : ∀ mv ∈ mvs, mv.deed.isAttempt = false) :
    Heeds cfg past (Move.performAll cfg mvs) (Move.performAll cfg.unobserved mvs) := by
  induction mvs with
  | nil => exact .of_mirrors (mirrors_pure ()) (keeps_pure ())
  | cons mv mvs ih =>
    obtain ⟨hmv, hmvs⟩ := List.forall_mem_cons.1 h
    exact ((cfg.heeds_deed past hmv).under _).bind fun _ => ih hmvs

/-! ## Renders -/

variable {cfg past} {part : Part} {modes : Modes}

/-- The run of a part that passes errors on is the run with nobody listening, told to all; or it is
stopped at the first refusal. -/
theorem run_heeds (hpart : part.propagates = true) :
    let es := (cfg.unobserved.render part modes []).notices.map Notice.event
    (cfg.Accepts past es ∧ cfg.run part modes past =
      Run.retell (cfg.announce past) (cfg.unobserved.run part modes [])) ∨
    ∃ number place reason, cfg.FirstRefusal past es number place reason ∧
      cfg.Stopped past (cfg.unobserved.render part modes []).notices number place reason
        (cfg.run part modes past) := by
  have hattempt : ∀ mv ∈ (part.visit cfg.settings.dialect).moves modes, mv.deed.isAttempt = false :=
    (Part.straight_visit _ part hpart).isAttempt_eq_false
  have hheeds := (cfg.heeds_performAll past hattempt).heeds { modes } Accepts.nil
  have hstart : State.retell (cfg.announce past) { modes } = { modes, notices := past } := by
    simp [State.retell, announce]
  have hrun : cfg.unobserved.run part modes [] =
      Move.performAll cfg.unobserved ((part.visit cfg.settings.dialect).moves modes) { modes } :=
    cfg.unobserved.run_eq_moves
  have hnotices : (cfg.unobserved.render part modes []).notices =
      ((Move.performAll cfg.unobserved ((part.visit cfg.settings.dialect).moves modes)).final
        { modes }).notices := by
    unfold render final
    rw [← hrun]
    cases cfg.unobserved.run part modes [] <;> rfl
  rw [hstart, State.events, ← hnotices, ← hrun, ← run_eq_moves] at hheeds
  exact hheeds

/-- **A refusal ends the render at one event.** Let a part pass errors on, and take the events that
happen when nobody listens. If a listener refuses one of them, then the render fails with the reason
of the first refusal, at the innermost clause that is open in the refused event, if there is one.
The listeners up to the one that refuses have then heard exactly the events up to that one, and
those behind it exactly the events before. If no listener refuses any, then the render leaves what
it leaves with nobody listening, and all listeners hear all events. -/
theorem stops_at_first_refusal (hpart : part.propagates = true) (modes : Modes)
    (past : List Notice) :
    let unobserved := cfg.unobserved.render part modes []
    let observed := cfg.render part modes past
    let es := unobserved.notices.map Notice.event
    (∀ number place reason, cfg.FirstRefusal past es number place reason →
      ∃ e, es[number]? = some e ∧
        observed.result = .error (.listener e.path.getLast? reason) ∧
        ∀ place', place' < cfg.listeners.length → heard observed.notices place' =
          es.take (if place' ≤ place then number + 1 else number)) ∧
    ((¬ ∃ number place reason, cfg.FirstRefusal past es number place reason) →
      observed.result = unobserved.result ∧ observed.out = unobserved.out ∧
      ∀ place', place' < cfg.listeners.length → heard observed.notices place' = es) := by
  intro unobserved observed es
  rcases run_heeds hpart with
    ⟨haccepts, hrun⟩ | ⟨number, place, reason, hfirst, n, st, hn, hrun, htold⟩
  · refine ⟨fun number place reason h => absurd h.refuses (haccepts _ _ _), fun _ => ?_⟩
    have hobserved : observed = { unobserved with notices := cfg.announce [] unobserved.notices } :=
      render_of_retell hrun
    rw [hobserved]
    refine ⟨rfl, rfl, fun place' hplace => ?_⟩
    exact cfg.heard_announce [] unobserved.notices hplace
  · refine ⟨fun number' place' reason' h => ?_, fun hnone => absurd ⟨_, _, _, hfirst⟩ hnone⟩
    obtain ⟨rfl, rfl, rfl⟩ := hfirst.unique h
    have hevent : es[number']? = some n.event := by
      rw [List.getElem?_map, hn, Option.map_some]
    refine ⟨n.event, hevent, cfg.render_error_iff_run.2 ⟨st, hrun⟩, fun place hplace => ?_⟩
    have hnotices : observed.notices =
        cfg.announce [] (unobserved.notices.take number') ++
          [⟨n.event, n.event.callsFrom 0 (place' + 1)⟩] := by
      show (cfg.render part modes past).notices = _
      unfold render
      rw [hrun]
      show st.notices.drop past.length = _
      rw [htold, announce, List.append_assoc, List.drop_left]
      rfl
    have hhead : heard (cfg.announce [] (unobserved.notices.take number')) place =
        es.take number' := by
      rw [cfg.heard_announce [] _ hplace, List.map_take]
      rfl
    rw [hnotices, heard_append, heard_callsFrom, hhead]
    split
    · next hlt =>
      rw [if_pos (Nat.le_of_lt_succ hlt), List.take_add_one, hevent]
      rfl
    · next hge =>
      rw [if_neg fun hle => hge (Nat.lt_succ_of_le hle), List.append_nil]

/-- The second of three listeners refuses the third event of a column, which opens its reference. -/
theorem stops_at_first_refusal_column :
    let second : Listener := fun past _ => if past.length = 2 then some "stop" else none
    let cfg : Configuration := { listeners := [.silent, second, .silent] }
    let part : Part := .field (.named "a")
    let es := (cfg.unobserved.render part {} []).notices.map Notice.event
    let observed := cfg.render part {} []
    cfg.FirstRefusal [] es 2 1 "stop" ∧
      observed.result = .error (.listener (some .fieldReference) "stop") ∧
      (heard observed.notices 0).length = 3 ∧ (heard observed.notices 1).length = 3 ∧
      (heard observed.notices 2).length = 2 := by
  intro second cfg part es observed
  have hlength : es.length = 6 := by decide +kernel
  have hfirst : cfg.FirstRefusal [] es 2 1 "stop" := by
    refine ⟨⟨second, es[2], rfl, List.getElem?_eq_getElem _, by simp [second, heard, calls, hlength]⟩, ?_⟩
    rintro number place reason ⟨l, e, hl, he, hreason⟩
    have hnumber : number < es.length := (List.getElem?_eq_some_iff.1 he).1
    rcases place with _ | _ | _ | place
    · cases hl
      cases hreason
    · cases hl
      have hheard : (if (es.take number).length = 2 then some "stop" else none) = some reason :=
        hreason
      rw [Option.ite_none_right_eq_some, List.length_take] at hheard
      exact .inr ⟨by omega, Nat.le_refl 1⟩
    · cases hl
      cases hreason
    · cases hl
  have hpart : part.propagates = true := by decide +kernel
  obtain ⟨e, he, hresult, hheard⟩ :=
    (stops_at_first_refusal hpart {} []).1 2 1 "stop" hfirst
  have hclause : es[2]?.bind Event.clause = some .fieldReference := by decide +kernel
  rw [he] at hclause
  have hpath : e.path.getLast? = some .fieldReference := hclause
  rw [hpath] at hresult
  have hlengths : ∀ place, place < 3 →
      (heard observed.notices place).length = min (if place ≤ 1 then 3 else 2) 6 := by
    intro place hplace
    rw [hheard place hplace, List.length_take, hlength]
  exact ⟨hfirst, hresult, hlengths 0 (by decide), hlengths 1 (by decide), hlengths 2 (by decide)⟩

end Configuration

end SqlRender
