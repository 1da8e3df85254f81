import SqlRender.Proofs.Checks

/-!
# Why a run fails

A run that fails does so at one move. Either a listener refuses its event, or its stroke cannot be
settled behind the strokes before it; `Stroke.Raises` says which error that is:

* an error that the layout raises is passed on;
* a parameter that clashes with an opener of its name is a conflict of that name;
* a number in place without a literal is an invalid literal.

`Move.performAll_error` is the counterpart of `Move.performAll_ok`. Where no listener refuses
anything, a run fails for no other reason.
-/

namespace SqlRender

/-! ## Listeners that refuse nothing -/

/-- No listener ever refuses an event. -/
def Configuration.Tolerant (cfg : Configuration) : Prop :=
  ∀ l ∈ cfg.listeners, ∀ past e, l past e = none

theorem Configuration.tolerant_of_nil {cfg : Configuration} (h : cfg.listeners = []) :
    cfg.Tolerant := by
  intro l hl
  rw [h] at hl
  cases hl

theorem tell_tolerant {past : List Notice} {e : Event} :
    ∀ {ls : List Listener} (place : Nat), (∀ l ∈ ls, ∀ past e, l past e = none) →
      (tell past e ls place).2 = none
  | [], _, _ => rfl
  | l :: ls, place, h => by
    unfold tell
    rw [h l List.mem_cons_self]
    exact tell_tolerant (place + 1) fun l' hl' => h l' (List.mem_cons_of_mem _ hl')

open Run

/-- Whether an error is that of a listener which refused an event. -/
def RenderError.isRefusal : RenderError → Bool
  | listener _ _ => true
  | _ => false

namespace Configuration

variable (cfg : Configuration)

/-- An event fails only where a listener refuses it. -/
theorem notify_eq_error {kind : EventKind} {part : Option Part} {st st' : State} {e : RenderError}
    (h : cfg.notify kind part st = .error e st') : e.isRefusal = true ∧ ¬ cfg.Tolerant := by
  unfold notify at h
  dsimp only at h
  split at h
  · cases h
  · next reason hrefusal =>
    cases h
    refine ⟨rfl, fun htolerant => ?_⟩
    rw [tell_tolerant 0 htolerant] at hrefusal
    cases hrefusal

end Configuration

/-! ## What a stroke raises -/

/-- The error that a stroke raises behind parameters that have opened slots, up to the clause that
is open. -/
inductive Stroke.Raises (s : Settings) (opened : List Param) : Stroke → RenderError → Prop
  | fail {e : RenderError} : Raises s opened (.error e) e
  | conflict {o : Occurrence} {name : String} {inner : Option Clause} :
      o.param.name = some name → o.param.clashes opened = true →
      Raises s opened (.ok (.literal o)) (.paramConflict name inner)
  | noLiteral {o : Occurrence} {x : Double} {inner : Option Clause} :
      o.inPlace s = true → o.param.value = .float x → o.param.value.hasLiteral = false →
      Raises s opened (.ok (.literal o)) (.invalidLiteral x s.dialect inner)

namespace Configuration

variable (cfg : Configuration) {st st' : State} {opened : List Param} {o : Occurrence}
  {e : RenderError}

/-- A literal fails exactly as a number without one. -/
theorem literal_error (h : cfg.literal o st = .error e st') :
    ∃ x, o.param.value = .float x ∧ o.param.value.hasLiteral = false ∧
      e = .invalidLiteral x cfg.settings.dialect st.path.getLast? := by
  cases hlit : o.param.value.hasLiteral with
  | true =>
    rw [cfg.literal_eq_ok hlit] at h
    cases h
  | false =>
    unfold literal at h
    cases hv : o.param.value with
    | float x =>
      have hx : ¬ x.isFinite = true := by simpa [hv, Value.hasLiteral] using hlit
      rw [hv] at h
      dsimp only at h
      rw [if_neg hx] at h
      cases h
      exact ⟨x, rfl, rfl, rfl⟩
    | _ => rw [hv] at hlit; cases hlit

/-- An occurrence that fails raises what its stroke raises. -/
theorem place_error (hst : st.Holds opened) (h : cfg.place o st = .error e st') :
    Stroke.Raises cfg.settings opened (.ok (.literal o)) e := by
  rw [place_eq] at h
  cases hconf : st.conflict? o.param with
  | some name =>
    rw [hconf] at h
    cases h
    have hname : o.param.name = some name := (Option.filter_eq_some_iff.1 hconf).1
    have hclash : o.param.clashes opened = true := by
      cases hc : o.param.clashes opened with
      | true => rfl
      | false => rw [(hst.conflict?_eq_none _).2 hc] at hconf; cases hconf
    exact .conflict hname hclash
  | none =>
    rw [hconf] at h
    dsimp only at h
    split at h
    · next hin =>
      obtain ⟨x, hv, hlit, rfl⟩ := cfg.literal_error h
      exact .noLiteral hin hv hlit
    · obtain ⟨st₁, hok, -⟩ := cfg.placeholder_eq_ok hst o
      rw [hok] at h
      cases h

end Configuration

/-! ## Where a run fails -/

namespace Move

variable {cfg : Configuration} {st st' : State} {opened : List Param} {mv : Move} {e : RenderError}

/-- A run under fixed modes fails as the run does. -/
theorem under_error {m : Modes} {run : Run Unit} (h : under (fun _ => m) run st = .error e st') :
    ∃ st₁, run { st with modes := m } = .error e st₁ := by
  unfold Run.under at h
  cases hrun : run { st with modes := m } with
  | ok a st₁ => rw [hrun] at h; cases h
  | error e' st₁ => rw [hrun] at h; cases h; exact ⟨st₁, rfl⟩

/-- A move without a stroke fails only where a listener refuses its event. -/
theorem refusal_of_stroke_none (hnone : mv.stroke? = none) (hattempt : mv.deed.isAttempt = false)
    (h : mv.perform cfg st = .error e st') : e.isRefusal = true ∧ ¬ cfg.Tolerant := by
  obtain ⟨m, deed⟩ := mv
  obtain ⟨st₁, h⟩ := under_error h
  cases deed with
  | text | keyword | ident | bind | literal | fail => cases hnone
  | attempt => cases hattempt
  | note => cases h
  | enter | leave => exact cfg.notify_eq_error h
  | start part c =>
    have hnotify : cfg.notify .clauseStart part { st with modes := m, path := st.path ++ [c] } =
        .error e st₁ := h
    exact cfg.notify_eq_error hnotify
  | close part c =>
    simp only [Deed.perform, Configuration.close, Bind.bind, EStateM.bind] at h
    split at h
    · cases h
    · next hnotify =>
      cases h
      exact cfg.notify_eq_error hnotify

/-- A move with a stroke raises what the stroke raises. -/
theorem raises_of_stroke {x : Stroke} (hst : st.Holds opened) (hx : mv.stroke? = some x)
    (h : mv.perform cfg st = .error e st') : x.Raises cfg.settings opened e := by
  obtain ⟨m, deed⟩ := mv
  have hm : State.Holds { st with modes := m } opened := hst.of_eq rfl rfl
  obtain ⟨st₁, h⟩ := under_error h
  cases deed with
  | enter | leave | start | close | attempt | note => cases hx
  | text | keyword | ident => cases h
  | fail e' =>
    cases hx
    cases h
    exact .fail
  | bind p =>
    cases hx
    exact cfg.place_error hm h
  | literal v type =>
    cases hx
    obtain ⟨x, hv, hlit, rfl⟩ := cfg.literal_error h
    exact .noLiteral rfl hv hlit

/-- **Moves fail where a listener refuses an event, or at the first stroke that cannot be settled
behind those before it.** -/
theorem performAll_error {mvs : List Move} (hattempt : ∀ mv ∈ mvs, mv.deed.isAttempt = false)
    (hst : st.Holds opened) (h : performAll cfg mvs st = .error e st') :
    (e.isRefusal = true ∧ ¬ cfg.Tolerant) ∨
    ∃ before x after segments opened', strokes mvs = before ++ x :: after ∧
      settle cfg.settings opened before = some (segments, opened') ∧
      x.Raises cfg.settings opened' e := by
  induction mvs generalizing st opened with
  | nil => cases h
  | cons mv mvs ih =>
    obtain ⟨hmv, hrest⟩ := List.forall_mem_cons.1 hattempt
    rw [performAll_cons] at h
    simp only [Bind.bind, EStateM.bind] at h
    rw [strokes_cons]
    cases hperform : mv.perform cfg st with
    | error e' st₁ =>
      rw [hperform] at h
      cases h
      cases hx : mv.stroke? with
      | none => exact .inl (refusal_of_stroke_none hx hmv hperform)
      | some x =>
        exact .inr ⟨[], x, strokes mvs, [], opened, rfl, rfl, raises_of_stroke hst hx hperform⟩
    | ok a st₁ =>
      rw [hperform] at h
      cases hx : mv.stroke? with
      | none =>
        -- what has been written and bound is as it was
        have hledger : st₁.ledger = st.ledger := (keeps_ledger hx hmv).ok hperform
        exact ih hrest (hst.of_ledger_eq hledger) h
      | some x =>
        have hstep := perform_settles cfg hst hx
        rw [hperform] at hstep
        cases hs : x.settle cfg.settings opened with
        | none =>
          rw [hs] at hstep
          obtain ⟨e', st₂, he⟩ := hstep
          cases he
        | some r =>
          rw [hs] at hstep
          obtain ⟨st₂, hok, hext⟩ := hstep
          cases hok
          rcases ih hrest hext.holds h with hrefusal | hfail
          · exact .inl hrefusal
          · obtain ⟨before, y, after, segments, opened', heq, hsettle, hraises⟩ := hfail
            refine .inr ⟨x :: before, y, after, r.1 :: segments, opened', ?_, ?_, hraises⟩
            · rw [heq]
              rfl
            · exact settle_cons_eq_some.2 ⟨r.1, r.2, segments, hs, hsettle, rfl⟩

end Move

/-! ## Renders -/

/-- The error that a render ended with. -/
def Report.error? (report : Report) : Option RenderError :=
  match report.result with
  | .ok _ => none
  | .error e => some e

theorem Report.result_eq_error {report : Report} {e : RenderError} (h : report.error? = some e) :
    report.result = .error e := by
  unfold error? at h
  split at h
  · cases h
  · next hresult =>
    cases h
    exact hresult

namespace Configuration

variable (cfg : Configuration) {part : Part} {modes : Modes} {past : List Notice}

theorem render_error_iff_run {e : RenderError} :
    (cfg.render part modes past).result = .error e ↔
      ∃ st, cfg.run part modes past = .error e st := by
  unfold render
  cases cfg.run part modes past with
  | ok a st => simp
  | error e' st => simp [eq_comm]

/-- **A render fails where a listener refuses an event, or at the first stroke of its draft that
cannot be settled** behind those before it. -/
theorem render_error {e : RenderError} (hpart : part.propagates = true)
    (h : (cfg.render part modes past).result = .error e) :
    (e.isRefusal = true ∧ ¬ cfg.Tolerant) ∨
    ∃ before x after segments opened, cfg.draft part modes = before ++ x :: after ∧
      settle cfg.settings [] before = some (segments, opened) ∧
      x.Raises cfg.settings opened e := by
  obtain ⟨st, hrun⟩ := cfg.render_error_iff_run.1 h
  rw [run_eq_moves] at hrun
  rw [draft, Action.draft_eq_strokes]
  exact Move.performAll_error (Part.straight_visit _ part hpart).isAttempt_eq_false
    (State.holds_nil modes past) hrun

end Configuration

end SqlRender
