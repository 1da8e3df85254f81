import SqlRender.Proofs.Failures
import SqlRender.Proofs.Nesting

/-!
# Clauses left open

A clause is opened before and closed behind what stands in it, but it is closed only where that ends
well. A caller's part may go on behind a failure, and then goes on inside every clause that the
failed run had opened:

```text
custom [SELECT]                       SELECT
  attempt                             SELECT
    within SELECT_WHERE               SELECT / SELECT_WHERE
      fail
  … goes on                           SELECT / SELECT_WHERE
close SELECT                          SELECT               (it was SELECT_WHERE that went)
```

No run ever closes a clause that was open before it, so what a run changes about the open clauses is
what it leaves behind them. `Run.Leaves` follows that, along with the events: a run leaves as many
clauses open as it opened and did not close. The modes, by contrast, are restored behind a failure
(`Action.keeps_modes`).
-/

namespace SqlRender

/-! ## Counting events -/

/-- The number of clauses that were opened in a word of events. -/
def openings (es : List Event) : Nat := es.countP fun e => e.kind = .clauseStart

/-- The number of clauses that were closed in a word of events. -/
def closings (es : List Event) : Nat := es.countP fun e => e.kind = .clauseEnd

@[simp] theorem openings_nil : openings [] = 0 := rfl

@[simp] theorem closings_nil : closings [] = 0 := rfl

@[simp] theorem openings_append (es es' : List Event) :
    openings (es ++ es') = openings es + openings es' :=
  List.countP_append

@[simp] theorem closings_append (es es' : List Event) :
    closings (es ++ es') = closings es + closings es' :=
  List.countP_append

@[simp] theorem openings_singleton (e : Event) :
    openings [e] = if e.kind = .clauseStart then 1 else 0 := by
  simp [openings, List.countP_singleton]

@[simp] theorem closings_singleton (e : Event) :
    closings [e] = if e.kind = .clauseEnd then 1 else 0 := by
  simp [closings, List.countP_singleton]

/-- The events that have happened. -/
def State.events (st : State) : List Event := st.notices.map Notice.event

/-! ## What runs leave open -/

/-- Between two states clauses were only added to the open ones; where no event was refused, as many
as were opened and not closed. -/
structure State.Leaves (cfg : Configuration) (st st' : State) (left : List Clause)
    (es : List Event) : Prop where
  path_eq : st'.path = st.path ++ left
  events_eq : st'.events = st.events ++ es
  balance : cfg.Tolerant → left.length + closings es = openings es

theorem State.Leaves.trans {cfg : Configuration} {st st' st'' : State} {left left' : List Clause}
    {es es' : List Event} (h : Leaves cfg st st' left es) (h' : Leaves cfg st' st'' left' es') :
    Leaves cfg st st'' (left ++ left') (es ++ es') where
  path_eq := by rw [h'.path_eq, h.path_eq, List.append_assoc]
  events_eq := by rw [h'.events_eq, h.events_eq, List.append_assoc]
  balance := by
    intro htolerant
    have hleft := h.balance htolerant
    have hleft' := h'.balance htolerant
    simp only [List.length_append, openings_append, closings_append]
    omega

/-- Whether it ends well or not, a run only adds to the open clauses. -/
def Run.Leaves {α : Type} (cfg : Configuration) (run : Run α) : Prop :=
  ∀ st, ∃ left es, State.Leaves cfg st (run.final st) left es

open Run

namespace Run

variable {cfg : Configuration} {α β : Type}

/-- A run that lets no event happen and keeps the open clauses leaves nothing. -/
theorem Leaves.of_keeps {run : Run α} (h : Keeps (fun st => (st.path, st.notices)) run) :
    run.Leaves cfg := by
  intro st
  have hst := h st
  simp only [Prod.mk.injEq] at hst
  refine ⟨[], [], by rw [hst.1, List.append_nil], ?_, fun _ => rfl⟩
  rw [State.events, hst.2, List.append_nil]
  rfl

theorem Leaves.bind {run : Run α} {next : α → Run β} (h : run.Leaves cfg)
    (hnext : ∀ a, (next a).Leaves cfg) : (run >>= next).Leaves cfg := by
  intro st
  obtain ⟨left, es, hst⟩ := h st
  simp only [final, Bind.bind, EStateM.bind] at hst ⊢
  cases hrun : run st with
  | error e st₁ =>
    rw [hrun] at hst
    exact ⟨left, es, hst⟩
  | ok a st₁ =>
    rw [hrun] at hst
    obtain ⟨left', es', hst'⟩ := hnext a st₁
    exact ⟨left ++ left', es ++ es', hst.trans hst'⟩

theorem Leaves.under {run : Run Unit} (h : run.Leaves cfg) (change : Modes → Modes) :
    (under change run).Leaves cfg := by
  intro st
  obtain ⟨left, es, hst⟩ := h { st with modes := change st.modes }
  refine ⟨left, es, ?_⟩
  unfold final at hst
  unfold final Run.under
  cases hrun : run { st with modes := change st.modes } <;> rw [hrun] at hst <;>
    exact ⟨hst.path_eq, hst.events_eq, hst.balance⟩

/-- A failure that is caught leaves what the failed run left. -/
theorem Leaves.outcome {run : Run Unit} (h : run.Leaves cfg) : (outcome run).Leaves cfg := by
  intro st
  obtain ⟨left, es, hst⟩ := h st
  refine ⟨left, es, ?_⟩
  unfold final Run.outcome at *
  cases hrun : run st <;> rw [hrun] at hst <;> exact hst

end Run

/-! ## Clauses and parts -/

namespace Configuration

variable (cfg : Configuration)

/-- An event happens whether it is refused or not, and changes nothing else. -/
theorem final_notify (kind : EventKind) (part : Option Part) (st : State) :
    ∃ n, n.event = st.modes.event cfg.settings.dialect kind part st.path ∧
      (cfg.notify kind part).final st = { st with notices := st.notices ++ [n] } := by
  unfold final notify
  dsimp only
  cases (tell st.notices _ cfg.listeners 0).2 <;> refine ⟨_, ?_, rfl⟩ <;> rfl

/-- The visit of a part opens and closes no clause by itself. -/
theorem leaves_notify {kind : EventKind} (hstart : kind ≠ .clauseStart) (hend : kind ≠ .clauseEnd)
    (part : Option Part) : (cfg.notify kind part).Leaves cfg := by
  intro st
  obtain ⟨n, hevent, hfinal⟩ := cfg.final_notify kind part st
  refine ⟨[], [n.event], ?_, ?_, fun _ => ?_⟩
  · rw [hfinal, List.append_nil]
  · simp [hfinal, State.events]
  · simp [hevent, Modes.event, hstart, hend]

/-- A clause that is opened is left open. -/
theorem leaves_start (part : Option Part) (c : Clause) (st : State) :
    ∃ es, State.Leaves cfg st ((cfg.start part c).final st) [c] es := by
  obtain ⟨n, hevent, hfinal⟩ :=
    cfg.final_notify .clauseStart part { st with path := st.path ++ [c] }
  have hstart : (cfg.start part c).final st =
      { st with path := st.path ++ [c], notices := st.notices ++ [n] } := hfinal
  refine ⟨[n.event], ?_, ?_, fun _ => ?_⟩
  · rw [hstart]
  · simp [hstart, State.events]
  · simp [hevent, Modes.event]

/-- Closing a clause takes one of those that were left open, unless the event is refused. -/
theorem leaves_close {st₀ st : State} {c : Clause} {left : List Clause} {es : List Event}
    (h : State.Leaves cfg st₀ st (c :: left) es) (part : Option Part) (c' : Clause) :
    ∃ left' es', State.Leaves cfg st₀ ((cfg.close part c').final st) left' es' := by
  obtain ⟨n, hevent, hfinal⟩ := cfg.final_notify .clauseEnd part st
  have hevents : State.events { st with notices := st.notices ++ [n] } =
      st₀.events ++ (es ++ [n.event]) := by
    rw [← List.append_assoc, ← h.events_eq]
    simp [State.events]
  simp only [final, close, Bind.bind, EStateM.bind] at hfinal ⊢
  cases hnotify : cfg.notify .clauseEnd part st with
  | error e st₁ =>
    rw [hnotify] at hfinal
    obtain rfl : st₁ = _ := hfinal
    exact ⟨c :: left, es ++ [n.event], h.path_eq, hevents,
      fun htolerant => absurd htolerant (cfg.notify_eq_error hnotify).2⟩
  | ok a st₁ =>
    rw [hnotify] at hfinal
    obtain rfl : st₁ = _ := hfinal
    refine ⟨(c :: left).dropLast, es ++ [n.event], ?_, hevents, fun htolerant => ?_⟩
    · show st.path.dropLast = _
      rw [h.path_eq, List.dropLast_append_of_ne_nil (List.cons_ne_nil _ _)]
    · have hbalance := h.balance htolerant
      simp only [List.length_dropLast, List.length_cons, closings_append, openings_append,
        closings_singleton, openings_singleton, hevent, Modes.event] at hbalance ⊢
      simp
      omega

end Configuration

namespace Run

variable {cfg : Configuration}

/-- A run inside a clause that is opened before and closed behind it. -/
theorem Leaves.within {run : Run Unit} (h : run.Leaves cfg) (part : Option Part) (c : Clause) :
    Leaves cfg (do cfg.start part c; run; cfg.close part c) := by
  intro st
  obtain ⟨es, hstart⟩ := cfg.leaves_start part c st
  simp only [final, Bind.bind, EStateM.bind] at hstart ⊢
  cases hs : cfg.start part c st with
  | error e st₁ =>
    rw [hs] at hstart
    exact ⟨[c], es, hstart⟩
  | ok a st₁ =>
    rw [hs] at hstart
    obtain ⟨left, es', hrun⟩ := h st₁
    have hboth := hstart.trans hrun
    simp only [final] at hboth ⊢
    cases hr : run st₁ with
    | error e st₂ =>
      rw [hr] at hboth
      exact ⟨_, _, hboth⟩
    | ok a st₂ =>
      rw [hr] at hboth
      exact cfg.leaves_close hboth part c

/-- A run inside tags that are opened before and closed in reverse order behind it. -/
theorem Leaves.tags {run : Run Unit} (h : run.Leaves cfg) (part : Option Part)
    (tags : List Clause) :
    Leaves cfg (do tags.forM (cfg.start part); run; tags.reverse.forM (cfg.close part)) := by
  induction tags with
  | nil => simpa using h
  | cons c tags ih =>
    have hsplit : (do (c :: tags).forM (cfg.start part); run
                      (c :: tags).reverse.forM (cfg.close part)) =
        (do cfg.start part c
            (do tags.forM (cfg.start part); run; tags.reverse.forM (cfg.close part))
            cfg.close part c) := by
      simp
    rw [hsplit]
    exact ih.within part c

end Run

/-! ## Actions -/

mutual

/-- Whether it ends well or not, an action only adds to the open clauses. -/
theorem Action.leaves (cfg : Configuration) : ∀ a : Action, (a.perform cfg).Leaves cfg
  | .text _ | .keyword _ | .ident _ => by
    simp only [Action.perform]
    exact .of_keeps (keeps_modify fun _ => rfl)
  | .bind p => by
    simp only [Action.perform]
    exact .of_keeps (keeps_get.bind fun _ => cfg.keeps_place (fun _ _ _ _ => rfl) _)
  | .literal _ _ => by
    simp only [Action.perform]
    exact .of_keeps (cfg.keeps_literal (fun _ _ => rfl) _)
  | .visit part body => by
    simp only [Action.perform]
    apply (cfg.leaves_notify (by decide) (by decide) _).bind
    intro _
    apply (Leaves.of_keeps keeps_get).bind
    intro st
    have htags := (Script.leaves cfg body).tags (some part) (part.tags st.modes)
    have hleave : ∀ _ : Unit, (cfg.notify .visitEnd (some part)).Leaves cfg :=
      fun _ => cfg.leaves_notify (by decide) (by decide) _
    simpa using htags.bind hleave
  | .within c body => by
    simp only [Action.perform]
    exact (Script.leaves cfg body).within none c
  | .switch _ _ body | .assume _ body => by
    simp only [Action.perform]
    exact (Script.leaves cfg body).under _
  | .whenOn mode body => by
    simp only [Action.perform]
    apply (Leaves.of_keeps keeps_get).bind
    intro st
    split
    · exact Script.leaves cfg body
    · exact .of_keeps (keeps_pure _)
  | .fail e => by
    simp only [Action.perform]
    exact .of_keeps (keeps_throw e)
  | .attempt step body => by
    simp only [Action.perform]
    apply (Script.leaves cfg body).outcome.bind
    intro _
    exact .of_keeps (keeps_modify fun _ => rfl)
  | .note step reading => by
    simp only [Action.perform]
    exact .of_keeps (keeps_get.bind fun _ => keeps_modify fun _ => rfl)

/-- Whether it ends well or not, a script only adds to the open clauses. -/
theorem Script.leaves (cfg : Configuration) :
    ∀ as : List Action, (Script.perform cfg as).Leaves cfg
  | [] => by
    simp only [Script.perform]
    exact .of_keeps (keeps_pure _)
  | a :: as => by
    simp only [Script.perform]
    exact (Action.leaves cfg a).bind fun _ => Script.leaves cfg as

end

/-! ## Attempts and renders -/

/-- The open clauses are what they were exactly if every clause that was opened was closed. -/
theorem State.Leaves.path_eq_iff {cfg : Configuration} {st st' : State} {left : List Clause}
    {es : List Event} (h : Leaves cfg st st' left es) (htolerant : cfg.Tolerant) :
    st'.path = st.path ↔ closings es = openings es := by
  have hbalance := h.balance htolerant
  rw [h.path_eq, List.append_right_eq_self, ← List.length_eq_zero_iff]
  omega

namespace Configuration

variable (cfg : Configuration)

/-- **What stands open behind an attempt.** However its body ends, and whatever the body attempts
itself, an attempt ends well, restores the modes and leaves the clauses open that were open before.
Behind these it leaves as many clauses open as it opened and did not close. So the open clauses are
what they were before the attempt exactly if each clause opened in it was closed, and likewise a
render that ends well ends with no clause open exactly if each was closed. -/
theorem open_behind_attempt (htolerant : cfg.Tolerant) :
    (∀ step body st, ∃ st' left es,
      (Action.attempt step body).perform cfg st = .ok () st' ∧ st'.modes = st.modes ∧
        st'.path = st.path ++ left ∧ st'.events = st.events ++ es ∧
        left.length + closings es = openings es ∧
        (st'.path = st.path ↔ closings es = openings es)) ∧
    (∀ part modes past st, cfg.run part modes past = .ok () st →
      ∃ es, st.events = past.map Notice.event ++ es ∧
        st.path.length + closings es = openings es ∧
        (st.path = [] ↔ closings es = openings es)) := by
  constructor
  · intro step body st
    have hok : ∃ st', (Action.attempt step body).perform cfg st = .ok () st' := by
      simp only [Action.perform, Bind.bind, EStateM.bind, Run.outcome]
      cases Script.perform cfg body st <;> exact ⟨_, rfl⟩
    obtain ⟨st', hst'⟩ := hok
    obtain ⟨left, es, hleaves⟩ := Action.leaves cfg (.attempt step body) st
    have hmodes := Action.keeps_modes cfg (.attempt step body) st
    simp only [final, hst'] at hleaves hmodes
    exact ⟨st', left, es, hst', hmodes, hleaves.path_eq, hleaves.events_eq,
      hleaves.balance htolerant, hleaves.path_eq_iff htolerant⟩
  · intro part modes past st hrun
    obtain ⟨left, es, hleaves⟩ := Action.leaves cfg (part.visit cfg.settings.dialect)
      { modes, notices := past }
    unfold run at hrun
    simp only [final, hrun] at hleaves
    have hpath : st.path = left := hleaves.path_eq
    refine ⟨es, hleaves.events_eq, ?_, hleaves.path_eq_iff htolerant⟩
    rw [hpath]
    exact hleaves.balance htolerant

/-- A slot in which a list turns out to be empty is attempted inside `SELECT`: the slot is left
open. -/
theorem open_behind_attempt_failed :
    let cfg : Configuration := { settings := { dialect := .postgres } }
    let body : Script := [.within .selectWhere [.fail (.emptyClause .fieldRow .postgres)]]
    let st : State := { path := [.select] }
    ∃ st', (Action.attempt .inspect body).perform cfg st = .ok () st' ∧
      st'.modes = st.modes ∧ st'.path = [.select, .selectWhere] := by
  intro cfg body st
  have htolerant : cfg.Tolerant := tolerant_of_nil rfl
  obtain ⟨st', left, es, hrun, hmodes, -⟩ := (cfg.open_behind_attempt htolerant).1 .inspect body st
  refine ⟨st', hrun, hmodes, ?_⟩
  have hpath : (((Action.attempt .inspect body).perform cfg).final st).path =
      [.select, .selectWhere] := by
    decide +kernel
  rwa [final, hrun] at hpath

/-- A caller's part goes on behind a failure. It sees a slot open that it has left, its own tag is
not the one that is closed behind it, and the render ends well with a clause open. -/
theorem clause_left_open :
    let cfg : Configuration := { settings := { dialect := .postgres } }
    let part : Part :=
      .custom [.select] [.attempt [.within .selectWhere [.failEmpty .fieldRow]], .inspect]
    let seen : Finding → List Clause
      | .state path _ => path
      | _ => []
    (cfg.render part {} []).result = .ok ⟨"", []⟩ ∧
      (cfg.render part {} []).journal.map (fun entry => seen entry.finding) =
        [[], [.select, .selectWhere]] ∧
      (((part.visit .postgres).perform cfg).final {}).path = [.select] ∧
      (((part.visit .postgres).perform cfg).final {}).orderly = false := by
  intro cfg part seen
  exact ⟨Report.result_eq_ok (by decide +kernel), by decide +kernel, by decide +kernel,
    by decide +kernel⟩

end Configuration

end SqlRender
