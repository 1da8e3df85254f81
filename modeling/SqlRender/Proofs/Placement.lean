import SqlRender.Proofs.Conflicts
import SqlRender.Proofs.OpenClauses

/-!
# Where a script stands

What a script writes and tells depends on what came before it in two ways only. Its placeholders are
numbered on from the slots that are open, and its events happen inside the clauses that are open:

```text
alone                 $1   $2        SELECT / SELECT_WHERE
behind three slots    $4   $5        … / CONDITION_EXISTS / SELECT / SELECT_WHERE
```

`settle_behind` says the first of the drafts whose parameters share no slots, and
`Bracketed.events_inside` the second of bracketed moves. A draft that can be settled behind others
can be settled alone (`isSome_settle_alone`), because two occurrences that are compatible remain so.
-/

namespace SqlRender

/-! ## Parameters behind others -/

/-- A parameter that never shares a slot: placeholders are not numbered, or it has no name. -/
def Param.Unshared (caps : Capabilities) (p : Param) : Prop :=
  caps.numberedPlaceholders = true → p.name = none

theorem Capabilities.allot_of_unshared {caps : Capabilities} {p : Param} (h : p.Unshared caps)
    (opened : List Param) : caps.allot opened p = (opened.length + 1, opened ++ [p]) := by
  unfold allot
  cases hcaps : caps.numberedPlaceholders with
  | false => rfl
  | true => rw [h hcaps]; rfl

/-- The segment with a placeholder's slot counted on from other slots. -/
def Segment.shift (n : Nat) : Segment → Segment
  | .placeholder slot o => .placeholder (slot + n) o
  | x => x

/-- Where placeholders are not numbered they look alike. -/
theorem Segment.spelling_shift {s : Settings} (hs : s.capabilities.numberedPlaceholders = false)
    (n : Nat) (x : Segment) : (x.shift n).spelling s = x.spelling s := by
  cases x with
  | placeholder slot o =>
    rw [shift, spelling_placeholder, spelling_placeholder,
      Capabilities.placeholder_unnumbered hs]
  | _ => rfl

theorem textOf_map_shift {s : Settings} (hs : s.capabilities.numberedPlaceholders = false)
    (n : Nat) (out : List Segment) : textOf s (out.map (Segment.shift n)) = textOf s out := by
  simp only [textOf_eq_join, List.map_map, Function.comp_def, Segment.spelling_shift hs]

section

variable {s : Settings} {pre opened opened' opened₀ : List Param}

/-- A stroke is settled behind others as it is alone, but for the number of its slot. -/
theorem Stroke.settle_behind {x : Stroke} {segment segment₀ : Segment}
    (hx : ∀ o ∈ x.occurrence?, o.param.Unshared s.capabilities)
    (h : x.settle s (pre ++ opened) = some (segment, opened'))
    (h₀ : x.settle s opened = some (segment₀, opened₀)) :
    segment = segment₀.shift pre.length ∧ opened' = pre ++ opened₀ := by
  match x with
  | .error _ | .ok (.placeholder _ _) => cases h
  | .ok (.text _) | .ok (.keyword _) | .ok (.ident _) =>
    cases h
    cases h₀
    exact ⟨rfl, rfl⟩
  | .ok (.literal o) =>
    rw [settle_literal, Option.ite_none_left_eq_some] at h h₀
    replace h := h.2
    replace h₀ := h₀.2
    by_cases hin : o.inPlace s = true
    · rw [if_pos hin, Option.ite_none_right_eq_some] at h h₀
      cases h.2
      cases h₀.2
      exact ⟨rfl, rfl⟩
    · have hallot := Capabilities.allot_of_unshared (hx o rfl)
      rw [if_neg hin, hallot] at h h₀
      cases h
      cases h₀
      refine ⟨?_, List.append_assoc _ _ _⟩
      have hslot : (pre ++ opened).length + 1 = opened.length + 1 + pre.length := by
        rw [List.length_append]
        omega
      simp only [Segment.shift, hslot]

/-- **A draft is settled behind others as it is alone**, but for the numbers of its slots. -/
theorem settle_behind {xs : List Stroke} {out out₀ : List Segment}
    (hxs : ∀ o ∈ xs.filterMap Stroke.occurrence?, o.param.Unshared s.capabilities)
    (h : settle s (pre ++ opened) xs = some (out, opened'))
    (h₀ : settle s opened xs = some (out₀, opened₀)) :
    out = out₀.map (Segment.shift pre.length) ∧ opened' = pre ++ opened₀ := by
  induction xs generalizing opened out out₀ with
  | nil =>
    cases h
    cases h₀
    exact ⟨rfl, rfl⟩
  | cons x xs ih =>
    obtain ⟨segment, opened₁, rest, hx, hrest, rfl⟩ := settle_cons_eq_some.1 h
    obtain ⟨segment₀, opened₂, rest₀, hx₀, hrest₀, rfl⟩ := settle_cons_eq_some.1 h₀
    have hhead : ∀ o ∈ x.occurrence?, o.param.Unshared s.capabilities := fun o ho =>
      hxs o (List.mem_filterMap.2 ⟨x, List.mem_cons_self, ho⟩)
    have htail : ∀ o ∈ xs.filterMap Stroke.occurrence?, o.param.Unshared s.capabilities :=
      fun o ho => by
        obtain ⟨y, hy, hyo⟩ := List.mem_filterMap.1 ho
        exact hxs o (List.mem_filterMap.2 ⟨y, List.mem_cons_of_mem _ hy, hyo⟩)
    obtain ⟨rfl, rfl⟩ := Stroke.settle_behind hhead hx hx₀
    obtain ⟨rfl, rfl⟩ := ih htail hrest hrest₀
    exact ⟨rfl, rfl⟩

/-- A draft that can be settled behind others can be settled alone. -/
theorem isSome_settle_alone {xs : List Stroke} (h : (settle s opened xs).isSome = true) :
    (settle s [] xs).isSome = true := by
  rw [isSome_settle_iff xs (fun _ => rfl)] at h ⊢
  obtain ⟨hfault, hwritable, hcoherent⟩ := h
  exact ⟨hfault, hwritable, Coherent.iff_pairwise.2 ((coherent_iff _).1 hcoherent).2⟩

end

/-! ## Events inside clauses -/

/-- The event inside further clauses. -/
def Event.inside (outer : List Clause) (e : Event) : Event := { e with path := outer ++ e.path }

/-- Bracketed moves let inside further clauses the same events happen, inside these clauses. -/
theorem Bracketed.events_inside {mvs : List Move} (h : Bracketed mvs) (d : Dialect)
    (outer path : List Clause) :
    Move.events d (outer ++ path) mvs = (Move.events d path mvs).map (Event.inside outer) := by
  induction h generalizing path with
  | nil => rfl
  | append h _ ih ih' =>
    rw [Move.events_append, Move.events_append, h.walkAll_eq, h.walkAll_eq, ih, ih',
      List.map_append]
  | silent hmv =>
    simp only [Move.events, Move.event?_silent hmv, Option.toList_none, List.append_nil,
      List.map_nil]
  | @clause mvs m part c _ hbody ih =>
    have hinner := ih (path ++ [c])
    rw [← List.append_assoc] at hinner
    rw [hbody.events_clause, hbody.events_clause, hinner]
    simp [Event.inside, Modes.event]
  | @visit mvs m p _ hbody ih =>
    rw [hbody.events_visit, hbody.events_visit, ih]
    simp [Event.inside, Modes.event]

open Run

namespace Configuration

variable (cfg : Configuration)

/-- An event that is not refused has happened, and changed nothing else. -/
theorem events_notify {kind : EventKind} {part : Option Part} {st st' : State}
    (h : cfg.notify kind part st = .ok () st') :
    st'.events = st.events ++ [st.modes.event cfg.settings.dialect kind part st.path] ∧
      st'.path = st.path := by
  obtain ⟨n, hevent, hfinal⟩ := cfg.final_notify kind part st
  rw [final, h] at hfinal
  obtain rfl : st' = _ := hfinal
  exact ⟨by simp [State.events, hevent], rfl⟩

end Configuration

namespace Move

variable {cfg : Configuration} {st st' : State} {mv : Move} {mvs : List Move}

/-- A move that ends well lets its event happen and walks where it walks. -/
theorem events_of_ok (hattempt : mv.deed.isAttempt = false)
    (h : mv.perform cfg st = .ok () st') :
    st'.events = st.events ++ (mv.event? cfg.settings.dialect st.path).toList ∧
      st'.path = mv.walk st.path := by
  by_cases hsilent : mv.deed.isSilent = true
  · have hkept := (keeps_of_silent hsilent).ok h
    simp only [Prod.mk.injEq] at hkept
    rw [event?_silent hsilent, walk_silent hsilent, State.events, hkept.1]
    exact ⟨(List.append_nil _).symm, hkept.2.1⟩
  · obtain ⟨m, deed⟩ := mv
    unfold Move.perform Run.under at h
    cases hdeed : deed.perform cfg { st with modes := m } with
    | error e st₁ => rw [hdeed] at h; cases h
    | ok a st₁ =>
      rw [hdeed] at h
      cases h
      cases deed with
      | enter p => exact cfg.events_notify hdeed
      | leave p => exact cfg.events_notify hdeed
      | start part c =>
        have hnotify : cfg.notify .clauseStart part
            { st with modes := m, path := st.path ++ [c] } = .ok () st₁ := hdeed
        exact cfg.events_notify hnotify
      | close part c =>
        simp only [Deed.perform, Configuration.close, Bind.bind, EStateM.bind] at hdeed
        split at hdeed
        · next hnotify =>
          cases hdeed
          obtain ⟨hevents, hpath⟩ := cfg.events_notify hnotify
          exact ⟨hevents, congrArg List.dropLast hpath⟩
        · cases hdeed
      | attempt => cases hattempt
      | _ => exact absurd rfl hsilent

/-- **Moves that end well let their events happen.** -/
theorem events_of_performAll_ok (hattempt : ∀ mv ∈ mvs, mv.deed.isAttempt = false)
    (h : performAll cfg mvs st = .ok () st') :
    st'.events = st.events ++ events cfg.settings.dialect st.path mvs ∧
      st'.path = walkAll st.path mvs := by
  induction mvs generalizing st with
  | nil =>
    cases h
    exact ⟨(List.append_nil _).symm, rfl⟩
  | cons mv mvs ih =>
    obtain ⟨st₁, hmv, hmvs⟩ := (performAll_cons_eq_ok cfg).1 h
    obtain ⟨hhead, hrest⟩ := List.forall_mem_cons.1 hattempt
    obtain ⟨hevents, hpath⟩ := events_of_ok hhead hmv
    obtain ⟨hevents', hpath'⟩ := ih hrest hmvs
    rw [hevents', hpath', hevents, hpath, List.append_assoc]
    exact ⟨rfl, rfl⟩

end Move

/-! ## Runs that stand alone -/

/-- What a run adds to a state, put down to the state that the same run ends in alone: the same
events inside the open clauses and, where no slots are shared, the same text and values with the
placeholders numbered on. -/
structure State.Adds (unshared : Prop) (st st' alone : State) : Prop where
  events_eq : st'.events = st.events ++ alone.events.map (Event.inside st.path)
  path_eq : st'.path = st.path
  out_eq : unshared → st'.out = st.out ++ alone.out.map (Segment.shift st.params.length)
  params_eq : unshared → st'.params = st.params ++ alone.params

/-- No parameter of an action ever shares a slot. -/
def Action.Unshared (s : Settings) (m : Modes) (a : Action) : Prop :=
  ∀ o ∈ a.sift Stroke.occurrence? m, o.param.Unshared s.capabilities

/-- **An action that attempts nothing does anywhere what it does alone**, if it ends well: inside
the clauses that are open, and with its placeholders numbered on from the slots that are open. -/
theorem Action.Straight.adds {cfg : Configuration} {a : Action} (ha : a.Straight) {st st' : State}
    {opened : List Param} (hst : st.Holds opened) (h : a.perform cfg st = .ok () st') :
    ∃ alone, a.perform { settings := cfg.settings } { modes := st.modes } = .ok () alone ∧
      State.Adds (a.Unshared cfg.settings st.modes) st st' alone := by
  let silent : Configuration := { settings := cfg.settings }
  have hattempt : ∀ mv ∈ a.moves st.modes, mv.deed.isAttempt = false := ha.isAttempt_eq_false
  have hbracketed : Bracketed (a.moves st.modes) := ha.bracketed
  rw [Action.perform_apply] at h
  obtain ⟨out, opened', hsettle, hext⟩ := Move.performAll_ok hattempt hst h
  -- what was settled behind `opened` can be settled alone, so the run ends well alone
  have hsome : (settle cfg.settings [] (Move.strokes (a.moves st.modes))).isSome = true :=
    isSome_settle_alone (by rw [hsettle]; rfl)
  have hnew : State.Holds { modes := st.modes } [] := State.holds_nil st.modes []
  have halone : ∃ alone, Move.performAll silent (a.moves st.modes) { modes := st.modes } =
      .ok () alone := by
    obtain ⟨⟨out₀, opened₀⟩, hsettle₀⟩ := Option.isSome_iff_exists.1 hsome
    exact Move.performAll_of_settle rfl hattempt hnew hsettle₀
  obtain ⟨alone, halone⟩ := halone
  obtain ⟨out₀, opened₀, hsettle₀, hext₀⟩ := Move.performAll_ok hattempt hnew halone
  have hbehind : a.Unshared cfg.settings st.modes →
      out = out₀.map (Segment.shift opened.length) ∧ opened' = opened ++ opened₀ := by
    intro hunshared
    unfold Action.Unshared Action.sift at hunshared
    rw [Action.draft_eq_strokes] at hunshared
    exact settle_behind hunshared (by rwa [List.append_nil]) hsettle₀
  obtain ⟨hevents, hpath⟩ := Move.events_of_performAll_ok hattempt h
  have halone_events : alone.events = Move.events cfg.settings.dialect [] (a.moves st.modes) :=
    (Move.events_of_performAll_ok hattempt halone).1
  have hinside := hbracketed.events_inside cfg.settings.dialect st.path []
  rw [List.append_nil] at hinside
  refine ⟨alone, ?_, ?_, ?_, fun hunshared => ?_, fun hunshared => ?_⟩
  · rw [Action.perform_apply]
    exact halone
  · rw [hevents, halone_events, hinside]
  · rw [hpath, hbracketed.walkAll_eq]
  · have hout : alone.out = out₀ := hext₀.out_eq
    rw [hext.out_eq, (hbehind hunshared).1, hst.length_params, hout]
  · rw [hext.holds.params_eq, (hbehind hunshared).2, hst.params_eq, hext₀.holds.params_eq,
      List.map_append]

end SqlRender
