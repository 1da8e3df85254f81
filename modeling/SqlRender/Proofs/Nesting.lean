import SqlRender.Proofs.Draft

/-!
# Events are well nested

The events of a render are brackets: a part is entered and left, a clause is opened and closed.
`Nested` says when a word of events is properly bracketed, and what the two events of a pair have in
common: everything but their kind.

```text
visitStart                 a
  clauseStart              a / b
    visitStart … visitEnd  a / b
  clauseEnd                a / b
visitEnd                   a
```

The moves of a script are bracketed because scripts are trees (`Script.Straight.bracketed`). What is
left is to follow a run move by move: a run that ends well lets all of its events happen, and one
that fails lets a first part of them happen, of which every listener is told a first part.
-/

namespace SqlRender

/-! ## Words of events -/

/-- The event that happens under the modes inside open clauses. -/
def Modes.event (m : Modes) (d : Dialect) (kind : EventKind) (part : Option Part)
    (path : List Clause) : Event :=
  { kind, part, path, dialect := d, declareTables := m.declareTables,
    declareFields := m.declareFields }

/-- A word of events that is properly bracketed inside open clauses. Parts that forward do not take
part in any event. -/
inductive Nested : List Clause → List Event → Prop
  | nil {path : List Clause} : Nested path []
  | append {path : List Clause} {es es' : List Event} :
      Nested path es → Nested path es' → Nested path (es ++ es')
  /-- A clause is opened inside the path, and closed where its own tag is the innermost one. -/
  | clause {path : List Clause} {es : List Event} {e : Event} {c : Clause} :
      e.kind = .clauseStart → e.path = path ++ [c] → (∀ p ∈ e.part, p.target = p) →
      Nested (path ++ [c]) es → Nested path (e :: (es ++ [{ e with kind := .clauseEnd }]))
  /-- A part is entered and left inside the same clauses. -/
  | visit {path : List Clause} {es : List Event} {e : Event} {p : Part} :
      e.kind = .visitStart → e.path = path → e.part = some p → p.target = p →
      Nested path es → Nested path (e :: (es ++ [{ e with kind := .visitEnd }]))

/-! ## Words of moves -/

/-- Whether a deed lets no event happen and opens and closes nothing. -/
def Deed.isSilent : Deed → Bool
  | enter _ | leave _ | start _ _ | close _ _ | attempt _ _ => false
  | _ => true

/-- A word of moves that is properly bracketed. -/
inductive Bracketed : List Move → Prop
  | nil : Bracketed []
  | append {mvs mvs' : List Move} : Bracketed mvs → Bracketed mvs' → Bracketed (mvs ++ mvs')
  | silent {mv : Move} : mv.deed.isSilent = true → Bracketed [mv]
  | clause {mvs : List Move} {m : Modes} {part : Option Part} {c : Clause} :
      (∀ p ∈ part, p.target = p) → Bracketed mvs →
      Bracketed (⟨m, .start part c⟩ :: (mvs ++ [⟨m, .close part c⟩]))
  | visit {mvs : List Move} {m : Modes} {p : Part} : p.target = p → Bracketed mvs →
      Bracketed (⟨m, .enter p⟩ :: (mvs ++ [⟨m, .leave p⟩]))

/-- Tags that are opened and closed in reverse order are brackets around what is between. -/
theorem Bracketed.tags {mvs : List Move} (h : Bracketed mvs) (m : Modes) {part : Option Part}
    (hpart : ∀ p ∈ part, p.target = p) (tags : List Clause) :
    Bracketed (tags.map (fun c => ⟨m, .start part c⟩) ++
      (mvs ++ tags.reverse.map (fun c => ⟨m, .close part c⟩))) := by
  induction tags with
  | nil => simpa using h
  | cons c tags ih => simpa using Bracketed.clause (m := m) (c := c) hpart ih

mutual

/-- The moves of a straight action are bracketed. -/
theorem Action.Straight.bracketed {m : Modes} : ∀ {a : Action}, a.Straight → Bracketed (a.moves m)
  | .text _, _ | .keyword _, _ | .ident _, _ | .bind _, _ | .literal _ _, _ | .fail _, _
  | .note _ _, _ => .silent rfl
  | .visit part body, h => by
    have hbody := Script.Straight.bracketed (m := m) h.2
    have hpart : ∀ p ∈ some part, p.target = p := fun p hp => by cases hp; exact h.1
    have htags := hbody.tags m hpart (part.tags m)
    simpa [Action.moves] using Bracketed.visit (m := m) h.1 htags
  | .within c body, h => by
    have hbody := Script.Straight.bracketed (m := m) h
    exact .clause (fun _ hp => nomatch hp) hbody
  | .switch _ _ _, h => Script.Straight.bracketed h
  | .assume _ _, h => Script.Straight.bracketed h
  | .whenOn mode body, h => by
    rw [Action.moves]
    split
    · exact Script.Straight.bracketed h
    · exact .nil

/-- The moves of a straight script are bracketed. -/
theorem Script.Straight.bracketed {m : Modes} :
    ∀ {as : List Action}, Script.Straight as → Bracketed (Script.moves m as)
  | [], _ => .nil
  | _ :: _, h => .append (Action.Straight.bracketed h.1) (Script.Straight.bracketed h.2)

end

namespace Move

/-- The event that a move lets happen inside open clauses. -/
def event? (d : Dialect) (path : List Clause) : Move → Option Event
  | ⟨m, .enter p⟩ => some (m.event d .visitStart (some p) path)
  | ⟨m, .leave p⟩ => some (m.event d .visitEnd (some p) path)
  | ⟨m, .start part c⟩ => some (m.event d .clauseStart part (path ++ [c]))
  | ⟨m, .close part _⟩ => some (m.event d .clauseEnd part path)
  | _ => none

/-- The open clauses behind a move. -/
def walk (path : List Clause) (mv : Move) : List Clause :=
  match mv.deed with
  | .start _ c => path ++ [c]
  | .close _ _ => path.dropLast
  | _ => path

/-- If a move closes a clause then the innermost one. -/
def ClosesInnermost (path : List Clause) (mv : Move) : Prop :=
  match mv.deed with
  | .close _ c => path.getLast? = some c
  | _ => True

/-- The events that moves let happen. -/
def events (d : Dialect) : List Clause → List Move → List Event
  | _, [] => []
  | path, mv :: mvs => (mv.event? d path).toList ++ events d (mv.walk path) mvs

/-- The open clauses behind moves. -/
def walkAll (path : List Clause) (mvs : List Move) : List Clause := mvs.foldl walk path

/-- If moves close clauses then always the innermost one. -/
def Orderly : List Clause → List Move → Prop
  | _, [] => True
  | path, mv :: mvs => mv.ClosesInnermost path ∧ Orderly (mv.walk path) mvs

variable (d : Dialect) (path : List Clause)

theorem events_append (mvs mvs' : List Move) :
    events d path (mvs ++ mvs') = events d path mvs ++ events d (walkAll path mvs) mvs' := by
  induction mvs generalizing path with
  | nil => rfl
  | cons mv mvs ih => simp [events, walkAll, ih (mv.walk path)]

theorem walkAll_append (mvs mvs' : List Move) :
    walkAll path (mvs ++ mvs') = walkAll (walkAll path mvs) mvs' :=
  List.foldl_append

theorem orderly_append (mvs mvs' : List Move) :
    Orderly path (mvs ++ mvs') ↔ Orderly path mvs ∧ Orderly (walkAll path mvs) mvs' := by
  induction mvs generalizing path with
  | nil => simp [Orderly, walkAll]
  | cons mv mvs ih => simp [Orderly, walkAll, ih (mv.walk path), and_assoc]

variable {d path} {mv : Move}

theorem event?_silent (h : mv.deed.isSilent = true) : mv.event? d path = none := by
  obtain ⟨m, deed⟩ := mv
  cases deed <;> first | rfl | cases h

theorem walk_silent (h : mv.deed.isSilent = true) : mv.walk path = path := by
  obtain ⟨m, deed⟩ := mv
  cases deed <;> first | rfl | cases h

theorem closesInnermost_silent (h : mv.deed.isSilent = true) : mv.ClosesInnermost path := by
  obtain ⟨m, deed⟩ := mv
  cases deed with
  | start | close => cases h
  | _ => trivial

end Move

namespace Bracketed

open Move

variable {mvs : List Move}

/-- Bracketed moves leave the clauses open that were open. -/
theorem walkAll_eq (h : Bracketed mvs) (path : List Clause) : walkAll path mvs = path := by
  induction h generalizing path with
  | nil => rfl
  | append _ _ ih ih' => rw [walkAll_append, ih, ih']
  | silent hmv => exact walk_silent hmv
  | @clause mvs m part c _ _ ih =>
    have hbody : walkAll (path ++ [c]) mvs = path ++ [c] := ih _
    change walkAll (path ++ [c]) (mvs ++ _) = path
    rw [walkAll_append, hbody]
    exact List.dropLast_concat
  | @visit mvs m p _ _ ih =>
    change walkAll path (mvs ++ _) = path
    rw [walkAll_append, ih]
    rfl

/-- Bracketed moves only ever close the innermost clause. -/
theorem orderly (h : Bracketed mvs) (path : List Clause) : Orderly path mvs := by
  induction h generalizing path with
  | nil => trivial
  | append h _ ih ih' => exact (orderly_append _ _ _).2 ⟨ih _, ih' _⟩
  | silent hmv => exact ⟨closesInnermost_silent hmv, trivial⟩
  | @clause mvs m part c _ hbody ih =>
    refine ⟨trivial, (orderly_append _ _ _).2 ⟨ih _, ?_, trivial⟩⟩
    rw [hbody.walkAll_eq]
    exact List.getLast?_concat
  | @visit mvs m p _ _ ih =>
    exact ⟨trivial, (orderly_append _ _ _).2 ⟨ih _, trivial, trivial⟩⟩

/-- The body leaves the clause open, so both events of the clause see the path with it. -/
theorem events_clause (h : Bracketed mvs) (d : Dialect) (path : List Clause) (m : Modes)
    (part : Option Part) (c : Clause) :
    events d path (⟨m, .start part c⟩ :: (mvs ++ [⟨m, .close part c⟩])) =
      m.event d .clauseStart part (path ++ [c]) :: (events d (path ++ [c]) mvs ++
        [m.event d .clauseEnd part (path ++ [c])]) := by
  change _ :: events d (path ++ [c]) (mvs ++ _) = _
  rw [events_append, h.walkAll_eq]
  rfl

/-- Both events of a visit see the path around it. -/
theorem events_visit (h : Bracketed mvs) (d : Dialect) (path : List Clause) (m : Modes)
    (p : Part) :
    events d path (⟨m, .enter p⟩ :: (mvs ++ [⟨m, .leave p⟩])) =
      m.event d .visitStart (some p) path :: (events d path mvs ++
        [m.event d .visitEnd (some p) path]) := by
  change _ :: events d path (mvs ++ _) = _
  rw [events_append, h.walkAll_eq]
  rfl

/-- Bracketed moves let a properly bracketed word of events happen. -/
theorem nested_events (h : Bracketed mvs) (d : Dialect) (path : List Clause) :
    Nested path (events d path mvs) := by
  induction h generalizing path with
  | nil => exact .nil
  | append h _ ih ih' =>
    rw [events_append, h.walkAll_eq]
    exact .append (ih _) (ih' _)
  | silent hmv =>
    rw [events, event?_silent hmv]
    exact .nil
  | @clause mvs m part c hpart hbody ih =>
    rw [hbody.events_clause]
    exact .clause (e := m.event d .clauseStart part (path ++ [c])) rfl rfl hpart (ih _)
  | @visit mvs m p hp hbody ih =>
    rw [hbody.events_visit]
    exact .visit (e := m.event d .visitStart (some p) path) rfl rfl rfl hp (ih _)

end Bracketed

/-! ## What listeners are told -/

/-- The calls by which so many listeners from a place on are told an event, one after the other. -/
def Event.callsFrom (e : Event) (place count : Nat) : List Call :=
  (List.range' place count).map fun i => ⟨i, e⟩

@[simp] theorem Event.length_callsFrom (e : Event) (place count : Nat) :
    (e.callsFrom place count).length = count := by simp [callsFrom]

/-- Among these calls there is one of each of the listeners. -/
theorem Event.filterMap_callsFrom (e : Event) (start place count : Nat) :
    (e.callsFrom start count).filterMap (Call.eventAt? place) =
      if start ≤ place ∧ place < start + count then [e] else [] := by
  induction count generalizing start with
  | zero =>
    have hnone : ¬ (start ≤ place ∧ place < start + 0) := by omega
    rw [if_neg hnone]
    rfl
  | succ count ih =>
    have hrest := ih (start + 1)
    unfold callsFrom at hrest ⊢
    rw [List.range'_succ, List.map_cons, List.filterMap_cons, hrest]
    by_cases heq : start = place
    · have hlater : ¬ (start + 1 ≤ place ∧ place < start + 1 + count) := by omega
      have hfirst : start ≤ place ∧ place < start + (count + 1) := by omega
      simp only [Call.eventAt?, if_pos heq, if_neg hlater, if_pos hfirst]
    · have hiff : start + 1 ≤ place ∧ place < start + 1 + count ↔
          start ≤ place ∧ place < start + (count + 1) := by omega
      simp only [Call.eventAt?, if_neg heq, hiff]

/-- **Telling an event**: either no listener from a place on refuses it, and all are told, one after
the other; or one does, and those behind it are not told. -/
theorem tell_cases (past : List Notice) (e : Event) : ∀ (ls : List Listener) (place : Nat),
    ((∀ (i : Nat) (l : Listener), ls[i]? = some l → l (heard past (place + i)) e = none) ∧
      tell past e ls place = (e.callsFrom place ls.length, none)) ∨
    ∃ (i : Nat) (l : Listener) (reason : String), ls[i]? = some l ∧
      l (heard past (place + i)) e = some reason ∧
      (∀ (j : Nat) (l' : Listener), j < i → ls[j]? = some l' →
        l' (heard past (place + j)) e = none) ∧
      tell past e ls place = (e.callsFrom place (i + 1), some reason)
  | [], place => .inl ⟨fun _ _ h => (by simp at h), rfl⟩
  | l :: ls, place => by
    cases hl : l (heard past place) e with
    | some reason =>
      refine .inr ⟨0, l, reason, rfl, hl, fun j _ hj => absurd hj (Nat.not_lt_zero j), ?_⟩
      rw [tell, hl]
      rfl
    | none =>
      have hplace : ∀ i, place + 1 + i = place + (i + 1) := fun i => by omega
      have htell : ∀ {count : Nat} {refusal : Option String},
          tell past e ls (place + 1) = (e.callsFrom (place + 1) count, refusal) →
          tell past e (l :: ls) place = (e.callsFrom place (count + 1), refusal) := by
        intro count refusal hrest
        rw [tell, hl, hrest]
        rfl
      rcases tell_cases past e ls (place + 1) with
        ⟨hnone, hall⟩ | ⟨i, l', reason, hl', hreason, hfirst, hto⟩
      · refine .inl ⟨fun i l' hl' => ?_, ?_⟩
        · cases i with
          | zero => cases hl'; exact hl
          | succ i => rw [← hplace]; exact hnone i l' hl'
        · exact htell hall
      · refine .inr ⟨i + 1, l', reason, hl', ?_, fun j l'' hj hl'' => ?_, ?_⟩
        · rw [← hplace]
          exact hreason
        · cases j with
          | zero => cases hl''; exact hl
          | succ j => rw [← hplace]; exact hfirst j l'' (by omega) hl''
        · exact htell hto

/-- Whether it is refused or not, an event is told to one listener after the other. -/
theorem tell_calls (past : List Notice) (e : Event) (ls : List Listener) (place : Nat) :
    (tell past e ls place).1 = e.callsFrom place (tell past e ls place).1.length := by
  rcases tell_cases past e ls place with ⟨-, htell⟩ | ⟨_, _, _, -, -, -, htell⟩
  · rw [htell, Event.length_callsFrom]
  · rw [htell, Event.length_callsFrom]

/-- An event that nobody refuses is told to every listener. -/
theorem tell_of_not_refused {past : List Notice} {e : Event} {ls : List Listener} {place : Nat}
    (h : (tell past e ls place).2 = none) :
    (tell past e ls place).1 = e.callsFrom place ls.length := by
  rcases tell_cases past e ls place with ⟨-, htell⟩ | ⟨_, _, _, -, -, -, htell⟩
  · rw [htell]
  · rw [htell] at h
    cases h

theorem heard_append (notices notices' : List Notice) (place : Nat) :
    heard (notices ++ notices') place = heard notices place ++ heard notices' place := by
  simp [heard, calls]

/-- An event whose calls start at the first listener is heard by as many as were told. -/
theorem heard_singleton {n : Notice} (h : n.calls = n.event.callsFrom 0 n.told) (place : Nat) :
    heard [n] place = if place < n.told then [n.event] else [] := by
  have hcalls : calls [n] = n.event.callsFrom 0 n.told := by
    rw [calls, List.flatMap_singleton, h]
  rw [heard, hcalls, Event.filterMap_callsFrom]
  simp only [Nat.zero_le, Nat.zero_add, true_and]

/-- An event that so many listeners were told is heard by these. -/
theorem heard_callsFrom (e : Event) (count place : Nat) :
    heard [⟨e, e.callsFrom 0 count⟩] place = if place < count then [e] else [] := by
  have htold : Notice.told ⟨e, e.callsFrom 0 count⟩ = count := e.length_callsFrom 0 count
  rw [heard_singleton (by rw [htold]), htold]

/-- Between two states, the listener at a place was told these events. -/
def State.Tells (place : Nat) (st st' : State) (es : List Event) : Prop :=
  ∃ new, st'.notices = st.notices ++ new ∧ heard new place = es

theorem State.Tells.trans {place : Nat} {st st' st'' : State} {es es' : List Event}
    (h : Tells place st st' es) (h' : Tells place st' st'' es') : Tells place st st'' (es ++ es') := by
  obtain ⟨new, hnew, rfl⟩ := h
  obtain ⟨new', hnew', rfl⟩ := h'
  exact ⟨new ++ new', by rw [hnew', hnew, List.append_assoc], heard_append _ _ _⟩

theorem State.Tells.of_notices_eq {place : Nat} {st st' : State} (h : st'.notices = st.notices) :
    Tells place st st' [] :=
  ⟨[], by rw [h, List.append_nil], rfl⟩

/-- A run tells the listener at a place the events `es` if it ends well, and then ends inside the
clauses `path`; if it fails it has told a first part of the events. Either way it has closed no
clause but the innermost. -/
def Run.Tells (place : Nat) (run : Run Unit) (st : State) (es : List Event) (path : List Clause) :
    Prop :=
  match run st with
  | .ok _ st' => State.Tells place st st' es ∧ st'.path = path ∧ st'.orderly = st.orderly
  | .error _ st' =>
    (∃ told, State.Tells place st st' told ∧ told <+: es) ∧ st'.orderly = st.orderly

open Run

namespace Run

variable {place : Nat} {run : Run Unit} {st : State} {es es' : List Event}
  {path path' : List Clause}

theorem Tells.bind {next : Unit → Run Unit} (h : run.Tells place st es path)
    (hnext : ∀ st', st'.path = path → (next ()).Tells place st' es' path') :
    (run >>= next).Tells place st (es ++ es') path' := by
  unfold Run.Tells at h ⊢
  simp only [Bind.bind, EStateM.bind]
  cases hrun : run st with
  | error e st₁ =>
    rw [hrun] at h
    obtain ⟨⟨told, htold, hprefix⟩, horderly⟩ := h
    exact ⟨⟨told, htold, hprefix.trans (List.prefix_append _ _)⟩, horderly⟩
  | ok a st₁ =>
    rw [hrun] at h
    obtain ⟨htells, hpath, horderly⟩ := h
    have h' := hnext st₁ hpath
    unfold Run.Tells at h'
    show match next () st₁ with
      | .ok _ st' => _
      | .error _ st' => _
    cases hrun' : next () st₁ with
    | error e st₂ =>
      rw [hrun'] at h'
      obtain ⟨⟨told, htold, hprefix⟩, horderly'⟩ := h'
      -- all that the first run tells, and what the second had told when it failed
      refine ⟨⟨es ++ told, htells.trans htold, ?_⟩, horderly'.trans horderly⟩
      exact (List.prefix_append_right_inj es).2 hprefix
    | ok a' st₂ =>
      rw [hrun'] at h'
      obtain ⟨htells', hpath', horderly'⟩ := h'
      exact ⟨htells.trans htells', hpath', horderly'.trans horderly⟩

/-- The modes that a run is put under are not among what it tells. -/
theorem Tells.under {m : Modes} (h : run.Tells place { st with modes := m } es path) :
    (under (fun _ => m) run).Tells place st es path := by
  unfold Run.Tells Run.under at *
  dsimp only at h ⊢
  cases hrun : run { st with modes := m } <;> rw [hrun] at h <;> exact h

/-- A run that changes neither the notices nor the clauses tells nothing. -/
theorem Tells.of_keeps (h : Keeps (fun st => (st.notices, st.path, st.orderly)) run) :
    run.Tells place st [] st.path := by
  have hst := h st
  unfold final at hst
  unfold Run.Tells
  cases hrun : run st with
  | ok a st' =>
    rw [hrun] at hst
    simp only [Prod.mk.injEq] at hst
    exact ⟨.of_notices_eq hst.1, hst.2⟩
  | error e st' =>
    rw [hrun] at hst
    simp only [Prod.mk.injEq] at hst
    exact ⟨⟨[], .of_notices_eq hst.1, List.prefix_rfl⟩, hst.2.2⟩

end Run

namespace Configuration

variable (cfg : Configuration) {st : State} {place : Nat}

/-- An event is told to every listener unless one refuses it; then those behind that one are told
nothing. -/
theorem tells_notify (hplace : place < cfg.listeners.length) (kind : EventKind)
    (part : Option Part) :
    (cfg.notify kind part).Tells place st
      [st.modes.event cfg.settings.dialect kind part st.path] st.path := by
  let e := st.modes.event cfg.settings.dialect kind part st.path
  unfold Run.Tells
  cases hrun : cfg.notify kind part st with
  | ok a st' =>
    unfold notify at hrun
    dsimp only at hrun
    split at hrun
    · next hrefusal =>
      have htold := tell_of_not_refused hrefusal
      cases hrun
      refine ⟨⟨_, rfl, ?_⟩, rfl, rfl⟩
      -- nobody refused, so all listeners were told
      rw [htold, heard_callsFrom, if_pos hplace]
      rfl
    · cases hrun
  | error err st' =>
    unfold notify at hrun
    dsimp only at hrun
    split at hrun
    · cases hrun
    · cases hrun
      refine ⟨⟨_, ⟨_, rfl, rfl⟩, ?_⟩, rfl⟩
      rw [heard_singleton (tell_calls ..)]
      split
      · exact List.prefix_rfl
      · exact List.nil_prefix

theorem tells_start (hplace : place < cfg.listeners.length) (part : Option Part) (c : Clause) :
    (cfg.start part c).Tells place st
      [st.modes.event cfg.settings.dialect .clauseStart part (st.path ++ [c])] (st.path ++ [c]) :=
  cfg.tells_notify hplace .clauseStart part

theorem tells_close (hplace : place < cfg.listeners.length) (part : Option Part) {c : Clause}
    (hc : st.path.getLast? = some c) :
    (cfg.close part c).Tells place st
      [st.modes.event cfg.settings.dialect .clauseEnd part st.path] st.path.dropLast := by
  unfold close
  apply (cfg.tells_notify hplace .clauseEnd part).bind
  intro st' hpath
  refine ⟨.of_notices_eq rfl, congrArg List.dropLast hpath, ?_⟩
  show (st'.orderly && decide (st'.path.getLast? = some c)) = st'.orderly
  simp [hpath, hc]

end Configuration

namespace Move

variable {cfg : Configuration} {st : State} {place : Nat} {mv : Move}

/-- A silent move changes neither the notices nor the clauses. -/
theorem keeps_of_silent (h : mv.deed.isSilent = true) :
    Keeps (fun st => (st.notices, st.path, st.orderly)) (mv.perform cfg) := by
  obtain ⟨m, deed⟩ := mv
  unfold Move.perform
  refine Keeps.under ?_ (fun _ _ => rfl) _
  cases deed with
  | enter | leave | start | close | attempt => cases h
  | text | keyword | ident => exact keeps_modify fun _ => rfl
  | bind p => exact keeps_get.bind fun _ => cfg.keeps_place (fun _ _ _ _ => rfl) _
  | literal v type => exact cfg.keeps_literal (fun _ _ => rfl) _
  | fail e => exact keeps_throw e
  | note step reading =>
    simp only [Deed.perform, Action.perform]
    exact keeps_get.bind fun _ => keeps_modify fun _ => rfl

/-- A move that closes no clause but the innermost tells its event. -/
theorem tells_perform (hplace : place < cfg.listeners.length) (hattempt : mv.deed.isAttempt = false)
    (hcloses : mv.ClosesInnermost st.path) :
    (mv.perform cfg).Tells place st (mv.event? cfg.settings.dialect st.path).toList
      (mv.walk st.path) := by
  by_cases hsilent : mv.deed.isSilent = true
  · rw [event?_silent hsilent, walk_silent hsilent]
    exact .of_keeps (keeps_of_silent hsilent)
  · obtain ⟨m, deed⟩ := mv
    unfold Move.perform
    apply Tells.under
    cases deed with
    | enter p => exact cfg.tells_notify hplace .visitStart (some p)
    | leave p => exact cfg.tells_notify hplace .visitEnd (some p)
    | start part c => exact cfg.tells_start hplace part c
    | close part c => exact cfg.tells_close hplace part hcloses
    | attempt => cases hattempt
    | _ => exact absurd rfl hsilent

/-- **Moves tell their events**, or a first part of these if they fail. -/
theorem tells_performAll {mvs : List Move} (hplace : place < cfg.listeners.length)
    (hattempt : ∀ mv ∈ mvs, mv.deed.isAttempt = false) (horderly : Orderly st.path mvs) :
    (performAll cfg mvs).Tells place st (events cfg.settings.dialect st.path mvs)
      (walkAll st.path mvs) := by
  induction mvs generalizing st with
  | nil => exact ⟨.of_notices_eq rfl, rfl, rfl⟩
  | cons mv mvs ih =>
    obtain ⟨hcloses, hrest⟩ := horderly
    have hmv := tells_perform hplace (hattempt mv List.mem_cons_self) hcloses
    apply hmv.bind
    intro st' hpath
    show (performAll cfg mvs).Tells place st' (events cfg.settings.dialect (mv.walk st.path) mvs)
      (walkAll (mv.walk st.path) mvs)
    -- the state has walked where the path of the moves has
    rw [← hpath] at hrest ⊢
    exact ih (fun mv' hmv' => hattempt mv' (List.mem_cons_of_mem _ hmv')) hrest

end Move

/-! ## Renders -/

namespace Configuration

variable (cfg : Configuration) {part : Part} {modes : Modes} {past : List Notice} {place : Nat}

/-- A render tells the events of the moves of its part, which are properly bracketed. -/
theorem tells_visit (modes : Modes) (past : List Notice) (hplace : place < cfg.listeners.length)
    (hpart : part.propagates = true) :
    ∃ es, Nested [] es ∧ ((part.visit cfg.settings.dialect).perform cfg).Tells place
      { modes, notices := past } es [] := by
  have hstraight := Part.straight_visit cfg.settings.dialect part hpart
  have hbracketed : Bracketed ((part.visit cfg.settings.dialect).moves modes) :=
    hstraight.bracketed
  have horderly : Move.Orderly (State.path { modes, notices := past }) _ := hbracketed.orderly []
  have h := Move.tells_performAll hplace hstraight.isAttempt_eq_false horderly
  rw [hbracketed.walkAll_eq] at h
  refine ⟨_, hbracketed.nested_events cfg.settings.dialect [], ?_⟩
  unfold Run.Tells at h ⊢
  rwa [Action.perform_apply]

/-- **Events are well nested.** Whatever the settings and the modes at the start, a listener to the
render of a part that passes every error on is told a properly bracketed word of events if the
render ends well, and a first part of such a word if it fails. A render that ends well has closed
all of its clauses, and no render ever closes a clause that is not the innermost one. A part that
forwards is rendered as its target is, with the same events. -/
theorem events_nested (hplace : place < cfg.listeners.length) (hpart : part.propagates = true) :
    (∀ st, cfg.run part modes past = .ok () st →
      Nested [] (heard (cfg.render part modes past).notices place) ∧
        st.path = [] ∧ st.orderly = true) ∧
    (∀ e st, cfg.run part modes past = .error e st →
      (∃ rest, Nested [] (heard (cfg.render part modes past).notices place ++ rest)) ∧
        st.orderly = true) ∧
    cfg.run part modes past = cfg.run part.target modes past := by
  obtain ⟨es, hnested, htells⟩ := cfg.tells_visit modes past hplace hpart
  have hnotices : ∀ st told, State.Tells place { modes, notices := past } st told →
      heard (st.notices.drop past.length) place = told := by
    rintro st told ⟨new, hnew, rfl⟩
    rw [hnew, List.drop_left]
  refine ⟨fun st hrun => ?_, fun e st hrun => ?_, ?_⟩
  · have h := htells
    unfold Run.Tells at h
    unfold run at hrun
    rw [hrun] at h
    obtain ⟨htells, hpath, horderly⟩ := h
    refine ⟨?_, hpath, horderly⟩
    unfold render run
    rw [hrun]
    rwa [hnotices st es htells]
  · have h := htells
    unfold Run.Tells at h
    unfold run at hrun
    rw [hrun] at h
    obtain ⟨⟨told, htold, rest, hrest⟩, horderly⟩ := h
    refine ⟨⟨rest, ?_⟩, horderly⟩
    unfold render run
    rw [hrun]
    rwa [hnotices st told htold, hrest]
  · unfold run
    rw [Part.visit_target]

/-- `a`, to a listener that refuses nothing and behind one that refuses the second clause. -/
theorem events_nested_column :
    let part : Part := .field (.named "a")
    let cfg : Configuration := { listeners := [.silent] }
    let refusing : Configuration :=
      { listeners := [fun _ e => if e.path.length = 2 then some "no" else none, .silent] }
    (∃ st, cfg.run part {} [] = .ok () st ∧ st.path = [] ∧ st.orderly = true) ∧
      Nested [] (heard (cfg.render part {} []).notices 0) ∧
      ((heard (cfg.render part {} []).notices 0).map Event.path) =
        [[], [.field], [.field, .fieldReference], [.field, .fieldReference], [.field], []] ∧
      (∃ rest, Nested [] (heard (refusing.render part {} []).notices 1 ++ rest)) ∧
      (heard (refusing.render part {} []).notices 1).map Event.path = [[], [.field]] := by
  intro part cfg refusing
  have hpart : part.propagates = true := by decide +kernel
  have hok : ∀ st, cfg.run part {} [] = .ok () st →
      Nested [] (heard (cfg.render part {} []).notices 0) ∧ st.path = [] ∧ st.orderly = true :=
    (cfg.events_nested (by decide) hpart).1
  have hfail : ∀ e st, refusing.run part {} [] = .error e st →
      (∃ rest, Nested [] (heard (refusing.render part {} []).notices 1 ++ rest)) ∧
        st.orderly = true :=
    (refusing.events_nested (by decide) hpart).2.1
  have hsql : (cfg.render part {} []).result.toOption = some ⟨"\"a\"", []⟩ := by decide +kernel
  have hrefused : (refusing.render part {} []).result.toOption = none := by decide +kernel
  obtain ⟨st, hrun, -⟩ := cfg.render_ok_iff_run.1 (Report.result_eq_ok hsql)
  obtain ⟨hnested, hpath, horderly⟩ := hok st hrun
  refine ⟨⟨st, hrun, hpath, horderly⟩, hnested, by decide +kernel, ?_, by decide +kernel⟩
  cases hrun' : refusing.run part {} [] with
  | error e st' => exact (hfail e st' hrun').1
  | ok a st' =>
    rw [refusing.render_ok_iff_run.2 ⟨st', hrun', rfl⟩] at hrefused
    cases hrefused

end Configuration

end SqlRender
