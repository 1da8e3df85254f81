import SqlRender.Run

/-!
# The moves of a script

A script is a tree: a body may stand under changed modes, inside a clause or inside the visit of a
part. Which actions are performed, and under which modes, is however settled by the modes at the
start alone, because modes are restored behind every body. `Script.moves` writes a script out as the
list of its *moves*, and `Script.perform_eq_moves` says that performing a script is making its moves
one after the other:

```text
visit p [text "a", switch declareFields on [bind x]]   under m

   enter p · start c₁ · … · text "a" · bind x · … · close c₁ · leave p
      m         m              m        m with …         m          m
```

What holds of a run therefore follows by induction on a list, with one case for each kind of move.
-/

namespace SqlRender

/-- A single thing that a run does. -/
inductive Deed where
  /-- Write text as it is. -/
  | text (s : String)
  /-- Write a keyword, given in capitals. -/
  | keyword (word : String)
  /-- Write an identifier. -/
  | ident (name : String)
  /-- Write a parameter. -/
  | bind (p : Param)
  /-- Write a value as a literal of a type. -/
  | literal (v : Value) (type : Option DataType)
  /-- Enter a part; none of its tags is open yet. -/
  | enter (part : Part)
  /-- Leave a part; all of its tags are closed. -/
  | leave (part : Part)
  /-- Open a clause. -/
  | start (part : Option Part) (c : Clause)
  /-- Close a clause. -/
  | close (part : Option Part) (c : Clause)
  /-- Fail. -/
  | fail (e : RenderError)
  /-- Perform a body, and go on behind it even if it fails. -/
  | attempt (step : Step) (body : Script)
  /-- Note what a step found out. -/
  | note (step : Step) (reading : Reading)

/-- A deed, and the modes that it is done under. -/
structure Move where
  modes : Modes
  deed : Deed

/-- Does a deed under the modes of the moment. -/
def Deed.perform (cfg : Configuration) : Deed → Run Unit
  | text s => Run.write (.text s)
  | keyword word => Run.write (.keyword word)
  | ident name => Run.write (.ident name)
  | bind p => cfg.bind p
  | literal v type => cfg.literal ⟨{ value := v, inline := true }, type⟩
  | enter part => cfg.notify .visitStart (some part)
  | leave part => cfg.notify .visitEnd (some part)
  | start part c => cfg.start part c
  | close part c => cfg.close part c
  | fail e => throw e
  | attempt step body => (Action.attempt step body).perform cfg
  | note step reading => (Action.note step reading).perform cfg

/-- Makes a move. -/
def Move.perform (cfg : Configuration) (mv : Move) : Run Unit :=
  Run.under (fun _ => mv.modes) (mv.deed.perform cfg)

mutual

/-- The moves of an action that is performed under given modes. -/
def Action.moves (m : Modes) : Action → List Move
  | .text s => [⟨m, .text s⟩]
  | .keyword word => [⟨m, .keyword word⟩]
  | .ident name => [⟨m, .ident name⟩]
  | .bind p => [⟨m, .bind p⟩]
  | .literal v type => [⟨m, .literal v type⟩]
  | .visit part body =>
    ⟨m, .enter part⟩ :: ((part.tags m).map (fun c => ⟨m, .start (some part) c⟩) ++
      (Script.moves m body ++
        ((part.tags m).reverse.map (fun c => ⟨m, .close (some part) c⟩) ++ [⟨m, .leave part⟩])))
  | .within c body => ⟨m, .start none c⟩ :: (Script.moves m body ++ [⟨m, .close none c⟩])
  | .switch mode on body => Script.moves (m.switch mode on) body
  | .assume type body => Script.moves (m.assume type) body
  | .whenOn mode body => if m.isOn mode then Script.moves m body else []
  | .fail e => [⟨m, .fail e⟩]
  | .attempt step body => [⟨m, .attempt step body⟩]
  | .note step reading => [⟨m, .note step reading⟩]

/-- The moves of a script that is performed under given modes. -/
def Script.moves (m : Modes) : List Action → List Move
  | [] => []
  | a :: as => a.moves m ++ Script.moves m as

end

/-! ## Straight scripts -/

mutual

/-- An action that attempts nothing, and visits no part that forwards. -/
def Action.Straight : Action → Prop
  | .visit part body => part.target = part ∧ Script.Straight body
  | .within _ body | .switch _ _ body | .assume _ body | .whenOn _ body => Script.Straight body
  | .attempt _ _ => False
  | _ => True

/-- A script that attempts nothing, and visits no part that forwards. -/
def Script.Straight : List Action → Prop
  | [] => True
  | a :: as => a.Straight ∧ Script.Straight as

end

theorem Script.straight_iff (as : Script) : Script.Straight as ↔ ∀ a ∈ as, a.Straight := by
  induction as with
  | nil => simp [Script.Straight]
  | cons a as ih => simp [Script.Straight, ih]

/-- Whether a deed goes on behind a failure. -/
def Deed.isAttempt : Deed → Bool
  | attempt _ _ => true
  | _ => false

mutual

/-- The moves of a straight action are no attempts. -/
theorem Action.Straight.isAttempt_eq_false {m : Modes} :
    ∀ {a : Action}, a.Straight → ∀ mv ∈ a.moves m, mv.deed.isAttempt = false
  | .text _, _ | .keyword _, _ | .ident _, _ | .bind _, _ | .literal _ _, _ | .fail _, _
  | .note _ _, _ => by simp [Action.moves, Deed.isAttempt]
  | .visit part body, h => by
    have ih := Script.Straight.isAttempt_eq_false (m := m) h.2
    intro mv hmv
    simp only [Action.moves, List.mem_cons, List.mem_append, List.mem_map, List.not_mem_nil,
      or_false] at hmv
    -- the brackets of a visit are no attempts, and the body has none
    rcases hmv with rfl | ⟨c, -, rfl⟩ | hmv | ⟨c, -, rfl⟩ | rfl
    case inr.inr.inl => exact ih mv hmv
    all_goals rfl
  | .within c body, h => by
    have ih := Script.Straight.isAttempt_eq_false (m := m) h
    intro mv hmv
    simp only [Action.moves, List.mem_cons, List.mem_append, List.not_mem_nil, or_false] at hmv
    rcases hmv with rfl | hmv | rfl
    case inr.inl => exact ih mv hmv
    all_goals rfl
  | .switch _ _ _, h => Script.Straight.isAttempt_eq_false h
  | .assume _ _, h => Script.Straight.isAttempt_eq_false h
  | .whenOn mode body, h => by
    have ih := Script.Straight.isAttempt_eq_false (m := m) h
    intro mv hmv
    rw [Action.moves] at hmv
    split at hmv
    · exact ih mv hmv
    · cases hmv

/-- The moves of a straight script are no attempts. -/
theorem Script.Straight.isAttempt_eq_false {m : Modes} :
    ∀ {as : List Action}, Script.Straight as → ∀ mv ∈ Script.moves m as, mv.deed.isAttempt = false
  | [], _ => by simp [Script.moves]
  | a :: as, h => by
    intro mv hmv
    rw [Script.moves, List.mem_append] at hmv
    rcases hmv with hmv | hmv
    · exact Action.Straight.isAttempt_eq_false h.1 mv hmv
    · exact Script.Straight.isAttempt_eq_false h.2 mv hmv

end

/-! ## What runs leave as it was -/

namespace Run

variable {α β γ : Type}

/-- The state that a run ends in, whether it failed or not. -/
def final (run : Run α) (st : State) : State :=
  match run st with
  | .ok _ st' => st'
  | .error _ st' => st'

/-- Under changed modes a run ends as it does from these modes, with the modes restored. -/
theorem final_under (run : Run Unit) (change : Modes → Modes) (st : State) :
    (under change run).final st =
      { run.final { st with modes := change st.modes } with modes := st.modes } := by
  unfold final Run.under
  cases run { st with modes := change st.modes } <;> rfl

/-- A run that leaves what `view` sees of the state as it was, whether it fails or not. -/
def Keeps (view : State → γ) (run : Run α) : Prop := ∀ st, view (run.final st) = view st

variable {view : State → γ}

theorem keeps_pure (a : α) : Keeps view (pure a) := fun _ => rfl

theorem keeps_throw (e : RenderError) : Keeps view (throw e : Run α) := fun _ => rfl

theorem keeps_get : Keeps view (get : Run State) := fun _ => rfl

theorem keeps_modify {f : State → State} (hf : ∀ st, view (f st) = view st) :
    Keeps view (modify f : Run Unit) := hf

theorem Keeps.bind {run : Run α} {next : α → Run β} (h : Keeps view run)
    (hnext : ∀ a, Keeps view (next a)) : Keeps view (run >>= next) := by
  intro st
  have hst := h st
  simp only [final, Bind.bind, EStateM.bind] at hst ⊢
  cases hr : run st with
  | ok a st₁ =>
    rw [hr] at hst
    exact (hnext a st₁).trans hst
  | error e st₁ =>
    rw [hr] at hst
    exact hst

theorem Keeps.outcome {run : Run Unit} (h : Keeps view run) : Keeps view (outcome run) := by
  intro st
  have hst := h st
  unfold final Run.outcome at *
  cases hr : run st <;> rw [hr] at hst <;> exact hst

theorem keeps_forM {f : β → Run PUnit} (hf : ∀ b, Keeps view (f b)) (bs : List β) :
    Keeps view (bs.forM f) := by
  induction bs with
  | nil => exact keeps_pure _
  | cons b bs ih => exact (hf b).bind fun _ => ih

/-- Under changed modes a run keeps what it keeps anyway, if that is none of the modes. -/
theorem Keeps.under {run : Run Unit} (h : Keeps view run)
    (hview : ∀ st m, view { st with modes := m } = view st) (change : Modes → Modes) :
    Keeps view (under change run) := by
  intro st
  have hst := h { st with modes := change st.modes }
  unfold final at hst
  unfold final Run.under
  cases hr : run { st with modes := change st.modes } <;> rw [hr] at hst <;>
    exact (hview _ _).trans (hst.trans (hview _ _))

/-- The modes are restored behind a run under changed modes. -/
theorem keeps_modes_under (change : Modes → Modes) (run : Run Unit) :
    Keeps State.modes (under change run) := by
  intro st
  unfold final Run.under
  cases run { st with modes := change st.modes } <;> rfl

/-- What a run that ended well kept. -/
theorem Keeps.ok {run : Run α} (h : Keeps view run) {st st' : State} {a : α}
    (hrun : run st = .ok a st') : view st' = view st := by
  have hst := h st
  unfold final at hst
  rwa [hrun] at hst

end Run

open Run

namespace Configuration

variable (cfg : Configuration) {γ : Type} {view : State → γ}

/-- An event changes nothing but the notices. -/
theorem keeps_notify (hview : ∀ st ns, view { st with notices := ns } = view st)
    (kind : EventKind) (part : Option Part) : Keeps view (cfg.notify kind part) := by
  intro st
  unfold final notify
  dsimp only
  cases (tell st.notices _ cfg.listeners 0).2 <;> exact hview _ _

theorem keeps_modes_notify (kind : EventKind) (part : Option Part) :
    Keeps State.modes (cfg.notify kind part) :=
  cfg.keeps_notify (fun _ _ => rfl) kind part

theorem keeps_modes_start (part : Option Part) (c : Clause) :
    Keeps State.modes (cfg.start part c) := by
  unfold start
  refine Keeps.bind ?_ fun _ => cfg.keeps_modes_notify _ _
  exact keeps_modify fun _ => rfl

theorem keeps_modes_close (part : Option Part) (c : Clause) :
    Keeps State.modes (cfg.close part c) := by
  unfold close
  exact (cfg.keeps_modes_notify _ _).bind fun _ => keeps_modify fun _ => rfl

/-- Writing a literal changes nothing but the text. -/
theorem keeps_literal (hview : ∀ st out, view { st with out := out } = view st) (o : Occurrence) :
    Keeps view (cfg.literal o) := by
  unfold literal
  split
  · split
    · exact keeps_modify fun st => hview st _
    · exact keeps_get.bind fun _ => keeps_throw _
  · exact keeps_modify fun st => hview st _

/-- Writing an occurrence changes nothing but the text and what is bound. -/
theorem keeps_place (hview : ∀ st out params names,
      view { st with out := out, params := params, names := names } = view st)
    (o : Occurrence) : Keeps view (cfg.place o) := by
  have hout : ∀ st out, view { st with out := out } = view st := fun st out => hview st out _ _
  apply keeps_get.bind
  intro st
  split
  · exact keeps_throw _
  · split
    · exact cfg.keeps_literal hout o
    · apply keeps_get.bind
      intro st'
      split
      · exact keeps_modify fun st => hout st _
      · refine Keeps.bind ?_ fun _ => ?_
        · exact keeps_modify fun st => hview st _ _ _
        · exact keeps_modify fun st => hout st _

end Configuration

mutual

/-- An action restores the modes, also where it fails. -/
theorem Action.keeps_modes (cfg : Configuration) : ∀ a : Action, Keeps State.modes (a.perform cfg)
  | .text _ | .keyword _ | .ident _ => by
    simp only [Action.perform]
    exact keeps_modify fun _ => rfl
  | .bind p => by
    simp only [Action.perform]
    exact keeps_get.bind fun _ => cfg.keeps_place (fun _ _ _ _ => rfl) _
  | .literal _ _ => by
    simp only [Action.perform]
    exact cfg.keeps_literal (fun _ _ => rfl) _
  | .visit part body => by
    simp only [Action.perform]
    apply (cfg.keeps_modes_notify _ _).bind
    intro _
    apply keeps_get.bind
    intro st
    apply (keeps_forM (cfg.keeps_modes_start _) _).bind
    intro _
    apply (Script.keeps_modes cfg body).bind
    intro _
    exact (keeps_forM (cfg.keeps_modes_close _) _).bind fun _ => cfg.keeps_modes_notify _ _
  | .within c body => by
    simp only [Action.perform]
    exact (cfg.keeps_modes_start _ _).bind fun _ =>
      (Script.keeps_modes cfg body).bind fun _ => cfg.keeps_modes_close _ _
  | .switch _ _ _ | .assume _ _ => by
    simp only [Action.perform]
    exact keeps_modes_under _ _
  | .whenOn mode body => by
    simp only [Action.perform]
    apply keeps_get.bind
    intro st
    split
    · exact Script.keeps_modes cfg body
    · exact keeps_pure _
  | .fail e => by
    simp only [Action.perform]
    exact keeps_throw e
  | .attempt step body => by
    simp only [Action.perform]
    exact (Script.keeps_modes cfg body).outcome.bind fun _ => keeps_modify fun _ => rfl
  | .note step reading => by
    simp only [Action.perform]
    exact keeps_get.bind fun _ => keeps_modify fun _ => rfl

/-- A script restores the modes, also where it fails. -/
theorem Script.keeps_modes (cfg : Configuration) :
    ∀ as : List Action, Keeps State.modes (Script.perform cfg as)
  | [] => by
    simp only [Script.perform]
    exact keeps_pure _
  | a :: as => by
    simp only [Script.perform]
    exact (Action.keeps_modes cfg a).bind fun _ => Script.keeps_modes cfg as

end

/-! ## Runs under fixed modes -/

namespace Run

variable {m : Modes}

/-- A run that keeps the modes may be put under the modes by itself. -/
theorem under_bind {run : Run Unit} {next : Unit → Run Unit} (h : Keeps State.modes run) :
    under (fun _ => m) (run >>= next) =
      (under (fun _ => m) run >>= fun a => under (fun _ => m) (next a)) := by
  funext st
  have hst := h { st with modes := m }
  simp only [final, under, Bind.bind, EStateM.bind] at hst ⊢
  cases hr : run { st with modes := m } with
  | ok a st₁ =>
    rw [hr] at hst
    -- the modes of `st₁` are those that `next` is put under again
    have hmodes : { st₁ with modes := m } = st₁ := by rw [← hst]
    simp only [hmodes]
  | error e st₁ => rfl

/-- What is read off the state under fixed modes is read off these modes. -/
theorem under_get_bind {next : State → Run Unit} (st : State) :
    under (fun _ => m) (get >>= next) st =
      under (fun _ => m) (next { st with modes := m }) st := rfl

theorem under_pure : under (fun _ => m) (pure ()) = pure () := rfl

/-- Fixed modes are fixed anew by a change of the modes. -/
theorem under_under (change : Modes → Modes) (run : Run Unit) :
    under (fun _ => m) (under change run) = under (fun _ => change m) run := by
  funext st
  simp only [under]
  cases run { st with modes := change m } <;> rfl

theorem under_forM {α : Type} {f : α → Run PUnit} (hf : ∀ a, Keeps State.modes (f a)) (as : List α) :
    under (fun _ => m) (as.forM f) = as.forM fun a => under (fun _ => m) (f a) := by
  induction as with
  | nil => exact under_pure
  | cons a as ih =>
    simp only [List.forM_eq_forM, List.forM_cons] at ih ⊢
    rw [under_bind (hf a), ih]

/-- A run under the modes that there are anyway. -/
theorem under_self {run : Run Unit} (h : Keeps State.modes run) (st : State) :
    under (fun _ => st.modes) run st = run st := by
  have hst := h st
  simp only [final, under] at hst ⊢
  cases hr : run st with
  | ok a st₁ =>
    rw [hr] at hst
    simp only [← hst]
  | error e st₁ =>
    rw [hr] at hst
    simp only [← hst]

end Run

/-! ## Performing is making the moves -/

/-- Makes moves, one after the other. -/
def Move.performAll (cfg : Configuration) (mvs : List Move) : Run Unit :=
  mvs.forM (Move.perform cfg)

namespace Move

variable (cfg : Configuration)

theorem performAll_nil : performAll cfg [] = pure () := rfl

theorem performAll_cons (mv : Move) (mvs : List Move) :
    performAll cfg (mv :: mvs) = (do mv.perform cfg; performAll cfg mvs) := rfl

theorem performAll_singleton (mv : Move) : performAll cfg [mv] = mv.perform cfg := by
  rw [performAll_cons, performAll_nil]
  exact bind_pure_unit

theorem performAll_append (mvs mvs' : List Move) :
    performAll cfg (mvs ++ mvs') = (do performAll cfg mvs; performAll cfg mvs') :=
  List.forM_append

/-- Moves end well if the first one does and the others do behind it. -/
theorem performAll_cons_eq_ok {mv : Move} {mvs : List Move} {st st' : State} :
    performAll cfg (mv :: mvs) st = .ok () st' ↔
      ∃ st₁, mv.perform cfg st = .ok () st₁ ∧ performAll cfg mvs st₁ = .ok () st' := by
  rw [performAll_cons]
  simp only [Bind.bind, EStateM.bind]
  cases mv.perform cfg st with
  | ok a st₁ => simp
  | error e st₁ => simp

/-- Two words of moves end well one behind the other if each does. -/
theorem performAll_append_eq_ok {mvs mvs' : List Move} {st st' : State} :
    performAll cfg (mvs ++ mvs') st = .ok () st' ↔
      ∃ st₁, performAll cfg mvs st = .ok () st₁ ∧ performAll cfg mvs' st₁ = .ok () st' := by
  rw [performAll_append]
  simp only [Bind.bind, EStateM.bind]
  cases performAll cfg mvs st with
  | ok a st₁ => simp
  | error e st₁ => simp

/-- Each move is made under its own modes, and restores those that it finds. -/
theorem keeps_modes_performAll (mvs : List Move) : Keeps State.modes (performAll cfg mvs) :=
  keeps_forM (fun _ => keeps_modes_under _ _) mvs

theorem performAll_map {α : Type} (f : α → Move) (as : List α) :
    performAll cfg (as.map f) = as.forM fun a => (f a).perform cfg := by
  induction as with
  | nil => rfl
  | cons a as ih => rw [List.map_cons, performAll_cons, ih]; rfl

end Move

open Move

mutual

/-- An action under fixed modes is the making of its moves. -/
theorem Action.perform_eq_moves (cfg : Configuration) (m : Modes) :
    ∀ a : Action, under (fun _ => m) (a.perform cfg) = performAll cfg (a.moves m)
  | .text _ | .keyword _ | .ident _ | .bind _ | .literal _ _ | .fail _ => by
    simp only [Action.moves, performAll_singleton, Action.perform]
    rfl
  | .attempt _ _ | .note _ _ => by
    simp only [Action.moves, performAll_singleton, Move.perform, Deed.perform]
  | .visit part body => by
    funext st
    simp only [Action.perform, Action.moves, performAll_cons, performAll_append, performAll_map,
      performAll_nil, bind_pure_unit]
    rw [under_bind (cfg.keeps_modes_notify _ _)]
    -- the tags are asked for under the modes of the visit, in the state that the first event left
    refine congrFun (congrArg (Run.under _ _ >>= ·) (funext fun _ => funext fun st₁ => ?_)) st
    rw [under_get_bind, under_bind (keeps_forM (cfg.keeps_modes_start _) _),
      under_forM (cfg.keeps_modes_start _), under_bind (Script.keeps_modes cfg body),
      under_bind (keeps_forM (cfg.keeps_modes_close _) _),
      under_forM (cfg.keeps_modes_close _), Script.perform_eq_moves cfg m body]
    rfl
  | .within c body => by
    simp only [Action.perform, Action.moves, performAll_cons, performAll_append, performAll_nil,
      bind_pure_unit]
    rw [under_bind (cfg.keeps_modes_start _ _), under_bind (Script.keeps_modes cfg body),
      Script.perform_eq_moves cfg m body]
    rfl
  | .switch mode on body => by
    simp only [Action.perform, Action.moves]
    rw [under_under]
    exact Script.perform_eq_moves cfg _ body
  | .assume type body => by
    simp only [Action.perform, Action.moves]
    rw [under_under]
    exact Script.perform_eq_moves cfg _ body
  | .whenOn mode body => by
    funext st
    simp only [Action.perform, Action.moves]
    rw [under_get_bind]
    split
    · rw [Script.perform_eq_moves cfg m body]
    · exact congrFun under_pure st

/-- A script under fixed modes is the making of its moves. -/
theorem Script.perform_eq_moves (cfg : Configuration) (m : Modes) :
    ∀ as : List Action, under (fun _ => m) (Script.perform cfg as) =
      performAll cfg (Script.moves m as)
  | [] => by
    simp only [Script.perform, Script.moves]
    exact under_pure
  | a :: as => by
    simp only [Script.perform, Script.moves, performAll_append]
    rw [under_bind (Action.keeps_modes cfg a), Action.perform_eq_moves cfg m a,
      Script.perform_eq_moves cfg m as]

end

/-- **Performing an action is making its moves**, those that it has under the modes of the state. -/
theorem Action.perform_apply (cfg : Configuration) (a : Action) (st : State) :
    a.perform cfg st = performAll cfg (a.moves st.modes) st := by
  rw [← Action.perform_eq_moves, under_self (Action.keeps_modes cfg a)]

end SqlRender
