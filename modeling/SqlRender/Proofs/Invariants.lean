import SqlRender.Proofs.Checks

/-!
# Invariants of runs

What a run writes, binds and notes is changed by few things: a word is written, a parameter shares
a slot or opens one, a step is noted. What these keep is kept by every run, one that fails and one
that goes on behind a failure included (`Action.maintains`):

```text
         write · share · open · note              every run
  I ─────────────────────────────────▸ I    ⟹    I ─────▸ I,  failing with E alone
```

Which parameters a run can meet at all, and where it can fail by itself, is read off the `atoms` of
its script. The layout of a part fails with errors of its checks and with no others, also in a
caller's part (`Part.isCheck_of_atom`).
-/

namespace SqlRender

/-! ## Runs with an invariant -/

namespace Run

variable {α β : Type} {I : State → Prop} {E : RenderError → Prop}

/-- From this state, a run ends in a state with the invariant. If it fails then with such an
error. -/
def EndsIn (I : State → Prop) (E : RenderError → Prop) (run : Run α) (st : State) : Prop :=
  match run st with
  | .ok _ st' => I st'
  | .error e st' => I st' ∧ E e

/-- A run that keeps the invariant, whether it fails or not, and fails with such errors only. -/
def Maintains (I : State → Prop) (E : RenderError → Prop) (run : Run α) : Prop :=
  ∀ st, I st → run.EndsIn I E st

theorem maintains_pure (a : α) : Maintains I E (pure a) := fun _ h => h

theorem maintains_throw {e : RenderError} (he : E e) : Maintains I E (throw e : Run α) :=
  fun _ h => ⟨h, he⟩

theorem maintains_modify {f : State → State} (hf : ∀ st, I st → I (f st)) :
    Maintains I E (modify f) := hf

/-- What goes on from the state that it reads has to end well from this state alone. -/
theorem maintains_get_bind {next : State → Run α} (h : ∀ st, I st → (next st).EndsIn I E st) :
    Maintains I E (get >>= next) := h

theorem Maintains.bind {run : Run α} {next : α → Run β} (h : Maintains I E run)
    (hnext : ∀ a, Maintains I E (next a)) : Maintains I E (run >>= next) := by
  intro st hst
  have hrun := h st hst
  unfold EndsIn at hrun ⊢
  simp only [Bind.bind, EStateM.bind]
  cases hr : run st with
  | ok a st₁ =>
    rw [hr] at hrun
    exact hnext a st₁ hrun
  | error e st₁ =>
    rw [hr] at hrun
    exact hrun

theorem maintains_forM {f : β → Run PUnit} (hf : ∀ b, Maintains I E (f b)) (bs : List β) :
    Maintains I E (bs.forM f) := by
  induction bs with
  | nil => exact maintains_pure _
  | cons b bs ih => exact (hf b).bind fun _ => ih

theorem Maintains.under {run : Run Unit} (h : Maintains I E run)
    (hmodes : ∀ st m, I st → I { st with modes := m }) (change : Modes → Modes) :
    Maintains I E (under change run) := by
  intro st hst
  have hrun := h _ (hmodes st (change st.modes) hst)
  unfold EndsIn at hrun ⊢
  unfold Run.under
  cases hr : run { st with modes := change st.modes } with
  | ok a st₁ =>
    rw [hr] at hrun
    exact hmodes _ _ hrun
  | error e st₁ =>
    rw [hr] at hrun
    exact ⟨hmodes _ _ hrun.1, hrun.2⟩

/-- An attempt fails with no error of its own, and goes on with one of those that the run may fail
with. -/
theorem Maintains.outcome_bind {run : Run Unit} {next : Option RenderError → Run α}
    (h : Maintains I E run) (hok : Maintains I E (next none))
    (herror : ∀ e, E e → Maintains I E (next (some e))) :
    Maintains I E (outcome run >>= next) := by
  intro st hst
  have hrun := h st hst
  unfold EndsIn at hrun
  unfold EndsIn Run.outcome
  simp only [Bind.bind, EStateM.bind]
  cases hr : run st with
  | ok a st₁ =>
    rw [hr] at hrun
    exact hok st₁ hrun
  | error e st₁ =>
    rw [hr] at hrun
    exact herror e hrun.2 st₁ hrun.1

end Run

open Run

/-! ## What the changes of a run keep -/

/-- Whether a segment is a placeholder. -/
def Segment.isPlaceholder : Segment → Bool
  | placeholder _ _ => true
  | _ => false

/-- The single changes of a run keep an invariant, provided that the parameters are such as `P`; and
where they raise an error, it is such as `E`. -/
structure Configuration.Upholds (cfg : Configuration) (I : State → Prop) (E : RenderError → Prop)
    (P : Param → Prop) : Prop where
  /-- The invariant is one of what is written, bound and noted. -/
  congr : ∀ {st st' : State}, I st → st'.ledger = st.ledger → st'.journal = st.journal → I st'
  write : ∀ {st : State} {x : Segment}, x.isPlaceholder = false → I st →
    I { st with out := st.out ++ [x] }
  share : ∀ {st : State} {o : Occurrence} {slot : Nat}, P o.param → st.conflict? o.param = none →
    st.slotOf? o.param = some slot → I st → I { st with out := st.out ++ [.placeholder slot o] }
  opens : ∀ {st : State} {o : Occurrence}, P o.param → st.conflict? o.param = none → I st →
    I { st.bindNext o.param with
        out := st.out ++ [.placeholder (st.params.length + 1) o] }
  note : ∀ {st : State} {step : Step} {finding : Finding},
    (∀ e, finding = .ended (some e) → E e) → I st →
    I { st with journal := st.journal ++ [⟨step, finding⟩] }
  conflict : ∀ {st : State} {p : Param} {name : String}, P p → st.conflict? p = some name →
    I st → E (.paramConflict name st.path.getLast?)
  noLiteral : ∀ x inner, E (.invalidLiteral x cfg.settings.dialect inner)
  refusal : ∀ inner reason, E (.listener inner reason)

namespace Configuration.Upholds

variable {cfg : Configuration} {I : State → Prop} {E : RenderError → Prop} {P : Param → Prop}
  (h : cfg.Upholds I E P)

include h

theorem notify (kind : EventKind) (part : Option Part) :
    Maintains I E (cfg.notify kind part) := by
  intro st hst
  unfold EndsIn Configuration.notify
  dsimp only
  cases (tell st.notices _ cfg.listeners 0).2 with
  | none => exact h.congr hst rfl rfl
  | some reason => exact ⟨h.congr hst rfl rfl, h.refusal _ reason⟩

theorem start (part : Option Part) (c : Clause) : Maintains I E (cfg.start part c) := by
  refine Maintains.bind ?_ fun _ => h.notify .clauseStart part
  exact maintains_modify fun _ hst => h.congr hst rfl rfl

theorem close (part : Option Part) (c : Clause) : Maintains I E (cfg.close part c) := by
  apply (h.notify .clauseEnd part).bind
  intro _
  exact maintains_modify fun _ hst => h.congr hst rfl rfl

theorem literal (o : Occurrence) : Maintains I E (cfg.literal o) := by
  have hwrite : Maintains I E (Run.write (.literal o)) :=
    maintains_modify fun _ hst => h.write rfl hst
  unfold Configuration.literal
  split
  · split
    · exact hwrite
    · exact maintains_get_bind fun _ hst => ⟨hst, h.noLiteral _ _⟩
  · exact hwrite

theorem placeholder {o : Occurrence} (hp : P o.param) {st : State}
    (hconflict : st.conflict? o.param = none) (hst : I st) :
    (cfg.placeholder o).EndsIn I E st := by
  unfold EndsIn Configuration.placeholder
  rw [get_bind_apply]
  cases hslot : st.slotOf? o.param with
  | none => exact h.opens hp hconflict hst
  | some slot =>
    cases cfg.settings.capabilities.numberedPlaceholders with
    | false => exact h.opens hp hconflict hst
    | true => exact h.share hp hconflict hslot hst

/-- A parameter is in conflict, is written in place, shares a slot or opens one. -/
theorem place {o : Occurrence} (hp : P o.param) : Maintains I E (cfg.place o) := by
  unfold Configuration.place
  refine maintains_get_bind fun st hst => ?_
  split
  · next name hconflict => exact ⟨hst, h.conflict hp hconflict hst⟩
  · next hconflict =>
    split
    · exact h.literal o st hst
    · exact h.placeholder hp hconflict hst

end Configuration.Upholds

/-! ## Atoms -/

mutual

/-- The actions that an action comes down to, on whatever way its modes and its attempts take. -/
def Action.atoms : Action → List Action
  | .visit _ body | .within _ body | .switch _ _ body | .assume _ body | .whenOn _ body
  | .attempt _ body => Script.atoms body
  | a => [a]

/-- The actions that a script comes down to. -/
def Script.atoms : List Action → List Action
  | [] => []
  | a :: as => a.atoms ++ Script.atoms as

end

/-- An action that meets no parameters but such as `P`, and fails by itself with no errors but such
as `E`. -/
def Action.Fits (P : Param → Prop) (E : RenderError → Prop) : Action → Prop
  | .bind p => P p
  | .fail e => E e
  | _ => True

section

variable {cfg : Configuration} {I : State → Prop} {E : RenderError → Prop} {P : Param → Prop}

mutual

/-- **What single changes keep, every action keeps**, whatever is attempted in it. -/
theorem Action.maintains (h : cfg.Upholds I E P) : ∀ a : Action,
    (∀ b ∈ a.atoms, b.Fits P E) → Maintains I E (a.perform cfg)
  | .text _, _ | .keyword _, _ | .ident _, _ => by
    simp only [Action.perform]
    exact maintains_modify fun _ hst => h.write rfl hst
  | .bind p, ha => by
    have hp : P p := ha _ (List.mem_singleton_self _)
    simp only [Action.perform]
    exact maintains_get_bind fun st hst => h.place (o := p.occurrence st.modes) hp st hst
  | .literal _ _, _ => by
    simp only [Action.perform]
    exact h.literal _
  | .visit part body, ha => by
    have hbody := Script.maintains h body ha
    simp only [Action.perform]
    apply (h.notify _ _).bind
    intro _
    refine maintains_get_bind fun st => ?_
    apply (maintains_forM (h.start _) (part.tags st.modes)).bind
    intro _
    apply hbody.bind
    intro _
    exact (maintains_forM (h.close _) _).bind fun _ => h.notify _ _
  | .within c body, ha => by
    have hbody := Script.maintains h body ha
    simp only [Action.perform]
    exact (h.start none c).bind fun _ => hbody.bind fun _ => h.close none c
  | .switch _ _ body, ha | .assume _ body, ha => by
    have hbody := Script.maintains h body ha
    simp only [Action.perform]
    exact hbody.under (fun _ _ hst => h.congr hst rfl rfl) _
  | .whenOn mode body, ha => by
    have hbody := Script.maintains h body ha
    simp only [Action.perform]
    refine maintains_get_bind fun st hst => ?_
    split
    · exact hbody st hst
    · exact hst
  | .fail e, ha => by
    have he : E e := ha _ (List.mem_singleton_self _)
    simp only [Action.perform]
    exact maintains_throw he
  | .attempt step body, ha => by
    have hbody := Script.maintains h body ha
    simp only [Action.perform]
    refine hbody.outcome_bind ?_ fun e he => ?_
    · exact maintains_modify fun _ hst => h.note (fun _ heq => nomatch heq) hst
    · refine maintains_modify fun _ hst => h.note (fun e' heq => ?_) hst
      cases heq
      exact he
  | .note step reading, _ => by
    simp only [Action.perform]
    refine maintains_get_bind fun st hst => h.note (fun e heq => ?_) hst
    -- a reading finds out no error
    cases reading <;> cases heq

/-- What single changes keep, every script keeps. -/
theorem Script.maintains (h : cfg.Upholds I E P) : ∀ as : List Action,
    (∀ b ∈ Script.atoms as, b.Fits P E) → Maintains I E (Script.perform cfg as)
  | [], _ => by
    simp only [Script.perform]
    exact maintains_pure _
  | a :: as, has => by
    have ha := Action.maintains h a fun b hb => has b (List.mem_append_left _ hb)
    have hrest := Script.maintains h as fun b hb => has b (List.mem_append_right _ hb)
    simp only [Script.perform]
    exact ha.bind fun _ => hrest

end

end

/-! ## The errors of layouts -/

namespace Script

theorem atoms_append (as bs : Script) :
    Script.atoms (as ++ bs) = Script.atoms as ++ Script.atoms bs := by
  induction as with
  | nil => rfl
  | cons a as ih => simp [Script.atoms, ih]

end Script

mutual

/-- The errors among the atoms of an action are those of its checks. -/
theorem Action.ChecksAt.isCheck_of_atom : ∀ {a : Action} {inner : Option Clause},
    a.ChecksAt inner → ∀ {e : RenderError}, .fail e ∈ a.atoms → e.isCheck = true
  | .text _, _, _, e, he | .keyword _, _, _, e, he | .ident _, _, _, e, he
  | .bind _, _, _, e, he | .literal _ _, _, _, e, he | .note _ _, _, _, e, he => by
    cases List.mem_singleton.1 he
  | .visit _ _, _, h, _, he => Script.ChecksAt.isCheck_of_atom (h {}) he
  | .within _ _, _, h, _, he | .switch _ _ _, _, h, _, he | .assume _ _, _, h, _, he
  | .whenOn _ _, _, h, _, he | .attempt _ _, _, h, _, he =>
    Script.ChecksAt.isCheck_of_atom h he
  | .fail _, _, h, e, he => by
    cases List.mem_singleton.1 he
    exact RenderError.RaisedIn.isCheck h

/-- The errors among the atoms of a script are those of its checks. -/
theorem Script.ChecksAt.isCheck_of_atom : ∀ {as : List Action} {inner : Option Clause},
    Script.ChecksAt inner as → ∀ {e : RenderError}, .fail e ∈ Script.atoms as →
      e.isCheck = true
  | [], _, _, e, he => by cases he
  | a :: as, _, h, e, he => by
    rcases List.mem_append.1 he with he | he
    · exact Action.ChecksAt.isCheck_of_atom h.1 he
    · exact Script.ChecksAt.isCheck_of_atom h.2 he

end

section

variable (d : Dialect)

/-- The atoms of a part are those of what is written inside its tags. -/
theorem Part.atoms_visit : ∀ p : Part, (p.visit d).atoms = Script.atoms (p.body d)
  | .field _ | .row _ | .table _ | .condition _ | .sort _ | .select _ | .query (.unionAll _)
  | .insert _ | .update _ | .delete _ => rfl
  | .query (.select _) | .statement _ => (List.append_nil _).symm
  | .forward p => by
    rw [Part.visit, Part.body]
    exact Part.atoms_visit p
  | .custom _ _ => by
    rw [Part.visit, Part.body]
    rfl

end

mutual

/-- **The layout of a part fails with errors of its checks alone**, also where it is attempted. -/
theorem Part.isCheck_of_atom (d : Dialect) : ∀ (p : Part) {e : RenderError},
    .fail e ∈ (p.visit d).atoms → e.isCheck = true
  | .forward p, e, he => by
    rw [Part.visit] at he
    exact Part.isCheck_of_atom d p he
  | .custom _ steps, e, he => by
    rw [Part.visit] at he
    exact Step.isCheck_of_atom_script d steps he
  | .field _, _, he | .row _, _, he | .table _, _, he | .condition _, _, he | .sort _, _, he
  | .select _, _, he | .query _, _, he | .insert _, _, he | .update _, _, he | .delete _, _, he
  | .statement _, _, he =>
    Action.ChecksAt.isCheck_of_atom (Part.checksAt_visit d none rfl) he

theorem Step.isCheck_of_atom_actions (d : Dialect) : ∀ (s : Step) {e : RenderError},
    .fail e ∈ Script.atoms (s.actions d) → e.isCheck = true
  | .write _, e, he | .keyword _, e, he | .ident _, e, he | .bind _, e, he
  | .literal _ _, e, he | .tagsOf _, e, he | .resolve _, e, he | .inspect, e, he => by
    simp [Step.actions, Script.atoms, Action.atoms] at he
  | .require f _, e, he => by
    rw [Step.actions] at he
    exact Script.ChecksAt.isCheck_of_atom (Script.checksAt_require d (.inl rfl) f) he
  | .checkDegree _ expected found, e, he => by
    rw [Step.actions] at he
    exact Script.ChecksAt.isCheck_of_atom
      (Script.checksAt_checkDegree d (.inl rfl) expected found) he
  | .failEmpty _, e, he => by
    rw [Step.actions] at he
    exact Script.ChecksAt.isCheck_of_atom (Script.checksAt_failEmpty d (.inl rfl)) he
  | .visit p, e, he => by
    rw [Step.actions, Script.atoms, Script.atoms, List.append_nil] at he
    exact Part.isCheck_of_atom d p he
  | .visitAll fields _, e, he => by
    have hfields : Script.ChecksAt none (fields.map (Field.visit d)) :=
      Script.checksAt_map fun f => f.checksAt_visit d none
    rw [Step.actions] at he
    exact Script.ChecksAt.isCheck_of_atom (Script.checksAt_separated hfields) he
  | .render p, e, he => by
    rw [Step.actions, ← Part.atoms_visit] at he
    exact Part.isCheck_of_atom d p he
  | .within _ steps, e, he | .switch _ _ steps, e, he | .assume _ steps, e, he
  | .attempt steps, e, he => by
    rw [Step.actions, Script.atoms, Script.atoms, List.append_nil] at he
    exact Step.isCheck_of_atom_script d steps he

theorem Step.isCheck_of_atom_script (d : Dialect) : ∀ (steps : List Step) {e : RenderError},
    .fail e ∈ Script.atoms (Step.script d steps) → e.isCheck = true
  | [], e, he => by
    rw [Step.script] at he
    cases he
  | s :: steps, e, he => by
    rw [Step.script, Script.atoms_append, Script.atoms_append, List.mem_append,
      List.mem_append] at he
    rcases he with (he | he) | he
    · exact Step.isCheck_of_atom_actions d s he
    · cases s <;> simp [Step.notes, Script.atoms, Action.atoms] at he
    · exact Step.isCheck_of_atom_script d steps he

end

end SqlRender
