import SqlRender.Proofs.Sharing

/-!
# What a visit leaves of a state

Whatever a visit does, and however it ends, it restores the modes and takes nothing back: text,
values and names are only ever added.

```text
            names           params          out
before      x ↦ 1           [5]             … $1
visit       x ↦ 1, y ↦ 2    [5, 7]          … $1 … $2 … $1 … $2
                 └────────────── 7 is the value of the first y that is bound
```

A name therefore always leads to a slot that is there (`State.Pointed`), also where a parameter is
placed in the midst of a visit, or behind a failure. `Action.placings` lists the states in which
that happens.
-/

namespace SqlRender

/-! ## Names that lead to slots -/

namespace State

variable {st : State} {p : Param}

/-- Every name that is bound leads to a slot that has been opened. -/
def Pointed (st : State) : Prop :=
  ∀ name slot, st.names.lookup name = some slot → 1 ≤ slot ∧ slot ≤ st.params.length

/-- A name that is bound finds a value in its slot. -/
theorem Pointed.exists_value (h : st.Pointed) {slot : Nat} (hslot : st.slotOf? p = some slot) :
    1 ≤ slot ∧ ∃ v, st.params[slot - 1]? = some v := by
  obtain ⟨name, -, hlookup⟩ := Option.bind_eq_some_iff.1 hslot
  obtain ⟨hpos, hle⟩ := h name slot hlookup
  have hlt : slot - 1 < st.params.length := by omega
  exact ⟨hpos, _, List.getElem?_eq_getElem hlt⟩

/-- Opening the next slot binds a name to it if the name is not bound yet. -/
theorem lookup_names_bindNext (name : String) :
    (st.bindNext p).names.lookup name = (st.names.lookup name).or
      (if p.name = some name then some (st.params.length + 1) else none) := by
  unfold bindNext
  cases hp : p.name with
  | none => simp
  | some own =>
    dsimp only
    by_cases heq : own = name
    · subst heq
      cases hown : st.names.lookup own <;> simp [hown, List.lookup_append]
    · have hne : (name == own) = false := by simpa using Ne.symm heq
      have hnot : ¬ some own = some name := by simpa using heq
      rw [if_neg hnot, Option.or_none]
      split
      · rfl
      · simp [List.lookup_append, List.lookup_cons, hne]

theorem Pointed.bindNext (h : st.Pointed) : (st.bindNext p).Pointed := by
  intro name slot hlookup
  have hlength : (st.bindNext p).params.length = st.params.length + 1 := List.length_append
  rw [hlength]
  rcases lookup_bindNext hlookup with hold | ⟨-, rfl⟩
  · obtain ⟨hpos, hle⟩ := h name slot hold
    omega
  · omega

end State

open Run

/-- No run lets a name lead anywhere but to a slot that is there. -/
theorem Configuration.upholds_pointed (cfg : Configuration) :
    cfg.Upholds State.Pointed (fun _ => True) (fun _ => True) where
  congr := by
    intro st st' hst hledger _
    simp only [State.ledger, Prod.mk.injEq] at hledger
    obtain ⟨-, hparams, hnames⟩ := hledger
    unfold State.Pointed
    rw [hparams, hnames]
    exact hst
  write := fun _ hst => hst
  share := fun _ _ _ hst => hst
  opens := fun _ _ hst => hst.bindNext
  note := fun _ hst => hst
  conflict := fun _ _ _ => trivial
  noLiteral := fun _ _ => trivial
  refusal := fun _ _ => trivial

/-! ## What is added -/

/-- The occurrence that a segment binds. -/
def Segment.bound? : Segment → Option Occurrence
  | .placeholder _ o => some o
  | _ => none

/-- The first occurrence of a name that is bound in what was written. -/
def firstBound (name : String) (out : List Segment) : Option Occurrence :=
  (out.filterMap Segment.bound?).find? fun o => o.param.name = some name

section

variable {name : String} {out : List Segment}

theorem firstBound_concat {x : Segment} (hx : x.isPlaceholder = false) :
    firstBound name (out ++ [x]) = firstBound name out := by
  have hbound : x.bound? = none := by cases x <;> first | rfl | cases hx
  simp [firstBound, hbound]

theorem firstBound_concat_placeholder (slot : Nat) (o : Occurrence) :
    firstBound name (out ++ [.placeholder slot o]) =
      (firstBound name out).or (if o.param.name = some name then some o else none) := by
  by_cases h : o.param.name = some name <;> simp [firstBound, Segment.bound?, h]

end

/-- What has been added to a state: text behind the text, values behind the values, and names that
were not bound. Each of these leads to the value of its first occurrence that is bound in the text
that was added. -/
structure State.Grows (old st : State) (new : List Segment) : Prop where
  out_eq : st.out = old.out ++ new
  params : old.params <+: st.params
  kept : ∀ name slot, old.names.lookup name = some slot → st.names.lookup name = some slot
  unbound : ∀ name, st.names.lookup name = none → firstBound name new = none
  added : ∀ name slot, old.names.lookup name = none → st.names.lookup name = some slot →
    ∃ o, firstBound name new = some o ∧ st.params[slot - 1]? = some o.param.value

namespace State.Grows

variable {old st : State} {new : List Segment}

theorem refl (st : State) : Grows st st [] where
  out_eq := (List.append_nil _).symm
  params := List.prefix_rfl
  kept := fun _ _ h => h
  unbound := fun _ _ => rfl
  added := fun name slot hnone hsome => by rw [hnone] at hsome; cases hsome

/-- What has been added to a state depends on its ledger alone. -/
theorem congr (h : old.Grows st new) {st' : State} (hledger : st'.ledger = st.ledger) :
    old.Grows st' new := by
  simp only [State.ledger, Prod.mk.injEq] at hledger
  obtain ⟨hout, hparams, hnames⟩ := hledger
  refine ⟨?_, ?_, ?_, ?_, ?_⟩
  · rw [hout]
    exact h.out_eq
  · rw [hparams]
    exact h.params
  · rw [hnames]
    exact h.kept
  · rw [hnames]
    exact h.unbound
  · rw [hnames, hparams]
    exact h.added

theorem out_concat (h : old.Grows st new) (x : Segment) :
    st.out ++ [x] = old.out ++ (new ++ [x]) := by
  rw [h.out_eq, List.append_assoc]

/-- Text is added that binds nothing. -/
theorem write (h : old.Grows st new) {x : Segment} (hx : x.isPlaceholder = false) :
    old.Grows { st with out := st.out ++ [x] } (new ++ [x]) where
  out_eq := h.out_concat x
  params := h.params
  kept := h.kept
  unbound := by simpa only [firstBound_concat hx] using h.unbound
  added := by simpa only [firstBound_concat hx] using h.added

/-- A placeholder is added for a slot that the name of its parameter leads to. -/
theorem share (h : old.Grows st new) {o : Occurrence} {slot : Nat}
    (hslot : st.slotOf? o.param = some slot) :
    old.Grows { st with out := st.out ++ [.placeholder slot o] }
      (new ++ [.placeholder slot o]) where
  out_eq := h.out_concat _
  params := h.params
  kept := h.kept
  unbound := by
    intro name hnone
    obtain ⟨own, hown, hlookup⟩ := Option.bind_eq_some_iff.1 hslot
    -- the name of the occurrence is bound, so it is another one
    have hother : ¬ o.param.name = some name := by
      intro heq
      rw [hown] at heq
      cases heq
      rw [show st.names.lookup name = none from hnone] at hlookup
      cases hlookup
    rw [firstBound_concat_placeholder, h.unbound name hnone, if_neg hother]
    rfl
  added := by
    intro name slot' hnone hsome
    obtain ⟨first, hfirst, hvalue⟩ := h.added name slot' hnone hsome
    refine ⟨first, ?_, hvalue⟩
    rw [firstBound_concat_placeholder, hfirst]
    rfl

/-- A placeholder is added for the next slot, and the name of its parameter is bound to it if it is
not bound yet. -/
theorem opens (h : old.Grows st new) (o : Occurrence) :
    old.Grows { st.bindNext o.param with
        out := st.out ++ [.placeholder (st.params.length + 1) o] }
      (new ++ [.placeholder (st.params.length + 1) o]) where
  out_eq := h.out_concat _
  params := h.params.trans (List.prefix_append _ _)
  kept := by
    intro name slot hold
    show (st.bindNext o.param).names.lookup name = _
    rw [State.lookup_names_bindNext, h.kept name slot hold]
    rfl
  unbound := by
    intro name hnone
    have hlookup : (st.bindNext o.param).names.lookup name = none := hnone
    rw [State.lookup_names_bindNext, Option.or_eq_none_iff] at hlookup
    have hother : ¬ o.param.name = some name := by
      intro heq
      rw [if_pos heq] at hlookup
      cases hlookup.2
    rw [firstBound_concat_placeholder, h.unbound name hlookup.1, if_neg hother]
    rfl
  added := by
    intro name slot hnone hsome
    have hlookup : (st.bindNext o.param).names.lookup name = some slot := hsome
    rw [State.lookup_names_bindNext, Option.or_eq_some_iff] at hlookup
    rw [firstBound_concat_placeholder]
    rcases hlookup with hbound | ⟨hfree, hnew⟩
    · obtain ⟨first, hfirst, hvalue⟩ := h.added name slot hnone hbound
      exact ⟨first, by rw [hfirst]; rfl, State.getElem?_params_bindNext hvalue⟩
    · -- the name is new, and none of its occurrences has been bound before
      obtain ⟨hname, hslot⟩ := Option.ite_none_right_eq_some.1 hnew
      cases hslot
      refine ⟨o, by rw [h.unbound name hfree, if_pos hname]; rfl, ?_⟩
      show (st.params ++ [o.param.value])[st.params.length + 1 - 1]? = _
      simp

end State.Grows

/-- Every run only adds to a state. -/
theorem Configuration.upholds_grows (cfg : Configuration) (old : State) :
    cfg.Upholds (fun st => ∃ new, old.Grows st new) (fun _ => True) (fun _ => True) where
  congr := fun ⟨new, h⟩ hledger _ => ⟨new, h.congr hledger⟩
  write := fun hx ⟨new, h⟩ => ⟨new ++ [_], h.write hx⟩
  share := fun _ _ hslot ⟨new, h⟩ => ⟨new ++ [_], h.share hslot⟩
  opens := fun _ _ ⟨new, h⟩ => ⟨new ++ [_], h.opens _⟩
  note := fun _ ⟨new, h⟩ => ⟨new, h.congr rfl⟩
  conflict := fun _ _ _ => trivial
  noLiteral := fun _ _ => trivial
  refusal := fun _ _ => trivial

/-! ## Where parameters are placed -/

/-- What is read off the state behind a run, if the run ends well. -/
def Run.behind {β : Type} (run : Run Unit) (read : State → List β) (st : State) : List β :=
  match run st with
  | .ok _ st' => read st'
  | .error _ _ => []

mutual

/-- The parameters that an action comes to place, each with the state in which it does. Those in a
body that is attempted are among them, whether or not the body fails behind them. -/
def Action.placings (cfg : Configuration) : Action → State → List (Param × State)
  | .bind p, st => [(p, st)]
  | .visit part body, st =>
    (cfg.notify .visitStart (some part)).behind (fun st =>
      ((part.tags st.modes).forM (cfg.start (some part))).behind
        (fun st => Script.placings cfg body st) st) st
  | .within c body, st => (cfg.start none c).behind (fun st => Script.placings cfg body st) st
  | .switch mode on body, st =>
    Script.placings cfg body { st with modes := st.modes.switch mode on }
  | .assume type body, st => Script.placings cfg body { st with modes := st.modes.assume type }
  | .whenOn mode body, st => if st.modes.isOn mode then Script.placings cfg body st else []
  | .attempt _ body, st => Script.placings cfg body st
  | _, _ => []

/-- The parameters that a script comes to place, each with the state in which it does. -/
def Script.placings (cfg : Configuration) : List Action → State → List (Param × State)
  | [], _ => []
  | a :: as, st =>
    a.placings cfg st ++ (a.perform cfg).behind (fun st => Script.placings cfg as st) st

end

namespace Run

variable {β : Type} {run : Run Unit} {read : State → List β} {st : State}

/-- A run that keeps an invariant ends with it. -/
theorem Maintains.final {α : Type} {I : State → Prop} {E : RenderError → Prop} {run : Run α}
    (h : Maintains I E run) (hst : I st) : I (run.final st) := by
  have hends := h st hst
  unfold EndsIn at hends
  unfold Run.final
  cases hrun : run st with
  | ok a st' =>
    rw [hrun] at hends
    exact hends
  | error e st' =>
    rw [hrun] at hends
    exact hends.1

/-- What is read behind a run is read in a state that keeps what the run keeps. -/
theorem Maintains.forall_behind {I : State → Prop} {E : RenderError → Prop} {P : β → Prop}
    (h : Maintains I E run) (hst : I st) (hread : ∀ st, I st → ∀ b ∈ read st, P b) :
    ∀ b ∈ run.behind read st, P b := by
  have hends := h st hst
  unfold EndsIn at hends
  unfold behind
  cases hrun : run st with
  | ok a st' =>
    rw [hrun] at hends
    exact hread st' hends
  | error e st' =>
    intro b hb
    cases hb

end Run

section

variable (cfg : Configuration)

theorem Action.maintains_pointed (a : Action) :
    Maintains State.Pointed (fun _ => True) (a.perform cfg) :=
  Action.maintains cfg.upholds_pointed a fun b _ => by cases b <;> trivial

mutual

/-- Wherever an action comes to place a parameter, names lead to slots that are there. -/
theorem Action.pointed_of_placing : ∀ (a : Action) {st : State}, st.Pointed →
    ∀ x ∈ a.placings cfg st, x.2.Pointed
  | .bind p, st, hst => by
    intro x hx
    cases List.mem_singleton.1 hx
    exact hst
  | .visit part body, st, hst => by
    refine (cfg.upholds_pointed.notify _ _).forall_behind hst fun st₁ hst₁ => ?_
    refine (maintains_forM (cfg.upholds_pointed.start _) _).forall_behind hst₁ fun st₂ hst₂ => ?_
    exact Script.pointed_of_placing body hst₂
  | .within c body, st, hst =>
    (cfg.upholds_pointed.start _ _).forall_behind hst fun _ hst₁ =>
      Script.pointed_of_placing body hst₁
  | .switch mode on body, st, hst | .assume type body, st, hst =>
    Script.pointed_of_placing body hst
  | .whenOn mode body, st, hst => by
    rw [Action.placings]
    split
    · exact Script.pointed_of_placing body hst
    · intro x hx
      cases hx
  | .attempt _ body, st, hst => Script.pointed_of_placing body hst
  | .text _, _, _ | .keyword _, _, _ | .ident _, _, _ | .literal _ _, _, _ | .fail _, _, _
  | .note _ _, _, _ => fun _ hx => nomatch hx

/-- Wherever a script comes to place a parameter, names lead to slots that are there. -/
theorem Script.pointed_of_placing : ∀ (as : List Action) {st : State}, st.Pointed →
    ∀ x ∈ Script.placings cfg as st, x.2.Pointed
  | [], _, _ => fun _ hx => nomatch hx
  | a :: as, st, hst => by
    intro x hx
    rw [Script.placings, List.mem_append] at hx
    rcases hx with hx | hx
    · exact Action.pointed_of_placing a hst x hx
    · have hbehind : ∀ x ∈ (a.perform cfg).behind (fun st => Script.placings cfg as st) st,
          x.2.Pointed :=
        (Action.maintains_pointed cfg a).forall_behind hst fun _ hst₁ =>
          Script.pointed_of_placing as hst₁
      exact hbehind x hx

end

end

/-! ### Values are bound where parameters are placed -/

namespace Run

variable {run next : Run Unit} {st : State} {placed : List (Param × State)}
  {read : State → List (Param × State)}

/-- A run binds values of parameters that are placed, in order. -/
def BindsAmong (run : Run Unit) (st : State) (placed : List (Param × State)) : Prop :=
  ∃ vs, (run.final st).params = st.params ++ vs ∧ vs.Sublist (placed.map fun x => x.1.value)

/-- What is bound depends only on how the run ends from this state. -/
theorem BindsAmong.congr {run' : Run Unit} (h : run'.BindsAmong st placed)
    (heq : run st = run' st) : run.BindsAmong st placed := by
  unfold BindsAmong final at *
  rwa [heq]

theorem BindsAmong.of_keeps (h : Keeps State.params run) : run.BindsAmong st placed :=
  ⟨[], by rw [h st, List.append_nil], List.nil_sublist _⟩

theorem BindsAmong.bind (h : run.BindsAmong st placed)
    (hnext : ∀ st, next.BindsAmong st (read st)) :
    (run >>= fun _ => next).BindsAmong st (placed ++ run.behind read st) := by
  obtain ⟨vs, hvs, hsub⟩ := h
  unfold behind
  unfold BindsAmong at hnext ⊢
  simp only [final, Bind.bind, EStateM.bind, List.map_append] at hvs hnext ⊢
  cases hrun : run st with
  | error e st₁ =>
    rw [hrun] at hvs
    exact ⟨vs, hvs, hsub.trans (List.sublist_append_left _ _)⟩
  | ok a st₁ =>
    rw [hrun] at hvs
    obtain ⟨vs', hvs', hsub'⟩ := hnext st₁
    refine ⟨vs ++ vs', ?_, hsub.append hsub'⟩
    rw [hvs', show st₁.params = st.params ++ vs from hvs, List.append_assoc]

/-- What binds nothing itself binds what is bound behind it. -/
theorem BindsAmong.behind_keeps (h : Keeps State.params run)
    (hnext : ∀ st, next.BindsAmong st (read st)) :
    (run >>= fun _ => next).BindsAmong st (run.behind read st) := by
  have hrun : run.BindsAmong st [] := of_keeps h
  exact hrun.bind hnext

/-- What binds nothing may stand behind. -/
theorem BindsAmong.bind_keeps (h : run.BindsAmong st placed) (hnext : Keeps State.params next) :
    (run >>= fun _ => next).BindsAmong st placed := by
  let none : State → List (Param × State) := fun _ => []
  have hbind : (run >>= fun _ => next).BindsAmong st (placed ++ run.behind none st) :=
    h.bind fun _ => of_keeps hnext
  have hnone : run.behind none st = [] := by
    unfold behind
    cases run st <;> rfl
  rwa [hnone, List.append_nil] at hbind

end Run

section

variable (cfg : Configuration)

theorem Configuration.keeps_params_notify (kind : EventKind) (part : Option Part) :
    Keeps State.params (cfg.notify kind part) :=
  cfg.keeps_notify (fun _ _ => rfl) kind part

theorem Configuration.keeps_params_start (part : Option Part) (c : Clause) :
    Keeps State.params (cfg.start part c) := by
  refine Keeps.bind ?_ fun _ => cfg.keeps_params_notify _ _
  exact keeps_modify fun _ => rfl

theorem Configuration.keeps_params_close (part : Option Part) (c : Clause) :
    Keeps State.params (cfg.close part c) := by
  apply (cfg.keeps_params_notify .clauseEnd part).bind
  intro _
  exact keeps_modify fun _ => rfl

/-- A parameter that is placed binds its value or none. -/
theorem Configuration.bindsAmong_place (o : Occurrence) {p : Param} (hp : o.param = p)
    (st st' : State) : (cfg.place o).BindsAmong st [(p, st')] := by
  subst hp
  have heq := cfg.place_eq o st
  cases hconflict : st.conflict? o.param with
  | some name =>
    rw [hconflict] at heq
    exact (BindsAmong.of_keeps (keeps_throw _)).congr heq
  | none =>
    rw [hconflict] at heq
    dsimp only at heq
    split at heq
    · exact (BindsAmong.of_keeps (cfg.keeps_literal (fun _ _ => rfl) o)).congr heq
    · refine BindsAmong.congr ?_ heq
      -- a placeholder shares a slot or opens one
      have hshare : ∀ slot, (Run.write (.placeholder slot o)).BindsAmong st [(o.param, st')] :=
        fun slot => .of_keeps (keeps_modify fun _ => rfl)
      have hopen : BindsAmong (do
          modify fun st => st.bindNext o.param
          Run.write (.placeholder (st.params.length + 1) o)) st [(o.param, st')] :=
        ⟨[o.param.value], rfl, List.Sublist.refl _⟩
      unfold placeholder
      refine BindsAmong.congr ?_ (get_bind_apply _ st)
      split
      · exact hshare _
      · exact hopen

mutual

/-- **Values are bound where parameters are placed**, and nowhere else. -/
theorem Action.bindsAmong : ∀ (a : Action) (st : State),
    (a.perform cfg).BindsAmong st (a.placings cfg st)
  | .text _, _ | .keyword _, _ | .ident _, _ => by
    simp only [Action.perform]
    exact .of_keeps (keeps_modify fun _ => rfl)
  | .bind p, st => by
    simp only [Action.perform]
    exact cfg.bindsAmong_place (p.occurrence st.modes) rfl st st
  | .literal _ _, _ => by
    simp only [Action.perform]
    exact .of_keeps (cfg.keeps_literal (fun _ _ => rfl) _)
  | .visit part body, st => by
    simp only [Action.perform]
    refine BindsAmong.behind_keeps (cfg.keeps_params_notify _ _) fun st₁ => ?_
    -- the tags are those that the part has in the state that the first event left
    have hstart : Keeps State.params ((part.tags st₁.modes).forM (cfg.start (some part))) :=
      keeps_forM (cfg.keeps_params_start _) _
    refine BindsAmong.behind_keeps hstart fun st₂ => ?_
    refine (Script.bindsAmong body st₂).bind_keeps ?_
    exact (keeps_forM (cfg.keeps_params_close _) _).bind fun _ => cfg.keeps_params_notify _ _
  | .within c body, st => by
    simp only [Action.perform]
    refine BindsAmong.behind_keeps (cfg.keeps_params_start _ _) fun st₁ => ?_
    exact (Script.bindsAmong body st₁).bind_keeps (cfg.keeps_params_close _ _)
  | .switch mode on body, st | .assume type body, st => by
    simp only [Action.perform]
    unfold BindsAmong
    rw [final_under]
    exact Script.bindsAmong body _
  | .whenOn mode body, st => by
    simp only [Action.perform, Action.placings]
    refine BindsAmong.congr ?_ (get_bind_apply _ st)
    split
    · exact Script.bindsAmong body st
    · exact .of_keeps (keeps_pure ())
  | .fail e, _ => by
    simp only [Action.perform]
    exact .of_keeps (keeps_throw e)
  | .attempt step body, st => by
    obtain ⟨vs, hvs, hsub⟩ := Script.bindsAmong body st
    refine ⟨vs, ?_, hsub⟩
    rw [← hvs]
    -- the attempt ends in the state that its body ends in, and notes it
    simp only [Action.perform, final, Bind.bind, EStateM.bind, outcome]
    cases Script.perform cfg body st <;> rfl
  | .note step reading, _ => by
    simp only [Action.perform]
    exact .of_keeps (keeps_get.bind fun _ => keeps_modify fun _ => rfl)

/-- Values are bound where parameters are placed. -/
theorem Script.bindsAmong : ∀ (as : List Action) (st : State),
    (Script.perform cfg as).BindsAmong st (Script.placings cfg as st)
  | [], _ => by
    simp only [Script.perform]
    exact .of_keeps (keeps_pure ())
  | a :: as, st => by
    simp only [Script.perform, Script.placings]
    exact (Action.bindsAmong a st).bind fun st₁ => Script.bindsAmong as st₁

end

end

/-! ## Visits -/

namespace Configuration

variable (cfg : Configuration)

/-- **A visit only appends, and restores the modes.** Let a part be visited in a state whose names
lead to slots that are there. However the visit ends, and whatever it attempts, the modes are
restored. The text and the values are those that there were, and more behind them; the values that
are added are those of parameters that were placed, in order. Names that were bound keep their slot.
All names lead to slots that are there, and one that was added to the value of its first occurrence
that was bound. Wherever a parameter is placed on the way, its name finds a value in its slot. -/
theorem visit_only_appends (part : Part) {st : State} (hst : st.Pointed) :
    let visit := part.visit cfg.settings.dialect
    let st' := (visit.perform cfg).final st
    st'.modes = st.modes ∧
    (∃ new, st'.out = st.out ++ new ∧
      textOf cfg.settings st'.out = textOf cfg.settings st.out ++ textOf cfg.settings new ∧
      ∀ name slot, st.names.lookup name = none → st'.names.lookup name = some slot →
        ∃ o, firstBound name new = some o ∧ st'.params[slot - 1]? = some o.param.value) ∧
    (∃ values, st'.params = st.params ++ values ∧
      values.Sublist ((visit.placings cfg st).map fun x => x.1.value)) ∧
    (∀ name slot, st.names.lookup name = some slot → st'.names.lookup name = some slot) ∧
    (∀ name slot, st'.names.lookup name = some slot → 1 ≤ slot ∧ slot ≤ st'.params.length) ∧
    ∀ x ∈ visit.placings cfg st, ∀ slot, x.2.slotOf? x.1 = some slot →
      1 ≤ slot ∧ ∃ v, x.2.params[slot - 1]? = some v := by
  intro visit st'
  obtain ⟨new, hgrows⟩ : ∃ new, st.Grows st' new := by
    have hmaintains := Action.maintains (cfg.upholds_grows st) visit
      (fun b _ => by cases b <;> trivial)
    exact hmaintains.final ⟨[], .refl st⟩
  refine ⟨Action.keeps_modes cfg visit st, ⟨new, hgrows.out_eq, ?_, hgrows.added⟩,
    Action.bindsAmong cfg visit st, hgrows.kept, ?_, ?_⟩
  · rw [hgrows.out_eq, textOf_append]
  · exact (Action.maintains_pointed cfg visit).final hst
  · intro x hx slot hslot
    exact (Action.pointed_of_placing cfg visit hst x hx).exists_value hslot

/-- A caller's part binds `y`, fails, goes on and binds `y` again, in a state that has `x` bound. -/
theorem visit_only_appends_attempt :
    let cfg : Configuration := { settings := { dialect := .postgres } }
    let y : Param := { value := .int 7, name := some "y" }
    let part : Part := .custom [.select] [.attempt [.bind y, .failEmpty .fieldRow], .bind y]
    let st : State :=
      { modes := { declareFields := true }, params := [.int 5], names := [("x", 1)] }
    let st' := ((part.visit .postgres).perform cfg).final st
    st.Pointed ∧ st'.modes = st.modes ∧ st'.names.lookup "x" = some 1 ∧
      st'.names.lookup "y" = some 2 ∧ st'.params = [.int 5, .int 7] ∧
      textOf cfg.settings st'.out = "$2$2" ∧
      ((part.visit .postgres).placings cfg st).length = 2 := by
  intro cfg y part st st'
  have hst : st.Pointed := by
    intro name slot hlookup
    by_cases hname : name = "x"
    · subst hname
      cases hlookup
      decide
    · have hne : (name == "x") = false := by simpa using hname
      simp [st, List.lookup_cons, hne] at hlookup
  obtain ⟨hmodes, -, -, hkept, -, -⟩ := cfg.visit_only_appends part hst
  exact ⟨hst, hmodes, hkept "x" 1 rfl, by decide +kernel, by decide +kernel, by decide +kernel,
    by decide +kernel⟩

end Configuration

end SqlRender
