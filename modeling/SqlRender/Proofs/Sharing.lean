import SqlRender.Proofs.Binding
import SqlRender.Proofs.Failures
import SqlRender.Proofs.Invariants

/-!
# What occurrences that share a slot send

Occurrences of one name share a slot where placeholders are numbered, so the backend is sent one
value for all of them. Whether an occurrence may share the slot is decided by agreement of numbers,
which differs from identity of values at two points:

```text
occurrence        value in the slot      agree     identical
x = 7             7                      yes       yes
x = -0            0                      yes       no           0 is sent for -0
x = NaN           NaN                    no        yes          a conflict is reported
```

These are the only two points. `State.Served` is kept by every run: the slot of a placeholder holds
the value of its occurrence, or the other zero. And copies of a value that is no NaN are never in
conflict (`State.Carries`).
-/

namespace SqlRender

/-! ## Values -/

/-- Whether a value is one of the two zeros of floating point numbers. -/
def Value.isZero : Value → Bool
  | .float x => x.isZero
  | _ => false

/-- Values that are the same, or zeros that may differ in their sign. -/
def Value.SameButZeros (v w : Value) : Prop := v = w ∨ v.isZero = true ∧ w.isZero = true

namespace Value.SameButZeros

variable {u v w : Value}

theorem refl (v : Value) : SameButZeros v v := .inl rfl

theorem symm (h : SameButZeros v w) : SameButZeros w v := h.imp Eq.symm And.symm

theorem trans (h : SameButZeros u v) (h' : SameButZeros v w) : SameButZeros u w := by
  rcases h with rfl | ⟨hu, hv⟩
  · exact h'
  · rcases h' with rfl | ⟨-, hw⟩
    · exact .inr ⟨hu, hv⟩
    · exact .inr ⟨hu, hw⟩

/-- Values that agree are the same but for zeros. -/
theorem of_agrees (h : v.agrees w = true) : SameButZeros v w := by
  cases v with
  | float x =>
    cases w with
    | float y =>
      obtain ⟨-, -, heq⟩ := Double.agrees_iff.1 h
      exact heq.imp (congrArg Value.float) id
    | _ => simp [agrees] at h
  | _ => exact .inl (by simpa [agrees] using h)

end Value.SameButZeros

/-! ## Slots and placeholders -/

namespace State

variable {st : State} {p : Param}

/-- A parameter that is in no conflict finds a value in the slot of its name that agrees with its
own. -/
theorem exists_agrees_of_slotOf? {slot : Nat} (hconflict : st.conflict? p = none)
    (hslot : st.slotOf? p = some slot) :
    ∃ w, st.params[slot - 1]? = some w ∧ w.agrees p.value = true := by
  obtain ⟨name, hname, hlookup⟩ := Option.bind_eq_some_iff.1 hslot
  rw [conflict?, hname, Option.filter_eq_none_iff] at hconflict
  have hagrees := hconflict name rfl
  rw [hlookup] at hagrees
  simpa [Option.any_eq_true] using hagrees

/-- The slot of every placeholder holds the value of its occurrence, or the other zero. -/
def Served (st : State) : Prop :=
  ∀ slot o, Segment.placeholder slot o ∈ st.out →
    ∃ w, st.params[slot - 1]? = some w ∧ w.SameButZeros o.param.value

/-- The slots that have a value keep it when the next one is opened. -/
theorem getElem?_params_bindNext {i : Nat} {w : Value} (h : st.params[i]? = some w) :
    (st.bindNext p).params[i]? = some w := by
  have hi : i < st.params.length := (List.getElem?_eq_some_iff.1 h).1
  show (st.params ++ [p.value])[i]? = some w
  rw [List.getElem?_append_left hi, h]

/-- A name leads where it led when the next slot is opened, or to this slot if it is new. -/
theorem lookup_bindNext {name : String} {slot : Nat}
    (h : (st.bindNext p).names.lookup name = some slot) :
    st.names.lookup name = some slot ∨ p.name = some name ∧ slot = st.params.length + 1 := by
  unfold bindNext at h
  cases hp : p.name with
  | none =>
    rw [hp] at h
    exact .inl h
  | some own =>
    simp only [hp] at h
    split at h
    · exact .inl h
    · rw [List.lookup_append, Option.or_eq_some_iff] at h
      rcases h with h | ⟨-, h⟩
      · exact .inl h
      · by_cases heq : name = own
        · subst heq
          rw [List.lookup_cons_self] at h
          exact .inr ⟨rfl, (Option.some.inj h).symm⟩
        · have hne : (name == own) = false := by simpa using heq
          rw [List.lookup_cons, hne] at h
          cases h

/-- A name leads to this value if it is bound, and no conflict about the name has been noted. -/
structure Carries (name : String) (v : Value) (st : State) : Prop where
  bound : ∀ slot, st.names.lookup name = some slot → st.params[slot - 1]? = some v
  noted : ∀ entry ∈ st.journal, ∀ inner,
    entry.finding ≠ .ended (some (.paramConflict name inner))

end State

open Run

namespace Configuration

variable (cfg : Configuration)

/-- No run gives a placeholder the slot of another value. -/
theorem upholds_served : cfg.Upholds State.Served (fun _ => True) (fun _ => True) where
  congr := by
    intro st st' hst hledger _ slot o hmem
    simp only [State.ledger, Prod.mk.injEq] at hledger
    rw [hledger.1] at hmem
    rw [hledger.2.1]
    exact hst slot o hmem
  write := by
    intro st x hx hst slot o hmem
    rcases List.mem_append.1 hmem with hmem | hmem
    · exact hst slot o hmem
    · cases List.mem_singleton.1 hmem
      cases hx
  share := by
    intro st o slot _ hconflict hslot hst slot' o' hmem
    rcases List.mem_append.1 hmem with hmem | hmem
    · exact hst slot' o' hmem
    · cases List.mem_singleton.1 hmem
      obtain ⟨w, hw, hagrees⟩ := State.exists_agrees_of_slotOf? hconflict hslot
      exact ⟨w, hw, .of_agrees hagrees⟩
  opens := by
    intro st o _ _ hst slot o' hmem
    rcases List.mem_append.1 hmem with hmem | hmem
    · obtain ⟨w, hw, hsame⟩ := hst slot o' hmem
      exact ⟨w, State.getElem?_params_bindNext hw, hsame⟩
    · cases List.mem_singleton.1 hmem
      exact ⟨o.param.value, by simp [State.bindNext], .refl _⟩
  note := fun _ hst => hst
  conflict := fun _ _ _ => trivial
  noLiteral := fun _ _ => trivial
  refusal := fun _ _ => trivial

/-- If a name is given to copies of one value alone, and this is no NaN, then no run reports a
conflict about the name. -/
theorem upholds_carries (name : String) {v : Value} (hv : v.isNaN = false) :
    cfg.Upholds (State.Carries name v) (fun e => ∀ inner, e ≠ .paramConflict name inner)
      (fun p => p.name = some name → p.value = v) where
  congr := by
    intro st st' hst hledger hjournal
    simp only [State.ledger, Prod.mk.injEq] at hledger
    obtain ⟨-, hparams, hnames⟩ := hledger
    constructor
    · rw [hparams, hnames]
      exact hst.bound
    · rw [hjournal]
      exact hst.noted
  write := fun _ hst => ⟨hst.bound, hst.noted⟩
  share := fun _ _ _ hst => ⟨hst.bound, hst.noted⟩
  opens := by
    intro st o hp _ hst
    refine ⟨fun slot hslot => ?_, hst.noted⟩
    rcases State.lookup_bindNext hslot with hold | ⟨hname, rfl⟩
    · exact State.getElem?_params_bindNext (hst.bound slot hold)
    · show (st.params ++ [o.param.value])[st.params.length + 1 - 1]? = some v
      rw [hp hname]
      simp
  note := by
    intro st step finding he hst
    refine ⟨hst.bound, fun entry hentry inner heq => ?_⟩
    rcases List.mem_append.1 hentry with hentry | hentry
    · exact hst.noted entry hentry inner heq
    · cases List.mem_singleton.1 hentry
      exact he _ heq inner rfl
  conflict := by
    intro st p reported hp hconflict hst inner heq
    cases heq
    -- the value in the slot of the name is the value of the parameter, so the two agree
    obtain ⟨hname, hany⟩ := Option.filter_eq_some_iff.1 hconflict
    obtain ⟨slot, hslot, hdisagrees⟩ := (Option.any_eq_true _ _).1 hany
    rw [hst.bound slot hslot, hp hname] at hdisagrees
    simp [Value.agrees_self hv] at hdisagrees
  noLiteral := fun _ _ _ heq => nomatch heq
  refusal := fun _ _ _ heq => nomatch heq

end Configuration

/-! ## Renders -/

/-- The parameter that an action writes, if it writes one. -/
def Action.bound? : Action → Option Param
  | .bind p => some p
  | _ => none

/-- The parameters in the script of a part, on whatever way its modes and its attempts take. -/
def Part.allParameters (d : Dialect) (p : Part) : List Param :=
  (p.visit d).atoms.filterMap Action.bound?

namespace Configuration

variable (cfg : Configuration) {I : State → Prop} {E : RenderError → Prop} {P : Param → Prop}

/-- A render ends in a state with the invariant, and fails if at all as the invariant allows. -/
theorem Upholds.render {cfg : Configuration} (h : cfg.Upholds I E P) (part : Part) (modes : Modes)
    (past : List Notice) (hstart : I { modes, notices := past })
    (hcheck : ∀ e : RenderError, e.isCheck = true → E e)
    (hP : ∀ p ∈ part.allParameters cfg.settings.dialect, P p) :
    let report := cfg.render part modes past
    ∃ st, I st ∧ report.out = st.out ∧ report.journal = st.journal ∧
      (∀ e, report.result = .error e → E e) ∧
      ∀ r, report.result = .ok r → r.params = st.params := by
  intro report
  have hvisit : Maintains I E ((part.visit cfg.settings.dialect).perform cfg) := by
    refine Action.maintains h _ fun b hb => ?_
    cases b with
    | bind p => exact hP p (List.mem_filterMap.2 ⟨_, hb, rfl⟩)
    | fail e => exact hcheck e (Part.isCheck_of_atom _ part hb)
    | _ => trivial
  have hrun := hvisit _ hstart
  unfold report Configuration.render Configuration.run
  unfold EndsIn at hrun
  cases hst : (part.visit cfg.settings.dialect).perform cfg { modes, notices := past } with
  | ok a st =>
    rw [hst] at hrun
    refine ⟨st, hrun, rfl, rfl, fun e he => (nomatch he), fun r hr => ?_⟩
    cases hr
    rfl
  | error e st =>
    rw [hst] at hrun
    refine ⟨st, hrun.1, rfl, rfl, fun e' he => ?_, fun r hr => (nomatch hr)⟩
    cases he
    exact hrun.2

/-- **Sharing sends what the occurrences carry, but for the sign of a zero; and copies of a value
that is no NaN are not in conflict.** If every parameter of a name carries the same value, and this
is no NaN, then no conflict about the name is reported, be it as the error of the render or as one
that a caller's part went on behind. And in a render that ends well, whatever it does, the value in
the slot of a placeholder is that of its occurrence, or the other zero; so the same holds of the
values of two occurrences that share a slot. -/
theorem sharing_keeps_values (part : Part) (modes : Modes) (past : List Notice) :
    let report := cfg.render part modes past
    (∀ name v, v.isNaN = false →
      (∀ p ∈ part.allParameters cfg.settings.dialect, p.name = some name → p.value = v) →
      (∀ inner, report.result ≠ .error (.paramConflict name inner)) ∧
      ∀ entry ∈ report.journal, ∀ inner,
        entry.finding ≠ .ended (some (.paramConflict name inner))) ∧
    (∀ r, report.result = .ok r → ∀ slot o, Segment.placeholder slot o ∈ report.out →
      (∃ w, r.params[slot - 1]? = some w ∧ w.SameButZeros o.param.value) ∧
      ∀ o', Segment.placeholder slot o' ∈ report.out →
        o.param.value.SameButZeros o'.param.value) := by
  intro report
  constructor
  · intro name v hv hcopies
    have hcheck : ∀ e : RenderError, e.isCheck = true → ∀ inner, e ≠ .paramConflict name inner := by
      rintro e he inner rfl
      cases he
    have hstart : State.Carries name v { modes, notices := past } :=
      ⟨fun _ hslot => (nomatch hslot), fun _ hentry => (nomatch hentry)⟩
    obtain ⟨st, hst, -, hjournal, hfail, -⟩ :=
      (cfg.upholds_carries name hv).render part modes past hstart hcheck hcopies
    refine ⟨fun inner hresult => hfail _ hresult inner rfl, fun entry hentry => ?_⟩
    rw [hjournal] at hentry
    exact hst.noted entry hentry
  · have hstart : State.Served { modes, notices := past } := fun _ _ hmem => nomatch hmem
    obtain ⟨st, hst, hout, -, -, hok⟩ := cfg.upholds_served.render part modes past hstart
      (fun _ _ => trivial) (fun _ _ => trivial)
    intro r hr slot o ho
    rw [hout] at ho ⊢
    rw [hok r hr]
    obtain ⟨w, hw, hsame⟩ := hst slot o ho
    refine ⟨⟨w, hw, hsame⟩, fun o' ho' => ?_⟩
    obtain ⟨w', hw', hsame'⟩ := hst slot o' ho'
    rw [hw] at hw'
    cases hw'
    exact hsame.symm.trans hsame'

/-- The value of a name twice, at first where it is attempted and then where it is not. -/
theorem sharing_keeps_values_attempted :
    let x : Param := { value := .float ⟨0x8000000000000000⟩, name := some "x" }
    let part : Part := .custom [] [.attempt [.bind x, .failEmpty .fieldRow], .write ", ", .bind x]
    let cfg : Configuration := { settings := { dialect := .postgres } }
    let report := cfg.render part {} []
    x.value.isNaN = false ∧
    (∀ p ∈ part.allParameters .postgres, p.name = some "x" → p.value = x.value) ∧
    (∀ inner, report.result ≠ .error (.paramConflict "x" inner)) ∧
    report.result = .ok ⟨"$1, $1", [x.value]⟩ ∧
    Segment.placeholder 1 ⟨x, none⟩ ∈ report.out ∧
    ∃ w, [x.value][1 - 1]? = some w ∧ w.SameButZeros x.value := by
  intro x part cfg report
  have hvalue : x.value.isNaN = false := by decide +kernel
  have hcopies : ∀ p ∈ part.allParameters .postgres, p.name = some "x" → p.value = x.value := by
    have hall : part.allParameters .postgres = [x, x] := by decide +kernel
    intro p hp _
    rw [hall] at hp
    have heq : p = x := by simpa using hp
    rw [heq]
  have hok : report.result = .ok ⟨"$1, $1", [x.value]⟩ := Report.result_eq_ok (by decide +kernel)
  have hmem : Segment.placeholder 1 ⟨x, none⟩ ∈ report.out := by decide +kernel
  obtain ⟨hcalm, hserved⟩ := cfg.sharing_keeps_values part {} []
  exact ⟨hvalue, hcopies, (hcalm "x" x.value hvalue hcopies).1, hok, hmem,
    (hserved _ hok 1 _ hmem).1⟩

/-- Two copies of a NaN under one name are in conflict; and `-0` shares the slot of `0`, so that `0`
is sent for both. -/
theorem agreement_is_not_identity :
    let x (bits : UInt64) : Field := .value { value := .float ⟨bits⟩, name := some "x" }
    let equation (left right : UInt64) : Part := .condition (.comparison (x left) .eq (x right))
    SqlRender.render .postgres (equation 0x7FF8000000000000 0x7FF8000000000000) =
      .error (.paramConflict "x" (some .fieldValue)) ∧
    SqlRender.render .postgres (equation 0 0x8000000000000000) =
      .ok ⟨"$1 = $1", [.float ⟨0⟩]⟩ ∧
    Value.float ⟨0⟩ ≠ .float ⟨0x8000000000000000⟩ := by
  intro x equation
  refine ⟨Report.result_eq_error ?_, Report.result_eq_ok ?_, ?_⟩
  all_goals decide +kernel

end Configuration

end SqlRender
