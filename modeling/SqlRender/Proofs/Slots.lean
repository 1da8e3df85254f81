import SqlRender.Run

/-!
# Slots

The bind values of a render stand in slots, and a name leads to the slot that it was first bound in.
A state keeps the values and the names apart; together they say no more than which parameters have
*opened* a slot, in the order of the slots:

```text
params  [7, 'a', 8]                      opened  [x = 7, 'a', y = 8]
names   [(x, 1), (y, 3)]         ═▸
```

`State.Holds` relates a state to the parameters that have opened its slots, and the lemmas below say
what the operations on parameters find out and change in terms of these.
-/

namespace SqlRender

/-! ## Names -/

/-- Whether a parameter carries a name. -/
def Param.isNamed (name : String) (p : Param) : Bool := p.name == some name

/-- The place of the first parameter of a name. -/
def Param.firstOf (opened : List Param) (name : String) : Option Nat :=
  opened.findIdx? (isNamed name)

/-- Whether the first of the opening parameters that carries the name of `p`, if there is one, has
a value that does not agree with that of `p`. -/
def Param.clashes (opened : List Param) (p : Param) : Bool :=
  p.name.any fun name => (opened.find? (isNamed name)).any fun q => !q.value.agrees p.value

/-- The slot that a parameter goes to, and the parameters that have opened a slot afterwards. Only
where placeholders are numbered can a parameter share the slot of its name. -/
def Capabilities.allot (caps : Capabilities) (opened : List Param) (p : Param) :
    Nat × List Param :=
  match (if caps.numberedPlaceholders then p.name.bind (Param.firstOf opened) else none) with
  | some i => (i + 1, opened)
  | none => (opened.length + 1, opened ++ [p])

theorem Param.find?_eq_getElem? {opened : List Param} {name : String} {i : Nat}
    (h : firstOf opened name = some i) : opened.find? (isNamed name) = opened[i]? := by
  rw [List.find?_eq_bind_findIdx?_getElem?]
  change (firstOf opened name).bind _ = _
  rw [h]
  rfl

theorem Param.find?_eq_none {opened : List Param} {name : String}
    (h : firstOf opened name = none) : opened.find? (isNamed name) = none := by
  rw [List.find?_eq_bind_findIdx?_getElem?]
  change (firstOf opened name).bind _ = _
  rw [h]
  rfl

theorem Param.lt_length_of_firstOf {opened : List Param} {name : String} {i : Nat}
    (h : firstOf opened name = some i) : i < opened.length := by
  obtain ⟨hi, _⟩ := List.findIdx?_eq_some_iff_getElem.1 h
  exact hi

/-- Behind a parameter that opens a slot, a name leads to the slot that it led to, and a new name to
the slot that was opened. -/
theorem Param.firstOf_append (opened : List Param) (p : Param) (name : String) :
    firstOf (opened ++ [p]) name =
      (firstOf opened name <|> if isNamed name p then some opened.length else none) := by
  unfold firstOf
  rw [List.findIdx?_append, List.findIdx?_singleton]
  cases h : opened.findIdx? (isNamed name) <;> cases isNamed name p <;> simp

/-! ## States -/

namespace State

variable {st : State} {opened : List Param}

/-- The slots of a state were opened by these parameters, in this order. -/
structure Holds (st : State) (opened : List Param) : Prop where
  params_eq : st.params = opened.map Param.value
  lookup_eq : ∀ name, st.names.lookup name = (Param.firstOf opened name).map (· + 1)

/-- Nothing is bound at the start. -/
theorem holds_nil (modes : Modes) (past : List Notice) :
    Holds { modes, notices := past } [] :=
  ⟨rfl, fun _ => rfl⟩

theorem Holds.of_eq {st' : State} (h : st.Holds opened) (hparams : st'.params = st.params)
    (hnames : st'.names = st.names) : st'.Holds opened := by
  constructor
  · rw [hparams, h.params_eq]
  · intro name
    rw [hnames, h.lookup_eq]

/-- A parameter finds a slot of its name exactly if a parameter of its name has opened one. -/
theorem Holds.slotOf?_eq (h : st.Holds opened) (p : Param) :
    st.slotOf? p = (p.name.bind (Param.firstOf opened)).map (· + 1) := by
  unfold slotOf?
  cases p.name with
  | none => rfl
  | some name => exact h.lookup_eq name

/-- A parameter is in conflict with the state exactly if it clashes with what has opened a slot. -/
theorem Holds.conflict?_eq_none (h : st.Holds opened) (p : Param) :
    st.conflict? p = none ↔ p.clashes opened = false := by
  unfold conflict? Param.clashes
  cases hp : p.name with
  | none => simp
  | some name =>
    simp only [Option.filter_some, Option.any_some, h.lookup_eq name]
    cases hfirst : Param.firstOf opened name with
    | none =>
      rw [Param.find?_eq_none hfirst]
      simp
    | some i =>
      rw [Param.find?_eq_getElem? hfirst]
      have hi : i < opened.length := Param.lt_length_of_firstOf hfirst
      simp [h.params_eq, hi]

theorem Holds.length_params (h : st.Holds opened) : st.params.length = opened.length := by
  rw [h.params_eq, List.length_map]

/-- A parameter that is bound in the next slot opens it. -/
theorem Holds.bindNext (h : st.Holds opened) (p : Param) :
    (st.bindNext p).Holds (opened ++ [p]) := by
  constructor
  · simp [State.bindNext, h.params_eq]
  · intro name
    rw [Param.firstOf_append]
    unfold State.bindNext
    cases hp : p.name with
    | none => simp [h.lookup_eq name, Param.isNamed, hp]
    | some own =>
      have hown := h.lookup_eq own
      by_cases hname : own = name
      · subst hname
        cases hfirst : Param.firstOf opened own with
        | none =>
          rw [hfirst] at hown
          simp [hown, List.lookup_append, Param.isNamed, hp, h.length_params]
        | some i =>
          rw [hfirst] at hown
          simp [hown]
      · -- another name leads where it led, whether `own` is noted or not
        have hne : (name == own) = false := by simpa using fun e => hname e.symm
        have hrest : Param.isNamed name p = false := by simpa [Param.isNamed, hp] using hname
        have hkept : (if (st.names.lookup own).isSome then st.names
            else st.names ++ [(own, st.params.length + 1)]).lookup name = st.names.lookup name := by
          split
          · rfl
          · simp [List.lookup_append, List.lookup_cons, hne]
        simp only [hrest, hkept, h.lookup_eq name]
        simp

end State

end SqlRender
