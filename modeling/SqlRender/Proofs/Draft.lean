import SqlRender.Proofs.Propagation
import SqlRender.Proofs.Slots
import SqlRender.Render

/-!
# Drafts

What a script writes hardly depends on the state it is performed in. Its *draft* is a list of
strokes: a segment that is written, every parameter as if it stood in place, or an error that the
script raises. The draft is read off the script and the modes at its start.

`settle` turns a draft into what is written in the end. It refuses a parameter that clashes with an
earlier one and a number without a literal, and replaces the parameters that do not stay in place by
placeholders:

```text
script ──draft──▸ [ident "a", keyword " = ", literal x] ──settle──▸ [ident "a", …, placeholder 1 x]
```

`Move.performAll_ok` and `Move.performAll_of_settle` say that a run of a script that attempts
nothing ends well exactly if its draft can be settled, and then writes the settled draft.
-/

namespace SqlRender

/-! ## Drafts of scripts -/

/-- A segment that is written, or an error that is raised. -/
abbrev Stroke := Except RenderError Segment

mutual

/-- The strokes of an action that is performed under given modes. -/
def Action.draft (m : Modes) : Action → List Stroke
  | .text s => [.ok (.text s)]
  | .keyword word => [.ok (.keyword word)]
  | .ident name => [.ok (.ident name)]
  | .bind p => [.ok (.literal (p.occurrence m))]
  | .literal v type => [.ok (.literal ⟨{ value := v, inline := true }, type⟩)]
  | .visit _ body => Script.draft m body
  | .within _ body => Script.draft m body
  | .switch mode on body => Script.draft (m.switch mode on) body
  | .assume type body => Script.draft (m.assume type) body
  | .whenOn mode body => if m.isOn mode then Script.draft m body else []
  | .fail e => [.error e]
  | .attempt _ _ => []
  | .note _ _ => []

/-- The strokes of a script that is performed under given modes. -/
def Script.draft (m : Modes) : List Action → List Stroke
  | [] => []
  | a :: as => a.draft m ++ Script.draft m as

end

namespace Script

variable (m : Modes)

@[simp] theorem draft_nil : Script.draft m [] = [] := rfl

@[simp] theorem draft_cons (a : Action) (as : Script) :
    Script.draft m (a :: as) = a.draft m ++ Script.draft m as := rfl

@[simp] theorem draft_append (as bs : Script) :
    Script.draft m (as ++ bs) = Script.draft m as ++ Script.draft m bs := by
  induction as with
  | nil => rfl
  | cons a as ih => simp only [List.cons_append, draft_cons, ih, List.append_assoc]

end Script

/-- The stroke of a move, if it writes or raises something. -/
def Move.stroke? : Move → Option Stroke
  | ⟨_, .text s⟩ => some (.ok (.text s))
  | ⟨_, .keyword word⟩ => some (.ok (.keyword word))
  | ⟨_, .ident name⟩ => some (.ok (.ident name))
  | ⟨m, .bind p⟩ => some (.ok (.literal (p.occurrence m)))
  | ⟨_, .literal v type⟩ => some (.ok (.literal ⟨{ value := v, inline := true }, type⟩))
  | ⟨_, .fail e⟩ => some (.error e)
  | _ => none

/-- The strokes of moves, in order. -/
def Move.strokes (mvs : List Move) : List Stroke := mvs.filterMap Move.stroke?

@[simp] theorem Move.strokes_nil : Move.strokes [] = [] := rfl

@[simp] theorem Move.strokes_cons (mv : Move) (mvs : List Move) :
    Move.strokes (mv :: mvs) = mv.stroke?.toList ++ Move.strokes mvs := by
  unfold Move.strokes
  cases h : mv.stroke? <;> simp [h]

@[simp] theorem Move.strokes_append (mvs mvs' : List Move) :
    Move.strokes (mvs ++ mvs') = Move.strokes mvs ++ Move.strokes mvs' :=
  List.filterMap_append

/-- Moves that only open or close clauses have no strokes. -/
theorem Move.strokes_map_eq_nil {α : Type} {f : α → Move} (hf : ∀ a, (f a).stroke? = none)
    (as : List α) : Move.strokes (as.map f) = [] := by
  induction as with
  | nil => rfl
  | cons a as ih => simp [hf, ih]

mutual

/-- The draft of an action holds the strokes of its moves. -/
theorem Action.draft_eq_strokes (m : Modes) :
    ∀ a : Action, a.draft m = Move.strokes (a.moves m)
  | .text _ | .keyword _ | .ident _ | .bind _ | .literal _ _ | .fail _ | .attempt _ _
  | .note _ _ => rfl
  | .visit part body => by
    have hstart : Move.strokes ((part.tags m).map fun c => ⟨m, .start (some part) c⟩) = [] :=
      Move.strokes_map_eq_nil (fun _ => rfl) _
    have hclose : Move.strokes ((part.tags m).reverse.map fun c => ⟨m, .close (some part) c⟩) = [] :=
      Move.strokes_map_eq_nil (fun _ => rfl) _
    simp only [Action.draft, Action.moves, Move.strokes_cons, Move.strokes_append, Move.strokes_nil,
      Move.stroke?, hstart, hclose, Script.draft_eq_strokes m body, Option.toList_none,
      List.nil_append, List.append_nil]
  | .within c body => by
    simp [Action.draft, Action.moves, Move.stroke?, Script.draft_eq_strokes m body]
  | .switch _ _ body | .assume _ body => by
    rw [Action.draft, Script.draft_eq_strokes _ body, Action.moves]
  | .whenOn mode body => by
    rw [Action.draft, Script.draft_eq_strokes m body, Action.moves]
    split <;> rfl

/-- The draft of a script holds the strokes of its moves. -/
theorem Script.draft_eq_strokes (m : Modes) :
    ∀ as : List Action, Script.draft m as = Move.strokes (Script.moves m as)
  | [] => rfl
  | a :: as => by
    rw [Script.draft, Script.moves, Move.strokes_append, Action.draft_eq_strokes m a,
      Script.draft_eq_strokes m as]

end

/-! ## Sifting a draft

Questions about a draft that concern its parameters or its errors alone look at some of its strokes
and pass over the others. `Script.sift` collects what a function finds in the strokes of a script;
its equations follow the actions, and separators drop out. -/

section Sift

variable {β : Type} (f : Stroke → Option β) (m : Modes)

/-- What is found in the strokes of an action. -/
def Action.sift (a : Action) : List β := (a.draft m).filterMap f

/-- What is found in the strokes of a script. -/
def Script.sift (as : Script) : List β := (Script.draft m as).filterMap f

namespace Action

variable {f m}

@[simp] theorem sift_text (s : String) : (text s).sift f m = (f (.ok (.text s))).toList := by
  cases h : f (.ok (.text s)) <;> simp [sift, draft, h]

@[simp] theorem sift_keyword (word : String) :
    (keyword word).sift f m = (f (.ok (.keyword word))).toList := by
  cases h : f (.ok (.keyword word)) <;> simp [sift, draft, h]

@[simp] theorem sift_ident (name : String) :
    (ident name).sift f m = (f (.ok (.ident name))).toList := by
  cases h : f (.ok (.ident name)) <;> simp [sift, draft, h]

@[simp] theorem sift_bind (p : Param) :
    (bind p).sift f m = (f (.ok (.literal (p.occurrence m)))).toList := by
  cases h : f (.ok (.literal (p.occurrence m))) <;> simp [sift, draft, h]

@[simp] theorem sift_literal (v : Value) (type : Option DataType) :
    (literal v type).sift f m =
      (f (.ok (.literal ⟨{ value := v, inline := true }, type⟩))).toList := by
  cases h : f (.ok (.literal ⟨{ value := v, inline := true }, type⟩)) <;> simp [sift, draft, h]

@[simp] theorem sift_fail (e : RenderError) : (fail e).sift f m = (f (.error e)).toList := by
  cases h : f (.error e) <;> simp [sift, draft, h]

@[simp] theorem sift_visit (part : Part) (body : Script) :
    (visit part body).sift f m = Script.sift f m body := rfl

@[simp] theorem sift_within (c : Clause) (body : Script) :
    (within c body).sift f m = Script.sift f m body := rfl

@[simp] theorem sift_switch (mode : Mode) (on : Bool) (body : Script) :
    (switch mode on body).sift f m = Script.sift f (m.switch mode on) body := rfl

@[simp] theorem sift_assume (type : Option DataType) (body : Script) :
    (assume type body).sift f m = Script.sift f (m.assume type) body := rfl

@[simp] theorem sift_whenOn (mode : Mode) (body : Script) :
    (whenOn mode body).sift f m = if m.isOn mode then Script.sift f m body else [] := by
  unfold sift Action.draft
  split <;> rfl

@[simp] theorem sift_attempt (step : Step) (body : Script) : (attempt step body).sift f m = [] :=
  rfl

@[simp] theorem sift_note (step : Step) (reading : Reading) :
    (note step reading).sift f m = [] := rfl

end Action

namespace Script

variable {f m}

@[simp] theorem sift_nil : Script.sift f m [] = [] := rfl

@[simp] theorem sift_cons (a : Action) (as : Script) :
    Script.sift f m (a :: as) = a.sift f m ++ Script.sift f m as := by
  simp [Script.sift, Action.sift]

@[simp] theorem sift_append (as bs : Script) :
    Script.sift f m (as ++ bs) = Script.sift f m as ++ Script.sift f m bs := by
  simp [Script.sift]

theorem sift_eq_flatMap (as : Script) : Script.sift f m as = as.flatMap (Action.sift f m) := by
  induction as with
  | nil => rfl
  | cons a as ih => rw [sift_cons, ih, List.flatMap_cons]

theorem sift_flatMap {α : Type} (g : α → Script) (as : List α) :
    Script.sift f m (as.flatMap g) = as.flatMap fun a => Script.sift f m (g a) := by
  induction as with
  | nil => rfl
  | cons a as ih => simp [ih]

/-- What is not found in separators is found in what they separate. -/
theorem sift_intersperse {a : Action} (ha : a.sift f m = []) :
    ∀ as : Script, Script.sift f m (as.intersperse a) = as.flatMap (Action.sift f m)
  | [] => rfl
  | [b] => by simp
  | b :: c :: as => by
    rw [List.intersperse_cons_cons, sift_cons, sift_cons, ha, sift_intersperse ha]
    simp

/-- A question that passes over words finds nothing in text, keywords and identifiers. -/
structure PassesWords (f : Stroke → Option β) : Prop where
  text : ∀ s, f (.ok (.text s)) = none
  keyword : ∀ word, f (.ok (.keyword word)) = none
  ident : ∀ name, f (.ok (.ident name)) = none

variable (hf : PassesWords f)

include hf

theorem sift_separated (separator : String) (as : Script) :
    Script.sift f m (Script.separated separator as) = as.flatMap (Action.sift f m) :=
  sift_intersperse (by simp [hf.keyword]) as

theorem sift_listed (as : Script) :
    Script.sift f m (Script.listed as) = as.flatMap (Action.sift f m) :=
  sift_separated hf ", " as

theorem sift_identList (names : List String) : Script.sift f m (identList names) = [] := by
  have hnames : Script.sift f m ((names.map Action.ident).intersperse (.text ", ")) = [] := by
    rw [sift_intersperse (by simp [hf.text]), List.flatMap_map]
    simp [hf.ident]
  simp [identList, hnames, hf.text]

/-- A connective adds nothing to what is found in its operands. -/
theorem sift_layout (op : Connective) (operands : Script) :
    Script.sift f m (op.layout operands) = Script.sift f m operands := by
  unfold Connective.layout
  split
  · simp [hf.text]
  · rfl
  · rw [sift_append, sift_append, sift_separated hf, ← sift_eq_flatMap]
    simp [hf.text]

theorem sift_ifAny (word : String) (items : Script) :
    Script.sift f m (Script.ifAny word items) = items.flatMap (Action.sift f m) := by
  unfold Script.ifAny
  split
  · next h => rw [List.isEmpty_iff.1 h, sift_nil, List.flatMap_nil]
  · rw [sift_cons, sift_listed hf]
    simp [hf.keyword]

end Script

end Sift

/-! ## Settling a draft -/

/-- Whether a value can be written as a literal, which infinities and NaNs cannot. -/
def Value.hasLiteral : Value → Bool
  | .float x => x.isFinite
  | _ => true

/-- What a stroke becomes behind parameters that have opened slots, and which have opened one
afterwards. There are no placeholders before a draft is settled. -/
def Stroke.settle (s : Settings) (opened : List Param) : Stroke → Option (Segment × List Param)
  | .error _ | .ok (.placeholder _ _) => none
  | .ok (.literal o) =>
    if o.param.clashes opened then none
    else if o.inPlace s then
      if o.param.value.hasLiteral then some (.literal o, opened) else none
    else
      let (slot, opened') := s.capabilities.allot opened o.param
      some (.placeholder slot o, opened')
  | .ok segment => some (segment, opened)

theorem Stroke.settle_literal (s : Settings) (opened : List Param) (o : Occurrence) :
    Stroke.settle s opened (.ok (.literal o)) =
      if o.param.clashes opened then none
      else if o.inPlace s then
        if o.param.value.hasLiteral then some (.literal o, opened) else none
      else some (.placeholder (s.capabilities.allot opened o.param).1 o,
        (s.capabilities.allot opened o.param).2) := rfl

/-- What a draft becomes behind parameters that have opened slots, and which have opened one
afterwards. -/
def settle (s : Settings) : List Param → List Stroke → Option (List Segment × List Param)
  | opened, [] => some ([], opened)
  | opened, x :: xs => do
    let (segment, opened') ← Stroke.settle s opened x
    let (segments, opened'') ← settle s opened' xs
    some (segment :: segments, opened'')

theorem settle_cons_eq_some {s : Settings} {opened opened'' : List Param} {x : Stroke}
    {xs : List Stroke} {segments : List Segment} :
    settle s opened (x :: xs) = some (segments, opened'') ↔
      ∃ segment opened' rest, Stroke.settle s opened x = some (segment, opened') ∧
        settle s opened' xs = some (rest, opened'') ∧ segments = segment :: rest := by
  simp only [settle, Option.bind_eq_bind, Option.bind_eq_some_iff, Prod.exists,
    Option.some.injEq, Prod.mk.injEq]
  constructor
  · rintro ⟨segment, opened', hx, rest, opened₂, hxs, rfl, rfl⟩
    exact ⟨segment, opened', rest, hx, hxs, rfl⟩
  · rintro ⟨segment, opened', rest, hx, hxs, rfl⟩
    exact ⟨segment, opened', hx, rest, opened'', hxs, rfl, rfl⟩

/-! ## Runs settle drafts -/

/-- What has been written and what has been bound. -/
def State.ledger (st : State) : List Segment × List Value × List (String × Nat) :=
  (st.out, st.params, st.names)

theorem State.Holds.of_ledger_eq {st st' : State} {opened : List Param} (h : st.Holds opened)
    (heq : st'.ledger = st.ledger) : st'.Holds opened := by
  simp only [State.ledger, Prod.mk.injEq] at heq
  exact h.of_eq heq.2.1 heq.2.2

/-- The state behind one more segment, with the parameters that have opened a slot by then. -/
structure State.Extends (st st' : State) (segments : List Segment) (opened : List Param) : Prop where
  out_eq : st'.out = st.out ++ segments
  holds : st'.Holds opened

open Run

/-- What reads the state goes on with it. -/
theorem Run.get_bind_apply {α : Type} (next : State → Run α) (st : State) :
    (get >>= next) st = next st st := rfl

namespace Configuration

variable (cfg : Configuration) {st : State} {opened : List Param}

theorem literal_eq_ok {o : Occurrence} (h : o.param.value.hasLiteral = true) (st : State) :
    cfg.literal o st = .ok () { st with out := st.out ++ [.literal o] } := by
  unfold literal
  cases hv : o.param.value with
  | float x =>
    have hx : x.isFinite = true := by rwa [hv] at h
    dsimp only
    rw [if_pos hx]
    rfl
  | _ => rfl

theorem literal_eq_error {o : Occurrence} (h : o.param.value.hasLiteral = false) (st : State) :
    ∃ e, cfg.literal o st = .error e st := by
  unfold literal
  cases hv : o.param.value with
  | float x =>
    rw [hv] at h
    have hx : ¬ x.isFinite = true := by simpa [Value.hasLiteral] using h
    dsimp only
    rw [if_neg hx]
    exact ⟨_, rfl⟩
  | _ => rw [hv] at h; cases h

/-- A placeholder is written for the slot that is allotted. -/
theorem placeholder_eq_ok (hst : st.Holds opened) (o : Occurrence) :
    ∃ st', cfg.placeholder o st = .ok () st' ∧
      st.Extends st' [.placeholder (cfg.settings.capabilities.allot opened o.param).1 o]
        (cfg.settings.capabilities.allot opened o.param).2 := by
  have hnext : st.Extends
      { st.bindNext o.param with out := st.out ++ [.placeholder (st.params.length + 1) o] }
      [.placeholder (opened.length + 1) o] (opened ++ [o.param]) :=
    ⟨by rw [hst.length_params], (hst.bindNext o.param).of_eq rfl rfl⟩
  have hslot := hst.slotOf?_eq o.param
  unfold placeholder Capabilities.allot
  rw [get_bind_apply, hslot]
  cases cfg.settings.capabilities.numberedPlaceholders with
  | false => cases o.param.name.bind (Param.firstOf opened) <;> exact ⟨_, rfl, hnext⟩
  | true =>
    cases o.param.name.bind (Param.firstOf opened) with
    | none => exact ⟨_, rfl, hnext⟩
    | some i => exact ⟨_, rfl, rfl, hst.of_eq rfl rfl⟩

theorem place_eq (o : Occurrence) (st : State) :
    cfg.place o st =
      match st.conflict? o.param with
      | some name => .error (.paramConflict name st.path.getLast?) st
      | none => if o.inPlace cfg.settings then cfg.literal o st else cfg.placeholder o st := by
  unfold place
  rw [get_bind_apply]
  cases st.conflict? o.param with
  | some name => rfl
  | none =>
    dsimp only
    split <;> rfl

/-- An occurrence is placed exactly if its stroke can be settled, and as it is settled. -/
theorem place_settles (hst : st.Holds opened) (o : Occurrence) :
    match Stroke.settle cfg.settings opened (.ok (.literal o)) with
    | none => ∃ e st', cfg.place o st = .error e st'
    | some (segment, opened') =>
      ∃ st', cfg.place o st = .ok () st' ∧ st.Extends st' [segment] opened' := by
  rw [place_eq, Stroke.settle_literal]
  by_cases hclash : o.param.clashes opened = true
  · rw [if_pos hclash]
    -- the state and the openers see the same conflicts
    cases hconf : st.conflict? o.param with
    | none => rw [(hst.conflict?_eq_none _).1 hconf] at hclash; cases hclash
    | some name => exact ⟨_, _, rfl⟩
  · rw [if_neg hclash, (hst.conflict?_eq_none _).2 (by simpa using hclash)]
    by_cases hin : o.inPlace cfg.settings = true
    · simp only [hin, if_true]
      by_cases hlit : o.param.value.hasLiteral = true
      · rw [if_pos hlit]
        exact ⟨_, cfg.literal_eq_ok hlit st, rfl, hst.of_eq rfl rfl⟩
      · rw [if_neg hlit]
        obtain ⟨e, he⟩ := cfg.literal_eq_error (by simpa using hlit) st
        exact ⟨e, st, he⟩
    · simp only [hin]
      exact cfg.placeholder_eq_ok hst o

/-- An event changes nothing of what has been written and bound. -/
theorem keeps_ledger_notify (kind : EventKind) (part : Option Part) :
    Keeps State.ledger (cfg.notify kind part) :=
  cfg.keeps_notify (fun _ _ => rfl) kind part

end Configuration

namespace Move

variable {cfg : Configuration} {st st' : State} {opened opened' : List Param} {mv : Move}

/-- Moves without a stroke leave what has been written and bound as it was. -/
theorem keeps_ledger (hnone : mv.stroke? = none) (hattempt : mv.deed.isAttempt = false) :
    Keeps State.ledger (mv.perform cfg) := by
  obtain ⟨m, deed⟩ := mv
  unfold Move.perform
  refine Keeps.under ?_ (fun _ _ => rfl) _
  cases deed with
  | text | keyword | ident | bind | literal | fail => cases hnone
  | attempt => cases hattempt
  | enter | leave => exact cfg.keeps_ledger_notify _ _
  | start part c =>
    simp only [Deed.perform, Configuration.start]
    refine Keeps.bind ?_ fun _ => cfg.keeps_ledger_notify _ _
    exact keeps_modify fun _ => rfl
  | close part c =>
    simp only [Deed.perform, Configuration.close]
    apply (cfg.keeps_ledger_notify _ _).bind
    intro _
    exact keeps_modify fun _ => rfl
  | note step reading =>
    simp only [Deed.perform, Action.perform]
    exact keeps_get.bind fun _ => keeps_modify fun _ => rfl

variable (cfg) in
/-- A move with a stroke ends well exactly if the stroke can be settled, and writes what it is
settled as. -/
theorem perform_settles {x : Stroke} (hst : st.Holds opened) (hx : mv.stroke? = some x) :
    match x.settle cfg.settings opened with
    | none => ∃ e st', mv.perform cfg st = .error e st'
    | some (segment, opened') =>
      ∃ st', mv.perform cfg st = .ok () st' ∧ st.Extends st' [segment] opened' := by
  obtain ⟨m, deed⟩ := mv
  have hm : State.Holds { st with modes := m } opened := hst.of_eq rfl rfl
  unfold Move.perform Run.under
  cases deed with
  | enter | leave | start | close | attempt | note => cases hx
  | fail e =>
    cases hx
    exact ⟨e, _, rfl⟩
  | text | keyword | ident =>
    cases hx
    exact ⟨_, rfl, rfl, hst.of_eq rfl rfl⟩
  | bind p =>
    cases hx
    have hplace := cfg.place_settles hm (p.occurrence m)
    have hbind : cfg.bind p { st with modes := m } =
        cfg.place (p.occurrence m) { st with modes := m } := rfl
    simp only [Deed.perform, hbind]
    cases hs : Stroke.settle cfg.settings opened (.ok (.literal (p.occurrence m))) with
    | none =>
      rw [hs] at hplace
      obtain ⟨e, st', he⟩ := hplace
      rw [he]
      exact ⟨e, _, rfl⟩
    | some r =>
      rw [hs] at hplace
      obtain ⟨st', hok, hext⟩ := hplace
      rw [hok]
      exact ⟨_, rfl, hext.out_eq, hext.holds.of_eq rfl rfl⟩
  | literal v type =>
    cases hx
    -- a value without a name clashes with nothing, and is written in place under all settings
    simp only [Deed.perform, Stroke.settle_literal, Param.clashes, Option.any_none,
      Occurrence.inPlace, Bool.true_or, if_true, Bool.false_eq_true, if_false]
    by_cases hlit : v.hasLiteral = true
    · rw [if_pos hlit, cfg.literal_eq_ok hlit]
      exact ⟨_, rfl, rfl, hst.of_eq rfl rfl⟩
    · rw [if_neg hlit]
      obtain ⟨e, he⟩ := cfg.literal_eq_error (o := ⟨{ value := v, inline := true }, type⟩)
        (by simpa using hlit) { st with modes := m }
      rw [he]
      exact ⟨e, _, rfl⟩

variable {mvs : List Move} {segments : List Segment}

/-- **Moves that end well write their settled draft.** -/
theorem performAll_ok (hattempt : ∀ mv ∈ mvs, mv.deed.isAttempt = false) (hst : st.Holds opened)
    (h : performAll cfg mvs st = .ok () st') :
    ∃ segments opened', settle cfg.settings opened (strokes mvs) = some (segments, opened') ∧
      st.Extends st' segments opened' := by
  induction mvs generalizing st opened with
  | nil =>
    cases h
    exact ⟨[], opened, rfl, (List.append_nil _).symm, hst⟩
  | cons mv mvs ih =>
    obtain ⟨st₁, hmv, hmvs⟩ := (performAll_cons_eq_ok cfg).1 h
    have hrest : ∀ mv ∈ mvs, mv.deed.isAttempt = false :=
      fun mv' hmv' => hattempt mv' (List.mem_cons_of_mem _ hmv')
    rw [strokes_cons]
    cases hx : mv.stroke? with
    | none =>
      -- the ledger is all that the relation between state and openers looks at
      have hledger : st₁.ledger = st.ledger :=
        (keeps_ledger hx (hattempt mv List.mem_cons_self)).ok hmv
      obtain ⟨segments, opened', hsettle, hext⟩ := ih hrest (hst.of_ledger_eq hledger) hmvs
      have hout : st₁.out = st.out := congrArg Prod.fst hledger
      exact ⟨segments, opened', hsettle, hout ▸ hext.out_eq, hext.holds⟩
    | some x =>
      have hstep := perform_settles cfg hst hx
      cases hs : x.settle cfg.settings opened with
      | none =>
        rw [hs] at hstep
        obtain ⟨e, st₂, he⟩ := hstep
        rw [he] at hmv
        cases hmv
      | some r =>
        rw [hs] at hstep
        obtain ⟨st₂, hok, hext₁⟩ := hstep
        rw [hok] at hmv
        cases hmv
        obtain ⟨segments, opened', hsettle, hext⟩ := ih hrest hext₁.holds hmvs
        refine ⟨r.1 :: segments, opened', ?_, ?_, hext.holds⟩
        · exact settle_cons_eq_some.2 ⟨r.1, r.2, segments, hs, hsettle, rfl⟩
        · rw [hext.out_eq, hext₁.out_eq, List.append_assoc, List.singleton_append]

/-- A move without a stroke ends well where nobody listens. -/
theorem perform_ok_of_stroke_none (hcfg : cfg.listeners = []) (hnone : mv.stroke? = none)
    (hattempt : mv.deed.isAttempt = false) (st : State) : ∃ st', mv.perform cfg st = .ok () st' := by
  obtain ⟨m, deed⟩ := mv
  unfold Move.perform Run.under
  cases deed with
  | text | keyword | ident | bind | literal | fail => cases hnone
  | attempt => cases hattempt
  | enter | leave | start | close =>
    simp only [Deed.perform, Configuration.start, Configuration.close, Bind.bind, EStateM.bind,
      Configuration.notify, hcfg, tell]
    exact ⟨_, rfl⟩
  | note step reading => exact ⟨_, rfl⟩

/-- **Moves whose draft can be settled end well** where nobody listens. -/
theorem performAll_of_settle (hcfg : cfg.listeners = [])
    (hattempt : ∀ mv ∈ mvs, mv.deed.isAttempt = false) (hst : st.Holds opened)
    (h : settle cfg.settings opened (strokes mvs) = some (segments, opened')) :
    ∃ st', performAll cfg mvs st = .ok () st' := by
  induction mvs generalizing st opened segments with
  | nil => exact ⟨st, rfl⟩
  | cons mv mvs ih =>
    have hrest : ∀ mv ∈ mvs, mv.deed.isAttempt = false :=
      fun mv' hmv' => hattempt mv' (List.mem_cons_of_mem _ hmv')
    have hmv : mv.deed.isAttempt = false := hattempt mv List.mem_cons_self
    rw [strokes_cons] at h
    cases hx : mv.stroke? with
    | none =>
      rw [hx] at h
      obtain ⟨st₁, hok⟩ := perform_ok_of_stroke_none hcfg hx hmv st
      have hledger : st₁.ledger = st.ledger := (keeps_ledger hx hmv).ok hok
      obtain ⟨st', hst'⟩ := ih hrest (hst.of_ledger_eq hledger) h
      exact ⟨st', (performAll_cons_eq_ok cfg).2 ⟨st₁, hok, hst'⟩⟩
    | some x =>
      rw [hx] at h
      -- the head settles as the draft says, so the rest starts from the openers of its draft
      obtain ⟨segment, opened₁, rest, hs, hsettle, -⟩ := settle_cons_eq_some.1 h
      have hstep := perform_settles cfg hst hx
      rw [hs] at hstep
      obtain ⟨st₁, hok, hext⟩ := hstep
      obtain ⟨st', hst'⟩ := ih hrest hext.holds hsettle
      exact ⟨st', (performAll_cons_eq_ok cfg).2 ⟨st₁, hok, hst'⟩⟩

end Move

/-! ## Renders -/

namespace Configuration

variable (cfg : Configuration) {part : Part} {modes : Modes} {past : List Notice}

/-- The draft of a part that is visited under given modes. -/
def draft (part : Part) (modes : Modes) : List Stroke :=
  (part.visit cfg.settings.dialect).draft modes

/-- A run makes the moves of the visit of its part. -/
theorem run_eq_moves :
    cfg.run part modes past =
      Move.performAll cfg ((part.visit cfg.settings.dialect).moves modes)
        { modes, notices := past } :=
  Action.perform_apply cfg _ _

theorem render_ok_iff_run {r : Rendered} :
    (cfg.render part modes past).result = .ok r ↔
      ∃ st, cfg.run part modes past = .ok () st ∧ r = cfg.rendered st := by
  unfold render
  cases cfg.run part modes past with
  | ok a st => simp [eq_comm]
  | error e st => simp

theorem out_render_of_run {st : State} (h : cfg.run part modes past = .ok () st) :
    (cfg.render part modes past).out = st.out := by
  unfold render
  rw [h]

/-- **A render that ends well writes its settled draft**, and binds the values of the parameters that
have opened a slot. -/
theorem render_ok {r : Rendered} (hpart : part.propagates = true)
    (h : (cfg.render part modes past).result = .ok r) :
    ∃ opened, settle cfg.settings [] (cfg.draft part modes) =
        some ((cfg.render part modes past).out, opened) ∧
      r = { sql := textOf cfg.settings (cfg.render part modes past).out,
            params := opened.map Param.value } := by
  obtain ⟨st, hrun, rfl⟩ := cfg.render_ok_iff_run.1 h
  have hmoves := hrun
  rw [run_eq_moves] at hmoves
  obtain ⟨segments, opened, hsettle, hext⟩ := Move.performAll_ok
    (Part.straight_visit _ part hpart).isAttempt_eq_false (State.holds_nil modes past) hmoves
  have hout : st.out = segments := hext.out_eq
  refine ⟨opened, ?_, ?_⟩
  · rw [cfg.out_render_of_run hrun, hout, draft, Action.draft_eq_strokes]
    exact hsettle
  · rw [cfg.out_render_of_run hrun, rendered, hext.holds.params_eq]

/-- A render that nobody listens to ends well exactly if its draft can be settled. -/
theorem render_isOk_iff (hcfg : cfg.listeners = []) (hpart : part.propagates = true) :
    (∃ r, (cfg.render part modes past).result = .ok r) ↔
      (settle cfg.settings [] (cfg.draft part modes)).isSome = true := by
  constructor
  · rintro ⟨r, h⟩
    obtain ⟨opened, hsettle, -⟩ := cfg.render_ok hpart h
    rw [hsettle]
    rfl
  · intro h
    obtain ⟨⟨segments, opened⟩, hsettle⟩ := Option.isSome_iff_exists.1 h
    rw [draft, Action.draft_eq_strokes] at hsettle
    obtain ⟨st, hst⟩ := Move.performAll_of_settle hcfg
      (Part.straight_visit _ part hpart).isAttempt_eq_false
      (State.holds_nil modes past) hsettle
    rw [← run_eq_moves] at hst
    exact ⟨_, cfg.render_ok_iff_run.2 ⟨st, hst, rfl⟩⟩

end Configuration

end SqlRender
