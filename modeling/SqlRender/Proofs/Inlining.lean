import SqlRender.Proofs.Placement

/-!
# Values in place

A render may bind its values or write them in place. Nothing else in the text depends on the choice,
so both texts are one `Template` with different fillings:

```text
template   a = ▢ AND b > ▢ AND c < ▢
indexed    a = $1 AND b > $2 AND c < $1
inline     a = 7 AND b > DATE '2020-01-01' AND c < 7
```

The template is read off the draft of a part: a place for every parameter that is not marked to be
written in place, and text for everything else. `Configuration.same_template` says what fills the
places under either style: the placeholders of the slots of a numbering, or the literals of the
occurrences with the types that they are taken to have where they stand.
-/

namespace SqlRender

/-! ## Templates -/

/-- Text with places in it: what stands before the first place, and what follows on each place up to
the next one. -/
structure Template where
  first : String
  rest : List String

namespace Template

/-- A template with a text in each of its places. -/
def fill (t : Template) (texts : List String) : String :=
  t.first ++ String.join (List.zipWith (· ++ ·) texts t.rest)

/-- The template behind further text. -/
def behind (t : Template) (s : String) : Template := { t with first := s ++ t.first }

/-- The template behind a place. -/
def behindPlace (t : Template) : Template := ⟨"", t.first :: t.rest⟩

theorem fill_behind (t : Template) (s : String) (texts : List String) :
    (t.behind s).fill texts = s ++ t.fill texts :=
  String.append_assoc

theorem fill_behindPlace (t : Template) (s : String) (texts : List String) :
    t.behindPlace.fill (s :: texts) = s ++ t.fill texts := by
  simp only [fill, behindPlace, List.zipWith_cons_cons, String.join_cons, String.append_assoc,
    String.empty_append]

end Template

/-! ## Templates of drafts -/

/-- The occurrences that are written as the style says: those that are not marked to be written in
place. -/
def unmarked (os : List Occurrence) : List Occurrence := os.filter fun o => !o.param.inline

/-- The unmarked occurrence that a stroke writes. -/
def Stroke.unmarked? (x : Stroke) : Option Occurrence :=
  x.occurrence?.filter fun o => !o.param.inline

theorem filterMap_unmarked (xs : List Stroke) :
    xs.filterMap Stroke.unmarked? = unmarked (xs.filterMap Stroke.occurrence?) :=
  List.filter_filterMap.symm

/-- The text of a stroke whose parameter, if it has one, is in place. -/
def Stroke.text (s : Settings) : Stroke → String
  | .error _ => ""
  | .ok x => x.spelling s

/-- The template of strokes. -/
def Template.of (s : Settings) : List Stroke → Template
  | [] => ⟨"", []⟩
  | x :: xs =>
    match x.unmarked? with
    | some _ => (Template.of s xs).behindPlace
    | none => (Template.of s xs).behind (x.text s)

/-- The literal of an occurrence. -/
def Occurrence.literal (s : Settings) (o : Occurrence) : String :=
  Segment.spelling s (.literal o)

section

variable {s : Settings} {opened opened' : List Param}

theorem Stroke.unmarked?_eq_some {x : Stroke} {o : Occurrence} (h : x.unmarked? = some o) :
    x = .ok (.literal o) ∧ o.param.inline = false := by
  obtain ⟨ho, hinline⟩ := Option.filter_eq_some_iff.1 h
  match x with
  | .error _ | .ok (.placeholder _ _) | .ok (.text _) | .ok (.keyword _) | .ok (.ident _) =>
    cases ho
  | .ok (.literal _) =>
    cases ho
    exact ⟨rfl, by simpa using hinline⟩

/-- A stroke that is no place is settled as it is spelled, under either style. -/
theorem Stroke.settle_of_unmarked?_eq_none {x : Stroke} {segment : Segment}
    (hx : x.unmarked? = none) (h : x.settle s opened = some (segment, opened')) :
    segment.spelling s = x.text s ∧ segment.placeholder? s = none ∧ opened' = opened := by
  match x with
  | .error _ | .ok (.placeholder _ _) => cases h
  | .ok (.text _) | .ok (.keyword _) | .ok (.ident _) =>
    cases h
    exact ⟨rfl, rfl, rfl⟩
  | .ok (.literal o) =>
    have hmarked : o.param.inline = true := by
      simpa [Stroke.unmarked?, Stroke.occurrence?] using hx
    have hin : o.inPlace s = true := by simp [Occurrence.inPlace, hmarked]
    rw [Stroke.settle_literal, Option.ite_none_left_eq_some, if_pos hin,
      Option.ite_none_right_eq_some] at h
    cases h.2.2
    exact ⟨rfl, rfl, rfl⟩

/-- **In place**, a settled draft fills the template with the literals of the unmarked occurrences,
and no parameter opens a slot. -/
theorem settle_inline (hstyle : s.paramStyle = .inline) {xs : List Stroke} {out : List Segment}
    (h : settle s opened xs = some (out, opened')) :
    textOf s out = (Template.of s xs).fill
        ((xs.filterMap Stroke.unmarked?).map (Occurrence.literal s)) ∧
      opened' = opened := by
  induction xs generalizing opened out with
  | nil =>
    cases h
    exact ⟨rfl, rfl⟩
  | cons x xs ih =>
    obtain ⟨segment, opened₁, rest, hx, hrest, rfl⟩ := settle_cons_eq_some.1 h
    obtain ⟨htext, hopened⟩ := ih hrest
    rw [textOf_cons, htext, hopened, Template.of]
    cases hplace : x.unmarked? with
    | none =>
      obtain ⟨hspelled, -, rfl⟩ := Stroke.settle_of_unmarked?_eq_none hplace hx
      rw [List.filterMap_cons_none hplace, hspelled]
      exact ⟨(Template.fill_behind _ _ _).symm, rfl⟩
    | some o =>
      obtain ⟨rfl, -⟩ := Stroke.unmarked?_eq_some hplace
      have hin : o.inPlace s = true := by simp [Occurrence.inPlace, hstyle]
      rw [Stroke.settle_literal, Option.ite_none_left_eq_some, if_pos hin,
        Option.ite_none_right_eq_some] at hx
      cases hx.2.2
      rw [List.filterMap_cons_some hplace, List.map_cons]
      exact ⟨(Template.fill_behindPlace _ _ _).symm, rfl⟩

/-- **As placeholders**, a settled draft fills the template with its placeholders. -/
theorem settle_indexed (hstyle : s.paramStyle = .indexed) {xs : List Stroke} {out : List Segment}
    (h : settle s opened xs = some (out, opened')) :
    textOf s out =
      (Template.of s xs).fill ((out.filterMap (Segment.placeholder? s)).map Prod.fst) := by
  induction xs generalizing opened out with
  | nil =>
    cases h
    rfl
  | cons x xs ih =>
    obtain ⟨segment, opened₁, rest, hx, hrest, rfl⟩ := settle_cons_eq_some.1 h
    rw [textOf_cons, ih hrest, Template.of]
    cases hplace : x.unmarked? with
    | none =>
      obtain ⟨hspelled, hnone, rfl⟩ := Stroke.settle_of_unmarked?_eq_none hplace hx
      rw [List.filterMap_cons_none hnone, hspelled]
      exact (Template.fill_behind _ _ _).symm
    | some o =>
      obtain ⟨rfl, hmark⟩ := Stroke.unmarked?_eq_some hplace
      have hin : ¬ o.inPlace s = true := by simp [Occurrence.inPlace, hstyle, hmark]
      rw [Stroke.settle_literal, Option.ite_none_left_eq_some, if_neg hin] at hx
      cases hx.2
      exact (Template.fill_behindPlace _ _ _).symm

end

/-- A template has a place for every unmarked occurrence. -/
theorem Template.length_rest_of (s : Settings) (xs : List Stroke) :
    (Template.of s xs).rest.length = (xs.filterMap Stroke.unmarked?).length := by
  induction xs with
  | nil => rfl
  | cons x xs ih =>
    rw [Template.of]
    cases hplace : x.unmarked? with
    | none => rw [List.filterMap_cons_none hplace, ← ih]; rfl
    | some o => rw [List.filterMap_cons_some hplace, List.length_cons, ← ih]; rfl

/-! ## Renders -/

namespace Configuration

/-- The configuration with another style for its parameters. -/
def inStyle (cfg : Configuration) (style : ParamStyle) : Configuration :=
  { cfg with settings := { cfg.settings with paramStyle := style } }

variable (cfg : Configuration) {part : Part} {modes : Modes} {past : List Notice}

/-- The template of a draft does not depend on the style. -/
theorem template_inStyle (style : ParamStyle) (xs : List Stroke) :
    Template.of (cfg.inStyle style).settings xs = Template.of cfg.settings xs := by
  induction xs with
  | nil => rfl
  | cons x xs ih =>
    have htext : x.text (cfg.inStyle style).settings = x.text cfg.settings := rfl
    rw [Template.of, Template.of, ih, htext]

/-- The template of a part, with a place for each of its unmarked occurrences. -/
def template (part : Part) (modes : Modes) : Template :=
  Template.of cfg.settings (cfg.draft part modes)

theorem unmarked_draft (part : Part) (modes : Modes) :
    (cfg.draft part modes).filterMap Stroke.unmarked? =
      unmarked (part.occurrences cfg.settings.dialect modes) := by
  rw [filterMap_unmarked, cfg.occurrences_draft]

/-- A render with values in place fills the template with literals and binds nothing. -/
theorem fills_inline (hstyle : cfg.settings.paramStyle = .inline) (hpart : part.propagates = true)
    {r : Rendered} (h : (cfg.render part modes past).result = .ok r) :
    r.sql = (cfg.template part modes).fill
        ((unmarked (part.occurrences cfg.settings.dialect modes)).map
          (Occurrence.literal cfg.settings)) ∧
      r.params = [] := by
  obtain ⟨opened, hsettle, rfl⟩ := cfg.render_ok hpart h
  obtain ⟨htext, rfl⟩ := settle_inline hstyle hsettle
  rw [unmarked_draft] at htext
  exact ⟨htext, rfl⟩

/-- A render with placeholders fills the template with those of a numbering's slots. -/
theorem fills_indexed (hstyle : cfg.settings.paramStyle = .indexed)
    (hpart : part.propagates = true) {r : Rendered}
    (h : (cfg.render part modes past).result = .ok r) :
    ∃ slots openers, Bindings cfg.settings.capabilities
        (part.parameters cfg.settings.dialect modes) slots openers ∧
      r.sql = (cfg.template part modes).fill (slots.map cfg.settings.capabilities.placeholder) ∧
      r.params = openers.map Param.value := by
  obtain ⟨slots, openers, hb, hsettle, hout, rfl⟩ := cfg.bindings_of_render hstyle hpart h
  have htext := settle_indexed hstyle hsettle
  have hlength : (slots.map cfg.settings.capabilities.placeholder).length ≤
      (part.parameters cfg.settings.dialect modes).length :=
    Nat.le_of_eq ((List.length_map _).trans hb.length_eq)
  rw [hout, List.map_fst_zip hlength] at htext
  exact ⟨slots, openers, hb, htext, rfl⟩

/-- The events of a render are those that its run lets happen. -/
theorem events_of_final {es : List Event}
    (h : (((part.visit cfg.settings.dialect).perform cfg).final { modes, notices := past }).events =
      past.map Notice.event ++ es) :
    (cfg.render part modes past).notices.map Notice.event = es := by
  have hnotices : (cfg.render part modes past).notices =
      (((part.visit cfg.settings.dialect).perform cfg).final
        { modes, notices := past }).notices.drop past.length := by
    unfold render run Run.final
    cases (part.visit cfg.settings.dialect).perform cfg { modes, notices := past } <;> rfl
  have hlength : past.length = (past.map Notice.event).length := (List.length_map _).symm
  rw [hnotices, List.map_drop, hlength]
  show List.drop _ (State.events _) = es
  rw [h, List.drop_left]

/-- A render that ends well lets the events of its moves happen. -/
theorem events_of_render (hpart : part.propagates = true) {r : Rendered}
    (h : (cfg.render part modes past).result = .ok r) :
    (cfg.render part modes past).notices.map Notice.event =
      Move.events cfg.settings.dialect [] ((part.visit cfg.settings.dialect).moves modes) := by
  obtain ⟨st, hrun, -⟩ := cfg.render_ok_iff_run.1 h
  have hevents : st.events = past.map Notice.event ++
      Move.events cfg.settings.dialect [] ((part.visit cfg.settings.dialect).moves modes) := by
    rw [run_eq_moves] at hrun
    exact (Move.events_of_performAll_ok
      (Part.straight_visit _ part hpart).isAttempt_eq_false hrun).1
  unfold run at hrun
  exact events_of_final cfg (by rwa [Run.final, hrun])

/-- **Both styles fill one template.** Let a part be rendered well under both styles, and take its
unmarked occurrences in the order in which they are written, each with its own type or else the one
that it is assumed to have where it stands. Some template has one place for each of them. Filled
with their literals it is the text with values in place, which binds nothing; filled with the
placeholders of their slots it is the text with placeholders. The slots are those of a numbering
where placeholders are numbered. The same events happen under both styles. -/
theorem same_template (hpart : part.propagates = true) {indexed inline : Rendered}
    (h : ((cfg.inStyle .indexed).render part modes past).result = .ok indexed)
    (h' : ((cfg.inStyle .inline).render part modes past).result = .ok inline) :
    let s := cfg.settings
    let os := unmarked (part.occurrences s.dialect modes)
    (∃ (t : Template) (slots : List Nat), t.rest.length = os.length ∧ slots.length = os.length ∧
      inline.sql = t.fill (os.map (Occurrence.literal s)) ∧
      indexed.sql = t.fill (slots.map s.capabilities.placeholder) ∧
      (s.capabilities.numberedPlaceholders = true → ∃ openers,
        Numbering (os.map Occurrence.param) slots openers ∧
        indexed.params = openers.map Param.value)) ∧
    inline.params = [] ∧
    ((cfg.inStyle .inline).render part modes past).notices.map Notice.event =
      ((cfg.inStyle .indexed).render part modes past).notices.map Notice.event := by
  intro s os
  have hevents := (cfg.inStyle .indexed).events_of_render hpart h
  have hevents' := (cfg.inStyle .inline).events_of_render hpart h'
  obtain ⟨htext', hparams'⟩ := (cfg.inStyle .inline).fills_inline rfl hpart h'
  obtain ⟨slots, openers, hb, htext, hparams⟩ := (cfg.inStyle .indexed).fills_indexed rfl hpart h
  -- the draft and its occurrences are the same under both styles
  have htemplate : ∀ style, (cfg.inStyle style).template part modes = cfg.template part modes :=
    fun style => cfg.template_inStyle style _
  rw [htemplate] at htext htext'
  have hslots : slots.length = os.length := by
    rw [hb.length_eq]
    exact List.length_map _
  refine ⟨⟨cfg.template part modes, slots, ?_, hslots, htext', htext, ?_⟩, hparams', ?_⟩
  · rw [template, Template.length_rest_of, unmarked_draft]
  · intro hcaps
    exact ⟨openers, hb.numbering hcaps, hparams⟩
  · rw [hevents', hevents]
    rfl

/-- `a = :x AND b > '2020-01-01' AND c < :x`, where `b` is a date and the text takes its type. -/
theorem same_template_typed :
    let b : Field := .column { name := "b", dataType := some .date }
    let part : Part := .condition (.combined .and
      [.comparison (.named "a") .eq (.param "x" (7 : Int64)),
       .comparison b .gt (.val "2020-01-01"),
       .comparison (.named "c") .lt (.param "x" (7 : Int64))])
    let cfg : Configuration := { settings := { dialect := .postgres } }
    let indexed : Rendered :=
      { sql := "(\"a\" = $1 AND \"b\" > $2 AND \"c\" < $1)"
        params := [.int 7, .text "2020-01-01"] }
    let inline : Rendered :=
      { sql := "(\"a\" = 7 AND \"b\" > DATE '2020-01-01' AND \"c\" < 7)", params := [] }
    ((cfg.inStyle .indexed).render part {} []).result = .ok indexed ∧
    ((cfg.inStyle .inline).render part {} []).result = .ok inline ∧
    ∃ (t : Template) (slots : List Nat), slots.length = 3 ∧
      indexed.sql = t.fill (slots.map fun i => "$" ++ toString i) ∧
      inline.sql = t.fill ["7", "DATE '2020-01-01'", "7"] := by
  intro b part cfg indexed inline
  have h : ((cfg.inStyle .indexed).render part {} []).result = .ok indexed :=
    Report.result_eq_ok (by decide +kernel)
  have h' : ((cfg.inStyle .inline).render part {} []).result = .ok inline :=
    Report.result_eq_ok (by decide +kernel)
  obtain ⟨⟨t, slots, -, hslots, hinline, hindexed, -⟩, -, -⟩ := same_template cfg rfl h h'
  have hliterals : (unmarked (part.occurrences .postgres {})).map
      (Occurrence.literal cfg.settings) = ["7", "DATE '2020-01-01'", "7"] := by decide +kernel
  have hcaps : cfg.settings.capabilities.numberedPlaceholders = true := rfl
  rw [hliterals] at hinline
  rw [Capabilities.placeholder_numbered hcaps] at hindexed
  exact ⟨h, h', t, slots, hslots, hindexed, hinline⟩

end Configuration

end SqlRender
