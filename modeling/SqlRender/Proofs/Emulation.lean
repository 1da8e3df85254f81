import SqlRender.Proofs.Conflicts

/-!
# Many rows as a union of selects

A dialect without `VALUES (…), (…)` gets many rows as a union of selects, one for each row:

```text
INSERT INTO t (a) VALUES (x)                                  one row
INSERT INTO t (a) SELECT x FROM DUAL UNION ALL SELECT y FROM DUAL   two
```

`Configuration.rows_emulated` says that every row contributes the same text and the same bind values
either way, but for one thing. A select list declares its fields and `VALUES` does not, so an alias
in a row is written with what it stands for in the union, and by its name alone in `VALUES`.

The dialect in question does not number its placeholders. There the text of a draft can be read off
stroke by stroke (`spellingOf`), whatever was bound before.
-/

namespace SqlRender

/-! ## Text without numbers -/

/-- How a stroke is spelled where placeholders are not numbered. -/
def Stroke.spelling (s : Settings) : Stroke → String
  | .error _ => ""
  | .ok (.literal o) => if o.inPlace s then Segment.spelling s (.literal o) else "?"
  | .ok x => x.spelling s

/-- How strokes are spelled where placeholders are not numbered. -/
def spellingOf (s : Settings) (xs : List Stroke) : String :=
  String.join (xs.map (Stroke.spelling s))

theorem spellingOf_append (s : Settings) (xs ys : List Stroke) :
    spellingOf s (xs ++ ys) = spellingOf s xs ++ spellingOf s ys := by
  simp [spellingOf, String.join_append]

/-- Where placeholders are not numbered, a settled draft is written as its strokes are spelled, and
every parameter that is not in place is bound. -/
theorem settle_spelling {s : Settings} (hs : s.capabilities.numberedPlaceholders = false)
    {opened opened' : List Param} {xs : List Stroke} {out : List Segment}
    (h : settle s opened xs = some (out, opened')) :
    textOf s out = spellingOf s xs ∧
      opened' = opened ++ bound s (xs.filterMap Stroke.occurrence?) := by
  induction xs generalizing opened out with
  | nil =>
    cases h
    exact ⟨rfl, (List.append_nil _).symm⟩
  | cons x xs ih =>
    obtain ⟨segment, opened₁, rest, hx, hrest, rfl⟩ := settle_cons_eq_some.1 h
    obtain ⟨htext, hopened⟩ := ih hrest
    have hjoin : spellingOf s (x :: xs) = x.spelling s ++ spellingOf s xs := by
      simp [spellingOf, String.join_cons]
    rw [textOf_cons, htext, hjoin, hopened]
    match x with
    | .error _ | .ok (.placeholder _ _) => cases hx
    | .ok (.text _) | .ok (.keyword _) | .ok (.ident _) =>
      cases hx
      exact ⟨rfl, rfl⟩
    | .ok (.literal o) =>
      rw [Stroke.settle_literal, Option.ite_none_left_eq_some] at hx
      replace hx := hx.2
      rw [List.filterMap_cons_some (show Stroke.occurrence? (.ok (.literal o)) = some o from rfl)]
      by_cases hin : o.inPlace s = true
      · rw [if_pos hin, Option.ite_none_right_eq_some] at hx
        cases hx.2
        rw [bound_cons_of_inPlace hin, Stroke.spelling, if_pos hin]
        exact ⟨rfl, rfl⟩
      · rw [if_neg hin] at hx
        cases hx
        rw [bound_cons_of_not_inPlace hin, Stroke.spelling, if_neg hin,
          Segment.spelling_placeholder, Capabilities.placeholder_unnumbered hs]
        refine ⟨rfl, ?_⟩
        simp [Capabilities.allot, hs]

section Spelled

variable (s : Settings) (m : Modes)

/-- How an action that is performed under given modes is spelled. -/
def Action.spelled (a : Action) : String := spellingOf s (a.draft m)

/-- How a script that is performed under given modes is spelled. -/
def Script.spelled (as : Script) : String := spellingOf s (Script.draft m as)

namespace Action

variable {s m}

@[simp] theorem spelled_text (t : String) : (text t).spelled s m = t := by
  simp [spelled, draft, spellingOf, Stroke.spelling, Segment.spelling, textOf, tokensOf,
    Segment.tokens, Token.text, String.join_cons]

@[simp] theorem spelled_keyword (word : String) : (keyword word).spelled s m = s.keyword word := by
  simp [spelled, draft, spellingOf, Stroke.spelling, Segment.spelling, textOf, tokensOf,
    Segment.tokens, Token.text, String.join_cons]

@[simp] theorem spelled_fail (e : RenderError) : (fail e).spelled s m = "" := by
  simp [spelled, draft, spellingOf, Stroke.spelling, String.join_cons]

@[simp] theorem spelled_visit (part : Part) (body : Script) :
    (visit part body).spelled s m = Script.spelled s m body := rfl

@[simp] theorem spelled_within (c : Clause) (body : Script) :
    (within c body).spelled s m = Script.spelled s m body := rfl

@[simp] theorem spelled_switch (mode : Mode) (on : Bool) (body : Script) :
    (switch mode on body).spelled s m = Script.spelled s (m.switch mode on) body := rfl

end Action

namespace Script

variable {s m}

@[simp] theorem spelled_nil : Script.spelled s m [] = "" := rfl

@[simp] theorem spelled_cons (a : Action) (as : Script) :
    Script.spelled s m (a :: as) = a.spelled s m ++ Script.spelled s m as :=
  spellingOf_append s _ _

@[simp] theorem spelled_append (as bs : Script) :
    Script.spelled s m (as ++ bs) = Script.spelled s m as ++ Script.spelled s m bs := by
  rw [Script.spelled, draft_append, spellingOf_append]
  rfl

/-- Actions with a separator are spelled with the separator's spelling between them. -/
theorem spelled_intersperse (a : Action) : ∀ as : Script,
    Script.spelled s m (as.intersperse a) =
      String.join ((as.map (Action.spelled s m)).intersperse (a.spelled s m))
  | [] => rfl
  | [b] => by simp [String.join_cons]
  | b :: c :: as => by
    rw [List.intersperse_cons_cons, List.map_cons, List.map_cons, List.intersperse_cons_cons,
      spelled_cons, spelled_cons, spelled_intersperse a (c :: as), String.join_cons,
      String.join_cons]
    rfl

/-- Checks write nothing. -/
@[simp] theorem spelled_checks (d : Dialect) {α : Type} (c : Clause) (expected : Nat)
    (found : α → Nat) (as : List α) :
    Script.spelled s m (as.flatMap fun a => Script.checkDegree d c expected (found a)) = "" := by
  induction as with
  | nil => rfl
  | cons a as ih =>
    rw [List.flatMap_cons, spelled_append, ih]
    unfold Script.checkDegree
    split <;> simp

end Script

end Spelled

/-- Where placeholders are not numbered, a render that ends well writes its draft as it is spelled
and binds the parameters that are not in place. -/
theorem Configuration.render_spelled (cfg : Configuration) {part : Part} {modes : Modes}
    {past : List Notice} {r : Rendered}
    (hcaps : cfg.settings.capabilities.numberedPlaceholders = false)
    (hpart : part.propagates = true) (h : (cfg.render part modes past).result = .ok r) :
    r.sql = (part.visit cfg.settings.dialect).spelled cfg.settings modes ∧
      r.params = (bound cfg.settings (part.occurrences cfg.settings.dialect modes)).map
        Param.value := by
  obtain ⟨opened, hsettle, rfl⟩ := cfg.render_ok hpart h
  obtain ⟨htext, hopened⟩ := settle_spelling hcaps hsettle
  rw [cfg.occurrences_draft, List.nil_append] at hopened
  exact ⟨htext, congrArg _ hopened⟩

/-! ## Rows without aliases -/

mutual

/-- A field in which nothing stands under an alias. -/
def Field.AliasFree : Field → Prop
  | .column _ => True
  | .value _ => True
  | .aliased _ _ => False
  | .row fields => Field.AllAliasFree fields

/-- Fields in which nothing stands under an alias. -/
def Field.AllAliasFree : List Field → Prop
  | [] => True
  | f :: fs => f.AliasFree ∧ Field.AllAliasFree fs

end

/-- The modes with fields declared, as in a select list. -/
abbrev Modes.declaring (m : Modes) : Modes := m.switch .declareFields true

theorem Modes.declaring_of_declareFields {m : Modes} (h : m.declareFields = true) :
    m.declaring = m := by
  show { m with declareFields := true } = m
  rw [← h]

theorem Script.draft_intersperse_congr {m m' : Modes} {a : Action} (ha : a.draft m = a.draft m') :
    ∀ {as : Script}, (∀ b ∈ as, b.draft m = b.draft m') →
      Script.draft m (as.intersperse a) = Script.draft m' (as.intersperse a)
  | [], _ => rfl
  | [b], h => by simp [h b List.mem_cons_self]
  | b :: c :: as, h => by
    have ih := draft_intersperse_congr ha fun b' hb' => h b' (List.mem_cons_of_mem _ hb')
    rw [List.intersperse_cons_cons, draft_cons, draft_cons, draft_cons, draft_cons, ha, ih,
      h b List.mem_cons_self]

theorem Script.draft_listed_congr {m m' : Modes} {as : Script}
    (h : ∀ b ∈ as, b.draft m = b.draft m') :
    Script.draft m (Script.listed as) = Script.draft m' (Script.listed as) := by
  have hcomma : (Action.keyword ", ").draft m = (Action.keyword ", ").draft m' := rfl
  exact draft_intersperse_congr hcomma h

variable (d : Dialect) (m : Modes)

mutual

/-- Without an alias it makes no difference whether fields are declared. -/
theorem Field.draft_body_declaring : ∀ f : Field, f.AliasFree →
    Script.draft m.declaring (f.body d) = Script.draft m (f.body d)
  | .column c, _ => by
    simp only [Field.body, Column.body]
    cases c.qualifier <;> simp [Action.draft, Modes.declaring, Modes.isOn_switch]
  | .value _, _ => rfl
  | .row fields, h => by
    have hvisits := Field.draft_visits_declaring fields h
    simp only [Field.body, Row.layout]
    split
    · rfl
    · rw [Script.draft_append, Script.draft_append, Script.draft_append, Script.draft_append,
        Script.draft_listed_congr hvisits]
      rfl

theorem Field.draft_visits_declaring : ∀ fs : List Field, Field.AllAliasFree fs →
    ∀ a ∈ Field.visits d fs, a.draft m.declaring = a.draft m
  | [], _, _, ha => nomatch ha
  | f :: fs, h, a, ha => by
    rcases List.mem_cons.1 ha with rfl | ha
    · exact Field.draft_body_declaring f h.1
    · exact Field.draft_visits_declaring fs h.2 a ha

end

/-- Fields without aliases have the same occurrences whether or not fields are declared. -/
theorem Field.occurrencesIn_declaring {m : Modes} {r : Row} (h : Field.AllAliasFree r) :
    Field.occurrencesIn m.declaring r = Field.occurrencesIn m r := by
  -- any dialect will do, as occurrences know of none
  have hvisits := Field.draft_visits_declaring .oracle m r h
  rw [Field.visits_eq_map] at hvisits
  have hdraft := Script.draft_listed_congr hvisits
  rw [← Field.sift_listed_occurrence .oracle, ← Field.sift_listed_occurrence .oracle,
    Script.sift, hdraft]
  rfl

mutual

/-- What a field is written with where it is only named, it is written with where it is declared. -/
theorem Field.occurrences_sublist (hm : m.declareFields = false) : ∀ f : Field,
    (f.occurrences m).Sublist (f.occurrences m.declaring)
  | .column _ => .slnil
  | .value _ => List.Sublist.refl _
  | .aliased f _ => by
    rw [Field.occurrences, hm]
    exact List.nil_sublist _
  | .row fields => Field.occurrencesIn_sublist hm fields

theorem Field.occurrencesIn_sublist (hm : m.declareFields = false) : ∀ fs : List Field,
    (Field.occurrencesIn m fs).Sublist (Field.occurrencesIn m.declaring fs)
  | [] => .slnil
  | f :: fs => (Field.occurrences_sublist hm f).append (Field.occurrencesIn_sublist hm fs)

end

mutual

/-- What can be written where it is declared can be written where it is named. -/
theorem Field.valid_of_declared : ∀ f : Field, f.Valid true → ∀ declared, f.Valid declared
  | .column _, _, _ => trivial
  | .value _, _, _ => trivial
  | .aliased _ _, h, _ => fun hdeclared => hdeclared ▸ h rfl
  | .row fields, h, declared => ⟨h.1, Field.allValid_of_declared fields h.2 declared⟩

theorem Field.allValid_of_declared : ∀ fs : List Field, Field.AllValid true fs →
    ∀ declared, Field.AllValid declared fs
  | [], _, _ => trivial
  | f :: fs, h, declared =>
    ⟨Field.valid_of_declared f h.1 declared, Field.allValid_of_declared fs h.2 declared⟩

end

/-! ## Rows -/

section Rows

variable (s : Settings) (m : Modes)

/-- The text of the fields of a row. -/
def Row.text (r : Row) : String :=
  Script.spelled s m (Script.listed (r.map (Field.visit s.dialect)))

/-- The values that the fields of a row bind. -/
def Row.binds (r : Row) : List Value := (bound s (Field.occurrencesIn m r)).map Param.value

/-- The text of the table and the columns of an insert. -/
def Insert.targetText (i : Insert) : String :=
  Script.spelled s m (Insert.layoutTarget s.dialect i.into i.columns)

/-- The occurrences in the table and the columns of an insert. -/
def Insert.targetOccurrences (i : Insert) : List Occurrence :=
  i.into.occurrences (m.switch .declareTables true) ++
    Field.occurrencesIn (m.switch .qualify false) i.columns

/-- The values that the table and the columns of an insert bind. -/
def Insert.targetBinds (i : Insert) : List Value :=
  (bound s (i.targetOccurrences m)).map Param.value

/-- The insert of one row only, into the same columns and with nothing behind it. -/
def Insert.single (i : Insert) (r : Row) : Insert :=
  { into := i.into, columns := i.columns, source := .values [r] }

variable {s m}

/-- A row without aliases is written alike wherever it stands. -/
theorem Row.text_declaring {r : Row} (h : Field.AllAliasFree r) :
    Row.text s m.declaring r = Row.text s m r ∧ Row.binds s m.declaring r = Row.binds s m r := by
  have hvisits := Field.draft_visits_declaring s.dialect m r h
  rw [Field.visits_eq_map] at hvisits
  have hdraft := Script.draft_listed_congr hvisits
  unfold Row.text Row.binds Script.spelled
  rw [hdraft, Field.occurrencesIn_declaring h]
  exact ⟨rfl, rfl⟩

/-- A row in `VALUES` stands in parentheses. -/
theorem Row.spelled_visit {r : Row} (hr : r ≠ []) :
    (Row.visit s.dialect r).spelled s m = "(" ++ Row.text s m r ++ ")" := by
  have hvisits : ¬ (Field.visits s.dialect r).isEmpty = true := by
    cases r with
    | nil => exact absurd rfl hr
    | cons f fs => simp [Field.visits]
  rw [Row.visit, Row.body, Field.body, Action.spelled_visit, Row.layout, if_neg hvisits]
  simp [Row.text, Field.visits_eq_map, String.append_assoc]

/-- The select that stands for a row, where a select needs a table. -/
theorem Select.spelled_row (hdual : s.dialect.capabilities.requiresDual = true) {r : Row}
    (hr : r ≠ []) :
    ((Select.visit s.dialect { fields := r }).spelled s m) =
      s.keyword "SELECT " ++ Row.text s m.declaring r ++ s.keyword " FROM " ++
        s.keyword "DUAL" := by
  have hempty : r.isEmpty = false := by
    cases r with
    | nil => exact absurd rfl hr
    | cons f fs => rfl
  have hplan : s.dialect.resolve .selectWithoutFrom = .emulate .fromDual := by
    simp [Dialect.resolve, Plan.nativeOr, hdual]
  simp [Select.visit, Select.body, Select.layoutFields, Select.layoutTables, hempty, hplan,
    Condition.slot, Script.hierarchical, Script.ifAny, Table.visit, Table.body, Row.text,
    String.append_assoc]

/-- The union of selects that stands for rows. -/
theorem Insert.spelled_unionOf (hdual : s.dialect.capabilities.requiresDual = true)
    {rows : List Row} (hrows : rows ≠ []) (hne : ∀ r ∈ rows, r ≠ []) :
    ((Insert.unionOf rows).visit s.dialect).spelled s m =
      String.join ((rows.map fun r => s.keyword "SELECT " ++ Row.text s m.declaring r ++
        s.keyword " FROM " ++ s.keyword "DUAL").intersperse (s.keyword " UNION ALL ")) := by
  have hselects : ¬ (rows.map fun r => ({ fields := r } : Select)).isEmpty = true := by
    simpa using hrows
  have hspelled : (rows.map fun r => (Select.visit s.dialect { fields := r }).spelled s m) =
      rows.map fun r => s.keyword "SELECT " ++ Row.text s m.declaring r ++
        s.keyword " FROM " ++ s.keyword "DUAL" :=
    List.map_congr_left fun r hr => Select.spelled_row hdual (hne r hr)
  rw [Insert.unionOf, Query.visit, Action.spelled_visit, Query.body, if_neg hselects,
    Script.separated, Script.spelled_intersperse, Action.spelled_keyword, List.map_map,
    List.map_map, ← hspelled]
  rfl

end Rows

/-! ## Inserts -/

/-- There is one dialect without `VALUES (…), (…)`. -/
theorem Dialect.eq_oracle {d : Dialect} (h : d.capabilities.multiRowValues = false) :
    d = .oracle := by
  cases d <;> first | rfl | cases h

theorem Dialect.resolve_insertValues {d : Dialect} (h : d.capabilities.multiRowValues = false)
    (n : Nat) : d.resolve (.insertValues n) =
      if n ≤ 1 then .native else .emulate .insertSelectUnionAll := by
  simp [resolve, Plan.nativeOr, h]

/-- It does not number its placeholders. -/
theorem Dialect.unnumbered {d : Dialect} (h : d.capabilities.multiRowValues = false) :
    d.capabilities.numberedPlaceholders = false := by
  rw [eq_oracle h]
  rfl

section Inserts

variable {s : Settings} {m : Modes} {i : Insert}

/-- What a valid insert of rows says about these. -/
theorem Insert.Valid.rows {d : Dialect} {rows : List Row} (h : i.Valid d m)
    (hsource : i.source = .values rows) (hrows : rows ≠ []) :
    Insert.degree i.columns rows ≠ 0 ∧ (∀ r ∈ rows, Insert.degree i.columns rows = r.length) ∧
      ∀ r ∈ rows, r ≠ [] := by
  obtain ⟨-, -, hvalues, -⟩ := h
  rw [hsource] at hvalues
  obtain ⟨-, hdegree, hlength, -⟩ := hvalues
  refine ⟨hdegree hrows, hlength, ?_⟩
  rintro r hr rfl
  exact hdegree hrows (hlength [] hr)

/-- An insert of many rows is spelled as a union of selects where many rows are emulated. -/
theorem Insert.spelled_rows (hcaps : s.dialect.capabilities.multiRowValues = false)
    {rows : List Row} (hsource : i.source = .values rows) (hmany : 2 ≤ rows.length)
    (hvalid : i.Valid s.dialect m) :
    (i.visit s.dialect).spelled s m = i.targetText s m ++ " " ++
      String.join ((rows.map fun r => s.keyword "SELECT " ++ Row.text s m.declaring r ++
        s.keyword " FROM " ++ s.keyword "DUAL").intersperse (s.keyword " UNION ALL ")) := by
  have hrows : rows ≠ [] := by
    rintro rfl
    simp at hmany
  obtain ⟨hdegree, -, hne⟩ := hvalid.rows hsource hrows
  have horacle : s.dialect = .oracle := Dialect.eq_oracle hcaps
  have hplan : s.dialect.resolve (.insertValues rows.length) = .emulate .insertSelectUnionAll := by
    rw [Dialect.resolve_insertValues hcaps, if_neg (by omega)]
  have hunion := Insert.spelled_unionOf (s := s) (m := m) (by rw [horacle]; rfl) hrows hne
  have honDuplicate :
      Script.spelled s m (Insert.layoutOnDuplicate s.dialect i.onDuplicateKeyUpdate) = "" := by
    rw [horacle, Insert.layoutOnDuplicate]
    split <;> rfl
  have hreturning : Script.spelled s m (layoutReturning s.dialect i.returning) = "" := by
    rw [horacle, layoutReturning]
    split <;> rfl
  rw [Insert.visit, Action.spelled_visit, Insert.body, hsource, InsertSource.layout,
    Insert.layoutRows]
  simp only [Script.spelled_append, Script.spelled_cons, Script.spelled_nil,
    Action.spelled_within, Script.spelled_checks, if_neg hdegree, hplan, List.isEmpty_iff, hrows,
    if_false, Action.spelled_text, hunion, honDuplicate, hreturning, Insert.targetText]
  simp [String.append_assoc]

/-- An insert of one row is spelled with `VALUES`. -/
theorem Insert.spelled_single (hcaps : s.dialect.capabilities.multiRowValues = false) {r : Row}
    (hr : r ≠ []) (hdegree : Insert.degree i.columns [r] ≠ 0) :
    ((i.single r).visit s.dialect).spelled s m =
      i.targetText s m ++ s.keyword " VALUES " ++ ("(" ++ Row.text s m r ++ ")") := by
  have hplan : s.dialect.resolve (.insertValues [r].length) = .native := by
    rw [Dialect.resolve_insertValues hcaps]
    rfl
  have hrow : Script.spelled s m (Script.listed [Row.visit s.dialect r]) =
      "(" ++ Row.text s m r ++ ")" := by
    rw [← Row.spelled_visit hr]
    simp [Script.listed, Script.separated]
  rw [Insert.visit, Action.spelled_visit, Insert.body, Insert.single, InsertSource.layout,
    Insert.layoutRows]
  simp only [Script.spelled_append, Script.spelled_cons, Script.spelled_nil,
    Action.spelled_within, Script.spelled_checks, if_neg hdegree, hplan, List.isEmpty_cons,
    Bool.false_eq_true, if_false, Action.spelled_keyword, List.map_cons, List.map_nil, hrow,
    Insert.layoutOnDuplicate, layoutReturning, List.isEmpty_nil, if_true, Insert.targetText]
  simp [String.append_assoc]

theorem Insert.occurrences_rows {d : Dialect} (hcaps : d.capabilities.multiRowValues = false)
    {rows : List Row} (hsource : i.source = .values rows) (hmany : 2 ≤ rows.length)
    (hdegree : Insert.degree i.columns rows ≠ 0) :
    i.occurrences d m =
      i.targetOccurrences m ++ rows.flatMap (Field.occurrencesIn m.declaring) := by
  obtain rfl := Dialect.eq_oracle hcaps
  have hemulated : Insert.isEmulated .oracle rows = true := by
    unfold Insert.isEmulated
    rw [Dialect.resolve_insertValues hcaps, if_neg (by omega)]
    rfl
  have homitted : Dialect.resolve .oracle .onDuplicateKeyUpdate ≠ .native := by decide
  have hreturning : returningOccurrences .oracle m i.returning = [] := rfl
  rw [Insert.occurrences, hsource, InsertSource.occurrences, Insert.rowOccurrences,
    if_neg hdegree, if_pos hemulated, if_neg homitted, hreturning]
  simp [Insert.targetOccurrences]

theorem Insert.occurrences_single {d : Dialect} (hcaps : d.capabilities.multiRowValues = false)
    {r : Row} (hdegree : Insert.degree i.columns [r] ≠ 0) :
    (i.single r).occurrences d m = i.targetOccurrences m ++ Field.occurrencesIn m r := by
  have hnative : Insert.isEmulated d [r] = false := by
    unfold Insert.isEmulated
    rw [Dialect.resolve_insertValues hcaps]
    rfl
  have hreturning : returningOccurrences d m [] = [] := by
    unfold returningOccurrences
    split <;> rfl
  rw [Insert.occurrences, Insert.single, InsertSource.occurrences, Insert.rowOccurrences,
    if_neg hdegree, hnative, hreturning]
  simp [Insert.targetOccurrences]

/-- The occurrences of one row are among those of all rows, which declare more. -/
theorem Row.occurrences_sublist {r : Row} {rows : List Row} (hr : r ∈ rows) :
    (Field.occurrencesIn m r).Sublist (rows.flatMap (Field.occurrencesIn m.declaring)) := by
  have hrow : (Field.occurrencesIn m r).Sublist (Field.occurrencesIn m.declaring r) := by
    cases hm : m.declareFields with
    | true =>
      have hsame : Field.occurrencesIn m.declaring r = Field.occurrencesIn m r := by
        rw [Modes.declaring_of_declareFields hm]
      exact hsame ▸ List.Sublist.refl _
    | false => exact Field.occurrencesIn_sublist m hm r
  refine hrow.trans ?_
  rw [List.flatMap_def]
  exact List.sublist_flatten_of_mem (List.mem_map_of_mem hr)

theorem Insert.degree_single {columns : List Field} {rows : List Row} {r : Row}
    (h : Insert.degree columns rows = r.length) : Insert.degree columns [r] = r.length := by
  unfold Insert.degree at h ⊢
  split at h
  · next hempty => rw [if_pos hempty]; rfl
  · next hcolumns => rwa [if_neg hcolumns]

/-- Each row of a valid insert of many rows makes a valid insert by itself. -/
theorem Insert.valid_single {d : Dialect} (hcaps : d.capabilities.multiRowValues = false)
    {rows : List Row} (hsource : i.source = .values rows) (hmany : 2 ≤ rows.length)
    (hvalid : i.Valid d m) {r : Row} (hr : r ∈ rows) : (i.single r).Valid d m := by
  obtain ⟨hinto, hcolumns, hvalues, -⟩ := hvalid
  rw [hsource] at hvalues
  obtain ⟨-, hdegree, hlength, hfields⟩ := hvalues
  have hemulated : Insert.isEmulated d rows = true := by
    unfold Insert.isEmulated
    rw [Dialect.resolve_insertValues hcaps, if_neg (by omega)]
    rfl
  have hsingle : Insert.degree i.columns [r] = r.length := Insert.degree_single (hlength r hr)
  have hzero : r.length ≠ 0 := by
    rw [← hlength r hr]
    exact hdegree (List.ne_nil_of_mem hr)
  refine ⟨hinto, hcolumns, ⟨nofun, fun _ => ?_, ?_, ?_⟩, fun _ => nofun, fun _ => nofun⟩
  · rw [Insert.single, hsingle]
    exact hzero
  · intro r' hr'
    cases List.mem_singleton.1 hr'
    exact hsingle
  · intro r' hr' f hf
    cases List.mem_singleton.1 hr'
    have hdeclared := hfields r hr f hf
    rw [hemulated, Bool.true_or] at hdeclared
    exact Field.valid_of_declared f hdeclared _

end Inserts

theorem bound_append (s : Settings) (os os' : List Occurrence) :
    bound s (os ++ os') = bound s os ++ bound s os' := by
  simp [bound]

theorem map_bound_flatMap (s : Settings) (m : Modes) (rows : List Row) :
    (bound s (rows.flatMap (Field.occurrencesIn m))).map Param.value =
      rows.flatMap (Row.binds s m) := by
  induction rows with
  | nil => rfl
  | cons r rows ih =>
    rw [List.flatMap_cons, bound_append, List.map_append, ih, List.flatMap_cons]
    rfl

/-! ## Renders -/

namespace Configuration

variable (cfg : Configuration) {modes : Modes} {past : List Notice}

/-- An insert of many rows that is rendered well is rendered well with each row by itself. -/
theorem render_single {i : Insert} {rows : List Row} {r : Rendered}
    (hcaps : cfg.settings.capabilities.multiRowValues = false)
    (hsource : i.source = .values rows) (hmany : 2 ≤ rows.length)
    (h : (cfg.render (.insert i) modes past).result = .ok r) {row : Row} (hrow : row ∈ rows) :
    let s := cfg.settings
    let alone : Configuration := { settings := cfg.settings }
    (alone.render (.insert (i.single row)) modes []).result = .ok
      { sql := i.targetText s modes ++ s.keyword " VALUES " ++ ("(" ++ Row.text s modes row ++ ")"),
        params := i.targetBinds s modes ++ Row.binds s modes row } := by
  intro s alone
  obtain ⟨hvalid, hwritable, hcoherent⟩ := cfg.valid_of_ok rfl h
  have hinsert : i.Valid s.dialect modes := hvalid
  obtain ⟨hdegree, hlength, hne⟩ := hinsert.rows hsource (List.ne_nil_of_mem hrow)
  have hdegree' : Insert.degree i.columns [row] ≠ 0 := by
    rw [Insert.degree_single (hlength row hrow)]
    exact fun hzero => hne row hrow (List.length_eq_zero_iff.1 hzero)
  have hos : (Part.insert i).occurrences s.dialect modes =
      i.targetOccurrences modes ++ rows.flatMap (Field.occurrencesIn modes.declaring) :=
    Insert.occurrences_rows hcaps hsource hmany hdegree
  have hos' : (Part.insert (i.single row)).occurrences s.dialect modes =
      i.targetOccurrences modes ++ Field.occurrencesIn modes row :=
    Insert.occurrences_single hcaps hdegree'
  -- what the single row asks for, all rows have asked for
  have hsub : ((Part.insert (i.single row)).occurrences s.dialect modes).Sublist
      ((Part.insert i).occurrences s.dialect modes) := by
    rw [hos, hos']
    exact (List.Sublist.refl _).append (Row.occurrences_sublist hrow)
  have hok : ∃ r', (alone.render (.insert (i.single row)) modes []).result = .ok r' :=
    (alone.render_isOk_iff_valid rfl rfl).2
      ⟨Insert.valid_single hcaps hsource hmany hinsert hrow, hwritable.sublist hsub,
        hcoherent.sublist hsub⟩
  obtain ⟨⟨sql, params⟩, hok⟩ := hok
  obtain ⟨hsql, hparams⟩ := alone.render_spelled (Dialect.unnumbered hcaps) rfl hok
  have htext : sql = i.targetText s modes ++ s.keyword " VALUES " ++
      ("(" ++ Row.text s modes row ++ ")") :=
    hsql.trans (Insert.spelled_single hcaps (hne row hrow) hdegree')
  have hbinds : params = i.targetBinds s modes ++ Row.binds s modes row := by
    rw [show params = _ from hparams, hos', bound_append, List.map_append]
    rfl
  rw [hok, htext, hbinds]

/-- **Many rows are inserted as they are one by one.** Where a dialect has no `VALUES` of many rows
and an insert of at least two is rendered well, its text is that of the table and the columns, and a
union of selects of the rows, and it binds what the table and the columns bind and then what each
row binds. In the union a row is written with its fields declared.

The insert of any one of the rows, into the same columns and without `ON DUPLICATE KEY UPDATE` and
`RETURNING`, is rendered well too, with the same text and values in front and the row in `VALUES`,
where its fields are declared only if they were from the start. In a row without aliases, and under
modes that declare fields, that makes no difference. -/
theorem rows_emulated {i : Insert} {rows : List Row} {r : Rendered}
    (hcaps : cfg.settings.capabilities.multiRowValues = false)
    (hsource : i.source = .values rows) (hmany : 2 ≤ rows.length)
    (h : (cfg.render (.insert i) modes past).result = .ok r) :
    let s := cfg.settings
    let alone : Configuration := { settings := cfg.settings }
    r.sql = i.targetText s modes ++ " " ++
      String.join ((rows.map fun row => s.keyword "SELECT " ++ Row.text s modes.declaring row ++
        s.keyword " FROM " ++ s.keyword "DUAL").intersperse (s.keyword " UNION ALL ")) ∧
    r.params = i.targetBinds s modes ++ rows.flatMap (Row.binds s modes.declaring) ∧
    ∀ row ∈ rows,
      (alone.render (.insert (i.single row)) modes []).result = .ok
        { sql := i.targetText s modes ++ s.keyword " VALUES " ++
            ("(" ++ Row.text s modes row ++ ")"),
          params := i.targetBinds s modes ++ Row.binds s modes row } ∧
      (Field.AllAliasFree row ∨ modes.declareFields = true →
        Row.text s modes.declaring row = Row.text s modes row ∧
          Row.binds s modes.declaring row = Row.binds s modes row) := by
  intro s alone
  obtain ⟨hvalid, -⟩ := cfg.valid_of_ok rfl h
  have hinsert : i.Valid s.dialect modes := hvalid
  have hrows : rows ≠ [] := by
    rintro rfl
    simp at hmany
  obtain ⟨hdegree, -⟩ := hinsert.rows hsource hrows
  have hos : (Part.insert i).occurrences s.dialect modes =
      i.targetOccurrences modes ++ rows.flatMap (Field.occurrencesIn modes.declaring) :=
    Insert.occurrences_rows hcaps hsource hmany hdegree
  obtain ⟨hsql, hparams⟩ := cfg.render_spelled (Dialect.unnumbered hcaps) rfl h
  refine ⟨?_, ?_, fun row hrow => ⟨cfg.render_single hcaps hsource hmany h hrow, ?_⟩⟩
  · rw [hsql]
    exact Insert.spelled_rows hcaps hsource hmany hinsert
  · rw [hparams, hos, bound_append, List.map_append, map_bound_flatMap]
    rfl
  · rintro (hfree | hdeclared)
    · exact Row.text_declaring hfree
    · rw [Modes.declaring_of_declareFields hdeclared]
      exact ⟨rfl, rfl⟩

/-- Two rows of one bind value: the first is inserted by itself with the text that it has in the
union. -/
theorem rows_emulated_two :
    let first : Row := [.val "u"]
    let i : Insert := { into := .ofName "t", source := .values [first, [.val "v"]] }
    SqlRender.render .oracle (.insert i) =
      .ok ⟨"INSERT INTO \"t\" SELECT ? FROM DUAL UNION ALL SELECT ? FROM DUAL",
        [.text "u", .text "v"]⟩ ∧
    SqlRender.render .oracle (.insert (i.single first)) =
      .ok ⟨"INSERT INTO \"t\" VALUES (?)", [.text "u"]⟩ := by
  intro first i
  let cfg : Configuration := { settings := { dialect := .oracle } }
  let r : Rendered :=
    { sql := "INSERT INTO \"t\" SELECT ? FROM DUAL UNION ALL SELECT ? FROM DUAL"
      params := [.text "u", .text "v"] }
  have hok : (cfg.render (.insert i) {} []).result = .ok r :=
    Report.result_eq_ok (by decide +kernel)
  obtain ⟨-, -, hsingle⟩ := cfg.rows_emulated rfl rfl (by decide) hok
  obtain ⟨hfirst, -⟩ := hsingle first List.mem_cons_self
  have htext : i.targetText cfg.settings {} ++ cfg.settings.keyword " VALUES " ++
      ("(" ++ Row.text cfg.settings {} first ++ ")") = "INSERT INTO \"t\" VALUES (?)" := by
    decide +kernel
  have hbinds : i.targetBinds cfg.settings {} ++ Row.binds cfg.settings {} first = [.text "u"] := by
    decide +kernel
  rw [htext, hbinds] at hfirst
  exact ⟨hok, hfirst⟩

/-- An alias is declared in the union, and only named in `VALUES`. -/
theorem alias_declared_in_union :
    let first : Row := [.aliased (.inlined (1 : Int64)) "x"]
    let i : Insert :=
      { into := .ofName "t", columns := [.named "a"]
        source := .values [first, [.inlined (2 : Int64)]] }
    SqlRender.render .oracle (.insert i) = .ok ⟨"INSERT INTO \"t\" (\"a\") " ++
      "SELECT 1 AS \"x\" FROM DUAL UNION ALL SELECT 2 FROM DUAL", []⟩ ∧
    SqlRender.render .oracle (.insert (i.single first)) =
      .ok ⟨"INSERT INTO \"t\" (\"a\") VALUES (\"x\")", []⟩ := by
  intro first i
  exact ⟨Report.result_eq_ok (by decide +kernel), Report.result_eq_ok (by decide +kernel)⟩

end Configuration

end SqlRender
