import SqlRender.Proofs.Inlining

/-!
# The types of literals

Text that is written in place may name its type, as in `DATE '2020-01-01'`. Where does the type come
from? From the parameter, if it declares one. Otherwise from the field that the parameter is read
against, its *counterpart*: the other operand of a comparison, the field that an `IN` or a `BETWEEN`
tests, the target of an assignment. Elsewhere there is none:

```text
tree         b > '2020-01-01'  AND  '2021-01-01' IS NULL           where b is a date
counterpart      b                  –
written      b > DATE '2020-01-01'  AND  '2021-01-01' IS NULL
```

A render knows nothing of counterparts: it carries an assumed type among its modes, which is
replaced where a counterpart comes in and put back behind it. `Part.situated` reads the parameters
of a part off the tree, each with its counterpart and without a word about modes, and
`Part.occurrences_eq_situated` says that this gives every occurrence its type.
`Configuration.types_follow_counterparts` draws the consequence for the text of a render.
-/

namespace SqlRender

/-! ## Parameters and their counterparts -/

/-- A parameter in a tree, with the field that it is read against, if there is one. -/
structure Situated where
  param : Param
  counterpart : Option Field

/-- The type that a parameter is written with: its own, else that of its counterpart. -/
def Situated.effectiveType (x : Situated) : Option DataType :=
  x.param.dataType <|> x.counterpart.bind Field.dataType

/-- The parameter as it is written. -/
def Situated.occurrence (x : Situated) : Occurrence := ⟨x.param, x.effectiveType⟩

mutual

/-- The parameters that are written with a field that is read against another one, in order. A row
is read against it field by field; what an alias stands for is written only where it is declared. -/
def Field.situated (declared : Bool) (counterpart : Option Field) : Field → List Situated
  | .column _ => []
  | .value p => [⟨p, counterpart⟩]
  | .aliased f _ => if declared then f.situated declared counterpart else []
  | .row fields => Field.situatedIn declared counterpart fields

/-- The parameters that are written with fields, each of them read against the same one. -/
def Field.situatedIn (declared : Bool) (counterpart : Option Field) : List Field → List Situated
  | [] => []
  | f :: fs => f.situated declared counterpart ++ Field.situatedIn declared counterpart fs

end

/-- The parameters that are written with a table. -/
def Table.situated (declared : Bool) : Table → List Situated
  | .named _ _ => []
  | .aliased t _ _ => if declared then t.situated declared else []
  | .values rows => rows.flatMap (Field.situatedIn false none)
  | .dual => []

mutual

/-- The parameters that are written with a condition. The operands of a comparison are read against
each other; values and bounds are read against the field that is tested. -/
def Condition.situated : Condition → List Situated
  | .comparison left _ right =>
    left.situated false (some right) ++ right.situated false (some left)
  | .not c => c.situated
  | .combined _ conditions => Condition.situatedIn conditions
  | .isNull f _ => f.situated false none
  | .isIn f values _ =>
    if values.isEmpty then []
    else f.situated false none ++ Field.situatedIn false (some f) values
  | .between f low high _ _ =>
    f.situated false none ++ (low.situated false (some f) ++ high.situated false (some f))
  | .exists q _ => q.situated

/-- The parameters that are written with conditions. -/
def Condition.situatedIn : List Condition → List Situated
  | [] => []
  | c :: cs => c.situated ++ Condition.situatedIn cs

/-- The parameters that are written with a condition, if there is one. -/
def Condition.situatedOf : Option Condition → List Situated
  | none => []
  | some c => c.situated

/-- The parameters that are written with a query. -/
def Query.situated : Query → List Situated
  | .select s => s.situated
  | .unionAll selects => Select.situatedIn selects

/-- The parameters that are written with a select, slot by slot. The fields of its lists have no
counterparts. -/
def Select.situated : Select → List Situated
  | { distinct := _, fields, tables, filter, startWith, connectBy, groupBy, having, orderBy } =>
    Field.situatedIn true none fields ++
    (tables.flatMap (Table.situated true) ++
    (Condition.situatedOf filter ++
    (Condition.situatedOf startWith ++
    (Condition.situatedOf connectBy ++
    (Field.situatedIn false none groupBy ++
    (Condition.situatedOf having ++
    Field.situatedIn false none (orderBy.map SortField.field)))))))

/-- The parameters that are written with selects. -/
def Select.situatedIn : List Select → List Situated
  | [] => []
  | s :: ss => s.situated ++ Select.situatedIn ss

end

/-- The parameters that are written with an assignment. The value is read against the target. -/
def Assignment.situated (a : Assignment) : List Situated :=
  a.target.situated false none ++ a.value.situated false (some a.target)

/-- The parameters that are written with the source of an insert. The rows of a union are select
lists, which declare their fields. -/
def InsertSource.situated (d : Dialect) (columns : List Field) : InsertSource → List Situated
  | .values rows =>
    if Insert.degree columns rows = 0 then []
    else rows.flatMap (Field.situatedIn (Insert.isEmulated d rows) none)
  | .query q => q.situated

/-- The parameters that are written with a list of answered fields, unless the dialect leaves it
out. -/
def returningSituated (d : Dialect) (fields : List Field) : List Situated :=
  if d.resolve .returning = .native then Field.situatedIn true none fields else []

/-- The parameters that are written with an insert. -/
def Insert.situated (d : Dialect) (i : Insert) : List Situated :=
  i.into.situated true ++
  (Field.situatedIn false none i.columns ++
  (i.source.situated d i.columns ++
  ((if d.resolve .onDuplicateKeyUpdate = .native then
      i.onDuplicateKeyUpdate.flatMap Assignment.situated else []) ++
  returningSituated d i.returning)))

/-- The parameters that are written with an update. -/
def Update.situated (d : Dialect) (u : Update) : List Situated :=
  u.table.situated true ++
  (u.assignments.flatMap Assignment.situated ++
  (Condition.situatedOf u.filter ++
  returningSituated d u.returning))

/-- The parameters that are written with a delete. -/
def Delete.situated (x : Delete) : List Situated :=
  x.table.situated true ++ Condition.situatedOf x.filter

/-- The parameters that are written with a statement. -/
def Statement.situated (d : Dialect) : Statement → List Situated
  | .query q => q.situated
  | .insert i => i.situated d
  | .update u => u.situated d
  | .delete x => x.situated

/-- The parameters that are written with a node that is visited by itself. What a caller's part does
is not looked into. -/
def Part.situated (d : Dialect) : Part → List Situated
  | .field f => f.situated false none
  | .row r => Field.situatedIn false none r
  | .table t => t.situated false
  | .condition c => c.situated
  | .sort s => s.field.situated false none
  | .select s => s.situated
  | .query q => q.situated
  | .insert i => i.situated d
  | .update u => u.situated d
  | .delete x => x.situated
  | .statement s => s.situated d
  | .forward _ | .custom _ _ => []

/-! ## Modes hand on the types of counterparts -/

/-- Modes are those of a field that is read against a counterpart. -/
structure Modes.Suits (m : Modes) (declared : Bool) (counterpart : Option Field) : Prop where
  declareFields_eq : m.declareFields = declared
  assumed_eq : m.assumed = counterpart.bind Field.dataType

namespace Modes.Suits

variable {m : Modes} {declared : Bool} {counterpart : Option Field}

/-- A render starts without counterparts. -/
theorem default : Modes.Suits {} false none := ⟨rfl, rfl⟩

/-- A counterpart takes the place of another one. -/
theorem against (h : m.Suits declared counterpart) (f : Field) :
    (m.assume f.dataType).Suits declared (some f) :=
  ⟨h.declareFields_eq, rfl⟩

theorem declaring (h : m.Suits declared counterpart) :
    (m.switch .declareFields true).Suits true counterpart :=
  ⟨rfl, h.assumed_eq⟩

theorem declaringTables (h : m.Suits declared counterpart) :
    (m.switch .declareTables true).Suits declared counterpart :=
  ⟨h.declareFields_eq, h.assumed_eq⟩

theorem unqualified (h : m.Suits declared counterpart) :
    (m.switch .qualify false).Suits declared counterpart :=
  ⟨h.declareFields_eq, h.assumed_eq⟩

end Modes.Suits

section

variable {m : Modes} {declared : Bool} {counterpart : Option Field}

mutual

/-- A field has the occurrences of its situated parameters. -/
theorem Field.occurrences_eq_situated (hm : m.Suits declared counterpart) :
    ∀ f : Field, f.occurrences m = (f.situated declared counterpart).map Situated.occurrence
  | .column _ => rfl
  | .value p => by
    simp only [Field.occurrences, Field.situated, Param.occurrence, hm.assumed_eq]
    rfl
  | .aliased f _ => by
    rw [Field.occurrences, Field.situated, hm.declareFields_eq]
    split
    · exact Field.occurrences_eq_situated hm f
    · rfl
  | .row fields => Field.occurrencesIn_eq_situatedIn hm fields

theorem Field.occurrencesIn_eq_situatedIn (hm : m.Suits declared counterpart) :
    ∀ fs : List Field, Field.occurrencesIn m fs =
      (Field.situatedIn declared counterpart fs).map Situated.occurrence
  | [] => rfl
  | f :: fs => by
    rw [Field.occurrencesIn, Field.situatedIn, List.map_append,
      Field.occurrences_eq_situated hm f, Field.occurrencesIn_eq_situatedIn hm fs]

end

/-- A list has the occurrences of its situated parameters if its members have. -/
theorem flatMap_eq_map_flatMap {α : Type} {read : α → List Occurrence}
    {situate : α → List Situated} (h : ∀ a, read a = (situate a).map Situated.occurrence)
    (as : List α) :
    as.flatMap read = (as.flatMap situate).map Situated.occurrence := by
  rw [List.map_flatMap]
  exact congrArg as.flatMap (funext h)

/-- A table has the occurrences of its situated parameters. -/
theorem Table.occurrences_eq_situated (hm : m.Suits false none) :
    ∀ t : Table, t.occurrences m = (t.situated m.declareTables).map Situated.occurrence
  | .named _ _ | .dual => rfl
  | .aliased t _ _ => by
    rw [Table.occurrences, Table.situated]
    split
    · exact Table.occurrences_eq_situated hm t
    · rfl
  | .values rows => flatMap_eq_map_flatMap (Field.occurrencesIn_eq_situatedIn hm) rows

end

section

variable {m : Modes}

/-- A declared table has the occurrences of its situated parameters. -/
theorem Table.occurrences_declared (hm : m.Suits false none) (t : Table) :
    t.occurrences (m.switch .declareTables true) = (t.situated true).map Situated.occurrence :=
  t.occurrences_eq_situated hm.declaringTables

mutual

/-- A condition has the occurrences of its situated parameters. -/
theorem Condition.occurrences_eq_situated (hm : m.Suits false none) :
    ∀ c : Condition, c.occurrences m = c.situated.map Situated.occurrence
  | .comparison left _ right => by
    rw [Condition.occurrences, Condition.situated, List.map_append,
      left.occurrences_eq_situated (hm.against right),
      right.occurrences_eq_situated (hm.against left)]
  | .not c => Condition.occurrences_eq_situated hm c
  | .combined _ conditions => Condition.occurrencesIn_eq_situatedIn hm conditions
  | .isNull f _ => f.occurrences_eq_situated hm
  | .isIn f values _ => by
    rw [Condition.occurrences, Condition.situated]
    split
    · rfl
    · rw [List.map_append, f.occurrences_eq_situated hm,
        Field.occurrencesIn_eq_situatedIn (hm.against f) values]
  | .between f low high _ _ => by
    rw [Condition.occurrences, Condition.situated, List.map_append, List.map_append,
      f.occurrences_eq_situated hm, low.occurrences_eq_situated (hm.against f),
      high.occurrences_eq_situated (hm.against f)]
  | .exists q _ => Query.occurrences_eq_situated hm q

theorem Condition.occurrencesIn_eq_situatedIn (hm : m.Suits false none) :
    ∀ cs : List Condition, Condition.occurrencesIn m cs =
      (Condition.situatedIn cs).map Situated.occurrence
  | [] => rfl
  | c :: cs => by
    rw [Condition.occurrencesIn, Condition.situatedIn, List.map_append,
      Condition.occurrences_eq_situated hm c, Condition.occurrencesIn_eq_situatedIn hm cs]

theorem Condition.occurrencesOf_eq_situatedOf (hm : m.Suits false none) :
    ∀ c : Option Condition, Condition.occurrencesOf m c =
      (Condition.situatedOf c).map Situated.occurrence
  | none => rfl
  | some c => Condition.occurrences_eq_situated hm c

/-- A query has the occurrences of its situated parameters. -/
theorem Query.occurrences_eq_situated (hm : m.Suits false none) :
    ∀ q : Query, q.occurrences m = q.situated.map Situated.occurrence
  | .select s => Select.occurrences_eq_situated hm s
  | .unionAll selects => Select.occurrencesIn_eq_situatedIn hm selects

theorem Select.occurrences_eq_situated (hm : m.Suits false none) :
    ∀ s : Select, s.occurrences m = s.situated.map Situated.occurrence
  | { distinct, fields, tables, filter, startWith, connectBy, groupBy, having, orderBy } => by
    have htables := flatMap_eq_map_flatMap (Table.occurrences_declared hm) tables
    simp only [Select.occurrences, Select.situated, List.map_append, htables,
      Field.occurrencesIn_eq_situatedIn hm.declaring, Field.occurrencesIn_eq_situatedIn hm,
      Condition.occurrencesOf_eq_situatedOf hm filter,
      Condition.occurrencesOf_eq_situatedOf hm startWith,
      Condition.occurrencesOf_eq_situatedOf hm connectBy,
      Condition.occurrencesOf_eq_situatedOf hm having]

theorem Select.occurrencesIn_eq_situatedIn (hm : m.Suits false none) :
    ∀ ss : List Select, Select.occurrencesIn m ss = (Select.situatedIn ss).map Situated.occurrence
  | [] => rfl
  | s :: ss => by
    rw [Select.occurrencesIn, Select.situatedIn, List.map_append,
      Select.occurrences_eq_situated hm s, Select.occurrencesIn_eq_situatedIn hm ss]

end

variable (hm : m.Suits false none)

include hm

theorem Assignment.occurrences_eq_situated (a : Assignment) :
    a.occurrences m = a.situated.map Situated.occurrence := by
  rw [Assignment.occurrences, Assignment.situated, List.map_append,
    a.target.occurrences_eq_situated hm.unqualified,
    a.value.occurrences_eq_situated (hm.against a.target)]

variable (d : Dialect)

theorem InsertSource.occurrences_eq_situated (columns : List Field) (source : InsertSource) :
    source.occurrences d m columns = (source.situated d columns).map Situated.occurrence := by
  cases source with
  | values rows =>
    rw [InsertSource.occurrences, Insert.rowOccurrences, InsertSource.situated]
    split
    · rfl
    · cases hemulated : Insert.isEmulated d rows
      · exact flatMap_eq_map_flatMap (Field.occurrencesIn_eq_situatedIn hm) rows
      · exact flatMap_eq_map_flatMap (Field.occurrencesIn_eq_situatedIn hm.declaring) rows
  | query q => exact q.occurrences_eq_situated hm

theorem returningOccurrences_eq_situated (fields : List Field) :
    returningOccurrences d m fields = (returningSituated d fields).map Situated.occurrence := by
  unfold returningOccurrences returningSituated
  split
  · exact Field.occurrencesIn_eq_situatedIn hm.declaring fields
  · rfl

theorem Insert.occurrences_eq_situated (i : Insert) :
    i.occurrences d m = (i.situated d).map Situated.occurrence := by
  have hduplicate : (if d.resolve .onDuplicateKeyUpdate = .native then
        i.onDuplicateKeyUpdate.flatMap (Assignment.occurrences m) else []) =
      (if d.resolve .onDuplicateKeyUpdate = .native then
        i.onDuplicateKeyUpdate.flatMap Assignment.situated else []).map Situated.occurrence := by
    split
    · exact flatMap_eq_map_flatMap (Assignment.occurrences_eq_situated hm) _
    · rfl
  rw [Insert.occurrences, Insert.situated, hduplicate, i.into.occurrences_declared hm,
    Field.occurrencesIn_eq_situatedIn hm.unqualified, i.source.occurrences_eq_situated hm d,
    returningOccurrences_eq_situated hm d]
  simp only [List.map_append]

theorem Update.occurrences_eq_situated (u : Update) :
    u.occurrences d m = (u.situated d).map Situated.occurrence := by
  have hassignments :=
    flatMap_eq_map_flatMap (Assignment.occurrences_eq_situated hm) u.assignments
  rw [Update.occurrences, Update.situated, u.table.occurrences_declared hm, hassignments,
    Condition.occurrencesOf_eq_situatedOf hm, returningOccurrences_eq_situated hm d]
  simp only [List.map_append]

theorem Delete.occurrences_eq_situated (x : Delete) :
    x.occurrences m = x.situated.map Situated.occurrence := by
  rw [Delete.occurrences, Delete.situated, List.map_append, x.table.occurrences_declared hm,
    Condition.occurrencesOf_eq_situatedOf hm]

theorem Statement.occurrences_eq_situated (s : Statement) :
    s.occurrences d m = (s.situated d).map Situated.occurrence := by
  cases s with
  | query q => exact q.occurrences_eq_situated hm
  | insert i => exact i.occurrences_eq_situated hm d
  | update u => exact u.occurrences_eq_situated hm d
  | delete x => exact x.occurrences_eq_situated hm

end

/-- **Types follow counterparts**: under default modes, a node has the occurrences of its situated
parameters, in order. -/
theorem Part.occurrences_eq_situated (d : Dialect) {p : Part} (hp : p.isNode = true) :
    p.occurrences d {} = (p.situated d).map Situated.occurrence := by
  have hm := Modes.Suits.default
  cases p with
  | field f => exact f.occurrences_eq_situated hm
  | row r => exact Field.occurrencesIn_eq_situatedIn hm r
  | table t => exact t.occurrences_eq_situated hm
  | condition c => exact c.occurrences_eq_situated hm
  | sort s => exact s.field.occurrences_eq_situated hm
  | select s => exact s.occurrences_eq_situated hm
  | query q => exact q.occurrences_eq_situated hm
  | insert i => exact i.occurrences_eq_situated hm d
  | update u => exact u.occurrences_eq_situated hm d
  | delete x => exact x.occurrences_eq_situated hm
  | statement s => exact s.occurrences_eq_situated hm d
  | forward _ | custom _ _ => cases hp

/-! ## Literals of text -/

/-- A label is what stands before text of the given type: it names a date or a timestamp, where the
dialect has such literals, and nothing else. -/
structure Labels (s : Settings) (type : Option DataType) (label : String) : Prop where
  date : label = s.keyword "DATE" ++ " " ↔
    s.capabilities.typedTemporalLiterals = true ∧ type = some .date
  timestamp : label = s.keyword "TIMESTAMP" ++ " " ↔
    s.capabilities.typedTemporalLiterals = true ∧ type = some .timestamp
  cases : label = "" ∨ label = s.keyword "DATE" ++ " " ∨ label = s.keyword "TIMESTAMP" ++ " "

/-- The three labels are told apart, in either case of keywords. -/
theorem Settings.labels_ne (s : Settings) :
    "" ≠ s.keyword "DATE" ++ " " ∧ "" ≠ s.keyword "TIMESTAMP" ++ " " ∧
      s.keyword "DATE" ++ " " ≠ s.keyword "TIMESTAMP" ++ " " := by
  unfold Settings.keyword
  cases s.keywordCase <;> decide +kernel

theorem Token.text_keyword_space (s : Settings) (word t : String) :
    String.join ([.keyword word, .plain " ", .string t].map (Token.text s)) =
      (s.keyword word ++ " ") ++ quoteString t := by
  simp [Token.text, String.join_cons, String.append_assoc]

/-- The literal of text is the text in quotes behind a label. -/
theorem Occurrence.literal_text (s : Settings) {o : Occurrence} {t : String}
    (ho : o.param.value = .text t) :
    ∃ label, Labels s o.type label ∧ o.literal s = label ++ quoteString t := by
  obtain ⟨hdate, htimestamp, hne⟩ := s.labels_ne
  have hspelled : o.literal s =
      String.join (((Value.text t).literal s.capabilities o.type).map (Token.text s)) := by
    simp [Occurrence.literal, Segment.spelling, textOf, tokensOf, Segment.tokens, ho]
  rw [hspelled]
  unfold Value.literal
  dsimp only
  split
  · next hcaps htype =>
    refine ⟨s.keyword "DATE" ++ " ", ⟨?_, ?_, .inr (.inl rfl)⟩, Token.text_keyword_space s _ t⟩
    · simp [hcaps, htype]
    · simp [hne, htype]
  · next hcaps htype =>
    refine ⟨s.keyword "TIMESTAMP" ++ " ", ⟨?_, ?_, .inr (.inr rfl)⟩,
      Token.text_keyword_space s _ t⟩
    · simp [hne.symm, htype]
    · simp [hcaps, htype]
  · next hnodate hnotimestamp =>
    refine ⟨"", ⟨?_, ?_, .inl rfl⟩, by simp [Token.text, String.join_cons]⟩
    · exact iff_of_false hdate fun h => hnodate h.1 h.2
    · exact iff_of_false htimestamp fun h => hnotimestamp h.1 h.2

/-! ## Renders -/

/-- The occurrence that a segment writes. -/
def Segment.occurrence? : Segment → Option Occurrence
  | .literal o | .placeholder _ o => some o
  | _ => none

/-- A stroke that is settled keeps its occurrence. -/
theorem Stroke.occurrence?_settle {s : Settings} {opened opened' : List Param} {x : Stroke}
    {segment : Segment} (h : x.settle s opened = some (segment, opened')) :
    segment.occurrence? = x.occurrence? := by
  match x with
  | .error _ | .ok (.placeholder _ _) => cases h
  | .ok (.text _) | .ok (.keyword _) | .ok (.ident _) =>
    cases h
    rfl
  | .ok (.literal o) =>
    rw [Stroke.settle_literal, Option.ite_none_left_eq_some] at h
    obtain ⟨-, h⟩ := h
    split at h
    · rw [Option.ite_none_right_eq_some] at h
      cases h.2
      rfl
    · cases h
      rfl

/-- A draft that is settled keeps its occurrences. -/
theorem settle_occurrences {s : Settings} {opened opened' : List Param} {xs : List Stroke}
    {out : List Segment} (h : settle s opened xs = some (out, opened')) :
    out.filterMap Segment.occurrence? = xs.filterMap Stroke.occurrence? := by
  induction xs generalizing opened out with
  | nil =>
    cases h
    rfl
  | cons x xs ih =>
    obtain ⟨segment, opened₁, rest, hx, hrest, rfl⟩ := settle_cons_eq_some.1 h
    rw [List.filterMap_cons, List.filterMap_cons, Stroke.occurrence?_settle hx, ih hrest]

/-- What stands at a cut of a list is found behind as many results as stand before it. -/
theorem getElem?_filterMap_cut {α β : Type} {f : α → Option β} {a : α} {b : β} (hf : f a = some b)
    (as as' : List α) :
    ((as ++ a :: as').filterMap f)[(as.filterMap f).length]? = some b := by
  rw [List.filterMap_append, List.filterMap_cons_some hf,
    List.getElem?_append_right (Nat.le_refl _), Nat.sub_self]
  rfl

namespace Configuration

variable (cfg : Configuration) {part : Part} {past : List Notice}

/-- A render of a node that ends well writes the situated parameters of the node, in order. -/
theorem occurrences_render (hpart : part.isNode = true) {r : Rendered}
    (h : (cfg.render part {} past).result = .ok r) :
    (cfg.render part {} past).out.filterMap Segment.occurrence? =
      (part.situated cfg.settings.dialect).map Situated.occurrence := by
  obtain ⟨opened, hsettle, -⟩ := cfg.render_ok (Part.propagates_of_isNode hpart) h
  rw [settle_occurrences hsettle, cfg.occurrences_draft]
  exact Part.occurrences_eq_situated cfg.settings.dialect hpart

/-- **Typed literals follow the counterpart's declared type, and nothing else.** Let a render of a
node under default modes end well. It writes the situated parameters of the node, in order, and text
that it writes in place, as the `n`th of them, stands behind a label that names a date or a
timestamp exactly if the dialect has typed literals and this is the effective type of the `n`th
situated parameter: its own declared type, else that of its counterpart. -/
theorem types_follow_counterparts (hpart : part.isNode = true) {r : Rendered}
    (h : (cfg.render part {} past).result = .ok r) :
    let s := cfg.settings
    let out := (cfg.render part {} past).out
    out.filterMap Segment.occurrence? = (part.situated s.dialect).map Situated.occurrence ∧
    ∀ before o after t, out = before ++ .literal o :: after → o.param.value = .text t →
      ∃ x label,
        (part.situated s.dialect)[(before.filterMap Segment.occurrence?).length]? = some x ∧
        x.param = o.param ∧ Labels s x.effectiveType label ∧
        r.sql = textOf s before ++ (label ++ quoteString t) ++ textOf s after := by
  intro s out
  have hoccurrences := cfg.occurrences_render hpart h
  refine ⟨hoccurrences, ?_⟩
  intro before o after t hout ho
  -- the literal is the occurrence of the situated parameter in its place
  have hfound : ((part.situated s.dialect).map Situated.occurrence)[
      (before.filterMap Segment.occurrence?).length]? = some o := by
    rw [← hoccurrences]
    show (out.filterMap Segment.occurrence?)[_]? = some o
    rw [hout]
    exact getElem?_filterMap_cut (f := Segment.occurrence?) rfl before after
  rw [List.getElem?_map, Option.map_eq_some_iff] at hfound
  obtain ⟨x, hx, rfl⟩ := hfound
  obtain ⟨label, hlabel, hliteral⟩ := Occurrence.literal_text s ho
  have hsql : r.sql = textOf s out := by
    obtain ⟨opened, -, rfl⟩ := cfg.render_ok (Part.propagates_of_isNode hpart) h
    rfl
  refine ⟨x, label, hx, rfl, hlabel, ?_⟩
  rw [hsql, hout, textOf_append, textOf_cons, String.append_assoc, ← hliteral]
  rfl

/-- `b > '2020-01-01' AND '2021-01-01' IS NULL`, where `b` is a date: the first text takes the type
of its counterpart, and the second one has none. -/
theorem types_follow_counterparts_sibling :
    let cfg : Configuration := { settings := { dialect := .postgres, paramStyle := .inline } }
    let b : Field := .column { name := "b", dataType := some .date }
    let first : Param := { value := .text "2020-01-01" }
    let second : Param := { value := .text "2021-01-01" }
    let part : Part := .condition (.combined .and
      [.comparison b .gt (.value first), .isNull (.value second) false])
    let before : List Segment := [.text "(", .ident "b", .text " ", .keyword ">", .text " "]
    let after : List Segment := [.keyword " IS NULL", .text ")"]
    let r : Rendered :=
      { sql := "(\"b\" > DATE '2020-01-01' AND '2021-01-01' IS NULL)", params := [] }
    (cfg.render part {} []).result = .ok r ∧
    part.situated .postgres = [⟨first, some b⟩, ⟨second, none⟩] ∧
    r.sql = textOf cfg.settings before ++ ("DATE " ++ quoteString "2020-01-01") ++
      textOf cfg.settings (.keyword " AND " :: .literal ⟨second, none⟩ :: after) ∧
    r.sql = textOf cfg.settings (before ++ [.literal ⟨first, some .date⟩, .keyword " AND "]) ++
      ("" ++ quoteString "2021-01-01") ++ textOf cfg.settings after := by
  intro cfg b first second part before after r
  have h : (cfg.render part {} []).result = .ok r := Report.result_eq_ok (by decide +kernel)
  have hout : (cfg.render part {} []).out = before ++ .literal ⟨first, some .date⟩ ::
      .keyword " AND " :: .literal ⟨second, none⟩ :: after := by decide +kernel
  obtain ⟨-, hwritten⟩ := cfg.types_follow_counterparts rfl h
  refine ⟨h, rfl, ?_, ?_⟩
  · obtain ⟨x, label, hx, -, hlabel, hsql⟩ := hwritten before _ _ "2020-01-01" hout rfl
    cases hx
    rwa [hlabel.date.2 ⟨rfl, rfl⟩] at hsql
  · obtain ⟨x, label, hx, -, hlabel, hsql⟩ := hwritten
      (before ++ [.literal ⟨first, some .date⟩, .keyword " AND "]) _ after "2021-01-01" hout rfl
    cases hx
    -- without a counterpart, the label is neither of the two that name a type
    have hempty : label = "" := by
      rcases hlabel.cases with hlabel' | hlabel' | hlabel'
      · exact hlabel'
      · cases (hlabel.date.1 hlabel').2
      · cases (hlabel.timestamp.1 hlabel').2
    rwa [hempty] at hsql

end Configuration

end SqlRender
