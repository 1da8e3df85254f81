import SqlRender.Proofs.Draft

/-!
# The occurrences of a part

A part is written with certain parameters, in a certain order, and each is taken to have a certain
type there. `Part.occurrences` reads these *occurrences* off the tree. What is passed over when a
part is written has none: the field behind an alias that is only named, the operand of an `IN`
without values, the lists that a dialect leaves out.

`Part.sift_visit_occurrence` says that these are the parameters in the draft of a visit, so the tree
alone tells which parameters a render meets, and when.
-/

namespace SqlRender

/-! ## Fields and tables -/

mutual

/-- The occurrences of a field. -/
def Field.occurrences (m : Modes) : Field → List Occurrence
  | .column _ => []
  | .value p => [p.occurrence m]
  | .aliased f _ => if m.declareFields then f.occurrences m else []
  | .row fields => Field.occurrencesIn m fields

/-- The occurrences of fields, in order. -/
def Field.occurrencesIn (m : Modes) : List Field → List Occurrence
  | [] => []
  | f :: fs => f.occurrences m ++ Field.occurrencesIn m fs

end

/-- The occurrences of a table. -/
def Table.occurrences (m : Modes) : Table → List Occurrence
  | .named _ _ => []
  | .aliased t _ _ => if m.declareTables then t.occurrences m else []
  | .values rows => rows.flatMap (Field.occurrencesIn m)
  | .dual => []

/-! ## Conditions and queries -/

mutual

/-- The occurrences of a condition. An operand takes the type of what it is compared with. -/
def Condition.occurrences (m : Modes) : Condition → List Occurrence
  | .comparison left _ right =>
    left.occurrences (m.assume right.dataType) ++ right.occurrences (m.assume left.dataType)
  | .not c => c.occurrences m
  | .combined _ conditions => Condition.occurrencesIn m conditions
  | .isNull f _ => f.occurrences m
  | .isIn f values _ =>
    if values.isEmpty then []
    else f.occurrences m ++ Field.occurrencesIn (m.assume f.dataType) values
  | .between f low high _ _ =>
    f.occurrences m ++
      (low.occurrences (m.assume f.dataType) ++ high.occurrences (m.assume f.dataType))
  | .exists q _ => q.occurrences m

/-- The occurrences of conditions, in order. -/
def Condition.occurrencesIn (m : Modes) : List Condition → List Occurrence
  | [] => []
  | c :: cs => c.occurrences m ++ Condition.occurrencesIn m cs

/-- The occurrences of a condition, if there is one. -/
def Condition.occurrencesOf (m : Modes) : Option Condition → List Occurrence
  | none => []
  | some c => c.occurrences m

/-- The occurrences of a query. -/
def Query.occurrences (m : Modes) : Query → List Occurrence
  | .select s => s.occurrences m
  | .unionAll selects => Select.occurrencesIn m selects

/-- The occurrences of a select, slot by slot. -/
def Select.occurrences (m : Modes) : Select → List Occurrence
  | { distinct := _, fields, tables, filter, startWith, connectBy, groupBy, having, orderBy } =>
    Field.occurrencesIn (m.switch .declareFields true) fields ++
    (tables.flatMap (Table.occurrences (m.switch .declareTables true)) ++
    (Condition.occurrencesOf m filter ++
    (Condition.occurrencesOf m startWith ++
    (Condition.occurrencesOf m connectBy ++
    (Field.occurrencesIn m groupBy ++
    (Condition.occurrencesOf m having ++
    Field.occurrencesIn m (orderBy.map SortField.field)))))))

/-- The occurrences of selects, in order. -/
def Select.occurrencesIn (m : Modes) : List Select → List Occurrence
  | [] => []
  | s :: ss => s.occurrences m ++ Select.occurrencesIn m ss

end

/-! ## Statements -/

/-- The occurrences of an assignment. The value takes the type of the target. -/
def Assignment.occurrences (m : Modes) (a : Assignment) : List Occurrence :=
  a.target.occurrences (m.switch .qualify false) ++
    a.value.occurrences (m.assume a.target.dataType)

/-- Whether many rows are written as a union of selects. -/
def Insert.isEmulated (d : Dialect) (rows : List Row) : Bool :=
  d.resolve (.insertValues rows.length) = .emulate .insertSelectUnionAll

/-- The occurrences of the rows of an insert; rows without fields are refused before they are looked
at. The rows of a union are select lists, which declare their fields. -/
def Insert.rowOccurrences (d : Dialect) (m : Modes) (columns : List Field) (rows : List Row) :
    List Occurrence :=
  if Insert.degree columns rows = 0 then []
  else if Insert.isEmulated d rows then
    rows.flatMap (Field.occurrencesIn (m.switch .declareFields true))
  else rows.flatMap (Field.occurrencesIn m)

/-- The occurrences of the source of an insert. -/
def InsertSource.occurrences (d : Dialect) (m : Modes) (columns : List Field) :
    InsertSource → List Occurrence
  | .values rows => Insert.rowOccurrences d m columns rows
  | .query q => q.occurrences m

/-- The occurrences of a list of answered fields, unless the dialect leaves it out. -/
def returningOccurrences (d : Dialect) (m : Modes) (fields : List Field) : List Occurrence :=
  if d.resolve .returning = .native then Field.occurrencesIn (m.switch .declareFields true) fields
  else []

/-- The occurrences of an insert. -/
def Insert.occurrences (d : Dialect) (m : Modes) (i : Insert) : List Occurrence :=
  i.into.occurrences (m.switch .declareTables true) ++
  (Field.occurrencesIn (m.switch .qualify false) i.columns ++
  (i.source.occurrences d m i.columns ++
  ((if d.resolve .onDuplicateKeyUpdate = .native then
      i.onDuplicateKeyUpdate.flatMap (Assignment.occurrences m) else []) ++
  returningOccurrences d m i.returning)))

/-- The occurrences of an update. -/
def Update.occurrences (d : Dialect) (m : Modes) (u : Update) : List Occurrence :=
  u.table.occurrences (m.switch .declareTables true) ++
  (u.assignments.flatMap (Assignment.occurrences m) ++
  (Condition.occurrencesOf m u.filter ++
  returningOccurrences d m u.returning))

/-- The occurrences of a delete. -/
def Delete.occurrences (m : Modes) (x : Delete) : List Occurrence :=
  x.table.occurrences (m.switch .declareTables true) ++ Condition.occurrencesOf m x.filter

/-- The occurrences of a statement. -/
def Statement.occurrences (d : Dialect) (m : Modes) : Statement → List Occurrence
  | .query q => q.occurrences m
  | .insert i => i.occurrences d m
  | .update u => u.occurrences d m
  | .delete x => x.occurrences m

/-! ## Parts -/

mutual

/-- The occurrences of a part. -/
def Part.occurrences (d : Dialect) (m : Modes) : Part → List Occurrence
  | .field f => f.occurrences m
  | .row r => Field.occurrencesIn m r
  | .table t => t.occurrences m
  | .condition c => c.occurrences m
  | .sort s => s.field.occurrences m
  | .select s => s.occurrences m
  | .query q => q.occurrences m
  | .insert i => i.occurrences d m
  | .update u => u.occurrences d m
  | .delete x => x.occurrences m
  | .statement s => s.occurrences d m
  | .forward p => p.occurrences d m
  | .custom _ steps => Step.occurrencesIn d m steps

/-- The occurrences of a step that passes every error on. A literal counts as a parameter that is
written in place. -/
def Step.occurrences (d : Dialect) (m : Modes) : Step → List Occurrence
  | .bind p => [p.occurrence m]
  | .literal v type => [⟨{ value := v, inline := true }, type⟩]
  | .visit p => p.occurrences d m
  | .visitAll fields _ => Field.occurrencesIn m fields
  | .render p => p.occurrences d m
  | .within _ steps => Step.occurrencesIn d m steps
  | .switch mode on steps => Step.occurrencesIn d (m.switch mode on) steps
  | .assume type steps => Step.occurrencesIn d (m.assume type) steps
  | _ => []

/-- The occurrences of steps, in order. -/
def Step.occurrencesIn (d : Dialect) (m : Modes) : List Step → List Occurrence
  | [] => []
  | s :: steps => s.occurrences d m ++ Step.occurrencesIn d m steps

end

/-! ## Occurrences in drafts -/

/-- The occurrence that a stroke writes. -/
def Stroke.occurrence? : Stroke → Option Occurrence
  | .ok (.literal o) => some o
  | _ => none

theorem Stroke.occurrence?_passesWords : Script.PassesWords Stroke.occurrence? :=
  ⟨fun _ => rfl, fun _ => rfl, fun _ => rfl⟩

theorem Field.occurrencesIn_eq_flatMap (m : Modes) (fs : List Field) :
    Field.occurrencesIn m fs = fs.flatMap (Field.occurrences m) := by
  induction fs with
  | nil => rfl
  | cons f fs ih => rw [Field.occurrencesIn, ih, List.flatMap_cons]

namespace Script

variable (d : Dialect) {m : Modes}

@[simp] theorem sift_require_occurrence (f : Feature) (c : Clause) :
    Script.sift Stroke.occurrence? m (Script.require d f c) = [] := by
  unfold Script.require
  split <;> simp [Stroke.occurrence?]

@[simp] theorem sift_checkDegree_occurrence (c : Clause) (expected found : Nat) :
    Script.sift Stroke.occurrence? m (Script.checkDegree d c expected found) = [] := by
  unfold Script.checkDegree
  split <;> simp [Stroke.occurrence?]

@[simp] theorem sift_failEmpty_occurrence (c : Clause) :
    Script.sift Stroke.occurrence? m (Script.failEmpty d c) = [] := by
  simp [Script.failEmpty, Stroke.occurrence?]

end Script

open Script

section

variable (d : Dialect) (m : Modes)

mutual

theorem Field.sift_body_occurrence (m : Modes) :
    ∀ f : Field, Script.sift Stroke.occurrence? m (f.body d) = f.occurrences m
  | .column c => by
    cases hq : c.qualifier <;>
      simp [Field.body, Column.body, hq, Field.occurrences, Stroke.occurrence?]
  | .value p => by simp [Field.body, Field.occurrences, Stroke.occurrence?]
  | .aliased f name => by
    simp [Field.body, Field.occurrences, Stroke.occurrence?, Field.sift_body_occurrence m f,
      Modes.isOn]
  | .row fields => by
    have ih := Field.sift_visits_occurrence m fields
    simp only [Field.body, Field.occurrences, Row.layout]
    split
    · next h =>
      rw [List.isEmpty_iff.1 h] at ih
      simpa using ih
    · rw [sift_append, sift_append, sift_listed Stroke.occurrence?_passesWords, ← sift_eq_flatMap, ih]
      simp [Stroke.occurrence?]

theorem Field.sift_visits_occurrence (m : Modes) :
    ∀ fs : List Field, Script.sift Stroke.occurrence? m (Field.visits d fs) =
      Field.occurrencesIn m fs
  | [] => rfl
  | f :: fs => by
    rw [Field.visits, Field.occurrencesIn, sift_cons, Action.sift_visit,
      Field.sift_body_occurrence m f, Field.sift_visits_occurrence m fs]

end

@[simp] theorem Field.sift_visit_occurrence (f : Field) :
    (f.visit d).sift Stroke.occurrence? m = f.occurrences m :=
  Field.sift_body_occurrence d m f

@[simp] theorem Row.sift_visit_occurrence (r : Row) :
    (Row.visit d r).sift Stroke.occurrence? m = Field.occurrencesIn m r :=
  Field.sift_body_occurrence d m (.row r)

/-- A list of fields has the occurrences of the fields. -/
@[simp] theorem Field.sift_listed_occurrence (fs : List Field) :
    Script.sift Stroke.occurrence? m (Script.listed (fs.map (Field.visit d))) =
      Field.occurrencesIn m fs := by
  rw [sift_listed Stroke.occurrence?_passesWords, Field.occurrencesIn_eq_flatMap, List.flatMap_map]
  simp

@[simp] theorem Row.sift_listed_occurrence (rows : List Row) :
    Script.sift Stroke.occurrence? m (Script.listed (rows.map (Row.visit d))) =
      rows.flatMap (Field.occurrencesIn m) := by
  rw [sift_listed Stroke.occurrence?_passesWords, List.flatMap_map]
  simp

/-- Checks write nothing. -/
theorem sift_checks_occurrence {α : Type} (c : Clause) (expected : Nat) (found : α → Nat)
    (as : List α) :
    Script.sift Stroke.occurrence? m
      (as.flatMap fun a => Script.checkDegree d c expected (found a)) = [] := by
  rw [sift_flatMap]
  simp

theorem Table.sift_body_occurrence (t : Table) :
    Script.sift Stroke.occurrence? m (t.body d) = t.occurrences m := by
  induction t with
  | named schema name => cases schema <;> simp [Table.body, Table.occurrences, Stroke.occurrence?]
  | aliased t name columns ih =>
    have hcolumns := sift_identList (m := m) Stroke.occurrence?_passesWords columns
    simp only [Table.body, Table.occurrences]
    split <;> split <;> simp [Stroke.occurrence?, Modes.isOn, ih, hcolumns]
  | values rows =>
    cases rows with
    | nil => simp [Table.body, Table.occurrences]
    | cons first rest =>
      simp only [Table.body, Table.occurrences, sift_append, Row.sift_listed_occurrence,
        sift_checks_occurrence]
      simp [Stroke.occurrence?]
  | dual => simp [Table.body, Table.occurrences, Stroke.occurrence?]

@[simp] theorem Table.sift_visit_occurrence (t : Table) :
    (t.visit d).sift Stroke.occurrence? m = t.occurrences m :=
  Table.sift_body_occurrence d m t

theorem Condition.sift_layoutIn_occurrence (f : Field) (values : List Field) (negated : Bool) :
    Script.sift Stroke.occurrence? m (Condition.layoutIn d f values negated) =
      (Condition.isIn f values negated).occurrences m := by
  simp only [Condition.layoutIn, Condition.occurrences]
  split
  · simp [Stroke.occurrence?]
  · simp [sift_checks_occurrence, Stroke.occurrence?]

theorem Condition.sift_layoutBetween_occurrence (clause : Clause) (f low high : Field)
    (negated symmetric : Bool) :
    Script.sift Stroke.occurrence? m
        (Condition.layoutBetween d clause f low high negated symmetric) =
      (Condition.between f low high negated symmetric).occurrences m := by
  cases negated <;> cases symmetric <;>
    simp [Condition.layoutBetween, Condition.occurrences, Stroke.occurrence?]

theorem Select.sift_layoutFields_occurrence (distinct : Bool) (fields : List Field) :
    Script.sift Stroke.occurrence? m (Select.layoutFields d distinct fields) =
      Field.occurrencesIn (m.switch .declareFields true) fields := by
  cases fields with
  | nil => simp [Select.layoutFields, Field.occurrencesIn, Stroke.occurrence?]
  | cons f fs =>
    rw [Select.layoutFields, sift_append]
    simp only [List.isEmpty_cons, Bool.false_eq_true, if_false, sift_cons, sift_nil,
      Action.sift_switch, Field.sift_listed_occurrence]
    simp [Stroke.occurrence?]

theorem Select.sift_layoutTables_occurrence (tables : List Table) :
    Script.sift Stroke.occurrence? m (Select.layoutTables d tables) =
      tables.flatMap (Table.occurrences (m.switch .declareTables true)) := by
  unfold Select.layoutTables
  split
  · next h =>
    rw [List.isEmpty_iff.1 h]
    split <;> simp [Stroke.occurrence?, Table.occurrences]
  · simp [sift_listed Stroke.occurrence?_passesWords, List.flatMap_map, Stroke.occurrence?]

@[simp] theorem SortField.sift_visit_occurrence (s : SortField) :
    (s.visit d).sift Stroke.occurrence? m = s.field.occurrences m := by
  simp [SortField.visit, SortField.body, Stroke.occurrence?]

theorem Script.sift_hierarchical_occurrence (clause : Clause) (condition : Script) :
    Script.sift Stroke.occurrence? m (Script.hierarchical d clause condition) =
      Script.sift Stroke.occurrence? m condition := by
  unfold Script.hierarchical
  split <;> simp

end

section

variable (d : Dialect)

mutual

theorem Condition.sift_body_occurrence (m : Modes) :
    ∀ c : Condition, Script.sift Stroke.occurrence? m (c.body d) = c.occurrences m
  | .comparison _ _ _ => by simp [Condition.body, Condition.occurrences, Stroke.occurrence?]
  | .not c => by
    simp [Condition.body, Condition.occurrences, Stroke.occurrence?,
      Condition.sift_body_occurrence m c]
  | .combined op conditions => by
    rw [Condition.body, sift_layout Stroke.occurrence?_passesWords, Condition.occurrences,
      Condition.sift_visits_occurrence m conditions]
  | .isNull _ _ => by simp [Condition.body, Condition.occurrences, Stroke.occurrence?]
  | .isIn f values negated => by
    rw [Condition.body]
    exact Condition.sift_layoutIn_occurrence d m f values negated
  | .between f low high negated symmetric => by
    rw [Condition.body]
    exact Condition.sift_layoutBetween_occurrence d m _ f low high negated symmetric
  | .exists q _ => by
    simp [Condition.body, Condition.occurrences, Stroke.occurrence?,
      Query.sift_visits_occurrence m q]

theorem Condition.sift_visits_occurrence (m : Modes) :
    ∀ cs : List Condition, Script.sift Stroke.occurrence? m (Condition.visits d cs) =
      Condition.occurrencesIn m cs
  | [] => rfl
  | c :: cs => by
    rw [Condition.visits, Condition.occurrencesIn, sift_cons, Action.sift_visit,
      Condition.sift_body_occurrence m c, Condition.sift_visits_occurrence m cs]

theorem Condition.sift_slot_occurrence (m : Modes) (word : String) :
    ∀ c : Option Condition, Script.sift Stroke.occurrence? m (Condition.slot d word c) =
      Condition.occurrencesOf m c
  | none => rfl
  | some c => by
    simp [Condition.slot, Condition.occurrencesOf, Stroke.occurrence?,
      Condition.sift_body_occurrence m c]

theorem Query.sift_visits_occurrence (m : Modes) :
    ∀ q : Query, Script.sift Stroke.occurrence? m (q.visits d) = q.occurrences m
  | .select s => by
    simp [Query.visits, Query.occurrences, Select.sift_body_occurrence m s]
  | .unionAll selects => by
    have ih := Select.sift_visits_occurrence m selects
    rw [Query.visits, Query.occurrences, sift_cons, Action.sift_visit, sift_nil, List.append_nil]
    split
    · next h =>
      rw [List.isEmpty_iff.1 h]
      simp [Select.occurrencesIn]
    · rw [sift_separated Stroke.occurrence?_passesWords, ← sift_eq_flatMap, ih]

theorem Select.sift_body_occurrence (m : Modes) :
    ∀ s : Select, Script.sift Stroke.occurrence? m (s.body d) = s.occurrences m
  | { distinct, fields, tables, filter, startWith, connectBy, groupBy, having, orderBy } => by
    -- the two lists that are not fields by themselves are read as lists of fields
    have horder : (orderBy.map (SortField.visit d)).flatMap (Action.sift Stroke.occurrence? m) =
        Field.occurrencesIn m (orderBy.map SortField.field) := by
      rw [Field.occurrencesIn_eq_flatMap, List.flatMap_map, List.flatMap_map]
      simp
    have hgroup : (groupBy.map (Field.visit d)).flatMap (Action.sift Stroke.occurrence? m) =
        Field.occurrencesIn m groupBy := by
      rw [Field.occurrencesIn_eq_flatMap, List.flatMap_map]
      simp
    rw [Select.body, Select.occurrences]
    simp only [sift_cons, sift_nil, Action.sift_within, List.append_nil,
      Select.sift_layoutFields_occurrence, Select.sift_layoutTables_occurrence,
      Script.sift_hierarchical_occurrence, sift_ifAny Stroke.occurrence?_passesWords,
      Condition.sift_slot_occurrence m, hgroup, horder]

theorem Select.sift_visits_occurrence (m : Modes) :
    ∀ ss : List Select, Script.sift Stroke.occurrence? m (Select.visits d ss) =
      Select.occurrencesIn m ss
  | [] => rfl
  | s :: ss => by
    rw [Select.visits, Select.occurrencesIn, sift_cons, Action.sift_visit,
      Select.sift_body_occurrence m s, Select.sift_visits_occurrence m ss]

end

@[simp] theorem Query.sift_visit_occurrence (m : Modes) (q : Query) :
    (q.visit d).sift Stroke.occurrence? m = q.occurrences m := by
  have h := q.sift_visits_occurrence d m
  rwa [Query.visits_eq, sift_cons, sift_nil, List.append_nil] at h

theorem Assignment.sift_listed_occurrence (m : Modes) (clause : Clause) (as : List Assignment) :
    Script.sift Stroke.occurrence? m (Assignment.listed d clause as) =
      as.flatMap (Assignment.occurrences m) := by
  have hbody : ∀ a : Assignment, Script.sift Stroke.occurrence? m (a.body d clause) =
      a.occurrences m := by
    intro a
    unfold Assignment.body Assignment.occurrences
    split <;> simp [Stroke.occurrence?]
  unfold Assignment.listed
  rw [sift_intersperse (by simp [Stroke.occurrence?]), List.flatMap_map]
  simp [hbody]

theorem sift_layoutReturning_occurrence (m : Modes) (fields : List Field) :
    Script.sift Stroke.occurrence? m (layoutReturning d fields) =
      returningOccurrences d m fields := by
  unfold layoutReturning returningOccurrences
  split
  · next h =>
    rw [List.isEmpty_iff.1 h]
    simp [Field.occurrencesIn]
  · split
    · next hplan => simp [hplan, Stroke.occurrence?]
    · next hplan =>
      rw [if_neg hplan]
      rfl

theorem Insert.sift_layoutTarget_occurrence (m : Modes) (into : Table) (columns : List Field) :
    Script.sift Stroke.occurrence? m (Insert.layoutTarget d into columns) =
      into.occurrences (m.switch .declareTables true) ++
        Field.occurrencesIn (m.switch .qualify false) columns := by
  unfold Insert.layoutTarget
  split
  · next h =>
    rw [List.isEmpty_iff.1 h]
    simp [Field.occurrencesIn, Stroke.occurrence?]
  · simp [Stroke.occurrence?]

theorem Insert.occurrences_unionOf (m : Modes) (rows : List Row) :
    (Insert.unionOf rows).occurrences m =
      rows.flatMap (Field.occurrencesIn (m.switch .declareFields true)) := by
  unfold Insert.unionOf
  rw [Query.occurrences]
  induction rows with
  | nil => rfl
  | cons r rows ih =>
    simp [Select.occurrencesIn, Select.occurrences, Condition.occurrencesOf, Field.occurrencesIn, ih]

theorem Insert.sift_layoutRows_occurrence (m : Modes) (columns : List Field) (rows : List Row) :
    Script.sift Stroke.occurrence? m (Insert.layoutRows d columns rows) =
      Insert.rowOccurrences d m columns rows := by
  have hdefaults : Script.sift Stroke.occurrence? m (Insert.layoutDefaults d columns) = [] := by
    unfold Insert.layoutDefaults
    split <;> simp [Stroke.occurrence?]
  simp only [Insert.layoutRows, Insert.rowOccurrences, sift_append, sift_checks_occurrence,
    List.nil_append]
  split
  · next h =>
    rw [List.isEmpty_iff.1 h, hdefaults]
    simp
  · split
    · simp
    · unfold Insert.isEmulated
      split
      · next hplan =>
        simp [hplan, Insert.occurrences_unionOf, Stroke.occurrence?]
      · next hplan =>
        rw [if_neg (by simpa using hplan)]
        simp [Stroke.occurrence?]

theorem InsertSource.sift_layout_occurrence (m : Modes) (columns : List Field)
    (source : InsertSource) :
    Script.sift Stroke.occurrence? m (source.layout d columns) =
      source.occurrences d m columns := by
  cases source with
  | values rows => exact Insert.sift_layoutRows_occurrence d m columns rows
  | query q => simp [InsertSource.layout, InsertSource.occurrences, Stroke.occurrence?]

theorem Insert.sift_layoutOnDuplicate_occurrence (m : Modes) (as : List Assignment) :
    Script.sift Stroke.occurrence? m (Insert.layoutOnDuplicate d as) =
      if d.resolve .onDuplicateKeyUpdate = .native then as.flatMap (Assignment.occurrences m)
      else [] := by
  have has := Assignment.sift_listed_occurrence d m .insertOnDuplicateKeyUpdateAssignment as
  unfold Insert.layoutOnDuplicate
  split
  · next h =>
    rw [List.isEmpty_iff.1 h]
    simp
  · cases d <;> simp [Dialect.resolve, Plan.nativeOr, Dialect.capabilities, has, Stroke.occurrence?]

theorem Insert.sift_body_occurrence (m : Modes) (i : Insert) :
    Script.sift Stroke.occurrence? m (i.body d) = i.occurrences d m := by
  simp [Insert.body, Insert.occurrences, Insert.sift_layoutTarget_occurrence,
    InsertSource.sift_layout_occurrence, Insert.sift_layoutOnDuplicate_occurrence,
    sift_layoutReturning_occurrence]

theorem Update.sift_body_occurrence (m : Modes) (u : Update) :
    Script.sift Stroke.occurrence? m (u.body d) = u.occurrences d m := by
  have hset : Script.sift Stroke.occurrence? m (Update.layoutSet d u.assignments) =
      u.assignments.flatMap (Assignment.occurrences m) := by
    unfold Update.layoutSet
    split
    · next h =>
      rw [List.isEmpty_iff.1 h]
      simp
    · simp [Assignment.sift_listed_occurrence, Stroke.occurrence?]
  simp [Update.body, Update.occurrences, hset, Condition.sift_slot_occurrence,
    sift_layoutReturning_occurrence, Stroke.occurrence?]

theorem Delete.sift_body_occurrence (m : Modes) (x : Delete) :
    Script.sift Stroke.occurrence? m (x.body d) = x.occurrences m := by
  simp [Delete.body, Delete.occurrences, Condition.sift_slot_occurrence, Stroke.occurrence?]

theorem Statement.sift_visit_occurrence (m : Modes) (s : Statement) :
    (s.visit d).sift Stroke.occurrence? m = s.occurrences d m := by
  cases s with
  | query q => exact q.sift_visit_occurrence d m
  | insert i => exact i.sift_body_occurrence d m
  | update u => exact u.sift_body_occurrence d m
  | delete x => exact x.sift_body_occurrence d m

theorem Query.sift_body_occurrence (m : Modes) (q : Query) :
    Script.sift Stroke.occurrence? m (q.body d) = q.occurrences m := by
  cases q with
  | select s => simp [Query.body, Query.occurrences, Select.visit, Select.sift_body_occurrence]
  | unionAll ss => exact Query.sift_visit_occurrence d m (.unionAll ss)

theorem Step.sift_notes_occurrence (m : Modes) (s : Step) :
    Script.sift Stroke.occurrence? m (s.notes d) = [] := by
  cases s <;> simp [Step.notes]

mutual

/-- **The draft of a visit holds the occurrences of the part.** -/
theorem Part.sift_visit_occurrence (m : Modes) :
    ∀ p : Part, (p.visit d).sift Stroke.occurrence? m = p.occurrences d m
  | .field f => f.sift_visit_occurrence d m
  | .row r => Row.sift_visit_occurrence d m r
  | .table t => t.sift_visit_occurrence d m
  | .condition c => c.sift_body_occurrence d m
  | .sort s => s.sift_visit_occurrence d m
  | .select s => s.sift_body_occurrence d m
  | .query q => q.sift_visit_occurrence d m
  | .insert i => i.sift_body_occurrence d m
  | .update u => u.sift_body_occurrence d m
  | .delete x => x.sift_body_occurrence d m
  | .statement s => s.sift_visit_occurrence d m
  | .forward p => by
    rw [Part.visit, Part.occurrences, Part.sift_visit_occurrence m p]
  | .custom tags steps => by
    rw [Part.visit, Part.occurrences, Action.sift_visit, Step.sift_script_occurrence m steps]

theorem Part.sift_body_occurrence (m : Modes) :
    ∀ p : Part, Script.sift Stroke.occurrence? m (p.body d) = p.occurrences d m
  | .field f => f.sift_body_occurrence d m
  | .row r => Field.sift_body_occurrence d m (.row r)
  | .table t => t.sift_body_occurrence d m
  | .condition c => c.sift_body_occurrence d m
  | .sort s => s.sift_visit_occurrence d m
  | .select s => s.sift_body_occurrence d m
  | .query q => q.sift_body_occurrence d m
  | .insert i => i.sift_body_occurrence d m
  | .update u => u.sift_body_occurrence d m
  | .delete x => x.sift_body_occurrence d m
  | .statement s => by
    rw [Part.body, Part.occurrences, sift_cons, s.sift_visit_occurrence d m, sift_nil,
      List.append_nil]
  | .forward p => by
    rw [Part.body, Part.occurrences, Part.sift_body_occurrence m p]
  | .custom _ steps => by
    rw [Part.body, Part.occurrences, Step.sift_script_occurrence m steps]

theorem Step.sift_actions_occurrence (m : Modes) :
    ∀ s : Step, Script.sift Stroke.occurrence? m (s.actions d) = s.occurrences d m
  | .write _ | .keyword _ | .ident _ | .bind _ | .literal _ _ => by
    simp [Step.actions, Step.occurrences, Stroke.occurrence?]
  | .tagsOf _ | .resolve _ | .inspect | .attempt _ => by simp [Step.actions, Step.occurrences]
  | .require _ _ | .checkDegree _ _ _ | .failEmpty _ => by simp [Step.actions, Step.occurrences]
  | .visit p => by
    simp [Step.actions, Step.occurrences, Part.sift_visit_occurrence m p]
  | .visitAll fields separator => by
    rw [Step.actions, Step.occurrences, sift_separated Stroke.occurrence?_passesWords,
      Field.occurrencesIn_eq_flatMap, List.flatMap_map]
    simp
  | .render p => by
    rw [Step.actions, Step.occurrences, Part.sift_body_occurrence m p]
  | .within _ steps | .switch _ _ steps | .assume _ steps => by
    simp [Step.actions, Step.occurrences, Step.sift_script_occurrence _ steps]

theorem Step.sift_script_occurrence (m : Modes) :
    ∀ steps : List Step, Script.sift Stroke.occurrence? m (Step.script d steps) =
      Step.occurrencesIn d m steps
  | [] => by simp [Step.script, Step.occurrencesIn]
  | s :: steps => by
    rw [Step.script, Step.occurrencesIn, sift_append, sift_append, Step.sift_actions_occurrence m s,
      Step.sift_notes_occurrence, Step.sift_script_occurrence m steps, List.append_nil]

end

end

end SqlRender
