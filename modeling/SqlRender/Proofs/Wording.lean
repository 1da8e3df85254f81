import Mathlib.Data.List.Forall2
import SqlRender.Proofs.Draft

/-!
# Other words in the same tree

A `Wording` puts other words in place of the identifiers and the text values of a tree and changes
nothing else: no parameter name, no type, no number, no shape. Whether a tree is laid out in other
words or the layout is put into other words makes no difference (`Part.draft_reword`):

```text
   tree  ──visit, draft──▸  draft  ──settle──▸  segments
    │                         │                    │
  reword                    reword               reword
    ▼                         ▼                    ▼
   tree  ──visit, draft──▸  draft  ──settle──▸  segments
```

With the wording that blanks every word, two trees that differ in words only become one tree, so
what is written for them differs in words only (`reword_settle`).
-/

namespace SqlRender

/-- What stands in place of an identifier, and in place of a text value. -/
structure Wording where
  name : String → String
  text : String → String

/-- Nothing stands in place of any word. -/
def Wording.blank : Wording := ⟨fun _ => "", fun _ => ""⟩

variable (w : Wording)

/-! ## Trees in other words -/

def Value.reword : Value → Value
  | .text s => .text (w.text s)
  | v => v

def Param.reword (p : Param) : Param := { p with value := p.value.reword w }

mutual

def Field.reword : Field → Field
  | .column c => .column { c with name := w.name c.name, qualifier := c.qualifier.map w.name }
  | .value p => .value (p.reword w)
  | .aliased f name => .aliased f.reword (w.name name)
  | .row fields => .row (Field.rewordAll fields)

def Field.rewordAll : List Field → List Field
  | [] => []
  | f :: fs => f.reword :: Field.rewordAll fs

end

def Table.reword : Table → Table
  | .named schema name => .named (schema.map w.name) (w.name name)
  | .aliased t name columns => .aliased t.reword (w.name name) (columns.map w.name)
  | .values rows => .values (rows.map (Field.rewordAll w))
  | .dual => .dual

def SortField.reword (s : SortField) : SortField := { s with field := s.field.reword w }

mutual

def Condition.reword : Condition → Condition
  | .comparison left op right => .comparison (left.reword w) op (right.reword w)
  | .not c => .not c.reword
  | .combined op conditions => .combined op (Condition.rewordAll conditions)
  | .isNull f negated => .isNull (f.reword w) negated
  | .isIn f values negated => .isIn (f.reword w) (values.map (Field.reword w)) negated
  | .between f low high negated symmetric =>
    .between (f.reword w) (low.reword w) (high.reword w) negated symmetric
  | .exists q negated => .exists q.reword negated

def Condition.rewordAll : List Condition → List Condition
  | [] => []
  | c :: cs => c.reword :: Condition.rewordAll cs

def Condition.rewordOption : Option Condition → Option Condition
  | none => none
  | some c => some c.reword

def Query.reword : Query → Query
  | .select s => .select s.reword
  | .unionAll selects => .unionAll (Select.rewordAll selects)

def Select.reword : Select → Select
  | { distinct, fields, tables, filter, startWith, connectBy, groupBy, having, orderBy } =>
    { distinct
      fields := fields.map (Field.reword w)
      tables := tables.map (Table.reword w)
      filter := Condition.rewordOption filter
      startWith := Condition.rewordOption startWith
      connectBy := Condition.rewordOption connectBy
      groupBy := groupBy.map (Field.reword w)
      having := Condition.rewordOption having
      orderBy := orderBy.map (SortField.reword w) }

def Select.rewordAll : List Select → List Select
  | [] => []
  | s :: ss => s.reword :: Select.rewordAll ss

end

def Assignment.reword (a : Assignment) : Assignment := ⟨a.target.reword w, a.value.reword w⟩

def InsertSource.reword : InsertSource → InsertSource
  | .values rows => .values (rows.map (Field.rewordAll w))
  | .query q => .query (q.reword w)

def Insert.reword (i : Insert) : Insert :=
  { into := i.into.reword w
    columns := i.columns.map (Field.reword w)
    source := i.source.reword w
    onDuplicateKeyUpdate := i.onDuplicateKeyUpdate.map (Assignment.reword w)
    returning := i.returning.map (Field.reword w) }

def Update.reword (u : Update) : Update :=
  { table := u.table.reword w
    assignments := u.assignments.map (Assignment.reword w)
    filter := Condition.rewordOption w u.filter
    returning := u.returning.map (Field.reword w) }

def Delete.reword (x : Delete) : Delete :=
  { table := x.table.reword w, filter := Condition.rewordOption w x.filter }

def Statement.reword : Statement → Statement
  | .query q => .query (q.reword w)
  | .insert i => .insert (i.reword w)
  | .update u => .update (u.reword w)
  | .delete x => .delete (x.reword w)

/-- A node in other words. A caller's part is left as it is. -/
def Part.reword : Part → Part
  | .field f => .field (f.reword w)
  | .row r => .row (Field.rewordAll w r)
  | .table t => .table (t.reword w)
  | .condition c => .condition (c.reword w)
  | .sort s => .sort (s.reword w)
  | .select s => .select (s.reword w)
  | .query q => .query (q.reword w)
  | .insert i => .insert (i.reword w)
  | .update u => .update (u.reword w)
  | .delete x => .delete (x.reword w)
  | .statement s => .statement (s.reword w)
  | .forward p => .forward p
  | .custom tags steps => .custom tags steps

/-! ## Drafts in other words -/

def Occurrence.reword (o : Occurrence) : Occurrence := { o with param := o.param.reword w }

def Segment.reword : Segment → Segment
  | .ident name => .ident (w.name name)
  | .literal o => .literal (o.reword w)
  | .placeholder slot o => .placeholder slot (o.reword w)
  | x => x

/-- A stroke in other words; errors hold none. -/
def Stroke.reword (x : Stroke) : Stroke := x.map (Segment.reword w)

@[simp] theorem Stroke.reword_error (e : RenderError) :
    Stroke.reword w (.error e) = .error e := rfl

@[simp] theorem Stroke.reword_text (s : String) :
    Stroke.reword w (.ok (.text s)) = .ok (.text s) := rfl

@[simp] theorem Stroke.reword_keyword (word : String) :
    Stroke.reword w (.ok (.keyword word)) = .ok (.keyword word) := rfl

@[simp] theorem Stroke.reword_ident (name : String) :
    Stroke.reword w (.ok (.ident name)) = .ok (.ident (w.name name)) := rfl

@[simp] theorem Stroke.reword_literal (o : Occurrence) :
    Stroke.reword w (.ok (.literal o)) = .ok (.literal (o.reword w)) := rfl

/-- The actions of two scripts have the same strokes, in other words, one by one. -/
def Script.Reworded (m : Modes) (as bs : Script) : Prop :=
  List.Forall₂ (fun a b => b.draft m = (a.draft m).map (Stroke.reword w)) as bs

namespace Script

variable {w} {m : Modes} {as bs : Script}

theorem Reworded.isEmpty_eq (h : Reworded w m as bs) : bs.isEmpty = as.isEmpty := by
  cases h <;> rfl

theorem Reworded.map {α : Type} {f : α → Action} {g : α → α}
    (h : ∀ a, (f (g a)).draft m = ((f a).draft m).map (Stroke.reword w)) (as : List α) :
    Reworded w m (as.map f) ((as.map g).map f) := by
  induction as with
  | nil => exact .nil
  | cons a as ih => exact .cons (h a) ih

/-- A separator without words of its own stands between what is put into other words. -/
theorem Reworded.intersperse (h : Reworded w m as bs) {a : Action}
    (ha : (a.draft m).map (Stroke.reword w) = a.draft m) :
    Script.draft m (bs.intersperse a) =
      (Script.draft m (as.intersperse a)).map (Stroke.reword w) := by
  induction h with
  | nil => rfl
  | @cons b b' as' bs' hb hrest ih =>
    cases hrest with
    | nil => simp [hb]
    | @cons c c' as'' bs'' hc hrest' =>
      rw [List.intersperse_cons_cons, List.intersperse_cons_cons, draft_cons, draft_cons, ih]
      simp [hb, ha]

theorem Reworded.separated (h : Reworded w m as bs) (separator : String) :
    Script.draft m (Script.separated separator bs) =
      (Script.draft m (Script.separated separator as)).map (Stroke.reword w) :=
  h.intersperse rfl

theorem Reworded.listed (h : Reworded w m as bs) :
    Script.draft m (Script.listed bs) =
      (Script.draft m (Script.listed as)).map (Stroke.reword w) :=
  h.separated ", "

@[simp] theorem map_reword_require (d : Dialect) (f : Feature) (c : Clause) :
    (Script.draft m (Script.require d f c)).map (Stroke.reword w) =
      Script.draft m (Script.require d f c) := by
  unfold Script.require
  split <;> rfl

@[simp] theorem map_reword_checkDegree (d : Dialect) (c : Clause) (expected found : Nat) :
    (Script.draft m (Script.checkDegree d c expected found)).map (Stroke.reword w) =
      Script.draft m (Script.checkDegree d c expected found) := by
  unfold Script.checkDegree
  split <;> rfl

/-- Checks that look at what other words do not change. -/
theorem draft_checks_reword {α : Type} {g : α → α} {found : α → Nat}
    (hfound : ∀ a, found (g a) = found a) (d : Dialect) (c : Clause) (expected : Nat)
    (as : List α) :
    Script.draft m ((as.map g).flatMap fun a => Script.checkDegree d c expected (found a)) =
      (Script.draft m (as.flatMap fun a => Script.checkDegree d c expected (found a))).map
        (Stroke.reword w) := by
  induction as with
  | nil => rfl
  | cons a as ih => simp [hfound, ih]

end Script

open Script

/-! ### Fields and tables -/

theorem Field.rewordAll_eq_map (fs : List Field) :
    Field.rewordAll w fs = fs.map (Field.reword w) := by
  induction fs with
  | nil => rfl
  | cons f fs ih => rw [Field.rewordAll, ih, List.map_cons]

theorem Field.length_rewordAll (fs : List Field) : (Field.rewordAll w fs).length = fs.length := by
  rw [Field.rewordAll_eq_map, List.length_map]

@[simp] theorem Field.degree_reword (f : Field) : (f.reword w).degree = f.degree := by
  cases f <;> simp [Field.reword, Field.degree, Field.length_rewordAll]

@[simp] theorem Field.isRow_reword (f : Field) : (f.reword w).isRow = f.isRow := by
  cases f <;> simp [Field.reword, Field.isRow]

@[simp] theorem Field.dataType_reword : ∀ f : Field, (f.reword w).dataType = f.dataType
  | .aliased f _ => by simpa [Field.reword, Field.dataType] using Field.dataType_reword f
  | .column _ | .value _ | .row _ => by simp [Field.reword, Field.dataType, Param.reword]

section

variable (d : Dialect)

mutual

theorem Field.draft_body_reword (m : Modes) : ∀ f : Field,
    Script.draft m ((f.reword w).body d) = (Script.draft m (f.body d)).map (Stroke.reword w)
  | .column c => by
    cases hq : c.qualifier with
    | none => simp [Field.reword, Field.body, Column.body, hq, Action.draft]
    | some q =>
      cases hon : m.isOn .qualify <;>
        simp [Field.reword, Field.body, Column.body, hq, Action.draft, hon]
  | .value p => by
    rw [Field.reword, Field.body, Field.body]
    rfl
  | .aliased f name => by
    have ih := Field.draft_body_reword m f
    cases hon : m.isOn .declareFields <;>
      simp [Field.reword, Field.body, Action.draft, hon, ih]
  | .row fields => by
    have ih := Field.reworded_visits m fields
    have hlisted := ih.listed
    rw [Field.reword, Field.body, Field.body, Row.layout, Row.layout, ih.isEmpty_eq]
    split
    · rfl
    · simp [hlisted, Action.draft]

theorem Field.reworded_visits (m : Modes) : ∀ fs : List Field,
    Reworded w m (Field.visits d fs) (Field.visits d (Field.rewordAll w fs))
  | [] => .nil
  | f :: fs => .cons (Field.draft_body_reword m f) (Field.reworded_visits m fs)

end

variable (m : Modes)

@[simp] theorem Field.draft_visit_reword (f : Field) :
    ((f.reword w).visit d).draft m = ((f.visit d).draft m).map (Stroke.reword w) :=
  f.draft_body_reword w d m

@[simp] theorem Row.draft_visit_reword (r : Row) :
    (Row.visit d (Field.rewordAll w r)).draft m = ((Row.visit d r).draft m).map (Stroke.reword w) :=
  Field.draft_body_reword w d m (.row r)

@[simp] theorem Field.draft_listed_reword (fs : List Field) :
    Script.draft m (Script.listed ((fs.map (Field.reword w)).map (Field.visit d))) =
      (Script.draft m (Script.listed (fs.map (Field.visit d)))).map (Stroke.reword w) :=
  (Reworded.map (Field.draft_visit_reword w d m) fs).listed

@[simp] theorem Row.draft_listed_reword (rows : List Row) :
    Script.draft m (Script.listed ((rows.map (Field.rewordAll w)).map (Row.visit d))) =
      (Script.draft m (Script.listed (rows.map (Row.visit d)))).map (Stroke.reword w) :=
  (Reworded.map (Row.draft_visit_reword w d m) rows).listed

theorem draft_identList_reword (names : List String) :
    Script.draft m (identList (names.map w.name)) =
      (Script.draft m (identList names)).map (Stroke.reword w) := by
  have hnames : Reworded w m (names.map Action.ident) ((names.map w.name).map Action.ident) :=
    .map (fun _ => rfl) names
  have hlist := hnames.intersperse (a := .text ", ") rfl
  simp only [identList, draft_append, hlist, List.map_append]
  rfl

theorem Table.draft_body_reword (t : Table) :
    Script.draft m ((t.reword w).body d) = (Script.draft m (t.body d)).map (Stroke.reword w) := by
  induction t with
  | named schema name => cases schema <;> simp [Table.reword, Table.body, Action.draft]
  | aliased t name columns ih =>
    have hcolumns := draft_identList_reword w m columns
    simp only [Table.reword, Table.body, List.isEmpty_map]
    cases hon : m.isOn .declareTables <;> cases columns.isEmpty <;>
      cases d.capabilities.tableAliasAs <;> simp [Action.draft, hon, ih, hcolumns]
  | values rows =>
    cases rows with
    | nil =>
      simp only [Table.reword, Table.body, List.map_nil, draft_append, List.map_append,
        map_reword_require]
      rfl
    | cons first rest =>
      have hchecks := draft_checks_reword (w := w) (m := m) (Field.length_rewordAll w) d
        .tableValues first.length (first :: rest)
      have hrows := Row.draft_listed_reword w d m (first :: rest)
      simp only [List.map_cons] at hchecks hrows
      simp only [Table.reword, Table.body, List.map_cons, draft_append, Field.length_rewordAll,
        hchecks, hrows, map_reword_require, List.map_append]
      rfl
  | dual => rfl

@[simp] theorem Table.draft_visit_reword (t : Table) :
    ((t.reword w).visit d).draft m = ((t.visit d).draft m).map (Stroke.reword w) :=
  t.draft_body_reword w d m

/-! ### Conditions and queries -/

theorem Connective.draft_layout_reword (op : Connective) {as bs : Script}
    (h : Reworded w m as bs) :
    Script.draft m (op.layout bs) = (Script.draft m (op.layout as)).map (Stroke.reword w) := by
  cases h with
  | nil => rfl
  | cons hab hrest =>
    cases hrest with
    | nil => simp [Connective.layout, hab]
    | cons hcd hrest' =>
      have hall : Reworded w m _ _ := .cons hab (.cons hcd hrest')
      have hoperands := Reworded.separated hall (" " ++ op.sql ++ " ")
      simp only [Connective.layout, draft_append, hoperands, List.map_append]
      rfl

theorem Condition.draft_layoutIn_reword (f : Field) (values : List Field) (negated : Bool) :
    Script.draft m (Condition.layoutIn d (f.reword w) (values.map (Field.reword w)) negated) =
      (Script.draft m (Condition.layoutIn d f values negated)).map (Stroke.reword w) := by
  have hchecks := fun c =>
    draft_checks_reword (w := w) (m := m) (Field.degree_reword w) d c f.degree values
  simp only [Condition.layoutIn, List.isEmpty_map]
  split
  · rfl
  · simp [hchecks, Action.draft, -List.map_map]

theorem Condition.draft_layoutBetween_reword (clause : Clause) (f low high : Field)
    (negated symmetric : Bool) :
    Script.draft m (Condition.layoutBetween d clause (f.reword w) (low.reword w) (high.reword w)
        negated symmetric) =
      (Script.draft m (Condition.layoutBetween d clause f low high negated symmetric)).map
        (Stroke.reword w) := by
  cases negated <;> cases symmetric <;> simp [Condition.layoutBetween, Action.draft]

theorem Select.draft_layoutFields_reword (distinct : Bool) (fields : List Field) :
    Script.draft m (Select.layoutFields d distinct (fields.map (Field.reword w))) =
      (Script.draft m (Select.layoutFields d distinct fields)).map (Stroke.reword w) := by
  simp only [Select.layoutFields, List.isEmpty_map]
  cases fields.isEmpty <;> simp [Action.draft, -List.map_map]

theorem Select.draft_layoutTables_reword (tables : List Table) :
    Script.draft m (Select.layoutTables d (tables.map (Table.reword w))) =
      (Script.draft m (Select.layoutTables d tables)).map (Stroke.reword w) := by
  have hlisted := (Reworded.map (w := w)
    (Table.draft_visit_reword w d (m.switch .declareTables true)) tables).listed
  simp only [Select.layoutTables, List.isEmpty_map]
  split
  · cases d <;> rfl
  · simp [Action.draft, hlisted, -List.map_map]

theorem SortField.draft_visit_reword (s : SortField) :
    ((s.reword w).visit d).draft m = ((s.visit d).draft m).map (Stroke.reword w) := by
  simp [SortField.reword, SortField.visit, SortField.body, Action.draft]

theorem Script.Reworded.ifAny {as bs : Script} (h : Reworded w m as bs) (word : String) :
    Script.draft m (Script.ifAny word bs) =
      (Script.draft m (Script.ifAny word as)).map (Stroke.reword w) := by
  have hlisted := h.listed
  simp only [Script.ifAny, h.isEmpty_eq]
  split
  · rfl
  · simp [hlisted, Action.draft]

theorem Script.draft_hierarchical_reword (clause : Clause) {as bs : Script}
    (hempty : bs.isEmpty = as.isEmpty)
    (h : Script.draft m bs = (Script.draft m as).map (Stroke.reword w)) :
    Script.draft m (Script.hierarchical d clause bs) =
      (Script.draft m (Script.hierarchical d clause as)).map (Stroke.reword w) := by
  unfold Script.hierarchical
  rw [hempty]
  split <;> simp [h]

theorem Condition.isEmpty_slot_reword (word : String) (c : Option Condition) :
    (Condition.slot d word (Condition.rewordOption w c)).isEmpty =
      (Condition.slot d word c).isEmpty := by
  cases c <;> simp [Condition.rewordOption, Condition.slot]

end

section

variable (d : Dialect)

mutual

theorem Condition.draft_body_reword (m : Modes) : ∀ c : Condition,
    Script.draft m ((c.reword w).body d) = (Script.draft m (c.body d)).map (Stroke.reword w)
  | .comparison _ _ _ => by simp [Condition.reword, Condition.body, Action.draft]
  | .not c => by
    have ih := Condition.draft_body_reword m c
    simp [Condition.reword, Condition.body, Action.draft, ih]
  | .combined op conditions => by
    rw [Condition.reword, Condition.body, Condition.body]
    exact op.draft_layout_reword w m (Condition.reworded_visits m conditions)
  | .isNull _ _ => by simp [Condition.reword, Condition.body, Action.draft]
  | .isIn f values negated => by
    rw [Condition.reword, Condition.body, Condition.body]
    exact Condition.draft_layoutIn_reword w d m f values negated
  | .between f low high negated symmetric => by
    have hclause : Condition.clause (.between (f.reword w) (low.reword w) (high.reword w) negated
        symmetric) = Condition.clause (.between f low high negated symmetric) := by
      cases negated <;> cases symmetric <;> rfl
    rw [Condition.reword, Condition.body, Condition.body, hclause]
    exact Condition.draft_layoutBetween_reword w d m _ f low high negated symmetric
  | .exists q _ => by
    have ih := Query.draft_visits_reword m q
    simp [Condition.reword, Condition.body, Action.draft, ih]

theorem Condition.reworded_visits (m : Modes) : ∀ cs : List Condition,
    Reworded w m (Condition.visits d cs) (Condition.visits d (Condition.rewordAll w cs))
  | [] => .nil
  | c :: cs => .cons (Condition.draft_body_reword m c) (Condition.reworded_visits m cs)

theorem Condition.draft_slot_reword (m : Modes) (word : String) : ∀ c : Option Condition,
    Script.draft m (Condition.slot d word (Condition.rewordOption w c)) =
      (Script.draft m (Condition.slot d word c)).map (Stroke.reword w)
  | none => rfl
  | some c => by
    have ih := Condition.draft_body_reword m c
    simp [Condition.rewordOption, Condition.slot, Action.draft, ih]

theorem Query.draft_visits_reword (m : Modes) : ∀ q : Query,
    Script.draft m ((q.reword w).visits d) = (Script.draft m (q.visits d)).map (Stroke.reword w)
  | .select s => by
    have ih := Select.draft_body_reword m s
    simp [Query.reword, Query.visits, Action.draft, ih]
  | .unionAll selects => by
    have ih := Select.reworded_visits m selects
    have hempty : (Select.rewordAll w selects).isEmpty = selects.isEmpty := by
      cases selects <;> rfl
    simp only [Query.reword, Query.visits, hempty, draft_cons, Action.draft, draft_nil,
      List.append_nil]
    split
    · rfl
    · exact ih.separated _

theorem Select.draft_body_reword (m : Modes) : ∀ s : Select,
    Script.draft m ((s.reword w).body d) = (Script.draft m (s.body d)).map (Stroke.reword w)
  | { distinct, fields, tables, filter, startWith, connectBy, groupBy, having, orderBy } => by
    have hgroup := (Reworded.map (Field.draft_visit_reword w d m) groupBy).ifAny w m " GROUP BY "
    have horder := (Reworded.map (SortField.draft_visit_reword w d m) orderBy).ifAny w m " ORDER BY "
    have hfilter := Condition.draft_slot_reword m " WHERE " filter
    have hstart := Condition.draft_slot_reword m " START WITH " startWith
    have hconnect := Condition.draft_slot_reword m " CONNECT BY " connectBy
    have hhaving := Condition.draft_slot_reword m " HAVING " having
    have hstart' := draft_hierarchical_reword w d m .selectStartWith
      (Condition.isEmpty_slot_reword w d " START WITH " startWith) hstart
    have hconnect' := draft_hierarchical_reword w d m .selectConnectBy
      (Condition.isEmpty_slot_reword w d " CONNECT BY " connectBy) hconnect
    simp only [Select.reword, Select.body, draft_cons, draft_nil, Action.draft, List.map_append,
      List.append_nil, hgroup, horder, hfilter, hhaving, hstart', hconnect',
      Select.draft_layoutFields_reword, Select.draft_layoutTables_reword]

theorem Select.reworded_visits (m : Modes) : ∀ ss : List Select,
    Reworded w m (Select.visits d ss) (Select.visits d (Select.rewordAll w ss))
  | [] => .nil
  | s :: ss => .cons (Select.draft_body_reword m s) (Select.reworded_visits m ss)

end

/-! ### Statements and parts -/

variable (m : Modes)

@[simp] theorem Query.draft_visit_reword (q : Query) :
    ((q.reword w).visit d).draft m = ((q.visit d).draft m).map (Stroke.reword w) := by
  have h := q.draft_visits_reword w d m
  simpa [Query.visits_eq] using h

theorem Assignment.draft_listed_reword (clause : Clause) (as : List Assignment) :
    Script.draft m (Assignment.listed d clause (as.map (Assignment.reword w))) =
      (Script.draft m (Assignment.listed d clause as)).map (Stroke.reword w) := by
  have hbody : ∀ a : Assignment,
      (Action.within clause ((a.reword w).body d clause)).draft m =
        ((Action.within clause (a.body d clause)).draft m).map (Stroke.reword w) := by
    intro a
    cases hrow : a.target.isRow <;>
      simp [Assignment.reword, Assignment.body, Action.draft, hrow]
  unfold Assignment.listed
  exact (Reworded.map hbody as).intersperse rfl

theorem draft_layoutReturning_reword (fields : List Field) :
    Script.draft m (layoutReturning d (fields.map (Field.reword w))) =
      (Script.draft m (layoutReturning d fields)).map (Stroke.reword w) := by
  simp only [layoutReturning, List.isEmpty_map]
  split
  · rfl
  · split
    · simp [Action.draft, -List.map_map]
    · rfl

theorem Insert.draft_layoutTarget_reword (into : Table) (columns : List Field) :
    Script.draft m (Insert.layoutTarget d (into.reword w) (columns.map (Field.reword w))) =
      (Script.draft m (Insert.layoutTarget d into columns)).map (Stroke.reword w) := by
  simp only [Insert.layoutTarget, List.isEmpty_map]
  cases columns.isEmpty <;> simp [Action.draft, -List.map_map]

theorem Insert.draft_layoutDefaults_reword (columns : List Field) :
    Script.draft m (Insert.layoutDefaults d (columns.map (Field.reword w))) =
      (Script.draft m (Insert.layoutDefaults d columns)).map (Stroke.reword w) := by
  simp only [Insert.layoutDefaults, List.isEmpty_map]
  split
  · simp [Action.draft]
  · rfl

theorem Insert.degree_reword (columns : List Field) (rows : List Row) :
    Insert.degree (columns.map (Field.reword w)) (rows.map (Field.rewordAll w)) =
      Insert.degree columns rows := by
  simp only [Insert.degree, List.isEmpty_map, List.length_map, List.head?_map, Option.map_map]
  congr 2
  cases rows <;> simp [Field.length_rewordAll]

theorem Insert.unionOf_reword (rows : List Row) :
    Insert.unionOf (rows.map (Field.rewordAll w)) = (Insert.unionOf rows).reword w := by
  have hselects : ∀ rows : List Row, Select.rewordAll w (rows.map fun r => { fields := r }) =
      (rows.map (Field.rewordAll w)).map fun r => ({ fields := r } : Select) := by
    intro rows
    induction rows with
    | nil => rfl
    | cons r rows ih =>
      simp [Select.rewordAll, Select.reword, Condition.rewordOption, Field.rewordAll_eq_map, ih]
  unfold Insert.unionOf
  rw [Query.reword, hselects]

theorem Insert.draft_layoutRows_reword (columns : List Field) (rows : List Row) :
    Script.draft m (Insert.layoutRows d (columns.map (Field.reword w))
        (rows.map (Field.rewordAll w))) =
      (Script.draft m (Insert.layoutRows d columns rows)).map (Stroke.reword w) := by
  have hchecks := draft_checks_reword (w := w) (m := m) (Field.length_rewordAll w) d .insertValues
    (Insert.degree columns rows) rows
  have hdefaults := Insert.draft_layoutDefaults_reword w d m columns
  simp only [Insert.layoutRows, Insert.degree_reword, List.isEmpty_map, List.length_map,
    Insert.unionOf_reword, draft_append, List.map_append, hchecks]
  congr 1
  split
  · exact hdefaults
  · split
    · rfl
    · split
      · next hplan => simp [hplan, Action.draft]
      · simp [Action.draft, -List.map_map]

theorem InsertSource.draft_layout_reword (columns : List Field) (source : InsertSource) :
    Script.draft m ((source.reword w).layout d (columns.map (Field.reword w))) =
      (Script.draft m (source.layout d columns)).map (Stroke.reword w) := by
  cases source with
  | values rows => exact Insert.draft_layoutRows_reword w d m columns rows
  | query q => simp [InsertSource.reword, InsertSource.layout, Action.draft]

theorem Insert.draft_layoutOnDuplicate_reword (as : List Assignment) :
    Script.draft m (Insert.layoutOnDuplicate d (as.map (Assignment.reword w))) =
      (Script.draft m (Insert.layoutOnDuplicate d as)).map (Stroke.reword w) := by
  simp only [Insert.layoutOnDuplicate, List.isEmpty_map]
  split
  · rfl
  · split
    · simp [Action.draft, Assignment.draft_listed_reword]
    · rfl

theorem Insert.draft_body_reword (i : Insert) :
    Script.draft m ((i.reword w).body d) = (Script.draft m (i.body d)).map (Stroke.reword w) := by
  simp [Insert.reword, Insert.body, Action.draft, Insert.draft_layoutTarget_reword,
    InsertSource.draft_layout_reword, Insert.draft_layoutOnDuplicate_reword,
    draft_layoutReturning_reword]

theorem Update.draft_body_reword (u : Update) :
    Script.draft m ((u.reword w).body d) = (Script.draft m (u.body d)).map (Stroke.reword w) := by
  have hset : Script.draft m (Update.layoutSet d (u.assignments.map (Assignment.reword w))) =
      (Script.draft m (Update.layoutSet d u.assignments)).map (Stroke.reword w) := by
    simp only [Update.layoutSet, List.isEmpty_map]
    split
    · rfl
    · simp [Action.draft, Assignment.draft_listed_reword]
  simp [Update.reword, Update.body, Action.draft, hset, Condition.draft_slot_reword,
    draft_layoutReturning_reword]

theorem Delete.draft_body_reword (x : Delete) :
    Script.draft m ((x.reword w).body d) = (Script.draft m (x.body d)).map (Stroke.reword w) := by
  simp [Delete.reword, Delete.body, Action.draft, Condition.draft_slot_reword]

theorem Statement.draft_visit_reword (s : Statement) :
    ((s.reword w).visit d).draft m = ((s.visit d).draft m).map (Stroke.reword w) := by
  cases s with
  | query q => exact q.draft_visit_reword w d m
  | insert i => exact i.draft_body_reword w d m
  | update u => exact u.draft_body_reword w d m
  | delete x => exact x.draft_body_reword w d m

theorem Part.isNode_reword (p : Part) : (p.reword w).isNode = p.isNode := by
  cases p <;> rfl

/-- **A node in other words has the draft of the node, in other words.** -/
theorem Part.draft_reword {p : Part} (h : p.isNode = true) :
    ((p.reword w).visit d).draft m = ((p.visit d).draft m).map (Stroke.reword w) := by
  cases p with
  | field f => exact f.draft_visit_reword w d m
  | row r => exact Row.draft_visit_reword w d m r
  | table t => exact t.draft_visit_reword w d m
  | condition c => exact c.draft_body_reword w d m
  | sort s => exact s.draft_visit_reword w d m
  | select s => exact s.draft_body_reword w d m
  | query q => exact q.draft_visit_reword w d m
  | insert i => exact i.draft_body_reword w d m
  | update u => exact u.draft_body_reword w d m
  | delete x => exact x.draft_body_reword w d m
  | statement s => exact s.draft_visit_reword w d m
  | forward | custom => cases h

end

/-! ## Settling in other words -/

theorem Value.agrees_reword {v v' : Value} (h : v.agrees v' = true) :
    (v.reword w).agrees (v'.reword w) = true := by
  cases v with
  | text s =>
    cases v' with
    | text s' =>
      -- equal texts are put into equal words
      have hs : s = s' := by simpa [Value.agrees] using h
      subst hs
      exact beq_self_eq_true (Value.text (w.text s))
    | _ => simp [Value.agrees] at h
  | _ => cases v' <;> exact h

theorem Value.hasLiteral_reword (v : Value) : (v.reword w).hasLiteral = v.hasLiteral := by
  cases v <;> rfl

theorem Param.firstOf_reword (opened : List Param) (name : String) :
    Param.firstOf (opened.map (Param.reword w)) name = Param.firstOf opened name := by
  unfold Param.firstOf
  rw [List.findIdx?_map]
  rfl

/-- Parameters that do not clash do not clash in other words. -/
theorem Param.clashes_reword {opened : List Param} {p : Param} (h : p.clashes opened = false) :
    (p.reword w).clashes (opened.map (Param.reword w)) = false := by
  unfold Param.clashes at h ⊢
  have hname : (p.reword w).name = p.name := rfl
  rw [hname]
  cases hp : p.name with
  | none => rfl
  | some name =>
    rw [hp] at h
    simp only [Option.any_some] at h ⊢
    -- names of parameters are no words, so the same parameter is found
    have hcomp : Param.isNamed name ∘ Param.reword w = Param.isNamed name := rfl
    rw [List.find?_map, hcomp]
    cases hq : opened.find? (Param.isNamed name) with
    | none => rfl
    | some q =>
      rw [hq] at h
      simp only [Option.any_some, Bool.not_eq_false', Option.map_some] at h ⊢
      exact Value.agrees_reword w h

theorem Capabilities.allot_reword (caps : Capabilities) (opened : List Param) (p : Param) :
    caps.allot (opened.map (Param.reword w)) (p.reword w) =
      ((caps.allot opened p).1, (caps.allot opened p).2.map (Param.reword w)) := by
  have hfirst : (p.reword w).name.bind (Param.firstOf (opened.map (Param.reword w))) =
      p.name.bind (Param.firstOf opened) := by
    have hname : (p.reword w).name = p.name := rfl
    rw [hname]
    cases p.name with
    | none => rfl
    | some name => exact Param.firstOf_reword w opened name
  unfold Capabilities.allot
  rw [hfirst]
  split <;> simp

theorem Stroke.settle_reword {s : Settings} {opened opened' : List Param} {x : Stroke}
    {segment : Segment} (h : x.settle s opened = some (segment, opened')) :
    (x.reword w).settle s (opened.map (Param.reword w)) =
      some (segment.reword w, opened'.map (Param.reword w)) := by
  match x with
  | .error _ | .ok (.placeholder _ _) => cases h
  | .ok (.text _) | .ok (.keyword _) | .ok (.ident _) =>
    cases h
    rfl
  | .ok (.literal o) =>
    have hin : (o.reword w).inPlace s = o.inPlace s := rfl
    have hparam : (o.reword w).param = o.param.reword w := rfl
    rw [Stroke.settle_literal] at h
    rw [Stroke.reword_literal, Stroke.settle_literal, hin, hparam]
    split at h
    · cases h
    · next hclash =>
      -- other words can only make values agree that did not, so there is no new clash
      have hclash' := Param.clashes_reword w (by simpa using hclash)
      rw [hclash', if_neg (by decide)]
      split at h
      · next hinPlace =>
        have hliteral : (o.param.reword w).value.hasLiteral = o.param.value.hasLiteral :=
          Value.hasLiteral_reword w o.param.value
        rw [if_pos hinPlace, hliteral]
        split at h
        · next hfinite =>
          rw [if_pos hfinite]
          cases h
          rfl
        · cases h
      · next hinPlace =>
        rw [if_neg hinPlace, Capabilities.allot_reword]
        cases h
        rfl

/-- **A settled draft stays settled in other words.** -/
theorem reword_settle {s : Settings} {opened opened' : List Param} {xs : List Stroke}
    {out : List Segment} (h : settle s opened xs = some (out, opened')) :
    settle s (opened.map (Param.reword w)) (xs.map (Stroke.reword w)) =
      some (out.map (Segment.reword w), opened'.map (Param.reword w)) := by
  induction xs generalizing opened out with
  | nil =>
    cases h
    rfl
  | cons x xs ih =>
    obtain ⟨segment, opened₁, rest, hx, hxs, rfl⟩ := settle_cons_eq_some.1 h
    rw [List.map_cons]
    exact settle_cons_eq_some.2
      ⟨segment.reword w, opened₁.map (Param.reword w), rest.map (Segment.reword w),
        Stroke.settle_reword w hx, ih hxs, rfl⟩

end SqlRender
