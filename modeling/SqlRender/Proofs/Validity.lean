import SqlRender.Proofs.Binding

/-!
# Valid nodes

The errors of a render are raised by checks that are scattered over the layout of every node, some
before and some behind the visit of its children, and some subtrees are never looked at. This module
says in one place, node by node, what makes a node *valid* for a dialect:

* rows have fields, and rows that belong together have the same degree;
* lists that must not be empty are not;
* syntax stands only where the dialect has a form for it;
* nothing is asked of what is not written: the field behind an alias that is only named, the operand
  of an `IN` without values, the lists that the dialect leaves out.

`Part.sift_visit_fault` says that the checks of a node raise nothing exactly if it is valid, and
`Configuration.render_isOk_iff_valid` that a render nobody listens to ends well exactly if the node
is valid, every value in place is finite, and no name stands for two values.
-/

namespace SqlRender

/-- Whether a dialect has a form for a feature. -/
def Dialect.Supports (d : Dialect) (f : Feature) : Prop := d.resolve f ≠ .unsupported

/-! ## Validity -/

mutual

/-- What an alias stands for is written only where fields are declared. -/
def Field.Valid (declared : Bool) : Field → Prop
  | .column _ => True
  | .value _ => True
  | .aliased f _ => declared = true → f.Valid declared
  | .row fields => fields ≠ [] ∧ Field.AllValid declared fields

def Field.AllValid (declared : Bool) : List Field → Prop
  | [] => True
  | f :: fs => f.Valid declared ∧ Field.AllValid declared fs

end

def Table.Valid (d : Dialect) (m : Modes) : Table → Prop
  | .named _ _ => True
  | .aliased t _ _ => m.declareTables = true → t.Valid d m
  | .values rows =>
    d.Supports .valuesTable ∧ rows ≠ [] ∧ (∀ r ∈ rows, ∀ r' ∈ rows, r.length = r'.length) ∧
      ∀ r ∈ rows, Field.Valid m.declareFields (.row r)
  | .dual => True

section

variable (d : Dialect) (m : Modes)

mutual

def Condition.Valid : Condition → Prop
  | .comparison left _ right =>
    left.degree = right.degree ∧ left.Valid m.declareFields ∧ right.Valid m.declareFields
  | .not c => c.Valid
  | .combined _ conditions => Condition.AllValid conditions
  | .isNull f _ => f.Valid m.declareFields
  | .isIn f values _ =>
    values ≠ [] → (∀ v ∈ values, f.degree = v.degree) ∧ f.Valid m.declareFields ∧
      ∀ v ∈ values, v.Valid m.declareFields
  | .between f low high _ symmetric =>
    (symmetric = true → d.Supports .betweenSymmetric) ∧ f.degree = low.degree ∧
      f.degree = high.degree ∧ f.Valid m.declareFields ∧ low.Valid m.declareFields ∧
      high.Valid m.declareFields
  | .exists q _ => q.Valid

def Condition.AllValid : List Condition → Prop
  | [] => True
  | c :: cs => c.Valid ∧ Condition.AllValid cs

def Condition.ValidIfAny : Option Condition → Prop
  | none => True
  | some c => c.Valid

def Query.Valid : Query → Prop
  | .select s => s.Valid
  | .unionAll selects => selects ≠ [] ∧ Select.AllValid selects

/-- The select list declares its fields, and the `FROM` its tables. -/
def Select.Valid : Select → Prop
  | { distinct := _, fields, tables, filter, startWith, connectBy, groupBy, having, orderBy } =>
    (∀ f ∈ fields, f.Valid true) ∧
    (∀ t ∈ tables, t.Valid d (m.switch .declareTables true)) ∧
    Condition.ValidIfAny filter ∧
    ((startWith ≠ none → d.Supports .connectBy) ∧ Condition.ValidIfAny startWith) ∧
    ((connectBy ≠ none → d.Supports .connectBy) ∧ Condition.ValidIfAny connectBy) ∧
    (∀ f ∈ groupBy, f.Valid m.declareFields) ∧
    Condition.ValidIfAny having ∧
    ∀ s ∈ orderBy, s.field.Valid m.declareFields

def Select.AllValid : List Select → Prop
  | [] => True
  | s :: ss => s.Valid ∧ Select.AllValid ss

end

def Assignment.Valid (a : Assignment) : Prop :=
  a.target.degree = a.value.degree ∧ (a.target.isRow = true → d.Supports .rowValueAssignment) ∧
    a.target.Valid m.declareFields ∧ a.value.Valid m.declareFields

/-- Without rows, the columns take their defaults and must not be named. With rows, all have the
degree of the columns, or of the first row if no columns are named, and it is not zero. The rows of
a union of selects are select lists, which declare their fields. -/
def InsertSource.Valid (columns : List Field) : InsertSource → Prop
  | .values rows =>
    (rows = [] → columns = [] ∧ d.Supports .defaultValues) ∧
    (rows ≠ [] → Insert.degree columns rows ≠ 0) ∧
    (∀ r ∈ rows, Insert.degree columns rows = r.length) ∧
    ∀ r ∈ rows, ∀ f ∈ r, f.Valid (Insert.isEmulated d rows || m.declareFields)
  | .query q => q.Valid d m

def Insert.Valid (i : Insert) : Prop :=
  i.into.Valid d (m.switch .declareTables true) ∧
  (∀ f ∈ i.columns, f.Valid m.declareFields) ∧
  i.source.Valid d m i.columns ∧
  (d.resolve .onDuplicateKeyUpdate = .native → ∀ a ∈ i.onDuplicateKeyUpdate, a.Valid d m) ∧
  (d.resolve .returning = .native → ∀ f ∈ i.returning, f.Valid true)

def Update.Valid (u : Update) : Prop :=
  u.table.Valid d (m.switch .declareTables true) ∧
  u.assignments ≠ [] ∧
  (∀ a ∈ u.assignments, a.Valid d m) ∧
  Condition.ValidIfAny d m u.filter ∧
  (d.resolve .returning = .native → ∀ f ∈ u.returning, f.Valid true)

def Delete.Valid (x : Delete) : Prop :=
  x.table.Valid d (m.switch .declareTables true) ∧ Condition.ValidIfAny d m x.filter

def Statement.Valid : Statement → Prop
  | .query q => q.Valid d m
  | .insert i => i.Valid d m
  | .update u => u.Valid d m
  | .delete x => x.Valid d m

/-- Whether a node is valid. A caller's part is not a node. -/
def Part.Valid : Part → Prop
  | .field f => f.Valid m.declareFields
  | .row r => Field.Valid m.declareFields (.row r)
  | .table t => t.Valid d m
  | .condition c => c.Valid d m
  | .sort s => s.field.Valid m.declareFields
  | .select s => s.Valid d m
  | .query q => q.Valid d m
  | .insert i => i.Valid d m
  | .update u => u.Valid d m
  | .delete x => x.Valid d m
  | .statement s => s.Valid d m
  | .forward _ => False
  | .custom _ _ => False

end

/-! ## Faults in drafts -/

/-- A stroke that cannot be settled whatever was bound before. -/
def Stroke.fault? : Stroke → Option Unit
  | .error _ | .ok (.placeholder _ _) => some ()
  | _ => none

theorem Stroke.fault?_passesWords : Script.PassesWords Stroke.fault? :=
  ⟨fun _ => rfl, fun _ => rfl, fun _ => rfl⟩

theorem Field.allValid_iff (declared : Bool) (fs : List Field) :
    Field.AllValid declared fs ↔ ∀ f ∈ fs, f.Valid declared := by
  induction fs with
  | nil => simp [Field.AllValid]
  | cons f fs ih => simp [Field.AllValid, ih]

namespace Script

variable (d : Dialect) {m : Modes}

@[simp] theorem sift_require_fault (f : Feature) (c : Clause) :
    Script.sift Stroke.fault? m (Script.require d f c) = [] ↔ d.Supports f := by
  unfold Script.require Dialect.Supports
  split <;> simp [Stroke.fault?, *]

@[simp] theorem sift_checkDegree_fault (c : Clause) (expected found : Nat) :
    Script.sift Stroke.fault? m (Script.checkDegree d c expected found) = [] ↔
      expected = found := by
  unfold Script.checkDegree
  split <;> simp [Stroke.fault?, *]

@[simp] theorem sift_failEmpty_fault (c : Clause) :
    Script.sift Stroke.fault? m (Script.failEmpty d c) ≠ [] := by
  simp [Script.failEmpty, Stroke.fault?]

/-- Checks raise nothing if every one of them finds the degree that it expects. -/
theorem sift_checks_fault {α : Type} (c : Clause) (expected : Nat) (found : α → Nat)
    (as : List α) :
    Script.sift Stroke.fault? m
        (as.flatMap fun a => Script.checkDegree d c expected (found a)) = [] ↔
      ∀ a ∈ as, expected = found a := by
  simp [sift_flatMap, List.flatMap_eq_nil_iff]

theorem sift_listed_fault {α : Type} {f : α → Action} (as : List α) :
    Script.sift Stroke.fault? m (Script.listed (as.map f)) = [] ↔
      ∀ a ∈ as, (f a).sift Stroke.fault? m = [] := by
  rw [sift_listed Stroke.fault?_passesWords, List.flatMap_eq_nil_iff]
  simp

end Script

open Script

/-! ### Fields and tables -/

section

variable (d : Dialect)

mutual

theorem Field.sift_body_fault (m : Modes) : ∀ f : Field,
    Script.sift Stroke.fault? m (f.body d) = [] ↔ f.Valid m.declareFields
  | .column c => by
    cases hq : c.qualifier <;> simp [Field.body, Column.body, hq, Field.Valid, Stroke.fault?]
  | .value p => by simp [Field.body, Field.Valid, Stroke.fault?]
  | .aliased f name => by
    have ih := Field.sift_body_fault m f
    cases hdeclared : m.declareFields <;> rw [hdeclared] at ih <;>
      simp [Field.body, Field.Valid, Modes.isOn, hdeclared, ih, Stroke.fault?]
  | .row fields => by
    have ih := Field.sift_visits_fault m fields
    cases fields with
    | nil => simp [Field.body, Field.visits, Row.layout, Field.Valid]
    | cons f fs =>
      rw [Field.visits, sift_cons, Action.sift_visit, List.append_eq_nil_iff] at ih
      rw [Field.body, Field.visits, Row.layout, if_neg (by simp), sift_append, sift_append,
        sift_listed Stroke.fault?_passesWords, ← sift_eq_flatMap]
      simp [Field.Valid, ih, Stroke.fault?]

theorem Field.sift_visits_fault (m : Modes) : ∀ fs : List Field,
    Script.sift Stroke.fault? m (Field.visits d fs) = [] ↔ Field.AllValid m.declareFields fs
  | [] => by simp [Field.visits, Field.AllValid]
  | f :: fs => by
    rw [Field.visits, Field.AllValid, sift_cons, Action.sift_visit, List.append_eq_nil_iff,
      Field.sift_body_fault m f, Field.sift_visits_fault m fs]

end

variable (m : Modes)

@[simp] theorem Field.sift_visit_fault (f : Field) :
    (f.visit d).sift Stroke.fault? m = [] ↔ f.Valid m.declareFields :=
  f.sift_body_fault d m

@[simp] theorem Row.sift_visit_fault (r : Row) :
    (Row.visit d r).sift Stroke.fault? m = [] ↔ Field.Valid m.declareFields (.row r) :=
  Field.sift_body_fault d m (.row r)

theorem Table.sift_body_fault (t : Table) :
    Script.sift Stroke.fault? m (t.body d) = [] ↔ t.Valid d m := by
  induction t with
  | named schema name => cases schema <;> simp [Table.body, Table.Valid, Stroke.fault?]
  | aliased t name columns ih =>
    have hcolumns := sift_identList (m := m) Stroke.fault?_passesWords columns
    simp only [Table.body, Table.Valid]
    split <;> split <;> simp [Stroke.fault?, Modes.isOn, ih, hcolumns]
  | values rows =>
    cases rows with
    | nil => simp [Table.body, Table.Valid]
    | cons first rest =>
      -- the checks compare with the first row only
      have hdegrees : (∀ r ∈ first :: rest, first.length = r.length) ↔
          ∀ r ∈ first :: rest, ∀ r' ∈ first :: rest, r.length = r'.length := by
        constructor
        · intro h r hr r' hr'
          rw [← h r hr, h r' hr']
        · intro h r hr
          exact h first List.mem_cons_self r hr
      simp only [Table.body, Table.Valid, sift_append, List.append_eq_nil_iff, sift_checks_fault,
        sift_listed_fault, Row.sift_visit_fault, sift_require_fault, hdegrees]
      simp [Stroke.fault?]
  | dual => simp [Table.body, Table.Valid, Stroke.fault?]

@[simp] theorem Table.sift_visit_fault (t : Table) :
    (t.visit d).sift Stroke.fault? m = [] ↔ t.Valid d m :=
  t.sift_body_fault d m

/-! ### Conditions and queries -/

theorem Condition.sift_layoutIn_fault (f : Field) (values : List Field) (negated : Bool) :
    Script.sift Stroke.fault? m (Condition.layoutIn d f values negated) = [] ↔
      (Condition.isIn f values negated).Valid d m := by
  have hvalues := sift_listed_fault (m := m.assume f.dataType) (f := Field.visit d) values
  simp only [Condition.layoutIn, Condition.Valid]
  split
  · next h => simp [List.isEmpty_iff.1 h, Stroke.fault?]
  · next h =>
    have hne : values ≠ [] := fun e => h (List.isEmpty_iff.2 e)
    simp only [sift_append, sift_cons, sift_nil, List.append_eq_nil_iff, sift_checks_fault,
      Action.sift_assume, hvalues, Field.sift_visit_fault]
    simp [Stroke.fault?, hne, Modes.assume]

theorem Condition.sift_layoutBetween_fault (clause : Clause) (f low high : Field)
    (negated symmetric : Bool) :
    Script.sift Stroke.fault? m (Condition.layoutBetween d clause f low high negated symmetric) = [] ↔
      (Condition.between f low high negated symmetric).Valid d m := by
  cases negated <;> cases symmetric <;>
    simp [Condition.layoutBetween, Condition.Valid, Stroke.fault?, Modes.assume]

theorem Select.sift_layoutFields_fault (distinct : Bool) (fields : List Field) :
    Script.sift Stroke.fault? m (Select.layoutFields d distinct fields) = [] ↔
      ∀ f ∈ fields, f.Valid true := by
  have hfields := sift_listed_fault (m := m.switch .declareFields true) (f := Field.visit d) fields
  have hkeyword : Action.sift Stroke.fault? m
      (.keyword (if distinct then "SELECT DISTINCT " else "SELECT ")) = [] := by
    simp [Stroke.fault?]
  simp only [Select.layoutFields, sift_append, sift_cons, sift_nil, hkeyword, List.nil_append]
  split
  · next h => simp [List.isEmpty_iff.1 h, Stroke.fault?]
  · simp only [sift_cons, sift_nil, List.append_nil, Action.sift_switch, hfields,
      Field.sift_visit_fault]
    rfl

theorem Select.sift_layoutTables_fault (tables : List Table) :
    Script.sift Stroke.fault? m (Select.layoutTables d tables) = [] ↔
      ∀ t ∈ tables, t.Valid d (m.switch .declareTables true) := by
  have htables := sift_listed_fault (m := m.switch .declareTables true) (f := Table.visit d) tables
  unfold Select.layoutTables
  split
  · next h =>
    rw [List.isEmpty_iff.1 h]
    split <;> simp [Stroke.fault?, Table.Valid]
  · simp only [sift_cons, sift_nil, List.append_nil, Action.sift_switch, List.append_eq_nil_iff,
      htables, Table.sift_visit_fault]
    simp [Stroke.fault?]

@[simp] theorem SortField.sift_visit_fault (s : SortField) :
    (s.visit d).sift Stroke.fault? m = [] ↔ s.field.Valid m.declareFields := by
  simp [SortField.visit, SortField.body, Stroke.fault?]

theorem Script.sift_ifAny_fault {α : Type} (word : String) {f : α → Action} (as : List α) :
    Script.sift Stroke.fault? m (Script.ifAny word (as.map f)) = [] ↔
      ∀ a ∈ as, (f a).sift Stroke.fault? m = [] := by
  rw [sift_ifAny Stroke.fault?_passesWords, List.flatMap_eq_nil_iff]
  simp

end

section

variable (d : Dialect)

mutual

theorem Condition.sift_body_fault (m : Modes) : ∀ c : Condition,
    Script.sift Stroke.fault? m (c.body d) = [] ↔ c.Valid d m
  | .comparison _ _ _ => by
    simp [Condition.body, Condition.Valid, Stroke.fault?, Modes.assume]
  | .not c => by
    simp [Condition.body, Condition.Valid, Stroke.fault?, Condition.sift_body_fault m c]
  | .combined op conditions => by
    rw [Condition.body, sift_layout Stroke.fault?_passesWords, Condition.Valid,
      Condition.sift_visits_fault m conditions]
  | .isNull _ _ => by simp [Condition.body, Condition.Valid, Stroke.fault?]
  | .isIn f values negated => by
    rw [Condition.body]
    exact Condition.sift_layoutIn_fault d m f values negated
  | .between f low high negated symmetric => by
    rw [Condition.body]
    exact Condition.sift_layoutBetween_fault d m _ f low high negated symmetric
  | .exists q _ => by
    simp [Condition.body, Condition.Valid, Stroke.fault?, Query.sift_visits_fault m q]

theorem Condition.sift_visits_fault (m : Modes) : ∀ cs : List Condition,
    Script.sift Stroke.fault? m (Condition.visits d cs) = [] ↔ Condition.AllValid d m cs
  | [] => by simp [Condition.visits, Condition.AllValid]
  | c :: cs => by
    rw [Condition.visits, Condition.AllValid, sift_cons, Action.sift_visit,
      List.append_eq_nil_iff, Condition.sift_body_fault m c, Condition.sift_visits_fault m cs]

theorem Condition.sift_slot_fault (m : Modes) (word : String) : ∀ c : Option Condition,
    Script.sift Stroke.fault? m (Condition.slot d word c) = [] ↔ Condition.ValidIfAny d m c
  | none => by simp [Condition.slot, Condition.ValidIfAny]
  | some c => by
    simp [Condition.slot, Condition.ValidIfAny, Stroke.fault?, Condition.sift_body_fault m c]

/-- The hierarchical syntax is needed only for a condition that is there. -/
theorem Condition.sift_hierarchical_fault (m : Modes) (clause : Clause) (word : String) :
    ∀ c : Option Condition,
      Script.sift Stroke.fault? m (Script.hierarchical d clause (Condition.slot d word c)) = [] ↔
        (c ≠ none → d.Supports .connectBy) ∧ Condition.ValidIfAny d m c
  | none => by simp [Script.hierarchical, Condition.slot, Condition.ValidIfAny]
  | some c => by
    simp [Script.hierarchical, Condition.slot, Condition.ValidIfAny, Stroke.fault?,
      Condition.sift_body_fault m c]

theorem Query.sift_visits_fault (m : Modes) : ∀ q : Query,
    Script.sift Stroke.fault? m (q.visits d) = [] ↔ q.Valid d m
  | .select s => by simp [Query.visits, Query.Valid, Select.sift_body_fault m s]
  | .unionAll selects => by
    have ih := Select.sift_visits_fault m selects
    rw [Query.visits, Query.Valid, sift_cons, Action.sift_visit, sift_nil, List.append_nil]
    split
    · next h => simp [List.isEmpty_iff.1 h]
    · next h =>
      have hne : selects ≠ [] := fun e => h (List.isEmpty_iff.2 e)
      rw [sift_separated Stroke.fault?_passesWords, ← sift_eq_flatMap, ih]
      simp [hne]

theorem Select.sift_body_fault (m : Modes) : ∀ s : Select,
    Script.sift Stroke.fault? m (s.body d) = [] ↔ s.Valid d m
  | { distinct, fields, tables, filter, startWith, connectBy, groupBy, having, orderBy } => by
    rw [Select.body, Select.Valid]
    simp only [sift_cons, sift_nil, Action.sift_within, List.append_nil, List.append_eq_nil_iff,
      Select.sift_layoutFields_fault, Select.sift_layoutTables_fault,
      Condition.sift_hierarchical_fault m, Script.sift_ifAny_fault,
      Condition.sift_slot_fault m, Field.sift_visit_fault, SortField.sift_visit_fault]

theorem Select.sift_visits_fault (m : Modes) : ∀ ss : List Select,
    Script.sift Stroke.fault? m (Select.visits d ss) = [] ↔ Select.AllValid d m ss
  | [] => by simp [Select.visits, Select.AllValid]
  | s :: ss => by
    rw [Select.visits, Select.AllValid, sift_cons, Action.sift_visit, List.append_eq_nil_iff,
      Select.sift_body_fault m s, Select.sift_visits_fault m ss]

end

@[simp] theorem Query.sift_visit_fault (m : Modes) (q : Query) :
    (q.visit d).sift Stroke.fault? m = [] ↔ q.Valid d m := by
  have h := q.sift_visits_fault d m
  rwa [Query.visits_eq, sift_cons, sift_nil, List.append_nil] at h

/-! ### Statements -/

theorem Assignment.sift_listed_fault (m : Modes) (clause : Clause) (as : List Assignment) :
    Script.sift Stroke.fault? m (Assignment.listed d clause as) = [] ↔
      ∀ a ∈ as, a.Valid d m := by
  have hbody : ∀ a : Assignment, Script.sift Stroke.fault? m (a.body d clause) = [] ↔
      a.Valid d m := by
    intro a
    unfold Assignment.body Assignment.Valid
    split <;> simp [Stroke.fault?, Modes.switch, Modes.assume, *]
  unfold Assignment.listed
  rw [sift_intersperse (by simp [Stroke.fault?]), List.flatMap_map, List.flatMap_eq_nil_iff]
  simp [hbody]

/-- A list of returned fields is looked at only where the dialect has one. -/
theorem sift_layoutReturning_fault (m : Modes) (fields : List Field) :
    Script.sift Stroke.fault? m (layoutReturning d fields) = [] ↔
      (d.resolve .returning = .native → ∀ f ∈ fields, f.Valid true) := by
  have hfields := sift_listed_fault (m := m.switch .declareFields true) (f := Field.visit d) fields
  unfold layoutReturning
  split
  · next h => simp [List.isEmpty_iff.1 h]
  · split
    · next hplan =>
      simp only [hplan, sift_cons, sift_nil, List.append_nil, Action.sift_switch,
        List.append_eq_nil_iff, hfields, Field.sift_visit_fault]
      simp [Stroke.fault?, Modes.switch]
    · next hplan => exact ⟨fun _ hnative => (hplan hnative).elim, fun _ => rfl⟩

theorem Insert.sift_layoutTarget_fault (m : Modes) (into : Table) (columns : List Field) :
    Script.sift Stroke.fault? m (Insert.layoutTarget d into columns) = [] ↔
      into.Valid d (m.switch .declareTables true) ∧ ∀ f ∈ columns, f.Valid m.declareFields := by
  have hcolumns := sift_listed_fault (m := m.switch .qualify false) (f := Field.visit d) columns
  unfold Insert.layoutTarget
  split
  · next h => simp [List.isEmpty_iff.1 h, Stroke.fault?]
  · simp only [sift_append, sift_cons, sift_nil, List.append_nil, Action.sift_switch,
      List.append_eq_nil_iff, hcolumns, Table.sift_visit_fault, Field.sift_visit_fault]
    simp [Stroke.fault?, Modes.switch]

/-- The selects that stand for the rows of an insert hold nothing but the fields of these. -/
theorem Insert.valid_unionOf (m : Modes) (rows : List Row) :
    (Insert.unionOf rows).Valid d m ↔ rows ≠ [] ∧ ∀ r ∈ rows, ∀ f ∈ r, f.Valid true := by
  have hselects : Select.AllValid d m (rows.map fun r => { fields := r }) ↔
      ∀ r ∈ rows, ∀ f ∈ r, f.Valid true := by
    induction rows with
    | nil => simp [Select.AllValid]
    | cons r rows ih => simp [Select.AllValid, Select.Valid, Condition.ValidIfAny, ih]
  rw [Insert.unionOf, Query.Valid, hselects]
  simp

theorem Insert.sift_layoutDefaults_fault (m : Modes) (columns : List Field) :
    Script.sift Stroke.fault? m (Insert.layoutDefaults d columns) = [] ↔
      columns = [] ∧ d.Supports .defaultValues := by
  unfold Insert.layoutDefaults
  split
  · next h => simp [List.isEmpty_iff.1 h, Stroke.fault?]
  · next h =>
    have hne : columns ≠ [] := fun e => h (List.isEmpty_iff.2 e)
    simp [hne]

theorem Insert.sift_layoutRows_fault (m : Modes) (columns : List Field) (rows : List Row) :
    Script.sift Stroke.fault? m (Insert.layoutRows d columns rows) = [] ↔
      (InsertSource.values rows).Valid d m columns := by
  simp only [Insert.layoutRows, InsertSource.Valid, sift_append, List.append_eq_nil_iff,
    sift_checks_fault]
  split
  · next h =>
    rw [List.isEmpty_iff.1 h, Insert.sift_layoutDefaults_fault]
    simp
  · next h =>
    have hne : rows ≠ [] := fun e => h (List.isEmpty_iff.2 e)
    split
    · next hzero => simp [hne, hzero]
    · next hdegree =>
      unfold Insert.isEmulated
      split
      · next hplan =>
        simp [hne, hdegree, hplan, Insert.valid_unionOf, Stroke.fault?]
      · next hplan =>
        have hrows := sift_listed_fault (m := m) (f := Row.visit d) rows
        have hnative : decide (d.resolve (.insertValues rows.length) =
            .emulate .insertSelectUnionAll) = false := decide_eq_false hplan
        simp only [sift_cons, sift_nil, List.append_nil, Action.sift_within, Action.sift_keyword,
          Stroke.fault?, Option.toList_none, List.nil_append, hrows, Row.sift_visit_fault, hnative,
          Bool.false_or, Field.Valid, Field.allValid_iff]
        constructor
        · rintro ⟨hlength, hvalid⟩
          exact ⟨fun e => (hne e).elim, fun _ => hdegree, hlength, fun r hr => (hvalid r hr).2⟩
        · rintro ⟨-, -, hlength, hvalid⟩
          refine ⟨hlength, fun r hr => ⟨fun e => ?_, hvalid r hr⟩⟩
          -- a row without fields would have the degree zero
          exact hdegree (by rw [hlength r hr, e, List.length_nil])

theorem InsertSource.sift_layout_fault (m : Modes) (columns : List Field)
    (source : InsertSource) :
    Script.sift Stroke.fault? m (source.layout d columns) = [] ↔ source.Valid d m columns := by
  cases source with
  | values rows => exact Insert.sift_layoutRows_fault d m columns rows
  | query q => simp [InsertSource.layout, InsertSource.Valid, Stroke.fault?]

theorem Insert.sift_layoutOnDuplicate_fault (m : Modes) (as : List Assignment) :
    Script.sift Stroke.fault? m (Insert.layoutOnDuplicate d as) = [] ↔
      (d.resolve .onDuplicateKeyUpdate = .native → ∀ a ∈ as, a.Valid d m) := by
  unfold Insert.layoutOnDuplicate
  split
  · next h => simp [List.isEmpty_iff.1 h]
  · split
    · next hplan => simp [hplan, Assignment.sift_listed_fault, Stroke.fault?]
    · next hplan => exact ⟨fun _ hnative => (hplan hnative).elim, fun _ => rfl⟩

theorem Insert.sift_body_fault (m : Modes) (i : Insert) :
    Script.sift Stroke.fault? m (i.body d) = [] ↔ i.Valid d m := by
  simp only [Insert.body, Insert.Valid, sift_append, sift_cons, sift_nil, Action.sift_within,
    List.append_nil, List.append_eq_nil_iff, Insert.sift_layoutTarget_fault,
    InsertSource.sift_layout_fault, Insert.sift_layoutOnDuplicate_fault,
    sift_layoutReturning_fault, and_assoc]

theorem Update.sift_body_fault (m : Modes) (u : Update) :
    Script.sift Stroke.fault? m (u.body d) = [] ↔ u.Valid d m := by
  have hset : Script.sift Stroke.fault? m (Update.layoutSet d u.assignments) = [] ↔
      u.assignments ≠ [] ∧ ∀ a ∈ u.assignments, a.Valid d m := by
    unfold Update.layoutSet
    split
    · next h => simp [List.isEmpty_iff.1 h]
    · next h =>
      have hne : u.assignments ≠ [] := fun e => h (List.isEmpty_iff.2 e)
      simp [hne, Assignment.sift_listed_fault, Stroke.fault?]
  simp [Update.body, Update.Valid, hset, Condition.sift_slot_fault, sift_layoutReturning_fault,
    Stroke.fault?, and_assoc]

theorem Delete.sift_body_fault (m : Modes) (x : Delete) :
    Script.sift Stroke.fault? m (x.body d) = [] ↔ x.Valid d m := by
  simp [Delete.body, Delete.Valid, Condition.sift_slot_fault, Stroke.fault?]

theorem Statement.sift_visit_fault (m : Modes) (s : Statement) :
    (s.visit d).sift Stroke.fault? m = [] ↔ s.Valid d m := by
  cases s with
  | query q => exact q.sift_visit_fault d m
  | insert i => exact i.sift_body_fault d m
  | update u => exact u.sift_body_fault d m
  | delete x => exact x.sift_body_fault d m

/-- **The checks of a node raise nothing exactly if it is valid.** -/
theorem Part.sift_visit_fault (m : Modes) {p : Part} (hp : p.isNode = true) :
    (p.visit d).sift Stroke.fault? m = [] ↔ p.Valid d m := by
  cases p with
  | field f => exact f.sift_visit_fault d m
  | row r => exact Row.sift_visit_fault d m r
  | table t => exact t.sift_visit_fault d m
  | condition c => exact c.sift_body_fault d m
  | sort s => exact s.sift_visit_fault d m
  | select s => exact s.sift_body_fault d m
  | query q => exact q.sift_visit_fault d m
  | insert i => exact i.sift_body_fault d m
  | update u => exact u.sift_body_fault d m
  | delete x => exact x.sift_body_fault d m
  | statement s => exact s.sift_visit_fault d m
  | forward _ | custom _ _ => cases hp

end

/-! ## Coherent occurrences -/

/-- Every occurrence that stands in place has a literal. -/
def Writable (s : Settings) (os : List Occurrence) : Prop :=
  ∀ o ∈ os, o.inPlace s = true → o.param.value.hasLiteral = true

/-- Behind parameters that have been bound, no occurrence carries another value than the one that
its name was bound to first. -/
def Coherent (s : Settings) (ps : List Param) (os : List Occurrence) : Prop :=
  ∀ before o after, os = before ++ o :: after → o.param.clashes (ps ++ bound s before) = false

theorem writable_nil (s : Settings) : Writable s [] := List.forall_mem_nil _

theorem writable_cons (s : Settings) (o : Occurrence) (os : List Occurrence) :
    Writable s (o :: os) ↔
      (o.inPlace s = true → o.param.value.hasLiteral = true) ∧ Writable s os :=
  List.forall_mem_cons

theorem coherent_nil (s : Settings) (ps : List Param) : Coherent s ps [] := by
  intro before o after h
  cases before <;> cases h

theorem coherent_cons (s : Settings) (ps : List Param) (o : Occurrence) (os : List Occurrence) :
    Coherent s ps (o :: os) ↔
      o.param.clashes ps = false ∧ Coherent s (ps ++ bound s [o]) os := by
  have hbound : ∀ before, ps ++ bound s (o :: before) = ps ++ bound s [o] ++ bound s before := by
    intro before
    rw [List.append_assoc, bound, bound, bound, ← List.map_append, ← List.filter_append,
      List.singleton_append]
  constructor
  · intro h
    refine ⟨?_, ?_⟩
    · have hfirst := h [] o os rfl
      rwa [bound, List.filter_nil, List.map_nil, List.append_nil] at hfirst
    · intro before o' after hos
      rw [← hbound]
      exact h (o :: before) o' after (by rw [hos, List.cons_append])
  · rintro ⟨hfirst, hrest⟩ before o' after hos
    cases before with
    | nil =>
      cases hos
      rwa [bound, List.filter_nil, List.map_nil, List.append_nil]
    | cons b before =>
      cases hos
      rw [hbound]
      exact hrest before o' after rfl

/-- A name leads to the same parameter among those that have opened a slot as among those that have
been bound. -/
def SameFirsts (opened ps : List Param) : Prop :=
  ∀ name, opened.find? (Param.isNamed name) = ps.find? (Param.isNamed name)

namespace SameFirsts

variable {opened ps : List Param}

theorem clashes_eq (h : SameFirsts opened ps) (p : Param) : p.clashes opened = p.clashes ps := by
  unfold Param.clashes
  cases p.name with
  | none => rfl
  | some name => rw [Option.any_some, Option.any_some, h name]

/-- A parameter that shares a slot is not the first of its name. -/
theorem allot (h : SameFirsts opened ps) (caps : Capabilities) (p : Param) :
    SameFirsts (caps.allot opened p).2 (ps ++ [p]) := by
  intro name
  rw [List.find?_append, ← h name]
  unfold Capabilities.allot
  split
  · next i hslot =>
    cases hnamed : Param.isNamed name p with
    | false => rw [List.find?_singleton, hnamed]; exact (Option.or_none).symm
    | true =>
      have hname : p.name = some name := by simpa [Param.isNamed] using hnamed
      have hfirst : Param.firstOf opened name = some i := by
        rw [hname] at hslot
        split at hslot
        · exact hslot
        · cases hslot
      have hi : i < opened.length := Param.lt_length_of_firstOf hfirst
      -- the name has led to a slot before, and still does
      rw [Param.find?_eq_getElem? hfirst]
      simp [hi]
  · exact List.find?_append

end SameFirsts

theorem settle_cons_of_none {s : Settings} {opened : List Param} {x : Stroke}
    (h : x.settle s opened = none) (xs : List Stroke) : settle s opened (x :: xs) = none := by
  simp [settle, h]

theorem isSome_settle_cons {s : Settings} {opened opened' : List Param} {x : Stroke}
    {segment : Segment} (h : x.settle s opened = some (segment, opened')) (xs : List Stroke) :
    (settle s opened (x :: xs)).isSome = (settle s opened' xs).isSome := by
  cases hxs : settle s opened' xs <;> simp [settle, h, hxs]

/-- A draft can be settled exactly if there is no fault in it and its occurrences can be written and
are coherent. -/
theorem isSome_settle_iff {s : Settings} {opened ps : List Param} (xs : List Stroke)
    (h : SameFirsts opened ps) :
    (settle s opened xs).isSome = true ↔
      xs.filterMap Stroke.fault? = [] ∧ Writable s (xs.filterMap Stroke.occurrence?) ∧
        Coherent s ps (xs.filterMap Stroke.occurrence?) := by
  induction xs generalizing opened ps with
  | nil => simp [settle, writable_nil, coherent_nil]
  | cons x xs ih =>
    cases x with
    | error e =>
      rw [settle_cons_of_none rfl]
      simp [Stroke.fault?]
    | ok segment =>
      cases segment with
      | placeholder slot o =>
        rw [settle_cons_of_none rfl]
        simp [Stroke.fault?]
      | text | keyword | ident =>
        rw [isSome_settle_cons rfl]
        exact ih h
      | literal o =>
        have hx := Stroke.settle_literal s opened o
        rw [List.filterMap_cons_none (show Stroke.fault? (.ok (.literal o)) = none from rfl),
          List.filterMap_cons_some (show Stroke.occurrence? (.ok (.literal o)) = some o from rfl),
          writable_cons, coherent_cons]
        rw [h.clashes_eq] at hx
        -- an occurrence can clash, or be without a literal, or else goes in place or to a slot
        cases hclash : o.param.clashes ps with
        | true =>
          rw [hclash, if_pos rfl] at hx
          rw [settle_cons_of_none hx]
          simp
        | false =>
          rw [hclash, if_neg Bool.false_ne_true] at hx
          by_cases hin : o.inPlace s = true
          · rw [if_pos hin] at hx
            rw [bound_cons_of_inPlace hin, bound, List.filter_nil, List.map_nil, List.append_nil]
            by_cases hlit : o.param.value.hasLiteral = true
            · rw [if_pos hlit] at hx
              rw [isSome_settle_cons hx, ih h]
              simp [hlit]
            · rw [if_neg hlit] at hx
              rw [settle_cons_of_none hx]
              simp [hin, hlit]
          · rw [if_neg hin] at hx
            rw [bound_cons_of_not_inPlace hin, bound, List.filter_nil, List.map_nil,
              isSome_settle_cons hx, ih (h.allot s.capabilities o.param)]
            simp [hin]

/-! ## Renders -/

namespace Configuration

variable (cfg : Configuration) {part : Part} {modes : Modes} {past : List Notice}

/-- The draft of a node is without faults exactly if the node is valid. -/
theorem fault_draft (hpart : part.isNode = true) :
    (cfg.draft part modes).filterMap Stroke.fault? = [] ↔
      part.Valid cfg.settings.dialect modes :=
  Part.sift_visit_fault cfg.settings.dialect modes hpart

/-- **A render that nobody listens to ends well exactly if** the node is valid, the values of the
parameters in place can be written, and no parameter carries another value than the one that its
name was bound to first. -/
theorem render_isOk_iff_valid (hcfg : cfg.listeners = []) (hpart : part.isNode = true) :
    let os := part.occurrences cfg.settings.dialect modes
    (∃ r, (cfg.render part modes past).result = .ok r) ↔
      part.Valid cfg.settings.dialect modes ∧ Writable cfg.settings os ∧
        Coherent cfg.settings [] os := by
  intro os
  rw [cfg.render_isOk_iff hcfg (Part.propagates_of_isNode hpart),
    isSome_settle_iff _ (fun _ => rfl), cfg.fault_draft hpart, cfg.occurrences_draft]

/-- An assignment of two values to one column stands behind `ON DUPLICATE KEY UPDATE`, which MySQL
writes and PostgreSQL leaves out. -/
theorem render_isOk_iff_valid_omitted :
    let part : Part := .insert
      { into := .ofName "t", columns := [.named "a"], source := .values [[.val "u"]],
        onDuplicateKeyUpdate := [{ target := .named "a", value := .row [.val "v", .val "w"] }] }
    (∃ r, SqlRender.render .postgres part = .ok r) ∧
      ¬ ∃ r, SqlRender.render .mySql part = .ok r := by
  intro part
  constructor
  · let cfg : Configuration := { settings := { dialect := .postgres } }
    have hvalid : part.Valid .postgres {} := by
      simp [part, Part.Valid, Insert.Valid, InsertSource.Valid, Insert.degree, Table.ofName,
        Table.Valid, Field.named, Field.val, Field.Valid, Dialect.resolve, Dialect.capabilities,
        Plan.nativeOr]
    have hos : part.occurrences .postgres {} = [⟨{ value := .text "u" }, none⟩] := by
      decide +kernel
    have hwritable : Writable cfg.settings (part.occurrences .postgres {}) := by
      rw [hos, writable_cons]
      exact ⟨fun _ => rfl, writable_nil _⟩
    have hcoherent : Coherent cfg.settings [] (part.occurrences .postgres {}) := by
      rw [hos, coherent_cons]
      exact ⟨rfl, coherent_nil _ _⟩
    have hok : ∃ r, (cfg.render part {} []).result = .ok r :=
      (cfg.render_isOk_iff_valid rfl rfl).2 ⟨hvalid, hwritable, hcoherent⟩
    exact hok
  · let cfg : Configuration := { settings := { dialect := .mySql } }
    intro (hok : ∃ r, (cfg.render part {} []).result = .ok r)
    obtain ⟨⟨-, -, -, hassign, -⟩, -⟩ := (cfg.render_isOk_iff_valid rfl rfl).1 hok
    have hdegree : 1 = 2 := (hassign rfl _ List.mem_cons_self).1
    contradiction

end Configuration

end SqlRender
