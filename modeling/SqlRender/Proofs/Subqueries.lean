import SqlRender.Proofs.Placement

/-!
# Subqueries stand alone

A select may stand inside `EXISTS`, as an arm of a union or as the source of an insert. Around it
the renderer switches modes: tables and fields are declared, qualifiers dropped, types assumed. All
of these switches surround fields and tables, and neither holds a select, so a select is visited
under the modes that the whole render started with.

`Part.meets_visit` lists the selects that a visit enters, in order, with their modes and what is
written inside them. `Action.split_at_enter` cuts the moves of a visit where a part is entered, and
`Configuration.selects_stand_alone` concludes from `Action.Straight.adds` that what a select adds to
the render is what it renders to alone.
-/

namespace SqlRender

/-! ## Visits -/

/-- The visit of a part: the modes under which it is entered, and what is written inside its
tags. -/
structure Visit where
  modes : Modes
  part : Part
  body : Script

mutual

/-- The visits in an action that is performed under given modes, in the order in which their parts
are entered. What is attempted is left out. -/
def Action.visited (m : Modes) : Action → List Visit
  | .visit part body => ⟨m, part, body⟩ :: Script.visited m body
  | .within _ body => Script.visited m body
  | .switch mode on body => Script.visited (m.switch mode on) body
  | .assume type body => Script.visited (m.assume type) body
  | .whenOn mode body => if m.isOn mode then Script.visited m body else []
  | _ => []

/-- The visits in a script that is performed under given modes. -/
def Script.visited (m : Modes) : List Action → List Visit
  | [] => []
  | a :: as => a.visited m ++ Script.visited m as

end

section Meets

variable {β : Type} (f : Visit → Option β) (m : Modes)

/-- What is found in the visits of an action. -/
def Action.meets (a : Action) : List β := (a.visited m).filterMap f

/-- What is found in the visits of a script. -/
def Script.meets (as : Script) : List β := (Script.visited m as).filterMap f

namespace Action

variable {f m}

@[simp] theorem meets_text (s : String) : (text s).meets f m = [] := rfl

@[simp] theorem meets_keyword (word : String) : (keyword word).meets f m = [] := rfl

@[simp] theorem meets_ident (name : String) : (ident name).meets f m = [] := rfl

@[simp] theorem meets_bind (p : Param) : (bind p).meets f m = [] := rfl

@[simp] theorem meets_fail (e : RenderError) : (fail e).meets f m = [] := rfl

@[simp] theorem meets_visit (part : Part) (body : Script) :
    (visit part body).meets f m = (f ⟨m, part, body⟩).toList ++ Script.meets f m body := by
  cases h : f ⟨m, part, body⟩ <;> simp [meets, Script.meets, visited, h]

@[simp] theorem meets_within (c : Clause) (body : Script) :
    (within c body).meets f m = Script.meets f m body := rfl

@[simp] theorem meets_switch (mode : Mode) (on : Bool) (body : Script) :
    (switch mode on body).meets f m = Script.meets f (m.switch mode on) body := rfl

@[simp] theorem meets_assume (type : Option DataType) (body : Script) :
    (assume type body).meets f m = Script.meets f (m.assume type) body := rfl

@[simp] theorem meets_whenOn (mode : Mode) (body : Script) :
    (whenOn mode body).meets f m = if m.isOn mode then Script.meets f m body else [] := by
  unfold meets visited
  split <;> rfl

end Action

namespace Script

variable {f m}

@[simp] theorem meets_nil : Script.meets f m [] = [] := rfl

@[simp] theorem meets_cons (a : Action) (as : Script) :
    Script.meets f m (a :: as) = a.meets f m ++ Script.meets f m as := by
  simp [Script.meets, Action.meets, Script.visited]

@[simp] theorem meets_append (as bs : Script) :
    Script.meets f m (as ++ bs) = Script.meets f m as ++ Script.meets f m bs := by
  induction as with
  | nil => rfl
  | cons a as ih => simp [ih]

theorem meets_eq_flatMap (as : Script) : Script.meets f m as = as.flatMap (Action.meets f m) := by
  induction as with
  | nil => rfl
  | cons a as ih => rw [meets_cons, ih, List.flatMap_cons]

/-- Separators are no visits. -/
theorem meets_intersperse {a : Action} (ha : a.meets f m = []) :
    ∀ as : Script, Script.meets f m (as.intersperse a) = Script.meets f m as
  | [] => rfl
  | [_] => rfl
  | b :: c :: as => by
    rw [List.intersperse_cons_cons, meets_cons, meets_cons, ha, meets_intersperse ha]
    simp

@[simp] theorem meets_separated (separator : String) (as : Script) :
    Script.meets f m (Script.separated separator as) = Script.meets f m as :=
  meets_intersperse (by simp) as

@[simp] theorem meets_listed (as : Script) :
    Script.meets f m (Script.listed as) = Script.meets f m as :=
  meets_separated ", " as

@[simp] theorem meets_identList (names : List String) :
    Script.meets f m (identList names) = [] := by
  have hnames : Script.meets f m (names.map Action.ident) = [] := by
    rw [meets_eq_flatMap, List.flatMap_map]
    simp
  have hlist := meets_intersperse (m := m) (f := f) (a := .text ", ") (by simp)
    (names.map Action.ident)
  simp [identList, hlist, hnames]

@[simp] theorem meets_layout (op : Connective) (operands : Script) :
    Script.meets f m (op.layout operands) = Script.meets f m operands := by
  unfold Connective.layout
  split <;> simp

@[simp] theorem meets_ifAny (word : String) (items : Script) :
    Script.meets f m (Script.ifAny word items) = Script.meets f m items := by
  unfold Script.ifAny
  split
  · next h => rw [List.isEmpty_iff.1 h]
  · simp

theorem meets_map_eq_nil {α : Type} {g : α → Action} (hg : ∀ a, (g a).meets f m = [])
    (as : List α) : Script.meets f m (as.map g) = [] := by
  simp [meets_eq_flatMap, List.flatMap_map, hg]

variable (d : Dialect)

@[simp] theorem meets_require (feature : Feature) (c : Clause) :
    Script.meets f m (Script.require d feature c) = [] := by
  unfold Script.require
  split <;> simp

@[simp] theorem meets_checkDegree (c : Clause) (expected found : Nat) :
    Script.meets f m (Script.checkDegree d c expected found) = [] := by
  unfold Script.checkDegree
  split <;> simp

@[simp] theorem meets_failEmpty (c : Clause) :
    Script.meets f m (Script.failEmpty d c) = [] := by
  simp [Script.failEmpty]

@[simp] theorem meets_checks {α : Type} (c : Clause) (expected : Nat) (found : α → Nat)
    (as : List α) :
    Script.meets f m (as.flatMap fun a => Script.checkDegree d c expected (found a)) = [] := by
  induction as with
  | nil => rfl
  | cons a as ih => simp [ih]

/-- A question that passes over the parts without a query inside: fields, rows, tables and sort
fields. -/
structure PassesLeaves (f : Visit → Option β) : Prop where
  field : ∀ m x body, f ⟨m, .field x, body⟩ = none
  row : ∀ m r body, f ⟨m, .row r, body⟩ = none
  table : ∀ m t body, f ⟨m, .table t, body⟩ = none
  sort : ∀ m s body, f ⟨m, .sort s, body⟩ = none

theorem PassesLeaves.asPart (hf : PassesLeaves f) (m : Modes) (x : Field) (body : Script) :
    f ⟨m, x.asPart, body⟩ = none := by
  cases x with
  | row r => exact hf.row m r body
  | column | value | aliased => exact hf.field m _ body

end Script

end Meets

/-! ## The selects of a part -/

mutual

/-- The selects in a condition, outermost first. -/
def Condition.selects : Condition → List Select
  | .comparison _ _ _ => []
  | .not c => c.selects
  | .combined _ conditions => Condition.selectsIn conditions
  | .isNull _ _ => []
  | .isIn _ _ _ => []
  | .between _ _ _ _ _ => []
  | .exists q _ => q.selects

/-- The selects in conditions, in order. -/
def Condition.selectsIn : List Condition → List Select
  | [] => []
  | c :: cs => c.selects ++ Condition.selectsIn cs

/-- The selects in a condition, if there is one. -/
def Condition.selectsOf : Option Condition → List Select
  | none => []
  | some c => c.selects

/-- The selects of a query, and those in them. -/
def Query.selects : Query → List Select
  | .select s => s :: s.nested
  | .unionAll selects => Select.selectsIn selects

/-- The selects in the conditions of a select. -/
def Select.nested : Select → List Select
  | { distinct := _, fields := _, tables := _, filter, startWith, connectBy, groupBy := _, having,
      orderBy := _ } =>
    Condition.selectsOf filter ++ (Condition.selectsOf startWith ++
      (Condition.selectsOf connectBy ++ Condition.selectsOf having))

/-- Selects, each followed by those in it. -/
def Select.selectsIn : List Select → List Select
  | [] => []
  | s :: ss => s :: (s.nested ++ Select.selectsIn ss)

end

/-- The selects of the source of an insert; many rows may be written as a union of selects. -/
def InsertSource.selects (d : Dialect) (columns : List Field) : InsertSource → List Select
  | .values rows =>
    if Insert.degree columns rows ≠ 0 ∧ Insert.isEmulated d rows = true then
      (Insert.unionOf rows).selects
    else []
  | .query q => q.selects

/-- The query that the source of an insert is written as, if it is written as one. -/
def InsertSource.query? (d : Dialect) (columns : List Field) : InsertSource → Option Query
  | .values rows =>
    if Insert.degree columns rows ≠ 0 ∧ Insert.isEmulated d rows = true then
      some (Insert.unionOf rows)
    else none
  | .query q => some q

/-- The selects of a statement. -/
def Statement.selects (d : Dialect) : Statement → List Select
  | .query q => q.selects
  | .insert i => i.source.selects d i.columns
  | .update u => Condition.selectsOf u.filter
  | .delete x => Condition.selectsOf x.filter

/-- The selects of a node. -/
def Part.selects (d : Dialect) : Part → List Select
  | .condition c => c.selects
  | .select s => s :: s.nested
  | .query q => q.selects
  | .insert i => i.source.selects d i.columns
  | .update u => Condition.selectsOf u.filter
  | .delete x => Condition.selectsOf x.filter
  | .statement s => s.selects d
  | _ => []

/-! ## Visited selects -/

/-- The select that is visited, if it is one, with the modes of the visit and what is written. -/
def Visit.selection? : Visit → Option (Modes × Select × Script)
  | ⟨m, .select s, body⟩ => some (m, s, body)
  | _ => none

variable (d : Dialect)

/-- A select as it is visited under given modes. -/
def Select.selection (m : Modes) (s : Select) : Modes × Select × Script := (m, s, s.body d)

open Script

/-! ### Fields and tables hold none -/

section Leaves

variable {β : Type} {f : Visit → Option β} (hf : PassesLeaves f)

include hf

mutual

theorem Field.meets_body (m : Modes) : ∀ x : Field, Script.meets f m (x.body d) = []
  | .column c => by
    simp only [Field.body, Column.body]
    cases c.qualifier <;> simp
  | .value _ => by simp [Field.body]
  | .aliased x _ => by simp [Field.body, hf.asPart, Field.meets_body m x]
  | .row fields => by
    have ih := Field.meets_visits m fields
    simp only [Field.body, Row.layout]
    split <;> simp [ih]

theorem Field.meets_visits (m : Modes) :
    ∀ xs : List Field, Script.meets f m (Field.visits d xs) = []
  | [] => rfl
  | x :: xs => by
    simp [Field.visits, hf.asPart, Field.meets_body m x, Field.meets_visits m xs]

end

@[simp] theorem Field.meets_visit (m : Modes) (x : Field) : (x.visit d).meets f m = [] := by
  simp [Field.visit, hf.asPart, Field.meets_body d hf]

@[simp] theorem Row.meets_visit (m : Modes) (r : Row) : (Row.visit d r).meets f m = [] :=
  Field.meets_visit d hf m (.row r)

@[simp] theorem Field.meets_map_visit (m : Modes) (xs : List Field) :
    Script.meets f m (xs.map (Field.visit d)) = [] :=
  meets_map_eq_nil (Field.meets_visit d hf m) xs

@[simp] theorem Row.meets_map_visit (m : Modes) (rows : List Row) :
    Script.meets f m (rows.map (Row.visit d)) = [] :=
  meets_map_eq_nil (Row.meets_visit d hf m) rows

theorem Table.meets_body (m : Modes) (t : Table) : Script.meets f m (t.body d) = [] := by
  induction t with
  | named schema name => cases schema <;> simp [Table.body]
  | aliased t name columns ih =>
    simp only [Table.body]
    split <;> split <;> simp [hf.table, ih]
  | values rows => cases rows <;> simp [Table.body, hf]
  | dual => simp [Table.body]

@[simp] theorem Table.meets_visit (m : Modes) (t : Table) : (t.visit d).meets f m = [] := by
  simp [Table.visit, hf.table, Table.meets_body d hf]

@[simp] theorem SortField.meets_map_visit (m : Modes) (fs : List SortField) :
    Script.meets f m (fs.map (SortField.visit d)) = [] :=
  meets_map_eq_nil (fun s => by simp [SortField.visit, SortField.body, hf.sort, hf]) fs

/-! ### Layouts of fields and tables hold none -/

theorem Condition.meets_layoutIn (m : Modes) (x : Field) (values : List Field) (negated : Bool) :
    Script.meets f m (Condition.layoutIn d x values negated) = [] := by
  unfold Condition.layoutIn
  dsimp only
  split <;> simp [hf]

theorem Condition.meets_layoutBetween (m : Modes) (clause : Clause) (x low high : Field)
    (negated symmetric : Bool) :
    Script.meets f m (Condition.layoutBetween d clause x low high negated symmetric) = [] := by
  cases negated <;> cases symmetric <;> simp [Condition.layoutBetween, hf]

@[simp] theorem Select.meets_layoutFields (m : Modes) (distinct : Bool) (fields : List Field) :
    Script.meets f m (Select.layoutFields d distinct fields) = [] := by
  cases fields <;> simp [Select.layoutFields, hf]

@[simp] theorem Select.meets_layoutTables (m : Modes) (tables : List Table) :
    Script.meets f m (Select.layoutTables d tables) = [] := by
  have htables : ∀ m, Script.meets f m (tables.map (Table.visit d)) = [] :=
    fun m => meets_map_eq_nil (Table.meets_visit d hf m) tables
  unfold Select.layoutTables
  split
  · split <;> simp [hf]
  · simp [htables]

@[simp] theorem Assignment.meets_listed (m : Modes) (clause : Clause) (as : List Assignment) :
    Script.meets f m (Assignment.listed d clause as) = [] := by
  have hbody : ∀ a : Assignment, Script.meets f m (a.body d clause) = [] := by
    intro a
    unfold Assignment.body
    split <;> simp [hf]
  unfold Assignment.listed
  rw [meets_intersperse (by simp)]
  exact meets_map_eq_nil hbody as

@[simp] theorem meets_layoutReturning (m : Modes) (fields : List Field) :
    Script.meets f m (layoutReturning d fields) = [] := by
  unfold layoutReturning
  split
  · simp
  · split <;> simp [hf]

@[simp] theorem Insert.meets_layoutTarget (m : Modes) (into : Table) (columns : List Field) :
    Script.meets f m (Insert.layoutTarget d into columns) = [] := by
  unfold Insert.layoutTarget
  split <;> simp [hf]

@[simp] theorem Insert.meets_layoutOnDuplicate (m : Modes) (as : List Assignment) :
    Script.meets f m (Insert.layoutOnDuplicate d as) = [] := by
  unfold Insert.layoutOnDuplicate
  split
  · simp
  · split <;> simp [hf]

@[simp] theorem Update.meets_layoutSet (m : Modes) (as : List Assignment) :
    Script.meets f m (Update.layoutSet d as) = [] := by
  unfold Update.layoutSet
  split <;> simp [hf]

/-- In the source of an insert is met what is met in the query that it is written as. -/
theorem InsertSource.meets_layout_eq (m : Modes) (columns : List Field) (source : InsertSource) :
    Script.meets f m (source.layout d columns) =
      (source.query? d columns).elim [] fun q => (q.visit d).meets f m := by
  cases source with
  | query q => simp [InsertSource.layout, InsertSource.query?]
  | values rows =>
    have hdefaults : Script.meets f m (Insert.layoutDefaults d columns) = [] := by
      unfold Insert.layoutDefaults
      split <;> simp
    simp only [InsertSource.layout, InsertSource.query?, Insert.layoutRows, meets_append,
      meets_checks, List.nil_append]
    split
    · next h =>
      -- without rows there is no union of them
      have hfalse : Insert.isEmulated d rows = false := by
        rw [List.isEmpty_iff.1 h]
        rfl
      simp [hdefaults, hfalse]
    · split
      · next hzero => simp [hzero]
      · next hdegree =>
        unfold Insert.isEmulated
        split
        · next hplan => simp [hdegree, hplan]
        · next hplan =>
          have hnative : ¬ d.resolve (.insertValues rows.length) = .emulate .insertSelectUnionAll :=
            hplan
          simp [hnative, hf]

omit hf in
@[simp] theorem Script.meets_hierarchical (m : Modes) (clause : Clause) (condition : Script) :
    Script.meets f m (Script.hierarchical d clause condition) = Script.meets f m condition := by
  unfold Script.hierarchical
  split <;> simp

end Leaves

@[simp] theorem Visit.passesLeaves_selection? : PassesLeaves Visit.selection? where
  field _ _ _ := rfl
  row _ _ _ := rfl
  table _ _ _ := rfl
  sort _ _ _ := rfl

/-! ### Conditions and queries -/

mutual

theorem Condition.meets_body (m : Modes) : ∀ c : Condition,
    Script.meets Visit.selection? m (c.body d) = c.selects.map (Select.selection d m)
  | .comparison _ _ _ => by simp [Condition.body, Condition.selects]
  | .not c => by
    simp [Condition.body, Condition.selects, Visit.selection?, Condition.meets_body m c]
  | .combined op conditions => by
    rw [Condition.body, meets_layout, Condition.selects, Condition.meets_visits m conditions]
  | .isNull _ _ => by simp [Condition.body, Condition.selects]
  | .isIn f values negated => by
    rw [Condition.body, Condition.meets_layoutIn d Visit.passesLeaves_selection?,
      Condition.selects, List.map_nil]
  | .between _ _ _ _ _ => by
    rw [Condition.body, Condition.meets_layoutBetween d Visit.passesLeaves_selection?,
      Condition.selects, List.map_nil]
  | .exists q _ => by
    simp [Condition.body, Condition.selects, Query.meets_visits m q]

theorem Condition.meets_visits (m : Modes) : ∀ cs : List Condition,
    Script.meets Visit.selection? m (Condition.visits d cs) =
      (Condition.selectsIn cs).map (Select.selection d m)
  | [] => rfl
  | c :: cs => by
    simp [Condition.visits, Condition.selectsIn, Visit.selection?, Condition.meets_body m c,
      Condition.meets_visits m cs]

theorem Condition.meets_slot (m : Modes) (word : String) : ∀ c : Option Condition,
    Script.meets Visit.selection? m (Condition.slot d word c) =
      (Condition.selectsOf c).map (Select.selection d m)
  | none => rfl
  | some c => by
    simp [Condition.slot, Condition.selectsOf, Visit.selection?, Condition.meets_body m c]

theorem Query.meets_visits (m : Modes) : ∀ q : Query,
    Script.meets Visit.selection? m (q.visits d) = q.selects.map (Select.selection d m)
  | .select s => by
    simp [Query.visits, Query.selects, Visit.selection?, Select.selection, Select.meets_body m s]
  | .unionAll selects => by
    have ih := Select.meets_visits m selects
    rw [Query.visits, Query.selects, meets_cons, Action.meets_visit, meets_nil, List.append_nil]
    split
    · next h =>
      rw [List.isEmpty_iff.1 h]
      simp [Visit.selection?, Select.selectsIn]
    · simp [Visit.selection?, ih]

theorem Select.meets_body (m : Modes) : ∀ s : Select,
    Script.meets Visit.selection? m (s.body d) = s.nested.map (Select.selection d m)
  | { distinct, fields, tables, filter, startWith, connectBy, groupBy, having, orderBy } => by
    rw [Select.body, Select.nested]
    simp [Condition.meets_slot m]

theorem Select.meets_visits (m : Modes) : ∀ ss : List Select,
    Script.meets Visit.selection? m (Select.visits d ss) =
      (Select.selectsIn ss).map (Select.selection d m)
  | [] => rfl
  | s :: ss => by
    simp [Select.visits, Select.selectsIn, Visit.selection?, Select.selection,
      Select.meets_body m s, Select.meets_visits m ss]

end

@[simp] theorem Query.meets_visit (m : Modes) (q : Query) :
    (q.visit d).meets Visit.selection? m = q.selects.map (Select.selection d m) := by
  have h := q.meets_visits d m
  rwa [Query.visits_eq, meets_cons, meets_nil, List.append_nil] at h

/-! ### Statements -/

@[simp] theorem InsertSource.meets_layout (m : Modes) (columns : List Field)
    (source : InsertSource) :
    Script.meets Visit.selection? m (source.layout d columns) =
      (source.selects d columns).map (Select.selection d m) := by
  have hselects : source.selects d columns = (source.query? d columns).elim [] Query.selects := by
    cases source with
    | query q => rfl
    | values rows =>
      simp only [InsertSource.selects, InsertSource.query?]
      split <;> rfl
  rw [InsertSource.meets_layout_eq d Visit.passesLeaves_selection?, hselects]
  cases source.query? d columns with
  | none => rfl
  | some q => exact q.meets_visit d m

theorem Insert.meets_visit (m : Modes) (i : Insert) :
    (i.visit d).meets Visit.selection? m =
      (i.source.selects d i.columns).map (Select.selection d m) := by
  simp [Insert.visit, Insert.body, Visit.selection?]

theorem Update.meets_visit (m : Modes) (u : Update) :
    (u.visit d).meets Visit.selection? m =
      (Condition.selectsOf u.filter).map (Select.selection d m) := by
  simp [Update.visit, Update.body, Visit.selection?, Condition.meets_slot]

theorem Delete.meets_visit (m : Modes) (x : Delete) :
    (x.visit d).meets Visit.selection? m =
      (Condition.selectsOf x.filter).map (Select.selection d m) := by
  simp [Delete.visit, Delete.body, Visit.selection?, Condition.meets_slot]

theorem Statement.meets_visit (m : Modes) (s : Statement) :
    (s.visit d).meets Visit.selection? m = (s.selects d).map (Select.selection d m) := by
  cases s with
  | query q => exact q.meets_visit d m
  | insert i => exact i.meets_visit d m
  | update u => exact u.meets_visit d m
  | delete x => exact x.meets_visit d m

/-- **The selects that the visit of a node enters are those of the node**, each under the modes that
the visit starts with. -/
theorem Part.meets_visit (m : Modes) {p : Part} (hp : p.isNode = true) :
    (p.visit d).meets Visit.selection? m = (p.selects d).map (Select.selection d m) := by
  cases p with
  | field f => exact f.meets_visit d Visit.passesLeaves_selection? m
  | row r => exact Row.meets_visit d Visit.passesLeaves_selection? m r
  | table t => exact t.meets_visit d Visit.passesLeaves_selection? m
  | condition c => simp [Part.visit, Condition.visit, Visit.selection?, Part.selects, c.meets_body]
  | sort s => simp [Part.visit, SortField.visit, SortField.body, Visit.selection?, Part.selects]
  | select s =>
    simp [Part.visit, Select.visit, Visit.selection?, Part.selects, Select.selection, s.meets_body]
  | query q => exact q.meets_visit d m
  | insert i => exact i.meets_visit d m
  | update u => exact u.meets_visit d m
  | delete x => exact x.meets_visit d m
  | statement s => exact s.meets_visit d m
  | forward _ | custom _ _ => cases hp

/-! ## Cutting a run where a part is entered -/

/-- The part that a move enters. -/
def Move.entered? : Move → Option Part
  | ⟨_, .enter p⟩ => some p
  | _ => none

/-- The moves in front of what is written inside the tags of a part enter nothing else. -/
theorem Move.entered?_starts (m : Modes) (part : Part) (tags : List Clause) :
    ∀ mv ∈ tags.map (fun c => (⟨m, .start (some part) c⟩ : Move)), mv.entered? = none := by
  intro mv hmv
  obtain ⟨c, -, rfl⟩ := List.mem_map.1 hmv
  rfl

/-- The moves behind what is written inside the tags of a part enter nothing. -/
theorem Move.entered?_closes (m : Modes) (part : Part) (tags : List Clause) :
    ∀ mv ∈ tags.map (fun c => (⟨m, .close (some part) c⟩ : Move)) ++ [⟨m, .leave part⟩],
      mv.entered? = none := by
  intro mv hmv
  rcases List.mem_append.1 hmv with hmv | hmv
  · obtain ⟨c, -, rfl⟩ := List.mem_map.1 hmv
    rfl
  · cases List.mem_singleton.1 hmv
    rfl

/-- Where two lists are put together, an element stands in the first or in the second. -/
theorem cut_append {α : Type} {as bs before rest : List α} {x : α}
    (h : as ++ bs = before ++ x :: rest) :
    (∃ rest', as = before ++ x :: rest' ∧ rest = rest' ++ bs) ∨
      ∃ before', before = as ++ before' ∧ bs = before' ++ x :: rest := by
  rcases List.append_eq_append_iff.1 h with ⟨before', hbefore, hbs⟩ | ⟨rest', has, hrest⟩
  · exact .inr ⟨before', hbefore, hbs⟩
  · cases rest' with
    | nil => exact .inr ⟨[], by simpa using has.symm, by simpa using hrest.symm⟩
    | cons y rest' =>
      rw [List.cons_append, List.cons.injEq] at hrest
      obtain ⟨rfl, rfl⟩ := hrest
      exact .inl ⟨rest', has, rfl⟩

/-- The moves that a part is entered with are those of a visit in the script, up to what follows. -/
def Script.EntersAt (vs : List Visit) (m : Modes) (p : Part) (mvs : List Move) : Prop :=
  ∃ v ∈ vs, v.modes = m ∧ v.part = p ∧ ∃ after, mvs = (Action.visit p v.body).moves m ++ after

theorem Script.EntersAt.append {vs : List Visit} {m : Modes} {p : Part} {mvs : List Move}
    (h : EntersAt vs m p mvs) {vs' : List Visit} (hvs : vs ⊆ vs') (rest : List Move) :
    EntersAt vs' m p (mvs ++ rest) := by
  obtain ⟨v, hv, hm, hp, after, rfl⟩ := h
  exact ⟨v, hvs hv, hm, hp, after ++ rest, List.append_assoc _ _ _⟩

/-- Among moves that enter nothing there is no entering. -/
theorem Move.not_mem_of_entered {mvs before rest : List Move} {m : Modes} {p : Part}
    (h : ∀ mv ∈ mvs, mv.entered? = none) : mvs ≠ before ++ ⟨m, .enter p⟩ :: rest := by
  rintro rfl
  have hnone := h ⟨m, .enter p⟩ (by simp)
  cases hnone

mutual

/-- **Where the moves of an action enter a part**, they go on with those of the part's visit. -/
theorem Action.split_at_enter {m m' : Modes} {p : Part} : ∀ {a : Action} {before rest : List Move},
    a.moves m = before ++ ⟨m', .enter p⟩ :: rest →
      Script.EntersAt (a.visited m) m' p (⟨m', .enter p⟩ :: rest)
  | .text _, _, _, h | .keyword _, _, _, h | .ident _, _, _, h | .bind _, _, _, h
  | .literal _ _, _, _, h | .fail _, _, _, h | .attempt _ _, _, _, h | .note _ _, _, _, h =>
    absurd h (Move.not_mem_of_entered (by simp [Action.moves, Move.entered?]))
  | .visit part body, before, rest, h => by
    cases before with
    | nil =>
      rw [List.nil_append] at h
      have hhead : (⟨m, .enter part⟩ : Move) = ⟨m', .enter p⟩ := (List.cons.inj h).1
      cases hhead
      exact ⟨_, List.mem_cons_self, rfl, rfl, [], by rw [List.append_nil, ← h]⟩
    | cons mv before =>
      have htail := (List.cons.inj h).2
      -- neither the tags nor the end of the visit enter anything, so the body does
      rcases cut_append htail with ⟨rest', hin, -⟩ | ⟨before', -, htail⟩
      · exact absurd hin (Move.not_mem_of_entered (Move.entered?_starts m part _))
      rcases cut_append htail with ⟨rest', hin, rfl⟩ | ⟨before'', -, hin⟩
      · exact (Script.split_at_enter hin).append (List.subset_cons_self _ _) _
      · exact absurd hin (Move.not_mem_of_entered (Move.entered?_closes m part _))
  | .within c body, before, rest, h => by
    have hmoves : [⟨m, .start none c⟩] ++ (Script.moves m body ++ [⟨m, .close none c⟩]) =
        before ++ ⟨m', .enter p⟩ :: rest := h
    rcases cut_append hmoves with ⟨rest', hin, -⟩ | ⟨before', -, htail⟩
    · exact absurd hin (Move.not_mem_of_entered (by simp [Move.entered?]))
    rcases cut_append htail with ⟨rest', hin, rfl⟩ | ⟨before'', -, hin⟩
    · exact (Script.split_at_enter hin).append (List.Subset.refl _) _
    · exact absurd hin (Move.not_mem_of_entered (by simp [Move.entered?]))
  | .switch _ _ _, _, _, h => Script.split_at_enter h
  | .assume _ _, _, _, h => Script.split_at_enter h
  | .whenOn mode body, before, rest, h => by
    rw [Action.moves] at h
    rw [Action.visited]
    split at h
    · next hon =>
      rw [if_pos hon]
      exact Script.split_at_enter h
    · exact absurd h (Move.not_mem_of_entered (by simp))

/-- Where the moves of a script enter a part, they go on with those of the part's visit. -/
theorem Script.split_at_enter {m m' : Modes} {p : Part} :
    ∀ {as : List Action} {before rest : List Move},
      Script.moves m as = before ++ ⟨m', .enter p⟩ :: rest →
        Script.EntersAt (Script.visited m as) m' p (⟨m', .enter p⟩ :: rest)
  | [], _, _, h => absurd h (Move.not_mem_of_entered (by simp [Script.moves]))
  | a :: as, before, rest, h => by
    rcases cut_append h with ⟨rest', hin, rfl⟩ | ⟨before', -, hin⟩
    · exact (Action.split_at_enter hin).append (List.subset_append_left _ _) _
    · have hrest := (Script.split_at_enter hin).append (List.subset_append_right (a.visited m) _) []
      rwa [List.append_nil] at hrest

end

mutual

/-- The moves of an action enter the parts of its visits, in order. -/
theorem Action.entered_moves (m : Modes) : ∀ a : Action,
    (a.moves m).filterMap Move.entered? = (a.visited m).map Visit.part
  | .text _ | .keyword _ | .ident _ | .bind _ | .literal _ _ | .fail _ | .attempt _ _
  | .note _ _ => rfl
  | .visit part body => by
    have hstarts := List.filterMap_eq_nil_iff.2 (Move.entered?_starts m part (part.tags m))
    have hcloses := List.filterMap_eq_nil_iff.2 (Move.entered?_closes m part (part.tags m).reverse)
    have henter : Move.entered? ⟨m, .enter part⟩ = some part := rfl
    rw [Action.moves, Action.visited, List.filterMap_cons_some henter, List.filterMap_append,
      List.filterMap_append, hstarts, hcloses, Script.entered_moves m body, List.map_cons,
      List.nil_append, List.append_nil]
  | .within c body => by
    have hstart : Move.entered? ⟨m, .start none c⟩ = none := rfl
    have hclose : Move.entered? ⟨m, .close none c⟩ = none := rfl
    rw [Action.moves, Action.visited, List.filterMap_cons_none hstart, List.filterMap_append,
      List.filterMap_cons_none hclose, List.filterMap_nil, List.append_nil,
      Script.entered_moves m body]
  | .switch _ _ body | .assume _ body => by
    rw [Action.moves, Action.visited, Script.entered_moves _ body]
  | .whenOn mode body => by
    rw [Action.moves, Action.visited]
    split
    · exact Script.entered_moves m body
    · rfl

/-- The moves of a script enter the parts of its visits, in order. -/
theorem Script.entered_moves (m : Modes) : ∀ as : List Action,
    (Script.moves m as).filterMap Move.entered? = (Script.visited m as).map Visit.part
  | [] => rfl
  | a :: as => by
    rw [Script.moves, Script.visited, List.filterMap_append, List.map_append,
      Action.entered_moves m a, Script.entered_moves m as]

end

/-- What is found among the parts that moves enter is found where one of them is entered. -/
theorem Move.exists_cut_of_entered {β : Type} {g : Part → Option β} {mvs : List Move} {x : β}
    (h : x ∈ (mvs.filterMap Move.entered?).filterMap g) :
    ∃ before m p rest, g p = some x ∧ mvs = before ++ ⟨m, .enter p⟩ :: rest := by
  obtain ⟨p, hp, hx⟩ := List.mem_filterMap.1 h
  obtain ⟨⟨m, deed⟩, hmem, hentered⟩ := List.mem_filterMap.1 hp
  cases deed <;> cases hentered
  obtain ⟨before, rest, hcut⟩ := List.append_of_mem hmem
  exact ⟨before, m, p, rest, hx, hcut⟩

/-! ## Selects of a render -/

/-- The select that a part is, if it is one. -/
def Part.select? : Part → Option Select
  | .select s => some s
  | _ => none

/-- The selects that the moves of a node enter are those of the node. -/
theorem Part.selects_entered (m : Modes) {p : Part} (hp : p.isNode = true) :
    (((p.visit d).moves m).filterMap Move.entered?).filterMap Part.select? = p.selects d := by
  have hselect : ∀ v : Visit, v.part.select? = v.selection?.map fun x => x.2.1 := by
    rintro ⟨m, part, body⟩
    cases part <;> rfl
  have hmeets := congrArg (List.map fun x => x.2.1) (Part.meets_visit d m hp)
  rw [List.map_map, Action.meets, List.map_filterMap] at hmeets
  rw [Action.entered_moves, List.filterMap_map]
  simpa [Function.comp_def, hselect, Select.selection] using hmeets

/-- Where the moves of a node enter a select, they go on with the visit of the select under the
modes of the node. -/
theorem Part.split_at_select {m m' : Modes} {p : Part} (hp : p.isNode = true) {q : Select}
    {before rest : List Move}
    (h : (p.visit d).moves m = before ++ ⟨m', .enter (.select q)⟩ :: rest) :
    ∃ after, (p.visit d).moves m = before ++ ((q.visit d).moves m ++ after) := by
  obtain ⟨⟨m', part, body⟩, hmem, rfl, rfl, after, hcut⟩ := Action.split_at_enter h
  have hmet : (m', q, body) ∈ (p.visit d).meets Visit.selection? m :=
    List.mem_filterMap.2 ⟨_, hmem, rfl⟩
  rw [Part.meets_visit d m hp] at hmet
  obtain ⟨q', -, hq'⟩ := List.mem_map.1 hmet
  cases hq'
  exact ⟨after, by rw [h, hcut]; rfl⟩

open Move

namespace Configuration

variable (cfg : Configuration) {part : Part} {modes : Modes} {past : List Notice}

theorem render_of_run {st : State} (h : cfg.run part modes [] = .ok () st) :
    cfg.render part modes [] =
      { result := .ok (cfg.rendered st), out := st.out, notices := st.notices,
        journal := st.journal } := by
  unfold render
  rw [h]
  rfl

/-- A run that is cut around an action comes to the action with the modes that it started with. -/
theorem run_around (hpart : part.isNode = true) {st : State}
    (hrun : cfg.run part modes past = .ok () st) {before after : List Move} {a : Action}
    (hcut : (part.visit cfg.settings.dialect).moves modes = before ++ (a.moves modes ++ after)) :
    ∃ st₁ st₂ opened, performAll cfg before { modes, notices := past } = .ok () st₁ ∧
      a.perform cfg st₁ = .ok () st₂ ∧ performAll cfg after st₂ = .ok () st ∧
      st₁.modes = modes ∧ st₁.Holds opened := by
  have hattempt : ∀ mv ∈ before, mv.deed.isAttempt = false := by
    intro mv hmv
    have hstraight :=
      Part.straight_visit cfg.settings.dialect part (Part.propagates_of_isNode hpart)
    exact hstraight.isAttempt_eq_false (m := modes) mv (by rw [hcut]; simp [hmv])
  rw [run_eq_moves, hcut] at hrun
  obtain ⟨st₁, hbefore, hrest⟩ := (performAll_append_eq_ok cfg).1 hrun
  obtain ⟨st₂, haction, hafter⟩ := (performAll_append_eq_ok cfg).1 hrest
  have hmodes : st₁.modes = modes := (keeps_modes_performAll cfg before).ok hbefore
  obtain ⟨_, opened, -, hext⟩ := performAll_ok hattempt (State.holds_nil modes past) hbefore
  refine ⟨st₁, st₂, opened, hbefore, ?_, hafter, hmodes, hext.holds⟩
  rw [Action.perform_apply, hmodes]
  exact haction

/-- What an action writes in a render, the render writes; so it shares no slot where no parameter of
the render has a name. -/
theorem unshared_of_cut {before after : List Move} {a : Action}
    (hcut : (part.visit cfg.settings.dialect).moves modes = before ++ (a.moves modes ++ after))
    (hnames : ∀ o ∈ part.occurrences cfg.settings.dialect modes, o.param.name = none) :
    a.Unshared cfg.settings modes := by
  intro o ho _
  apply hnames
  rw [← occurrences_draft, draft, Action.draft_eq_strokes, hcut, strokes_append, strokes_append,
    List.filterMap_append, List.filterMap_append]
  rw [Action.sift, Action.draft_eq_strokes] at ho
  exact List.mem_append_right _ (List.mem_append_left _ ho)

/-- **A select does in a render what it does alone.** Let a node be rendered well. The selects that
are entered are those of the node. Wherever one is entered, its visit takes the state of that moment
to one that differs by what the select renders to alone, under the same settings and modes: the
events inside the clauses that are open, the bind values behind those that are there, and the text,
in which numbered placeholders are counted on unless parameters of one name share them. -/
theorem selects_stand_alone (hpart : part.isNode = true) {st : State}
    (hrun : cfg.run part modes past = .ok () st) :
    let d := cfg.settings.dialect
    let alone : Configuration := { settings := cfg.settings }
    let mvs := (part.visit d).moves modes
    (mvs.filterMap Move.entered?).filterMap Part.select? = part.selects d ∧
    ∀ before m q rest, mvs = before ++ ⟨m, .enter (.select q)⟩ :: rest →
      ∃ after st₁ st₂ r, mvs = before ++ ((q.visit d).moves modes ++ after) ∧
        performAll cfg before { modes, notices := past } = .ok () st₁ ∧
        (q.visit d).perform cfg st₁ = .ok () st₂ ∧
        performAll cfg after st₂ = .ok () st ∧
        let report := alone.render (.select q) modes []
        report.result = .ok r ∧ r.sql = textOf cfg.settings report.out ∧
        st₂.events = st₁.events ++ report.notices.map (fun n => n.event.inside st₁.path) ∧
        (cfg.settings.capabilities.numberedPlaceholders = false →
          ∃ new, st₂.out = st₁.out ++ new ∧ textOf cfg.settings new = r.sql ∧
            st₂.params = st₁.params ++ r.params) ∧
        (cfg.settings.capabilities.numberedPlaceholders = true →
          (∀ o ∈ part.occurrences d modes, o.param.name = none) →
          st₂.out = st₁.out ++ report.out.map (Segment.shift st₁.params.length) ∧
            st₂.params = st₁.params ++ r.params) := by
  intro d alone mvs
  refine ⟨Part.selects_entered d modes hpart, fun before m q rest hsplit => ?_⟩
  obtain ⟨after, hcut⟩ := Part.split_at_select d hpart hsplit
  obtain ⟨st₁, st₂, opened, hbefore, hvisit, hafter, hmodes, hholds⟩ :=
    cfg.run_around hpart hrun hcut
  have hstraight : (q.visit d).Straight := Part.straight_visit d (.select q) rfl
  obtain ⟨st₀, halone, hadds⟩ := hstraight.adds hholds hvisit
  rw [hmodes] at halone hadds
  have hrun₀ : alone.run (.select q) modes [] = .ok () st₀ := halone
  refine ⟨after, st₁, st₂, alone.rendered st₀, hcut, hbefore, hvisit, hafter, ?_⟩
  rw [alone.render_of_run hrun₀]
  refine ⟨rfl, rfl, ?_, fun hcaps => ?_, fun _ hnames => ?_⟩
  · have hinside : st₀.events.map (Event.inside st₁.path) =
        st₀.notices.map fun n => n.event.inside st₁.path := List.map_map
    rw [hadds.events_eq, hinside]
  · have hunshared : (q.visit d).Unshared cfg.settings modes := by
      intro o _ htrue
      rw [hcaps] at htrue
      cases htrue
    exact ⟨_, hadds.out_eq hunshared, textOf_map_shift hcaps _ _, hadds.params_eq hunshared⟩
  · have hunshared := cfg.unshared_of_cut hcut hnames
    exact ⟨hadds.out_eq hunshared, hadds.params_eq hunshared⟩

/-- `a = 7 AND EXISTS (SELECT * FROM u WHERE b = 'v')`: behind the slot of `7`, the subquery adds
what it renders to alone, with its placeholder counted on. -/
theorem selects_stand_alone_exists :
    let inner : Select :=
      { tables := [.ofName "u"], filter := some (.comparison (.named "b") .eq (.val "v")) }
    let part : Part := .condition (.combined .and
      [.comparison (.named "a") .eq (.val (7 : Int64)), .exists (.select inner) false])
    let cfg : Configuration := { settings := { dialect := .postgres } }
    ∃ before after st₁ st₂ r,
      (part.visit .postgres).moves {} = before ++ ((inner.visit .postgres).moves {} ++ after) ∧
      performAll cfg before {} = .ok () st₁ ∧
      (inner.visit .postgres).perform cfg st₁ = .ok () st₂ ∧
      (cfg.render (.select inner) {} []).result = .ok r ∧
      st₂.out = st₁.out ++
        (cfg.render (.select inner) {} []).out.map (Segment.shift st₁.params.length) ∧
      st₂.params = st₁.params ++ r.params := by
  intro inner part cfg
  let r : Rendered :=
    { sql := "(\"a\" = $1 AND EXISTS (SELECT * FROM \"u\" WHERE \"b\" = $2))"
      params := [.int 7, .text "v"] }
  have hok : (cfg.render part {} []).result = .ok r := Report.result_eq_ok (by decide +kernel)
  obtain ⟨st, hrun, -⟩ := cfg.render_ok_iff_run.1 hok
  obtain ⟨hselects, hstand⟩ := cfg.selects_stand_alone rfl hrun
  -- the subquery is one of the selects that are entered
  have hin : inner ∈ part.selects .postgres := List.mem_singleton_self _
  rw [← hselects] at hin
  obtain ⟨before, m, p, rest, hselect, hsplit⟩ := Move.exists_cut_of_entered hin
  cases p <;> cases hselect
  obtain ⟨after, st₁, st₂, r₀, hcut, hbefore, hvisit, -, hresult, -, -, -, hadds⟩ :=
    hstand before m inner rest hsplit
  have hnames : ∀ o ∈ part.occurrences .postgres {}, o.param.name = none := by decide +kernel
  obtain ⟨hout, hparams⟩ := hadds rfl hnames
  exact ⟨before, after, st₁, st₂, r₀, hcut, hbefore, hvisit, hresult, hout, hparams⟩

end Configuration

end SqlRender
