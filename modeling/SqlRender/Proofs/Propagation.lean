import SqlRender.Layout.Part
import SqlRender.Proofs.Moves

/-!
# Parts that pass errors on

A part *propagates* if none of the steps in it is an attempt, so that an error ends the render. All
nodes of the SQL tree propagate, and a caller's part does if its steps do.

`Part.straight_visit` says that such a part is laid out as a straight script: nothing is attempted,
and no part that forwards is ever visited itself.
-/

namespace SqlRender

mutual

/-- Whether a part passes every error on. -/
def Part.propagates : Part → Bool
  | .forward p => p.propagates
  | .custom _ steps => Step.allPropagate steps
  | _ => true

/-- Whether a step passes every error on. -/
def Step.propagates : Step → Bool
  | .visit p => p.propagates
  | .render p => p.propagates
  | .within _ steps => Step.allPropagate steps
  | .switch _ _ steps => Step.allPropagate steps
  | .assume _ steps => Step.allPropagate steps
  | .attempt _ => false
  | _ => true

/-- Whether all steps pass every error on. -/
def Step.allPropagate : List Step → Bool
  | [] => true
  | s :: steps => s.propagates && Step.allPropagate steps

end

/-- Whether a part is a node of the SQL tree rather than a part that a caller adds. -/
def Part.isNode : Part → Bool
  | .forward _ | .custom _ _ => false
  | _ => true

theorem Part.propagates_of_isNode {p : Part} (h : p.isNode = true) : p.propagates = true := by
  cases p <;> first | rfl | cases h

/-! ## Straight scripts -/

namespace Script

@[simp] theorem straight_nil : Script.Straight [] := trivial

@[simp] theorem straight_cons {a : Action} {as : Script} :
    Script.Straight (a :: as) ↔ a.Straight ∧ Script.Straight as := Iff.rfl

@[simp] theorem straight_append {as bs : Script} :
    Script.Straight (as ++ bs) ↔ Script.Straight as ∧ Script.Straight bs := by
  simp only [straight_iff, List.mem_append]
  constructor
  · exact fun h => ⟨fun a ha => h a (.inl ha), fun b hb => h b (.inr hb)⟩
  · rintro ⟨has, hbs⟩ a (ha | ha)
    · exact has a ha
    · exact hbs a ha

theorem straight_map {α : Type} {f : α → Action} {as : List α} :
    Script.Straight (as.map f) ↔ ∀ a ∈ as, (f a).Straight := by
  simp [straight_iff]

theorem straight_flatMap {α : Type} {f : α → Script} {as : List α}
    (h : ∀ a ∈ as, Script.Straight (f a)) : Script.Straight (as.flatMap f) := by
  simp only [straight_iff, List.mem_flatMap] at h ⊢
  rintro b ⟨a, ha, hb⟩
  exact h a ha b hb

theorem straight_intersperse {a : Action} (ha : a.Straight) :
    ∀ {as : Script}, Script.Straight as → Script.Straight (as.intersperse a)
  | [], _ => trivial
  | [_], h => h
  | b :: c :: as, h => by
    rw [List.intersperse_cons_cons]
    exact ⟨h.1, ha, straight_intersperse ha h.2⟩

theorem straight_separated {separator : String} {as : Script} (h : Script.Straight as) :
    Script.Straight (Script.separated separator as) :=
  straight_intersperse (a := .keyword separator) trivial h

theorem straight_listed {as : Script} (h : Script.Straight as) :
    Script.Straight (Script.listed as) :=
  straight_separated h

variable (d : Dialect)

@[simp] theorem straight_require (f : Feature) (c : Clause) :
    Script.Straight (Script.require d f c) := by
  unfold Script.require
  split
  · exact ⟨trivial, trivial⟩
  · trivial

@[simp] theorem straight_checkDegree (c : Clause) (expected found : Nat) :
    Script.Straight (Script.checkDegree d c expected found) := by
  unfold Script.checkDegree
  split
  · trivial
  · exact ⟨trivial, trivial⟩

@[simp] theorem straight_failEmpty (c : Clause) : Script.Straight (Script.failEmpty d c) :=
  ⟨trivial, trivial⟩

end Script

open Script

variable (d : Dialect)

/-! ## Fields and tables -/

theorem Field.target_asPart (f : Field) : f.asPart.target = f.asPart := by
  cases f <;> rfl

mutual

theorem Field.straight_body : ∀ f : Field, Script.Straight (f.body d)
  | .column c => by
    simp only [Field.body, Column.body]
    cases c.qualifier <;> simp [Action.Straight]
  | .value _ => by simp [Field.body, Action.Straight]
  | .aliased f _ => by
    simp [Field.body, Action.Straight, f.target_asPart, Field.straight_body f]
  | .row fields => by
    have ih := Field.straight_visits fields
    simp only [Field.body, Row.layout]
    split
    · exact straight_failEmpty d _
    · simpa [Action.Straight] using straight_listed ih

theorem Field.straight_visits : ∀ fs : List Field, Script.Straight (Field.visits d fs)
  | [] => trivial
  | f :: fs => ⟨⟨f.target_asPart, Field.straight_body f⟩, Field.straight_visits fs⟩

end

theorem Field.straight_visit (f : Field) : (f.visit d).Straight :=
  ⟨f.target_asPart, f.straight_body d⟩

theorem Field.straight_map_visit (fs : List Field) : Script.Straight (fs.map (Field.visit d)) :=
  straight_map.2 fun f _ => f.straight_visit d

theorem Row.straight_visit (r : Row) : (Row.visit d r).Straight :=
  ⟨rfl, Field.straight_body d (.row r)⟩

theorem straight_identList (names : List String) : Script.Straight (identList names) := by
  have h : Script.Straight (names.map Action.ident) := straight_map.2 fun _ _ => trivial
  simpa [identList, Action.Straight] using straight_intersperse (a := .text ", ") trivial h

theorem Table.straight_body (t : Table) : Script.Straight (t.body d) := by
  induction t with
  | named schema name => cases schema <;> simp [Table.body, Action.Straight]
  | aliased t name columns ih =>
    have hnames := straight_identList columns
    simp only [Table.body]
    split <;> split <;> simp [Action.Straight, Part.target, ih, hnames]
  | values rows =>
    cases rows with
    | nil => simp [Table.body]
    | cons first rest =>
      have hchecks : Script.Straight ((first :: rest).flatMap fun r =>
          Script.checkDegree d .tableValues first.length r.length) :=
        straight_flatMap fun _ _ => straight_checkDegree d _ _ _
      have hrows : Script.Straight ((first :: rest).map (Row.visit d)) :=
        straight_map.2 fun r _ => Row.straight_visit d r
      simp only [Table.body, straight_append]
      exact ⟨straight_require d _ _, ⟨⟨hchecks, trivial, trivial, trivial⟩, straight_listed hrows⟩,
        trivial, trivial⟩
  | dual => simp [Table.body, Action.Straight]

theorem Table.straight_visit (t : Table) : (t.visit d).Straight :=
  ⟨rfl, t.straight_body d⟩

/-! ## Conditions and queries -/

theorem Connective.straight_layout (op : Connective) {operands : Script}
    (h : Script.Straight operands) : Script.Straight (op.layout operands) := by
  unfold Connective.layout
  split
  · exact ⟨trivial, trivial⟩
  · exact h
  · simpa [Action.Straight] using straight_separated h

theorem Condition.straight_layoutIn (f : Field) (values : List Field) (negated : Bool) :
    Script.Straight (Condition.layoutIn d f values negated) := by
  unfold Condition.layoutIn
  dsimp only
  split
  · exact ⟨trivial, trivial⟩
  · have hchecks : ∀ c, Script.Straight (values.flatMap fun v =>
        Script.checkDegree d c f.degree v.degree) :=
      fun c => straight_flatMap fun _ _ => straight_checkDegree d _ _ _
    have hvalues := straight_listed (Field.straight_map_visit d values)
    simp [Action.Straight, hchecks, f.straight_visit d, hvalues]

theorem Condition.straight_layoutBetween (clause : Clause) (f low high : Field)
    (negated symmetric : Bool) :
    Script.Straight (Condition.layoutBetween d clause f low high negated symmetric) := by
  cases negated <;> cases symmetric <;>
    simp [Condition.layoutBetween, Action.Straight, Field.straight_visit]

theorem Select.straight_layoutFields (distinct : Bool) (fields : List Field) :
    Script.Straight (Select.layoutFields d distinct fields) := by
  have hfields := straight_listed (Field.straight_map_visit d fields)
  cases fields with
  | nil => simp [Select.layoutFields, Action.Straight]
  | cons f fs => simpa [Select.layoutFields, Action.Straight] using hfields

theorem Select.straight_layoutTables (tables : List Table) :
    Script.Straight (Select.layoutTables d tables) := by
  have htables : Script.Straight (Script.listed (tables.map (Table.visit d))) :=
    straight_listed (straight_map.2 fun t _ => t.straight_visit d)
  unfold Select.layoutTables
  split
  · split
    · exact ⟨trivial, Table.straight_visit d .dual, trivial⟩
    · trivial
  · exact ⟨trivial, htables, trivial⟩

theorem SortField.straight_visit (s : SortField) : (s.visit d).Straight :=
  ⟨rfl, s.field.straight_visit d, trivial, trivial⟩

theorem Script.straight_ifAny (word : String) {items : Script} (h : Script.Straight items) :
    Script.Straight (Script.ifAny word items) := by
  unfold Script.ifAny
  split
  · trivial
  · exact ⟨trivial, straight_listed h⟩

theorem Script.straight_hierarchical (clause : Clause) {condition : Script}
    (h : Script.Straight condition) : Script.Straight (Script.hierarchical d clause condition) := by
  unfold Script.hierarchical
  split <;> simp [h]

mutual

theorem Condition.straight_body : ∀ c : Condition, Script.Straight (c.body d)
  | .comparison _ _ _ => by simp [Condition.body, Action.Straight, Field.straight_visit]
  | .not c => by simp [Condition.body, Action.Straight, Part.target, Condition.straight_body c]
  | .combined op conditions => by
    rw [Condition.body]
    exact op.straight_layout (Condition.straight_visits conditions)
  | .isNull _ _ => by simp [Condition.body, Action.Straight, Field.straight_visit]
  | .isIn f values negated => by
    rw [Condition.body]
    exact Condition.straight_layoutIn d f values negated
  | .between _ _ _ _ _ => by
    rw [Condition.body]
    exact Condition.straight_layoutBetween d _ _ _ _ _ _
  | .exists q _ => by simp [Condition.body, Action.Straight, Query.straight_visits q]

theorem Condition.straight_visits : ∀ cs : List Condition, Script.Straight (Condition.visits d cs)
  | [] => trivial
  | c :: cs => ⟨⟨rfl, Condition.straight_body c⟩, Condition.straight_visits cs⟩

theorem Condition.straight_slot (word : String) :
    ∀ c : Option Condition, Script.Straight (Condition.slot d word c)
  | none => trivial
  | some c => ⟨trivial, ⟨rfl, Condition.straight_body c⟩, trivial⟩

theorem Query.straight_visits : ∀ q : Query, Script.Straight (q.visits d)
  | .select s => ⟨⟨rfl, Select.straight_body s⟩, trivial⟩
  | .unionAll selects => by
    have ih := Select.straight_visits selects
    simp only [Query.visits, straight_cons, straight_nil, and_true]
    refine ⟨rfl, ?_⟩
    split
    · exact straight_failEmpty d _
    · exact straight_separated ih

theorem Select.straight_body : ∀ s : Select, Script.Straight (s.body d)
  | { distinct, fields, tables, filter, startWith, connectBy, groupBy, having, orderBy } => by
    have hgroup := straight_ifAny " GROUP BY " (Field.straight_map_visit d groupBy)
    have hfields : Script.Straight (orderBy.map (SortField.visit d)) :=
      straight_map.2 fun s _ => s.straight_visit d
    have horder := straight_ifAny " ORDER BY " hfields
    rw [Select.body]
    exact ⟨Select.straight_layoutFields d distinct fields, Select.straight_layoutTables d tables,
      Condition.straight_slot _ filter,
      straight_hierarchical d _ (Condition.straight_slot _ startWith),
      straight_hierarchical d _ (Condition.straight_slot _ connectBy),
      hgroup, Condition.straight_slot _ having, horder, trivial⟩

theorem Select.straight_visits : ∀ ss : List Select, Script.Straight (Select.visits d ss)
  | [] => trivial
  | s :: ss => ⟨⟨rfl, Select.straight_body s⟩, Select.straight_visits ss⟩

end

theorem Query.straight_visit (q : Query) : (q.visit d).Straight := by
  have h := q.straight_visits d
  rw [Query.visits_eq] at h
  exact h.1

/-! ## Statements -/

theorem Assignment.straight_listed (clause : Clause) (as : List Assignment) :
    Script.Straight (Assignment.listed d clause as) := by
  refine straight_intersperse (a := .text ", ") trivial (straight_map.2 fun a _ => ?_)
  change Script.Straight (a.body d clause)
  unfold Assignment.body
  split <;> simp [Action.Straight, Field.straight_visit]

theorem straight_layoutReturning (fields : List Field) :
    Script.Straight (layoutReturning d fields) := by
  have hfields := Script.straight_listed (Field.straight_map_visit d fields)
  unfold layoutReturning
  split
  · trivial
  · split
    · exact ⟨trivial, hfields, trivial⟩
    · trivial

theorem Insert.straight_layoutTarget (into : Table) (columns : List Field) :
    Script.Straight (Insert.layoutTarget d into columns) := by
  have hcolumns := Script.straight_listed (Field.straight_map_visit d columns)
  unfold Insert.layoutTarget
  split <;> simp [Action.Straight, into.straight_visit d, hcolumns]

theorem Insert.straight_layoutDefaults (columns : List Field) :
    Script.Straight (Insert.layoutDefaults d columns) := by
  unfold Insert.layoutDefaults
  split <;> simp [Action.Straight]

theorem Insert.straight_layoutRows (columns : List Field) (rows : List Row) :
    Script.Straight (Insert.layoutRows d columns rows) := by
  have hchecks : ∀ n, Script.Straight (rows.flatMap fun r =>
      Script.checkDegree d .insertValues n r.length) :=
    fun n => straight_flatMap fun _ _ => straight_checkDegree d _ _ _
  have hrows : Script.Straight (Script.listed (rows.map (Row.visit d))) :=
    Script.straight_listed (straight_map.2 fun r _ => Row.straight_visit d r)
  unfold Insert.layoutRows
  dsimp only
  refine straight_append.2 ⟨hchecks _, ?_⟩
  split
  · exact Insert.straight_layoutDefaults d columns
  · split
    · exact straight_failEmpty d _
    · split
      · exact ⟨⟨trivial, Query.straight_visit d (Insert.unionOf rows), trivial⟩, trivial⟩
      · exact ⟨⟨trivial, hrows⟩, trivial⟩

theorem InsertSource.straight_layout (columns : List Field) (source : InsertSource) :
    Script.Straight (source.layout d columns) := by
  cases source with
  | values rows => exact Insert.straight_layoutRows d columns rows
  | query q => exact ⟨⟨trivial, q.straight_visit d, trivial⟩, trivial⟩

theorem Insert.straight_layoutOnDuplicate (as : List Assignment) :
    Script.Straight (Insert.layoutOnDuplicate d as) := by
  unfold Insert.layoutOnDuplicate
  split
  · trivial
  · split
    · exact ⟨trivial, Assignment.straight_listed d _ as⟩
    · trivial

theorem Insert.straight_body (i : Insert) : Script.Straight (i.body d) := by
  unfold Insert.body
  refine straight_append.2 ⟨straight_append.2 ⟨⟨?_, trivial⟩, ?_⟩, ?_, ?_, trivial⟩
  · exact Insert.straight_layoutTarget d i.into i.columns
  · exact i.source.straight_layout d i.columns
  · exact Insert.straight_layoutOnDuplicate d i.onDuplicateKeyUpdate
  · exact straight_layoutReturning d i.returning

theorem Update.straight_body (u : Update) : Script.Straight (u.body d) := by
  have hset : Script.Straight (Update.layoutSet d u.assignments) := by
    unfold Update.layoutSet
    split
    · exact straight_failEmpty d _
    · exact ⟨trivial, Assignment.straight_listed d _ u.assignments⟩
  have htable : (u.table.visit d).Straight := u.table.straight_visit d
  exact ⟨⟨trivial, ⟨htable, trivial⟩, trivial⟩, hset, Condition.straight_slot d _ u.filter,
    straight_layoutReturning d u.returning, trivial⟩

theorem Delete.straight_body (x : Delete) : Script.Straight (x.body d) := by
  have htable : (x.table.visit d).Straight := x.table.straight_visit d
  exact ⟨⟨trivial, ⟨htable, trivial⟩, trivial⟩, Condition.straight_slot d _ x.filter, trivial⟩

theorem Statement.straight_visit (s : Statement) : (s.visit d).Straight := by
  cases s with
  | query q => exact q.straight_visit d
  | insert i => exact ⟨rfl, i.straight_body d⟩
  | update u => exact ⟨rfl, u.straight_body d⟩
  | delete x => exact ⟨rfl, x.straight_body d⟩

/-! ## Parts -/

/-- A part is visited as its target, whether it forwards or not. -/
theorem Part.visit_target (p : Part) : p.target.visit d = p.visit d := by
  induction p using Part.target.induct with
  | case1 f => cases f <;> simp [Part.target, Field.asPart, Part.visit, Field.visit_row]
  | case2 q => cases q <;> simp [Part.target, Query.asPart, Part.visit, Query.visit]
  | case3 s =>
    rcases s with q | i | u | x
    · cases q <;> simp [Part.target, Statement.asPart, Query.asPart, Part.visit, Statement.visit,
        Query.visit]
    all_goals simp [Part.target, Statement.asPart, Part.visit, Statement.visit]
  | case4 p ih => rw [Part.target, ih, Part.visit]
  | case5 p => cases p <;> simp_all [Part.target]

theorem Step.straight_notes {s : Step} : Script.Straight (s.notes d) := by
  cases s <;> first | exact ⟨trivial, trivial⟩ | trivial

mutual

/-- **A part that propagates is visited straight.** -/
theorem Part.straight_visit : ∀ p : Part, p.propagates = true → (p.visit d).Straight
  | .field f, _ => f.straight_visit d
  | .row r, _ => Row.straight_visit d r
  | .table t, _ => t.straight_visit d
  | .condition c, _ => ⟨rfl, c.straight_body d⟩
  | .sort s, _ => s.straight_visit d
  | .select s, _ => ⟨rfl, s.straight_body d⟩
  | .query q, _ => q.straight_visit d
  | .insert i, _ => ⟨rfl, i.straight_body d⟩
  | .update u, _ => ⟨rfl, u.straight_body d⟩
  | .delete x, _ => ⟨rfl, x.straight_body d⟩
  | .statement s, _ => s.straight_visit d
  | .forward p, h => by
    rw [Part.visit]
    exact Part.straight_visit p h
  | .custom tags steps, h => by
    rw [Part.visit]
    exact ⟨rfl, Step.straight_script steps h⟩

/-- What is written inside the tags of a part that propagates is straight. -/
theorem Part.straight_body : ∀ p : Part, p.propagates = true → Script.Straight (p.body d)
  | .field f, _ => f.straight_body d
  | .row r, _ => Field.straight_body d (.row r)
  | .table t, _ => t.straight_body d
  | .condition c, _ => c.straight_body d
  | .sort s, _ => (s.straight_visit d).2
  | .select s, _ => s.straight_body d
  | .query (.select s), _ => ⟨⟨rfl, s.straight_body d⟩, trivial⟩
  | .query (.unionAll ss), _ => (Query.straight_visit d (.unionAll ss)).2
  | .insert i, _ => i.straight_body d
  | .update u, _ => u.straight_body d
  | .delete x, _ => x.straight_body d
  | .statement s, _ => ⟨s.straight_visit d, trivial⟩
  | .forward p, h => by
    rw [Part.body]
    exact Part.straight_body p h
  | .custom _ steps, h => by
    rw [Part.body]
    exact Step.straight_script steps h

theorem Step.straight_actions : ∀ s : Step, s.propagates = true → Script.Straight (s.actions d)
  | .write _, _ | .keyword _, _ | .ident _, _ | .bind _, _ | .literal _ _, _ => by
    simp [Step.actions, Action.Straight]
  | .tagsOf _, _ | .resolve _, _ | .inspect, _ => by simp [Step.actions]
  | .require _ _, _ | .checkDegree _ _ _, _ | .failEmpty _, _ => by simp [Step.actions]
  | .visit p, h => by
    rw [Step.actions]
    exact ⟨Part.straight_visit p h, trivial⟩
  | .visitAll fields separator, _ => by
    rw [Step.actions]
    exact straight_separated (Field.straight_map_visit d fields)
  | .render p, h => by
    rw [Step.actions]
    exact Part.straight_body p h
  | .within _ steps, h | .switch _ _ steps, h | .assume _ steps, h => by
    rw [Step.actions]
    exact ⟨Step.straight_script steps h, trivial⟩

theorem Step.straight_script :
    ∀ steps : List Step, Step.allPropagate steps = true → Script.Straight (Step.script d steps)
  | [], _ => by simp [Step.script]
  | s :: steps, h => by
    obtain ⟨hs, hsteps⟩ := Bool.and_eq_true_iff.1 h
    rw [Step.script]
    exact straight_append.2 ⟨straight_append.2 ⟨Step.straight_actions s hs, Step.straight_notes d⟩,
      Step.straight_script steps hsteps⟩

end

end SqlRender
