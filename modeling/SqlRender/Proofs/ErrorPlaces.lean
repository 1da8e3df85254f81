import SqlRender.Proofs.Inlining
import SqlRender.Proofs.Positions
import SqlRender.Proofs.Refusals
import SqlRender.Proofs.StatementSlots

/-!
# The places of errors

A check names its clause by hand, while the open clauses are kept by the run. That the two agree is
said in terms of the events alone, as a listener sees them:

```text
started               INSERT  INSERT_INTO  …              INSERT_VALUES
ended                              …  INSERT_INTO
openClauses   INSERT                         INSERT       INSERT / INSERT_VALUES
                                             checks of the rows stand here, and name INSERT_VALUES
```

An error names the innermost clause that has been started and not ended, but for the checks of the
rows of an insert. `Move.Along` follows the open clauses and the started ones along the moves up to
each one that may fail, and `Configuration.error_stands_open` reads them off the events.
-/

namespace SqlRender

/-! ## Clauses in the events -/

/-- The open clauses behind an event. -/
def Event.track (path : List Clause) (e : Event) : List Clause :=
  match e.kind with
  | .clauseStart => path ++ e.clause.toList
  | .clauseEnd => path.dropLast
  | .visitStart | .visitEnd => path

/-- The clauses that have been started and not ended, outermost first. -/
def openClauses (es : List Event) : List Clause := es.foldl Event.track []

/-- The clauses that have been started, in order. -/
def startedClauses (es : List Event) : List Clause :=
  es.filterMap fun e => if e.kind = .clauseStart then e.clause else none

namespace Move

/-- The clause that a move opens. -/
def started? : Move → Option Clause
  | ⟨_, .start _ c⟩ => some c
  | _ => none

/-- The events of moves keep track of where they walk. -/
theorem track_events (d : Dialect) (path : List Clause) (mvs : List Move) :
    (events d path mvs).foldl Event.track path = walkAll path mvs := by
  induction mvs generalizing path with
  | nil => rfl
  | cons mv mvs ih =>
    have hhead : (mv.event? d path).toList.foldl Event.track path = mv.walk path := by
      obtain ⟨m, deed⟩ := mv
      cases deed <;> simp [event?, walk, Event.track, Event.clause, Modes.event]
    rw [events, List.foldl_append, hhead, ih]
    rfl

/-- The clauses that are started in the events of moves are those that the moves open. -/
theorem startedClauses_events (d : Dialect) (path : List Clause) (mvs : List Move) :
    startedClauses (events d path mvs) = mvs.filterMap started? := by
  induction mvs generalizing path with
  | nil => rfl
  | cons mv mvs ih =>
    have hhead : startedClauses (mv.event? d path).toList = mv.started?.toList := by
      obtain ⟨m, deed⟩ := mv
      cases deed <;> simp [event?, started?, startedClauses, Event.clause, Modes.event]
    have hsplit : startedClauses (events d path (mv :: mvs)) =
        startedClauses (mv.event? d path).toList ++ startedClauses (events d (mv.walk path) mvs) :=
      List.filterMap_append
    rw [hsplit, hhead, ih]
    cases h : mv.started? <;> simp [h]

end Move

/-! ## What stands apart from inserts -/

/-- Whether a clause is that of an insert or of its source. -/
def Clause.isInsertion : Clause → Bool
  | insert | insertValues | insertSelect => true
  | _ => false

theorem Condition.isInsertion_clause : ∀ c : Condition, c.clause.isInsertion = false
  | .comparison _ _ _ | .not _ => rfl
  | .combined op _ => by cases op <;> rfl
  | .isNull _ negated | .isIn _ _ negated | .exists _ negated => by cases negated <;> rfl
  | .between _ _ _ negated symmetric => by cases negated <;> cases symmetric <;> rfl

theorem Field.isInsertion_tags (m : Modes) (f : Field) :
    ∀ c ∈ f.asPart.tags m, c.isInsertion = false := by
  cases f with
  | aliased f name =>
    cases hm : m.declareFields <;> simp [asPart, Part.tags, Field.tags, hm, Clause.isInsertion]
  | column | value | row => simp [asPart, Part.tags, Field.tags, Clause.isInsertion]

theorem Table.isInsertion_tags (m : Modes) (t : Table) :
    ∀ c ∈ (Part.table t).tags m, c.isInsertion = false := by
  cases t with
  | aliased t name columns =>
    cases hm : m.declareTables <;> simp [Part.tags, Table.tags, hm, Clause.isInsertion]
  | named | values | dual => simp [Part.tags, Table.tags, Clause.isInsertion]

theorem Condition.isInsertion_tags (m : Modes) (c : Condition) :
    ∀ c' ∈ (Part.condition c).tags m, c'.isInsertion = false := by
  have hcondition : Clause.condition.isInsertion = false := rfl
  simp [Part.tags, hcondition, c.isInsertion_clause]

mutual

/-- An action that opens no clause of an insert or of its source, and writes values only inside of
some clause. -/
def Action.Apart (inner : Option Clause) : Action → Prop
  | .bind _ | .literal _ _ => inner.isSome = true
  | .visit part body => ∀ m, (∀ c ∈ part.tags m, c.isInsertion = false) ∧
    Script.Apart ((part.tags m).getLast?.or inner) body
  | .within c body => c.isInsertion = false ∧ Script.Apart (some c) body
  | .switch _ _ body | .assume _ body | .whenOn _ body => Script.Apart inner body
  | .attempt _ body => Script.Apart inner body
  | _ => True

/-- A script that opens no clause of an insert or of its source, and writes values only inside of
some clause. -/
def Script.Apart (inner : Option Clause) : List Action → Prop
  | [] => True
  | a :: as => a.Apart inner ∧ Script.Apart inner as

end

namespace Script

variable {inner : Option Clause}

@[simp] theorem apart_nil : Script.Apart inner [] := trivial

@[simp] theorem apart_cons {a : Action} {as : Script} :
    Script.Apart inner (a :: as) ↔ a.Apart inner ∧ Script.Apart inner as := Iff.rfl

theorem apart_iff (as : Script) : Script.Apart inner as ↔ ∀ a ∈ as, a.Apart inner := by
  induction as with
  | nil => simp
  | cons a as ih => simp [ih]

@[simp] theorem apart_append {as bs : Script} :
    Script.Apart inner (as ++ bs) ↔ Script.Apart inner as ∧ Script.Apart inner bs := by
  simp only [apart_iff, List.mem_append, or_imp, forall_and]

theorem apart_map {α : Type} {f : α → Action} {as : List α} (h : ∀ a, (f a).Apart inner) :
    Script.Apart inner (as.map f) := by
  simp [apart_iff, h]

theorem apart_intersperse {a : Action} (ha : a.Apart inner) :
    ∀ {as : Script}, Script.Apart inner as → Script.Apart inner (as.intersperse a)
  | [], _ => trivial
  | [_], h => h
  | b :: c :: as, h => by
    rw [List.intersperse_cons_cons]
    exact ⟨h.1, ha, apart_intersperse ha h.2⟩

theorem apart_separated {separator : String} {as : Script} (h : Script.Apart inner as) :
    Script.Apart inner (Script.separated separator as) :=
  apart_intersperse (a := .keyword separator) trivial h

theorem apart_listed {as : Script} (h : Script.Apart inner as) :
    Script.Apart inner (Script.listed as) :=
  apart_separated h

theorem apart_ifAny (word : String) {items : Script} (h : Script.Apart inner items) :
    Script.Apart inner (Script.ifAny word items) := by
  unfold Script.ifAny
  split
  · trivial
  · exact ⟨trivial, apart_listed h⟩

theorem apart_identList (names : List String) : Script.Apart inner (identList names) := by
  have hnames : Script.Apart inner ((names.map Action.ident).intersperse (.text ", ")) :=
    apart_intersperse (a := .text ", ") trivial (apart_map fun _ => trivial)
  simpa [identList, Action.Apart] using hnames

variable (d : Dialect)

@[simp] theorem apart_require (f : Feature) (c : Clause) :
    Script.Apart inner (Script.require d f c) := by
  unfold Script.require
  split <;> simp [Action.Apart]

@[simp] theorem apart_checkDegree (c : Clause) (expected found : Nat) :
    Script.Apart inner (Script.checkDegree d c expected found) := by
  unfold Script.checkDegree
  split <;> simp [Action.Apart]

@[simp] theorem apart_failEmpty (c : Clause) : Script.Apart inner (Script.failEmpty d c) :=
  ⟨trivial, trivial⟩

@[simp] theorem apart_checks {α : Type} (c : Clause) (expected : Nat) (found : α → Nat)
    (as : List α) :
    Script.Apart inner (as.flatMap fun a => Script.checkDegree d c expected (found a)) := by
  induction as with
  | nil => trivial
  | cons a as ih => simp [ih]

end Script

open Script

variable (d : Dialect)

/-! ### Fields and tables -/

mutual

theorem Field.apart_body (m : Modes) : ∀ (f : Field) (inner : Option Clause),
    Script.Apart ((f.asPart.tags m).getLast?.or inner) (f.body d)
  | .column c, _ => by
    simp only [Field.body, Column.body]
    cases c.qualifier <;> simp [Action.Apart]
  | .value _, _ => by simp [Field.body, Action.Apart, Field.asPart, Part.tags, Field.tags]
  | .aliased f _, _ =>
    ⟨⟨fun m' => ⟨f.isInsertion_tags m', Field.apart_body m' f _⟩, trivial, trivial⟩, trivial,
      trivial⟩
  | .row fields, _ => by
    have ih := Field.apart_visits (some .fieldRow) fields
    simp only [Field.body, Row.layout]
    split
    · simp
    · exact ⟨trivial, apart_append.2 ⟨apart_listed ih, trivial, trivial⟩⟩

theorem Field.apart_visits (inner : Option Clause) :
    ∀ fs : List Field, Script.Apart inner (Field.visits d fs)
  | [] => trivial
  | f :: fs =>
    ⟨fun m => ⟨f.isInsertion_tags m, Field.apart_body m f inner⟩, Field.apart_visits inner fs⟩

end

section

variable (inner : Option Clause)

theorem Field.apart_visit (f : Field) : (f.visit d).Apart inner :=
  fun m => ⟨f.isInsertion_tags m, f.apart_body d m inner⟩

theorem Field.apart_listed (fs : List Field) :
    Script.Apart inner (Script.listed (fs.map (Field.visit d))) :=
  Script.apart_listed (apart_map fun f => f.apart_visit d inner)

theorem Row.apart_visit (r : Row) : (Row.visit d r).Apart inner :=
  Field.apart_visit d inner (.row r)

end

theorem Table.apart_body (t : Table) (inner : Option Clause) : Script.Apart inner (t.body d) := by
  induction t generalizing inner with
  | named schema name => cases schema <;> simp [Table.body, Action.Apart]
  | aliased t name columns ih =>
    have hvisit : (Action.visit (.table t) (t.body d)).Apart inner :=
      fun m => ⟨t.isInsertion_tags m, ih _⟩
    refine apart_append.2 ⟨⟨⟨hvisit, ?_, trivial⟩, trivial, trivial⟩, ?_⟩
    · split <;> trivial
    · split
      · trivial
      · exact ⟨apart_identList columns, trivial⟩
  | values rows =>
    have hrows : Script.Apart inner (Script.listed (rows.map (Row.visit d))) :=
      Script.apart_listed (apart_map fun r => Row.apart_visit d _ r)
    cases rows <;> simp_all [Table.body, Action.Apart]
  | dual => exact ⟨trivial, trivial⟩

theorem Table.apart_visit (inner : Option Clause) (t : Table) : (t.visit d).Apart inner :=
  fun m => ⟨t.isInsertion_tags m, t.apart_body d _⟩

/-! ### Conditions and queries -/

section

variable (inner : Option Clause)

theorem Connective.apart_layout (op : Connective) {operands : Script}
    (h : Script.Apart inner operands) : Script.Apart inner (op.layout operands) := by
  unfold Connective.layout
  split
  · exact ⟨trivial, trivial⟩
  · exact h
  · exact apart_append.2 ⟨⟨trivial, apart_separated h⟩, trivial, trivial⟩

theorem Condition.apart_layoutIn (f : Field) (values : List Field) (negated : Bool) :
    Script.Apart inner (Condition.layoutIn d f values negated) := by
  unfold Condition.layoutIn
  dsimp only
  split <;> simp [Action.Apart, Field.apart_visit, Field.apart_listed]

theorem Condition.apart_layoutBetween (clause : Clause) (f low high : Field)
    (negated symmetric : Bool) :
    Script.Apart inner (Condition.layoutBetween d clause f low high negated symmetric) := by
  cases negated <;> cases symmetric <;>
    simp [Condition.layoutBetween, Action.Apart, Field.apart_visit]

theorem Select.apart_layoutFields (distinct : Bool) (fields : List Field) :
    Script.Apart inner (Select.layoutFields d distinct fields) := by
  refine apart_append.2 ⟨⟨trivial, trivial⟩, ?_⟩
  split
  · exact ⟨trivial, trivial⟩
  · exact ⟨Field.apart_listed d inner fields, trivial⟩

theorem Select.apart_layoutTables (tables : List Table) :
    Script.Apart inner (Select.layoutTables d tables) := by
  have htables : Script.Apart inner (Script.listed (tables.map (Table.visit d))) :=
    Script.apart_listed (apart_map fun t => t.apart_visit d inner)
  unfold Select.layoutTables
  split
  · split <;> simp [Action.Apart, Table.apart_visit]
  · simp [Action.Apart, htables]

theorem SortField.apart_visit (s : SortField) : (s.visit d).Apart inner := by
  intro m
  simp [Part.tags, SortField.body, Action.Apart, Field.apart_visit]

theorem Script.apart_hierarchical (clause : Clause) {condition : Script}
    (h : Script.Apart inner condition) :
    Script.Apart inner (Script.hierarchical d clause condition) := by
  unfold Script.hierarchical
  split <;> simp [h]

end

mutual

theorem Condition.apart_body : ∀ (c : Condition) (inner : Option Clause),
    Script.Apart inner (c.body d)
  | .comparison _ _ _, _ => by simp [Condition.body, Action.Apart, Field.apart_visit]
  | .not c, _ =>
    ⟨trivial, fun m => ⟨c.isInsertion_tags m, Condition.apart_body c _⟩, trivial, trivial⟩
  | .combined op conditions, inner => by
    rw [Condition.body]
    exact op.apart_layout _ (Condition.apart_visits conditions inner)
  | .isNull _ _, _ => by simp [Condition.body, Action.Apart, Field.apart_visit]
  | .isIn f values negated, _ => by
    rw [Condition.body]
    exact Condition.apart_layoutIn d _ f values negated
  | .between f low high negated symmetric, _ => by
    rw [Condition.body]
    exact Condition.apart_layoutBetween d _ _ f low high negated symmetric
  | .exists q _, inner => by
    simp [Condition.body, Action.Apart, Query.apart_visits q inner]

theorem Condition.apart_visits : ∀ (cs : List Condition) (inner : Option Clause),
    Script.Apart inner (Condition.visits d cs)
  | [], _ => trivial
  | c :: cs, inner =>
    ⟨fun m => ⟨c.isInsertion_tags m, Condition.apart_body c _⟩, Condition.apart_visits cs inner⟩

theorem Condition.apart_slot (word : String) : ∀ (c : Option Condition) (inner : Option Clause),
    Script.Apart inner (Condition.slot d word c)
  | none, _ => trivial
  | some c, _ => ⟨trivial, fun m => ⟨c.isInsertion_tags m, Condition.apart_body c _⟩, trivial⟩

theorem Query.apart_visits : ∀ (q : Query) (inner : Option Clause), Script.Apart inner (q.visits d)
  | .select s, _ =>
    ⟨fun _ => ⟨by simp [Part.tags, Clause.isInsertion], Select.apart_body s _⟩, trivial⟩
  | .unionAll selects, _ => by
    have ih := Select.apart_visits selects (some .selectUnionAll)
    refine ⟨fun _ => ⟨by simp [Part.tags, Clause.isInsertion], ?_⟩, trivial⟩
    split
    · simp
    · exact apart_separated ih

theorem Select.apart_body : ∀ (s : Select) (inner : Option Clause), Script.Apart inner (s.body d)
  | { distinct, fields, tables, filter, startWith, connectBy, groupBy, having, orderBy }, _ => by
    rw [Select.body]
    exact ⟨⟨rfl, Select.apart_layoutFields d _ distinct fields⟩,
      ⟨rfl, Select.apart_layoutTables d _ tables⟩,
      ⟨rfl, Condition.apart_slot _ filter _⟩,
      ⟨rfl, Script.apart_hierarchical d _ _ (Condition.apart_slot _ startWith _)⟩,
      ⟨rfl, Script.apart_hierarchical d _ _ (Condition.apart_slot _ connectBy _)⟩,
      ⟨rfl, apart_ifAny _ (apart_map fun f => f.apart_visit d _)⟩,
      ⟨rfl, Condition.apart_slot _ having _⟩,
      ⟨rfl, apart_ifAny _ (apart_map fun s => s.apart_visit d _)⟩, trivial⟩

theorem Select.apart_visits : ∀ (ss : List Select) (inner : Option Clause),
    Script.Apart inner (Select.visits d ss)
  | [], _ => trivial
  | s :: ss, inner =>
    ⟨fun _ => ⟨by simp [Part.tags, Clause.isInsertion], Select.apart_body s _⟩,
      Select.apart_visits ss inner⟩

end

theorem Query.apart_visit (inner : Option Clause) (q : Query) : (q.visit d).Apart inner := by
  have h := q.apart_visits d inner
  rw [Query.visits_eq] at h
  exact h.1

/-! ### Statements -/

section

variable (inner : Option Clause)

theorem Assignment.apart_listed {clause : Clause} (hclause : clause.isInsertion = false)
    (as : List Assignment) : Script.Apart inner (Assignment.listed d clause as) := by
  refine apart_intersperse (a := .text ", ") trivial (apart_map fun a => ⟨hclause, ?_⟩)
  unfold Assignment.body
  split <;> simp [Action.Apart, Field.apart_visit]

theorem apart_layoutReturning (fields : List Field) :
    Script.Apart inner (layoutReturning d fields) := by
  unfold layoutReturning
  split
  · trivial
  · split <;> simp [Action.Apart, Field.apart_listed]

theorem Insert.apart_layoutTarget (into : Table) (columns : List Field) :
    Script.Apart inner (Insert.layoutTarget d into columns) := by
  unfold Insert.layoutTarget
  split <;> simp [Action.Apart, Table.apart_visit, Field.apart_listed]

theorem Insert.apart_layoutOnDuplicate (as : List Assignment) :
    Script.Apart inner (Insert.layoutOnDuplicate d as) := by
  unfold Insert.layoutOnDuplicate
  split
  · trivial
  · split
    · exact ⟨trivial, Assignment.apart_listed d inner rfl as⟩
    · trivial

theorem Update.apart_visit (u : Update) : (u.visit d).Apart inner := by
  have hset : Script.Apart (some .updateSet) (Update.layoutSet d u.assignments) := by
    unfold Update.layoutSet
    split
    · simp
    · exact ⟨trivial, Assignment.apart_listed d _ rfl u.assignments⟩
  intro m
  exact ⟨by simp [Part.tags, Clause.isInsertion],
    ⟨rfl, trivial, ⟨u.table.apart_visit d _, trivial⟩, trivial⟩, ⟨rfl, hset⟩,
    ⟨rfl, Condition.apart_slot d _ u.filter _⟩, ⟨rfl, apart_layoutReturning d _ u.returning⟩,
    trivial⟩

theorem Delete.apart_visit (x : Delete) : (x.visit d).Apart inner := by
  intro m
  exact ⟨by simp [Part.tags, Clause.isInsertion],
    ⟨rfl, trivial, ⟨x.table.apart_visit d _, trivial⟩, trivial⟩,
    ⟨rfl, Condition.apart_slot d _ x.filter _⟩, trivial⟩

/-- The visit of a node is that of an insert, or stands apart from inserts. -/
theorem Part.apart_visit {p : Part} (hp : p.isNode = true) :
    (∃ i : Insert, p.visit d = i.visit d) ∨ (p.visit d).Apart inner := by
  cases p with
  | forward _ | custom _ _ => cases hp
  | insert i => exact .inl ⟨i, rfl⟩
  | statement s =>
    cases s with
    | insert i => exact .inl ⟨i, rfl⟩
    | query q => exact .inr (q.apart_visit d inner)
    | update u => exact .inr (u.apart_visit d inner)
    | delete x => exact .inr (x.apart_visit d inner)
  | field f => exact .inr (f.apart_visit d inner)
  | row r => exact .inr (Row.apart_visit d inner r)
  | table t => exact .inr (t.apart_visit d inner)
  | condition c => exact .inr fun m => ⟨c.isInsertion_tags m, c.apart_body d _⟩
  | sort s => exact .inr (s.apart_visit d inner)
  | select s => exact .inr (Query.apart_visit d inner (.select s))
  | query q => exact .inr (q.apart_visit d inner)
  | update u => exact .inr (u.apart_visit d inner)
  | delete x => exact .inr (x.apart_visit d inner)

end

/-! ## Along the moves -/

namespace Move

/-- Something holds of every move that writes or fails, where it is made: of the clauses that are
open there, and of those that have been started. -/
def Along (Q : List Clause → List Clause → Deed → Prop) :
    List Clause → List Clause → List Move → Prop
  | _, _, [] => True
  | path, started, mv :: mvs =>
    (mv.stroke? = none ∨ Q path started mv.deed) ∧
      Along Q (mv.walk path) (started ++ mv.started?.toList) mvs

section

variable {Q Q' : List Clause → List Clause → Deed → Prop} {path started : List Clause}
  {mvs mvs' : List Move}

theorem along_append :
    Along Q path started (mvs ++ mvs') ↔ Along Q path started mvs ∧
      Along Q (walkAll path mvs) (started ++ mvs.filterMap started?) mvs' := by
  induction mvs generalizing path started with
  | nil => simp [Along, walkAll]
  | cons mv mvs ih =>
    have hstarted : started ++ (mv :: mvs).filterMap started? =
        started ++ mv.started?.toList ++ mvs.filterMap started? := by
      cases h : mv.started? <;> simp [h]
    rw [List.cons_append, Along, ih, Along, hstarted, and_assoc]
    rfl

theorem Along.imp (h : Along Q path started mvs)
    (himp : ∀ path started deed, Q path started deed → Q' path started deed) :
    Along Q' path started mvs := by
  induction mvs generalizing path started with
  | nil => trivial
  | cons mv mvs ih => exact ⟨h.1.imp_right (himp _ _ _), ih h.2⟩

theorem along_of_stroke_none (h : ∀ mv ∈ mvs, mv.stroke? = none) : Along Q path started mvs := by
  induction mvs generalizing path started with
  | nil => trivial
  | cons mv mvs ih =>
    obtain ⟨hmv, hmvs⟩ := List.forall_mem_cons.1 h
    exact ⟨.inl hmv, ih hmvs⟩

theorem Along.at_cut {before after : List Move} {mv : Move}
    (h : Along Q path started (before ++ mv :: after)) :
    mv.stroke? = none ∨ Q (walkAll path before) (started ++ before.filterMap started?) mv.deed :=
  (along_append.1 h).2.1

end

end Move

open Move

/-- What a deed needs that may fail: a check names the innermost open clause, and a value is written
inside of some clause. -/
def Deed.At (inner : Option Clause) : Deed → Prop
  | .fail e => e.RaisedIn inner
  | .bind _ | .literal _ _ => inner.isSome = true
  | _ => True

/-- A deed stands inside of clauses, of which those opened inside of the outer ones are none of an
insert. -/
def Deed.Below (outer : List Clause) (inner : Option Clause) (path : List Clause) (deed : Deed) :
    Prop :=
  ∃ rel, path = outer ++ rel ∧ (∀ c ∈ rel, c.isInsertion = false) ∧
    deed.At (rel.getLast?.or inner)

theorem Deed.Below.here {outer : List Clause} {inner : Option Clause} {deed : Deed}
    (h : deed.At inner) : deed.Below outer inner outer := by
  refine ⟨[], (List.append_nil outer).symm, ?_, h⟩
  intro c hc
  cases hc

theorem Deed.Below.of_inside {outer tags path : List Clause} {inner : Option Clause} {deed : Deed}
    (htags : ∀ c ∈ tags, c.isInsertion = false)
    (h : deed.Below (outer ++ tags) (tags.getLast?.or inner) path) :
    deed.Below outer inner path := by
  obtain ⟨rel, hpath, hrel, hat⟩ := h
  refine ⟨tags ++ rel, by rw [hpath, List.append_assoc], ?_, ?_⟩
  · intro c hc
    exact (List.mem_append.1 hc).elim (htags c) (hrel c)
  · rwa [List.getLast?_append, Option.or_assoc]

mutual

/-- What may fail in an action that stands apart from inserts stands where it needs to. -/
theorem Action.Straight.below {m : Modes} (outer started : List Clause) :
    ∀ {a : Action} {inner : Option Clause}, a.Straight → a.ChecksAt inner → a.Apart inner →
      Along (fun path _ => Deed.Below outer inner path) outer started (a.moves m)
  | .text _, _, _, _, _ | .keyword _, _, _, _, _ | .ident _, _, _, _, _ | .note _ _, _, _, _, _ =>
    ⟨.inr (.here trivial), trivial⟩
  | .bind _, _, _, _, hat | .literal _ _, _, _, _, hat | .fail _, _, _, hat, _ =>
    ⟨.inr (.here hat), trivial⟩
  | .visit part body, inner, hstraight, hchecks, hapart => by
    have hwalk : walkAll outer (part.opening m) = outer ++ part.tags m :=
      walkAll_starts outer m (some part) (part.tags m)
    rw [Part.moves_visit]
    -- nothing fails in the brackets, and the body stands inside of the tags
    refine along_append.2 ⟨along_of_stroke_none fun mv hmv => (part.opening_silent m mv hmv).1,
      along_append.2 ⟨?_, along_of_stroke_none fun mv hmv => (part.closing_silent m mv hmv).1⟩⟩
    rw [hwalk]
    exact (Script.Straight.below _ _ hstraight.2 (hchecks m) (hapart m).2).imp
      fun _ _ _ h => h.of_inside (hapart m).1
  | .within c body, inner, hstraight, hchecks, hapart => by
    have htags : ∀ c' ∈ [c], c'.isInsertion = false := by simpa using hapart.1
    refine ⟨.inl rfl, along_append.2 ⟨?_, .inl rfl, trivial⟩⟩
    exact (Script.Straight.below _ _ hstraight hchecks hapart.2).imp
      fun _ _ _ h => h.of_inside htags
  | .switch _ _ _, _, hstraight, hchecks, hapart | .assume _ _, _, hstraight, hchecks, hapart =>
    Script.Straight.below _ _ hstraight hchecks hapart
  | .whenOn mode body, _, hstraight, hchecks, hapart => by
    rw [Action.moves]
    split
    · exact Script.Straight.below _ _ hstraight hchecks hapart
    · trivial

/-- What may fail in a script that stands apart from inserts stands where it needs to. -/
theorem Script.Straight.below {m : Modes} (outer started : List Clause) :
    ∀ {as : List Action} {inner : Option Clause}, Script.Straight as → Script.ChecksAt inner as →
      Script.Apart inner as →
      Along (fun path _ => Deed.Below outer inner path) outer started (Script.moves m as)
  | [], _, _, _, _ => trivial
  | a :: as, _, hstraight, hchecks, hapart => by
    refine along_append.2 ⟨Action.Straight.below _ _ hstraight.1 hchecks.1 hapart.1, ?_⟩
    rw [hstraight.1.bracketed.walkAll_eq]
    exact Script.Straight.below _ _ hstraight.2 hchecks.2 hapart.2

end

mutual

/-- What stands apart from inserts starts none of their clauses. -/
theorem Action.Apart.started {m : Modes} : ∀ {a : Action} {inner : Option Clause}, a.Apart inner →
    ∀ c ∈ (a.moves m).filterMap started?, c.isInsertion = false
  | .text _, _, _ | .keyword _, _, _ | .ident _, _, _ | .bind _, _, _ | .literal _ _, _, _
  | .fail _, _, _ | .note _ _, _, _ | .attempt _ _, _, _ => fun _ hc => nomatch hc
  | .visit part body, _, h => by
    intro c hc
    simp only [Action.moves, List.filterMap_cons, List.filterMap_append, List.filterMap_map,
      List.mem_append, started?, Function.comp_def, List.filterMap_some, List.filterMap_none,
      List.not_mem_nil, List.filterMap_nil, or_false] at hc
    rcases hc with hc | hc
    · exact (h m).1 c hc
    · exact Script.Apart.started (h m).2 c hc
  | .within c' body, _, h => by
    intro c hc
    simp only [Action.moves, List.filterMap_cons, List.filterMap_append, started?, List.mem_cons,
      List.append_nil, List.filterMap_nil] at hc
    rcases hc with rfl | hc
    · exact h.1
    · exact Script.Apart.started h.2 c hc
  | .switch _ _ _, _, h | .assume _ _, _, h => Script.Apart.started h
  | .whenOn mode body, _, h => by
    rw [Action.moves]
    split
    · exact Script.Apart.started h
    · exact fun _ hc => nomatch hc

/-- What stands apart from inserts starts none of their clauses. -/
theorem Script.Apart.started {m : Modes} : ∀ {as : List Action} {inner : Option Clause},
    Script.Apart inner as → ∀ c ∈ (Script.moves m as).filterMap started?, c.isInsertion = false
  | [], _, _ => fun _ hc => nomatch hc
  | a :: as, _, h => by
    intro c hc
    rw [Script.moves, List.filterMap_append] at hc
    rcases List.mem_append.1 hc with hc | hc
    · exact Action.Apart.started h.1 c hc
    · exact Script.Apart.started h.2 c hc

end

/-- Inside of an insert, what stands apart from inserts starts no source. -/
theorem Script.Apart.not_mem_started {as : Script} {inner : Option Clause} {m : Modes} {c : Clause}
    (h : Script.Apart inner as) (hc : c.isInsertion = true) (hne : c ≠ .insert) :
    c ∉ .insert :: (Script.moves m as).filterMap started? := by
  intro hmem
  rcases List.mem_cons.1 hmem with heq | hmem
  · exact hne heq
  · rw [h.started c hmem] at hc
    cases hc

/-! ## Named clauses -/

/-- An error names the innermost open clause. If it names `INSERT_VALUES`, then what is open is the
insert alone, and no source of it has been started. -/
def RenderError.Names (path started : List Clause) (e : RenderError) : Prop :=
  ∃ c, e.clause = some c ∧
    if c = .insertValues then
      path = [.insert] ∧ .insertValues ∉ started ∧ .insertSelect ∉ started
    else path.getLast? = some c

/-- Every error that a deed can raise by itself names its place. -/
def Deed.Names (path started : List Clause) : Deed → Prop
  | .fail e => e.Names path started
  | .bind _ | .literal _ _ => ∃ c, path.getLast? = some c ∧ c ≠ .insertValues
  | _ => True

/-- Checks name a clause. -/
theorem RenderError.exists_clause {e : RenderError} (h : e.isCheck = true) :
    ∃ c, e.clause = some c := by
  cases e with
  | unsupported | degreeMismatch | emptyClause => exact ⟨_, rfl⟩
  | paramConflict | invalidLiteral | listener => cases h

/-- The last of clauses that are none of an insert is the innermost open one, and is none of an
insert. -/
theorem getLast?_of_rel (outer : List Clause) {rel : List Clause} {c : Clause}
    (hrel : ∀ c ∈ rel, c.isInsertion = false) (hc : rel.getLast? = some c) :
    (outer ++ rel).getLast? = some c ∧ c.isInsertion = false := by
  refine ⟨?_, hrel c (List.mem_of_getLast? hc)⟩
  rw [List.getLast?_append, hc]
  rfl

/-- A deed that needs a clause inside of the outer ones names its place. -/
theorem Deed.Below.names {outer path started : List Clause} {deed : Deed}
    (h : deed.Below outer none path) : deed.Names path started := by
  obtain ⟨rel, rfl, hrel, hat⟩ := h
  rw [Option.or_none] at hat
  cases deed with
  | bind | literal =>
    obtain ⟨c, hc⟩ := Option.isSome_iff_exists.1 hat
    obtain ⟨hlast, hnone⟩ := getLast?_of_rel outer hrel hc
    exact ⟨c, hlast, fun h => by rw [h] at hnone; cases hnone⟩
  | fail e =>
    obtain ⟨c, hclause⟩ := RenderError.exists_clause hat.isCheck
    rcases hat.clause with heq | ⟨-, hinsert⟩
    · rw [hclause] at heq
      obtain ⟨hlast, hnone⟩ := getLast?_of_rel outer hrel heq.symm
      refine ⟨c, hclause, ?_⟩
      rw [if_neg fun h => by rw [h] at hnone; cases hnone]
      exact hlast
    · cases hrel _ (List.mem_of_getLast? hinsert)
  | _ => trivial

/-! ## Inserts -/

/-- A clause of a statement, around what stands apart from inserts wherever it stands. -/
def Action.IsSlot (a : Action) : Prop :=
  ∃ c body, a = .within c body ∧ Script.ChecksAt none body ∧ Script.Apart none body

/-- The deeds of a slot name their places. -/
theorem Action.IsSlot.names {a : Action} {m : Modes} {path started : List Clause} (h : a.IsSlot)
    (hstraight : a.Straight) : Along Deed.Names path started (a.moves m) := by
  obtain ⟨c, body, rfl, hchecks, hapart⟩ := h
  refine ⟨.inl rfl, along_append.2 ⟨?_, .inl rfl, trivial⟩⟩
  exact (Script.Straight.below _ _ hstraight hchecks hapart).imp fun _ _ _ hbelow => hbelow.names

theorem Script.names_slots {m : Modes} {path started : List Clause} : ∀ {as : Script},
    (∀ a ∈ as, a.IsSlot) → Script.Straight as →
      Along Deed.Names path started (Script.moves m as)
  | [], _, _ => trivial
  | a :: as, h, hstraight => by
    obtain ⟨ha, has⟩ := List.forall_mem_cons.1 h
    refine along_append.2 ⟨ha.names hstraight.1, ?_⟩
    rw [hstraight.1.bracketed.walkAll_eq]
    exact Script.names_slots has hstraight.2

/-- A check that names the slot of the values. -/
def Action.IsRowCheck (a : Action) : Prop := ∃ e, a = .fail e ∧ e.clause = some .insertValues

/-- Checks of the slot of the values are the checks in this slot that stand in no other clause. -/
theorem Script.isRowCheck {as : Script} (hfail : ∀ a ∈ as, ∃ e, a = .fail e)
    (hchecks : Script.ChecksAt (some .insertValues) as) : ∀ a ∈ as, a.IsRowCheck := by
  intro a ha
  obtain ⟨e, rfl⟩ := hfail a ha
  have hraised : e.RaisedIn (some .insertValues) := (Script.checksAt_iff as).1 hchecks _ ha
  exact ⟨e, rfl, hraised.clause.elim id And.left⟩

/-- Checks of the slot of the values name their place directly inside of the insert, as long as no
source has been started. -/
theorem Script.names_rowChecks {m : Modes} {started : List Clause}
    (hvalues : .insertValues ∉ started) (hselect : .insertSelect ∉ started) : ∀ {as : Script},
    (∀ a ∈ as, a.IsRowCheck) → Along Deed.Names [.insert] started (Script.moves m as)
  | [], _ => trivial
  | a :: as, h => by
    obtain ⟨⟨e, rfl, hclause⟩, has⟩ := List.forall_mem_cons.1 h
    refine ⟨.inr ⟨.insertValues, hclause, ?_⟩, ?_⟩
    · rw [if_pos rfl]
      exact ⟨rfl, hvalues, hselect⟩
    · have hrest := Script.names_rowChecks (m := m) hvalues hselect has
      rwa [← List.append_nil started] at hrest

/-- Checks of the slot of the values, followed by slots. -/
def Script.IsSource (as : Script) : Prop :=
  ∃ checks slots, as = checks ++ slots ∧ (∀ a ∈ checks, a.IsRowCheck) ∧ ∀ a ∈ slots, a.IsSlot

namespace Script.IsSource

theorem of_checks {checks : Script} (h : ∀ a ∈ checks, a.IsRowCheck) : Script.IsSource checks :=
  ⟨checks, [], (List.append_nil checks).symm, h, List.forall_mem_nil _⟩

theorem of_slot {c : Clause} {body : Script} (hchecks : Script.ChecksAt none body)
    (hapart : Script.Apart none body) : Script.IsSource [.within c body] := by
  refine ⟨[], [.within c body], rfl, List.forall_mem_nil _, fun a ha => ?_⟩
  exact ⟨c, body, List.mem_singleton.1 ha, hchecks, hapart⟩

theorem behind {checks as : Script} (hchecks : ∀ a ∈ checks, a.IsRowCheck)
    (h : Script.IsSource as) : Script.IsSource (checks ++ as) := by
  obtain ⟨checks', slots, rfl, hchecks', hslots⟩ := h
  refine ⟨checks ++ checks', slots, (List.append_assoc _ _ _).symm, fun a ha => ?_, hslots⟩
  exact (List.mem_append.1 ha).elim (hchecks a) (hchecks' a)

end Script.IsSource

section

variable (d : Dialect) {m : Modes}

theorem Script.isRowCheck_failEmpty : ∀ a ∈ Script.failEmpty d .insertValues, a.IsRowCheck :=
  Script.isRowCheck (isFail_failEmpty d _) (checksAt_failEmpty d (.inl rfl))

theorem Insert.isSource_layoutDefaults (columns : List Field) :
    Script.IsSource (Insert.layoutDefaults d columns) := by
  have hrequire := Script.isRowCheck (isFail_require d .defaultValues .insertValues)
    (checksAt_require d (.inl rfl) _)
  unfold Insert.layoutDefaults
  split
  · exact .behind hrequire (.of_slot ⟨trivial, trivial⟩ ⟨trivial, trivial⟩)
  · exact .of_checks (Script.isRowCheck_failEmpty d)

theorem Insert.isSource_layoutRows (columns : List Field) (rows : List Row) :
    Script.IsSource (Insert.layoutRows d columns rows) := by
  have hdegrees : ∀ a ∈ rows.flatMap (fun r => Script.checkDegree d .insertValues
      (Insert.degree columns rows) r.length), a.IsRowCheck :=
    Script.isRowCheck (isFail_checks d _ _ _ rows)
      (checksAt_flatMap fun _ => checksAt_checkDegree d (.inl rfl) _ _)
  have hrows : Script.ChecksAt none (Script.listed (rows.map (Row.visit d))) ∧
      Script.Apart none (Script.listed (rows.map (Row.visit d))) :=
    ⟨checksAt_listed (checksAt_map fun r => Row.checksAt_visit d none r),
      apart_listed (apart_map fun r => Row.apart_visit d none r)⟩
  refine Script.IsSource.behind hdegrees ?_
  split
  · exact Insert.isSource_layoutDefaults d columns
  · split
    · exact .of_checks (Script.isRowCheck_failEmpty d)
    · split
      · exact .of_slot ⟨trivial, Query.checksAt_visit d _ _, trivial⟩
          ⟨trivial, Query.apart_visit d _ _, trivial⟩
      · exact .of_slot ⟨trivial, hrows.1⟩ ⟨trivial, hrows.2⟩

theorem InsertSource.isSource_layout (columns : List Field) (source : InsertSource) :
    Script.IsSource (source.layout d columns) := by
  cases source with
  | values rows => exact Insert.isSource_layoutRows d columns rows
  | query q =>
    exact .of_slot ⟨trivial, q.checksAt_visit d _, trivial⟩ ⟨trivial, q.apart_visit d _, trivial⟩

/-- What may fail in an insert names its place. Before its source it has only opened the slot of the
table and the columns, which stands apart. -/
theorem Insert.places_visit (i : Insert) : Along Deed.Names [] [] ((i.visit d).moves m) := by
  obtain ⟨checks, slots, hsource, hchecks, hslots⟩ := i.source.isSource_layout d i.columns
  let into : Action := .within .insertInsertInto (Insert.layoutTarget d i.into i.columns)
  let behind : Script :=
    [.within .insertOnDuplicateKeyUpdate (Insert.layoutOnDuplicate d i.onDuplicateKeyUpdate),
     .within .insertReturning (layoutReturning d i.returning)]
  have hbody : i.body d = [into] ++ (checks ++ (slots ++ behind)) := by
    simp [Insert.body, hsource, into, behind]
  have hstraight : Script.Straight [into] ∧ Script.Straight checks ∧ Script.Straight slots ∧
      Script.Straight behind := by
    have h := Insert.straight_body d i
    rwa [hbody, straight_append, straight_append, straight_append] at h
  have hinto : into.IsSlot :=
    ⟨_, _, rfl, Insert.checksAt_layoutTarget d none _ _, Insert.apart_layoutTarget d none _ _⟩
  have hapart : Script.Apart none [into] := ⟨⟨rfl, Insert.apart_layoutTarget d _ _ _⟩, trivial⟩
  have hbehind : ∀ a ∈ slots ++ behind, a.IsSlot := by
    intro a ha
    rcases List.mem_append.1 ha with ha | ha
    · exact hslots a ha
    · rcases List.mem_pair.1 ha with rfl | rfl
      · exact ⟨_, _, rfl, Insert.checksAt_layoutOnDuplicate d none _,
          Insert.apart_layoutOnDuplicate d none _⟩
      · exact ⟨_, _, rfl, checksAt_layoutReturning d none _, apart_layoutReturning d none _⟩
  rw [Insert.visit, Part.moves_visit, hbody]
  refine along_append.2 ⟨along_of_stroke_none fun mv hmv => (Part.opening_silent m _ mv hmv).1,
    along_append.2 ⟨?_, along_of_stroke_none fun mv hmv => (Part.closing_silent m _ mv hmv).1⟩⟩
  rw [Script.moves_append, Script.moves_append]
  refine along_append.2 ⟨Script.names_slots (by simpa using hinto) hstraight.1,
    along_append.2 ⟨?_, Script.names_slots hbehind (straight_append.2 hstraight.2.2)⟩⟩
  rw [hstraight.1.bracketed.walkAll_eq]
  exact Script.names_rowChecks (hapart.not_mem_started rfl (by decide))
    (hapart.not_mem_started rfl (by decide)) hchecks

/-- **What may fail in a node names its place.** -/
theorem Part.places_visit {p : Part} (hp : p.isNode = true) :
    Along Deed.Names [] [] ((p.visit d).moves m) := by
  have hstraight := Part.straight_visit d p (Part.propagates_of_isNode hp)
  rcases Part.apart_visit d none hp with ⟨i, hi⟩ | hapart
  · rw [hi]
    exact i.places_visit d
  · exact (hstraight.below [] [] (Part.checksAt_visit d none hp) hapart).imp
      fun _ _ _ hbelow => hbelow.names

end

/-! ## Where a run fails -/

open Run

namespace Configuration

variable (cfg : Configuration)

/-- An occurrence that fails names the innermost open clause. -/
theorem clause_of_place_error {o : Occurrence} {st st' : State} {e : RenderError}
    (h : cfg.place o st = .error e st') : e.clause = st.path.getLast? := by
  rw [place_eq] at h
  cases hconflict : st.conflict? o.param with
  | some name =>
    rw [hconflict] at h
    cases h
    rfl
  | none =>
    rw [hconflict] at h
    dsimp only at h
    split at h
    · obtain ⟨x, -, -, rfl⟩ := cfg.literal_error h
      rfl
    · -- a placeholder can always be written
      unfold placeholder at h
      rw [get_bind_apply] at h
      cases hslot : st.slotOf? o.param <;>
        cases hcaps : cfg.settings.capabilities.numberedPlaceholders <;>
          rw [hslot, hcaps] at h <;> cases h

end Configuration

namespace Move

variable {cfg : Configuration} {st st' : State} {e : RenderError} {mv : Move} {mvs : List Move}

/-- A move that names its place raises an error that does. -/
theorem names_of_error {started : List Clause} (hstroke : mv.stroke? ≠ none)
    (hnames : mv.deed.Names st.path started) (h : mv.perform cfg st = .error e st') :
    e.Names st.path started := by
  obtain ⟨m, deed⟩ := mv
  obtain ⟨st₁, h⟩ := under_error h
  have hinnermost : ∀ c, st.path.getLast? = some c → c ≠ .insertValues →
      e.clause = st.path.getLast? → e.Names st.path started := by
    intro c hc hne hclause
    exact ⟨c, hclause.trans hc, by rwa [if_neg hne]⟩
  cases deed with
  | enter | leave | start | close | attempt | note => exact absurd rfl hstroke
  | text | keyword | ident => cases h
  | fail e' =>
    cases h
    exact hnames
  | bind p =>
    obtain ⟨c, hc, hne⟩ := hnames
    have hplace : cfg.place (p.occurrence m) { st with modes := m } = .error e st₁ := h
    exact hinnermost c hc hne (cfg.clause_of_place_error hplace :)
  | literal v type =>
    obtain ⟨c, hc, hne⟩ := hnames
    obtain ⟨x, -, -, rfl⟩ := cfg.literal_error h
    exact hinnermost c hc hne rfl

/-- Moves that fail do so at one move, behind moves that end well. -/
theorem exists_cut_of_error (h : performAll cfg mvs st = .error e st') :
    ∃ before mv after st₁, mvs = before ++ mv :: after ∧
      performAll cfg before st = .ok () st₁ ∧ mv.perform cfg st₁ = .error e st' := by
  induction mvs generalizing st with
  | nil => cases h
  | cons mv mvs ih =>
    rw [performAll_cons] at h
    simp only [Bind.bind, EStateM.bind] at h
    cases hmv : mv.perform cfg st with
    | error e' st₁ =>
      rw [hmv] at h
      cases h
      exact ⟨[], mv, mvs, st, rfl, rfl, hmv⟩
    | ok a st₁ =>
      rw [hmv] at h
      obtain ⟨before, mv', after, st₂, rfl, hbefore, hfail⟩ := ih h
      exact ⟨mv :: before, mv', after, st₂, rfl, (performAll_cons_eq_ok cfg).2 ⟨st₁, hmv, hbefore⟩,
        hfail⟩

/-- A move without an event fails with the events that there were. -/
theorem events_of_error (hstroke : mv.stroke? ≠ none) (h : mv.perform cfg st = .error e st') :
    st'.events = st.events := by
  have hsilent : mv.deed.isSilent = true := by
    obtain ⟨m, deed⟩ := mv
    cases deed <;> first | rfl | exact absurd rfl hstroke
  have hkeeps : Keeps (fun st => (st.notices, st.path, st.orderly)) (mv.perform cfg) :=
    keeps_of_silent hsilent
  have hkept := hkeeps st
  rw [final, h] at hkept
  exact congrArg (fun kept => kept.1.map Notice.event) hkept

end Move

/-! ## Renders -/

namespace Configuration

variable {cfg : Configuration} {part : Part} {modes : Modes} {past : List Notice} {e : RenderError}

/-- Where nobody refuses an event, all listeners have heard the events that happened. -/
theorem heard_of_not_refusal (hpart : part.propagates = true)
    (h : (cfg.render part modes past).result = .error e) (he : e.isRefusal = false) {place : Nat}
    (hplace : place < cfg.listeners.length) :
    heard (cfg.render part modes past).notices place =
      (cfg.render part modes past).notices.map Notice.event := by
  rcases run_heeds hpart with ⟨-, hrun⟩ | ⟨_, _, _, -, _, _, -, hrun, -⟩
  · rw [render_of_retell hrun]
    have hevents := cfg.heard_announce [] (cfg.unobserved.render part modes []).notices hplace
    simpa [announce, toldToAll, heard, calls, Function.comp_def] using hevents
  · rw [cfg.render_error_iff_run.2 ⟨_, hrun⟩] at h
    cases h
    cases he

/-- **Errors name the place that is open.** Let a node fail to render, and not because a listener
refused an event. All listeners have heard the same events by then. The error names a clause, and
among the clauses that have been started and not ended in these events that is the innermost one.
Only an error that names `INSERT_VALUES` stands elsewhere: there the insert is open and nothing
inside of it, and neither form of its source has been started. -/
theorem error_stands_open (hpart : part.isNode = true)
    (h : (cfg.render part modes past).result = .error e) (he : e.isRefusal = false) :
    let report := cfg.render part modes past
    let log := report.notices.map Notice.event
    (∀ place, place < cfg.listeners.length → heard report.notices place = log) ∧
      ∃ c, e.clause = some c ∧
        if c = .insertValues then
          openClauses log = [.insert] ∧ .insertValues ∉ startedClauses log ∧
            .insertSelect ∉ startedClauses log
        else (openClauses log).getLast? = some c := by
  intro report log
  have hpropagates := Part.propagates_of_isNode hpart
  refine ⟨fun place hplace => heard_of_not_refusal hpropagates h he hplace, ?_⟩
  obtain ⟨st, hrun⟩ := cfg.render_error_iff_run.1 h
  have hattempt : ∀ mv ∈ (part.visit cfg.settings.dialect).moves modes,
      mv.deed.isAttempt = false :=
    (Part.straight_visit _ part hpropagates).isAttempt_eq_false
  have hmoves := hrun
  rw [run_eq_moves] at hmoves
  obtain ⟨before, mv, after, st₁, hcut, hbefore, hfail⟩ := exists_cut_of_error hmoves
  have hmv : mv ∈ (part.visit cfg.settings.dialect).moves modes := by rw [hcut]; simp
  -- the move that fails writes something, as no event was refused
  have hstroke : mv.stroke? ≠ none := by
    intro hnone
    rw [(refusal_of_stroke_none hnone (hattempt mv hmv) hfail).1] at he
    cases he
  obtain ⟨hevents, hpath⟩ := events_of_performAll_ok
    (fun mv' hmv' => hattempt mv' (by rw [hcut]; simp [hmv'])) hbefore
  have hlog : log = events cfg.settings.dialect [] before := by
    refine cfg.events_of_final ?_
    unfold run at hrun
    rw [final, hrun]
    exact (events_of_error hstroke hfail).trans hevents
  have hplaces := Part.places_visit (m := modes) cfg.settings.dialect hpart
  rw [hcut] at hplaces
  have hnames := hplaces.at_cut.resolve_left hstroke
  rw [hlog, startedClauses_events, openClauses, track_events]
  have hwalk : walkAll [] before = st₁.path := hpath.symm
  rw [hwalk] at hnames ⊢
  exact names_of_error hstroke hnames hfail

/-- A row of two values for one column is reported at `INSERT_VALUES`, which is not open and never
was; a comparison in a subquery of a condition is reported where it stands. -/
theorem error_stands_open_insert :
    let cfg : Configuration := { settings := { dialect := .postgres }, listeners := [.silent] }
    let row : Row := [.val (1 : Int64), .val (2 : Int64)]
    let insert : Part :=
      .insert { into := .named none "t", columns := [.named "a"], source := .values [row] }
    let inner : Select := { filter := some ((Field.named "a").compare .eq (.row [])) }
    let delete : Part :=
      .delete { table := .named none "t", filter := some (.exists (.select inner) false) }
    let log := fun part => (cfg.render part {} []).notices.map Notice.event
    (cfg.render insert {} []).result =
        .error (.degreeMismatch .insertValues .postgres 1 2) ∧
      openClauses (log insert) = [.insert] ∧ .insertValues ∉ startedClauses (log insert) ∧
      heard (cfg.render insert {} []).notices 0 = log insert ∧
      (cfg.render delete {} []).result =
        .error (.degreeMismatch .conditionComparison .postgres 1 0) ∧
      (openClauses (log delete)).getLast? = some .conditionComparison := by
  intro cfg row insert inner delete log
  have hinsert : (cfg.render insert {} []).result =
      .error (.degreeMismatch .insertValues .postgres 1 2) :=
    Report.result_eq_error (by decide +kernel)
  have hdelete : (cfg.render delete {} []).result =
      .error (.degreeMismatch .conditionComparison .postgres 1 0) :=
    Report.result_eq_error (by decide +kernel)
  obtain ⟨hheard, c, hc, hvalues⟩ := error_stands_open rfl hinsert rfl
  obtain ⟨-, c', hc', hcomparison⟩ := error_stands_open rfl hdelete rfl
  cases hc
  cases hc'
  exact ⟨hinsert, hvalues.1, hvalues.2.1, hheard 0 (by decide), hdelete, hcomparison⟩

end Configuration

end SqlRender
