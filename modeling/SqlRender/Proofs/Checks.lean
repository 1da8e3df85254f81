import SqlRender.Proofs.Draft

/-!
# Where checks stand

Nodes raise errors of their own by three checks: that the dialect has a form for a feature, that two
degrees are equal, and that a list is not empty. Each names a clause, and it is the innermost clause
that is open where the check stands. There is one exception: the rows of an insert are checked for
`INSERT_VALUES` before it is settled whether that slot is opened at all.

`Part.checksAt_visit` says so of all nodes. The errors that depend on what was written before, a
name with two values and a number without a literal, are therefore never raised by a layout.
-/

namespace SqlRender

namespace RenderError

/-- Whether an error is that of a check, which needs no state to be raised. -/
def isCheck : RenderError → Bool
  | unsupported .. | degreeMismatch .. | emptyClause .. => true
  | _ => false

/-- An error of a check that may stand where this clause is the innermost open one. -/
structure RaisedIn (inner : Option Clause) (e : RenderError) : Prop where
  isCheck : e.isCheck = true
  clause : e.clause = inner ∨ e.clause = some .insertValues ∧ inner = some .insert

end RenderError

mutual

/-- Every check of an action names the clause that is the innermost open one, if this is the
innermost one where the action stands. -/
def Action.ChecksAt (inner : Option Clause) : Action → Prop
  | .visit part body => ∀ m, Script.ChecksAt ((part.tags m).getLast?.or inner) body
  | .within c body => Script.ChecksAt (some c) body
  | .switch _ _ body | .assume _ body | .whenOn _ body => Script.ChecksAt inner body
  | .attempt _ body => Script.ChecksAt inner body
  | .fail e => e.RaisedIn inner
  | _ => True

/-- Every check of a script names the clause that is the innermost open one. -/
def Script.ChecksAt (inner : Option Clause) : List Action → Prop
  | [] => True
  | a :: as => a.ChecksAt inner ∧ Script.ChecksAt inner as

end

/-! ## Scripts -/

namespace Script

variable {inner : Option Clause}

@[simp] theorem checksAt_nil : Script.ChecksAt inner [] := trivial

@[simp] theorem checksAt_cons {a : Action} {as : Script} :
    Script.ChecksAt inner (a :: as) ↔ a.ChecksAt inner ∧ Script.ChecksAt inner as := Iff.rfl

theorem checksAt_iff (as : Script) : Script.ChecksAt inner as ↔ ∀ a ∈ as, a.ChecksAt inner := by
  induction as with
  | nil => simp
  | cons a as ih => simp [ih]

@[simp] theorem checksAt_append {as bs : Script} :
    Script.ChecksAt inner (as ++ bs) ↔ Script.ChecksAt inner as ∧ Script.ChecksAt inner bs := by
  simp only [checksAt_iff, List.mem_append, or_imp, forall_and]

theorem checksAt_map {α : Type} {f : α → Action} {as : List α}
    (h : ∀ a, (f a).ChecksAt inner) : Script.ChecksAt inner (as.map f) := by
  simp [checksAt_iff, h]

theorem checksAt_flatMap {α : Type} {f : α → Script} {as : List α}
    (h : ∀ a, Script.ChecksAt inner (f a)) : Script.ChecksAt inner (as.flatMap f) := by
  rw [checksAt_iff]
  intro b hb
  obtain ⟨a, -, hab⟩ := List.mem_flatMap.1 hb
  exact (checksAt_iff _).1 (h a) b hab

theorem checksAt_intersperse {a : Action} (ha : a.ChecksAt inner) :
    ∀ {as : Script}, Script.ChecksAt inner as → Script.ChecksAt inner (as.intersperse a)
  | [], _ => trivial
  | [_], h => h
  | b :: c :: as, h => by
    rw [List.intersperse_cons_cons]
    exact ⟨h.1, ha, checksAt_intersperse ha h.2⟩

theorem checksAt_separated {separator : String} {as : Script} (h : Script.ChecksAt inner as) :
    Script.ChecksAt inner (Script.separated separator as) :=
  checksAt_intersperse (a := .keyword separator) trivial h

theorem checksAt_listed {as : Script} (h : Script.ChecksAt inner as) :
    Script.ChecksAt inner (Script.listed as) :=
  checksAt_separated h

theorem checksAt_ifAny (word : String) {items : Script} (h : Script.ChecksAt inner items) :
    Script.ChecksAt inner (Script.ifAny word items) := by
  unfold Script.ifAny
  split
  · trivial
  · exact ⟨trivial, checksAt_listed h⟩

/-! ### The checks -/

section

variable (d : Dialect) {c : Clause}
  (hc : inner = some c ∨ inner = some .insert ∧ c = .insertValues)

include hc

theorem raisedIn_of_clause {e : RenderError} (he : e.isCheck = true)
    (heq : e.clause = some c) : e.RaisedIn inner := by
  refine ⟨he, ?_⟩
  rcases hc with rfl | ⟨rfl, rfl⟩
  · exact .inl heq
  · exact .inr ⟨heq, rfl⟩

theorem checksAt_require (f : Feature) : Script.ChecksAt inner (Script.require d f c) := by
  unfold Script.require
  split
  · exact ⟨raisedIn_of_clause hc rfl rfl, trivial⟩
  · trivial

theorem checksAt_checkDegree (expected found : Nat) :
    Script.ChecksAt inner (Script.checkDegree d c expected found) := by
  unfold Script.checkDegree
  split
  · trivial
  · exact ⟨raisedIn_of_clause hc rfl rfl, trivial⟩

theorem checksAt_failEmpty : Script.ChecksAt inner (Script.failEmpty d c) :=
  ⟨raisedIn_of_clause hc rfl rfl, trivial⟩

end

end Script

open Script

variable (d : Dialect)

/-! ## Fields and tables -/

mutual

theorem Field.checksAt_body (m : Modes) : ∀ (f : Field) (inner : Option Clause),
    Script.ChecksAt ((f.asPart.tags m).getLast?.or inner) (f.body d)
  | .column c, _ => by
    simp only [Field.body, Column.body]
    cases c.qualifier <;> simp [Action.ChecksAt]
  | .value _, _ => ⟨trivial, trivial⟩
  | .aliased f _, _ => ⟨⟨fun m' => Field.checksAt_body m' f _, trivial, trivial⟩, trivial, trivial⟩
  | .row fields, _ => by
    have ih := Field.checksAt_visits (some .fieldRow) fields
    simp only [Field.body, Row.layout]
    split
    · exact checksAt_failEmpty d (.inl rfl)
    · exact ⟨trivial, checksAt_append.2 ⟨checksAt_listed ih, trivial, trivial⟩⟩

theorem Field.checksAt_visits (inner : Option Clause) :
    ∀ fs : List Field, Script.ChecksAt inner (Field.visits d fs)
  | [] => trivial
  | f :: fs => ⟨fun m => Field.checksAt_body m f inner, Field.checksAt_visits inner fs⟩

end

section

variable (inner : Option Clause)

theorem Field.checksAt_visit (f : Field) : (f.visit d).ChecksAt inner :=
  fun m => f.checksAt_body d m inner

theorem Field.checksAt_listed (fs : List Field) :
    Script.ChecksAt inner (Script.listed (fs.map (Field.visit d))) :=
  Script.checksAt_listed (checksAt_map fun f => f.checksAt_visit d inner)

theorem Row.checksAt_visit (r : Row) : (Row.visit d r).ChecksAt inner :=
  Field.checksAt_visit d inner (.row r)

theorem Script.checksAt_identList (names : List String) :
    Script.ChecksAt inner (identList names) := by
  have hnames : Script.ChecksAt inner ((names.map Action.ident).intersperse (.text ", ")) :=
    checksAt_intersperse (a := .text ", ") trivial (checksAt_map fun _ => trivial)
  simpa [identList, Action.ChecksAt] using hnames

end

theorem Table.checksAt_body (m : Modes) (t : Table) (inner : Option Clause) :
    Script.ChecksAt (((Part.table t).tags m).getLast?.or inner) (t.body d) := by
  induction t generalizing m inner with
  | named schema name => cases schema <;> simp [Table.body, Action.ChecksAt]
  | aliased t name columns ih =>
    have hnames := fun inner => checksAt_identList inner columns
    simp only [Table.body]
    split <;> split <;> simp [Action.ChecksAt, ih, hnames]
  | values rows =>
    show Script.ChecksAt (some .tableValues) (Table.body d (.values rows))
    refine checksAt_append.2 ⟨checksAt_require d (.inl rfl) _, ?_⟩
    cases rows with
    | nil => exact checksAt_failEmpty d (.inl rfl)
    | cons first rest =>
      have hchecks : Script.ChecksAt (some .tableValues) ((first :: rest).flatMap fun r =>
          Script.checkDegree d .tableValues first.length r.length) :=
        checksAt_flatMap fun _ => checksAt_checkDegree d (.inl rfl) _ _
      have hrows : Script.ChecksAt (some .tableValues)
          (Script.listed ((first :: rest).map (Row.visit d))) :=
        Script.checksAt_listed (checksAt_map fun r => Row.checksAt_visit d _ r)
      simp only [checksAt_append]
      exact ⟨⟨⟨hchecks, trivial, trivial, trivial⟩, hrows⟩, trivial, trivial⟩
  | dual => exact ⟨trivial, trivial⟩

theorem Table.checksAt_visit (inner : Option Clause) (t : Table) : (t.visit d).ChecksAt inner :=
  fun m => t.checksAt_body d m inner

/-! ## Conditions and queries -/

section

variable (inner : Option Clause)

theorem Connective.checksAt_layout (op : Connective) {operands : Script}
    (h : Script.ChecksAt inner operands) : Script.ChecksAt inner (op.layout operands) := by
  unfold Connective.layout
  split
  · exact ⟨trivial, trivial⟩
  · exact h
  · exact checksAt_append.2 ⟨⟨trivial, checksAt_separated h⟩, trivial, trivial⟩

theorem Condition.checksAt_layoutIn (f : Field) (values : List Field) (negated : Bool) :
    Script.ChecksAt (some (Condition.isIn f values negated).clause)
      (Condition.layoutIn d f values negated) := by
  unfold Condition.layoutIn
  dsimp only
  split
  · exact ⟨trivial, trivial⟩
  · have hchecks : Script.ChecksAt (some (Condition.isIn f values negated).clause)
        (values.flatMap fun v => Script.checkDegree d (Condition.isIn f values negated).clause
          f.degree v.degree) :=
      checksAt_flatMap fun _ => checksAt_checkDegree d (.inl rfl) _ _
    exact checksAt_append.2 ⟨hchecks, f.checksAt_visit d _, trivial,
      Field.checksAt_listed d _ values, trivial, trivial⟩

theorem Condition.checksAt_layoutBetween (clause : Clause) (f low high : Field)
    (negated symmetric : Bool) :
    Script.ChecksAt (some clause)
      (Condition.layoutBetween d clause f low high negated symmetric) := by
  have hdegree : ∀ n, Script.ChecksAt (some clause) (Script.checkDegree d clause f.degree n) :=
    fun _ => checksAt_checkDegree d (.inl rfl) _ _
  have hrequire := fun feature => checksAt_require (c := clause) d (.inl rfl) feature
  cases negated <;> cases symmetric <;>
    simp [Condition.layoutBetween, Action.ChecksAt, Field.checksAt_visit, hdegree, hrequire]

theorem Select.checksAt_layoutFields (distinct : Bool) (fields : List Field) :
    Script.ChecksAt inner (Select.layoutFields d distinct fields) := by
  refine checksAt_append.2 ⟨⟨trivial, trivial⟩, ?_⟩
  split
  · exact ⟨trivial, trivial⟩
  · exact ⟨Field.checksAt_listed d inner fields, trivial⟩

theorem Select.checksAt_layoutTables (tables : List Table) :
    Script.ChecksAt inner (Select.layoutTables d tables) := by
  have htables : Script.ChecksAt inner (Script.listed (tables.map (Table.visit d))) :=
    Script.checksAt_listed (checksAt_map fun t => t.checksAt_visit d inner)
  unfold Select.layoutTables
  split
  · split
    · exact ⟨trivial, Table.checksAt_visit d inner .dual, trivial⟩
    · trivial
  · exact ⟨trivial, htables, trivial⟩

theorem SortField.checksAt_visit (s : SortField) : (s.visit d).ChecksAt inner :=
  fun _ => ⟨s.field.checksAt_visit d _, trivial, trivial⟩

theorem Script.checksAt_hierarchical (clause : Clause) {condition : Script}
    (h : Script.ChecksAt (some clause) condition) :
    Script.ChecksAt (some clause) (Script.hierarchical d clause condition) := by
  refine checksAt_append.2 ⟨?_, h⟩
  split
  · trivial
  · exact checksAt_require d (.inl rfl) _

end

mutual

theorem Condition.checksAt_body : ∀ c : Condition, Script.ChecksAt (some c.clause) (c.body d)
  | .comparison left op right => by
    rw [Condition.body]
    exact checksAt_append.2 ⟨checksAt_checkDegree d (.inl rfl) _ _,
      ⟨left.checksAt_visit d _, trivial⟩, trivial, trivial, trivial,
      ⟨right.checksAt_visit d _, trivial⟩, trivial⟩
  | .not c => ⟨trivial, fun _ => Condition.checksAt_body c, trivial, trivial⟩
  | .combined op conditions => by
    rw [Condition.body]
    exact op.checksAt_layout _ (Condition.checksAt_visits _ conditions)
  | .isNull f _ => ⟨f.checksAt_visit d _, trivial, trivial⟩
  | .isIn f values negated => by
    rw [Condition.body]
    exact Condition.checksAt_layoutIn d f values negated
  | .between f low high negated symmetric => by
    rw [Condition.body]
    exact Condition.checksAt_layoutBetween d _ f low high negated symmetric
  | .exists q negated => by
    rw [Condition.body]
    exact ⟨trivial, checksAt_append.2 ⟨Query.checksAt_visits _ q, trivial, trivial⟩⟩

theorem Condition.checksAt_visits (inner : Option Clause) :
    ∀ cs : List Condition, Script.ChecksAt inner (Condition.visits d cs)
  | [] => trivial
  | c :: cs => ⟨fun _ => Condition.checksAt_body c, Condition.checksAt_visits inner cs⟩

theorem Condition.checksAt_slot (inner : Option Clause) (word : String) :
    ∀ c : Option Condition, Script.ChecksAt inner (Condition.slot d word c)
  | none => trivial
  | some c => ⟨trivial, fun _ => Condition.checksAt_body c, trivial⟩

theorem Query.checksAt_visits (inner : Option Clause) :
    ∀ q : Query, Script.ChecksAt inner (q.visits d)
  | .select s => ⟨fun _ => Select.checksAt_body s, trivial⟩
  | .unionAll selects => by
    have ih := Select.checksAt_visits (some .selectUnionAll) selects
    refine ⟨fun _ => ?_, trivial⟩
    split
    · exact checksAt_failEmpty d (.inl rfl)
    · exact checksAt_separated ih

theorem Select.checksAt_body : ∀ s : Select, Script.ChecksAt (some .select) (s.body d)
  | { distinct, fields, tables, filter, startWith, connectBy, groupBy, having, orderBy } => by
    rw [Select.body]
    exact ⟨Select.checksAt_layoutFields d _ distinct fields,
      Select.checksAt_layoutTables d _ tables,
      Condition.checksAt_slot _ _ filter,
      Script.checksAt_hierarchical d _ (Condition.checksAt_slot _ _ startWith),
      Script.checksAt_hierarchical d _ (Condition.checksAt_slot _ _ connectBy),
      checksAt_ifAny _ (checksAt_map fun f => f.checksAt_visit d _),
      Condition.checksAt_slot _ _ having,
      checksAt_ifAny _ (checksAt_map fun s => s.checksAt_visit d _), trivial⟩

theorem Select.checksAt_visits (inner : Option Clause) :
    ∀ ss : List Select, Script.ChecksAt inner (Select.visits d ss)
  | [] => trivial
  | s :: ss => ⟨fun _ => Select.checksAt_body s, Select.checksAt_visits inner ss⟩

end

theorem Query.checksAt_visit (inner : Option Clause) (q : Query) :
    (q.visit d).ChecksAt inner := by
  have h := q.checksAt_visits d inner
  rw [Query.visits_eq] at h
  exact h.1

/-! ## Statements -/

theorem Assignment.checksAt_listed (inner : Option Clause) (clause : Clause)
    (as : List Assignment) : Script.ChecksAt inner (Assignment.listed d clause as) := by
  refine checksAt_intersperse (a := .text ", ") trivial (checksAt_map fun a => ?_)
  show Script.ChecksAt (some clause) (a.body d clause)
  have hvalue : Script.ChecksAt (some clause)
      [.switch .qualify false [a.target.visit d], .text " = ",
       .assume a.target.dataType [a.value.visit d]] :=
    ⟨⟨a.target.checksAt_visit d _, trivial⟩, trivial, ⟨a.value.checksAt_visit d _, trivial⟩,
      trivial⟩
  refine checksAt_append.2
    ⟨checksAt_append.2 ⟨checksAt_checkDegree d (.inl rfl) _ _, ?_⟩, hvalue⟩
  split
  · exact checksAt_require d (.inl rfl) _
  · trivial

theorem checksAt_layoutReturning (inner : Option Clause) (fields : List Field) :
    Script.ChecksAt inner (layoutReturning d fields) := by
  unfold layoutReturning
  split
  · trivial
  · split
    · exact ⟨trivial, Field.checksAt_listed d inner fields, trivial⟩
    · trivial

theorem Insert.checksAt_layoutTarget (inner : Option Clause) (into : Table)
    (columns : List Field) : Script.ChecksAt inner (Insert.layoutTarget d into columns) := by
  refine checksAt_append.2 ⟨⟨trivial, ⟨into.checksAt_visit d _, trivial⟩, trivial⟩, ?_⟩
  split
  · trivial
  · exact ⟨trivial, Field.checksAt_listed d inner columns, trivial, trivial⟩

/-- The rows of an insert are checked for a slot that is not open yet. -/
theorem Insert.checksAt_layoutRows (columns : List Field) (rows : List Row) :
    Script.ChecksAt (some .insert) (Insert.layoutRows d columns rows) := by
  have hearly : some Clause.insert = some Clause.insertValues ∨
      some Clause.insert = some Clause.insert ∧ Clause.insertValues = Clause.insertValues :=
    .inr ⟨rfl, rfl⟩
  refine checksAt_append.2 ⟨checksAt_flatMap fun _ => checksAt_checkDegree d hearly _ _, ?_⟩
  split
  · unfold Insert.layoutDefaults
    split
    · exact checksAt_append.2 ⟨checksAt_require d hearly _, ⟨trivial, trivial⟩, trivial⟩
    · exact checksAt_failEmpty d hearly
  · split
    · exact checksAt_failEmpty d hearly
    · split
      · exact ⟨⟨trivial, Query.checksAt_visit d _ _, trivial⟩, trivial⟩
      · exact ⟨⟨trivial, Script.checksAt_listed (checksAt_map fun r => Row.checksAt_visit d _ r)⟩,
          trivial⟩

theorem InsertSource.checksAt_layout (columns : List Field) (source : InsertSource) :
    Script.ChecksAt (some .insert) (source.layout d columns) := by
  cases source with
  | values rows => exact Insert.checksAt_layoutRows d columns rows
  | query q => exact ⟨⟨trivial, q.checksAt_visit d _, trivial⟩, trivial⟩

theorem Insert.checksAt_layoutOnDuplicate (inner : Option Clause) (as : List Assignment) :
    Script.ChecksAt inner (Insert.layoutOnDuplicate d as) := by
  unfold Insert.layoutOnDuplicate
  split
  · trivial
  · split
    · exact ⟨trivial, Assignment.checksAt_listed d inner _ as⟩
    · trivial

theorem Insert.checksAt_body (i : Insert) : Script.ChecksAt (some .insert) (i.body d) := by
  unfold Insert.body
  refine checksAt_append.2 ⟨checksAt_append.2 ⟨⟨?_, trivial⟩, ?_⟩, ?_, ?_, trivial⟩
  · exact Insert.checksAt_layoutTarget d _ i.into i.columns
  · exact i.source.checksAt_layout d i.columns
  · exact Insert.checksAt_layoutOnDuplicate d _ i.onDuplicateKeyUpdate
  · exact checksAt_layoutReturning d _ i.returning

theorem Update.checksAt_body (u : Update) : Script.ChecksAt (some .update) (u.body d) := by
  have hset : Script.ChecksAt (some .updateSet) (Update.layoutSet d u.assignments) := by
    unfold Update.layoutSet
    split
    · exact checksAt_failEmpty d (.inl rfl)
    · exact ⟨trivial, Assignment.checksAt_listed d _ _ u.assignments⟩
  exact ⟨⟨trivial, ⟨u.table.checksAt_visit d _, trivial⟩, trivial⟩, hset,
    Condition.checksAt_slot d _ _ u.filter, checksAt_layoutReturning d _ u.returning, trivial⟩

theorem Delete.checksAt_body (x : Delete) : Script.ChecksAt (some .delete) (x.body d) :=
  ⟨⟨trivial, ⟨x.table.checksAt_visit d _, trivial⟩, trivial⟩,
    Condition.checksAt_slot d _ _ x.filter, trivial⟩

theorem Statement.checksAt_visit (inner : Option Clause) (s : Statement) :
    (s.visit d).ChecksAt inner := by
  cases s with
  | query q => exact q.checksAt_visit d inner
  | insert i => exact fun _ => i.checksAt_body d
  | update u => exact fun _ => u.checksAt_body d
  | delete x => exact fun _ => x.checksAt_body d

/-- **The checks of a node name the clause that is the innermost open one.** -/
theorem Part.checksAt_visit (inner : Option Clause) {p : Part} (hp : p.isNode = true) :
    (p.visit d).ChecksAt inner := by
  cases p with
  | field f => exact f.checksAt_visit d inner
  | row r => exact Row.checksAt_visit d inner r
  | table t => exact t.checksAt_visit d inner
  | condition c => exact fun _ => c.checksAt_body d
  | sort s => exact s.checksAt_visit d inner
  | select s => exact fun _ => s.checksAt_body d
  | query q => exact q.checksAt_visit d inner
  | insert i => exact fun _ => i.checksAt_body d
  | update u => exact fun _ => u.checksAt_body d
  | delete x => exact fun _ => x.checksAt_body d
  | statement s => exact s.checksAt_visit d inner
  | forward _ | custom _ _ => cases hp

/-! ## Errors in drafts -/

mutual

theorem Action.ChecksAt.isCheck {m : Modes} : ∀ {a : Action} {inner : Option Clause},
    a.ChecksAt inner → ∀ {e : RenderError}, .error e ∈ a.draft m → e.isCheck = true
  | .text _, _, _, e, he | .keyword _, _, _, e, he | .ident _, _, _, e, he
  | .bind _, _, _, e, he | .literal _ _, _, _, e, he | .attempt _ _, _, _, e, he
  | .note _ _, _, _, e, he => by simp [Action.draft] at he
  | .visit _ _, _, h, _, he => Script.ChecksAt.isCheck (h m) he
  | .within _ _, _, h, _, he | .switch _ _ _, _, h, _, he | .assume _ _, _, h, _, he =>
    Script.ChecksAt.isCheck h he
  | .whenOn mode body, _, h, e, he => by
    rw [Action.draft] at he
    split at he
    · exact Script.ChecksAt.isCheck h he
    · cases he
  | .fail _, _, h, e, he => by
    simp only [Action.draft, List.mem_singleton, Except.error.injEq] at he
    rw [he]
    exact RenderError.RaisedIn.isCheck h

/-- The errors in the draft of a script are those of its checks. -/
theorem Script.ChecksAt.isCheck {m : Modes} : ∀ {as : List Action} {inner : Option Clause},
    Script.ChecksAt inner as → ∀ {e : RenderError}, .error e ∈ Script.draft m as →
      e.isCheck = true
  | [], _, _, e, he => by simp at he
  | a :: as, _, h, e, he => by
    rcases List.mem_append.1 he with he | he
    · exact Action.ChecksAt.isCheck h.1 he
    · exact Script.ChecksAt.isCheck h.2 he

end

end SqlRender
