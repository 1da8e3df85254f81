import SqlRender.Proofs.Subqueries

/-!
# Where names are mentioned

How a column or an alias is written depends on where it stands: in which slot of a statement, and
whether columns stand bare there. `Part.mentions` reads the columns and the aliases off the tree,
each with its place:

```text
UPDATE t AS x SET x.a = x.b AS y WHERE …

  table alias x    UPDATE_UPDATE          declared
  column x.a       UPDATE_SET_ASSIGNMENT  bare, as it is a target
  field alias y    UPDATE_SET_ASSIGNMENT  only named, so x.b is not mentioned
```

The renderer knows nothing of places. It switches modes on the way down, and a column or an alias
looks at one of them. `Part.names_visit` says that the two views agree: a visit enters the columns
and aliases of the tree, in order, each inside the slot of its place and with its mode on exactly if
its place says so.
-/

namespace SqlRender

/-! ## Slots -/

namespace Clause

/-- Whether a clause is a slot that a select or a statement opens around some of its text. The other
clauses are tags of parts. -/
def isSlot : Clause → Bool
  | selectSelect | selectFrom | selectWhere | selectStartWith | selectConnectBy | selectGroupBy
  | selectHaving | selectOrderBy | insertInsertInto | insertValues | insertSelect
  | insertOnDuplicateKeyUpdate | insertOnDuplicateKeyUpdateAssignment | insertReturning
  | updateUpdate | updateSet | updateSetAssignment | updateWhere | updateReturning
  | deleteDelete | deleteWhere => true
  | _ => false

/-- Whether a slot is a list of declared fields. -/
def declaresFields : Clause → Bool
  | selectSelect | insertReturning | updateReturning => true
  | _ => false

/-- Whether a slot holds the tables that a select or a statement declares. -/
def declaresTables : Clause → Bool
  | selectFrom | insertInsertInto | updateUpdate | deleteDelete => true
  | _ => false

end Clause

/-- The innermost slot of a path. -/
def nearestSlot (path : List Clause) : Option Clause := path.reverse.find? Clause.isSlot

theorem nearestSlot_append (path path' : List Clause) :
    nearestSlot (path ++ path') = (nearestSlot path').or (nearestSlot path) := by
  simp [nearestSlot, List.find?_append]

theorem nearestSlot_singleton (c : Clause) :
    nearestSlot [c] = if c.isSlot then some c else none := by
  cases hc : c.isSlot <;> simp [nearestSlot, hc]

theorem Condition.isSlot_clause : ∀ c : Condition, c.clause.isSlot = false
  | .comparison _ _ _ | .not _ => rfl
  | .combined op _ => by cases op <;> rfl
  | .isNull _ negated | .isIn _ _ negated | .exists _ negated => by cases negated <;> rfl
  | .between _ _ _ negated symmetric => by cases negated <;> cases symmetric <;> rfl

/-- The tags of nodes are no slots. -/
theorem Part.nearestSlot_tags (m : Modes) {p : Part} (hp : p.isNode = true) :
    nearestSlot (p.tags m) = none := by
  cases p with
  | forward | custom => cases hp
  | field f =>
    cases f with
    | aliased f name => cases hm : m.declareFields <;> simp [Part.tags, Field.tags, hm] <;> rfl
    | column | value | row => rfl
  | table t =>
    cases t with
    | aliased t name columns =>
      cases hm : m.declareTables <;> simp [Part.tags, Table.tags, hm] <;> rfl
    | named | values | dual => rfl
  | condition c =>
    have hcondition : Clause.condition.isSlot = false := rfl
    simp [nearestSlot, Part.tags, hcondition, c.isSlot_clause]
  | query q => cases q <;> rfl
  | row | sort | select | insert | update | delete | statement => rfl

/-! ## Mentions -/

/-- A column or an alias, and where it stands. A table alias stands where tables are declared. -/
inductive Mention where
  /-- A column; it stands bare in the column list of an insert and in the target of an
  assignment. -/
  | column (slot : Option Clause) (bare : Bool) (c : Column)
  | fieldAlias (slot : Option Clause) (f : Field) (name : String)
  | tableAlias (slot : Clause) (h : slot.declaresTables = true) (t : Table) (name : String)
      (columns : List String)

namespace Mention

/-- The column or the alias. -/
def part : Mention → Part
  | column _ _ c => .field (.column c)
  | fieldAlias _ f name => .field (.aliased f name)
  | tableAlias _ _ t name columns => .table (.aliased t name columns)

/-- The slot nearest to a mention. -/
def slot : Mention → Option Clause
  | column slot _ _ | fieldAlias slot _ _ => slot
  | tableAlias slot _ _ _ _ => some slot

/-- Whether a mention is to be written in full: a column with its qualifier, an alias with what it
stands for. -/
def inFull : Mention → Bool
  | column _ bare _ => !bare
  | fieldAlias slot _ _ => slot.any Clause.declaresFields
  | tableAlias _ _ _ _ _ => true

end Mention

mutual

/-- The mentions in a field. What an alias stands for is mentioned only where fields are
declared. -/
def Field.mentions (slot : Option Clause) (bare : Bool) : Field → List Mention
  | .column c => [.column slot bare c]
  | .value _ => []
  | .aliased f name =>
    .fieldAlias slot f name ::
      if slot.any Clause.declaresFields then f.mentions slot bare else []
  | .row fields => Field.mentionsIn slot bare fields

/-- The mentions in fields, in order. -/
def Field.mentionsIn (slot : Option Clause) (bare : Bool) : List Field → List Mention
  | [] => []
  | f :: fs => f.mentions slot bare ++ Field.mentionsIn slot bare fs

end

/-- The mentions in a table. -/
def Table.mentions (slot : Clause) (h : slot.declaresTables = true) : Table → List Mention
  | .named _ _ => []
  | .aliased t name columns => .tableAlias slot h t name columns :: t.mentions slot h
  | .values rows => rows.flatMap (Field.mentionsIn (some slot) false)
  | .dual => []

mutual

/-- The mentions in a condition. -/
def Condition.mentions (slot : Option Clause) : Condition → List Mention
  | .comparison left _ right => left.mentions slot false ++ right.mentions slot false
  | .not c => c.mentions slot
  | .combined _ conditions => Condition.mentionsIn slot conditions
  | .isNull f _ => f.mentions slot false
  | .isIn f values _ =>
    if values.isEmpty then []
    else f.mentions slot false ++ Field.mentionsIn slot false values
  | .between f low high _ _ =>
    f.mentions slot false ++ (low.mentions slot false ++ high.mentions slot false)
  | .exists q _ => q.mentions

/-- The mentions in conditions, in order. -/
def Condition.mentionsIn (slot : Option Clause) : List Condition → List Mention
  | [] => []
  | c :: cs => c.mentions slot ++ Condition.mentionsIn slot cs

/-- The mentions in a condition that has a slot of its own, if there is one. -/
def Condition.mentionsOf (slot : Clause) : Option Condition → List Mention
  | none => []
  | some c => c.mentions (some slot)

/-- The mentions in a query. -/
def Query.mentions : Query → List Mention
  | .select s => s.mentions
  | .unionAll selects => Select.mentionsIn selects

/-- The mentions in a select, slot by slot. -/
def Select.mentions : Select → List Mention
  | { distinct := _, fields, tables, filter, startWith, connectBy, groupBy, having, orderBy } =>
    Field.mentionsIn (some .selectSelect) false fields ++
    (tables.flatMap (Table.mentions .selectFrom rfl) ++
    (Condition.mentionsOf .selectWhere filter ++
    (Condition.mentionsOf .selectStartWith startWith ++
    (Condition.mentionsOf .selectConnectBy connectBy ++
    (Field.mentionsIn (some .selectGroupBy) false groupBy ++
    (Condition.mentionsOf .selectHaving having ++
    Field.mentionsIn (some .selectOrderBy) false (orderBy.map SortField.field)))))))

/-- The mentions in selects, in order. -/
def Select.mentionsIn : List Select → List Mention
  | [] => []
  | s :: ss => s.mentions ++ Select.mentionsIn ss

end

/-- The mentions in an assignment that has a slot of its own. -/
def Assignment.mentions (slot : Clause) (a : Assignment) : List Mention :=
  a.target.mentions (some slot) true ++ a.value.mentions (some slot) false

/-- The mentions in the source of an insert; many rows may be written as a union of selects. -/
def InsertSource.mentions (d : Dialect) (columns : List Field) : InsertSource → List Mention
  | .values rows =>
    if Insert.degree columns rows = 0 then []
    else if Insert.isEmulated d rows then (Insert.unionOf rows).mentions
    else rows.flatMap (Field.mentionsIn (some .insertValues) false)
  | .query q => q.mentions

/-- The mentions in answered fields, unless the dialect leaves them out. -/
def returningMentions (d : Dialect) (slot : Clause) (fields : List Field) : List Mention :=
  if d.resolve .returning = .native then Field.mentionsIn (some slot) false fields else []

/-- The mentions in a statement, slot by slot. -/
def Statement.mentions (d : Dialect) : Statement → List Mention
  | .query q => q.mentions
  | .insert i =>
    i.into.mentions .insertInsertInto rfl ++
    (Field.mentionsIn (some .insertInsertInto) true i.columns ++
    (i.source.mentions d i.columns ++
    ((if d.resolve .onDuplicateKeyUpdate = .native then
        i.onDuplicateKeyUpdate.flatMap
          (Assignment.mentions .insertOnDuplicateKeyUpdateAssignment) else []) ++
    returningMentions d .insertReturning i.returning)))
  | .update u =>
    u.table.mentions .updateUpdate rfl ++
    (u.assignments.flatMap (Assignment.mentions .updateSetAssignment) ++
    (Condition.mentionsOf .updateWhere u.filter ++
    returningMentions d .updateReturning u.returning))
  | .delete x =>
    x.table.mentions .deleteDelete rfl ++ Condition.mentionsOf .deleteWhere x.filter

/-- Whether a part is a statement, a query or a condition. -/
def Part.isClausal : Part → Bool
  | .condition _ | .select _ | .query _ | .insert _ | .update _ | .delete _ | .statement _ => true
  | _ => false

/-- The mentions in a statement, a query or a condition. -/
def Part.mentions (d : Dialect) : Part → List Mention
  | .condition c => c.mentions none
  | .select s => s.mentions
  | .query q => q.mentions
  | .insert i => Statement.mentions d (.insert i)
  | .update u => Statement.mentions d (.update u)
  | .delete x => Statement.mentions d (.delete x)
  | .statement s => s.mentions d
  | _ => []

/-! ## Names in scripts -/

/-- The mode that a column or an alias looks at. -/
def Part.mode? : Part → Option Mode
  | .field (.column _) => some .qualify
  | .field (.aliased _ _) => some .declareFields
  | .table (.aliased _ _ _) => some .declareTables
  | _ => none

/-- What is seen of a column or an alias where it is entered: inside which slot that is, and whether
its mode is on. -/
structure Sight where
  slot : Option Clause
  inFull : Bool
  part : Part

/-- A column or an alias that is entered, and what is written inside its tags. -/
structure Name where
  sight : Sight
  body : Script

/-- What is seen of a part that is entered inside of a slot, if it is a column or an alias. -/
def Sight.of? (slot : Option Clause) (m : Modes) (part : Part) : Option Sight :=
  part.mode?.map fun mode => ⟨slot, m.isOn mode, part⟩

/-- What is to be seen of a mention. -/
def Mention.sight (x : Mention) : Sight := ⟨x.slot, x.inFull, x.part⟩

/-- The name that a visit inside of a slot enters, if it enters one. -/
def Name.of (slot : Option Clause) (m : Modes) (part : Part) (body : Script) : List Name :=
  (Sight.of? slot m part).toList.map fun sight => ⟨sight, body⟩

mutual

/-- The names that an action enters which is performed inside of a slot and under given modes. What
is attempted is left out. -/
def Action.names (slot : Option Clause) (m : Modes) : Action → List Name
  | .visit part body =>
    Name.of slot m part body ++ Script.names ((nearestSlot (part.tags m)).or slot) m body
  | .within c body => Script.names ((nearestSlot [c]).or slot) m body
  | .switch mode on body => Script.names slot (m.switch mode on) body
  | .assume type body => Script.names slot (m.assume type) body
  | .whenOn mode body => if m.isOn mode then Script.names slot m body else []
  | _ => []

/-- The names that a script enters. -/
def Script.names (slot : Option Clause) (m : Modes) : List Action → List Name
  | [] => []
  | a :: as => a.names slot m ++ Script.names slot m as

end

section

variable {slot : Option Clause} {m : Modes}

namespace Action

@[simp] theorem names_text (s : String) : (text s).names slot m = [] := rfl

@[simp] theorem names_keyword (word : String) : (keyword word).names slot m = [] := rfl

@[simp] theorem names_ident (name : String) : (ident name).names slot m = [] := rfl

@[simp] theorem names_bind (p : Param) : (bind p).names slot m = [] := rfl

@[simp] theorem names_fail (e : RenderError) : (fail e).names slot m = [] := rfl

/-- The visit of a node stays inside of the slot. -/
theorem names_visit {part : Part} (hpart : part.isNode = true) (body : Script) :
    (visit part body).names slot m = Name.of slot m part body ++ Script.names slot m body := by
  rw [names, Part.nearestSlot_tags m hpart, Option.none_or]

theorem names_within (c : Clause) (body : Script) :
    (within c body).names slot m = Script.names (if c.isSlot then some c else slot) m body := by
  rw [names, nearestSlot_singleton]
  split <;> rfl

@[simp] theorem names_switch (mode : Mode) (on : Bool) (body : Script) :
    (switch mode on body).names slot m = Script.names slot (m.switch mode on) body := rfl

@[simp] theorem names_assume (type : Option DataType) (body : Script) :
    (assume type body).names slot m = Script.names slot (m.assume type) body := rfl

@[simp] theorem names_whenOn (mode : Mode) (body : Script) :
    (whenOn mode body).names slot m = if m.isOn mode then Script.names slot m body else [] := rfl

end Action

namespace Script

@[simp] theorem names_nil : Script.names slot m [] = [] := rfl

@[simp] theorem names_cons (a : Action) (as : Script) :
    Script.names slot m (a :: as) = a.names slot m ++ Script.names slot m as := rfl

@[simp] theorem names_append (as bs : Script) :
    Script.names slot m (as ++ bs) = Script.names slot m as ++ Script.names slot m bs := by
  induction as with
  | nil => rfl
  | cons a as ih => simp [ih]

theorem names_eq_flatMap (as : Script) :
    Script.names slot m as = as.flatMap (Action.names slot m) := by
  induction as with
  | nil => rfl
  | cons a as ih => rw [names_cons, ih, List.flatMap_cons]

/-- Separators are no names. -/
theorem names_intersperse {a : Action} (ha : a.names slot m = []) :
    ∀ as : Script, Script.names slot m (as.intersperse a) = Script.names slot m as
  | [] => rfl
  | [_] => rfl
  | b :: c :: as => by
    rw [List.intersperse_cons_cons, names_cons, names_cons, ha, names_intersperse ha]
    simp

@[simp] theorem names_separated (separator : String) (as : Script) :
    Script.names slot m (Script.separated separator as) = Script.names slot m as :=
  names_intersperse (by simp) as

@[simp] theorem names_listed (as : Script) :
    Script.names slot m (Script.listed as) = Script.names slot m as :=
  names_separated ", " as

@[simp] theorem names_identList (names : List String) :
    Script.names slot m (identList names) = [] := by
  have hnames : Script.names slot m (names.map Action.ident) = [] := by
    rw [names_eq_flatMap, List.flatMap_map]
    simp
  have hcomma : (Action.text ", ").names slot m = [] := rfl
  have hlist := names_intersperse hcomma (names.map Action.ident)
  simp [identList, hlist, hnames]

@[simp] theorem names_layout (op : Connective) (operands : Script) :
    Script.names slot m (op.layout operands) = Script.names slot m operands := by
  unfold Connective.layout
  split <;> simp

@[simp] theorem names_ifAny (word : String) (items : Script) :
    Script.names slot m (Script.ifAny word items) = Script.names slot m items := by
  unfold Script.ifAny
  split
  · next h => rw [List.isEmpty_iff.1 h]
  · simp

variable (d : Dialect)

@[simp] theorem names_require (feature : Feature) (c : Clause) :
    Script.names slot m (Script.require d feature c) = [] := by
  unfold Script.require
  split <;> simp

@[simp] theorem names_checkDegree (c : Clause) (expected found : Nat) :
    Script.names slot m (Script.checkDegree d c expected found) = [] := by
  unfold Script.checkDegree
  split <;> simp

@[simp] theorem names_failEmpty (c : Clause) :
    Script.names slot m (Script.failEmpty d c) = [] := by
  simp [Script.failEmpty]

@[simp] theorem names_checks {α : Type} (c : Clause) (expected : Nat) (found : α → Nat)
    (as : List α) :
    Script.names slot m (as.flatMap fun a => Script.checkDegree d c expected (found a)) = [] := by
  induction as with
  | nil => rfl
  | cons a as ih => simp [ih]

@[simp] theorem names_hierarchical (clause : Clause) (condition : Script) :
    Script.names slot m (Script.hierarchical d clause condition) =
      Script.names slot m condition := by
  unfold Script.hierarchical
  split <;> simp

end Script

end

/-! ## The names of nodes -/

variable (d : Dialect)

/-- The name that a mention is entered as. -/
def Mention.name (x : Mention) : Name := ⟨x.sight, x.part.body d⟩

/-- The modes of a place: fields are declared exactly if its slot declares them, and columns are
qualified unless they stand bare. -/
structure Modes.Fits (slot : Option Clause) (bare : Bool) (m : Modes) : Prop where
  declareFields_eq : m.declareFields = slot.any Clause.declaresFields
  qualify_eq : m.qualify = !bare

/-- An assumed type changes nothing about a place. -/
theorem Modes.Fits.assume {slot : Option Clause} {bare : Bool} {m : Modes} (h : m.Fits slot bare)
    (type : Option DataType) : (m.assume type).Fits slot bare :=
  ⟨h.declareFields_eq, h.qualify_eq⟩

theorem Field.isNode_asPart (f : Field) : f.asPart.isNode = true := by
  cases f <;> rfl

mutual

/-- The visit of a field enters the mentions in it. -/
theorem Field.names_visit {slot : Option Clause} {bare : Bool} {m : Modes}
    (hm : m.Fits slot bare) : ∀ f : Field,
    (f.visit d).names slot m = (f.mentions slot bare).map (Mention.name d)
  | .column c => by
    have hbody : Script.names slot m (c.body) = [] := by
      unfold Column.body
      cases c.qualifier <;> simp
    rw [Field.visit, Action.names_visit (Field.isNode_asPart _), Field.body, hbody]
    simp [Field.asPart, Name.of, Sight.of?, Part.mode?, Modes.isOn, Field.mentions, Mention.name,
      Mention.sight, Mention.slot, Mention.inFull, Mention.part, Part.body, Field.body,
      hm.qualify_eq]
  | .value p => by
    rw [Field.visit, Action.names_visit (Field.isNode_asPart _)]
    simp [Field.asPart, Name.of, Sight.of?, Part.mode?, Field.body, Field.mentions]
  | .aliased f name => by
    have ih := Field.names_visit hm f
    have hmode : m.isOn .declareFields = slot.any Clause.declaresFields := hm.declareFields_eq
    have hname : Name.of slot m (.field (.aliased f name)) (Field.body d (.aliased f name)) =
        [(Mention.fieldAlias slot f name).name d] := by
      simp [Name.of, Sight.of?, Part.mode?, Mention.name, Mention.sight, Mention.slot,
        Mention.inFull, Mention.part, Part.body, hmode]
    have hbody : Script.names slot m (Field.body d (.aliased f name)) =
        if slot.any Clause.declaresFields then (f.visit d).names slot m else [] := by
      simp [Field.body, hmode, Field.visit]
    have hpart : (Field.aliased f name).asPart = .field (.aliased f name) := rfl
    rw [Field.visit, Action.names_visit (Field.isNode_asPart _), hpart, hname, hbody, ih,
      Field.mentions]
    split <;> simp
  | .row fields => by
    have ih := Field.names_visits hm fields
    rw [Field.visit, Action.names_visit (Field.isNode_asPart _)]
    have hbody : Script.names slot m (Field.body d (.row fields)) =
        Script.names slot m (Field.visits d fields) := by
      rw [Field.body, Row.layout]
      split
      · next h => rw [List.isEmpty_iff.1 h]; simp
      · simp
    simp [Field.asPart, Name.of, Sight.of?, Part.mode?, Field.mentions, hbody, ih]

/-- The visits of fields enter the mentions in them. -/
theorem Field.names_visits {slot : Option Clause} {bare : Bool} {m : Modes}
    (hm : m.Fits slot bare) : ∀ fs : List Field,
    Script.names slot m (Field.visits d fs) =
      (Field.mentionsIn slot bare fs).map (Mention.name d)
  | [] => rfl
  | f :: fs => by
    have hf := Field.names_visit hm f
    rw [Field.visit] at hf
    rw [Field.visits, Field.mentionsIn, Script.names_cons, List.map_append, hf,
      Field.names_visits hm fs]

end

@[simp] theorem Row.names_visit {slot : Option Clause} {bare : Bool} {m : Modes}
    (hm : m.Fits slot bare) (r : Row) :
    (Row.visit d r).names slot m = (Field.mentionsIn slot bare r).map (Mention.name d) :=
  Field.names_visit d hm (.row r)

theorem Field.names_map_visit {slot : Option Clause} {bare : Bool} {m : Modes}
    (hm : m.Fits slot bare) (fs : List Field) :
    Script.names slot m (fs.map (Field.visit d)) =
      (Field.mentionsIn slot bare fs).map (Mention.name d) := by
  rw [← Field.visits_eq_map, Field.names_visits d hm]

theorem Row.names_map_visit {slot : Option Clause} {bare : Bool} {m : Modes}
    (hm : m.Fits slot bare) (rows : List Row) :
    Script.names slot m (rows.map (Row.visit d)) =
      (rows.flatMap (Field.mentionsIn slot bare)).map (Mention.name d) := by
  induction rows with
  | nil => rfl
  | cons r rows ih => simp [ih, Row.names_visit d hm]

theorem Table.names_dual {slot : Option Clause} {m : Modes} :
    (Table.visit d .dual).names slot m = [] := by
  rw [Table.visit, Action.names_visit rfl]
  simp [Name.of, Sight.of?, Part.mode?, Table.body]

/-- The visit of a table that is declared in a slot enters the mentions in it. -/
theorem Table.names_visit {slot : Clause} (h : slot.declaresTables = true) {m : Modes}
    (hm : m.Fits (some slot) false) (hon : m.declareTables = true) (t : Table) :
    (t.visit d).names (some slot) m = (t.mentions slot h).map (Mention.name d) := by
  have hmode : m.isOn .declareTables = true := hon
  induction t with
  | named schema name =>
    rw [Table.visit, Action.names_visit rfl]
    cases schema <;> simp [Name.of, Sight.of?, Part.mode?, Table.body, Table.mentions]
  | aliased t name columns ih =>
    rw [Table.visit] at ih
    have hname : Name.of (some slot) m (.table (.aliased t name columns))
        (Table.body d (.aliased t name columns)) =
          [(Mention.tableAlias slot h t name columns).name d] := by
      simp [Name.of, Sight.of?, Part.mode?, Mention.name, Mention.sight, Mention.slot,
        Mention.inFull, Mention.part, Part.body, hmode]
    have hbody : Script.names (some slot) m (Table.body d (.aliased t name columns)) =
        (Action.visit (.table t) (t.body d)).names (some slot) m := by
      simp only [Table.body]
      split <;> split <;> simp [hmode]
    rw [Table.visit, Action.names_visit rfl, hname, hbody, ih, Table.mentions]
    simp
  | values rows =>
    have hbody : Script.names (some slot) m (Table.body d (.values rows)) =
        Script.names (some slot) m (rows.map (Row.visit d)) := by
      cases rows with
      | nil => simp [Table.body]
      | cons first rest => simp [Table.body]
    rw [Table.visit, Action.names_visit rfl, hbody, Row.names_map_visit d hm, Table.mentions]
    simp [Name.of, Sight.of?, Part.mode?]
  | dual => exact Table.names_dual d

theorem Table.names_map_visit {slot : Clause} (h : slot.declaresTables = true) {m : Modes}
    (hm : m.Fits (some slot) false) (hon : m.declareTables = true) (ts : List Table) :
    Script.names (some slot) m (ts.map (Table.visit d)) =
      (ts.flatMap (Table.mentions slot h)).map (Mention.name d) := by
  induction ts with
  | nil => rfl
  | cons t ts ih => simp [ih, Table.names_visit d h hm hon]

/-! ### Conditions and queries -/

/-- The modes of a query: nothing is declared, and columns are qualified. -/
structure Modes.Neutral (m : Modes) : Prop where
  declareFields_eq : m.declareFields = false
  qualify_eq : m.qualify = true

namespace Modes.Neutral

variable {m : Modes}

/-- Neutral modes fit where no fields are declared. -/
theorem fits (hm : m.Neutral) (slot : Option Clause)
    (hslot : slot.any Clause.declaresFields = false) : m.Fits slot false :=
  ⟨by rw [hm.declareFields_eq, hslot], hm.qualify_eq⟩

theorem fits_declareFields (hm : m.Neutral) (slot : Clause) (hslot : slot.declaresFields = true) :
    (m.switch .declareFields true).Fits (some slot) false :=
  ⟨hslot.symm, hm.qualify_eq⟩

theorem fits_declareTables (hm : m.Neutral) (slot : Clause) (hslot : slot.declaresFields = false) :
    (m.switch .declareTables true).Fits (some slot) false :=
  ⟨by rw [Option.any_some, hslot]; exact hm.declareFields_eq, hm.qualify_eq⟩

theorem fits_bare (hm : m.Neutral) (slot : Clause) (hslot : slot.declaresFields = false) :
    (m.switch .qualify false).Fits (some slot) true :=
  ⟨by rw [Option.any_some, hslot]; exact hm.declareFields_eq, rfl⟩

end Modes.Neutral

section

variable {m : Modes} (hm : m.Neutral)

include hm

theorem Condition.names_layoutIn {slot : Option Clause}
    (hslot : slot.any Clause.declaresFields = false) (f : Field) (values : List Field)
    (negated : Bool) :
    Script.names slot m (Condition.layoutIn d f values negated) =
      ((Condition.isIn f values negated).mentions slot).map (Mention.name d) := by
  have hfits := hm.fits slot hslot
  simp only [Condition.layoutIn, Condition.mentions]
  split
  · simp
  · simp [Field.names_visit d hfits, Field.names_map_visit d (hfits.assume _)]

theorem Condition.names_layoutBetween {slot : Option Clause}
    (hslot : slot.any Clause.declaresFields = false) (clause : Clause) (f low high : Field)
    (negated symmetric : Bool) :
    Script.names slot m (Condition.layoutBetween d clause f low high negated symmetric) =
      ((Condition.between f low high negated symmetric).mentions slot).map (Mention.name d) := by
  have hfits := hm.fits slot hslot
  cases negated <;> cases symmetric <;>
    simp [Condition.layoutBetween, Condition.mentions, Field.names_visit d hfits,
      Field.names_visit d (hfits.assume _)]

/-- The fields of a list that is declared in its slot. -/
theorem Field.names_declared (slot : Clause) (hslot : slot.declaresFields = true)
    (fields : List Field) :
    Script.names (some slot) (m.switch .declareFields true)
        (Script.listed (fields.map (Field.visit d))) =
      (Field.mentionsIn (some slot) false fields).map (Mention.name d) := by
  rw [Script.names_listed, Field.names_map_visit d (hm.fits_declareFields slot hslot)]

theorem Select.names_layoutFields (distinct : Bool) (fields : List Field) :
    Script.names (some .selectSelect) m (Select.layoutFields d distinct fields) =
      (Field.mentionsIn (some .selectSelect) false fields).map (Mention.name d) := by
  have hfields := Field.names_declared d hm .selectSelect rfl fields
  cases fields with
  | nil => simp [Select.layoutFields, Field.mentionsIn]
  | cons f fs => simpa [Select.layoutFields] using hfields

theorem Select.names_layoutTables (tables : List Table) :
    Script.names (some .selectFrom) m (Select.layoutTables d tables) =
      (tables.flatMap (Table.mentions .selectFrom rfl)).map (Mention.name d) := by
  have htables := Table.names_map_visit d rfl (hm.fits_declareTables .selectFrom rfl) rfl
    tables
  unfold Select.layoutTables
  split
  · next h =>
    rw [List.isEmpty_iff.1 h]
    split <;> simp [Table.names_dual d]
  · simpa using htables

theorem SortField.names_map_visit (slot : Clause) (hslot : slot.declaresFields = false)
    (fs : List SortField) :
    Script.names (some slot) m (fs.map (SortField.visit d)) =
      (Field.mentionsIn (some slot) false (fs.map SortField.field)).map (Mention.name d) := by
  induction fs with
  | nil => rfl
  | cons s fs ih =>
    have hfits : m.Fits (some slot) false := hm.fits (some slot) hslot
    have hvisit : (SortField.visit d s).names (some slot) m =
        (s.field.mentions (some slot) false).map (Mention.name d) := by
      rw [SortField.visit, Action.names_visit rfl, SortField.body]
      simp [Name.of, Sight.of?, Part.mode?, Field.names_visit d hfits]
    simp [hvisit, ih, Field.mentionsIn]

end

theorem names_visit_condition {slot : Option Clause} {m : Modes} (c : Condition) (body : Script) :
    (Action.visit (.condition c) body).names slot m = Script.names slot m body := by
  rw [Action.names_visit rfl]
  rfl

theorem names_visit_select {slot : Option Clause} {m : Modes} (s : Select) (body : Script) :
    (Action.visit (.select s) body).names slot m = Script.names slot m body := by
  rw [Action.names_visit rfl]
  rfl

mutual

/-- What is written for a condition enters the mentions in it. -/
theorem Condition.names_body {m : Modes} (hm : m.Neutral) {slot : Option Clause}
    (hslot : slot.any Clause.declaresFields = false) : ∀ c : Condition,
    Script.names slot m (c.body d) = (c.mentions slot).map (Mention.name d)
  | .comparison left op right => by
    have hfits := hm.fits slot hslot
    simp [Condition.body, Condition.mentions, Field.names_visit d (hfits.assume _)]
  | .not c => by
    have hc := Condition.names_body hm hslot c
    simp [Condition.body, Condition.mentions, names_visit_condition, hc]
  | .combined op conditions => by
    rw [Condition.body, Script.names_layout, Condition.mentions,
      Condition.names_visits hm hslot conditions]
  | .isNull f negated => by
    simp [Condition.body, Condition.mentions, Field.names_visit d (hm.fits slot hslot)]
  | .isIn f values negated => by
    rw [Condition.body, Condition.names_layoutIn d hm hslot]
  | .between f low high negated symmetric => by
    rw [Condition.body, Condition.names_layoutBetween d hm hslot]
  | .exists q negated => by
    simp [Condition.body, Condition.mentions, Query.names_visits hm slot q]

theorem Condition.names_visits {m : Modes} (hm : m.Neutral) {slot : Option Clause}
    (hslot : slot.any Clause.declaresFields = false) : ∀ cs : List Condition,
    Script.names slot m (Condition.visits d cs) =
      (Condition.mentionsIn slot cs).map (Mention.name d)
  | [] => rfl
  | c :: cs => by
    rw [Condition.visits, Script.names_cons, names_visit_condition, Condition.names_body hm hslot c,
      Condition.names_visits hm hslot cs, Condition.mentionsIn, List.map_append]

theorem Condition.names_slot {m : Modes} (hm : m.Neutral) (slot : Clause)
    (hslot : slot.declaresFields = false) (word : String) : ∀ c : Option Condition,
    Script.names (some slot) m (Condition.slot d word c) =
      (Condition.mentionsOf slot c).map (Mention.name d)
  | none => rfl
  | some c => by
    have hany : (some slot).any Clause.declaresFields = false := hslot
    have hc := Condition.names_body hm hany c
    simp [Condition.slot, Condition.mentionsOf, names_visit_condition, hc]

theorem Query.names_visits {m : Modes} (hm : m.Neutral) (slot : Option Clause) : ∀ q : Query,
    Script.names slot m (q.visits d) = q.mentions.map (Mention.name d)
  | .select s => by
    rw [Query.visits, Script.names_cons, names_visit_select, Select.names_body hm slot s]
    simp [Query.mentions]
  | .unionAll selects => by
    have ih := Select.names_visits hm slot selects
    rw [Query.visits, Script.names_cons, Action.names_visit rfl, Query.mentions]
    split
    · next h =>
      rw [List.isEmpty_iff.1 h]
      simp [Name.of, Sight.of?, Part.mode?, Select.mentionsIn]
    · simp [Name.of, Sight.of?, Part.mode?, ih]

/-- What is written for a select enters the mentions in it, whatever slot it stands in. -/
theorem Select.names_body {m : Modes} (hm : m.Neutral) (slot : Option Clause) : ∀ s : Select,
    Script.names slot m (s.body d) = s.mentions.map (Mention.name d)
  | { distinct, fields, tables, filter, startWith, connectBy, groupBy, having, orderBy } => by
    have hgroupBy := Field.names_map_visit d (hm.fits (some .selectGroupBy) rfl) groupBy
    rw [Select.body, Select.mentions]
    simp only [Script.names_cons, Script.names_nil, Action.names_within, Clause.isSlot, if_true,
      Select.names_layoutFields d hm, Select.names_layoutTables d hm,
      Condition.names_slot hm .selectWhere rfl, Script.names_hierarchical,
      Condition.names_slot hm .selectStartWith rfl,
      Condition.names_slot hm .selectConnectBy rfl,
      Condition.names_slot hm .selectHaving rfl, Script.names_ifAny, hgroupBy,
      SortField.names_map_visit d hm .selectOrderBy rfl, List.map_append,
      List.append_nil]

theorem Select.names_visits {m : Modes} (hm : m.Neutral) (slot : Option Clause) :
    ∀ ss : List Select,
    Script.names slot m (Select.visits d ss) =
      (Select.mentionsIn ss).map (Mention.name d)
  | [] => rfl
  | s :: ss => by
    rw [Select.visits, Script.names_cons, names_visit_select, Select.names_body hm slot s,
      Select.names_visits hm slot ss, Select.mentionsIn, List.map_append]

end

section

variable {m : Modes} (hm : m.Neutral)

include hm

theorem Query.names_visit (slot : Option Clause) (q : Query) :
    (q.visit d).names slot m = q.mentions.map (Mention.name d) := by
  have h := q.names_visits d hm slot
  rwa [Query.visits_eq, Script.names_cons, Script.names_nil, List.append_nil] at h

/-! ### Statements -/

theorem Assignment.names_listed (slot : Clause) (hslot : slot.isSlot = true)
    (hfields : slot.declaresFields = false) (outer : Option Clause) (as : List Assignment) :
    Script.names outer m (Assignment.listed d slot as) =
      (as.flatMap (Assignment.mentions slot)).map (Mention.name d) := by
  have hvalue : m.Fits (some slot) false := hm.fits (some slot) hfields
  have hbody : ∀ a : Assignment, (Action.within slot (a.body d slot)).names outer m =
      (a.mentions slot).map (Mention.name d) := by
    intro a
    rw [Action.names_within, if_pos hslot, Assignment.body, Assignment.mentions]
    split <;> simp [Field.names_visit d (hm.fits_bare slot hfields),
      Field.names_visit d (hvalue.assume _)]
  unfold Assignment.listed
  rw [Script.names_intersperse (by simp)]
  induction as with
  | nil => rfl
  | cons a as ih => simp [hbody, ih]

theorem names_layoutReturning (slot : Clause) (hslot : slot.declaresFields = true)
    (fields : List Field) :
    Script.names (some slot) m (layoutReturning d fields) =
      (returningMentions d slot fields).map (Mention.name d) := by
  have hfields := Field.names_declared d hm slot hslot fields
  unfold layoutReturning returningMentions
  split
  · next h =>
    rw [List.isEmpty_iff.1 h]
    simp [Field.mentionsIn]
  · split
    · next hplan => simpa [hplan] using hfields
    · next hplan =>
      rw [if_neg hplan]
      rfl

theorem Insert.names_layoutTarget (into : Table) (columns : List Field) :
    Script.names (some .insertInsertInto) m (Insert.layoutTarget d into columns) =
      (into.mentions .insertInsertInto rfl ++
        Field.mentionsIn (some .insertInsertInto) true columns).map (Mention.name d) := by
  have hinto := Table.names_visit d rfl
    (hm.fits_declareTables .insertInsertInto rfl) rfl into
  have hcolumns := Field.names_map_visit d (hm.fits_bare .insertInsertInto rfl) columns
  unfold Insert.layoutTarget
  split
  · next h =>
    rw [List.isEmpty_iff.1 h]
    simp [hinto, Field.mentionsIn]
  · simp [hinto, hcolumns]

theorem InsertSource.names_layout {slot : Option Clause} (columns : List Field)
    (source : InsertSource) :
    Script.names slot m (source.layout d columns) =
      (source.mentions d columns).map (Mention.name d) := by
  cases source with
  | query q =>
    simp [InsertSource.layout, InsertSource.mentions, Action.names_within, Clause.isSlot,
      Query.names_visit d hm]
  | values rows =>
    have hdefaults : Script.names slot m (Insert.layoutDefaults d columns) = [] := by
      unfold Insert.layoutDefaults
      split <;> simp [Action.names_within, Clause.isSlot]
    have hrows := Row.names_map_visit d (hm.fits (some .insertValues) rfl) rows
    simp only [InsertSource.layout, InsertSource.mentions, Insert.layoutRows, Script.names_append,
      Script.names_checks, List.nil_append]
    split
    · next h =>
      -- without rows there is no union of them
      have hfalse : Insert.isEmulated d [] = false := rfl
      rw [List.isEmpty_iff.1 h, hdefaults]
      simp [hfalse]
    · split
      · next hzero => simp
      · unfold Insert.isEmulated
        split
        · next hplan =>
          simp [hplan, Action.names_within, Clause.isSlot, Query.names_visit d hm]
        · next hplan =>
          have hnative : ¬ d.resolve (.insertValues rows.length) = .emulate .insertSelectUnionAll :=
            hplan
          simp [hnative, Action.names_within, Clause.isSlot, hrows]

theorem Insert.names_layoutOnDuplicate {slot : Option Clause} (as : List Assignment) :
    Script.names slot m (Insert.layoutOnDuplicate d as) =
      (if d.resolve .onDuplicateKeyUpdate = .native then
        as.flatMap (Assignment.mentions .insertOnDuplicateKeyUpdateAssignment)
      else []).map (Mention.name d) := by
  have has :=
    Assignment.names_listed d hm .insertOnDuplicateKeyUpdateAssignment rfl rfl slot as
  unfold Insert.layoutOnDuplicate
  split
  · next h =>
    rw [List.isEmpty_iff.1 h]
    simp
  · split
    · next hplan => simpa [hplan] using has
    · next hplan =>
      rw [if_neg hplan]
      rfl

theorem Statement.names_visit (slot : Option Clause) (s : Statement) :
    (s.visit d).names slot m = (s.mentions d).map (Mention.name d) := by
  cases s with
  | query q => exact q.names_visit d hm slot
  | insert i =>
    rw [Statement.visit, Insert.visit, Action.names_visit rfl, Insert.body, Statement.mentions]
    simp [Name.of, Sight.of?, Part.mode?, Action.names_within, Clause.isSlot,
      Insert.names_layoutTarget d hm, InsertSource.names_layout d hm,
      Insert.names_layoutOnDuplicate d hm, names_layoutReturning d hm .insertReturning rfl]
  | update u =>
    have htable := Table.names_visit d rfl
      (hm.fits_declareTables .updateUpdate rfl) rfl u.table
    have hset : Script.names (some .updateSet) m (Update.layoutSet d u.assignments) =
        (u.assignments.flatMap (Assignment.mentions .updateSetAssignment)).map
          (Mention.name d) := by
      have has := Assignment.names_listed d hm .updateSetAssignment rfl rfl (some .updateSet)
        u.assignments
      unfold Update.layoutSet
      split
      · next h =>
        rw [List.isEmpty_iff.1 h]
        simp
      · simpa using has
    rw [Statement.visit, Update.visit, Action.names_visit rfl, Update.body, Statement.mentions]
    simp [Name.of, Sight.of?, Part.mode?, Action.names_within, Clause.isSlot, htable, hset,
      Condition.names_slot d hm .updateWhere rfl,
      names_layoutReturning d hm .updateReturning rfl]
  | delete x =>
    have htable := Table.names_visit d rfl
      (hm.fits_declareTables .deleteDelete rfl) rfl x.table
    rw [Statement.visit, Delete.visit, Action.names_visit rfl, Delete.body, Statement.mentions]
    simp [Name.of, Sight.of?, Part.mode?, Action.names_within, Clause.isSlot, htable,
      Condition.names_slot d hm .deleteWhere rfl]

/-- **The visit of a statement, a query or a condition enters the mentions in it**, in order, each
inside its slot and written in full exactly if its place says so. -/
theorem Part.names_visit {p : Part} (hp : p.isClausal = true) :
    (p.visit d).names none m = (p.mentions d).map (Mention.name d) := by
  cases p with
  | condition c =>
    rw [Part.visit, Condition.visit, names_visit_condition]
    exact Condition.names_body d hm rfl c
  | select s => exact Query.names_visit d hm none (.select s)
  | query q => exact q.names_visit d hm none
  | insert i => exact Statement.names_visit d hm none (.insert i)
  | update u => exact Statement.names_visit d hm none (.update u)
  | delete x => exact Statement.names_visit d hm none (.delete x)
  | statement s => exact s.names_visit d hm none
  | field | row | table | sort | forward | custom => cases hp

end

end SqlRender
