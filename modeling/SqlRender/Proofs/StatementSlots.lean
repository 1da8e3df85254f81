import Mathlib.Data.List.Forall2
import SqlRender.Proofs.Invariants
import SqlRender.Proofs.Positions

/-!
# Statements show their slots

A statement opens all of its slots in order, also those that have no content and those that the
dialect leaves out. `Part.slots?` reads off the tree which slots a statement has and which of them
stay blank; a listener finds the very same list among the events of the visit:

```text
DELETE FROM t                 on every dialect

  visitStart
    clauseStart   … / DELETE
      clauseStart   … / DELETE / DELETE_DELETE      filled    DELETE FROM "t"
        …
      clauseEnd     … / DELETE / DELETE_DELETE
      clauseStart   … / DELETE / DELETE_WHERE       blank
      clauseEnd     … / DELETE / DELETE_WHERE
    clauseEnd     … / DELETE
  visitEnd
```

The layout of a statement is compared with its slots first (`Part.opens_slots`), where a visit that ends
well has met none of the checks of the layout. Then the slots are performed one by one
(`performAll_slots`).
-/

namespace SqlRender

/-! ## The slots of a statement -/

/-- What a slot holds. -/
inductive Content where
  /-- Something that has events of its own. -/
  | filled
  /-- No more than these words, if any. -/
  | blank (words : List Segment)

/-- The content of a slot that holds something or nothing at all. -/
def Content.of (present : Bool) : Content := if present then .filled else .blank []

variable (d : Dialect)

/-- The slots of a select. Without fields it selects everything; without tables it may still have to
name one. -/
def Select.slots (s : Select) : List (Clause × Content) :=
  [(.selectSelect,
      if s.fields.isEmpty then
        .blank [.keyword (if s.distinct then "SELECT DISTINCT " else "SELECT "), .text "*"]
      else .filled),
   (.selectFrom, .of (!s.tables.isEmpty || d.capabilities.requiresDual)),
   (.selectWhere, .of s.filter.isSome),
   (.selectStartWith, .of s.startWith.isSome),
   (.selectConnectBy, .of s.connectBy.isSome),
   (.selectGroupBy, .of !s.groupBy.isEmpty),
   (.selectHaving, .of s.having.isSome),
   (.selectOrderBy, .of !s.orderBy.isEmpty)]

/-- The slot of the source of an insert: a query, or rows that are written as one, or values. Without
rows there is one of column defaults. -/
def InsertSource.slot : InsertSource → Clause × Content
  | .query _ => (.insertSelect, .filled)
  | .values rows =>
    if rows.isEmpty then
      (.insertValues,
        .blank [.keyword (if d.capabilities.defaultValues then " DEFAULT VALUES" else " VALUES ()")])
    else if Insert.isEmulated d rows then (.insertSelect, .filled)
    else (.insertValues, .filled)

/-- The slots of an insert. What the dialect does not have is left out. -/
def Insert.slots (i : Insert) : List (Clause × Content) :=
  [(.insertInsertInto, .filled),
   i.source.slot d,
   (.insertOnDuplicateKeyUpdate,
      .of (!i.onDuplicateKeyUpdate.isEmpty && d.capabilities.onDuplicateKeyUpdate)),
   (.insertReturning, .of (!i.returning.isEmpty && d.capabilities.returning))]

/-- The slots of an update. -/
def Update.slots (u : Update) : List (Clause × Content) :=
  [(.updateUpdate, .filled),
   (.updateSet, .filled),
   (.updateWhere, .of u.filter.isSome),
   (.updateReturning, .of (!u.returning.isEmpty && d.capabilities.returning))]

/-- The slots of a delete. -/
def Delete.slots (x : Delete) : List (Clause × Content) :=
  [(.deleteDelete, .filled), (.deleteWhere, .of x.filter.isSome)]

/-- The tag of a statement and its slots, in order. -/
def Part.slots? : Part → Option (Clause × List (Clause × Content))
  | .select s => some (.select, s.slots d)
  | .insert i => some (.insert, i.slots d)
  | .update u => some (.update, u.slots d)
  | .delete x => some (.delete, x.slots)
  | _ => none

/-! ## Layouts -/

/-- A script lays content out: it visits something, or it is no more than the words. -/
def Content.LaidOut (m : Modes) (body : Script) : Content → Prop
  | .filled => Script.meets some m body ≠ []
  | .blank words => body.map Action.word? = words.map some

/-- A script that is performed without meeting a check that fails. -/
def Script.Unfailing (m : Modes) (as : Script) : Prop :=
  ∀ mv ∈ Script.moves m as, ∀ e, mv.deed ≠ .fail e

namespace Script

variable {m : Modes} {as bs : Script}

theorem moves_append (as bs : Script) :
    Script.moves m (as ++ bs) = Script.moves m as ++ Script.moves m bs := by
  induction as with
  | nil => rfl
  | cons a as ih => simp [Script.moves, ih]

theorem Unfailing.left (h : Script.Unfailing m (as ++ bs)) : Script.Unfailing m as :=
  fun mv hmv => h mv (by simp [moves_append, hmv])

theorem Unfailing.right (h : Script.Unfailing m (as ++ bs)) : Script.Unfailing m bs :=
  fun mv hmv => h mv (by simp [moves_append, hmv])

theorem Unfailing.tail {a : Action} (h : Script.Unfailing m (a :: as)) : Script.Unfailing m as :=
  fun mv hmv => h mv (List.mem_append_right _ hmv)

/-- What a clause is opened around fails nowhere, if the clause does. -/
theorem Unfailing.of_within {c : Clause} {body : Script}
    (h : Script.Unfailing m (.within c body :: as)) : Script.Unfailing m body :=
  fun mv hmv => h mv (by simp [Script.moves, Action.moves, hmv])

/-- A script of checks that fails nowhere is empty. -/
theorem Unfailing.eq_nil (h : Script.Unfailing m as)
    (hchecks : ∀ a ∈ as, ∃ e, a = .fail e) : as = [] := by
  cases as with
  | nil => rfl
  | cons a as =>
    obtain ⟨e, rfl⟩ := hchecks a List.mem_cons_self
    exact absurd rfl (h ⟨m, .fail e⟩ (by simp [Script.moves, Action.moves]) e)

theorem isFail_checkDegree (c : Clause) (expected found : Nat) :
    ∀ a ∈ Script.checkDegree d c expected found, ∃ e, a = .fail e := by
  intro a ha
  unfold Script.checkDegree at ha
  split at ha
  · cases ha
  · exact ⟨_, List.mem_singleton.1 ha⟩

theorem isFail_require (f : Feature) (c : Clause) :
    ∀ a ∈ Script.require d f c, ∃ e, a = .fail e := by
  intro a ha
  unfold Script.require at ha
  split at ha
  · exact ⟨_, List.mem_singleton.1 ha⟩
  · cases ha

theorem isFail_failEmpty (c : Clause) : ∀ a ∈ Script.failEmpty d c, ∃ e, a = .fail e :=
  fun _ ha => ⟨_, List.mem_singleton.1 ha⟩

theorem isFail_checks {α : Type} (c : Clause) (expected : Nat) (found : α → Nat) (as : List α) :
    ∀ a ∈ as.flatMap (fun a => Script.checkDegree d c expected (found a)), ∃ e, a = .fail e := by
  intro b hb
  obtain ⟨a, -, hb⟩ := List.mem_flatMap.1 hb
  exact isFail_checkDegree d c expected (found a) b hb

/-- A list with a part in it is visited somewhere. -/
theorem meets_map_ne_nil {α : Type} {f : α → Action} {as : List α} (has : as ≠ [])
    (hf : ∀ a, (f a).meets some m ≠ []) : Script.meets some m (as.map f) ≠ [] := by
  obtain ⟨a, as, rfl⟩ := List.exists_cons_of_ne_nil has
  simp [hf a]

end Script

section

variable {m : Modes}

theorem Action.meets_visit_ne_nil (part : Part) (body : Script) :
    (Action.visit part body).meets some m ≠ [] := by
  simp

theorem Query.meets_visit_ne_nil (q : Query) : (q.visit d).meets some m ≠ [] := by
  cases q <;> exact Action.meets_visit_ne_nil _ _

theorem Assignment.meets_listed_ne_nil (clause : Clause) {as : List Assignment} (has : as ≠ []) :
    Script.meets some m (Assignment.listed d clause as) ≠ [] := by
  unfold Assignment.listed
  rw [Script.meets_intersperse (by simp)]
  apply Script.meets_map_ne_nil has
  intro a
  simp [Assignment.body, Field.visit]

namespace Content

theorem laidOut_of {present : Bool} {body : Script}
    (hfull : present = true → Script.meets some m body ≠ [])
    (hempty : present = false → body = []) : (Content.of present).LaidOut m body := by
  cases present with
  | true => exact hfull rfl
  | false =>
    rw [hempty rfl]
    rfl

theorem laidOut_slot (word : String) (c : Option Condition) :
    (Content.of c.isSome).LaidOut m (Condition.slot d word c) := by
  apply laidOut_of
  · intro hc
    obtain ⟨c, rfl⟩ := Option.isSome_iff_exists.1 hc
    simp [Condition.slot]
  · intro hc
    obtain rfl : c = none := by simpa using hc
    rfl

theorem laidOut_hierarchical (word : String) (clause : Clause) (c : Option Condition) :
    (Content.of c.isSome).LaidOut m
      (Script.hierarchical d clause (Condition.slot d word c)) := by
  apply laidOut_of
  · intro hc
    obtain ⟨c, rfl⟩ := Option.isSome_iff_exists.1 hc
    simp [Script.hierarchical, Condition.slot]
  · intro hc
    obtain rfl : c = none := by simpa using hc
    rfl

theorem laidOut_ifAny {α : Type} {f : α → Action} (word : String) (as : List α)
    (hf : ∀ a, (f a).meets some m ≠ []) :
    (Content.of !as.isEmpty).LaidOut m (Script.ifAny word (as.map f)) := by
  apply laidOut_of
  · intro has
    rw [Script.meets_ifAny]
    exact Script.meets_map_ne_nil (by simpa using has) hf
  · intro has
    obtain rfl : as = [] := by simpa using has
    rfl

theorem laidOut_layoutReturning (fields : List Field) :
    (Content.of (!fields.isEmpty && d.capabilities.returning)).LaidOut m
      (layoutReturning d fields) := by
  apply laidOut_of
  · intro h
    obtain ⟨hfields, hreturning⟩ := Bool.and_eq_true_iff.1 h
    have hne : fields ≠ [] := by simpa using hfields
    have hvisits : Script.meets some (m.switch .declareFields true)
        (fields.map (Field.visit d)) ≠ [] :=
      Script.meets_map_ne_nil hne fun _ => Action.meets_visit_ne_nil _ _
    simpa [layoutReturning, hne, Dialect.resolve, Plan.nativeOr, hreturning] using hvisits
  · intro h
    rcases Bool.and_eq_false_iff.1 h with hfields | hreturning
    · obtain rfl : fields = [] := by simpa using hfields
      rfl
    · simp [layoutReturning, Dialect.resolve, Plan.nativeOr, hreturning]

theorem laidOut_layoutOnDuplicate (as : List Assignment) :
    (Content.of (!as.isEmpty && d.capabilities.onDuplicateKeyUpdate)).LaidOut m
      (Insert.layoutOnDuplicate d as) := by
  apply laidOut_of
  · intro h
    obtain ⟨has, hcapable⟩ := Bool.and_eq_true_iff.1 h
    have hne : as ≠ [] := by simpa using has
    have hvisits : Script.meets some m
        (Assignment.listed d .insertOnDuplicateKeyUpdateAssignment as) ≠ [] :=
      Assignment.meets_listed_ne_nil d _ hne
    simpa [Insert.layoutOnDuplicate, hne, Dialect.resolve, Plan.nativeOr, hcapable] using hvisits
  · intro h
    rcases Bool.and_eq_false_iff.1 h with has | hcapable
    · obtain rfl : as = [] := by simpa using has
      rfl
    · simp [Insert.layoutOnDuplicate, Dialect.resolve, Plan.nativeOr, hcapable]

theorem laidOut_layoutFields (distinct : Bool) (fields : List Field) :
    (if fields.isEmpty then
        Content.blank [.keyword (if distinct then "SELECT DISTINCT " else "SELECT "), .text "*"]
      else .filled).LaidOut m (Select.layoutFields d distinct fields) := by
  cases fields with
  | nil => rfl
  | cons f fields =>
    show Script.meets some m (Select.layoutFields d distinct (f :: fields)) ≠ []
    simp [Select.layoutFields, Field.visit]

theorem laidOut_layoutTables (tables : List Table) :
    (Content.of (!tables.isEmpty || d.capabilities.requiresDual)).LaidOut m
      (Select.layoutTables d tables) := by
  cases tables with
  | cons t tables =>
    show Script.meets some m (Select.layoutTables d (t :: tables)) ≠ []
    simp [Select.layoutTables, Table.visit]
  | nil =>
    apply laidOut_of
    · intro h
      have hdual : d.capabilities.requiresDual = true := by simpa using h
      simp [Select.layoutTables, Dialect.resolve, Plan.nativeOr, hdual, Table.visit]
    · intro h
      have hdual : d.capabilities.requiresDual = false := by simpa using h
      simp [Select.layoutTables, Dialect.resolve, Plan.nativeOr, hdual]

theorem laidOut_layoutTarget (into : Table) (columns : List Field) :
    Content.filled.LaidOut m (Insert.layoutTarget d into columns) := by
  show Script.meets some m (Insert.layoutTarget d into columns) ≠ []
  simp [Insert.layoutTarget, Table.visit]

theorem laidOut_table (word : String) (t : Table) :
    Content.filled.LaidOut m [.keyword word, .switch .declareTables true [t.visit d]] := by
  show Script.meets some m [.keyword word, .switch .declareTables true [t.visit d]] ≠ []
  simp [Table.visit]

theorem laidOut_query (q : Query) : Content.filled.LaidOut m [.text " ", q.visit d] := by
  show Script.meets some m [.text " ", q.visit d] ≠ []
  simp [Query.meets_visit_ne_nil]

/-- Assignments stand in clauses of their own; without any, the check of the slot fails. -/
theorem laidOut_layoutSet {as : List Assignment}
    (h : Script.Unfailing m (Update.layoutSet d as)) :
    Content.filled.LaidOut m (Update.layoutSet d as) := by
  show Script.meets some m (Update.layoutSet d as) ≠ []
  unfold Update.layoutSet at h ⊢
  split at h
  · cases h.eq_nil (Script.isFail_failEmpty d _)
  · next has =>
    have hne : as ≠ [] := by simpa using has
    rw [if_neg has]
    simpa using Assignment.meets_listed_ne_nil d .updateSetAssignment hne

end Content

/-- An action that opens a slot around its content. -/
def Action.Opens (m : Modes) (slot : Clause × Content) (a : Action) : Prop :=
  ∃ body, a = .within slot.1 body ∧ slot.2.LaidOut m body

open Content

theorem Select.opens_slots (s : Select) :
    List.Forall₂ (Action.Opens m) (s.slots d) (s.body d) := by
  obtain ⟨distinct, fields, tables, filter, startWith, connectBy, groupBy, having, orderBy⟩ := s
  rw [Select.body]
  refine .cons ⟨_, rfl, laidOut_layoutFields d distinct fields⟩ ?_
  refine .cons ⟨_, rfl, laidOut_layoutTables d tables⟩ ?_
  refine .cons ⟨_, rfl, laidOut_slot d _ filter⟩ ?_
  refine .cons ⟨_, rfl, laidOut_hierarchical d _ _ startWith⟩ ?_
  refine .cons ⟨_, rfl, laidOut_hierarchical d _ _ connectBy⟩ ?_
  refine .cons ⟨_, rfl, laidOut_ifAny _ groupBy fun _ => Action.meets_visit_ne_nil _ _⟩ ?_
  refine .cons ⟨_, rfl, laidOut_slot d _ having⟩ ?_
  exact .cons ⟨_, rfl, laidOut_ifAny _ orderBy fun _ => Action.meets_visit_ne_nil _ _⟩ .nil

/-- Where no check fails, one row of column defaults is written with words of the dialect alone. -/
theorem Insert.opens_defaults {columns : List Field}
    (h : Script.Unfailing m (Insert.layoutDefaults d columns)) :
    List.Forall₂ (Action.Opens m) [(InsertSource.values []).slot d]
      (Insert.layoutDefaults d columns) := by
  unfold Insert.layoutDefaults at h ⊢
  split at h
  · next hcolumns =>
    have hrequire := h.left.eq_nil (Script.isFail_require d _ _)
    rw [if_pos hcolumns, hrequire, List.nil_append]
    refine .cons ⟨_, rfl, ?_⟩ .nil
    cases d with
    | oracle => cases hrequire
    | postgres | mySql | sqlite => rfl
  · cases h.eq_nil (Script.isFail_failEmpty d _)

/-- Where no check fails, rows are written as values or as a query. -/
theorem Insert.opens_rows {columns : List Field} {rows : List Row} (hrows : rows ≠ [])
    (h : Script.Unfailing m (Insert.layoutRows d columns rows)) :
    List.Forall₂ (Action.Opens m) [(InsertSource.values rows).slot d]
      (Insert.layoutRows d columns rows) := by
  have hempty : ¬ rows.isEmpty = true := by simpa using hrows
  have hquery : Content.filled.LaidOut m [.text " ", (Insert.unionOf rows).visit d] :=
    laidOut_query d (Insert.unionOf rows)
  have hvalues : Content.filled.LaidOut m
      (.keyword " VALUES " :: Script.listed (rows.map (Row.visit d))) := by
    show Script.meets some m (.keyword " VALUES " :: Script.listed (rows.map (Row.visit d))) ≠ []
    have hvisits : Script.meets some m (rows.map (Row.visit d)) ≠ [] :=
      Script.meets_map_ne_nil hrows fun _ => Action.meets_visit_ne_nil _ _
    simpa using hvisits
  unfold Insert.layoutRows at h ⊢
  dsimp only at h ⊢
  have hchecks := h.left.eq_nil (Script.isFail_checks d _ _ _ _)
  have hrest := h.right
  rw [if_neg hempty] at hrest ⊢
  rw [hchecks, List.nil_append, InsertSource.slot, if_neg hempty]
  split at hrest
  · cases hrest.eq_nil (Script.isFail_failEmpty d _)
  · next hdegree =>
    rw [if_neg hdegree]
    by_cases hemulated : d.resolve (.insertValues rows.length) = .emulate .insertSelectUnionAll
    · have hslot : Insert.isEmulated d rows = true := by simpa [Insert.isEmulated] using hemulated
      rw [hemulated, if_pos hslot]
      exact .cons ⟨_, rfl, hquery⟩ .nil
    · have hslot : ¬ Insert.isEmulated d rows = true := by
        simpa [Insert.isEmulated] using hemulated
      rw [if_neg hslot]
      split
      · next heq => exact absurd heq hemulated
      · exact .cons ⟨_, rfl, hvalues⟩ .nil

/-- Where no check fails, the source of an insert is no more than its slot. -/
theorem InsertSource.opens_slot (source : InsertSource) {columns : List Field}
    (h : Script.Unfailing m (source.layout d columns)) :
    List.Forall₂ (Action.Opens m) [source.slot d] (source.layout d columns) := by
  cases source with
  | query q => exact .cons ⟨_, rfl, laidOut_query d q⟩ .nil
  | values rows =>
    rw [InsertSource.layout] at h ⊢
    by_cases hrows : rows = []
    · subst hrows
      exact Insert.opens_defaults d h
    · exact Insert.opens_rows d hrows h

theorem Insert.opens_slots (i : Insert) (h : Script.Unfailing m (i.body d)) :
    List.Forall₂ (Action.Opens m) (i.slots d) (i.body d) := by
  have hsource := i.source.opens_slot d h.left.right
  have hrest : List.Forall₂ (Action.Opens m)
      [(.insertOnDuplicateKeyUpdate,
          .of (!i.onDuplicateKeyUpdate.isEmpty && d.capabilities.onDuplicateKeyUpdate)),
       (.insertReturning, .of (!i.returning.isEmpty && d.capabilities.returning))]
      [.within .insertOnDuplicateKeyUpdate (Insert.layoutOnDuplicate d i.onDuplicateKeyUpdate),
       .within .insertReturning (layoutReturning d i.returning)] :=
    .cons ⟨_, rfl, laidOut_layoutOnDuplicate d i.onDuplicateKeyUpdate⟩
      (.cons ⟨_, rfl, laidOut_layoutReturning d i.returning⟩ .nil)
  exact .cons ⟨_, rfl, laidOut_layoutTarget d i.into i.columns⟩ (List.rel_append hsource hrest)

theorem Update.opens_slots (u : Update) (h : Script.Unfailing m (u.body d)) :
    List.Forall₂ (Action.Opens m) (u.slots d) (u.body d) := by
  have hset : Script.Unfailing m (Update.layoutSet d u.assignments) := by
    unfold Update.body at h
    exact h.tail.of_within
  refine .cons ⟨_, rfl, laidOut_table d _ u.table⟩ ?_
  refine .cons ⟨_, rfl, laidOut_layoutSet d hset⟩ ?_
  exact .cons ⟨_, rfl, laidOut_slot d _ u.filter⟩
    (.cons ⟨_, rfl, laidOut_layoutReturning d u.returning⟩ .nil)

theorem Delete.opens_slots (x : Delete) :
    List.Forall₂ (Action.Opens m) x.slots (x.body d) :=
  .cons ⟨_, rfl, laidOut_table d _ x.table⟩ (.cons ⟨_, rfl, laidOut_slot d _ x.filter⟩ .nil)

/-- A statement opens its slots, where no check of its layout fails. -/
theorem Part.opens_slots {p : Part} {tag : Clause} {slots : List (Clause × Content)}
    (hp : p.slots? d = some (tag, slots)) (h : Script.Unfailing m (p.body d)) :
    List.Forall₂ (Action.Opens m) slots (p.body d) := by
  cases p with
  | select s =>
    cases hp
    exact s.opens_slots d
  | insert i =>
    cases hp
    exact i.opens_slots d h
  | update u =>
    cases hp
    exact u.opens_slots d h
  | delete x =>
    cases hp
    exact x.opens_slots d
  | _ => cases hp

/-- A statement is visited as it is, inside its one tag. -/
theorem Part.visit_of_slots? {p : Part} {tag : Clause} {slots : List (Clause × Content)}
    (hp : p.slots? d = some (tag, slots)) :
    p.visit d = .visit p (p.body d) ∧ p.tags m = [tag] ∧ p.propagates = true := by
  cases p with
  | select | insert | update | delete =>
    cases hp
    exact ⟨rfl, rfl, rfl⟩
  | _ => cases hp

end

/-! ## What slots show -/

/-- What a slot shows: the events inside of it, and the text that is written there. -/
structure Showing where
  slot : Clause
  inner : List Event
  text : List Segment

/-- The events of a slot inside open clauses. -/
def Showing.events (d : Dialect) (m : Modes) (path : List Clause) (s : Showing) : List Event :=
  m.event d .clauseStart none (path ++ [s.slot]) ::
    (s.inner ++ [m.event d .clauseEnd none (path ++ [s.slot])])

/-- The two events of a slot itself. -/
def Modes.slotEvents (m : Modes) (d : Dialect) (path : List Clause) (slot : Clause) : List Event :=
  [m.event d .clauseStart none (path ++ [slot]), m.event d .clauseEnd none (path ++ [slot])]

/-- A slot shows its content: some events, or no event and the words. -/
def Showing.Of (slot : Clause × Content) (s : Showing) : Prop :=
  s.slot = slot.1 ∧
    match slot.2 with
    | .filled => s.inner ≠ []
    | .blank words => s.inner = [] ∧ s.text = words

/-- Whether an event opens or closes a slot of the innermost of these clauses. -/
def Event.isSlotOf (path : List Clause) (e : Event) : Bool :=
  decide (e.kind = .clauseStart ∨ e.kind = .clauseEnd) && e.part.isNone &&
    decide (e.path ≠ [] ∧ e.path.dropLast = path)

/-- The events of a part are not those of slots. -/
@[simp] theorem Event.isSlotOf_part (path path' : List Clause) (m : Modes) (kind : EventKind)
    (p : Part) : Event.isSlotOf path (m.event d kind (some p) path') = false := by
  simp [Event.isSlotOf, Modes.event]

/-- The clauses that are opened and closed inside of others lie deeper than these. -/
theorem Nested.length_lt {path : List Clause} {es : List Event} (h : Nested path es) :
    ∀ e ∈ es, e.kind = .clauseStart ∨ e.kind = .clauseEnd → path.length < e.path.length := by
  induction h with
  | nil =>
    intro e he
    cases he
  | append _ _ ih ih' =>
    intro e he hkind
    rcases List.mem_append.1 he with he | he
    · exact ih e he hkind
    · exact ih' e he hkind
  | @clause path es e c _ hpath _ _ ih =>
    have hlength : path.length < e.path.length := by
      rw [hpath, List.length_append, List.length_singleton]
      omega
    intro e' he' hkind
    rcases List.mem_cons.1 he' with rfl | he'
    · exact hlength
    rcases List.mem_append.1 he' with he' | he'
    · have hdeeper := ih e' he' hkind
      rw [List.length_append, List.length_singleton] at hdeeper
      omega
    · cases List.mem_singleton.1 he'
      exact hlength
  | @visit path es e p hkind' _ _ _ _ ih =>
    intro e' he' hkind
    rcases List.mem_cons.1 he' with rfl | he'
    · rw [hkind'] at hkind
      rcases hkind with hkind | hkind <;> cases hkind
    rcases List.mem_append.1 he' with he' | he'
    · exact ih e' he' hkind
    · cases List.mem_singleton.1 he'
      rcases hkind with hkind | hkind <;> cases hkind

section

variable {m : Modes} {path : List Clause}

/-- What happens inside of a slot opens and closes no slot of the clauses around it. -/
theorem Nested.isSlotOf_eq_false {c : Clause} {es : List Event} (h : Nested (path ++ [c]) es) :
    ∀ e ∈ es, Event.isSlotOf path e = false := by
  intro e he
  by_contra hslot
  simp only [Event.isSlotOf, Bool.not_eq_false, Bool.and_eq_true, decide_eq_true_eq] at hslot
  obtain ⟨⟨hkind, -⟩, -, hdrop⟩ := hslot
  have hlength := h.length_lt e he hkind
  have hdropped := congrArg List.length hdrop
  rw [List.length_dropLast] at hdropped
  rw [List.length_append, List.length_singleton] at hlength
  omega

/-- Of the events of a slot, the first and the last are those of the slot itself. -/
theorem Showing.filter_events {s : Showing} (h : Nested (path ++ [s.slot]) s.inner) :
    (s.events d m path).filter (Event.isSlotOf path) = m.slotEvents d path s.slot := by
  have hinner : s.inner.filter (Event.isSlotOf path) = [] :=
    List.filter_eq_nil_iff.2 fun e he => by simp [h.isSlotOf_eq_false e he]
  unfold Showing.events
  rw [List.filter_cons_of_pos (by simp [Event.isSlotOf, Modes.event]), List.filter_append, hinner,
    List.nil_append, List.filter_cons_of_pos (by simp [Event.isSlotOf, Modes.event]),
    List.filter_nil]
  rfl

theorem Showing.filter_flatMap_events {slots : List (Clause × Content)} {shown : List Showing}
    (hshown : List.Forall₂ Showing.Of slots shown)
    (hnested : ∀ s ∈ shown, Nested (path ++ [s.slot]) s.inner) :
    (shown.flatMap (Showing.events d m path)).filter (Event.isSlotOf path) =
      slots.flatMap fun slot => m.slotEvents d path slot.1 := by
  induction hshown with
  | nil => rfl
  | @cons slot s slots shown hs _ ih =>
    obtain ⟨hhead, hrest⟩ := List.forall_mem_cons.1 hnested
    have hslot : s.slot = slot.1 := hs.1
    rw [List.flatMap_cons, List.flatMap_cons, List.filter_append, ih hrest,
      Showing.filter_events d hhead, hslot]

end

/-! ## Performing slots -/

open Move

/-- What has been written stays written. -/
theorem upholds_written (cfg : Configuration) (pre : List Segment) :
    cfg.Upholds (fun st => pre <+: st.out) (fun _ => True) (fun _ => True) where
  congr := by
    intro st st' hst hledger _
    have hout : st'.out = st.out := congrArg Prod.fst hledger
    rwa [hout]
  write := fun _ hst => hst.trans (List.prefix_append _ _)
  share := fun _ _ _ hst => hst.trans (List.prefix_append _ _)
  opens := fun _ _ hst => hst.trans (List.prefix_append _ _)
  note := fun _ hst => hst
  conflict := fun _ _ _ => trivial
  noLiteral := fun _ _ => trivial
  refusal := fun _ _ => trivial

section

variable {cfg : Configuration} {m : Modes} {st st' : State}

/-- An action writes behind what has been written. -/
theorem Action.exists_out_eq {a : Action} (h : performAll cfg (a.moves m) st = .ok () st') :
    ∃ text, st'.out = st.out ++ text := by
  have hatoms : ∀ b ∈ a.atoms, b.Fits (fun _ => True) (fun _ => True) := by
    intro b _
    cases b <;> trivial
  have hperform := Action.maintains (upholds_written cfg st.out) a hatoms
  have hprefix := hperform.under (fun _ _ hst => hst) (fun _ => m) st List.prefix_rfl
  rw [Action.perform_eq_moves, Run.EndsIn, h] at hprefix
  obtain ⟨text, htext⟩ := hprefix
  exact ⟨text, htext.symm⟩

/-- Moves that end well are none that fail. -/
theorem Move.ne_fail_of_ok {mvs : List Move} (h : performAll cfg mvs st = .ok () st') :
    ∀ mv ∈ mvs, ∀ e, mv.deed ≠ .fail e := by
  induction mvs generalizing st with
  | nil =>
    intro mv hmv
    cases hmv
  | cons mv mvs ih =>
    obtain ⟨st₁, hmv, hmvs⟩ := (performAll_cons_eq_ok cfg).1 h
    intro mv' hmv' e hfail
    rcases List.mem_cons.1 hmv' with rfl | hmv'
    · obtain ⟨m, deed⟩ := mv'
      obtain rfl : deed = .fail e := hfail
      cases hmv
    · exact ih hmvs mv' hmv' e hfail

/-- Moves that enter a part let an event happen. -/
theorem Move.events_ne_nil {d : Dialect} {mvs : List Move} {path : List Clause}
    (h : mvs.filterMap Move.entered? ≠ []) : Move.events d path mvs ≠ [] := by
  induction mvs generalizing path with
  | nil => exact absurd rfl h
  | cons mv mvs ih =>
    cases hmv : mv.entered? with
    | none =>
      rw [List.filterMap_cons_none hmv] at h
      simp [Move.events, ih h]
    | some p =>
      obtain ⟨m, deed⟩ := mv
      cases deed <;> cases hmv
      simp [Move.events, Move.event?]

/-- A script that is not blank lets an event happen. -/
theorem events_ne_nil_of_laidOut {d : Dialect} {body : Script} {path : List Clause}
    (h : Content.filled.LaidOut m body) : Move.events d path (Script.moves m body) ≠ [] := by
  have hvisited : Script.visited m body ≠ [] := by
    have hmeets : Script.meets some m body ≠ [] := h
    simpa [Script.meets] using hmeets
  apply Move.events_ne_nil
  rw [Script.entered_moves]
  simpa using hvisited

/-- Words let no event happen. -/
theorem events_words {d : Dialect} {path : List Clause} {as : Script} {words : List Segment}
    (h : as.map Action.word? = words.map some) :
    Move.events d path (Script.moves m as) = [] := by
  induction as generalizing words with
  | nil => rfl
  | cons a as ih =>
    obtain ⟨word, words, rfl, ha, has⟩ := List.map_eq_cons_iff.1 h.symm
    have hword : Move.events d path (a.moves m ++ Script.moves m as) =
        Move.events d path (Script.moves m as) := by
      cases a <;> cases ha <;> rfl
    rw [Script.moves, hword]
    exact ih has.symm

/-- Opening and closing a slot writes nothing around the words in it. -/
theorem out_of_words {c : Clause} {body : Script} {words : List Segment}
    (hwords : body.map Action.word? = words.map some)
    (h : performAll cfg ((Action.within c body).moves m) st = .ok () st') :
    st'.out = st.out ++ words := by
  rw [Action.moves] at h
  obtain ⟨opened, hstart, h⟩ := (performAll_cons_eq_ok cfg).1 h
  obtain ⟨written, hbody, hclose⟩ := (performAll_append_eq_ok cfg).1 h
  rw [performAll_singleton] at hclose
  have hopened : opened.out = st.out := congrArg Prod.fst ((keeps_ledger rfl rfl).ok hstart)
  have hclosed : st'.out = written.out := congrArg Prod.fst ((keeps_ledger rfl rfl).ok hclose)
  rw [performAll_words cfg hwords] at hbody
  cases hbody
  rw [hclosed, State.writing, hopened]

/-- A slot that is performed well shows its content and writes no more than its text. -/
theorem perform_slot {a : Action} {slot : Clause × Content} (ha : a.Straight)
    (hopens : a.Opens m slot) (h : performAll cfg (a.moves m) st = .ok () st') :
    ∃ s : Showing, s.Of slot ∧ Nested (st.path ++ [s.slot]) s.inner ∧
      st'.events = st.events ++ s.events cfg.settings.dialect m st.path ∧
      st'.path = st.path ∧ st'.out = st.out ++ s.text := by
  obtain ⟨body, rfl, hlaid⟩ := hopens
  obtain ⟨text, htext⟩ := Action.exists_out_eq h
  have hbody : Bracketed (Script.moves m body) := Script.Straight.bracketed ha
  have hslot : Bracketed ((Action.within slot.1 body).moves m) := ha.bracketed
  obtain ⟨hevents, hpath⟩ := events_of_performAll_ok ha.isAttempt_eq_false h
  rw [hslot.walkAll_eq] at hpath
  let inner := Move.events cfg.settings.dialect (st.path ++ [slot.1]) (Script.moves m body)
  have hclause := hbody.events_clause cfg.settings.dialect st.path m none slot.1
  refine ⟨⟨slot.1, inner, text⟩, ⟨rfl, ?_⟩, hbody.nested_events _ _,
    hevents.trans (congrArg (st.events ++ ·) hclause), hpath, htext⟩
  obtain ⟨c, content⟩ := slot
  cases content with
  | filled => exact events_ne_nil_of_laidOut hlaid
  | blank words =>
    have hwritten : st.out ++ text = st.out ++ words := htext.symm.trans (out_of_words hlaid h)
    exact ⟨events_words hlaid, List.append_cancel_left hwritten⟩

/-- **Slots that are performed well show their content**, one after the other. -/
theorem performAll_slots {as : Script} {slots : List (Clause × Content)}
    (has : Script.Straight as) (hopens : List.Forall₂ (Action.Opens m) slots as)
    (h : performAll cfg (Script.moves m as) st = .ok () st') :
    ∃ shown, List.Forall₂ Showing.Of slots shown ∧
      (∀ s ∈ shown, Nested (st.path ++ [s.slot]) s.inner) ∧
      st'.events = st.events ++
        shown.flatMap (Showing.events cfg.settings.dialect m st.path) ∧
      st'.path = st.path ∧ st'.out = st.out ++ shown.flatMap Showing.text := by
  induction hopens generalizing st with
  | nil =>
    cases h
    exact ⟨[], .nil, nofun, (List.append_nil _).symm, rfl, (List.append_nil _).symm⟩
  | @cons slot a slots as hslot _ ih =>
    obtain ⟨ha, has⟩ := has
    obtain ⟨st₁, hperform, hrest⟩ := (performAll_append_eq_ok cfg).1 h
    obtain ⟨s, hs, hnested, hevents, hpath, hout⟩ := perform_slot ha hslot hperform
    obtain ⟨shown, hshown, hnested', hevents', hpath', hout'⟩ := ih has hrest
    rw [hpath] at hnested' hevents' hpath'
    refine ⟨s :: shown, .cons hs hshown, List.forall_mem_cons.2 ⟨hnested, hnested'⟩, ?_, hpath', ?_⟩
    · rw [hevents', hevents, List.flatMap_cons, List.append_assoc]
    · rw [hout', hout, List.flatMap_cons, List.append_assoc]

end

/-! ## Statements -/

section

variable {d} {m : Modes} {p : Part} {tag : Clause} {path : List Clause}

theorem Part.events_opening (htags : p.tags m = [tag]) :
    Move.events d path (p.opening m) =
      [m.event d .visitStart (some p) path,
       m.event d .clauseStart (some p) (path ++ [tag])] := by
  rw [Part.opening, htags]
  rfl

theorem Part.events_closing (htags : p.tags m = [tag]) :
    Move.events d (path ++ [tag]) (p.closing m) =
      [m.event d .clauseEnd (some p) (path ++ [tag]),
       m.event d .visitEnd (some p) path] := by
  have hdrop : (path ++ [tag]).dropLast = path := List.dropLast_concat
  rw [Part.closing, htags]
  show [_, m.event d .visitEnd (some p) (path ++ [tag]).dropLast] = _
  rw [hdrop]

theorem Part.walkAll_closing (htags : p.tags m = [tag]) :
    Move.walkAll (path ++ [tag]) (p.closing m) = path := by
  rw [Part.closing, htags]
  exact List.dropLast_concat

end

/-- **Every statement shows all of its slots.** A statement that is visited well, wherever it stands,
opens its tag and inside of it every one of its slots, once and in order; nothing that happens in a
slot opens or closes another one. A slot whose content is absent, or left out on the dialect, has no
event in it and adds no text. Of the blank slots only a select of no fields and an insert of one
default row have words. -/
theorem Configuration.statement_shows_slots (cfg : Configuration) {p : Part} {tag : Clause}
    {slots : List (Clause × Content)} {st st' : State}
    (hp : p.target.slots? cfg.settings.dialect = some (tag, slots))
    (h : (p.visit cfg.settings.dialect).perform cfg st = .ok () st') :
    ∃ (shown : List Showing) (es : List Event),
      List.Forall₂ Showing.Of slots shown ∧
      es = st.modes.event cfg.settings.dialect .visitStart (some p.target) st.path ::
        st.modes.event cfg.settings.dialect .clauseStart (some p.target) (st.path ++ [tag]) ::
        (shown.flatMap (Showing.events cfg.settings.dialect st.modes (st.path ++ [tag])) ++
          [st.modes.event cfg.settings.dialect .clauseEnd (some p.target) (st.path ++ [tag]),
           st.modes.event cfg.settings.dialect .visitEnd (some p.target) st.path]) ∧
      es.filter (Event.isSlotOf (st.path ++ [tag])) =
        (slots.flatMap fun slot =>
          st.modes.slotEvents cfg.settings.dialect (st.path ++ [tag]) slot.1) ∧
      st'.events = st.events ++ es ∧ st'.path = st.path ∧
      st'.out = st.out ++ shown.flatMap Showing.text := by
  let d := cfg.settings.dialect
  let m := st.modes
  obtain ⟨hvisit, htags, hpropagates⟩ := Part.visit_of_slots? (m := m) d hp
  rw [← Part.visit_target, hvisit, Action.perform_apply, Part.moves_visit] at h
  obtain ⟨opened, hopening, h⟩ := (performAll_append_eq_ok cfg).1 h
  obtain ⟨written, hbody, hclosing⟩ := (performAll_append_eq_ok cfg).1 h
  have hopened : opened.out = st.out :=
    congrArg Prod.fst ((keeps_ledger_performAll (Part.opening_silent m _)).ok hopening)
  have hclosed : st'.out = written.out :=
    congrArg Prod.fst ((keeps_ledger_performAll (Part.closing_silent m _)).ok hclosing)
  have hbefore := events_of_performAll_ok (fun mv hmv => (Part.opening_silent m _ mv hmv).2) hopening
  have hafter := events_of_performAll_ok (fun mv hmv => (Part.closing_silent m _ mv hmv).2) hclosing
  have hpath : opened.path = st.path ++ [tag] := htags ▸ Part.path_of_opening hopening
  -- what is inside of the tag comes down to the slots
  have hstraight : Script.Straight (p.target.body d) := Part.straight_body d p.target hpropagates
  have hopens := Part.opens_slots d hp (ne_fail_of_ok hbody)
  obtain ⟨shown, hshown, hnested, hevents, hinside, hout⟩ :=
    performAll_slots hstraight hopens hbody
  rw [hpath] at hnested hevents hinside
  rw [hinside, Part.events_closing htags, Part.walkAll_closing htags, hevents, hbefore.1,
    Part.events_opening htags] at hafter
  refine ⟨shown, _, hshown, rfl, ?_, ?_, hafter.2, ?_⟩
  · have hslots := Showing.filter_flatMap_events (m := m) d hshown hnested
    simpa [List.filter_cons] using hslots
  · rw [hafter.1]
    simp only [List.append_assoc, List.cons_append, List.nil_append]
    rfl
  · rw [hclosed, hout, hopened]

/-- `INSERT INTO t (a) VALUES (1), (2) RETURNING a` on Oracle: the rows are written as a query, and
the slot of what the dialect leaves out is opened and closed at once. -/
theorem Configuration.statement_shows_slots_emulated :
    let row (n : Int64) : Row := [.val n]
    let part : Part := .insert
      { into := .ofName "t", columns := [.named "a"], source := .values [row 1, row 2],
        returning := [.named "a"] }
    let cfg : Configuration := { settings := { dialect := .oracle } }
    ∃ st', (part.visit .oracle).perform cfg {} = .ok () st' ∧
      (st'.events.filter (Event.isSlotOf [.insert])).map (fun e => (e.kind, e.path)) =
        [(.clauseStart, [.insert, .insertInsertInto]), (.clauseEnd, [.insert, .insertInsertInto]),
         (.clauseStart, [.insert, .insertSelect]), (.clauseEnd, [.insert, .insertSelect]),
         (.clauseStart, [.insert, .insertOnDuplicateKeyUpdate]),
         (.clauseEnd, [.insert, .insertOnDuplicateKeyUpdate]),
         (.clauseStart, [.insert, .insertReturning]), (.clauseEnd, [.insert, .insertReturning])] := by
  intro row part cfg
  let r : Rendered :=
    { sql := "INSERT INTO \"t\" (\"a\") SELECT ? FROM DUAL UNION ALL SELECT ? FROM DUAL"
      params := [.int 1, .int 2] }
  have hok : (cfg.render part {} []).result = .ok r := Report.result_eq_ok (by decide +kernel)
  obtain ⟨st', hrun, -⟩ := cfg.render_ok_iff_run.1 hok
  obtain ⟨shown, es, -, -, hslots, hevents, -⟩ := cfg.statement_shows_slots rfl hrun
  have hall : st'.events = es := hevents
  refine ⟨st', hrun, ?_⟩
  rw [hall]
  exact congrArg (List.map fun e => (e.kind, e.path)) hslots

end SqlRender
