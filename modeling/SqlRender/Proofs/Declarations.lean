import SqlRender.Proofs.Positions

/-!
# Declarations inside declarations

An alias is declared in a list of fields or of tables. While the list is written the mode of
declaration stays on, also inside of an alias and inside of a row, so an alias that a caller has put
there is declared once more:

```text
SELECT "x" AS "a" AS "b", ("x" AS "a") …

  SELECT / SELECT_SELECT / FIELD / FIELD_ALIAS / FIELD / FIELD_ALIAS
  SELECT / SELECT_SELECT / FIELD_ROW / FIELD / FIELD_ALIAS
```

No dialect has such text. A path is `Stacked` if it ends in, or runs through, such a declaration.
`Action.Stacks` follows the open clauses down a script, and `Action.Straight.exists_stacked` finds
its answer in the events of the moves. Over the tree the answer is short: a declaration of a field
stacks if it wraps an alias (`Field.stacks`), one of a table if it is an alias of an alias
(`Table.stacks`). Nothing else that can be built does.
-/

namespace SqlRender

/-! ## Stacked paths -/

/-- Whether a clause surrounds fields that are no entries of a list themselves: those of a row, and
the one that an alias stands for. -/
def Clause.wrapsFields : Clause → Bool
  | fieldAlias | fieldRow => true
  | _ => false

theorem Clause.wrapsFields_of_isSlot {c : Clause} : c.isSlot = true → c.wrapsFields = false := by
  cases c <;> decide

/-- Whether a clause is that of an alias. -/
def Clause.isAlias : Clause → Bool
  | fieldAlias | tableAlias => true
  | _ => false

theorem Condition.isAlias_clause : ∀ c : Condition, c.clause.isAlias = false
  | .comparison _ _ _ | .not _ => rfl
  | .combined op _ => by cases op <;> rfl
  | .isNull _ negated | .isIn _ _ negated | .exists _ negated => by cases negated <;> rfl
  | .between _ _ _ negated symmetric => by cases negated <;> cases symmetric <;> rfl

/-- Inside of an alias or a row of fields, in the innermost slot. -/
def WithinField (path : List Clause) : Prop :=
  ∃ outer c inner, path = outer ++ c :: inner ∧ c.wrapsFields = true ∧
    ∀ x ∈ inner, x.isSlot = false

/-- A field alias is declared inside of an alias or a row of the same slot, or a table alias inside
of a table alias. -/
def Stacked (path : List Clause) : Prop :=
  ∃ outer c inner, path = outer ++ c :: inner ∧
    (c = .fieldAlias ∧ WithinField outer ∨ c = .tableAlias ∧ .tableAlias ∈ outer)

section

variable {path : List Clause} {c : Clause}

/-- A clause of a longer path is the last one or one of the shorter path. -/
theorem concat_eq_append_cons {outer inner : List Clause} {x : Clause} :
    path ++ [c] = outer ++ x :: inner ↔
      (∃ inner', path = outer ++ x :: inner' ∧ inner = inner' ++ [c]) ∨
        outer = path ∧ x = c ∧ inner = [] := by
  constructor
  · intro h
    rcases cut_append h with ⟨inner', hpath, rfl⟩ | ⟨outer', rfl, hc⟩
    · exact .inl ⟨inner', hpath, rfl⟩
    · cases outer' with
      | nil =>
        cases hc
        exact .inr ⟨List.append_nil path, rfl, rfl⟩
      | cons y outer' => simp at hc
  · rintro (⟨inner', rfl, rfl⟩ | ⟨rfl, rfl, rfl⟩)
    · simp
    · rfl

theorem withinField_concat :
    WithinField (path ++ [c]) ↔ c.wrapsFields = true ∨ c.isSlot = false ∧ WithinField path := by
  constructor
  · rintro ⟨outer, x, inner, hpath, hx, hinner⟩
    rcases concat_eq_append_cons.1 hpath with ⟨inner', rfl, rfl⟩ | ⟨-, rfl, -⟩
    · rw [List.forall_mem_append] at hinner
      exact .inr ⟨hinner.2 c (List.mem_singleton_self c), outer, x, inner', rfl, hx, hinner.1⟩
    · exact .inl hx
  · rintro (hc | ⟨hc, outer, x, inner, rfl, hx, hinner⟩)
    · exact ⟨path, c, [], rfl, hc, by simp⟩
    · refine ⟨outer, x, inner ++ [c], by simp, hx, ?_⟩
      simpa [or_imp, forall_and, hc] using hinner

theorem stacked_concat :
    Stacked (path ++ [c]) ↔
      Stacked path ∨ c = .fieldAlias ∧ WithinField path ∨ c = .tableAlias ∧ .tableAlias ∈ path := by
  constructor
  · rintro ⟨outer, x, inner, hpath, hx⟩
    rcases concat_eq_append_cons.1 hpath with ⟨inner', rfl, -⟩ | ⟨rfl, rfl, -⟩
    · exact .inl ⟨outer, x, inner', rfl, hx⟩
    · exact .inr hx
  · rintro (⟨outer, x, inner, rfl, hx⟩ | hc)
    · exact ⟨outer, x, inner ++ [c], by simp, hx⟩
    · exact ⟨path, c, [], rfl, hc⟩

/-- What is stacked remains so further inside. -/
theorem Stacked.append (h : Stacked path) (inner : List Clause) : Stacked (path ++ inner) := by
  obtain ⟨outer, c, inner', rfl, hc⟩ := h
  exact ⟨outer, c, inner' ++ inner, by simp, hc⟩

end

/-- Nothing is stacked, and no table alias is open: where a list may begin. -/
structure Clear (path : List Clause) : Prop where
  not_stacked : ¬ Stacked path
  not_mem : Clause.tableAlias ∉ path

theorem Clear.nil : Clear [] where
  not_stacked := by
    rintro ⟨outer, c, inner, hpath, -⟩
    simp at hpath
  not_mem := by simp

/-- Only an alias can stack. -/
theorem Clear.concat {path : List Clause} {c : Clause} (h : Clear path)
    (hc : c.isAlias = false) : Clear (path ++ [c]) where
  not_stacked := by
    rw [stacked_concat]
    rintro (hpath | ⟨rfl, -⟩ | ⟨rfl, -⟩)
    · exact h.not_stacked hpath
    · cases hc
    · cases hc
  not_mem := by
    rw [List.mem_append, List.mem_singleton]
    rintro (hpath | rfl)
    · exact h.not_mem hpath
    · cases hc

/-! ## Scripts that stack -/

mutual

/-- An action that is performed inside open clauses and under given modes comes to a stacked
path. -/
def Action.Stacks (path : List Clause) (m : Modes) : Action → Prop
  | .visit part body =>
    Stacked (path ++ part.tags m) ∨ Script.Stacks (path ++ part.tags m) m body
  | .within c body => Stacked (path ++ [c]) ∨ Script.Stacks (path ++ [c]) m body
  | .switch mode on body => Script.Stacks path (m.switch mode on) body
  | .assume type body => Script.Stacks path (m.assume type) body
  | .whenOn mode body => m.isOn mode = true ∧ Script.Stacks path m body
  | _ => False

/-- A script comes to a stacked path. -/
def Script.Stacks (path : List Clause) (m : Modes) : List Action → Prop
  | [] => False
  | a :: as => a.Stacks path m ∨ Script.Stacks path m as

end

theorem Script.stacks_iff {path : List Clause} {m : Modes} (as : Script) :
    Script.Stacks path m as ↔ ∃ a ∈ as, a.Stacks path m := by
  induction as with
  | nil => simp [Script.Stacks]
  | cons a as ih => simp [Script.Stacks, ih]

open Move

/-- Tags around bracketed moves are seen as a whole before what they surround is. -/
theorem Bracketed.exists_stacked_tags {mvs : List Move} (h : Bracketed mvs) (d : Dialect)
    (m : Modes) {part : Option Part} (hpart : ∀ p ∈ part, p.target = p) (tags : List Clause)
    {path : List Clause} (hpath : ¬ Stacked path) :
    (∃ e ∈ events d path (tags.map (fun c => ⟨m, .start part c⟩) ++
        (mvs ++ tags.reverse.map (fun c => ⟨m, .close part c⟩))), Stacked e.path) ↔
      Stacked (path ++ tags) ∨ ∃ e ∈ events d (path ++ tags) mvs, Stacked e.path := by
  induction tags generalizing path with
  | nil => simp [hpath]
  | cons c tags ih =>
    have hbracketed := h.tags m hpart tags
    have hpaths : path ++ c :: tags = path ++ [c] ++ tags := by simp
    have hevents := hbracketed.events_clause d path m part c
    have hmoves : (c :: tags).map (fun c => (⟨m, .start part c⟩ : Move)) ++
        (mvs ++ (c :: tags).reverse.map (fun c => ⟨m, .close part c⟩)) =
          ⟨m, .start part c⟩ :: (tags.map (fun c => ⟨m, .start part c⟩) ++
            (mvs ++ tags.reverse.map (fun c => ⟨m, .close part c⟩)) ++ [⟨m, .close part c⟩]) := by
      simp
    rw [hmoves, hevents, hpaths]
    by_cases hc : Stacked (path ++ [c])
    · have hstart : Stacked (m.event d .clauseStart part (path ++ [c])).path := hc
      exact iff_of_true ⟨_, List.mem_cons_self, hstart⟩ (.inl (hc.append tags))
    · rw [← ih hc]
      have hevent : ∀ kind, ¬ Stacked (m.event d kind part (path ++ [c])).path := fun _ => hc
      simp [or_and_right, exists_or, hevent]

mutual

/-- **The events of a straight action come to a stacked path exactly if the action does.** -/
theorem Action.Straight.exists_stacked (d : Dialect) {m : Modes} {path : List Clause}
    (hpath : ¬ Stacked path) : ∀ {a : Action}, a.Straight →
      ((∃ e ∈ events d path (a.moves m), Stacked e.path) ↔ a.Stacks path m)
  | .text _, _ | .keyword _, _ | .ident _, _ | .bind _, _ | .literal _ _, _ | .fail _, _
  | .note _ _, _ => by simp [Action.moves, events, event?, Action.Stacks]
  | .visit part body, h => by
    have hbody : Bracketed (Script.moves m body) := Script.Straight.bracketed h.2
    have hpart : ∀ p ∈ some part, p.target = p := fun p hp => by cases hp; exact h.1
    have htags := hbody.exists_stacked_tags d m hpart (part.tags m) hpath
    have hevents := (hbody.tags m hpart (part.tags m)).events_visit d path m part
    have hmoves : (Action.visit part body).moves m = ⟨m, .enter part⟩ ::
        ((part.tags m).map (fun c => ⟨m, .start (some part) c⟩) ++ (Script.moves m body ++
          (part.tags m).reverse.map (fun c => ⟨m, .close (some part) c⟩)) ++
            [⟨m, .leave part⟩]) := by
      simp [Action.moves]
    have hevent : ∀ kind, ¬ Stacked (m.event d kind (some part) path).path := fun _ => hpath
    rw [hmoves, hevents, Action.Stacks]
    by_cases hstacked : Stacked (path ++ part.tags m)
    · obtain ⟨e, he, hstackede⟩ := htags.2 (.inl hstacked)
      have hmem := List.mem_cons_of_mem (m.event d .visitStart (some part) path)
        (List.mem_append_left [m.event d .visitEnd (some part) path] he)
      exact iff_of_true ⟨e, hmem, hstackede⟩ (.inl hstacked)
    · rw [← Script.Straight.exists_stacked d hstacked h.2]
      simp only [hstacked, false_or] at htags ⊢
      rw [← htags]
      simp [or_and_right, exists_or, hevent]
  | .within c body, h => by
    have hbody : Bracketed (Script.moves m body) := Script.Straight.bracketed h
    have hpart : ∀ p ∈ (none : Option Part), p.target = p := fun _ hp => nomatch hp
    have htags := hbody.exists_stacked_tags d m hpart [c] hpath
    rw [Action.Stacks]
    by_cases hstacked : Stacked (path ++ [c])
    · exact iff_of_true (htags.2 (.inl hstacked)) (.inl hstacked)
    · rw [← Script.Straight.exists_stacked d hstacked h]
      exact htags
  | .switch _ _ _, h => Script.Straight.exists_stacked d hpath h
  | .assume _ _, h => Script.Straight.exists_stacked d hpath h
  | .whenOn mode body, h => by
    rw [Action.moves, Action.Stacks]
    split
    · next hon => simpa [hon] using Script.Straight.exists_stacked d hpath h
    · next hoff => simp [hoff, events]

/-- The events of a straight script come to a stacked path exactly if the script does. -/
theorem Script.Straight.exists_stacked (d : Dialect) {m : Modes} {path : List Clause}
    (hpath : ¬ Stacked path) : ∀ {as : List Action}, Script.Straight as →
      ((∃ e ∈ events d path (Script.moves m as), Stacked e.path) ↔ Script.Stacks path m as)
  | [], _ => by simp [Script.moves, events, Script.Stacks]
  | a :: as, h => by
    have ha := Action.Straight.exists_stacked d (m := m) hpath h.1
    have has := Script.Straight.exists_stacked d (m := m) hpath h.2
    have hbracketed : Bracketed (a.moves m) := Action.Straight.bracketed h.1
    rw [Script.moves, events_append, hbracketed.walkAll_eq, Script.Stacks, ← ha, ← has]
    simp [or_and_right, exists_or]

end

/-! ### Scripts by their actions -/

namespace Action

variable {path : List Clause} {m : Modes}

@[simp] theorem stacks_text (s : String) : ¬ (text s).Stacks path m := id

@[simp] theorem stacks_keyword (word : String) : ¬ (keyword word).Stacks path m := id

@[simp] theorem stacks_ident (name : String) : ¬ (ident name).Stacks path m := id

@[simp] theorem stacks_bind (p : Param) : ¬ (bind p).Stacks path m := id

@[simp] theorem stacks_fail (e : RenderError) : ¬ (fail e).Stacks path m := id

theorem stacks_visit (part : Part) (body : Script) :
    (visit part body).Stacks path m ↔
      Stacked (path ++ part.tags m) ∨ Script.Stacks (path ++ part.tags m) m body := Iff.rfl

theorem stacks_within (c : Clause) (body : Script) :
    (within c body).Stacks path m ↔
      Stacked (path ++ [c]) ∨ Script.Stacks (path ++ [c]) m body := Iff.rfl

@[simp] theorem stacks_switch (mode : Mode) (on : Bool) (body : Script) :
    (switch mode on body).Stacks path m ↔ Script.Stacks path (m.switch mode on) body := Iff.rfl

@[simp] theorem stacks_assume (type : Option DataType) (body : Script) :
    (assume type body).Stacks path m ↔ Script.Stacks path (m.assume type) body := Iff.rfl

@[simp] theorem stacks_whenOn (mode : Mode) (body : Script) :
    (whenOn mode body).Stacks path m ↔ m.isOn mode = true ∧ Script.Stacks path m body := Iff.rfl

end Action

namespace Script

variable {path : List Clause} {m : Modes}

@[simp] theorem stacks_nil : ¬ Script.Stacks path m [] := id

@[simp] theorem stacks_cons (a : Action) (as : Script) :
    Script.Stacks path m (a :: as) ↔ a.Stacks path m ∨ Script.Stacks path m as := Iff.rfl

@[simp] theorem stacks_append (as bs : Script) :
    Script.Stacks path m (as ++ bs) ↔ Script.Stacks path m as ∨ Script.Stacks path m bs := by
  simp only [stacks_iff, List.mem_append, or_and_right, exists_or]

theorem stacks_map {α : Type} (f : α → Action) (as : List α) :
    Script.Stacks path m (as.map f) ↔ ∃ a ∈ as, (f a).Stacks path m := by
  induction as with
  | nil => simp
  | cons a as ih => simp [ih]

theorem stacks_flatMap {α : Type} (f : α → Script) (as : List α) :
    Script.Stacks path m (as.flatMap f) ↔ ∃ a ∈ as, Script.Stacks path m (f a) := by
  induction as with
  | nil => simp
  | cons a as ih => simp [ih]

/-- Separators open nothing. -/
theorem stacks_intersperse {a : Action} (ha : ¬ a.Stacks path m) :
    ∀ as : Script, Script.Stacks path m (as.intersperse a) ↔ Script.Stacks path m as
  | [] => Iff.rfl
  | [_] => Iff.rfl
  | b :: c :: as => by
    rw [List.intersperse_cons_cons, stacks_cons, stacks_cons, stacks_intersperse ha]
    simp [ha]

@[simp] theorem stacks_separated (separator : String) (as : Script) :
    Script.Stacks path m (Script.separated separator as) ↔ Script.Stacks path m as :=
  stacks_intersperse id as

@[simp] theorem stacks_listed (as : Script) :
    Script.Stacks path m (Script.listed as) ↔ Script.Stacks path m as :=
  stacks_separated ", " as

@[simp] theorem stacks_identList (names : List String) :
    ¬ Script.Stacks path m (identList names) := by
  have hcomma : ¬ (Action.text ", ").Stacks path m := id
  simp [identList, stacks_intersperse hcomma, stacks_map]

@[simp] theorem stacks_layout (op : Connective) (operands : Script) :
    Script.Stacks path m (op.layout operands) ↔ Script.Stacks path m operands := by
  unfold Connective.layout
  split <;> simp

@[simp] theorem stacks_ifAny (word : String) (items : Script) :
    Script.Stacks path m (Script.ifAny word items) ↔ Script.Stacks path m items := by
  unfold Script.ifAny
  split
  · next h => rw [List.isEmpty_iff.1 h]
  · simp

variable (d : Dialect)

@[simp] theorem stacks_require (f : Feature) (c : Clause) :
    ¬ Script.Stacks path m (Script.require d f c) := by
  unfold Script.require
  split <;> simp

@[simp] theorem stacks_checkDegree (c : Clause) (expected found : Nat) :
    ¬ Script.Stacks path m (Script.checkDegree d c expected found) := by
  unfold Script.checkDegree
  split <;> simp

@[simp] theorem stacks_failEmpty (c : Clause) :
    ¬ Script.Stacks path m (Script.failEmpty d c) := by
  simp [Script.failEmpty]

@[simp] theorem stacks_hierarchical (c : Clause) (condition : Script) :
    Script.Stacks path m (Script.hierarchical d c condition) ↔ Script.Stacks path m condition := by
  unfold Script.hierarchical
  split <;> simp

end Script

/-! ## Fields and tables that stack -/

mutual

/-- Whether a field is an alias, or a row with an alias somewhere in it. -/
def Field.hasAlias : Field → Bool
  | .column _ | .value _ => false
  | .aliased _ _ => true
  | .row fields => Field.haveAlias fields

/-- Whether one of several fields has an alias. -/
def Field.haveAlias : List Field → Bool
  | [] => false
  | f :: fs => f.hasAlias || Field.haveAlias fs

end

/-- Whether the declaration of a field declares an alias inside of an alias or a row. -/
def Field.stacks : Field → Bool
  | .column _ | .value _ => false
  | .aliased f _ => f.hasAlias
  | .row fields => Field.haveAlias fields

/-- Whether a table is an alias. -/
def Table.isAlias : Table → Bool
  | .aliased _ _ _ => true
  | _ => false

/-- Whether the declaration of a table declares an alias inside of an alias. -/
def Table.stacks : Table → Bool
  | .aliased t _ _ => t.isAlias
  | _ => false

section

variable {path : List Clause} {m : Modes}

/-- A field's own tags stack only as those of an alias. -/
theorem stacked_field (hpath : ¬ Stacked path) {c : Clause} (hc : c ≠ .tableAlias) :
    Stacked (path ++ [.field, c]) ↔ c = .fieldAlias ∧ WithinField path := by
  rw [List.append_cons, stacked_concat, stacked_concat, withinField_concat]
  simp [hpath, hc, Clause.wrapsFields, Clause.isSlot]

theorem withinField_fieldAlias : WithinField (path ++ [.field, .fieldAlias]) := by
  rw [List.append_cons, withinField_concat]
  exact .inl rfl

theorem withinField_fieldRow : WithinField (path ++ [.fieldRow]) :=
  withinField_concat.2 (.inl rfl)

theorem not_stacked_fieldRow (hpath : ¬ Stacked path) : ¬ Stacked (path ++ [.fieldRow]) := by
  simp [stacked_concat, hpath]

/-- A table's own tags stack only as those of an alias. -/
theorem stacked_table (hpath : ¬ Stacked path) {c : Clause} (hc : c ≠ .fieldAlias) :
    Stacked (path ++ [.table, c]) ↔ c = .tableAlias ∧ .tableAlias ∈ path := by
  rw [List.append_cons, stacked_concat, stacked_concat]
  simp [hpath, hc]

variable (d : Dialect)

/-! ### One declaration -/

theorem Field.not_stacks_visit_column (hpath : ¬ Stacked path) (c : Column) :
    ¬ ((Field.column c).visit d).Stacks path m := by
  have htags := stacked_field hpath (c := .fieldReference) (by decide)
  cases hq : c.qualifier <;>
    simp [Field.visit, Field.asPart, Action.stacks_visit, Part.tags, Field.tags, htags, Field.body,
      Column.body, hq]

theorem Field.not_stacks_visit_value (hpath : ¬ Stacked path) (p : Param) :
    ¬ ((Field.value p).visit d).Stacks path m := by
  have htags := stacked_field hpath (c := .fieldValue) (by decide)
  simp [Field.visit, Field.asPart, Action.stacks_visit, Part.tags, Field.tags, htags, Field.body]

/-- An alias that is declared stacks inside of another field, or if what it stands for does. -/
theorem Field.stacks_visit_aliased (hpath : ¬ Stacked path) (f : Field) (name : String) :
    ((Field.aliased f name).visit d).Stacks path m ↔
      m.declareFields = true ∧
        (WithinField path ∨ (f.visit d).Stacks (path ++ [.field, .fieldAlias]) m) := by
  let part : Part := .field (.aliased f name)
  have hbody : ∀ path, Script.Stacks path m (Field.body d (.aliased f name)) ↔
      m.declareFields = true ∧ (f.visit d).Stacks path m := fun path => by
    have hvisit : Action.visit f.asPart (f.body d) = f.visit d := rfl
    simp [Field.body, hvisit, Modes.isOn]
  have halias := stacked_field hpath (c := .fieldAlias) (by decide)
  have hreference := stacked_field hpath (c := .fieldReference) (by decide)
  show Stacked (path ++ part.tags m) ∨ Script.Stacks (path ++ part.tags m) m _ ↔ _
  rw [hbody]
  cases hm : m.declareFields <;> simp [part, Part.tags, Field.tags, hm, halias, hreference]

theorem Field.stacks_visit_row (hpath : ¬ Stacked path) (fields : List Field) :
    ((Field.row fields).visit d).Stacks path m ↔
      Script.Stacks (path ++ [.fieldRow]) m (Field.visits d fields) := by
  have hbody : Script.Stacks (path ++ [.fieldRow]) m (Row.layout d (Field.visits d fields)) ↔
      Script.Stacks (path ++ [.fieldRow]) m (Field.visits d fields) := by
    unfold Row.layout
    split
    · next h => simp [List.isEmpty_iff.1 h]
    · simp
  rw [← hbody]
  exact or_iff_right (not_stacked_fieldRow hpath)

/-- A table alias that is declared stacks inside of another one, or if what it stands for does. -/
theorem Table.stacks_visit_aliased (hpath : ¬ Stacked path) (t : Table) (name : String)
    (columns : List String) :
    ((Table.aliased t name columns).visit d).Stacks path m ↔
      m.declareTables = true ∧
        (.tableAlias ∈ path ∨ (t.visit d).Stacks (path ++ [.table, .tableAlias]) m) := by
  let part : Part := .table (.aliased t name columns)
  have hbody : ∀ path, Script.Stacks path m (Table.body d (.aliased t name columns)) ↔
      m.declareTables = true ∧ (t.visit d).Stacks path m := fun path => by
    have hvisit : Action.visit (.table t) (t.body d) = t.visit d := rfl
    simp only [Table.body, hvisit]
    split <;> split <;> simp [Modes.isOn]
  have halias := stacked_table hpath (c := .tableAlias) (by decide)
  have hreference := stacked_table hpath (c := .tableReference) (by decide)
  show Stacked (path ++ part.tags m) ∨ Script.Stacks (path ++ part.tags m) m _ ↔ _
  rw [hbody]
  cases hm : m.declareTables <;> simp [part, Part.tags, Table.tags, hm, halias, hreference]

/-! ### Lists of declarations -/

mutual

/-- Inside of an alias or a row every alias stacks that is declared. -/
theorem Field.stacks_visit_within {path : List Clause} (hpath : ¬ Stacked path)
    (hwithin : WithinField path) : ∀ f : Field,
      (f.visit d).Stacks path m ↔ m.declareFields = true ∧ f.hasAlias = true
  | .column c => by simp [Field.not_stacks_visit_column d hpath, Field.hasAlias]
  | .value p => by simp [Field.not_stacks_visit_value d hpath, Field.hasAlias]
  | .aliased f name => by simp [Field.stacks_visit_aliased d hpath, hwithin, Field.hasAlias]
  | .row fields => by
    rw [Field.stacks_visit_row d hpath, Field.hasAlias]
    exact Field.stacks_visits_within (not_stacked_fieldRow hpath) withinField_fieldRow fields

theorem Field.stacks_visits_within {path : List Clause} (hpath : ¬ Stacked path)
    (hwithin : WithinField path) : ∀ fs : List Field,
      Script.Stacks path m (Field.visits d fs) ↔ m.declareFields = true ∧ Field.haveAlias fs = true
  | [] => by simp [Field.visits, Field.haveAlias]
  | f :: fs => by
    have hf := Field.stacks_visit_within hpath hwithin f
    have hfs := Field.stacks_visits_within hpath hwithin fs
    rw [Field.visits, Script.stacks_cons, hfs, Field.haveAlias, Bool.or_eq_true, and_or_left, ← hf]
    rfl

end

/-- The declaration of a field in a list of its slot. -/
theorem Field.stacks_visit (hpath : ¬ Stacked path) (hwithin : ¬ WithinField path) (f : Field) :
    (f.visit d).Stacks path m ↔ m.declareFields = true ∧ f.stacks = true := by
  cases f with
  | column c => simp [Field.not_stacks_visit_column d hpath, Field.stacks]
  | value p => simp [Field.not_stacks_visit_value d hpath, Field.stacks]
  | aliased f name =>
    have halias : ¬ Stacked (path ++ [.field, .fieldAlias]) := by
      simp [stacked_field hpath, hwithin]
    rw [Field.stacks_visit_aliased d hpath,
      Field.stacks_visit_within d halias withinField_fieldAlias, Field.stacks]
    simp [hwithin]
  | row fields =>
    rw [Field.stacks_visit_row d hpath, Field.stacks]
    exact Field.stacks_visits_within d (not_stacked_fieldRow hpath) withinField_fieldRow fields

/-- Where no fields are declared no field stacks. -/
theorem Field.not_stacks_visit (hm : m.declareFields = false) (hpath : ¬ Stacked path) (f : Field) :
    ¬ (f.visit d).Stacks path m := by
  by_cases hwithin : WithinField path
  · simp [Field.stacks_visit_within d hpath hwithin, hm]
  · simp [Field.stacks_visit d hpath hwithin, hm]

theorem Field.not_stacks_map_visit (hm : m.declareFields = false) (hpath : ¬ Stacked path)
    (fs : List Field) : ¬ Script.Stacks path m (fs.map (Field.visit d)) := by
  simp [Script.stacks_map, Field.not_stacks_visit d hm hpath]

theorem Row.not_stacks_map_visit (hm : m.declareFields = false) (hpath : ¬ Stacked path)
    (rows : List Row) : ¬ Script.Stacks path m (rows.map (Row.visit d)) := by
  have hrow : ∀ r, ¬ (Row.visit d r).Stacks path m := fun r =>
    Field.not_stacks_visit d hm hpath (.row r)
  simp [Script.stacks_map, hrow]

/-- A table that is no alias does not stack; its values are no declarations. -/
theorem Table.not_stacks_visit (hm : m.declareFields = false) (hpath : ¬ Stacked path) {t : Table}
    (ht : t.isAlias = false) : ¬ (t.visit d).Stacks path m := by
  cases t with
  | named schema name =>
    have htags := stacked_table hpath (c := .tableReference) (by decide)
    cases schema <;>
      simp [Table.visit, Action.stacks_visit, Part.tags, Table.tags, htags, Table.body]
  | aliased t name columns => cases ht
  | values rows =>
    have htags : ¬ Stacked (path ++ [.table, .tableValues]) := by simp [stacked_table hpath]
    have hrows := Row.not_stacks_map_visit d hm htags rows
    cases rows with
    | nil => simp [Table.visit, Action.stacks_visit, Part.tags, Table.tags, htags, Table.body]
    | cons first rest =>
      simp only [Table.visit, Action.stacks_visit, Part.tags, Table.tags, htags, Table.body,
        Script.stacks_append, Script.stacks_flatMap, Script.stacks_listed, hrows]
      simp
  | dual =>
    have htags : ¬ Stacked (path ++ [.table]) := by simp [stacked_concat, hpath]
    simp [Table.visit, Action.stacks_visit, Part.tags, Table.tags, htags, Table.body]

/-- Inside of an alias a table stacks if it is an alias that is declared. -/
theorem Table.stacks_visit_within (hm : m.declareFields = false) (hpath : ¬ Stacked path)
    (hwithin : Clause.tableAlias ∈ path) (t : Table) :
    (t.visit d).Stacks path m ↔ m.declareTables = true ∧ t.isAlias = true := by
  cases t with
  | aliased t name columns => simp [Table.stacks_visit_aliased d hpath, hwithin, Table.isAlias]
  | _ => exact iff_of_false (Table.not_stacks_visit d hm hpath rfl) (by simp [Table.isAlias])

/-- The declaration of a table in a list of its slot. -/
theorem Table.stacks_visit (hm : m.declareFields = false) (hpath : Clear path) (t : Table) :
    (t.visit d).Stacks path m ↔ m.declareTables = true ∧ t.stacks = true := by
  cases t with
  | aliased t name columns =>
    have halias : ¬ Stacked (path ++ [.table, .tableAlias]) := by
      simp [stacked_table hpath.not_stacked, hpath.not_mem]
    rw [Table.stacks_visit_aliased d hpath.not_stacked,
      Table.stacks_visit_within d hm halias (by simp), Table.stacks]
    simp [hpath.not_mem]
  | _ =>
    exact iff_of_false (Table.not_stacks_visit d hm hpath.not_stacked rfl) (by simp [Table.stacks])

end

/-! ## Selects that stack -/

/-- The declarations of a select, one of which stacks. -/
def Select.Stacks (s : Select) : Prop :=
  (∃ f ∈ s.fields, f.stacks = true) ∨ ∃ t ∈ s.tables, t.stacks = true

theorem Clear.condition {path : List Clause} (h : Clear path) (m : Modes) (c : Condition) :
    Clear (path ++ (Part.condition c).tags m) := by
  rw [Part.tags, List.append_cons]
  exact (h.concat rfl).concat c.isAlias_clause

section

variable {path : List Clause} {m : Modes} (d : Dialect)

theorem not_withinField_slot {c : Clause} (hslot : c.isSlot = true) :
    ¬ WithinField (path ++ [c]) := by
  rw [withinField_concat, hslot, Clause.wrapsFields_of_isSlot hslot]
  simp

/-- The fields of a list that is declared in its slot. -/
theorem Field.stacks_declared (slot : Clause) (hslot : slot.declaresFields = true)
    (hpath : Clear path) (fields : List Field) :
    Script.Stacks (path ++ [slot]) (m.switch .declareFields true)
        (Script.listed (fields.map (Field.visit d))) ↔ ∃ f ∈ fields, f.stacks = true := by
  have hclear : ¬ Stacked (path ++ [slot]) :=
    (hpath.concat (by cases slot <;> first | rfl | cases hslot)).not_stacked
  have hwithin : ¬ WithinField (path ++ [slot]) :=
    not_withinField_slot (by cases slot <;> first | rfl | cases hslot)
  have hon : (m.switch .declareFields true).declareFields = true := rfl
  simp [Script.stacks_map, Field.stacks_visit d hclear hwithin, hon]

/-- A table that is declared in its slot. -/
theorem Table.stacks_declared (slot : Clause) (hslot : slot.declaresTables = true)
    (hm : m.declareFields = false) (hpath : Clear path) (t : Table) :
    (t.visit d).Stacks (path ++ [slot]) (m.switch .declareTables true) ↔ t.stacks = true := by
  have hclear : Clear (path ++ [slot]) :=
    hpath.concat (by cases slot <;> first | rfl | cases hslot)
  have hoff : (m.switch .declareTables true).declareFields = false := hm
  have hon : (m.switch .declareTables true).declareTables = true := rfl
  simp [Table.stacks_visit d hoff hclear, hon]

theorem Select.stacks_layoutFields (hpath : Clear path) (distinct : Bool) (fields : List Field) :
    Script.Stacks (path ++ [.selectSelect]) m (Select.layoutFields d distinct fields) ↔
      ∃ f ∈ fields, f.stacks = true := by
  have hfields := Field.stacks_declared d (m := m) .selectSelect rfl hpath fields
  cases fields with
  | nil => simp [Select.layoutFields]
  | cons f fs => simpa [Select.layoutFields] using hfields

variable (hm : m.declareFields = false)

include hm

theorem Select.stacks_layoutTables (hpath : Clear path) (tables : List Table) :
    Script.Stacks (path ++ [.selectFrom]) m (Select.layoutTables d tables) ↔
      ∃ t ∈ tables, t.stacks = true := by
  have hclear : Clear (path ++ [.selectFrom]) := hpath.concat rfl
  have hdual : ¬ (Table.dual.visit d).Stacks (path ++ [.selectFrom]) m :=
    Table.not_stacks_visit d hm hclear.not_stacked rfl
  have htables : ∀ t : Table,
      (t.visit d).Stacks (path ++ [.selectFrom]) (m.switch .declareTables true) ↔
        t.stacks = true := Table.stacks_declared d .selectFrom rfl hm hpath
  unfold Select.layoutTables
  split
  · next h =>
    rw [List.isEmpty_iff.1 h]
    split <;> simp [hdual]
  · simp [Script.stacks_map, htables]

theorem SortField.not_stacks_map_visit (hpath : ¬ Stacked path) (fs : List SortField) :
    ¬ Script.Stacks path m (fs.map (SortField.visit d)) := by
  have hvisit : ∀ s : SortField, ¬ (s.visit d).Stacks path m := by
    intro s
    have hf := Field.not_stacks_visit d hm hpath s.field
    simp [SortField.visit, Action.stacks_visit, Part.tags, hpath, SortField.body, hf]
  simp [Script.stacks_map, hvisit]

theorem Condition.not_stacks_layoutIn (hpath : ¬ Stacked path) (f : Field) (values : List Field)
    (negated : Bool) : ¬ Script.Stacks path m (Condition.layoutIn d f values negated) := by
  have hvalues := Field.not_stacks_map_visit d (m := m.assume f.dataType) hm hpath values
  unfold Condition.layoutIn
  dsimp only
  split
  · simp
  · simp [Script.stacks_flatMap, Field.not_stacks_visit d hm hpath, hvalues]

theorem Condition.not_stacks_layoutBetween (hpath : ¬ Stacked path) (clause : Clause)
    (f low high : Field) (negated symmetric : Bool) :
    ¬ Script.Stacks path m (Condition.layoutBetween d clause f low high negated symmetric) := by
  have hbound : ∀ g : Field, ¬ (g.visit d).Stacks path (m.assume f.dataType) :=
    Field.not_stacks_visit d hm hpath
  cases negated <;> cases symmetric <;>
    simp [Condition.layoutBetween, Field.not_stacks_visit d hm hpath, hbound]

end

section

variable (d : Dialect)

mutual

/-- What is written for a condition stacks where a select in it does. -/
theorem Condition.stacks_body {m : Modes} (hm : m.declareFields = false) {path : List Clause}
    (hpath : Clear path) : ∀ c : Condition,
    Script.Stacks path m (c.body d) ↔ ∃ s ∈ c.selects, s.Stacks
  | .comparison left op right => by
    have hleft := Field.not_stacks_visit d (m := m.assume right.dataType) hm hpath.not_stacked left
    have hright := Field.not_stacks_visit d (m := m.assume left.dataType) hm hpath.not_stacked right
    simp [Condition.body, Condition.selects, hleft, hright]
  | .not c => by
    have htags := hpath.condition m c
    have hc := Condition.stacks_body hm htags c
    simp [Condition.body, Condition.selects, Action.stacks_visit, htags.not_stacked, hc]
  | .combined op conditions => by
    rw [Condition.body, Script.stacks_layout, Condition.selects,
      Condition.stacks_visits hm hpath conditions]
  | .isNull f negated => by
    simp [Condition.body, Condition.selects, Field.not_stacks_visit d hm hpath.not_stacked]
  | .isIn f values negated => by
    simp [Condition.body, Condition.selects,
      Condition.not_stacks_layoutIn d hm hpath.not_stacked]
  | .between f low high negated symmetric => by
    simp [Condition.body, Condition.selects,
      Condition.not_stacks_layoutBetween d hm hpath.not_stacked]
  | .exists q negated => by
    simp [Condition.body, Condition.selects, Query.stacks_visits hm hpath q]

theorem Condition.stacks_visits {m : Modes} (hm : m.declareFields = false) {path : List Clause}
    (hpath : Clear path) : ∀ cs : List Condition,
    Script.Stacks path m (Condition.visits d cs) ↔ ∃ s ∈ Condition.selectsIn cs, s.Stacks
  | [] => by simp [Condition.visits, Condition.selectsIn]
  | c :: cs => by
    have htags := hpath.condition m c
    have hc := Condition.stacks_body hm htags c
    simp [Condition.visits, Condition.selectsIn, Action.stacks_visit, htags.not_stacked, hc,
      Condition.stacks_visits hm hpath cs, or_and_right, exists_or]

theorem Condition.stacks_slot {m : Modes} (hm : m.declareFields = false) {path : List Clause}
    (hpath : Clear path) (word : String) :
    ∀ c : Option Condition,
      Script.Stacks path m (Condition.slot d word c) ↔ ∃ s ∈ Condition.selectsOf c, s.Stacks
  | none => by simp [Condition.slot, Condition.selectsOf]
  | some c => by
    have htags := hpath.condition m c
    have hc := Condition.stacks_body hm htags c
    simp [Condition.slot, Condition.selectsOf, Action.stacks_visit, htags.not_stacked, hc]

theorem Query.stacks_visits {m : Modes} (hm : m.declareFields = false) {path : List Clause}
    (hpath : Clear path) : ∀ q : Query,
    Script.Stacks path m (q.visits d) ↔ ∃ s ∈ q.selects, s.Stacks
  | .select s => by
    have htags : Clear (path ++ [.select]) := hpath.concat rfl
    have hs := Select.stacks_body hm htags s
    simp [Query.visits, Query.selects, Action.stacks_visit, Part.tags, htags.not_stacked, hs]
  | .unionAll selects => by
    have htags : Clear (path ++ [.selectUnionAll]) := hpath.concat rfl
    have ih := Select.stacks_visits hm htags selects
    rw [Query.visits, Script.stacks_cons, Action.stacks_visit, Query.selects]
    split
    · next h =>
      rw [List.isEmpty_iff.1 h]
      simp [Part.tags, htags.not_stacked, Select.selectsIn]
    · simpa [Part.tags, htags.not_stacked] using ih

/-- What is written for a select stacks where the select does, or one in its conditions. -/
theorem Select.stacks_body {m : Modes} (hm : m.declareFields = false) {path : List Clause}
    (hpath : Clear path) : ∀ s : Select,
    Script.Stacks path m (s.body d) ↔ s.Stacks ∨ ∃ q ∈ s.nested, q.Stacks
  | { distinct, fields, tables, filter, startWith, connectBy, groupBy, having, orderBy } => by
    have hclear : ∀ c : Clause, c.isAlias = false → Clear (path ++ [c]) := fun _ => hpath.concat
    have hselect := hclear .selectSelect rfl
    have hfrom := hclear .selectFrom rfl
    have hwhere := hclear .selectWhere rfl
    have hstart := hclear .selectStartWith rfl
    have hconnect := hclear .selectConnectBy rfl
    have hgroup := hclear .selectGroupBy rfl
    have hhaving := hclear .selectHaving rfl
    have horder := hclear .selectOrderBy rfl
    rw [Select.body, Select.nested, Select.Stacks]
    simp only [Script.stacks_cons, Script.stacks_nil, Action.stacks_within, hselect.not_stacked,
      hfrom.not_stacked, hwhere.not_stacked, hstart.not_stacked, hconnect.not_stacked,
      hgroup.not_stacked, hhaving.not_stacked, horder.not_stacked, false_or, or_false,
      Select.stacks_layoutFields d hpath, Select.stacks_layoutTables d hm hpath,
      Condition.stacks_slot hm hwhere, Script.stacks_hierarchical, Condition.stacks_slot hm hstart,
      Condition.stacks_slot hm hconnect, Condition.stacks_slot hm hhaving, Script.stacks_ifAny,
      Field.not_stacks_map_visit d hm hgroup.not_stacked,
      SortField.not_stacks_map_visit d hm horder.not_stacked, List.mem_append, or_and_right,
      exists_or, or_assoc]

theorem Select.stacks_visits {m : Modes} (hm : m.declareFields = false) {path : List Clause}
    (hpath : Clear path) : ∀ ss : List Select,
    Script.Stacks path m (Select.visits d ss) ↔ ∃ s ∈ Select.selectsIn ss, s.Stacks
  | [] => by simp [Select.visits, Select.selectsIn]
  | s :: ss => by
    have htags : Clear (path ++ [.select]) := hpath.concat rfl
    have hs := Select.stacks_body hm htags s
    simp [Select.visits, Select.selectsIn, Action.stacks_visit, Part.tags, htags.not_stacked, hs,
      Select.stacks_visits hm hpath ss, or_and_right, exists_or, or_assoc]

end

theorem Query.stacks_visit {m : Modes} (hm : m.declareFields = false) {path : List Clause}
    (hpath : Clear path) (q : Query) :
    (q.visit d).Stacks path m ↔ ∃ s ∈ q.selects, s.Stacks := by
  have h := Query.stacks_visits d hm hpath q
  rwa [Query.visits_eq, Script.stacks_cons, or_iff_left Script.stacks_nil] at h

end

/-! ## Statements that stack -/

/-- The fields that a statement answers, if the dialect has such an answer. -/
def Statement.answers (d : Dialect) : Statement → List Field
  | .insert i => if d.resolve .returning = .native then i.returning else []
  | .update u => if d.resolve .returning = .native then u.returning else []
  | _ => []

/-- The table that a statement changes. -/
def Statement.changed : Statement → List Table
  | .query _ => []
  | .insert i => [i.into]
  | .update u => [u.table]
  | .delete x => [x.table]

/-- The fields that a part answers. -/
def Part.answers (d : Dialect) : Part → List Field
  | .insert i => Statement.answers d (.insert i)
  | .update u => Statement.answers d (.update u)
  | .statement s => s.answers d
  | _ => []

/-- The tables that a part changes. -/
def Part.changed : Part → List Table
  | .insert i => Statement.changed (.insert i)
  | .update u => Statement.changed (.update u)
  | .delete x => Statement.changed (.delete x)
  | .statement s => s.changed
  | _ => []

/-- The fields that are declared in a part: what its selects list, and what it answers. -/
def Part.declaredFields (d : Dialect) (p : Part) : List Field :=
  (p.selects d).flatMap Select.fields ++ p.answers d

/-- The tables that are declared in a part: those that its selects list and the one that it
changes. -/
def Part.declaredTables (d : Dialect) (p : Part) : List Table :=
  (p.selects d).flatMap Select.tables ++ p.changed

theorem exists_mem_append {α : Type} {q : α → Prop} (as bs : List α) :
    (∃ a ∈ as ++ bs, q a) ↔ (∃ a ∈ as, q a) ∨ ∃ a ∈ bs, q a := by
  simp [or_and_right, exists_or]

theorem exists_mem_flatMap {α β : Type} {q : β → Prop} (f : α → List β) (as : List α) :
    (∃ b ∈ as.flatMap f, q b) ↔ ∃ a ∈ as, ∃ b ∈ f a, q b := by
  induction as with
  | nil => simp
  | cons a as ih =>
    rw [List.flatMap_cons, exists_mem_append, ih]
    simp

/-- A declaration in a part stacks if one in its selects does, in its answer, or in its target. -/
theorem Part.declared_stacks_iff (d : Dialect) (p : Part) :
    ((∃ f ∈ p.declaredFields d, f.stacks = true) ∨ ∃ t ∈ p.declaredTables d, t.stacks = true) ↔
      (∃ t ∈ p.changed, t.stacks = true) ∨ (∃ s ∈ p.selects d, s.Stacks) ∨
        ∃ f ∈ p.answers d, f.stacks = true := by
  simp only [declaredFields, declaredTables, exists_mem_append, exists_mem_flatMap,
    Select.Stacks, and_or_left,
    exists_or]
  grind

section

variable {path : List Clause} {m : Modes} (d : Dialect) (hm : m.declareFields = false)

include hm

theorem Assignment.not_stacks_listed (clause : Clause) (hclause : clause.isAlias = false)
    (hpath : Clear path) (as : List Assignment) :
    ¬ Script.Stacks path m (Assignment.listed d clause as) := by
  have hinner : Clear (path ++ [clause]) := hpath.concat hclause
  have hbody : ∀ a : Assignment, ¬ (Action.within clause (a.body d clause)).Stacks path m := by
    intro a
    have htarget : ¬ (a.target.visit d).Stacks (path ++ [clause]) (m.switch .qualify false) :=
      Field.not_stacks_visit d (m := m.switch .qualify false) hm hinner.not_stacked _
    have hvalue : ¬ (a.value.visit d).Stacks (path ++ [clause]) (m.assume a.target.dataType) :=
      Field.not_stacks_visit d (m := m.assume a.target.dataType) hm hinner.not_stacked _
    rw [Action.stacks_within, Assignment.body]
    split <;> simp [hinner.not_stacked, htarget, hvalue]
  unfold Assignment.listed
  rw [Script.stacks_intersperse (Action.stacks_text ", "), Script.stacks_map]
  simp [hbody]

end

theorem stacks_layoutReturning {path : List Clause} {m : Modes} (d : Dialect) (slot : Clause)
    (hslot : slot.declaresFields = true) (hpath : Clear path) (fields : List Field) :
    Script.Stacks (path ++ [slot]) m (layoutReturning d fields) ↔
      ∃ f ∈ (if d.resolve .returning = .native then fields else []), f.stacks = true := by
  have hfields := Field.stacks_declared d (m := m) slot hslot hpath fields
  unfold layoutReturning
  split
  · next h => simp [List.isEmpty_iff.1 h]
  · split
    · next hplan => simpa [hplan] using hfields
    · next hplan =>
      rw [if_neg hplan]
      simp

section

variable {path : List Clause} {m : Modes} (d : Dialect) (hm : m.declareFields = false)

include hm

theorem Insert.stacks_layoutTarget (hpath : Clear path) (into : Table) (columns : List Field) :
    Script.Stacks (path ++ [.insertInsertInto]) m (Insert.layoutTarget d into columns) ↔
      into.stacks = true := by
  have hinto := Table.stacks_declared d .insertInsertInto rfl hm hpath into
  have hslot : Clear (path ++ [.insertInsertInto]) := hpath.concat rfl
  have hcolumns : ¬ Script.Stacks (path ++ [.insertInsertInto]) (m.switch .qualify false)
      (columns.map (Field.visit d)) :=
    Field.not_stacks_map_visit d (m := m.switch .qualify false) hm hslot.not_stacked columns
  unfold Insert.layoutTarget
  split <;> simp [hinto, hcolumns]

theorem InsertSource.stacks_layout (hpath : Clear path) (columns : List Field)
    (source : InsertSource) :
    Script.Stacks path m (source.layout d columns) ↔
      ∃ s ∈ source.selects d columns, s.Stacks := by
  have hselect : Clear (path ++ [.insertSelect]) := hpath.concat rfl
  have hvalues : Clear (path ++ [.insertValues]) := hpath.concat rfl
  cases source with
  | query q =>
    simp [InsertSource.layout, InsertSource.selects, Action.stacks_within, hselect.not_stacked,
      Query.stacks_visit d hm hselect]
  | values rows =>
    have hdefaults : ¬ Script.Stacks path m (Insert.layoutDefaults d columns) := by
      unfold Insert.layoutDefaults
      split <;> simp [Action.stacks_within, hvalues.not_stacked]
    have hrows := Row.not_stacks_map_visit d hm hvalues.not_stacked rows
    simp only [InsertSource.layout, InsertSource.selects, Insert.layoutRows, Script.stacks_append,
      Script.stacks_flatMap, Script.stacks_checkDegree, and_false, exists_false, false_or]
    split
    · next h =>
      -- without rows there is no union of them
      have hfalse : Insert.isEmulated d [] = false := rfl
      rw [List.isEmpty_iff.1 h]
      simp [hfalse, hdefaults]
    · split
      · next hzero => simp [hzero]
      · next hdegree =>
        unfold Insert.isEmulated
        split
        · next hplan =>
          simp [hdegree, hplan, Action.stacks_within, hselect.not_stacked,
            Query.stacks_visit d hm hselect]
        · next hplan =>
          have hnative : ¬ d.resolve (.insertValues rows.length) = .emulate .insertSelectUnionAll :=
            hplan
          simp [hnative, Action.stacks_within, hvalues.not_stacked, hrows]

theorem Insert.not_stacks_layoutOnDuplicate (hpath : Clear path) (as : List Assignment) :
    ¬ Script.Stacks path m (Insert.layoutOnDuplicate d as) := by
  have has := Assignment.not_stacks_listed d hm .insertOnDuplicateKeyUpdateAssignment
    rfl hpath as
  unfold Insert.layoutOnDuplicate
  split
  · simp
  · split <;> simp [has]

theorem Insert.stacks_visit (hpath : Clear path) (i : Insert) :
    (i.visit d).Stacks path m ↔
      i.into.stacks = true ∨ (∃ s ∈ i.source.selects d i.columns, s.Stacks) ∨
        ∃ f ∈ (if d.resolve .returning = .native then i.returning else []), f.stacks = true := by
  have htags : Clear (path ++ [.insert]) := hpath.concat rfl
  have hclear : ∀ c : Clause, c.isAlias = false → Clear (path ++ [.insert] ++ [c]) :=
    fun _ => htags.concat
  have hinto := hclear .insertInsertInto rfl
  have hduplicate := hclear .insertOnDuplicateKeyUpdate rfl
  have hreturning := hclear .insertReturning rfl
  rw [Insert.visit, Action.stacks_visit, Part.tags, Insert.body]
  simp only [htags.not_stacked, false_or, or_false, Script.stacks_append, Script.stacks_cons,
    Script.stacks_nil, Action.stacks_within, hinto.not_stacked, hduplicate.not_stacked,
    hreturning.not_stacked, Insert.stacks_layoutTarget d hm htags,
    InsertSource.stacks_layout d hm htags, Insert.not_stacks_layoutOnDuplicate d hm hduplicate,
    stacks_layoutReturning d .insertReturning rfl htags, or_assoc]

theorem Update.stacks_visit (hpath : Clear path) (u : Update) :
    (u.visit d).Stacks path m ↔
      u.table.stacks = true ∨ (∃ s ∈ Condition.selectsOf u.filter, s.Stacks) ∨
        ∃ f ∈ (if d.resolve .returning = .native then u.returning else []), f.stacks = true := by
  have htags : Clear (path ++ [.update]) := hpath.concat rfl
  have hclear : ∀ c : Clause, c.isAlias = false → Clear (path ++ [.update] ++ [c]) :=
    fun _ => htags.concat
  have htable := hclear .updateUpdate rfl
  have hset := hclear .updateSet rfl
  have hwhere := hclear .updateWhere rfl
  have hreturning := hclear .updateReturning rfl
  have has := Assignment.not_stacks_listed d hm .updateSetAssignment rfl hset u.assignments
  have hassignments : ¬ Script.Stacks (path ++ [.update] ++ [.updateSet]) m
      (Update.layoutSet d u.assignments) := by
    unfold Update.layoutSet
    split
    · simp
    · simpa using has
  rw [Update.visit, Action.stacks_visit, Part.tags, Update.body]
  simp only [htags.not_stacked, false_or, or_false, Script.stacks_cons, Script.stacks_nil,
    Action.stacks_within, Action.stacks_keyword, Action.stacks_switch, htable.not_stacked,
    hset.not_stacked, hwhere.not_stacked, hreturning.not_stacked, hassignments,
    Table.stacks_declared d .updateUpdate rfl hm htags, Condition.stacks_slot d hm hwhere,
    stacks_layoutReturning d .updateReturning rfl htags]

theorem Delete.stacks_visit (hpath : Clear path) (x : Delete) :
    (x.visit d).Stacks path m ↔
      x.table.stacks = true ∨ ∃ s ∈ Condition.selectsOf x.filter, s.Stacks := by
  have htags : Clear (path ++ [.delete]) := hpath.concat rfl
  have htable : Clear (path ++ [.delete] ++ [.deleteDelete]) := htags.concat rfl
  have hwhere : Clear (path ++ [.delete] ++ [.deleteWhere]) := htags.concat rfl
  rw [Delete.visit, Action.stacks_visit, Part.tags, Delete.body]
  simp only [htags.not_stacked, false_or, or_false, Script.stacks_cons, Script.stacks_nil,
    Action.stacks_within, Action.stacks_keyword, Action.stacks_switch, htable.not_stacked,
    hwhere.not_stacked, Table.stacks_declared d .deleteDelete rfl hm htags,
    Condition.stacks_slot d hm hwhere]

end

/-- A statement stacks where its target does, one of its selects, or its answer. -/
theorem Statement.stacks_visit (d : Dialect) {m : Modes} (hm : m.declareFields = false)
    (s : Statement) :
    (s.visit d).Stacks [] m ↔
      (∃ t ∈ s.changed, t.stacks = true) ∨ (∃ q ∈ s.selects d, q.Stacks) ∨
        ∃ f ∈ s.answers d, f.stacks = true := by
  cases s with
  | query q =>
    have hq := Query.stacks_visit d hm Clear.nil q
    simpa [Statement.visit, Statement.changed, Statement.selects, Statement.answers] using hq
  | insert i =>
    have hi := Insert.stacks_visit d hm Clear.nil i
    simpa [Statement.visit, Statement.changed, Statement.selects, Statement.answers] using hi
  | update u =>
    have hu := Update.stacks_visit d hm Clear.nil u
    simpa [Statement.visit, Statement.changed, Statement.selects, Statement.answers] using hu
  | delete x =>
    have hx := Delete.stacks_visit d hm Clear.nil x
    simpa [Statement.visit, Statement.changed, Statement.selects, Statement.answers] using hx

/-- **What is stacked in the visit of a statement, a query or a condition is a declaration in
it.** -/
theorem Part.stacks_visit (d : Dialect) {m : Modes} (hm : m.declareFields = false) {p : Part}
    (hp : p.isClausal = true) :
    (p.visit d).Stacks [] m ↔
      (∃ f ∈ p.declaredFields d, f.stacks = true) ∨ ∃ t ∈ p.declaredTables d, t.stacks = true := by
  rw [Part.declared_stacks_iff]
  cases p with
  | condition c =>
    have htags := Clear.nil.condition m c
    have hc := Condition.stacks_body d hm htags c
    rw [Part.visit, Condition.visit, Action.stacks_visit, or_iff_right htags.not_stacked, hc]
    simp [Part.changed, Part.answers, Part.selects]
  | select s => exact Statement.stacks_visit d hm (.query (.select s))
  | query q => exact Statement.stacks_visit d hm (.query q)
  | insert i => exact Statement.stacks_visit d hm (.insert i)
  | update u => exact Statement.stacks_visit d hm (.update u)
  | delete x => exact Statement.stacks_visit d hm (.delete x)
  | statement s => exact s.stacks_visit d hm
  | field | row | table | sort | forward | custom => cases hp

/-! ## Renders -/

namespace Configuration

variable (cfg : Configuration) {part : Part} {modes : Modes} {past : List Notice} {place : Nat}

/-- A render that ends well has told every listener the events of the moves of its part. -/
theorem heard_of_ok (hpart : part.propagates = true) (hplace : place < cfg.listeners.length)
    {r : Rendered} (h : (cfg.render part modes past).result = .ok r) :
    heard (cfg.render part modes past).notices place =
      events cfg.settings.dialect [] ((part.visit cfg.settings.dialect).moves modes) := by
  obtain ⟨st, hrun, -⟩ := cfg.render_ok_iff_run.1 h
  have hstraight := Part.straight_visit cfg.settings.dialect part hpart
  have hbracketed : Bracketed ((part.visit cfg.settings.dialect).moves modes) :=
    hstraight.bracketed
  have horderly : Orderly (State.path { modes, notices := past }) _ := hbracketed.orderly []
  have htells := tells_performAll hplace hstraight.isAttempt_eq_false horderly
  unfold Run.Tells at htells
  rw [← run_eq_moves, hrun] at htells
  obtain ⟨⟨new, hnew, hheard⟩, -⟩ := htells
  have hnotices : (cfg.render part modes past).notices = new := by
    unfold render
    rw [hrun]
    dsimp only
    rw [hnew, List.drop_left]
  rw [hnotices, hheard]

/-- **Aliases are declared inside of declarations where a caller has built them so, and nowhere
else.** Let a statement, a query or a condition be rendered well from the modes that there are by
default. Some listener sees a path with a field alias inside of an alias or a row of the same slot,
or with a table alias inside of a table alias, exactly if a field of a select list or of an answer
wraps an alias, or a table of a `FROM` list or of a target is an alias of an alias. Such fields and
tables elsewhere are only named, and nothing in them is declared. -/
theorem aliases_stack_where_built (hpart : part.isClausal = true) {r : Rendered}
    (h : (cfg.render part {} past).result = .ok r) (hplace : place < cfg.listeners.length) :
    (∃ e ∈ heard (cfg.render part {} past).notices place, Stacked e.path) ↔
      (∃ f ∈ part.declaredFields cfg.settings.dialect, f.stacks = true) ∨
        ∃ t ∈ part.declaredTables cfg.settings.dialect, t.stacks = true := by
  have hnode : part.isNode = true := by
    cases part <;> first | rfl | cases hpart
  have hstraight := Part.straight_of_isClausal cfg.settings.dialect hpart
  rw [cfg.heard_of_ok (Part.propagates_of_isNode hnode) hplace h,
    hstraight.exists_stacked cfg.settings.dialect Clear.nil.not_stacked,
    Part.stacks_visit cfg.settings.dialect rfl hpart]

/-- `UPDATE t SET a = k RETURNING (b AS k)`, where `k` is an alias of an alias: the value is only
named, and the row that is answered declares its alias. -/
theorem aliases_stack_where_built_update :
    let u : Update :=
      { table := .ofName "t"
        assignments :=
          [{ target := .named "a", value := .aliased (.aliased (.named "b") "j") "k" }] }
    let answering : Update := u.addReturning [.row [.aliased (.named "b") "k"]]
    let cfg : Configuration := { settings := { dialect := .postgres }, listeners := [.silent] }
    (cfg.render (.update u) {} []).result = .ok ⟨"UPDATE \"t\" SET \"a\" = \"k\"", []⟩ ∧
    (¬ ∃ e ∈ heard (cfg.render (.update u) {} []).notices 0, Stacked e.path) ∧
    (cfg.render (.update answering) {} []).result =
      .ok ⟨"UPDATE \"t\" SET \"a\" = \"k\" RETURNING (\"b\" AS \"k\")", []⟩ ∧
    ∃ e ∈ heard (cfg.render (.update answering) {} []).notices 0, Stacked e.path := by
  intro u answering cfg
  have hok : (cfg.render (.update u) {} []).result =
      .ok ⟨"UPDATE \"t\" SET \"a\" = \"k\"", []⟩ := Report.result_eq_ok (by decide +kernel)
  have hanswer : (cfg.render (.update answering) {} []).result =
      .ok ⟨"UPDATE \"t\" SET \"a\" = \"k\" RETURNING (\"b\" AS \"k\")", []⟩ :=
    Report.result_eq_ok (by decide +kernel)
  refine ⟨hok, ?_, hanswer, ?_⟩
  · rw [cfg.aliases_stack_where_built rfl hok (by decide)]
    decide +kernel
  · rw [cfg.aliases_stack_where_built rfl hanswer (by decide)]
    decide +kernel

/-- An alias of an alias, a row with an alias, and an alias of a table that has one: each of the
aliases inside is declared. -/
theorem alias_declared_in_declaration :
    let s : Select :=
      { fields := [.aliased (.aliased (.named "x") "a") "b", .row [.aliased (.named "x") "a"]]
        tables := [.aliased (.aliased (.ofName "t") "u" []) "v" []] }
    let cfg : Configuration := { settings := { dialect := .postgres }, listeners := [.silent] }
    (cfg.render (.select s) {} []).result =
      .ok ⟨"SELECT \"x\" AS \"a\" AS \"b\", (\"x\" AS \"a\") FROM \"t\" AS \"u\" AS \"v\"", []⟩ ∧
    ∀ path ∈ [[Clause.select, .selectSelect, .field, .fieldAlias, .field, .fieldAlias],
        [Clause.select, .selectSelect, .fieldRow, .field, .fieldAlias],
        [Clause.select, .selectFrom, .table, .tableAlias, .table, .tableAlias]],
      path ∈ (heard (cfg.render (.select s) {} []).notices 0).map Event.path ∧ Stacked path := by
  intro s cfg
  refine ⟨Report.result_eq_ok (by decide +kernel), ?_⟩
  have hseen : ∀ path ∈ [[Clause.select, .selectSelect, .field, .fieldAlias, .field, .fieldAlias],
        [Clause.select, .selectSelect, .fieldRow, .field, .fieldAlias],
        [Clause.select, .selectFrom, .table, .tableAlias, .table, .tableAlias]],
      path ∈ (heard (cfg.render (.select s) {} []).notices 0).map Event.path := by decide +kernel
  intro path hpath
  refine ⟨hseen path hpath, ?_⟩
  simp only [List.mem_cons, List.not_mem_nil, or_false] at hpath
  rcases hpath with rfl | rfl | rfl
  · exact ⟨[.select, .selectSelect, .field, .fieldAlias, .field], .fieldAlias, [], rfl,
      .inl ⟨rfl, [.select, .selectSelect, .field], .fieldAlias, [.field], rfl, rfl, by decide⟩⟩
  · exact ⟨[.select, .selectSelect, .fieldRow, .field], .fieldAlias, [], rfl,
      .inl ⟨rfl, [.select, .selectSelect], .fieldRow, [.field], rfl, rfl, by decide⟩⟩
  · exact ⟨[.select, .selectFrom, .table, .tableAlias, .table], .tableAlias, [], rfl,
      .inr ⟨rfl, by decide⟩⟩

end Configuration

end SqlRender
