import SqlRender.Proofs.Cosmetics
import SqlRender.Proofs.Invariants

/-!
# The renderer's own words

A node of the tree holds names and values, which can be anything, and SQL puts words around them. The
words are the renderer's own, and there are not many:

```text
    keyword          ident    keyword    ident
  SELECT DISTINCT    "from"     FROM     "Select"
```

A name is always an identifier, so it never takes the case of keywords, and no word is written that
is in none of the lists of `Vocabulary`. For a script this is a matter of its atoms
(`Script.IsOwn`); `Part.isOwn_visit` says it of every node, and `Configuration.words_of_node` of the
text that comes of a node.
-/

namespace SqlRender

namespace Vocabulary

/-- The keywords that nodes are written with, with the blanks around them. A comma in a list counts as
one. -/
def keywords : List String :=
  ["SELECT ", "SELECT DISTINCT ", " FROM ", " WHERE ", " START WITH ", " CONNECT BY ", " GROUP BY ",
   " HAVING ", " ORDER BY ", " UNION ALL ", " ASC", " DESC", " AS ", "VALUES ", "DUAL", ", ",
   "=", "<>", "<", "<=", ">", ">=", "LIKE", "NOT LIKE", "NOT (", " AND ", " OR ", " IS NULL",
   " IS NOT NULL", " IN (", " NOT IN (", " NOT", " BETWEEN ", "SYMMETRIC ", "EXISTS (",
   "NOT EXISTS (", "INSERT INTO ", " VALUES ", " VALUES ()", " DEFAULT VALUES",
   " ON DUPLICATE KEY UPDATE ", " RETURNING ", "UPDATE ", " SET ", "DELETE FROM "]

/-- The texts that nodes are written with. -/
def texts : List String := ["(", " (", ")", ".", ", ", " ", "*", " = ", "1 = 1", "1 = 0"]

end Vocabulary

open Vocabulary

/-! ## Scripts in own words -/

/-- Whether an action writes no word but one of the renderer's own. -/
def Action.isOwn : Action → Bool
  | .text s => texts.contains s
  | .keyword word => keywords.contains word
  | _ => true

/-- An action that comes down to own words, identifiers, values and checks. -/
def Action.IsOwn (a : Action) : Prop := ∀ b ∈ a.atoms, b.isOwn = true

/-- A script that comes down to own words, identifiers, values and checks. -/
def Script.IsOwn (as : Script) : Prop := ∀ b ∈ Script.atoms as, b.isOwn = true

namespace Action

@[simp] theorem isOwn_text {s : String} : (text s).IsOwn ↔ texts.contains s = true := by
  simp [IsOwn, atoms, isOwn]

@[simp] theorem isOwn_keyword {word : String} :
    (keyword word).IsOwn ↔ keywords.contains word = true := by
  simp [IsOwn, atoms, isOwn]

@[simp] theorem isOwn_ident (name : String) : (ident name).IsOwn := by
  simp [IsOwn, atoms, isOwn]

@[simp] theorem isOwn_bind (p : Param) : (bind p).IsOwn := by simp [IsOwn, atoms, isOwn]

@[simp] theorem isOwn_fail (e : RenderError) : (fail e).IsOwn := by simp [IsOwn, atoms, isOwn]

@[simp] theorem isOwn_visit {part : Part} {body : Script} :
    (visit part body).IsOwn ↔ Script.IsOwn body := Iff.rfl

@[simp] theorem isOwn_within {c : Clause} {body : Script} :
    (within c body).IsOwn ↔ Script.IsOwn body := Iff.rfl

@[simp] theorem isOwn_switch {mode : Mode} {on : Bool} {body : Script} :
    (switch mode on body).IsOwn ↔ Script.IsOwn body := Iff.rfl

@[simp] theorem isOwn_assume {type : Option DataType} {body : Script} :
    (assume type body).IsOwn ↔ Script.IsOwn body := Iff.rfl

@[simp] theorem isOwn_whenOn {mode : Mode} {body : Script} :
    (whenOn mode body).IsOwn ↔ Script.IsOwn body := Iff.rfl

end Action

namespace Script

@[simp] theorem isOwn_nil : Script.IsOwn [] := nofun

@[simp] theorem isOwn_cons {a : Action} {as : Script} :
    Script.IsOwn (a :: as) ↔ a.IsOwn ∧ Script.IsOwn as := List.forall_mem_append

@[simp] theorem isOwn_append {as bs : Script} :
    Script.IsOwn (as ++ bs) ↔ Script.IsOwn as ∧ Script.IsOwn bs := by
  unfold Script.IsOwn
  rw [atoms_append, List.forall_mem_append]

theorem isOwn_iff {as : Script} : Script.IsOwn as ↔ ∀ a ∈ as, a.IsOwn := by
  induction as with
  | nil => simp
  | cons a as ih => simp [ih]

theorem isOwn_map {α : Type} {f : α → Action} {as : List α} (h : ∀ a, (f a).IsOwn) :
    Script.IsOwn (as.map f) := by
  simp [isOwn_iff, h]

theorem isOwn_flatMap {α : Type} {f : α → Script} {as : List α} (h : ∀ a, Script.IsOwn (f a)) :
    Script.IsOwn (as.flatMap f) := by
  simp only [isOwn_iff, List.mem_flatMap] at h ⊢
  rintro b ⟨a, -, hb⟩
  exact h a b hb

theorem isOwn_intersperse {a : Action} (ha : a.IsOwn) :
    ∀ {as : Script}, Script.IsOwn as → Script.IsOwn (as.intersperse a)
  | [], _ => isOwn_nil
  | [_], h => h
  | b :: c :: as, h => by
    rw [isOwn_cons] at h
    rw [List.intersperse_cons_cons, isOwn_cons, isOwn_cons]
    exact ⟨h.1, ha, isOwn_intersperse ha h.2⟩

theorem isOwn_listed {as : Script} (h : Script.IsOwn as) : Script.IsOwn (Script.listed as) :=
  isOwn_intersperse (a := .keyword ", ") (Action.isOwn_keyword.2 rfl) h

variable (d : Dialect)

@[simp] theorem isOwn_require (f : Feature) (c : Clause) :
    Script.IsOwn (Script.require d f c) := by
  unfold Script.require
  split <;> simp

@[simp] theorem isOwn_checkDegree (c : Clause) (expected found : Nat) :
    Script.IsOwn (Script.checkDegree d c expected found) := by
  unfold Script.checkDegree
  split <;> simp

@[simp] theorem isOwn_failEmpty (c : Clause) : Script.IsOwn (Script.failEmpty d c) := by
  simp [Script.failEmpty]

end Script

open Script

/-! ## Nodes in own words -/

section

variable (d : Dialect)

mutual

theorem Field.isOwn_body : ∀ f : Field, Script.IsOwn (f.body d)
  | .column c => by
    cases hq : c.qualifier <;> simp [Field.body, Column.body, hq, texts]
  | .value _ => by simp [Field.body]
  | .aliased f _ => by simp [Field.body, keywords, Field.isOwn_body f]
  | .row fields => by
    have ih := isOwn_listed (Field.isOwn_visits fields)
    simp only [Field.body, Row.layout]
    split <;> simp [texts, ih]

theorem Field.isOwn_visits : ∀ fs : List Field, Script.IsOwn (Field.visits d fs)
  | [] => isOwn_nil
  | f :: fs => isOwn_cons.2 ⟨Field.isOwn_body f, Field.isOwn_visits fs⟩

end

@[simp] theorem Field.isOwn_visit (f : Field) : (f.visit d).IsOwn := f.isOwn_body d

@[simp] theorem Row.isOwn_visit (r : Row) : (Row.visit d r).IsOwn := Field.isOwn_body d (.row r)

theorem Field.isOwn_listed (fs : List Field) :
    Script.IsOwn (Script.listed (fs.map (Field.visit d))) :=
  Script.isOwn_listed (isOwn_map (Field.isOwn_visit d))

theorem isOwn_identList (names : List String) : Script.IsOwn (identList names) := by
  have hcomma : (Action.text ", ").IsOwn := Action.isOwn_text.2 rfl
  have hnames : Script.IsOwn ((names.map Action.ident).intersperse (.text ", ")) :=
    isOwn_intersperse hcomma (isOwn_map Action.isOwn_ident)
  simp [identList, texts, hnames]

theorem Table.isOwn_body (t : Table) : Script.IsOwn (t.body d) := by
  induction t with
  | named schema name => cases schema <;> simp [Table.body, texts]
  | aliased t name columns ih =>
    have hnames := isOwn_identList columns
    simp only [Table.body]
    split <;> split <;> simp [texts, keywords, ih, hnames]
  | values rows =>
    cases rows with
    | nil => simp [Table.body]
    | cons first rest =>
      have hchecks : Script.IsOwn ((first :: rest).flatMap fun r =>
          Script.checkDegree d .tableValues first.length r.length) :=
        isOwn_flatMap fun _ => isOwn_checkDegree d _ _ _
      have hrows : Script.IsOwn (Script.listed ((first :: rest).map (Row.visit d))) :=
        isOwn_listed (isOwn_map (Row.isOwn_visit d))
      have hopen : Script.IsOwn [.text "(", .keyword "VALUES "] := by simp [texts, keywords]
      have hclose : Script.IsOwn [.text ")"] := by simp [texts]
      simp only [Table.body, isOwn_append]
      exact ⟨isOwn_require d _ _, ⟨⟨hchecks, hopen⟩, hrows⟩, hclose⟩
  | dual => simp [Table.body, keywords]

@[simp] theorem Table.isOwn_visit (t : Table) : (t.visit d).IsOwn := t.isOwn_body d

theorem Connective.isOwn_layout (op : Connective) {operands : Script}
    (h : Script.IsOwn operands) : Script.IsOwn (op.layout operands) := by
  have hword : (Action.keyword (" " ++ op.sql ++ " ")).IsOwn := by
    cases op <;> exact Action.isOwn_keyword.2 rfl
  unfold Connective.layout
  split
  · cases op <;> simp [texts]
  · exact h
  · simp [texts, Script.separated, isOwn_intersperse hword h]

theorem Condition.isOwn_layoutIn (f : Field) (values : List Field) (negated : Bool) :
    Script.IsOwn (Condition.layoutIn d f values negated) := by
  have hchecks : ∀ c, Script.IsOwn (values.flatMap fun v =>
      Script.checkDegree d c f.degree v.degree) :=
    fun c => isOwn_flatMap fun _ => isOwn_checkDegree d _ _ _
  have hvalues := Field.isOwn_listed d values
  cases negated <;> cases hempty : values.isEmpty <;>
    simp [Condition.layoutIn, hempty, hchecks, hvalues, texts, keywords]

theorem Condition.isOwn_layoutBetween (clause : Clause) (f low high : Field)
    (negated symmetric : Bool) :
    Script.IsOwn (Condition.layoutBetween d clause f low high negated symmetric) := by
  cases negated <;> cases symmetric <;> simp [Condition.layoutBetween, keywords]

theorem Select.isOwn_layoutFields (distinct : Bool) (fields : List Field) :
    Script.IsOwn (Select.layoutFields d distinct fields) := by
  have hfields := Field.isOwn_listed d fields
  cases distinct <;> cases hempty : fields.isEmpty <;>
    simp [Select.layoutFields, hempty, hfields, texts, keywords]

theorem Select.isOwn_layoutTables (tables : List Table) :
    Script.IsOwn (Select.layoutTables d tables) := by
  have htables : Script.IsOwn (Script.listed (tables.map (Table.visit d))) :=
    isOwn_listed (isOwn_map (Table.isOwn_visit d))
  unfold Select.layoutTables
  split
  · split <;> simp [keywords]
  · simp [htables, keywords]

@[simp] theorem SortField.isOwn_visit (s : SortField) : (s.visit d).IsOwn := by
  cases hs : s.order <;> simp [SortField.visit, SortField.body, hs, keywords]

theorem Script.isOwn_ifAny (word : String) (hword : keywords.contains word = true)
    {items : Script} (h : Script.IsOwn items) : Script.IsOwn (Script.ifAny word items) := by
  unfold Script.ifAny
  split
  · exact isOwn_nil
  · exact isOwn_cons.2 ⟨Action.isOwn_keyword.2 hword, isOwn_listed h⟩

theorem Script.isOwn_hierarchical (clause : Clause) {condition : Script}
    (h : Script.IsOwn condition) : Script.IsOwn (Script.hierarchical d clause condition) := by
  unfold Script.hierarchical
  split <;> simp [h]

mutual

theorem Condition.isOwn_body : ∀ c : Condition, Script.IsOwn (c.body d)
  | .comparison _ op _ => by cases op <;> simp [Condition.body, Comparator.sql, texts, keywords]
  | .not c => by simp [Condition.body, texts, keywords, Condition.isOwn_body c]
  | .combined op conditions => by
    rw [Condition.body]
    exact op.isOwn_layout (Condition.isOwn_visits conditions)
  | .isNull _ negated => by cases negated <;> simp [Condition.body, keywords]
  | .isIn f values negated => by
    rw [Condition.body]
    exact Condition.isOwn_layoutIn d f values negated
  | .between _ _ _ _ _ => by
    rw [Condition.body]
    exact Condition.isOwn_layoutBetween d _ _ _ _ _ _
  | .exists q negated => by
    cases negated <;> simp [Condition.body, texts, keywords, Query.isOwn_visits q]

theorem Condition.isOwn_visits : ∀ cs : List Condition, Script.IsOwn (Condition.visits d cs)
  | [] => isOwn_nil
  | c :: cs => isOwn_cons.2 ⟨Condition.isOwn_body c, Condition.isOwn_visits cs⟩

theorem Condition.isOwn_slot (word : String) (hword : keywords.contains word = true) :
    ∀ c : Option Condition, Script.IsOwn (Condition.slot d word c)
  | none => isOwn_nil
  | some c => by
    have hbody := Condition.isOwn_body c
    exact isOwn_cons.2 ⟨Action.isOwn_keyword.2 hword, isOwn_cons.2 ⟨hbody, isOwn_nil⟩⟩

theorem Query.isOwn_visits : ∀ q : Query, Script.IsOwn (q.visits d)
  | .select s => isOwn_cons.2 ⟨Select.isOwn_body s, isOwn_nil⟩
  | .unionAll selects => by
    have ih := Select.isOwn_visits selects
    have hword : (Action.keyword " UNION ALL ").IsOwn := Action.isOwn_keyword.2 rfl
    simp only [Query.visits, isOwn_cons, isOwn_nil, and_true, Action.isOwn_visit]
    split
    · exact isOwn_failEmpty d _
    · exact isOwn_intersperse hword ih

theorem Select.isOwn_body : ∀ s : Select, Script.IsOwn (s.body d)
  | { distinct, fields, tables, filter, startWith, connectBy, groupBy, having, orderBy } => by
    have hfields : Script.IsOwn (groupBy.map (Field.visit d)) := isOwn_map (Field.isOwn_visit d)
    have hsorts : Script.IsOwn (orderBy.map (SortField.visit d)) :=
      isOwn_map (SortField.isOwn_visit d)
    simp only [Select.body, isOwn_cons, isOwn_nil, Action.isOwn_within, and_true]
    exact ⟨Select.isOwn_layoutFields d distinct fields, Select.isOwn_layoutTables d tables,
      Condition.isOwn_slot " WHERE " rfl filter,
      isOwn_hierarchical d _ (Condition.isOwn_slot " START WITH " rfl startWith),
      isOwn_hierarchical d _ (Condition.isOwn_slot " CONNECT BY " rfl connectBy),
      isOwn_ifAny " GROUP BY " rfl hfields, Condition.isOwn_slot " HAVING " rfl having,
      isOwn_ifAny " ORDER BY " rfl hsorts⟩

theorem Select.isOwn_visits : ∀ ss : List Select, Script.IsOwn (Select.visits d ss)
  | [] => isOwn_nil
  | s :: ss => isOwn_cons.2 ⟨Select.isOwn_body s, Select.isOwn_visits ss⟩

end

theorem Query.isOwn_visit (q : Query) : (q.visit d).IsOwn := by
  have h := q.isOwn_visits d
  rw [Query.visits_eq, isOwn_cons] at h
  exact h.1

theorem Assignment.isOwn_listed (clause : Clause) (as : List Assignment) :
    Script.IsOwn (Assignment.listed d clause as) := by
  have hcomma : (Action.text ", ").IsOwn := Action.isOwn_text.2 rfl
  refine isOwn_intersperse hcomma (isOwn_map fun a => ?_)
  rw [Action.isOwn_within]
  unfold Assignment.body
  split <;> simp [texts]

theorem isOwn_layoutReturning (fields : List Field) :
    Script.IsOwn (layoutReturning d fields) := by
  have hfields := Field.isOwn_listed d fields
  unfold layoutReturning
  split
  · exact isOwn_nil
  · split <;> simp [hfields, keywords]

theorem Insert.isOwn_layoutTarget (into : Table) (columns : List Field) :
    Script.IsOwn (Insert.layoutTarget d into columns) := by
  have hcolumns := Field.isOwn_listed d columns
  unfold Insert.layoutTarget
  split <;> simp [hcolumns, texts, keywords]

theorem Insert.isOwn_layoutDefaults (columns : List Field) :
    Script.IsOwn (Insert.layoutDefaults d columns) := by
  unfold Insert.layoutDefaults
  split
  · split <;> simp [keywords]
  · exact isOwn_failEmpty d _

theorem Insert.isOwn_layoutRows (columns : List Field) (rows : List Row) :
    Script.IsOwn (Insert.layoutRows d columns rows) := by
  have hrows : Script.IsOwn (Script.listed (rows.map (Row.visit d))) :=
    isOwn_listed (isOwn_map (Row.isOwn_visit d))
  unfold Insert.layoutRows
  refine isOwn_append.2 ⟨isOwn_flatMap fun _ => isOwn_checkDegree d _ _ _, ?_⟩
  split
  · exact Insert.isOwn_layoutDefaults d columns
  · split
    · exact isOwn_failEmpty d _
    · split
      · simp [Query.isOwn_visit, texts]
      · simp [hrows, keywords]

theorem InsertSource.isOwn_layout (columns : List Field) (source : InsertSource) :
    Script.IsOwn (source.layout d columns) := by
  cases source with
  | values rows => exact Insert.isOwn_layoutRows d columns rows
  | query q => simp [InsertSource.layout, Query.isOwn_visit, texts]

theorem Insert.isOwn_layoutOnDuplicate (as : List Assignment) :
    Script.IsOwn (Insert.layoutOnDuplicate d as) := by
  have hlisted := Assignment.isOwn_listed d .insertOnDuplicateKeyUpdateAssignment as
  unfold Insert.layoutOnDuplicate
  split
  · exact isOwn_nil
  · split <;> simp [hlisted, keywords]

theorem Insert.isOwn_body (i : Insert) : Script.IsOwn (i.body d) := by
  simp [Insert.body, Insert.isOwn_layoutTarget, InsertSource.isOwn_layout,
    Insert.isOwn_layoutOnDuplicate, isOwn_layoutReturning]

theorem Update.isOwn_body (u : Update) : Script.IsOwn (u.body d) := by
  have hset : Script.IsOwn (Update.layoutSet d u.assignments) := by
    have hlisted := Assignment.isOwn_listed d .updateSetAssignment u.assignments
    unfold Update.layoutSet
    split <;> simp [hlisted, keywords]
  have hwhere := Condition.isOwn_slot d " WHERE " rfl u.filter
  simp [Update.body, hset, hwhere, isOwn_layoutReturning, keywords]

theorem Delete.isOwn_body (x : Delete) : Script.IsOwn (x.body d) := by
  have hwhere := Condition.isOwn_slot d " WHERE " rfl x.filter
  simp [Delete.body, hwhere, keywords]

theorem Statement.isOwn_visit (s : Statement) : (s.visit d).IsOwn := by
  cases s with
  | query q => exact q.isOwn_visit d
  | insert i => exact i.isOwn_body d
  | update u => exact u.isOwn_body d
  | delete x => exact x.isOwn_body d

/-- **Every node is written in own words.** -/
theorem Part.isOwn_visit {p : Part} (h : p.isNode = true) : (p.visit d).IsOwn := by
  cases p with
  | field f => exact f.isOwn_visit d
  | row r => exact Row.isOwn_visit d r
  | table t => exact t.isOwn_visit d
  | condition c => exact c.isOwn_body d
  | sort s => exact s.isOwn_visit d
  | select s => exact s.isOwn_body d
  | query q => exact q.isOwn_visit d
  | insert i => exact i.isOwn_body d
  | update u => exact u.isOwn_body d
  | delete x => exact x.isOwn_body d
  | statement s => exact s.isOwn_visit d
  | forward | custom => cases h

end

/-! ## Texts in own words -/

/-- The action that writes a word, if a segment is one: a text or a keyword. -/
def Segment.word? : Segment → Option Action
  | text s => some (.text s)
  | keyword word => some (.keyword word)
  | _ => none

variable {x : Segment} {b : Action}

mutual

/-- The words in the draft of an action are among its atoms. -/
theorem Action.mem_atoms_of_draft (hx : x.word? = some b) :
    ∀ (a : Action) {m : Modes}, .ok x ∈ a.draft m → b ∈ a.atoms
  | .text _, _, h | .keyword _, _, h => by
    cases List.mem_singleton.1 h
    cases hx
    exact List.mem_singleton_self _
  | .ident _, _, h | .bind _, _, h | .literal _ _, _, h => by
    cases List.mem_singleton.1 h
    cases hx
  | .fail _, _, h => by cases List.mem_singleton.1 h
  | .visit _ body, _, h | .within _ body, _, h | .switch _ _ body, _, h | .assume _ body, _, h =>
    Script.mem_atoms_of_draft hx body h
  | .whenOn _ body, _, h => by
    unfold Action.draft at h
    split at h
    · exact Script.mem_atoms_of_draft hx body h
    · cases h
  | .attempt _ _, _, h | .note _ _, _, h => by cases h

/-- The words in the draft of a script are among its atoms. -/
theorem Script.mem_atoms_of_draft (hx : x.word? = some b) :
    ∀ (as : List Action) {m : Modes}, .ok x ∈ Script.draft m as → b ∈ Script.atoms as
  | [], _, h => by cases h
  | a :: as, _, h => by
    rcases List.mem_append.1 h with h | h
    · exact List.mem_append_left _ (Action.mem_atoms_of_draft hx a h)
    · exact List.mem_append_right _ (Script.mem_atoms_of_draft hx as h)

end

/-- A stroke that is settled as a word is this word. -/
theorem Stroke.eq_of_settle (hx : x.word? = some b) {s : Settings} {opened opened' : List Param}
    {y : Stroke} (h : y.settle s opened = some (x, opened')) : y = .ok x := by
  cases y with
  | error => cases h
  | ok segment =>
    cases segment with
    | text | keyword | ident =>
      cases h
      rfl
    | placeholder => cases h
    | literal o =>
      -- what comes of an occurrence is a literal or a placeholder
      rw [Stroke.settle_literal] at h
      split at h
      · cases h
      · split at h
        · split at h
          · cases h
            cases hx
          · cases h
        · cases h
          cases hx

/-- A word that is written is in the draft. -/
theorem mem_of_settle (hx : x.word? = some b) {s : Settings} :
    ∀ {xs : List Stroke} {opened opened' : List Param} {segments : List Segment},
      settle s opened xs = some (segments, opened') → x ∈ segments → .ok x ∈ xs := by
  intro xs
  induction xs with
  | nil =>
    intro opened opened' segments hsettle hmem
    cases hsettle
    cases hmem
  | cons y ys ih =>
    intro opened opened' segments hsettle hmem
    obtain ⟨segment, opened₁, rest, hy, hys, rfl⟩ := settle_cons_eq_some.1 hsettle
    rcases List.mem_cons.1 hmem with rfl | hmem
    · exact Stroke.eq_of_settle hx hy ▸ List.mem_cons_self
    · exact List.mem_cons_of_mem _ (ih hys hmem)

namespace Configuration

variable (cfg : Configuration) {part : Part} {modes : Modes} {past : List Notice} {r : Rendered}

/-- **The words of a node's text are the renderer's own**, whatever names and values the node holds.
What comes of a node that can be rendered are pieces one behind the other. The keywords among them,
which alone take the case of keywords, are own keywords or those of literals; and no text is written
but own texts. -/
theorem words_of_node (hnode : part.isNode = true)
    (h : (cfg.render part modes past).result = .ok r) :
    let out := (cfg.render part modes past).out
    let pieces := piecesOf cfg.settings.capabilities out
    r.sql = Piece.join cfg.settings pieces ∧
    (∀ word, .keyword word ∈ pieces → word ∈ keywords ∨ word ∈ Value.literalWords) ∧
    ∀ s, .text s ∈ out → s ∈ texts := by
  intro out pieces
  obtain ⟨opened, hsettle, rfl⟩ := cfg.render_ok (Part.propagates_of_isNode hnode) h
  have hown : ∀ {x : Segment} {b : Action}, x.word? = some b → x ∈ out → b.isOwn = true :=
    fun hx hmem => Part.isOwn_visit cfg.settings.dialect hnode _
      (Action.mem_atoms_of_draft hx _ (mem_of_settle hx hsettle hmem))
  refine ⟨textOf_eq_pieces cfg.settings out, fun word hword => ?_, fun s hs => ?_⟩
  · rcases keyword_of_mem_piecesOf hword with hmem | hliteral
    · have hkeyword : (Action.keyword word).isOwn = true := hown rfl hmem
      exact .inl (List.contains_iff_mem.1 hkeyword)
    · exact .inr hliteral
  · have htext : (Action.text s).isOwn = true := hown rfl hs
    exact List.contains_iff_mem.1 htext

-- Names that are spelled as keywords keep their case.
example :
    let cfg : Configuration := { settings := { dialect := .postgres, keywordCase := .lower } }
    let select : Select := { fields := [.named "FROM"], tables := [.ofName "SELECT "] }
    (cfg.render (.select select) {} []).result = .ok ⟨"select \"FROM\" from \"SELECT \"", []⟩ :=
  Report.result_eq_ok (by decide +kernel)

end Configuration

end SqlRender
