import Mathlib.Algebra.GroupWithZero.Nat
import Mathlib.Algebra.Ring.Int.Defs
import Mathlib.Data.List.Forall2
import SqlRender.Proofs.Draft

/-!
# Parentheses

Whoever reads a statement finds the end of a subquery, and the query that an `ORDER BY` belongs to,
by the parentheses alone. Texts and keywords are syntax; names and values are none, whatever they
are spelled like. A list of cues is `Level n` if its parentheses match and `n` of its `ORDER BY`
stand outside of all of them:

```text
Level 0        ::=  nothing  |  syntax without parentheses  |  ( Level n )
Level 1        ::=  ORDER BY
Level (m + n)  ::=  Level m  Level n
```

Over the tree, all nodes of conditions, fields and tables are on level 0, for a query inside of a
condition stands in parentheses. A select with an order is on level 1, since nothing is put around
it, and `Query.level_visit` counts the selects with an order among those that a query is made of.
-/

namespace SqlRender

/-! ## Cues -/

/-- How many more parentheses a text opens than it closes. -/
def parens (s : String) : Int := s.toList.count '(' - s.toList.count ')'

/-- What is seen of a segment by who looks for parentheses and orders. -/
inductive Cue where
  /-- Opens so many parentheses, or closes them. -/
  | turn (n : Int)
  /-- An `ORDER BY`. -/
  | order
deriving DecidableEq

/-- How many more parentheses a cue opens than it closes. -/
def Cue.opens : Cue → Int
  | turn n => n
  | order => 0

/-- The cue of a segment. -/
def Segment.cue : Segment → Cue
  | text s => .turn (parens s)
  | keyword word => if word = " ORDER BY " then .order else .turn (parens word)
  | ident _ | literal _ | placeholder _ _ => .turn 0

/-- The cue of a stroke. Behind an error nothing is written. -/
def Stroke.cue : Stroke → Cue
  | .ok segment => segment.cue
  | .error _ => .turn 0

/-- How many more parentheses cues open than they close. -/
def openParens (cs : List Cue) : Int := (cs.map Cue.opens).sum

/-- How many orders stand outside of all parentheses, where a number of them is open in front. -/
def bareOrders (before : Int) : List Cue → Nat
  | [] => 0
  | c :: cs => (if c = .order ∧ before = 0 then 1 else 0) + bareOrders (before + c.opens) cs

section

variable {before : Int} {cs cs' : List Cue}

theorem openParens_append : openParens (cs ++ cs') = openParens cs + openParens cs' := by
  simp [openParens]

theorem bareOrders_append :
    bareOrders before (cs ++ cs') =
      bareOrders before cs + bareOrders (before + openParens cs) cs' := by
  induction cs generalizing before with
  | nil => simp [bareOrders, openParens]
  | cons c cs ih =>
    rw [List.cons_append, bareOrders, bareOrders, ih]
    simp [openParens, Nat.add_assoc, Int.add_assoc]

end

/-- The parentheses match, and a number of orders stand outside of all of them. -/
inductive Level : Nat → List Cue → Prop
  | nil : Level 0 []
  | plain : Level 0 [.turn 0]
  | order : Level 1 [.order]
  | append {n n' : Nat} {cs cs' : List Cue} :
      Level n cs → Level n' cs' → Level (n + n') (cs ++ cs')
  | enclose {n : Nat} {cs : List Cue} :
      Level n cs → Level 0 (.turn 1 :: (cs ++ [.turn (-1)]))

namespace Level

variable {n n' : Nat} {cs cs' : List Cue}

theorem openParens_eq (h : Level n cs) : openParens cs = 0 := by
  induction h with
  | nil | plain | order => rfl
  | append _ _ ih ih' => rw [openParens_append, ih, ih', Int.add_zero]
  | enclose _ ih =>
    rw [← List.singleton_append, openParens_append, openParens_append, ih]
    rfl

/-- Inside of parentheses no order is bare. -/
theorem bareOrders_enclosed (h : Level n cs) {before : Int} (hbefore : 0 < before) :
    bareOrders before cs = 0 := by
  induction h generalizing before with
  | nil | plain => simp [bareOrders]
  | order => simpa [bareOrders] using Int.ne_of_gt hbefore
  | append h _ ih ih' =>
    rw [bareOrders_append, h.openParens_eq, Int.add_zero, ih hbefore, ih' hbefore]
  | enclose _ ih =>
    have hinside : bareOrders (before + 1) _ = 0 := ih (by omega)
    simp [bareOrders, bareOrders_append, Cue.opens, hinside]

/-- **A level is the number of orders outside of all parentheses.** -/
theorem bareOrders_eq (h : Level n cs) : bareOrders 0 cs = n := by
  induction h with
  | nil | plain | order => rfl
  | append h _ ih ih' => rw [bareOrders_append, h.openParens_eq, Int.add_zero, ih, ih']
  | enclose h _ =>
    have hinside : bareOrders 1 _ = 0 := h.bareOrders_enclosed Int.one_pos
    simp [bareOrders, bareOrders_append, Cue.opens, hinside]

theorem append_flat (h : Level n cs) (h' : Level 0 cs') : Level n (cs ++ cs') := h.append h'

theorem flat_append (h : Level 0 cs) (h' : Level n cs') : Level n (cs ++ cs') := by
  simpa using h.append h'

end Level

/-! ## Cues of scripts -/

/-- The cues of an action. -/
def Action.cues (m : Modes) (a : Action) : List Cue := (a.draft m).map Stroke.cue

/-- The cues of a script. -/
def Script.cues (m : Modes) (as : Script) : List Cue := (Script.draft m as).map Stroke.cue

namespace Script

variable {m : Modes} {n n' : Nat} {a : Action} {as bs : Script}

theorem cues_cons (m : Modes) (a : Action) (as : Script) :
    Script.cues m (a :: as) = a.cues m ++ Script.cues m as := List.map_append

theorem cues_append (m : Modes) (as bs : Script) :
    Script.cues m (as ++ bs) = Script.cues m as ++ Script.cues m bs := by
  simp [Script.cues]

theorem level_nil : Level 0 (Script.cues m []) := .nil

theorem level_cons (ha : Level 0 (a.cues m)) (has : Level n (Script.cues m as)) :
    Level n (Script.cues m (a :: as)) := by
  rw [cues_cons]
  exact ha.flat_append has

theorem level_singleton (ha : Level n (a.cues m)) : Level n (Script.cues m [a]) := by
  rw [cues_cons]
  exact ha.append_flat .nil

theorem level_append (has : Level n (Script.cues m as)) (hbs : Level n' (Script.cues m bs)) :
    Level (n + n') (Script.cues m (as ++ bs)) := by
  rw [cues_append]
  exact has.append hbs

theorem flat_append (has : Level 0 (Script.cues m as)) (hbs : Level n (Script.cues m bs)) :
    Level n (Script.cues m (as ++ bs)) := by
  rw [cues_append]
  exact has.flat_append hbs

theorem flat_text {s : String} (hs : parens s = 0) : Level 0 ((Action.text s).cues m) := by
  show Level 0 [.turn (parens s)]
  rw [hs]
  exact .plain

theorem flat_keyword {word : String} (hword : (Segment.keyword word).cue = .turn 0) :
    Level 0 ((Action.keyword word).cues m) := by
  show Level 0 [(Segment.keyword word).cue]
  rw [hword]
  exact .plain

theorem flat_whenOn {mode : Mode} (has : Level 0 (Script.cues m as)) :
    Level 0 ((Action.whenOn mode as).cues m) := by
  unfold Action.cues Action.draft
  split
  · exact has
  · exact .nil

/-- What stands between an opening text and a closing parenthesis. -/
theorem flat_enclosed {first : Action} (hfirst : first.cues m = [.turn 1])
    (has : Level n (Script.cues m as)) :
    Level 0 (Script.cues m (first :: (as ++ [.text ")"]))) := by
  have hlast : Script.cues m [.text ")"] = [.turn (-1)] := rfl
  rw [cues_cons, cues_append, hfirst, hlast]
  exact has.enclose

/-- The levels of actions add up, whatever flat separator stands between them. -/
theorem level_intersperse (ha : Level 0 (a.cues m)) {ns : List Nat}
    (h : List.Forall₂ (fun n b => Level n (b.cues m)) ns as) :
    Level ns.sum (Script.cues m (as.intersperse a)) := by
  induction h with
  | nil => exact level_nil
  | @cons n b ns as hb has ih =>
    cases has with
    | nil => simpa using level_singleton hb
    | cons hc hrest =>
      rw [List.intersperse_cons_cons, List.sum_cons]
      have hall := level_append (level_singleton hb) (level_cons ha ih)
      exact hall

theorem flat_intersperse (ha : Level 0 (a.cues m)) (h : ∀ b ∈ as, Level 0 (b.cues m)) :
    Level 0 (Script.cues m (as.intersperse a)) := by
  have hzeros : List.Forall₂ (fun n b => Level n (b.cues m)) (as.map fun _ => 0) as :=
    List.forall₂_map_left_iff.2 (List.forall₂_same.2 h)
  simpa using level_intersperse ha hzeros

theorem flat_listed (h : ∀ b ∈ as, Level 0 (b.cues m)) :
    Level 0 (Script.cues m (Script.listed as)) :=
  flat_intersperse (flat_keyword rfl) h

theorem flat_listed_map {α : Type} {f : α → Action} (h : ∀ x, Level 0 ((f x).cues m))
    (xs : List α) : Level 0 (Script.cues m (Script.listed (xs.map f))) := by
  apply flat_listed
  intro b hb
  obtain ⟨x, -, rfl⟩ := List.mem_map.1 hb
  exact h x

theorem flat_flatMap {α : Type} {f : α → Script} (h : ∀ x, Level 0 (Script.cues m (f x)))
    (xs : List α) : Level 0 (Script.cues m (xs.flatMap f)) := by
  induction xs with
  | nil => exact level_nil
  | cons x xs ih => exact flat_append (h x) ih

theorem flat_fail (e : RenderError) : Level 0 (Script.cues m [.fail e]) := .plain

theorem flat_require (d : Dialect) (f : Feature) (c : Clause) :
    Level 0 (Script.cues m (Script.require d f c)) := by
  unfold Script.require
  split
  · exact flat_fail _
  · exact level_nil

theorem flat_checkDegree (d : Dialect) (c : Clause) (expected found : Nat) :
    Level 0 (Script.cues m (Script.checkDegree d c expected found)) := by
  unfold Script.checkDegree
  split
  · exact level_nil
  · exact flat_fail _

end Script

open Script

/-! ## Fields and tables -/

theorem Action.flat_ident (m : Modes) (name : String) : Level 0 ((Action.ident name).cues m) :=
  .plain

section

variable (d : Dialect)

mutual

theorem Field.flat_body (m : Modes) : ∀ f : Field, Level 0 (Script.cues m (f.body d))
  | .column c => by
    have hname := level_singleton (Action.flat_ident m c.name)
    rw [Field.body, Column.body]
    cases c.qualifier with
    | none => exact hname
    | some q =>
      have hqualifier : Level 0 (Script.cues m [.ident q, .text "."]) :=
        level_cons (Action.flat_ident m q) (level_singleton (flat_text rfl))
      exact level_cons (flat_whenOn hqualifier) hname
  | .value p => .plain
  | .aliased f name => by
    have ih := Field.flat_body m f
    have hdeclared : Level 0 (Script.cues m [.visit f.asPart (f.body d), .keyword " AS "]) :=
      level_cons ih (level_singleton (flat_keyword rfl))
    rw [Field.body]
    exact level_cons (flat_whenOn hdeclared) (level_singleton (Action.flat_ident m name))
  | .row fields => by
    have ih := Field.flat_visits m fields
    rw [Field.body, Row.layout]
    split
    · exact flat_fail _
    · exact flat_enclosed rfl (flat_listed ih)

theorem Field.flat_visits (m : Modes) :
    ∀ fs : List Field, ∀ a ∈ Field.visits d fs, Level 0 (a.cues m)
  | [], a, ha => by cases ha
  | f :: fs, a, ha => by
    rcases List.mem_cons.1 ha with rfl | ha
    · exact Field.flat_body m f
    · exact Field.flat_visits m fs a ha

end

end

section

variable (d : Dialect) (m : Modes)

theorem Field.flat_visit (f : Field) : Level 0 ((f.visit d).cues m) := f.flat_body d m

theorem Row.flat_visit (r : Row) : Level 0 ((Row.visit d r).cues m) := Field.flat_body d m (.row r)

theorem Script.flat_identList (names : List String) :
    Level 0 (Script.cues m (identList names)) := by
  have hnames : Level 0 (Script.cues m ((names.map Action.ident).intersperse (.text ", "))) := by
    apply flat_intersperse (flat_text rfl)
    intro a ha
    obtain ⟨name, -, rfl⟩ := List.mem_map.1 ha
    exact Action.flat_ident m name
  exact flat_enclosed rfl hnames

theorem Table.flat_body (t : Table) : Level 0 (Script.cues m (t.body d)) := by
  induction t with
  | named schema name =>
    have hname := level_singleton (Action.flat_ident m name)
    cases schema with
    | none => exact hname
    | some schema =>
      exact level_cons (Action.flat_ident m schema) (level_cons (flat_text rfl) hname)
  | aliased t name columns ih =>
    have hname := level_singleton (Action.flat_ident m name)
    have hintro : Level 0 (Action.cues m
        (if d.capabilities.tableAliasAs then .keyword " AS " else .text " ")) := by
      split
      · exact flat_keyword rfl
      · exact flat_text rfl
    unfold Table.body
    dsimp only
    refine flat_append (level_cons (flat_whenOn ?_) hname) ?_
    · exact level_cons ih (level_singleton hintro)
    · split
      · exact level_nil
      · exact level_singleton (flat_whenOn (flat_identList m columns))
  | values rows =>
    apply flat_append (flat_require d _ _)
    cases rows with
    | nil => exact flat_fail _
    | cons first rest =>
      have hrows := flat_listed_map (Row.flat_visit d m) (first :: rest)
      have hvalues : Level 0 (Script.cues m (.keyword "VALUES " ::
          Script.listed ((first :: rest).map (Row.visit d)))) :=
        level_cons (flat_keyword rfl) hrows
      have hparens : Level 0 (Script.cues m (.text "(" :: ((.keyword "VALUES " ::
          Script.listed ((first :: rest).map (Row.visit d))) ++ [.text ")"]))) :=
        flat_enclosed rfl hvalues
      have hchecks := flat_flatMap (m := m) (fun r : Row =>
        flat_checkDegree d .tableValues first.length r.length) (first :: rest)
      have hall := flat_append hchecks hparens
      simpa using hall
  | dual => exact level_singleton (flat_keyword rfl)

theorem Table.flat_visit (t : Table) : Level 0 ((t.visit d).cues m) := t.flat_body d m

/-! ## Conditions and queries -/

theorem Connective.flat_layout (op : Connective) {operands : Script}
    (h : ∀ a ∈ operands, Level 0 (a.cues m)) : Level 0 (Script.cues m (op.layout operands)) := by
  unfold Connective.layout
  split
  · cases op <;> exact level_singleton (flat_text rfl)
  · exact level_singleton (h _ List.mem_cons_self)
  · have hseparator : Level 0 ((Action.keyword (" " ++ op.sql ++ " ")).cues m) := by
      cases op <;> exact flat_keyword (by decide)
    exact flat_enclosed rfl (flat_intersperse hseparator h)

theorem Condition.flat_layoutIn (f : Field) (values : List Field) (negated : Bool) :
    Level 0 (Script.cues m (Condition.layoutIn d f values negated)) := by
  unfold Condition.layoutIn
  dsimp only
  split
  · cases negated <;> exact level_singleton (flat_text rfl)
  · have hvalues : Level 0 (Script.cues m
        [.assume f.dataType (Script.listed (values.map (Field.visit d)))]) :=
      level_singleton (flat_listed_map (Field.flat_visit d _) values)
    have hin : Level 0 (Script.cues m [.keyword (if negated then " NOT IN (" else " IN ("),
        .assume f.dataType (Script.listed (values.map (Field.visit d))), .text ")"]) := by
      cases negated <;> exact flat_enclosed rfl hvalues
    have hchecks := flat_flatMap (m := m) (fun v : Field =>
      flat_checkDegree d (if negated then .conditionNotIn else .conditionIn) f.degree v.degree)
      values
    exact flat_append hchecks (level_cons (f.flat_visit d m) hin)

theorem Condition.flat_layoutBetween (clause : Clause) (f low high : Field)
    (negated symmetric : Bool) :
    Level 0 (Script.cues m (Condition.layoutBetween d clause f low high negated symmetric)) := by
  have hbounds : Level 0 (Script.cues m
      [.assume f.dataType [low.visit d, .keyword " AND ", high.visit d]]) := by
    refine level_singleton (level_cons (low.flat_visit d _) (level_cons (flat_keyword rfl) ?_))
    exact level_singleton (high.flat_visit d _)
  have hwords : ∀ (present : Bool) {word : String}, (Segment.keyword word).cue = .turn 0 →
      Level 0 (Script.cues m (if present then [.keyword word] else [])) := by
    intro present word hword
    cases present
    · exact level_nil
    · exact level_singleton (flat_keyword hword)
  have hrequire : Level 0 (Script.cues m
      (if symmetric then Script.require d .betweenSymmetric clause else [])) := by
    cases symmetric
    · exact level_nil
    · exact flat_require d _ _
  unfold Condition.layoutBetween
  simp only [List.append_assoc, List.singleton_append]
  refine flat_append hrequire (flat_append (flat_checkDegree d _ _ _) ?_)
  refine flat_append (flat_checkDegree d _ _ _) (level_cons (f.flat_visit d m) ?_)
  refine flat_append (hwords negated rfl) (level_cons (flat_keyword rfl) ?_)
  exact flat_append (hwords symmetric rfl) hbounds

theorem Select.flat_layoutFields (distinct : Bool) (fields : List Field) :
    Level 0 (Script.cues m (Select.layoutFields d distinct fields)) := by
  have hfields : Level 0 (Script.cues m (if fields.isEmpty then [.text "*"]
      else [.switch .declareFields true (Script.listed (fields.map (Field.visit d)))])) := by
    split
    · exact level_singleton (flat_text rfl)
    · exact level_singleton (flat_listed_map (Field.flat_visit d _) fields)
  cases distinct <;> exact level_cons (flat_keyword rfl) hfields

theorem Select.flat_layoutTables (tables : List Table) :
    Level 0 (Script.cues m (Select.layoutTables d tables)) := by
  unfold Select.layoutTables
  split
  · split
    · exact level_cons (flat_keyword rfl) (level_singleton (Table.flat_visit d m .dual))
    · exact level_nil
  · refine level_cons (flat_keyword rfl) (level_singleton ?_)
    exact flat_listed_map (Table.flat_visit d _) tables

theorem SortField.flat_visit (s : SortField) : Level 0 ((s.visit d).cues m) := by
  obtain ⟨field, order⟩ := s
  have hword : ∀ word, (Segment.keyword word).cue = .turn 0 →
      Level 0 (Script.cues m [field.visit d, .keyword word]) :=
    fun _ hword => level_cons (field.flat_visit d m) (level_singleton (flat_keyword hword))
  cases order with
  | asc => exact hword " ASC" rfl
  | desc => exact hword " DESC" rfl

end

/-- How many orders a select writes outside of parentheses. -/
def Select.orders (s : Select) : Nat := if s.orderBy.isEmpty then 0 else 1

/-- How many orders a query writes outside of parentheses: its own, or those of its arms. -/
def Query.orders : Query → Nat
  | .select s => s.orders
  | .unionAll selects => (selects.map Select.orders).sum

section

variable (d : Dialect)

theorem Select.level_layoutOrder (m : Modes) (orderBy : List SortField) :
    Level (if orderBy.isEmpty then 0 else 1)
      (Script.cues m (Script.ifAny " ORDER BY " (orderBy.map (SortField.visit d)))) := by
  have hlist := flat_listed_map (SortField.flat_visit d m) orderBy
  unfold Script.ifAny
  rw [List.isEmpty_map]
  split
  · exact level_nil
  · rw [cues_cons]
    exact Level.order.append_flat hlist

theorem Script.flat_groupBy (m : Modes) (groupBy : List Field) :
    Level 0 (Script.cues m (Script.ifAny " GROUP BY " (groupBy.map (Field.visit d)))) := by
  unfold Script.ifAny
  split
  · exact level_nil
  · exact level_cons (flat_keyword rfl) (flat_listed_map (Field.flat_visit d m) groupBy)

theorem Script.flat_hierarchical (m : Modes) (clause : Clause) {condition : Script}
    (h : Level 0 (Script.cues m condition)) :
    Level 0 (Script.cues m (Script.hierarchical d clause condition)) := by
  unfold Script.hierarchical
  refine flat_append ?_ h
  split
  · exact level_nil
  · exact flat_require d _ _

mutual

theorem Condition.flat_body (m : Modes) : ∀ c : Condition, Level 0 (Script.cues m (c.body d))
  | .comparison left op right => by
    have hop : Level 0 ((Action.keyword op.sql).cues m) := by
      cases op <;> exact flat_keyword rfl
    have hright : Level 0 ((Action.assume left.dataType [right.visit d]).cues m) :=
      level_singleton (right.flat_visit d _)
    have hleft : Level 0 ((Action.assume right.dataType [left.visit d]).cues m) :=
      level_singleton (left.flat_visit d _)
    rw [Condition.body]
    refine flat_append (flat_checkDegree d _ _ _) (level_cons hleft ?_)
    refine level_cons (flat_text rfl) (level_cons hop (level_cons (flat_text rfl) ?_))
    exact level_singleton hright
  | .not c => by
    have ih := Condition.flat_body m c
    rw [Condition.body]
    exact flat_enclosed rfl (level_singleton ih)
  | .combined op conditions => by
    rw [Condition.body]
    exact op.flat_layout m (Condition.flat_visits m conditions)
  | .isNull f negated => by
    rw [Condition.body]
    cases negated <;> exact level_cons (f.flat_visit d m) (level_singleton (flat_keyword rfl))
  | .isIn f values negated => by
    rw [Condition.body]
    exact Condition.flat_layoutIn d m f values negated
  | .between f low high negated symmetric => by
    rw [Condition.body]
    exact Condition.flat_layoutBetween d m _ f low high negated symmetric
  | .exists q negated => by
    -- whatever the query orders is inside of the parentheses
    have ih := Query.level_visits m q
    rw [Condition.body]
    cases negated <;> exact flat_enclosed rfl ih

theorem Condition.flat_visits (m : Modes) :
    ∀ cs : List Condition, ∀ a ∈ Condition.visits d cs, Level 0 (a.cues m)
  | [], a, ha => by cases ha
  | c :: cs, a, ha => by
    rcases List.mem_cons.1 ha with rfl | ha
    · exact Condition.flat_body m c
    · exact Condition.flat_visits m cs a ha

theorem Condition.flat_slot (m : Modes) {word : String}
    (hword : (Segment.keyword word).cue = .turn 0) :
    ∀ c : Option Condition, Level 0 (Script.cues m (Condition.slot d word c))
  | none => .nil
  | some c => level_cons (flat_keyword hword) (level_singleton (Condition.flat_body m c))

theorem Query.level_visits (m : Modes) : ∀ q : Query, Level q.orders (Script.cues m (q.visits d))
  | .select s => by
    rw [Query.visits]
    exact level_singleton (Select.level_body m s)
  | .unionAll selects => by
    have ih := Select.level_visits m selects
    rw [Query.visits]
    apply level_singleton
    show Level _ (Script.cues m (if selects.isEmpty then _ else _))
    split
    · next h =>
      rw [List.isEmpty_iff.1 h]
      exact flat_fail _
    · exact level_intersperse (flat_keyword rfl) (List.forall₂_map_left_iff.2 ih)

theorem Select.level_body (m : Modes) : ∀ s : Select, Level s.orders (Script.cues m (s.body d))
  | { distinct, fields, tables, filter, startWith, connectBy, groupBy, having, orderBy } => by
    rw [Select.body]
    refine level_cons (Select.flat_layoutFields d m distinct fields) ?_
    refine level_cons (Select.flat_layoutTables d m tables) ?_
    refine level_cons (Condition.flat_slot m rfl filter) ?_
    refine level_cons (flat_hierarchical d m _ (Condition.flat_slot m rfl startWith)) ?_
    refine level_cons (flat_hierarchical d m _ (Condition.flat_slot m rfl connectBy)) ?_
    refine level_cons (flat_groupBy d m groupBy) ?_
    refine level_cons (Condition.flat_slot m rfl having) ?_
    exact level_singleton (Select.level_layoutOrder d m orderBy)

theorem Select.level_visits (m : Modes) : ∀ ss : List Select,
    List.Forall₂ (fun s a => Level s.orders (a.cues m)) ss (Select.visits d ss)
  | [] => .nil
  | s :: ss => .cons (Select.level_body m s) (Select.level_visits m ss)

end

/-- **The orders of a query outside of all parentheses are those of the selects that it is made
of.** -/
theorem Query.level_visit (m : Modes) (q : Query) : Level q.orders ((q.visit d).cues m) := by
  have h := q.level_visits d m
  rw [Query.visits_eq, cues_cons] at h
  simpa [Script.cues] using h

end

/-! ## Settled drafts -/

/-- A placeholder is no more syntax than the literal that it stands for. -/
theorem Stroke.cue_settle {s : Settings} {x : Stroke} {segment : Segment}
    {opened opened' : List Param} (h : x.settle s opened = some (segment, opened')) :
    segment.cue = x.cue := by
  match x with
  | .error _ | .ok (.placeholder _ _) => cases h
  | .ok (.text _) | .ok (.keyword _) | .ok (.ident _) =>
    cases h
    rfl
  | .ok (.literal o) =>
    rw [Stroke.settle_literal] at h
    split at h
    · cases h
    · split at h
      · split at h
        · cases h
          rfl
        · cases h
      · cases h
        rfl

/-- A draft keeps its cues when it is settled. -/
theorem cues_settle {s : Settings} {xs : List Stroke} {out : List Segment}
    {opened opened' : List Param} (h : settle s opened xs = some (out, opened')) :
    out.map Segment.cue = xs.map Stroke.cue := by
  induction xs generalizing opened out with
  | nil =>
    cases h
    rfl
  | cons x xs ih =>
    obtain ⟨segment, opened₁, rest, hx, hrest, rfl⟩ := settle_cons_eq_some.1 h
    rw [List.map_cons, List.map_cons, Stroke.cue_settle hx, ih hrest]

end SqlRender
