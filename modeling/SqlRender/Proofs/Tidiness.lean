import SqlRender.Proofs.Draft
import SqlRender.Proofs.Lexing

/-!
# Names and values stand apart

The strokes of a draft are *pieces*, names and values that may be written between quotes, and
*separators*, plain texts and keywords without quotes. A draft is `Tidy` if no two of its pieces stand
side by side. The nodes of the SQL tree are laid out by rules that build on each other:

```text
Tidy     ::=  nothing  |  piece  |  Tidy Clausal  |  Mute Tidy
Clausal  ::=  nothing  |  separator Tidy  |  Clausal Clausal
Mute     ::=  nothing  |  separator Mute
```

`Part.tidy_visit` says that the draft of every node is tidy, and `Tidy.separable` that the
tokens of a tidy draft can be told apart once it is settled.
-/

namespace SqlRender

/-! ## Tidy drafts -/

/-- Whether a stroke is a plain text or a keyword, not empty and without quotes. Behind an error
nothing is written, so it separates as well. -/
def Stroke.isSeparator : Stroke → Bool
  | .ok (.text s) => isClear s
  | .ok (.keyword word) => isClear word
  | .error _ => true
  | _ => false

/-- Whether a stroke is a name or a value. -/
def Stroke.isPiece : Stroke → Bool
  | .ok (.ident _) | .ok (.literal _) => true
  | _ => false

/-- Pieces and separators, and no two pieces side by side. -/
structure Tidy (xs : List Stroke) : Prop where
  known : ∀ x ∈ xs, x.isPiece = true ∨ x.isSeparator = true
  apart : xs.IsChain fun x y => x.isSeparator = true ∨ y.isSeparator = true

/-- Tidy, and not beginning with a piece. -/
structure Clausal (xs : List Stroke) : Prop extends Tidy xs where
  led : ∀ x ∈ xs.head?, x.isSeparator = true

/-- Nothing but separators. -/
def Mute (xs : List Stroke) : Prop := ∀ x ∈ xs, x.isSeparator = true

section

variable {x : Stroke} {xs ys : List Stroke}

theorem Clausal.nil : Clausal [] :=
  ⟨⟨by simp, List.isChain_nil⟩, by simp⟩

theorem Tidy.nil : Tidy [] := Clausal.nil.toTidy

theorem Tidy.piece (h : x.isPiece = true) : Tidy [x] :=
  ⟨by simp [h], List.isChain_singleton x⟩

theorem Tidy.append (hxs : Tidy xs) (hys : Clausal ys) : Tidy (xs ++ ys) where
  known := by
    intro x hx
    rcases List.mem_append.1 hx with hx | hx
    · exact hxs.known x hx
    · exact hys.known x hx
  apart := List.isChain_append.2 ⟨hxs.apart, hys.apart, fun _ _ y hy => .inr (hys.led y hy)⟩

theorem Tidy.lead (hxs : Tidy xs) (hx : x.isSeparator = true) : Clausal (x :: xs) where
  known := by
    intro y hy
    rcases List.mem_cons.1 hy with rfl | hy
    · exact .inr hx
    · exact hxs.known y hy
  apart := List.isChain_cons.2 ⟨fun _ _ => .inl hx, hxs.apart⟩
  led := by
    intro y hy
    cases hy
    exact hx

theorem Clausal.append (hxs : Clausal xs) (hys : Clausal ys) : Clausal (xs ++ ys) where
  toTidy := hxs.toTidy.append hys
  led := by
    cases xs with
    | nil => exact hys.led
    | cons x xs => exact hxs.led

theorem Mute.nil : Mute [] := by
  intro x hx
  cases hx

theorem Mute.append_tidy (hxs : Mute xs) (hys : Tidy ys) : Tidy (xs ++ ys) := by
  induction xs with
  | nil => exact hys
  | cons x xs ih =>
    have hrest := ih fun y hy => hxs y (List.mem_cons_of_mem _ hy)
    exact (hrest.lead (hxs x List.mem_cons_self)).toTidy

theorem Mute.clausal (hxs : Mute xs) : Clausal xs := by
  cases xs with
  | nil => exact .nil
  | cons x xs =>
    have hrest : Tidy (xs ++ []) :=
      append_tidy (fun y hy => hxs y (List.mem_cons_of_mem _ hy)) .nil
    rw [List.append_nil] at hrest
    exact hrest.lead (hxs x List.mem_cons_self)

end

/-! ### Tidy scripts -/

namespace Script

variable {m : Modes} {a : Action} {as bs : Script}

theorem tidy_nil : Tidy (Script.draft m []) := .nil

theorem tidy_cons (ha : Tidy (a.draft m)) (has : Clausal (Script.draft m as)) :
    Tidy (Script.draft m (a :: as)) :=
  ha.append has

theorem clausal_cons (ha : Clausal (a.draft m)) (has : Clausal (Script.draft m as)) :
    Clausal (Script.draft m (a :: as)) :=
  ha.append has

theorem clausal_text {s : String} (hs : isClear s = true) (has : Tidy (Script.draft m as)) :
    Clausal (Script.draft m (.text s :: as)) :=
  has.lead hs

theorem clausal_keyword {word : String} (hword : isClear word = true)
    (has : Tidy (Script.draft m as)) : Clausal (Script.draft m (.keyword word :: as)) :=
  has.lead hword

theorem tidy_append (has : Tidy (Script.draft m as)) (hbs : Clausal (Script.draft m bs)) :
    Tidy (Script.draft m (as ++ bs)) := by
  rw [draft_append]
  exact has.append hbs

theorem clausal_append (has : Clausal (Script.draft m as)) (hbs : Clausal (Script.draft m bs)) :
    Clausal (Script.draft m (as ++ bs)) := by
  rw [draft_append]
  exact has.append hbs

/-- A single action is as tidy as its strokes. -/
theorem tidy_singleton (ha : Tidy (a.draft m)) : Tidy (Script.draft m [a]) :=
  tidy_cons ha .nil

theorem clausal_singleton (ha : Clausal (a.draft m)) : Clausal (Script.draft m [a]) :=
  clausal_cons ha .nil

/-- What a separator stands between is tidy if each of it is. -/
theorem tidy_intersperse (ha : ∀ cs, Tidy (Script.draft m cs) → Clausal (Script.draft m (a :: cs))) :
    ∀ {as : Script}, (∀ b ∈ as, Tidy (b.draft m)) → Tidy (Script.draft m (as.intersperse a))
  | [], _ => .nil
  | [b], h => tidy_singleton (h b List.mem_cons_self)
  | b :: c :: as, h => by
    rw [List.intersperse_cons_cons]
    have hrest := tidy_intersperse ha fun b' hb' => h b' (List.mem_cons_of_mem _ hb')
    exact tidy_cons (h b List.mem_cons_self) (ha _ hrest)

theorem tidy_separated {separator : String} (hsep : isClear separator = true)
    (h : ∀ b ∈ as, Tidy (b.draft m)) : Tidy (Script.draft m (Script.separated separator as)) :=
  tidy_intersperse (fun _ => clausal_keyword hsep) h

theorem tidy_listed (h : ∀ b ∈ as, Tidy (b.draft m)) : Tidy (Script.draft m (Script.listed as)) :=
  tidy_separated (by decide) h

theorem mute_append_tidy (has : Mute (Script.draft m as)) (hbs : Tidy (Script.draft m bs)) :
    Tidy (Script.draft m (as ++ bs)) := by
  rw [draft_append]
  exact has.append_tidy hbs

theorem mute_flatMap {α : Type} {f : α → Script} (h : ∀ a, Mute (Script.draft m (f a)))
    (as : List α) : Mute (Script.draft m (as.flatMap f)) := by
  induction as with
  | nil => exact .nil
  | cons a as ih =>
    intro x hx
    rw [List.flatMap_cons, draft_append] at hx
    rcases List.mem_append.1 hx with hx | hx
    · exact h a x hx
    · exact ih x hx

theorem mute_fail (e : RenderError) : Mute (Script.draft m [.fail e]) := by
  intro x hx
  rw [List.mem_singleton.1 hx]
  rfl

theorem mute_require (d : Dialect) (f : Feature) (c : Clause) :
    Mute (Script.draft m (Script.require d f c)) := by
  unfold Script.require
  split
  · exact mute_fail _
  · exact .nil

theorem mute_checkDegree (d : Dialect) (c : Clause) (expected found : Nat) :
    Mute (Script.draft m (Script.checkDegree d c expected found)) := by
  unfold Script.checkDegree
  split
  · exact .nil
  · exact mute_fail _

theorem clausal_failEmpty (d : Dialect) (c : Clause) :
    Clausal (Script.draft m (Script.failEmpty d c)) :=
  (mute_fail _).clausal

/-- Actions that are done in some modes only. -/
theorem clausal_whenOn {mode : Mode} (has : Clausal (Script.draft m as)) :
    Clausal ((Action.whenOn mode as).draft m) := by
  unfold Action.draft
  split
  · exact has
  · exact .nil

end Script

open Script

/-! ## Fields and tables -/

section

variable (d : Dialect)

mutual

theorem Field.tidy_body (m : Modes) : ∀ f : Field, Tidy (Script.draft m (f.body d))
  | .column c => by
    have hname : Tidy (Script.draft m [.ident c.name]) := .piece rfl
    rw [Field.body, Column.body]
    cases c.qualifier with
    | none => exact hname
    | some q =>
      -- the point stands between the two names
      have hpoint : Clausal (Script.draft m [.text "."]) := clausal_text (by decide) tidy_nil
      have hboth : Tidy (Script.draft m [.ident q, .text ".", .ident c.name]) :=
        tidy_cons (.piece rfl) (clausal_text (by decide) hname)
      show Tidy ((Action.whenOn .qualify [.ident q, .text "."]).draft m ++
        Script.draft m [.ident c.name])
      unfold Action.draft
      split
      · exact hboth
      · exact hname
  | .value p => .piece rfl
  | .aliased f name => by
    have ih := Field.tidy_body m f
    have hname : Tidy (Script.draft m [.ident name]) := .piece rfl
    have hdeclared : Tidy (Script.draft m
        [.visit f.asPart (f.body d), .keyword " AS ", .ident name]) :=
      tidy_cons ih (clausal_keyword (by decide) hname)
    rw [Field.body]
    show Tidy ((Action.whenOn .declareFields _).draft m ++ Script.draft m [.ident name])
    unfold Action.draft
    split
    · rwa [← draft_append]
    · exact hname
  | .row fields => by
    have ih := Field.tidy_visits m fields
    rw [Field.body, Row.layout]
    split
    · exact (clausal_failEmpty d _).toTidy
    · refine (clausal_append (clausal_text (by decide) (tidy_listed ih)) ?_).toTidy
      exact clausal_text (by decide) tidy_nil

theorem Field.tidy_visits (m : Modes) :
    ∀ fs : List Field, ∀ a ∈ Field.visits d fs, Tidy (a.draft m)
  | [], a, ha => by cases ha
  | f :: fs, a, ha => by
    rcases List.mem_cons.1 ha with rfl | ha
    · exact Field.tidy_body m f
    · exact Field.tidy_visits m fs a ha

end

end

section

variable (d : Dialect) (m : Modes)

theorem Field.tidy_visit (f : Field) : Tidy ((f.visit d).draft m) := f.tidy_body d m

theorem Row.tidy_visit (r : Row) : Tidy ((Row.visit d r).draft m) := Field.tidy_body d m (.row r)

/-- A list of parts with commas between them is tidy if each part is. -/
theorem Script.tidy_listed_map {α : Type} {f : α → Action} (h : ∀ a, Tidy ((f a).draft m))
    (as : List α) : Tidy (Script.draft m (Script.listed (as.map f))) := by
  apply tidy_listed
  intro a ha
  obtain ⟨b, -, rfl⟩ := List.mem_map.1 ha
  exact h b

theorem clausal_identList (names : List String) : Clausal (Script.draft m (identList names)) := by
  have hnames : Tidy (Script.draft m ((names.map Action.ident).intersperse (.text ", "))) := by
    apply tidy_intersperse (fun _ => clausal_text (by decide))
    intro a ha
    obtain ⟨name, -, rfl⟩ := List.mem_map.1 ha
    exact .piece rfl
  exact clausal_append (clausal_text (by decide) hnames) (clausal_text (by decide) tidy_nil)

theorem Table.tidy_body (t : Table) : Tidy (Script.draft m (t.body d)) := by
  induction t with
  | named schema name =>
    cases schema with
    | none => exact .piece rfl
    | some schema => exact tidy_cons (.piece rfl) (clausal_text (by decide) (.piece rfl))
  | aliased t name columns ih =>
    have hname : Tidy (Script.draft m [.ident name]) := .piece rfl
    have hintro : ∀ intro : Action, intro = .keyword " AS " ∨ intro = .text " " →
        Tidy (Script.draft m [.whenOn .declareTables [.visit (.table t) (t.body d), intro],
          .ident name]) := by
      intro intro hcases
      -- the table and the name of the alias are two pieces, with a word or a blank between them
      have hdeclared : Tidy (Script.draft m [.visit (.table t) (t.body d), intro, .ident name]) := by
        refine tidy_cons ih ?_
        rcases hcases with rfl | rfl
        · exact clausal_keyword (by decide) hname
        · exact clausal_text (by decide) hname
      rw [draft_cons, Action.draft]
      split
      · rcases hcases with rfl | rfl <;> simpa [Action.draft] using hdeclared
      · exact hname
    unfold Table.body
    dsimp only
    refine tidy_append (hintro _ ?_) ?_
    · split
      · exact .inl rfl
      · exact .inr rfl
    · split
      · exact .nil
      · exact clausal_singleton (clausal_whenOn (clausal_identList m columns))
  | values rows =>
    apply mute_append_tidy (mute_require d _ _)
    cases rows with
    | nil => exact (clausal_failEmpty d _).toTidy
    | cons first rest =>
      have hrows := tidy_listed_map m (Row.tidy_visit d m) (first :: rest)
      have hchecks : Mute (Script.draft m ((first :: rest).flatMap fun r =>
          Script.checkDegree d .tableValues first.length r.length)) :=
        mute_flatMap (fun r => mute_checkDegree d _ _ _) _
      have hlead : Clausal (Script.draft m (.text "(" :: .keyword "VALUES " ::
          Script.listed ((first :: rest).map (Row.visit d)))) :=
        clausal_text (by decide) (clausal_keyword (by decide) hrows).toTidy
      have hclose : Clausal (Script.draft m [.text ")"]) := clausal_text (by decide) tidy_nil
      have hall := mute_append_tidy hchecks (clausal_append hlead hclose).toTidy
      simpa using hall
  | dual => exact (clausal_keyword (by decide) tidy_nil).toTidy

theorem Table.tidy_visit (t : Table) : Tidy ((t.visit d).draft m) := t.tidy_body d m

/-! ## Conditions and queries -/

theorem Comparator.isClear_sql (op : Comparator) : isClear op.sql = true := by
  cases op <;> decide

theorem Connective.isClear_separator (op : Connective) : isClear (" " ++ op.sql ++ " ") = true := by
  cases op <;> decide

theorem Connective.tidy_layout (op : Connective) {operands : Script}
    (h : ∀ a ∈ operands, Tidy (a.draft m)) : Tidy (Script.draft m (op.layout operands)) := by
  unfold Connective.layout
  split
  · cases op <;> exact (clausal_text (by decide) tidy_nil).toTidy
  · exact tidy_singleton (h _ List.mem_cons_self)
  · have hoperands := tidy_separated op.isClear_separator h
    refine (clausal_append (clausal_text (by decide) hoperands) ?_).toTidy
    exact clausal_text (by decide) tidy_nil

theorem Condition.tidy_layoutIn (f : Field) (values : List Field) (negated : Bool) :
    Tidy (Script.draft m (Condition.layoutIn d f values negated)) := by
  unfold Condition.layoutIn
  dsimp only
  split
  · cases negated <;> exact (clausal_text (by decide) tidy_nil).toTidy
  · have hchecks : Mute (Script.draft m (values.flatMap fun v => Script.checkDegree d
        (if negated then .conditionNotIn else .conditionIn) f.degree v.degree)) :=
      mute_flatMap (fun v => mute_checkDegree d _ _ _) _
    have hclose : Clausal (Script.draft m [.text ")"]) := clausal_text (by decide) tidy_nil
    have hvalues : Tidy (Script.draft m
        [.assume f.dataType (Script.listed (values.map (Field.visit d))), .text ")"]) :=
      tidy_cons (tidy_listed_map _ (Field.tidy_visit d _) values) hclose
    have htest : Tidy (Script.draft m [f.visit d, .keyword (if negated then " NOT IN (" else " IN ("),
        .assume f.dataType (Script.listed (values.map (Field.visit d))), .text ")"]) := by
      refine tidy_cons (f.tidy_visit d m) (clausal_keyword ?_ hvalues)
      cases negated <;> decide
    exact mute_append_tidy hchecks htest

theorem Condition.tidy_layoutBetween (clause : Clause) (f low high : Field)
    (negated symmetric : Bool) :
    Tidy (Script.draft m (Condition.layoutBetween d clause f low high negated symmetric)) := by
  have hbounds : Tidy (Script.draft m
      [.assume f.dataType [low.visit d, .keyword " AND ", high.visit d]]) := by
    refine tidy_singleton (tidy_cons (low.tidy_visit d _) (clausal_keyword (by decide) ?_))
    exact tidy_singleton (high.tidy_visit d _)
  have hsymmetric : Mute (Script.draft m (if symmetric then [.keyword "SYMMETRIC "] else [])) := by
    cases symmetric
    · exact .nil
    · exact fun x hx => by rw [List.mem_singleton.1 hx]; decide
  have hrest : Tidy (Script.draft m ((if symmetric then [.keyword "SYMMETRIC "] else []) ++
      [.assume f.dataType [low.visit d, .keyword " AND ", high.visit d]])) :=
    mute_append_tidy hsymmetric hbounds
  have hbetween : Clausal (Script.draft m ([.keyword " BETWEEN "] ++
      ((if symmetric then [.keyword "SYMMETRIC "] else []) ++
        [.assume f.dataType [low.visit d, .keyword " AND ", high.visit d]]))) :=
    clausal_keyword (by decide) hrest
  have hnot : Clausal (Script.draft m (if negated then [.keyword " NOT"] else [])) := by
    cases negated
    · exact .nil
    · exact clausal_keyword (by decide) tidy_nil
  have hrequire : Mute (Script.draft m
      (if symmetric then Script.require d .betweenSymmetric clause else [])) := by
    cases symmetric
    · exact .nil
    · exact mute_require d _ _
  unfold Condition.layoutBetween
  simp only [List.append_assoc]
  refine mute_append_tidy hrequire (mute_append_tidy (mute_checkDegree d _ _ _) ?_)
  apply mute_append_tidy (mute_checkDegree d _ _ _)
  exact tidy_append (tidy_singleton (f.tidy_visit d m)) (clausal_append hnot hbetween)

theorem Select.clausal_layoutFields (distinct : Bool) (fields : List Field) :
    Clausal (Script.draft m (Select.layoutFields d distinct fields)) := by
  have hselect : isClear (if distinct then "SELECT DISTINCT " else "SELECT ") = true := by
    cases distinct <;> decide
  apply clausal_keyword hselect
  show Tidy (Script.draft m (if fields.isEmpty then _ else _))
  split
  · exact (clausal_text (by decide) tidy_nil).toTidy
  · exact tidy_singleton (tidy_listed_map _ (Field.tidy_visit d _) fields)

theorem Select.clausal_layoutTables (tables : List Table) :
    Clausal (Script.draft m (Select.layoutTables d tables)) := by
  unfold Select.layoutTables
  split
  · split
    · exact clausal_keyword (by decide) (tidy_singleton (Table.tidy_visit d m .dual))
    · exact .nil
  · refine clausal_keyword (by decide) (tidy_singleton ?_)
    exact tidy_listed_map _ (Table.tidy_visit d _) tables

theorem SortField.tidy_visit (s : SortField) : Tidy ((s.visit d).draft m) := by
  obtain ⟨field, order⟩ := s
  cases order with
  | asc =>
    have hword : isClear " ASC" = true := by decide
    exact tidy_cons (field.tidy_visit d m) (clausal_keyword hword tidy_nil)
  | desc =>
    have hword : isClear " DESC" = true := by decide
    exact tidy_cons (field.tidy_visit d m) (clausal_keyword hword tidy_nil)

/-- A slot with a list is empty or begins with its keyword. -/
theorem Script.clausal_ifAny {word : String} (hword : isClear word = true) {items : Script}
    (h : ∀ a ∈ items, Tidy (a.draft m)) : Clausal (Script.draft m (Script.ifAny word items)) := by
  unfold Script.ifAny
  split
  · exact .nil
  · exact clausal_keyword hword (tidy_listed h)

theorem Script.clausal_hierarchical (clause : Clause) {condition : Script}
    (h : Clausal (Script.draft m condition)) :
    Clausal (Script.draft m (Script.hierarchical d clause condition)) := by
  unfold Script.hierarchical
  refine clausal_append ?_ h
  split
  · exact .nil
  · exact (mute_require d _ _).clausal

end

section

variable (d : Dialect)

mutual

theorem Condition.tidy_body (m : Modes) : ∀ c : Condition, Tidy (Script.draft m (c.body d))
  | .comparison left op right => by
    have hright : Tidy (Script.draft m [.assume left.dataType [right.visit d]]) :=
      tidy_singleton (tidy_singleton (right.tidy_visit d _))
    have hop : Clausal (Script.draft m
        [.text " ", .keyword op.sql, .text " ", .assume left.dataType [right.visit d]]) := by
      refine clausal_text (by decide) (clausal_keyword op.isClear_sql ?_).toTidy
      exact (clausal_text (by decide) hright).toTidy
    rw [Condition.body]
    apply mute_append_tidy (mute_checkDegree d _ _ _)
    exact tidy_cons (tidy_singleton (left.tidy_visit d _)) hop
  | .not c => by
    have ih := Condition.tidy_body m c
    rw [Condition.body]
    refine (clausal_keyword (by decide) ?_).toTidy
    exact tidy_cons ih (clausal_text (by decide) tidy_nil)
  | .combined op conditions => by
    rw [Condition.body]
    exact op.tidy_layout m (Condition.tidy_visits m conditions)
  | .isNull f negated => by
    rw [Condition.body]
    refine tidy_cons (f.tidy_visit d m) (clausal_keyword ?_ tidy_nil)
    cases negated <;> decide
  | .isIn f values negated => by
    rw [Condition.body]
    exact Condition.tidy_layoutIn d m f values negated
  | .between f low high negated symmetric => by
    rw [Condition.body]
    exact Condition.tidy_layoutBetween d m _ f low high negated symmetric
  | .exists q negated => by
    have ih := Query.tidy_visits m q
    have hword : isClear (if negated then "NOT EXISTS (" else "EXISTS (") = true := by
      cases negated <;> decide
    rw [Condition.body]
    refine (clausal_append (clausal_keyword hword ih) ?_).toTidy
    exact clausal_text (by decide) tidy_nil

theorem Condition.tidy_visits (m : Modes) :
    ∀ cs : List Condition, ∀ a ∈ Condition.visits d cs, Tidy (a.draft m)
  | [], a, ha => by cases ha
  | c :: cs, a, ha => by
    rcases List.mem_cons.1 ha with rfl | ha
    · exact Condition.tidy_body m c
    · exact Condition.tidy_visits m cs a ha

theorem Condition.clausal_slot (m : Modes) {word : String} (hword : isClear word = true) :
    ∀ c : Option Condition, Clausal (Script.draft m (Condition.slot d word c))
  | none => .nil
  | some c => clausal_keyword hword (tidy_singleton (Condition.tidy_body m c))

theorem Query.tidy_visits (m : Modes) : ∀ q : Query, Tidy (Script.draft m (q.visits d))
  | .select s => by
    rw [Query.visits]
    exact tidy_singleton (Select.clausal_body m s).toTidy
  | .unionAll selects => by
    have ih := Select.tidy_visits m selects
    rw [Query.visits]
    apply tidy_singleton
    show Tidy (Script.draft m (if selects.isEmpty then _ else _))
    split
    · exact (clausal_failEmpty d _).toTidy
    · exact tidy_separated (by decide) ih

theorem Select.clausal_body (m : Modes) : ∀ s : Select, Clausal (Script.draft m (s.body d))
  | { distinct, fields, tables, filter, startWith, connectBy, groupBy, having, orderBy } => by
    have hgroup : ∀ a ∈ groupBy.map (Field.visit d), Tidy (a.draft m) := by
      intro a ha
      obtain ⟨f, -, rfl⟩ := List.mem_map.1 ha
      exact f.tidy_visit d m
    have horder : ∀ a ∈ orderBy.map (SortField.visit d), Tidy (a.draft m) := by
      intro a ha
      obtain ⟨s, -, rfl⟩ := List.mem_map.1 ha
      exact s.tidy_visit d m
    have hstart : Clausal (Script.draft m (Condition.slot d " START WITH " startWith)) :=
      Condition.clausal_slot m (by decide) startWith
    have hconnect : Clausal (Script.draft m (Condition.slot d " CONNECT BY " connectBy)) :=
      Condition.clausal_slot m (by decide) connectBy
    rw [Select.body]
    refine clausal_cons (Select.clausal_layoutFields d m distinct fields) ?_
    refine clausal_cons (Select.clausal_layoutTables d m tables) ?_
    refine clausal_cons (Condition.clausal_slot m (by decide) filter) ?_
    refine clausal_cons (clausal_hierarchical d m _ hstart) ?_
    refine clausal_cons (clausal_hierarchical d m _ hconnect) ?_
    refine clausal_cons (clausal_ifAny m (by decide) hgroup) ?_
    refine clausal_cons (Condition.clausal_slot m (by decide) having) ?_
    exact clausal_singleton (clausal_ifAny m (by decide) horder)

theorem Select.tidy_visits (m : Modes) :
    ∀ ss : List Select, ∀ a ∈ Select.visits d ss, Tidy (a.draft m)
  | [], a, ha => by cases ha
  | s :: ss, a, ha => by
    rcases List.mem_cons.1 ha with rfl | ha
    · exact (Select.clausal_body m s).toTidy
    · exact Select.tidy_visits m ss a ha

end

/-! ## Statements and parts -/

section

variable (m : Modes)

theorem Query.tidy_visit (q : Query) : Tidy ((q.visit d).draft m) := by
  have h := q.tidy_visits d m
  rw [Query.visits_eq, draft_cons, draft_nil, List.append_nil] at h
  exact h

theorem Assignment.tidy_listed (clause : Clause) (as : List Assignment) :
    Tidy (Script.draft m (Assignment.listed d clause as)) := by
  apply tidy_intersperse (fun _ => clausal_text (by decide))
  intro b hb
  obtain ⟨a, -, rfl⟩ := List.mem_map.1 hb
  show Tidy (Script.draft m (a.body d clause))
  have hvalue : Tidy (Script.draft m [.assume a.target.dataType [a.value.visit d]]) :=
    tidy_singleton (tidy_singleton (a.value.tidy_visit d _))
  have hequals : Clausal (Script.draft m
      [.text " = ", .assume a.target.dataType [a.value.visit d]]) :=
    clausal_text (by decide) hvalue
  have htarget : Tidy ((Action.switch .qualify false [a.target.visit d]).draft m) :=
    tidy_singleton (a.target.tidy_visit d _)
  have hrow : Mute (Script.draft m
      (if a.target.isRow then Script.require d .rowValueAssignment clause else [])) := by
    split
    · exact mute_require d _ _
    · exact .nil
  unfold Assignment.body
  rw [List.append_assoc]
  refine mute_append_tidy (mute_checkDegree d _ _ _) (mute_append_tidy hrow ?_)
  exact tidy_cons htarget hequals

theorem clausal_layoutReturning (fields : List Field) :
    Clausal (Script.draft m (layoutReturning d fields)) := by
  unfold layoutReturning
  split
  · exact .nil
  · split
    · refine clausal_keyword (by decide) (tidy_singleton ?_)
      exact tidy_listed_map _ (Field.tidy_visit d _) fields
    · exact .nil

theorem Insert.clausal_layoutTarget (into : Table) (columns : List Field) :
    Clausal (Script.draft m (Insert.layoutTarget d into columns)) := by
  refine clausal_append (clausal_keyword (by decide) ?_) ?_
  · exact tidy_singleton (tidy_singleton (into.tidy_visit d _))
  · split
    · exact .nil
    · have hcolumns := tidy_listed_map (m.switch .qualify false) (Field.tidy_visit d _) columns
      have hclose : Clausal (Script.draft m [.text ")"]) := clausal_text (by decide) tidy_nil
      exact clausal_text (by decide) (tidy_cons hcolumns hclose)

theorem Insert.clausal_layoutDefaults (columns : List Field) :
    Clausal (Script.draft m (Insert.layoutDefaults d columns)) := by
  unfold Insert.layoutDefaults
  split
  · refine clausal_append (mute_require d _ _).clausal (clausal_singleton ?_)
    refine clausal_keyword ?_ tidy_nil
    cases d <;> decide
  · exact clausal_failEmpty d _

theorem Insert.clausal_layoutRows (columns : List Field) (rows : List Row) :
    Clausal (Script.draft m (Insert.layoutRows d columns rows)) := by
  unfold Insert.layoutRows
  dsimp only
  apply clausal_append (mute_flatMap (fun r => mute_checkDegree d _ _ _) _).clausal
  split
  · exact Insert.clausal_layoutDefaults d m columns
  · split
    · exact clausal_failEmpty d _
    · split
      · refine clausal_singleton (clausal_text (by decide) (tidy_singleton ?_))
        exact (Insert.unionOf rows).tidy_visit d m
      · refine clausal_singleton (clausal_keyword (by decide) ?_)
        exact tidy_listed_map m (Row.tidy_visit d m) rows

theorem InsertSource.clausal_layout (columns : List Field) (source : InsertSource) :
    Clausal (Script.draft m (source.layout d columns)) := by
  cases source with
  | values rows => exact Insert.clausal_layoutRows d m columns rows
  | query q =>
    exact clausal_singleton (clausal_text (by decide) (tidy_singleton (q.tidy_visit d m)))

theorem Insert.clausal_layoutOnDuplicate (as : List Assignment) :
    Clausal (Script.draft m (Insert.layoutOnDuplicate d as)) := by
  unfold Insert.layoutOnDuplicate
  split
  · exact .nil
  · split
    · exact clausal_keyword (by decide) (Assignment.tidy_listed d m _ as)
    · exact .nil

theorem Insert.clausal_body (i : Insert) : Clausal (Script.draft m (i.body d)) := by
  refine clausal_append (clausal_append ?_ (i.source.clausal_layout d m i.columns)) ?_
  · exact clausal_singleton (Insert.clausal_layoutTarget d m i.into i.columns)
  · refine clausal_cons (Insert.clausal_layoutOnDuplicate d m i.onDuplicateKeyUpdate) ?_
    exact clausal_singleton (clausal_layoutReturning d m i.returning)

theorem Update.clausal_body (u : Update) : Clausal (Script.draft m (u.body d)) := by
  have htable : Clausal (Script.draft m
      [.keyword "UPDATE ", .switch .declareTables true [u.table.visit d]]) :=
    clausal_keyword (by decide) (tidy_singleton (tidy_singleton (u.table.tidy_visit d _)))
  have hset : Clausal (Script.draft m (Update.layoutSet d u.assignments)) := by
    unfold Update.layoutSet
    split
    · exact clausal_failEmpty d _
    · exact clausal_keyword (by decide) (Assignment.tidy_listed d m _ u.assignments)
  refine clausal_cons htable (clausal_cons hset ?_)
  refine clausal_cons (Condition.clausal_slot d m (by decide) u.filter) ?_
  exact clausal_singleton (clausal_layoutReturning d m u.returning)

theorem Delete.clausal_body (x : Delete) : Clausal (Script.draft m (x.body d)) := by
  have htable : Clausal (Script.draft m
      [.keyword "DELETE FROM ", .switch .declareTables true [x.table.visit d]]) :=
    clausal_keyword (by decide) (tidy_singleton (tidy_singleton (x.table.tidy_visit d _)))
  refine clausal_cons htable ?_
  exact clausal_singleton (Condition.clausal_slot d m (by decide) x.filter)

theorem Statement.tidy_visit (s : Statement) : Tidy ((s.visit d).draft m) := by
  cases s with
  | query q => exact q.tidy_visit d m
  | insert i => exact (i.clausal_body d m).toTidy
  | update u => exact (u.clausal_body d m).toTidy
  | delete x => exact (x.clausal_body d m).toTidy

/-- **In the draft of a node, names and values stand apart.** -/
theorem Part.tidy_visit {p : Part} (h : p.isNode = true) : Tidy ((p.visit d).draft m) := by
  cases p with
  | field f => exact f.tidy_visit d m
  | row r => exact Row.tidy_visit d m r
  | table t => exact t.tidy_visit d m
  | condition c => exact c.tidy_body d m
  | sort s => exact s.tidy_visit d m
  | select s => exact (s.clausal_body d m).toTidy
  | query q => exact q.tidy_visit d m
  | insert i => exact (i.clausal_body d m).toTidy
  | update u => exact (u.clausal_body d m).toTidy
  | delete x => exact (x.clausal_body d m).toTidy
  | statement s => exact s.tidy_visit d m
  | forward | custom => cases h

end

end

/-! ## Tokens of settled drafts -/

/-- A literal is one token, or a string behind the name of its type. -/
theorem Value.separable_literal (caps : Capabilities) (type : Option DataType) (v : Value) :
    Separable (v.literal caps type) := by
  cases v with
  | null => exact .singleton (by decide)
  | bool b =>
    show Separable (if caps.booleanLiterals then [.keyword (if b then "TRUE" else "FALSE")]
      else [.plain (if b then "1" else "0")])
    split <;> cases b <;> exact .singleton (by decide)
  | int n => exact .singleton (isClear_int _)
  | float x => exact .singleton x.isClear_text
  | text s =>
    have hstring : Separable [.string s] := .singleton rfl
    have hspace : Separable [.plain " ", .string s] := .cons (by decide) rfl hstring
    obtain ⟨caps⟩ := caps
    unfold Value.literal
    dsimp only
    split
    · exact .cons (by decide) rfl hspace
    · exact .cons (by decide) rfl hspace
    · exact hstring

/-- A separator stays one clear token, and a piece becomes tokens that can be told apart. -/
theorem Stroke.tokens_of_settle {s : Settings} {x : Stroke} {segment : Segment}
    {opened opened' : List Param} (hx : x.isPiece = true ∨ x.isSeparator = true)
    (h : x.settle s opened = some (segment, opened')) :
    (∃ t, segment.tokens s.capabilities = [t] ∧ t.isClear = true ∧ t.isQuoted = false) ∨
      x.isSeparator = false ∧ Separable (segment.tokens s.capabilities) := by
  match x with
  | .error _ | .ok (.placeholder _ _) => cases h
  | .ok (.text text) =>
    cases h
    exact .inl ⟨.plain text, rfl, hx.resolve_left (fun h => nomatch h), rfl⟩
  | .ok (.keyword word) =>
    cases h
    exact .inl ⟨.keyword word, rfl, hx.resolve_left (fun h => nomatch h), rfl⟩
  | .ok (.ident name) =>
    cases h
    exact .inr ⟨rfl, .singleton rfl⟩
  | .ok (.literal o) =>
    refine .inr ⟨rfl, ?_⟩
    rw [Stroke.settle_literal] at h
    split at h
    · cases h
    · split at h
      · split at h
        · cases h
          exact o.param.value.separable_literal s.capabilities o.type
        · cases h
      · cases h
        exact .singleton (s.capabilities.isClear_placeholder _)

/-- **The tokens of a tidy draft can be told apart** once it is settled, and those of one that does
not begin with a piece do not begin with a quoted token. -/
theorem Tidy.separable {s : Settings} {xs : List Stroke} {out : List Segment}
    {opened opened' : List Param} (hxs : Tidy xs)
    (h : settle s opened xs = some (out, opened')) :
    Separable (tokensOf s.capabilities out) ∧
      ((∀ x ∈ xs.head?, x.isSeparator = true) →
        ∀ t ∈ (tokensOf s.capabilities out).head?, t.isQuoted = false) := by
  induction xs generalizing opened out with
  | nil =>
    cases h
    exact ⟨.nil, fun _ _ ht => nomatch ht⟩
  | cons x xs ih =>
    obtain ⟨segment, opened₁, rest, hx, hrest, rfl⟩ := settle_cons_eq_some.1 h
    have htail : Tidy xs := ⟨fun y hy => hxs.known y (List.mem_cons_of_mem _ hy), hxs.apart.tail⟩
    obtain ⟨hseparable, hled⟩ := ih htail hrest
    have htokens : tokensOf s.capabilities (segment :: rest) =
        segment.tokens s.capabilities ++ tokensOf s.capabilities rest := rfl
    rw [htokens]
    rcases Stroke.tokens_of_settle (hxs.known x List.mem_cons_self) hx with
      ⟨t, ht, hclear, hquoted⟩ | ⟨hpiece, hsegment⟩
    · rw [ht]
      refine ⟨.cons hclear hquoted hseparable, fun _ u hu => ?_⟩
      cases hu
      exact hquoted
    · -- behind a piece there is a separator, or nothing
      have hnext : ∀ y ∈ xs.head?, y.isSeparator = true := by
        intro y hy
        rcases (List.isChain_cons.1 hxs.apart).1 y hy with hx' | hy'
        · rw [hx'] at hpiece
          cases hpiece
        · exact hy'
      refine ⟨hsegment.append hseparable (hled hnext), fun hfirst => ?_⟩
      rw [hfirst x rfl] at hpiece
      cases hpiece

end SqlRender
