import SqlRender.Proofs.Parentheses
import SqlRender.Proofs.Subqueries

/-!
# Unions

A union writes its arms one after the other, with `UNION ALL` between any two and nothing around
them. So what an arm writes outside of parentheses stands on the level of the union itself:

```text
SELECT "a" FROM "t" ORDER BY "a" ASC UNION ALL SELECT "a" FROM "u" ORDER BY "a" DESC
└──────────── first arm ───────────┘           └────────── second arm ─────────────┘
```

The seven slots in front are flat, whatever is nested in them. Only the last slot shows:
`Configuration.orders_stand_bare` says that each arm with an order writes one `ORDER BY` on the
level of the union, and that there are no others.
-/

namespace SqlRender

/-! ## The unions of a part -/

mutual

/-- The unions in a condition, each as the selects that are its arms, outermost first. -/
def Condition.unions : Condition → List (List Select)
  | .comparison _ _ _ => []
  | .not c => c.unions
  | .combined _ conditions => Condition.unionsIn conditions
  | .isNull _ _ => []
  | .isIn _ _ _ => []
  | .between _ _ _ _ _ => []
  | .exists q _ => q.unions

/-- The unions in conditions, in order. -/
def Condition.unionsIn : List Condition → List (List Select)
  | [] => []
  | c :: cs => c.unions ++ Condition.unionsIn cs

/-- The unions in a condition, if there is one. -/
def Condition.unionsOf : Option Condition → List (List Select)
  | none => []
  | some c => c.unions

/-- The union that a query is, and those in it. -/
def Query.unions : Query → List (List Select)
  | .select s => s.unions
  | .unionAll selects => selects :: Select.unionsIn selects

/-- The unions in the conditions of a select. -/
def Select.unions : Select → List (List Select)
  | { distinct := _, fields := _, tables := _, filter, startWith, connectBy, groupBy := _, having,
      orderBy := _ } =>
    Condition.unionsOf filter ++ (Condition.unionsOf startWith ++
      (Condition.unionsOf connectBy ++ Condition.unionsOf having))

/-- The unions in selects, in order. -/
def Select.unionsIn : List Select → List (List Select)
  | [] => []
  | s :: ss => s.unions ++ Select.unionsIn ss

end

/-- The unions of the source of an insert; many rows may be written as a union of selects. -/
def InsertSource.unions (d : Dialect) (columns : List Field) (source : InsertSource) :
    List (List Select) :=
  (source.query? d columns).elim [] Query.unions

/-- The unions of a statement. -/
def Statement.unions (d : Dialect) : Statement → List (List Select)
  | .query q => q.unions
  | .insert i => i.source.unions d i.columns
  | .update u => Condition.unionsOf u.filter
  | .delete x => Condition.unionsOf x.filter

/-- The unions of a node. -/
def Part.unions (d : Dialect) : Part → List (List Select)
  | .condition c => c.unions
  | .select s => s.unions
  | .query q => q.unions
  | .insert i => i.source.unions d i.columns
  | .update u => Condition.unionsOf u.filter
  | .delete x => Condition.unionsOf x.filter
  | .statement s => s.unions d
  | _ => []

/-! ## Visited unions -/

/-- The union that is visited, if it is one, with the modes of the visit and what is written. -/
def Visit.union? : Visit → Option (Modes × List Select × Script)
  | ⟨m, .query (.unionAll ss), body⟩ => some (m, ss, body)
  | _ => none

variable (d : Dialect)

/-- A union as it is visited under given modes. -/
def Select.union (m : Modes) (ss : List Select) : Modes × List Select × Script :=
  (m, ss, Query.body d (.unionAll ss))

open Script

@[simp] theorem Visit.passesLeaves_union? : PassesLeaves Visit.union? where
  field _ _ _ := rfl
  row _ _ _ := rfl
  table _ _ _ := rfl
  sort _ _ _ := rfl

mutual

theorem Condition.unions_body (m : Modes) : ∀ c : Condition,
    Script.meets Visit.union? m (c.body d) = c.unions.map (Select.union d m)
  | .comparison _ _ _ => by simp [Condition.body, Condition.unions]
  | .not c => by simp [Condition.body, Condition.unions, Visit.union?, Condition.unions_body m c]
  | .combined op conditions => by
    rw [Condition.body, meets_layout, Condition.unions, Condition.unions_visits m conditions]
  | .isNull _ _ => by simp [Condition.body, Condition.unions]
  | .isIn f values negated => by
    rw [Condition.body, Condition.meets_layoutIn d Visit.passesLeaves_union?, Condition.unions,
      List.map_nil]
  | .between _ _ _ _ _ => by
    rw [Condition.body, Condition.meets_layoutBetween d Visit.passesLeaves_union?,
      Condition.unions, List.map_nil]
  | .exists q _ => by simp [Condition.body, Condition.unions, Query.unions_visits m q]

theorem Condition.unions_visits (m : Modes) : ∀ cs : List Condition,
    Script.meets Visit.union? m (Condition.visits d cs) =
      (Condition.unionsIn cs).map (Select.union d m)
  | [] => rfl
  | c :: cs => by
    simp [Condition.visits, Condition.unionsIn, Visit.union?, Condition.unions_body m c,
      Condition.unions_visits m cs]

theorem Condition.unions_slot (m : Modes) (word : String) : ∀ c : Option Condition,
    Script.meets Visit.union? m (Condition.slot d word c) =
      (Condition.unionsOf c).map (Select.union d m)
  | none => rfl
  | some c => by
    simp [Condition.slot, Condition.unionsOf, Visit.union?, Condition.unions_body m c]

theorem Query.unions_visits (m : Modes) : ∀ q : Query,
    Script.meets Visit.union? m (q.visits d) = q.unions.map (Select.union d m)
  | .select s => by
    simp [Query.visits, Query.unions, Visit.union?, Select.unions_body m s]
  | .unionAll selects => by
    have ih := Select.unions_visits m selects
    rw [Query.visits, Query.unions, meets_cons, Action.meets_visit, meets_nil, List.append_nil]
    split
    · next h =>
      rw [List.isEmpty_iff.1 h]
      simp [Visit.union?, Select.union, Query.body, Select.unionsIn]
    · next h =>
      rw [Select.visits_eq_map] at ih ⊢
      simp [Visit.union?, Select.union, Query.body, h, ih]

theorem Select.unions_body (m : Modes) : ∀ s : Select,
    Script.meets Visit.union? m (s.body d) = s.unions.map (Select.union d m)
  | { distinct, fields, tables, filter, startWith, connectBy, groupBy, having, orderBy } => by
    rw [Select.body, Select.unions]
    simp [Condition.unions_slot m]

theorem Select.unions_visits (m : Modes) : ∀ ss : List Select,
    Script.meets Visit.union? m (Select.visits d ss) =
      (Select.unionsIn ss).map (Select.union d m)
  | [] => rfl
  | s :: ss => by
    simp [Select.visits, Select.unionsIn, Visit.union?, Select.unions_body m s,
      Select.unions_visits m ss]

end

@[simp] theorem Query.unions_visit (m : Modes) (q : Query) :
    (q.visit d).meets Visit.union? m = q.unions.map (Select.union d m) := by
  have h := q.unions_visits d m
  rwa [Query.visits_eq, meets_cons, meets_nil, List.append_nil] at h

@[simp] theorem InsertSource.unions_layout (m : Modes) (columns : List Field)
    (source : InsertSource) :
    Script.meets Visit.union? m (source.layout d columns) =
      (source.unions d columns).map (Select.union d m) := by
  rw [InsertSource.meets_layout_eq d Visit.passesLeaves_union?, InsertSource.unions]
  cases source.query? d columns with
  | none => rfl
  | some q => exact q.unions_visit d m

theorem Insert.unions_visit (m : Modes) (i : Insert) :
    (i.visit d).meets Visit.union? m =
      (i.source.unions d i.columns).map (Select.union d m) := by
  simp [Insert.visit, Insert.body, Visit.union?]

theorem Update.unions_visit (m : Modes) (u : Update) :
    (u.visit d).meets Visit.union? m =
      (Condition.unionsOf u.filter).map (Select.union d m) := by
  simp [Update.visit, Update.body, Visit.union?, Condition.unions_slot]

theorem Delete.unions_visit (m : Modes) (x : Delete) :
    (x.visit d).meets Visit.union? m =
      (Condition.unionsOf x.filter).map (Select.union d m) := by
  simp [Delete.visit, Delete.body, Visit.union?, Condition.unions_slot]

theorem Statement.unions_visit (m : Modes) (s : Statement) :
    (s.visit d).meets Visit.union? m = (s.unions d).map (Select.union d m) := by
  cases s with
  | query q => exact q.unions_visit d m
  | insert i => exact i.unions_visit d m
  | update u => exact u.unions_visit d m
  | delete x => exact x.unions_visit d m

/-- **The unions that the visit of a node enters are those of the node**, each under the modes that
the visit starts with. -/
theorem Part.unions_visit (m : Modes) {p : Part} (hp : p.isNode = true) :
    (p.visit d).meets Visit.union? m = (p.unions d).map (Select.union d m) := by
  cases p with
  | field f => exact f.meets_visit d Visit.passesLeaves_union? m
  | row r => exact Row.meets_visit d Visit.passesLeaves_union? m r
  | table t => exact t.meets_visit d Visit.passesLeaves_union? m
  | condition c => simp [Part.visit, Condition.visit, Visit.union?, Part.unions, c.unions_body]
  | sort s => simp [Part.visit, SortField.visit, SortField.body, Visit.union?, Part.unions]
  | select s => simp [Part.visit, Select.visit, Visit.union?, Part.unions, s.unions_body]
  | query q => exact q.unions_visit d m
  | insert i => exact i.unions_visit d m
  | update u => exact u.unions_visit d m
  | delete x => exact x.unions_visit d m
  | statement s => exact s.unions_visit d m
  | forward _ | custom _ _ => cases hp

/-- The union that a part is, if it is one. -/
def Part.union? : Part → Option (List Select)
  | .query (.unionAll ss) => some ss
  | _ => none

/-- The unions that the moves of a node enter are those of the node. -/
theorem Part.unions_entered (m : Modes) {p : Part} (hp : p.isNode = true) :
    (((p.visit d).moves m).filterMap Move.entered?).filterMap Part.union? = p.unions d := by
  have hunion : ∀ v : Visit, v.part.union? = v.union?.map fun x => x.2.1 := by
    rintro ⟨m, part, body⟩
    cases part with
    | query q => cases q <;> rfl
    | _ => rfl
  have hmeets := congrArg (List.map fun x => x.2.1) (Part.unions_visit d m hp)
  rw [List.map_map, Action.meets, List.map_filterMap] at hmeets
  rw [Action.entered_moves, List.filterMap_map]
  simpa [Function.comp_def, hunion, Select.union] using hmeets

/-- Where the moves of a node enter a union, they go on with the visit of the union. -/
theorem Part.split_at_union {m m' : Modes} {p : Part} (hp : p.isNode = true) {ss : List Select}
    {before rest : List Move}
    (h : (p.visit d).moves m = before ++ ⟨m', .enter (.query (.unionAll ss))⟩ :: rest) :
    ∃ after, (p.visit d).moves m =
      before ++ ((Query.visit d (.unionAll ss)).moves m ++ after) := by
  obtain ⟨⟨m', part, body⟩, hmem, rfl, rfl, after, hcut⟩ := Action.split_at_enter h
  have hmet : (m', ss, body) ∈ (p.visit d).meets Visit.union? m :=
    List.mem_filterMap.2 ⟨_, hmem, rfl⟩
  rw [Part.unions_visit d m hp] at hmet
  obtain ⟨ss', -, hss'⟩ := List.mem_map.1 hmet
  cases hss'
  exact ⟨after, by rw [h, hcut]; rfl⟩

/-! ## Arms -/

section

variable {s : Settings} {m : Modes} {opened opened' : List Param} {out : List Segment}

/-- Drafts that stand one behind the other are settled one after the other. -/
theorem settle_append_eq_some {xs ys : List Stroke}
    (h : settle s opened (xs ++ ys) = some (out, opened')) :
    ∃ out₁ opened₁ out₂, settle s opened xs = some (out₁, opened₁) ∧
      settle s opened₁ ys = some (out₂, opened') ∧ out = out₁ ++ out₂ := by
  induction xs generalizing opened out with
  | nil => exact ⟨[], opened, out, rfl, h, rfl⟩
  | cons x xs ih =>
    obtain ⟨segment, opened₁, rest, hx, hrest, rfl⟩ := settle_cons_eq_some.1 h
    obtain ⟨out₁, opened₂, out₂, hxs, hys, rfl⟩ := ih hrest
    have hcons : settle s opened (x :: xs) = some (segment :: out₁, opened₂) :=
      settle_cons_eq_some.2 ⟨segment, opened₁, out₁, hx, hxs, rfl⟩
    exact ⟨segment :: out₁, opened₂, out₂, hcons, hys, rfl⟩

/-- What is written for an action, somewhere in a render. -/
def Action.Writes (s : Settings) (m : Modes) (a : Action) (out : List Segment) : Prop :=
  ∃ opened opened', settle s opened (a.draft m) = some (out, opened')

theorem Action.Writes.cue_eq {a : Action} (h : a.Writes s m out) :
    out.map Segment.cue = a.cues m := by
  obtain ⟨opened, opened', hsettle⟩ := h
  exact cues_settle hsettle

/-- What is written for actions with a keyword between any two. -/
theorem Script.settle_separated (separator : String) {as : Script}
    (h : settle s opened (Script.draft m (Script.separated separator as)) = some (out, opened')) :
    ∃ outs, out = [.keyword separator].intercalate outs ∧
      List.Forall₂ (Action.Writes s m) as outs := by
  induction as generalizing opened out with
  | nil =>
    cases h
    exact ⟨[], rfl, .nil⟩
  | cons a as ih =>
    cases as with
    | nil =>
      have ha : settle s opened (a.draft m) = some (out, opened') := by
        rwa [separated, List.intersperse_singleton, draft_cons, draft_nil, List.append_nil] at h
      exact ⟨[out], by simp [List.intercalate], .cons ⟨_, _, ha⟩ .nil⟩
    | cons b as =>
      rw [separated, List.intersperse_cons_cons, draft_cons] at h
      obtain ⟨outa, opened₁, out₁, ha, hrest, rfl⟩ := settle_append_eq_some h
      obtain ⟨word, opened₂, out₂, hword, hbs, rfl⟩ := settle_cons_eq_some.1 hrest
      cases hword
      obtain ⟨outs, rfl, houts⟩ := ih hbs
      refine ⟨outa :: outs, ?_, .cons ⟨_, _, ha⟩ houts⟩
      cases houts with
      | cons hb hrest => simp [List.intercalate]

/-- What is written for a union: the texts of its arms, with `UNION ALL` between any two. -/
theorem Query.arms_of_settle {ss : List Select}
    (h : settle s opened ((Query.visit d (.unionAll ss)).draft m) = some (out, opened')) :
    ∃ arms, out = [.keyword " UNION ALL "].intercalate arms ∧
      List.Forall₂ (fun q arm => (q.visit d).Writes s m arm) ss arms := by
  have hbody : settle s opened (Script.draft m (Query.body d (.unionAll ss))) =
      some (out, opened') := h
  rw [Query.body] at hbody
  split at hbody
  · cases hbody
  · obtain ⟨arms, hout, harms⟩ := Script.settle_separated " UNION ALL " hbody
    exact ⟨arms, hout, List.forall₂_map_left_iff.1 harms⟩

end

/-- No order stands bare in a union exactly if no arm has one. -/
theorem Query.orders_unionAll_eq_zero (ss : List Select) :
    (Query.unionAll ss).orders = 0 ↔ ∀ q ∈ ss, q.orderBy = [] := by
  rw [Query.orders, List.sum_eq_zero_iff_forall_eq_nat, List.forall_mem_map]
  simp [Select.orders]

open Move

namespace Configuration

variable (cfg : Configuration) {part : Part} {modes : Modes} {past : List Notice}

/-- **The orders of the arms stand bare in the union.** Let a node be rendered well. The unions that
are entered are those of the node. Wherever one is entered, its visit writes the texts of its arms
with `UNION ALL` between any two, and nothing else. The parentheses of each arm match, so that every
arm begins where no more parentheses are open than where the union does, and an arm writes one
`ORDER BY` there if it has an order. So there is none exactly if no arm has an order. -/
theorem orders_stand_bare (hpart : part.isNode = true) {st : State}
    (hrun : cfg.run part modes past = .ok () st) :
    let d := cfg.settings.dialect
    let mvs := (part.visit d).moves modes
    (mvs.filterMap Move.entered?).filterMap Part.union? = part.unions d ∧
    ∀ before m ss rest, mvs = before ++ ⟨m, .enter (.query (.unionAll ss))⟩ :: rest →
      ∃ after st₁ st₂ arms,
        mvs = before ++ ((Query.visit d (.unionAll ss)).moves modes ++ after) ∧
        performAll cfg before { modes, notices := past } = .ok () st₁ ∧
        (Query.visit d (.unionAll ss)).perform cfg st₁ = .ok () st₂ ∧
        performAll cfg after st₂ = .ok () st ∧
        let union := [Segment.keyword " UNION ALL "].intercalate arms
        st₂.out = st₁.out ++ union ∧
        List.Forall₂ (fun q arm => openParens (arm.map Segment.cue) = 0 ∧
          bareOrders 0 (arm.map Segment.cue) = if q.orderBy.isEmpty then 0 else 1) ss arms ∧
        (bareOrders 0 (union.map Segment.cue) = 0 ↔ ∀ q ∈ ss, q.orderBy = []) := by
  intro d mvs
  refine ⟨Part.unions_entered d modes hpart, fun before m ss rest hsplit => ?_⟩
  obtain ⟨after, hcut⟩ := Part.split_at_union d hpart hsplit
  obtain ⟨st₁, st₂, opened, hbefore, hvisit, hafter, hmodes, hholds⟩ :=
    cfg.run_around hpart hrun hcut
  have hstraight : (Query.visit d (.unionAll ss)).Straight :=
    Part.straight_visit d (.query (.unionAll ss)) rfl
  have hmoves := hvisit
  rw [Action.perform_apply, hmodes] at hmoves
  obtain ⟨union, opened', hsettle, hext⟩ :=
    Move.performAll_ok hstraight.isAttempt_eq_false hholds hmoves
  rw [← Action.draft_eq_strokes] at hsettle
  obtain ⟨arms, rfl, harms⟩ := Query.arms_of_settle d hsettle
  refine ⟨after, st₁, st₂, arms, hcut, hbefore, hvisit, hafter, hext.out_eq, ?_, ?_⟩
  · refine harms.imp fun q arm harm => ?_
    have hlevel : Level q.orders (arm.map Segment.cue) := by
      rw [harm.cue_eq]
      exact q.level_body d modes
    exact ⟨hlevel.openParens_eq, hlevel.bareOrders_eq⟩
  · have hlevel := Query.level_visit d modes (.unionAll ss)
    rw [cues_settle hsettle, ← Query.orders_unionAll_eq_zero, ← hlevel.bareOrders_eq]
    rfl

/-- `EXISTS (SELECT a FROM t UNION ALL SELECT a FROM u ORDER BY a)`: the order of the second arm is
the one order that stands bare in the union. -/
theorem orders_stand_bare_exists :
    let first : Select := { fields := [.named "a"], tables := [.ofName "t"] }
    let second : Select :=
      { fields := [.named "a"], tables := [.ofName "u"], orderBy := [⟨.named "a", .asc⟩] }
    let union : Query := .unionAll [first, second]
    let part : Part := .condition (.exists union false)
    let cfg : Configuration := { settings := { dialect := .postgres } }
    (cfg.render part {} []).result = .ok ⟨"EXISTS (SELECT \"a\" FROM \"t\" UNION ALL " ++
      "SELECT \"a\" FROM \"u\" ORDER BY \"a\" ASC)", []⟩ ∧
    ∃ before after st₁ st₂ out₁ out₂,
      (part.visit .postgres).moves {} = before ++ ((union.visit .postgres).moves {} ++ after) ∧
      performAll cfg before {} = .ok () st₁ ∧
      (union.visit .postgres).perform cfg st₁ = .ok () st₂ ∧
      st₂.out = st₁.out ++ [Segment.keyword " UNION ALL "].intercalate [out₁, out₂] ∧
      bareOrders 0 (out₁.map Segment.cue) = 0 ∧ bareOrders 0 (out₂.map Segment.cue) = 1 := by
  intro first second union part cfg
  have hok : (cfg.render part {} []).result = .ok ⟨"EXISTS (SELECT \"a\" FROM \"t\" UNION ALL " ++
      "SELECT \"a\" FROM \"u\" ORDER BY \"a\" ASC)", []⟩ := Report.result_eq_ok (by decide +kernel)
  refine ⟨hok, ?_⟩
  obtain ⟨st, hrun, -⟩ := cfg.render_ok_iff_run.1 hok
  obtain ⟨hunions, hbare⟩ := cfg.orders_stand_bare rfl hrun
  -- the union is one of those that are entered
  have hin : [first, second] ∈ part.unions .postgres := List.mem_singleton_self _
  rw [← hunions] at hin
  obtain ⟨before, m, p, rest, hunion, hsplit⟩ := Move.exists_cut_of_entered hin
  have hp : p = .query (.unionAll [first, second]) := by
    cases p with
    | query q => cases q <;> cases hunion; rfl
    | _ => cases hunion
  rw [hp] at hsplit
  obtain ⟨after, st₁, st₂, arms, hcut, hbefore, hvisit, -, hout, harms, -⟩ :=
    hbare before m [first, second] rest hsplit
  obtain ⟨out₁, rest₁, hfirst, hrest₁, rfl⟩ := List.forall₂_cons_left_iff.1 harms
  obtain ⟨out₂, rest₂, hsecond, hrest₂, rfl⟩ := List.forall₂_cons_left_iff.1 hrest₁
  obtain rfl := List.forall₂_nil_left_iff.1 hrest₂
  exact ⟨before, after, st₁, st₂, out₁, out₂, hcut, hbefore, hvisit, hout, hfirst.2, hsecond.2⟩

/-- Two arms with an order each: the first `ORDER BY` stands in front of the `UNION ALL`, and the
second one at the end of the union, and neither is in parentheses. -/
theorem orders_of_arms_bare :
    let arm (name : String) (order : SortOrder) : Select :=
      { fields := [.named "a"], tables := [.ofName name], orderBy := [⟨.named "a", order⟩] }
    let part : Part := .query (.unionAll [arm "t" .asc, arm "u" .desc])
    let cfg : Configuration := { settings := { dialect := .postgres } }
    (cfg.render part {} []).result = .ok ⟨"SELECT \"a\" FROM \"t\" ORDER BY \"a\" ASC UNION ALL " ++
      "SELECT \"a\" FROM \"u\" ORDER BY \"a\" DESC", []⟩ ∧
    bareOrders 0 ((cfg.render part {} []).out.map Segment.cue) = 2 := by
  intro arm part cfg
  exact ⟨Report.result_eq_ok (by decide +kernel), by decide +kernel⟩

end Configuration

end SqlRender
