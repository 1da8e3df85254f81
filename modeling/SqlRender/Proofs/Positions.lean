import SqlRender.Proofs.Mentions

/-!
# Modes follow position

The modes are switched by some nodes and read by others far below them. Whether a switch leaks out
of its region, or is missing in front of one, shows only where a column or an alias is entered: what
is seen there is the innermost open slot, and the mode that the column or the alias looks at.

`Action.Straight.sights_moves` follows the open clauses along the moves of a script, and finds the
names of the script in the slots that the script puts them in. With `Part.names_visit` a render
therefore comes to the mentions of the tree one by one, and `Configuration.modes_follow_position`
says what it writes at each:

```text
INSERT INTO t (x.a) … RETURNING x.b AS y

  column x.a       INSERT_INSERT_INTO  bare      FIELD / FIELD_REFERENCE  a
  field alias y    INSERT_RETURNING    declared  FIELD / FIELD_ALIAS      … AS y
  column x.b       INSERT_RETURNING              FIELD / FIELD_REFERENCE  x.b
```
-/

namespace SqlRender

/-! ## Sights along moves -/

namespace Move

/-- What a move inside open clauses sees of a column or an alias, if it enters one. -/
def sight? (path : List Clause) (mv : Move) : Option Sight :=
  mv.entered?.bind (Sight.of? (nearestSlot path) mv.modes)

/-- What moves see of the columns and the aliases that they enter. -/
def sights : List Clause → List Move → List Sight
  | _, [] => []
  | path, mv :: mvs => (mv.sight? path).toList ++ sights (mv.walk path) mvs

theorem sights_append (path : List Clause) (mvs mvs' : List Move) :
    sights path (mvs ++ mvs') = sights path mvs ++ sights (walkAll path mvs) mvs' := by
  induction mvs generalizing path with
  | nil => rfl
  | cons mv mvs ih => simp [sights, walkAll, ih (mv.walk path)]

theorem sights_of_entered {mvs : List Move} (h : ∀ mv ∈ mvs, mv.entered? = none)
    (path : List Clause) : sights path mvs = [] := by
  induction mvs generalizing path with
  | nil => rfl
  | cons mv mvs ih =>
    obtain ⟨hmv, hmvs⟩ := List.forall_mem_cons.1 h
    rw [sights, sight?, hmv, ih hmvs]
    rfl

/-- Each sight belongs to a move, behind the moves of the sights before it. -/
theorem exists_cut_of_sights {mvs : List Move} {path : List Clause} {i : Nat} {s : Sight}
    (h : (sights path mvs)[i]? = some s) :
    ∃ before m rest, mvs = before ++ ⟨m, .enter s.part⟩ :: rest ∧
      (sights path before).length = i ∧
      Sight.of? (nearestSlot (walkAll path before)) m s.part = some s := by
  induction mvs generalizing path i with
  | nil => cases h
  | cons mv mvs ih =>
    rw [sights] at h
    cases hmv : mv.sight? path with
    | none =>
      rw [hmv] at h
      obtain ⟨before, m, rest, rfl, hlength, hs⟩ := ih h
      refine ⟨mv :: before, m, rest, rfl, ?_, hs⟩
      rw [sights, hmv]
      exact hlength
    | some s' =>
      rw [hmv] at h
      cases i with
      | zero =>
        obtain rfl : s' = s := Option.some.inj h
        obtain ⟨p, hp, hs⟩ := Option.bind_eq_some_iff.1 hmv
        obtain ⟨mode, -, rfl⟩ := Option.map_eq_some_iff.1 hs
        obtain ⟨m, deed⟩ := mv
        cases deed <;> cases hp
        exact ⟨[], m, mvs, rfl, rfl, hs⟩
      | succ i =>
        obtain ⟨before, m, rest, rfl, hlength, hs⟩ := ih (show (sights (mv.walk path) mvs)[i]? = some s from h)
        refine ⟨mv :: before, m, rest, rfl, ?_, hs⟩
        rw [sights, hmv, List.length_append, hlength]
        exact Nat.add_comm _ _

theorem walkAll_starts (path : List Clause) (m : Modes) (part : Option Part)
    (tags : List Clause) :
    walkAll path (tags.map fun c => ⟨m, .start part c⟩) = path ++ tags := by
  induction tags generalizing path with
  | nil => exact (List.append_nil path).symm
  | cons c tags ih =>
    have htags := ih (path ++ [c])
    rwa [List.append_assoc] at htags

end Move

theorem Name.map_sight_of (slot : Option Clause) (m : Modes) (part : Part) (body : Script) :
    (Name.of slot m part body).map Name.sight = (Sight.of? slot m part).toList := by
  simp [Name.of, Function.comp_def]

open Move

mutual

/-- **The moves of a straight action see its names**, inside the slots of the open clauses. -/
theorem Action.Straight.sights_moves {m : Modes} (path : List Clause) : ∀ {a : Action},
    a.Straight → sights path (a.moves m) = (a.names (nearestSlot path) m).map Name.sight
  | .text _, _ | .keyword _, _ | .ident _, _ | .bind _, _ | .literal _ _, _ | .fail _, _
  | .note _ _, _ => rfl
  | .visit part body, h => by
    have hbody := Script.Straight.sights_moves (m := m) (path ++ part.tags m) h.2
    have henter : sight? path ⟨m, .enter part⟩ = Sight.of? (nearestSlot path) m part := rfl
    have hwalk : walk path ⟨m, .enter part⟩ = path := rfl
    rw [Action.moves, sights, henter, hwalk, sights_append,
      sights_of_entered (entered?_starts m part _), walkAll_starts, sights_append, hbody,
      sights_of_entered (entered?_closes m part _), nearestSlot_append, Action.names,
      List.map_append, Name.map_sight_of, List.nil_append, List.append_nil]
  | .within c body, h => by
    have hbody := Script.Straight.sights_moves (m := m) (path ++ [c]) h
    have hstart : sight? path ⟨m, .start none c⟩ = none := rfl
    have hwalk : walk path ⟨m, .start none c⟩ = path ++ [c] := rfl
    have hclose : ∀ path', sights path' [⟨m, .close none c⟩] = [] := fun _ => rfl
    rw [Action.moves, sights, hstart, hwalk, sights_append, hbody, hclose, nearestSlot_append,
      Action.names, Option.toList_none, List.nil_append, List.append_nil]
  | .switch _ _ _, h => Script.Straight.sights_moves path h
  | .assume _ _, h => Script.Straight.sights_moves path h
  | .whenOn mode body, h => by
    rw [Action.moves, Action.names]
    split
    · exact Script.Straight.sights_moves path h
    · rfl

/-- The moves of a straight script see its names. -/
theorem Script.Straight.sights_moves {m : Modes} (path : List Clause) : ∀ {as : List Action},
    Script.Straight as →
      sights path (Script.moves m as) = (Script.names (nearestSlot path) m as).map Name.sight
  | [], _ => rfl
  | a :: as, h => by
    have ha := Action.Straight.sights_moves (m := m) path h.1
    have has := Script.Straight.sights_moves (m := m) path h.2
    have hbracketed : Bracketed (a.moves m) := Action.Straight.bracketed h.1
    rw [Script.moves, sights_append, hbracketed.walkAll_eq, ha, has, Script.names, List.map_append]

end

theorem Part.straight_of_isClausal (d : Dialect) {p : Part} (hp : p.isClausal = true) :
    (p.visit d).Straight := by
  have hnode : p.isNode = true := by
    cases p <;> first | rfl | cases hp
  exact Part.straight_visit d p (Part.propagates_of_isNode hnode)

/-- The visit of a statement, a query or a condition sees the mentions in it. -/
theorem Part.sights_visit (d : Dialect) {m : Modes} (hm : m.Neutral) {p : Part}
    (hp : p.isClausal = true) :
    sights [] ((p.visit d).moves m) = (p.mentions d).map Mention.sight := by
  have hstraight := Part.straight_of_isClausal d hp
  have hnone : nearestSlot [] = none := rfl
  rw [hstraight.sights_moves [], hnone, Part.names_visit d hm hp, List.map_map]
  rfl

/-! ## Names and visits -/

mutual

/-- A column or an alias that an action visits is one of its names, with what is written for it. -/
theorem Action.exists_name_of_visited (slot : Option Clause) {m : Modes} {v : Visit}
    (hmode : v.part.mode?.isSome = true) : ∀ {a : Action}, v ∈ a.visited m →
      ∃ n ∈ a.names slot m, n.sight.part = v.part ∧ n.body = v.body
  | .text _, h | .keyword _, h | .ident _, h | .bind _, h | .literal _ _, h | .fail _, h
  | .attempt _ _, h | .note _ _, h => by cases h
  | .visit part body, h => by
    rw [Action.names]
    rcases List.mem_cons.1 h with rfl | h
    · obtain ⟨mode, hmode⟩ := Option.isSome_iff_exists.1 hmode
      refine ⟨⟨⟨slot, m.isOn mode, part⟩, body⟩, List.mem_append_left _ ?_, rfl, rfl⟩
      have hsight : Sight.of? slot m part = some ⟨slot, m.isOn mode, part⟩ :=
        congrArg (Option.map fun mode => (⟨slot, m.isOn mode, part⟩ : Sight)) hmode
      rw [Name.of, hsight]
      exact List.mem_singleton_self _
    · obtain ⟨n, hn, heq⟩ := Script.exists_name_of_visited _ hmode h
      exact ⟨n, List.mem_append_right _ hn, heq⟩
  | .within c body, h => Script.exists_name_of_visited _ hmode h
  | .switch _ _ _, h => Script.exists_name_of_visited _ hmode h
  | .assume _ _, h => Script.exists_name_of_visited _ hmode h
  | .whenOn mode body, h => by
    rw [Action.visited] at h
    rw [Action.names]
    split at h
    · next hon =>
      rw [if_pos hon]
      exact Script.exists_name_of_visited _ hmode h
    · cases h

/-- A column or an alias that a script visits is one of its names. -/
theorem Script.exists_name_of_visited (slot : Option Clause) {m : Modes} {v : Visit}
    (hmode : v.part.mode?.isSome = true) : ∀ {as : List Action}, v ∈ Script.visited m as →
      ∃ n ∈ Script.names slot m as, n.sight.part = v.part ∧ n.body = v.body
  | [], h => by cases h
  | a :: as, h => by
    rcases List.mem_append.1 h with h | h
    · obtain ⟨n, hn, heq⟩ := Action.exists_name_of_visited _ hmode h
      exact ⟨n, List.mem_append_left _ hn, heq⟩
    · obtain ⟨n, hn, heq⟩ := Script.exists_name_of_visited _ hmode h
      exact ⟨n, List.mem_append_right _ hn, heq⟩

end

/-- A column or an alias is visited as it is. -/
theorem Part.visit_of_mode? (d : Dialect) {p : Part} (h : p.mode?.isSome = true) :
    p.visit d = .visit p (p.body d) := by
  cases p with
  | field f =>
    cases f with
    | row => cases h
    | _ => rfl
  | table => rfl
  | _ => cases h

/-- Where the moves of a statement, a query or a condition enter a column or an alias, they go on
with its visit. -/
theorem Part.split_at_name (d : Dialect) {m m' : Modes} (hm : m.Neutral) {part p : Part}
    (hpart : part.isClausal = true) (hp : p.mode?.isSome = true) {before rest : List Move}
    (h : (part.visit d).moves m = before ++ ⟨m', .enter p⟩ :: rest) :
    ∃ after, (part.visit d).moves m = before ++ ((p.visit d).moves m' ++ after) := by
  obtain ⟨⟨m', p, body⟩, hmem, rfl, rfl, after, hcut⟩ := Action.split_at_enter h
  obtain ⟨n, hn, hsight, hbody⟩ := Action.exists_name_of_visited none hp hmem
  rw [Part.names_visit d hm hpart] at hn
  obtain ⟨x, -, rfl⟩ := List.mem_map.1 hn
  -- what a mention is entered with is what its part writes
  obtain rfl : x.part = p := hsight
  obtain rfl : x.part.body d = body := hbody
  refine ⟨after, ?_⟩
  rw [h, hcut, Part.visit_of_mode? d hp]

/-! ## What is written at a mention -/

/-- The segment that an action writes, if it is text, a keyword or an identifier. -/
def Action.word? : Action → Option Segment
  | .text s => some (.text s)
  | .keyword word => some (.keyword word)
  | .ident name => some (.ident name)
  | _ => none

/-- The state behind segments that are written. -/
def State.writing (st : State) (new : List Segment) : State := { st with out := st.out ++ new }

/-- The words of a column, with its qualifier if it is written in full. -/
def Column.words (full : Bool) (c : Column) : List Segment :=
  match c.qualifier, full with
  | some q, true => [.ident q, .text ".", .ident c.name]
  | _, _ => [.ident c.name]

/-- The words of a list of identifiers in parentheses. -/
def identWords (names : List String) : List Segment :=
  [.text "("] ++ (names.map Segment.ident).intersperse (.text ", ") ++ [.text ")"]

/-- The words behind the table that an alias stands for. -/
def Table.aliasWords (d : Dialect) (name : String) (columns : List String) : List Segment :=
  (if d.capabilities.tableAliasAs then .keyword " AS " else .text " ") :: .ident name ::
    if columns.isEmpty then [] else identWords columns

/-- How a mention is written inside of open clauses: between the state in which its tags are open
and the one in which they are about to be closed.

A column is written with its qualifier unless it stands bare. A field alias is declared where its
slot declares fields; elsewhere its name is all that is added, so the field that it stands for is
not visited. A table alias is declared. -/
def Mention.Written (cfg : Configuration) (m : Modes) (path : List Clause) (st st' : State) :
    Mention → Prop
  | .column _ bare c =>
    st.path = path ++ [.field, .fieldReference] ∧ st' = st.writing (c.words !bare)
  | .fieldAlias slot f name =>
    if slot.any Clause.declaresFields then
      st.path = path ++ [.field, .fieldAlias] ∧
        ∃ mid, performAll cfg ((f.visit cfg.settings.dialect).moves m) st = .ok () mid ∧
          st' = mid.writing [.keyword " AS ", .ident name]
    else st.path = path ++ [.field, .fieldReference] ∧ st' = st.writing [.ident name]
  | .tableAlias _ _ t name columns =>
    st.path = path ++ [.table, .tableAlias] ∧
      ∃ mid, performAll cfg ((t.visit cfg.settings.dialect).moves m) st = .ok () mid ∧
        st' = mid.writing (Table.aliasWords cfg.settings.dialect name columns)

section

variable (cfg : Configuration) {m : Modes}

/-- Words are written whatever the state. -/
theorem performAll_words {as : Script} {words : List Segment}
    (h : as.map Action.word? = words.map some) (st : State) :
    performAll cfg (Script.moves m as) st = .ok () (st.writing words) := by
  induction as generalizing words st with
  | nil =>
    obtain rfl : words = [] := List.map_eq_nil_iff.1 h.symm
    rw [State.writing, List.append_nil]
    rfl
  | cons a as ih =>
    obtain ⟨word, words, rfl, ha, has⟩ := List.map_eq_cons_iff.1 h.symm
    have hrest := ih has.symm (st.writing [word])
    have hword : performAll cfg (a.moves m) st = .ok () (st.writing [word]) := by
      cases a <;> cases ha <;> rfl
    rw [Script.moves, performAll_append_eq_ok]
    refine ⟨_, hword, ?_⟩
    rw [hrest, State.writing, State.writing, State.writing, List.append_assoc]
    rfl

theorem words_identList (names : List String) :
    (identList names).map Action.word? = (identWords names).map some := by
  have hlist : ∀ names : List String,
      ((names.map Action.ident).intersperse (.text ", ")).map Action.word? =
        ((names.map Segment.ident).intersperse (.text ", ")).map some := by
    intro names
    induction names with
    | nil => rfl
    | cons name names ih =>
      cases names with
      | nil => rfl
      | cons name' names => simpa [Action.word?] using ih
  simp [identList, identWords, Action.word?, hlist]

theorem Column.performAll_body (c : Column) (st : State) :
    performAll cfg (Script.moves m c.body) st = .ok () (st.writing (c.words m.qualify)) := by
  have hmode : m.isOn .qualify = m.qualify := rfl
  unfold Column.body Column.words
  cases c.qualifier with
  | none => exact performAll_words cfg rfl st
  | some q =>
    cases hq : m.qualify with
    | false =>
      have hmoves : Script.moves m [.whenOn .qualify [.ident q, .text "."], .ident c.name] =
          Script.moves m [.ident c.name] := by
        simp [Script.moves, Action.moves, hmode, hq]
      exact hmoves ▸ performAll_words cfg rfl st
    | true =>
      have hmoves : Script.moves m [.whenOn .qualify [.ident q, .text "."], .ident c.name] =
          Script.moves m [.ident q, .text ".", .ident c.name] := by
        simp [Script.moves, Action.moves, hmode, hq]
      exact hmoves ▸ performAll_words cfg rfl st

variable {cfg} {st st' : State}

/-- A visit that is followed by words ends well in a state from which the words are written. -/
theorem exists_mid_of_words {a : Action} {as : Script} {words : List Segment}
    (hwords : as.map Action.word? = words.map some)
    (h : performAll cfg (a.moves m ++ Script.moves m as) st = .ok () st') :
    ∃ mid, performAll cfg (a.moves m) st = .ok () mid ∧ st' = mid.writing words := by
  obtain ⟨mid, ha, has⟩ := (performAll_append_eq_ok cfg).1 h
  rw [performAll_words cfg hwords] at has
  cases has
  exact ⟨mid, ha, rfl⟩

theorem Field.performAll_aliased {f : Field} {name : String}
    (h : performAll cfg (Script.moves m (Field.body cfg.settings.dialect (.aliased f name))) st =
      .ok () st') :
    if m.declareFields then
      ∃ mid, performAll cfg ((f.visit cfg.settings.dialect).moves m) st = .ok () mid ∧
        st' = mid.writing [.keyword " AS ", .ident name]
    else st' = st.writing [.ident name] := by
  have hmode : m.isOn .declareFields = m.declareFields := rfl
  split
  · next hon =>
    have hmoves : Script.moves m (Field.body cfg.settings.dialect (.aliased f name)) =
        (f.visit cfg.settings.dialect).moves m ++
          Script.moves m [.keyword " AS ", .ident name] := by
      simp [Field.body, Field.visit, Script.moves, Action.moves, hmode, hon]
    exact exists_mid_of_words rfl (hmoves ▸ h)
  · next hoff =>
    have hmoves : Script.moves m (Field.body cfg.settings.dialect (.aliased f name)) =
        Script.moves m [.ident name] := by
      simp [Field.body, Script.moves, Action.moves, hmode, hoff]
    have hword : [Action.ident name].map Action.word? = [Segment.ident name].map some := rfl
    rw [hmoves, performAll_words cfg hword] at h
    cases h
    rfl

theorem Table.performAll_aliased {t : Table} {name : String} {columns : List String}
    (hon : m.declareTables = true)
    (h : performAll cfg
      (Script.moves m (Table.body cfg.settings.dialect (.aliased t name columns))) st =
        .ok () st') :
    ∃ mid, performAll cfg ((t.visit cfg.settings.dialect).moves m) st = .ok () mid ∧
      st' = mid.writing (Table.aliasWords cfg.settings.dialect name columns) := by
  have hmode : m.isOn .declareTables = true := hon
  let intro : Action :=
    if cfg.settings.dialect.capabilities.tableAliasAs then .keyword " AS " else .text " "
  let as : Script := [intro, .ident name] ++ if columns.isEmpty then [] else identList columns
  have hmoves : Script.moves m (Table.body cfg.settings.dialect (.aliased t name columns)) =
      (t.visit cfg.settings.dialect).moves m ++ Script.moves m as := by
    by_cases hcolumns : columns.isEmpty <;>
      simp [Table.body, Table.visit, as, intro, Script.moves, Action.moves, hmode, hcolumns]
  have hwords : as.map Action.word? =
      (Table.aliasWords cfg.settings.dialect name columns).map some := by
    have hintro : intro.word? =
        some (if cfg.settings.dialect.capabilities.tableAliasAs then Segment.keyword " AS "
          else .text " ") := by
      unfold intro
      split <;> rfl
    have hident : (Action.ident name).word? = some (.ident name) := rfl
    by_cases hcolumns : columns.isEmpty <;>
      simp [as, Table.aliasWords, hintro, hident, hcolumns, words_identList]
  exact exists_mid_of_words hwords (hmoves ▸ h)

/-- A mention is written as its place says, if the modes do. -/
theorem Mention.written {x : Mention} {path : List Clause} {slot : Option Clause}
    (hsight : Sight.of? slot m x.part = some x.sight)
    (hpath : st.path = path ++ x.part.tags m)
    (h : performAll cfg (Script.moves m (x.part.body cfg.settings.dialect)) st = .ok () st') :
    x.Written cfg m path st st' := by
  have hfull : ∀ mode, x.part.mode? = some mode → m.isOn mode = x.inFull := by
    intro mode hmode
    rw [Sight.of?, hmode] at hsight
    exact congrArg Sight.inFull (Option.some.inj hsight)
  cases x with
  | column slot bare c =>
    have hqualify : m.qualify = !bare := hfull .qualify rfl
    refine ⟨hpath, ?_⟩
    have hbody := c.performAll_body cfg (m := m) st
    rw [hqualify] at hbody
    exact (EStateM.Result.ok.inj (h.symm.trans hbody)).2
  | fieldAlias slot f name =>
    have hdeclare : m.declareFields = slot.any Clause.declaresFields := hfull .declareFields rfl
    have hbody := Field.performAll_aliased h
    have htags : st.path =
        path ++ [.field, if m.declareFields then .fieldAlias else .fieldReference] := hpath
    rw [hdeclare] at hbody htags
    rw [Mention.Written]
    by_cases hslot : slot.any Clause.declaresFields = true
    · rw [if_pos hslot] at hbody htags ⊢
      exact ⟨htags, hbody⟩
    · rw [if_neg hslot] at hbody htags ⊢
      exact ⟨htags, hbody⟩
  | tableAlias slot hslot t name columns =>
    have hdeclare : m.declareTables = true := hfull .declareTables rfl
    have htags : st.path =
        path ++ [.table, if m.declareTables then .tableAlias else .tableReference] := hpath
    rw [hdeclare, if_pos rfl] at htags
    exact ⟨htags, Table.performAll_aliased hdeclare h⟩

end

/-! ## Around what is written -/

/-- Moves that write nothing leave what has been written and bound as it was. -/
theorem Move.keeps_ledger_performAll {cfg : Configuration} {mvs : List Move}
    (h : ∀ mv ∈ mvs, mv.stroke? = none ∧ mv.deed.isAttempt = false) :
    Run.Keeps State.ledger (performAll cfg mvs) := by
  induction mvs with
  | nil => exact Run.keeps_pure ()
  | cons mv mvs ih =>
    obtain ⟨⟨hnone, hattempt⟩, hmvs⟩ := List.forall_mem_cons.1 h
    rw [performAll_cons]
    exact (keeps_ledger hnone hattempt).bind fun _ => ih hmvs

namespace Part

/-- The moves that enter a part and open its tags. -/
def opening (m : Modes) (p : Part) : List Move :=
  ⟨m, .enter p⟩ :: (p.tags m).map fun c => ⟨m, .start (some p) c⟩

/-- The moves that close the tags of a part and leave it. -/
def closing (m : Modes) (p : Part) : List Move :=
  (p.tags m).reverse.map (fun c => ⟨m, .close (some p) c⟩) ++ [⟨m, .leave p⟩]

theorem moves_visit (m : Modes) (p : Part) (body : Script) :
    (Action.visit p body).moves m = p.opening m ++ (Script.moves m body ++ p.closing m) := rfl

theorem opening_silent (m : Modes) (p : Part) :
    ∀ mv ∈ p.opening m, mv.stroke? = none ∧ mv.deed.isAttempt = false := by
  intro mv hmv
  rcases List.mem_cons.1 hmv with rfl | hmv
  · exact ⟨rfl, rfl⟩
  · obtain ⟨c, -, rfl⟩ := List.mem_map.1 hmv
    exact ⟨rfl, rfl⟩

theorem closing_silent (m : Modes) (p : Part) :
    ∀ mv ∈ p.closing m, mv.stroke? = none ∧ mv.deed.isAttempt = false := by
  intro mv hmv
  rcases List.mem_append.1 hmv with hmv | hmv
  · obtain ⟨c, -, rfl⟩ := List.mem_map.1 hmv
    exact ⟨rfl, rfl⟩
  · cases List.mem_singleton.1 hmv
    exact ⟨rfl, rfl⟩

variable {cfg : Configuration} {m : Modes} {p : Part} {st st' : State}

theorem path_of_opening (h : performAll cfg (p.opening m) st = .ok () st') :
    st'.path = st.path ++ p.tags m := by
  obtain ⟨-, hpath⟩ := events_of_performAll_ok (fun mv hmv => (p.opening_silent m mv hmv).2) h
  exact hpath.trans (walkAll_starts st.path m (some p) (p.tags m))

/-- A run through the visit of a part comes to it, opens its tags, writes what is inside of them,
closes the tags and goes on. Only what is inside of the tags is written. -/
theorem run_through {body : Script} {before after : List Move}
    (h : performAll cfg (before ++ ((Action.visit p body).moves m ++ after)) st = .ok () st') :
    ∃ outer inner inner' outer',
      performAll cfg before st = .ok () outer ∧
      performAll cfg (p.opening m) outer = .ok () inner ∧
      performAll cfg (Script.moves m body) inner = .ok () inner' ∧
      performAll cfg (p.closing m) inner' = .ok () outer' ∧
      performAll cfg after outer' = .ok () st' ∧
      inner.path = outer.path ++ p.tags m ∧ inner.out = outer.out ∧ outer'.out = inner'.out := by
  rw [moves_visit] at h
  obtain ⟨outer, hbefore, h⟩ := (performAll_append_eq_ok cfg).1 h
  obtain ⟨outer', hvisit, hafter⟩ := (performAll_append_eq_ok cfg).1 h
  obtain ⟨inner, hopening, hvisit⟩ := (performAll_append_eq_ok cfg).1 hvisit
  obtain ⟨inner', hbody, hclosing⟩ := (performAll_append_eq_ok cfg).1 hvisit
  have hopened := (keeps_ledger_performAll (p.opening_silent m)).ok hopening
  have hclosed := (keeps_ledger_performAll (p.closing_silent m)).ok hclosing
  exact ⟨outer, inner, inner', outer', hbefore, hopening, hbody, hclosing, hafter,
    path_of_opening hopening, congrArg Prod.fst hopened, congrArg Prod.fst hclosed⟩

end Part

namespace Configuration

variable (cfg : Configuration) {part : Part} {past : List Notice}

/-- **Modes follow position.** Let a statement, a query or a condition be rendered well from the
modes that there are by default. The columns and the aliases that are entered are the mentions of
the tree, in order, each inside of its slot. The run comes to each mention with the clauses around
it open, opens its tags, writes it as its place says, and closes its tags; opening and closing write
nothing. -/
theorem modes_follow_position (hpart : part.isClausal = true) {st : State}
    (hrun : cfg.run part {} past = .ok () st) :
    let d := cfg.settings.dialect
    let mvs := (part.visit d).moves {}
    sights [] mvs = (part.mentions d).map Mention.sight ∧
    ∀ i x, (part.mentions d)[i]? = some x →
      ∃ before m after outer inner inner' outer',
        mvs = before ++ ((x.part.visit d).moves m ++ after) ∧
        (sights [] before).length = i ∧
        performAll cfg before { notices := past } = .ok () outer ∧
        performAll cfg (x.part.opening m) outer = .ok () inner ∧
        performAll cfg (Script.moves m (x.part.body d)) inner = .ok () inner' ∧
        performAll cfg (x.part.closing m) inner' = .ok () outer' ∧
        performAll cfg after outer' = .ok () st ∧
        nearestSlot outer.path = x.slot ∧
        inner.out = outer.out ∧ x.Written cfg m outer.path inner inner' ∧
        outer'.out = inner'.out := by
  intro d mvs
  have hneutral : Modes.Neutral {} := ⟨rfl, rfl⟩
  have hsights := Part.sights_visit d hneutral hpart
  refine ⟨hsights, fun i x hx => ?_⟩
  have hseen : (sights [] mvs)[i]? = some x.sight := by
    rw [hsights, List.getElem?_map, hx]
    rfl
  obtain ⟨before, m, rest, hsplit, hlength, hsight⟩ := exists_cut_of_sights hseen
  have hmode : x.part.mode?.isSome = true := by
    cases x <;> rfl
  obtain ⟨after, hcut⟩ := Part.split_at_name d hneutral hpart hmode hsplit
  have hstraight := Part.straight_of_isClausal d hpart
  rw [cfg.run_eq_moves, hcut, Part.visit_of_mode? d hmode] at hrun
  obtain ⟨outer, inner, inner', outer', hbefore, hopening, hbody, hclosing, hafter, hpath, hopened,
    hclosed⟩ := Part.run_through hrun
  have hwalk : outer.path = walkAll [] before := by
    have hattempt : ∀ mv ∈ before, mv.deed.isAttempt = false := fun mv hmv =>
      hstraight.isAttempt_eq_false (m := {}) mv (by rw [hcut]; simp [hmv])
    exact (events_of_performAll_ok hattempt hbefore).2
  have hslot : nearestSlot outer.path = x.slot := by
    obtain ⟨mode, -, heq⟩ := Option.map_eq_some_iff.1 hsight
    rw [hwalk]
    exact congrArg Sight.slot heq
  exact ⟨before, m, after, outer, inner, inner', outer', hcut, hlength, hbefore, hopening, hbody,
    hclosing, hafter, hslot, hopened, Mention.written hsight hpath hbody, hclosed⟩

/-- `UPDATE t AS x SET a = k RETURNING x.b AS k`, where `x.b AS k` is also what `x.a` is set to: the
value is only named, the answer is declared. -/
theorem modes_follow_position_update :
    let f : Field := .aliased (.qualified "x" "b") "k"
    let u : Update :=
      { table := .aliased (.ofName "t") "x" []
        assignments := [{ target := .qualified "x" "a", value := f }]
        returning := [f] }
    let cfg : Configuration := { settings := { dialect := .postgres } }
    let mvs := (u.visit .postgres).moves {}
    (sights [] mvs).length = 5 ∧
    (∃ before m after outer inner,
      mvs = before ++ ((f.visit .postgres).moves m ++ after) ∧
      performAll cfg before {} = .ok () outer ∧
      nearestSlot outer.path = some .updateSetAssignment ∧
      performAll cfg (Part.opening m (.field f)) outer = .ok () inner ∧
      performAll cfg (Script.moves m (f.body .postgres)) inner =
        .ok () (inner.writing [.ident "k"])) ∧
    (∃ before m after outer inner mid,
      mvs = before ++ ((f.visit .postgres).moves m ++ after) ∧
      performAll cfg before {} = .ok () outer ∧
      nearestSlot outer.path = some .updateReturning ∧
      performAll cfg (Part.opening m (.field f)) outer = .ok () inner ∧
      performAll cfg (((Field.qualified "x" "b").visit .postgres).moves m) inner = .ok () mid ∧
      performAll cfg (Script.moves m (f.body .postgres)) inner =
        .ok () (mid.writing [.keyword " AS ", .ident "k"])) := by
  intro f u cfg mvs
  let r : Rendered :=
    { sql := "UPDATE \"t\" AS \"x\" SET \"a\" = \"k\" RETURNING \"x\".\"b\" AS \"k\""
      params := [] }
  have hok : (cfg.render (.update u) {} []).result = .ok r :=
    Report.result_eq_ok (by decide +kernel)
  obtain ⟨st, hrun, -⟩ := cfg.render_ok_iff_run.1 hok
  obtain ⟨hsights, hmentions⟩ := cfg.modes_follow_position rfl hrun
  refine ⟨congrArg List.length hsights, ?_, ?_⟩
  · obtain ⟨before, m, after, outer, inner, inner', -, hcut, -, hbefore, hopening, hbody, -, -,
      hslot, -, hwritten, -⟩ := hmentions 2 (.fieldAlias (some .updateSetAssignment) _ "k") rfl
    obtain rfl : inner' = inner.writing [.ident "k"] := hwritten.2
    exact ⟨before, m, after, outer, inner, hcut, hbefore, hslot, hopening, hbody⟩
  · obtain ⟨before, m, after, outer, inner, inner', -, hcut, -, hbefore, hopening, hbody, -, -,
      hslot, -, hwritten, -⟩ := hmentions 3 (.fieldAlias (some .updateReturning) _ "k") rfl
    obtain ⟨-, mid, hmid, rfl⟩ := hwritten
    exact ⟨before, m, after, outer, inner, mid, hcut, hbefore, hslot, hopening, hmid, hbody⟩

end Configuration

end SqlRender
