import SqlRender.Proofs.Emulation
import SqlRender.Proofs.Placement

/-!
# The same values on every dialect

A tree is written differently on each dialect. Many rows become a union of selects, a select gets a
pseudo table, a list of answered fields is left out. None of this touches the bind values:

```text
Oracle      … SELECT ? FROM DUAL UNION ALL SELECT ? FROM DUAL     [1, 2]
MySQL       … VALUES (?), (?)                                     [1, 2]
PostgreSQL  … VALUES ($1), ($2)                                   [1, 2]
```

Where no parameter shares a slot, the bind values are those of the parameters of the part, in order
(`Configuration.params_of_unshared`). So what is left is a question about trees, which
`Part.occurrences_portable` answers: what do the occurrences of a part depend on the dialect for?
For three things only, the declared rows of a union, the assignments for rows that exist already,
and the answered fields.
-/

namespace SqlRender

/-! ## Bind values without shared slots -/

/-- If no parameter has a name, every parameter opens a slot. -/
theorem Numbering.openers_eq {ps openers : List Param} {slots : List Nat}
    (h : Numbering ps slots openers) (hps : ∀ p ∈ ps, p.name = none) : openers = ps := by
  induction h with
  | nil => rfl
  | shares _ _ _ hname _ => exact absurd (hps _ (by simp)) hname
  | opens _ _ _ ih => rw [ih fun p hp => hps p (List.mem_append_left _ hp)]

theorem Bindings.openers_eq {caps : Capabilities} {ps openers : List Param} {slots : List Nat}
    (h : Bindings caps ps slots openers) (hps : ∀ p ∈ ps, p.Unshared caps) : openers = ps := by
  cases hcaps : caps.numberedPlaceholders with
  | false => exact h.sequence hcaps
  | true => exact (h.numbering hcaps).openers_eq fun p hp => hps p hp hcaps

/-- **Where no parameter shares a slot, the bind values are those of the parameters**, in order. -/
theorem Configuration.params_of_unshared (cfg : Configuration) {part : Part} {modes : Modes}
    {past : List Notice} {r : Rendered} (hstyle : cfg.settings.paramStyle = .indexed)
    (hpart : part.propagates = true)
    (hps : ∀ p ∈ part.parameters cfg.settings.dialect modes, p.Unshared cfg.settings.capabilities)
    (h : (cfg.render part modes past).result = .ok r) :
    r.params = (part.parameters cfg.settings.dialect modes).map Param.value := by
  obtain ⟨slots, openers, hb, -, -, rfl⟩ := cfg.bindings_of_render hstyle hpart h
  rw [hb.openers_eq hps]

/-! ## What an insert may hold -/

/-- An insert that every dialect writes with the same values: it assigns nothing to rows that exist
already, and in its rows nothing stands under an alias. -/
structure Insert.Portable (i : Insert) : Prop where
  assigns_nothing : i.onDuplicateKeyUpdate = []
  alias_free : ∀ rows, i.source = .values rows → ∀ r ∈ rows, Field.AllAliasFree r

/-- The insert that a part is, if it is one. -/
def Part.insert? : Part → Option Insert
  | .insert i | .statement (.insert i) => some i
  | _ => none

/-- The fields that a part answers, where the dialect has such an answer. -/
def Part.answered : Part → List Field
  | .insert i | .statement (.insert i) => i.returning
  | .update u | .statement (.update u) => u.returning
  | _ => []

/-! ## Occurrences on two dialects -/

section

variable {m : Modes} {d d' : Dialect}

/-- Dialects without numbered placeholders leave the answered fields out. -/
theorem returningOccurrences_unnumbered (hd : d.capabilities.numberedPlaceholders = false)
    (fields : List Field) : returningOccurrences d m fields = [] := by
  cases d with
  | postgres => cases hd
  | oracle | mySql | sqlite => rfl

theorem returningOccurrences_nil : returningOccurrences d m [] = [] := by
  unfold returningOccurrences
  split <;> rfl

/-- Rows without aliases have the same occurrences in a union and in `VALUES`. -/
theorem Insert.rowOccurrences_eq {columns : List Field} {rows : List Row}
    (hrows : ∀ r ∈ rows, Field.AllAliasFree r) :
    Insert.rowOccurrences d m columns rows =
      if Insert.degree columns rows = 0 then [] else rows.flatMap (Field.occurrencesIn m) := by
  have hunion : rows.flatMap (Field.occurrencesIn m.declaring) =
      rows.flatMap (Field.occurrencesIn m) := by
    rw [List.flatMap_def, List.flatMap_def,
      List.map_congr_left fun r hr => Field.occurrencesIn_declaring (hrows r hr)]
  unfold Insert.rowOccurrences
  split
  · rfl
  · split
    · exact hunion
    · rfl

theorem Insert.occurrences_portable {i : Insert} (hi : i.Portable)
    (hreturning : returningOccurrences d m i.returning = returningOccurrences d' m i.returning) :
    i.occurrences d m = i.occurrences d' m := by
  have hsource : i.source.occurrences d m i.columns = i.source.occurrences d' m i.columns := by
    cases hs : i.source with
    | query q => rfl
    | values rows =>
      have hrows := hi.alias_free rows hs
      simp only [InsertSource.occurrences, Insert.rowOccurrences_eq hrows]
  simp only [Insert.occurrences, hsource, hreturning, hi.assigns_nothing, List.flatMap_nil,
    ite_self]

theorem Update.occurrences_portable {u : Update}
    (hreturning : returningOccurrences d m u.returning = returningOccurrences d' m u.returning) :
    u.occurrences d m = u.occurrences d' m := by
  simp only [Update.occurrences, hreturning]

/-- **The occurrences of a node are the same on two dialects** that treat its answered fields
alike. -/
theorem Part.occurrences_portable {part : Part} (hnode : part.isNode = true)
    (hinsert : ∀ i ∈ part.insert?, i.Portable)
    (hreturning : returningOccurrences d m part.answered =
      returningOccurrences d' m part.answered) :
    part.occurrences d m = part.occurrences d' m := by
  cases part with
  | forward => cases hnode
  | custom => cases hnode
  | insert i => exact Insert.occurrences_portable (hinsert i rfl) hreturning
  | update u => exact Update.occurrences_portable hreturning
  | statement s =>
    cases s with
    | insert i => exact Insert.occurrences_portable (hinsert i rfl) hreturning
    | update u => exact Update.occurrences_portable hreturning
    | query | delete => rfl
  | field | row | table | condition | sort | select | query | delete => rfl

theorem Part.parameters_portable {part : Part} (hnode : part.isNode = true)
    (hinsert : ∀ i ∈ part.insert?, i.Portable)
    (hreturning : returningOccurrences d m part.answered =
      returningOccurrences d' m part.answered) :
    part.parameters d m = part.parameters d' m := by
  unfold Part.parameters
  rw [part.occurrences_portable hnode hinsert hreturning]

end

/-! ## Renders -/

namespace Configuration

/-- **The same tree binds the same values.** Take a node whose insert, if it is one, assigns nothing
to existing rows and has no alias in its rows. Two renders that write `?` for their placeholders
bind the same values, whatever their dialects emulate or leave out. Without answered fields and
names, a render with numbered placeholders binds these values too. -/
theorem values_portable {part : Part} {modes : Modes} (hnode : part.isNode = true)
    (hinsert : ∀ i ∈ part.insert?, i.Portable) {cfg cfg' : Configuration}
    {past past' : List Notice} {r r' : Rendered}
    (hcaps : cfg.settings.capabilities.numberedPlaceholders = false)
    (hcaps' : cfg'.settings.capabilities.numberedPlaceholders = false)
    (hstyle : cfg.settings.paramStyle = .indexed) (hstyle' : cfg'.settings.paramStyle = .indexed)
    (h : (cfg.render part modes past).result = .ok r)
    (h' : (cfg'.render part modes past').result = .ok r') :
    r'.params = r.params ∧
    ∀ {numbered : Configuration} {past'' : List Notice} {r'' : Rendered},
      numbered.settings.capabilities.numberedPlaceholders = true →
      numbered.settings.paramStyle = .indexed → part.answered = [] →
      (∀ p ∈ part.parameters numbered.settings.dialect modes, p.name = none) →
      (numbered.render part modes past'').result = .ok r'' → r''.params = r.params := by
  have hpart := part.propagates_of_isNode hnode
  -- without numbers no parameter shares a slot
  have hvalues := cfg.params_of_unshared hstyle hpart
    (fun _ _ hnum => by rw [hcaps] at hnum; cases hnum) h
  refine ⟨?_, fun {numbered past'' r''} _ hstyle'' hanswered hunnamed h'' => ?_⟩
  · have hvalues' := cfg'.params_of_unshared hstyle' hpart
      (fun _ _ hnum => by rw [hcaps'] at hnum; cases hnum) h'
    have hreturning : returningOccurrences cfg'.settings.dialect modes part.answered =
        returningOccurrences cfg.settings.dialect modes part.answered := by
      rw [returningOccurrences_unnumbered hcaps, returningOccurrences_unnumbered hcaps']
    rw [hvalues, hvalues', part.parameters_portable hnode hinsert hreturning]
  · have hvalues'' := numbered.params_of_unshared hstyle'' hpart
      (fun p hp _ => hunnamed p hp) h''
    have hreturning : returningOccurrences numbered.settings.dialect modes part.answered =
        returningOccurrences cfg.settings.dialect modes part.answered := by
      rw [hanswered, returningOccurrences_nil, returningOccurrences_nil]
    rw [hvalues, hvalues'', part.parameters_portable hnode hinsert hreturning]

/-- Two rows of values, one of them in place: a union on Oracle, `VALUES` on MySQL and
PostgreSQL, and three times the same values. -/
theorem values_portable_two_rows :
    let i : Insert :=
      { into := .ofName "t", columns := [.named "a", .named "b"]
        source := .values [[.val (1 : Int64), .val "u"], [.val (2 : Int64), .inlined (3 : Int64)]] }
    ∃ oracle mySql postgres,
      SqlRender.render .oracle (.insert i) = .ok oracle ∧
      SqlRender.render .mySql (.insert i) = .ok mySql ∧
      SqlRender.render .postgres (.insert i) = .ok postgres ∧
      oracle.sql = "INSERT INTO \"t\" (\"a\", \"b\") SELECT ?, ? FROM DUAL " ++
        "UNION ALL SELECT ?, 3 FROM DUAL" ∧
      mySql.params = oracle.params ∧ postgres.params = oracle.params := by
  intro i
  let on (d : Dialect) : Configuration := { settings := { dialect := d } }
  let values : List Value := [.int 1, .text "u", .int 2]
  let onOracle : Rendered :=
    { sql := "INSERT INTO \"t\" (\"a\", \"b\") SELECT ?, ? FROM DUAL " ++
        "UNION ALL SELECT ?, 3 FROM DUAL"
      params := values }
  let onMySql : Rendered :=
    { sql := "INSERT INTO \x60t\x60 (\x60a\x60, \x60b\x60) VALUES (?, ?), (?, 3)"
      params := values }
  let onPostgres : Rendered :=
    { sql := "INSERT INTO \"t\" (\"a\", \"b\") VALUES ($1, $2), ($3, 3)", params := values }
  have horacle : ((on .oracle).render (.insert i) {} []).result = .ok onOracle :=
    Report.result_eq_ok (by decide +kernel)
  have hmySql : ((on .mySql).render (.insert i) {} []).result = .ok onMySql :=
    Report.result_eq_ok (by decide +kernel)
  have hpostgres : ((on .postgres).render (.insert i) {} []).result = .ok onPostgres :=
    Report.result_eq_ok (by decide +kernel)
  have hportable : ∀ i' ∈ (Part.insert i).insert?, i'.Portable := by
    rintro i' ⟨⟩
    refine ⟨rfl, ?_⟩
    rintro rows ⟨⟩ r hr
    simp only [List.mem_cons, List.not_mem_nil, or_false] at hr
    rcases hr with rfl | rfl
    · exact ⟨trivial, trivial, trivial⟩
    · exact ⟨trivial, trivial, trivial⟩
  obtain ⟨hsame, hnumbered⟩ := values_portable rfl hportable rfl rfl rfl rfl horacle hmySql
  have hsame' : onPostgres.params = onOracle.params :=
    @hnumbered (on .postgres) [] onPostgres rfl rfl rfl (by decide +kernel) hpostgres
  exact ⟨onOracle, onMySql, onPostgres, horacle, hmySql, hpostgres, rfl, hsame, hsame'⟩

end Configuration

end SqlRender
