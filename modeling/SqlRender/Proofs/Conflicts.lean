import SqlRender.Proofs.Failures
import SqlRender.Proofs.Validity

/-!
# Conflicts between parameters of one name

A name should stand for one value throughout a render. What is checked is less: a parameter is
compared with the first parameter *of a bind value* that carries its name, and one that is written
in place takes no bind value. So whether two different values of a name are noticed depends on which
of them is written in place:

```text
x = 1 bound      x = 2 bound        conflict
x = 1 bound      x = 2 in place     conflict
x = 1 in place   x = 2 bound        no conflict
x = 1 in place   x = 2 in place     no conflict
```

`Coherent.iff_pairwise` states the check as a relation between any two occurrences, of which only
the first one's place matters, and `Configuration.conflict_reported` says that a render reports
conflicts accordingly.
-/

namespace SqlRender

/-! ## Agreement -/

namespace Value

variable {u v w : Value}

theorem agrees_comm (v w : Value) : v.agrees w = w.agrees v := by
  have hsymm : ∀ {v w : Value}, v.agrees w = true → w.agrees v = true := by
    intro v w h
    cases v <;> cases w
    case float.float x y =>
      obtain ⟨hx, hy, heq⟩ := Double.agrees_iff.1 h
      exact Double.agrees_iff.2 ⟨hy, hx, heq.imp Eq.symm And.symm⟩
    all_goals simp_all [agrees]
  exact Bool.eq_iff_iff.2 ⟨hsymm, hsymm⟩

theorem agrees_trans (h : u.agrees v = true) (h' : v.agrees w = true) : u.agrees w = true := by
  cases u <;> cases v <;> cases w
  case float.float.float x y z =>
    obtain ⟨hx, -, hxy⟩ := Double.agrees_iff.1 h
    obtain ⟨-, hz, hyz⟩ := Double.agrees_iff.1 h'
    refine Double.agrees_iff.2 ⟨hx, hz, ?_⟩
    -- equal numbers of different bits are zeros
    rcases hxy with rfl | ⟨hx₀, hy₀⟩
    · exact hyz
    · rcases hyz with rfl | ⟨-, hz₀⟩
      · exact .inr ⟨hx₀, hy₀⟩
      · exact .inr ⟨hx₀, hz₀⟩
  all_goals simp_all [agrees]

end Value

/-- If two parameters carry one name then their values agree. -/
def Param.Consistent (p q : Param) : Prop :=
  ∀ name, p.name = some name → q.name = some name → p.value.agrees q.value = true

/-- Behind a parameter that clashes with nothing, another one clashes if it did before or is not
consistent with it. -/
theorem Param.clashes_concat {ps : List Param} {q : Param} (hq : q.clashes ps = false)
    (p : Param) :
    p.clashes (ps ++ [q]) = false ↔ p.clashes ps = false ∧ q.Consistent p := by
  cases hname : p.name with
  | none => simp [clashes, Consistent, hname]
  | some name =>
    by_cases hqname : q.name = some name
    · have hnamed : isNamed name q = true := by simp [isNamed, hqname]
      cases hfirst : ps.find? (isNamed name) with
      | none => simp [clashes, Consistent, hname, hqname, hfirst, hnamed]
      | some r =>
        -- both `p` and `q` are compared with the first parameter of the name
        have hrq : r.value.agrees q.value = true := by
          simpa [clashes, hqname, hfirst] using hq
        have hclash : ∀ rs, p.clashes (ps ++ rs) = !r.value.agrees p.value := by
          intro rs
          simp [clashes, hname, List.find?_append, hfirst]
        have hbefore := hclash []
        rw [List.append_nil] at hbefore
        rw [hclash [q], hbefore]
        simp only [Bool.not_eq_eq_eq_not, Bool.not_false, iff_self_and]
        intro hrp name' _ _
        rw [Value.agrees_comm] at hrq
        exact Value.agrees_trans hrq hrp
    · have hnamed : isNamed name q = false := by simpa [isNamed] using hqname
      have hconsistent : q.Consistent p := by
        intro name' hq' hp'
        rw [hname] at hp'
        exact absurd (hq'.trans hp'.symm) hqname
      simp [clashes, hname, List.find?_append, hnamed, hconsistent]

/-! ## Coherence is pairwise -/

/-- An earlier and a later occurrence that are in conflict: the earlier one takes a bind value, both
carry the name, and their values do not agree. -/
structure InConflict (s : Settings) (name : String) (a b : Occurrence) : Prop where
  bound : a.inPlace s = false
  left : a.param.name = some name
  right : b.param.name = some name
  disagree : a.param.value.agrees b.param.value = false

/-- An earlier and a later occurrence that are not in conflict. -/
def Compatible (s : Settings) (a b : Occurrence) : Prop :=
  a.inPlace s = true ∨ a.param.Consistent b.param

theorem not_compatible_iff {s : Settings} {a b : Occurrence} :
    ¬ Compatible s a b ↔ ∃ name, InConflict s name a b := by
  unfold Compatible Param.Consistent
  constructor
  · intro h
    obtain ⟨hin, hcons⟩ := not_or.1 h
    simp only [Classical.not_forall] at hcons
    obtain ⟨name, ha, hb, hdis⟩ := hcons
    exact ⟨name, by simpa using hin, ha, hb, by simpa using hdis⟩
  · rintro ⟨name, hbound, ha, hb, hdis⟩ (hin | hcons)
    · rw [hbound] at hin
      cases hin
    · rw [hcons name ha hb] at hdis
      cases hdis

/-- Occurrences are coherent behind parameters that were bound if none clashes with these and any
two of them are compatible. -/
theorem coherent_iff {s : Settings} {ps : List Param} (os : List Occurrence) :
    Coherent s ps os ↔ (∀ o ∈ os, o.param.clashes ps = false) ∧ os.Pairwise (Compatible s) := by
  induction os generalizing ps with
  | nil => simp [coherent_nil]
  | cons o os ih =>
    rw [coherent_cons, List.pairwise_cons, List.forall_mem_cons]
    by_cases hclash : o.param.clashes ps = false
    · by_cases hin : o.inPlace s = true
      · have hnone : bound s [o] = [] := bound_cons_of_inPlace hin []
        rw [hnone, List.append_nil, ih]
        simp [hclash, Compatible, hin]
      · have hone : bound s [o] = [o.param] := bound_cons_of_not_inPlace hin []
        have hin' : o.inPlace s = false := by simpa using hin
        rw [hone, ih]
        simp only [Param.clashes_concat hclash, Compatible, hin', forall_and]
        simp [hclash, and_assoc]
    · simp [hclash]

/-- **Occurrences are coherent exactly if any two are compatible.** -/
theorem Coherent.iff_pairwise {s : Settings} {os : List Occurrence} :
    Coherent s [] os ↔ os.Pairwise (Compatible s) := by
  have hclash : ∀ o ∈ os, o.param.clashes [] = false := fun o _ => by
    cases hname : o.param.name <;> simp [Param.clashes, hname]
  rw [coherent_iff]
  exact ⟨And.right, fun h => ⟨hclash, h⟩⟩

/-- Fewer occurrences are coherent if more are. -/
theorem Coherent.sublist {s : Settings} {os os' : List Occurrence} (h : Coherent s [] os)
    (hsub : os'.Sublist os) : Coherent s [] os' :=
  iff_pairwise.2 ((iff_pairwise.1 h).sublist hsub)

theorem Writable.sublist {s : Settings} {os os' : List Occurrence} (h : Writable s os)
    (hsub : os'.Sublist os) : Writable s os' :=
  fun o ho => h o (hsub.subset ho)

theorem not_coherent_iff {s : Settings} {os : List Occurrence} :
    ¬ Coherent s [] os ↔ ∃ name a b, [a, b].Sublist os ∧ InConflict s name a b := by
  rw [Coherent.iff_pairwise, List.pairwise_iff_forall_sublist]
  constructor
  · intro h
    simp only [Classical.not_forall] at h
    obtain ⟨a, b, hsub, hnot⟩ := h
    obtain ⟨name, hconflict⟩ := not_compatible_iff.1 hnot
    exact ⟨name, a, b, hsub, hconflict⟩
  · rintro ⟨name, a, b, hsub, hconflict⟩ h
    exact not_compatible_iff.2 ⟨name, hconflict⟩ (h hsub)

/-! ## Conflicts in drafts -/

theorem Bindings.mem_of_mem_openers {caps : Capabilities} {ps openers : List Param}
    {slots : List Nat} (h : Bindings caps ps slots openers) {p : Param} (hp : p ∈ openers) :
    p ∈ ps := by
  cases hcaps : caps.numberedPlaceholders with
  | true => exact (h.numbering hcaps).mem_of_mem_openers hp
  | false => rwa [h.sequence hcaps] at hp

/-- A parameter that clashes behind a settled draft is in conflict with an occurrence in it. -/
theorem exists_inConflict_of_clashes {s : Settings} {xs : List Stroke} {out : List Segment}
    {opened : List Param} (hsettle : settle s [] xs = some (out, opened)) {o : Occurrence}
    {name : String} (hname : o.param.name = some name) (hclash : o.param.clashes opened = true) :
    ∃ a ∈ xs.filterMap Stroke.occurrence?, InConflict s name a o := by
  obtain ⟨slots, hb, -⟩ := settle_bindings (Bindings.nil _) hsettle
  rw [Param.clashes, hname, Option.any_some, Option.any_eq_true] at hclash
  obtain ⟨q, hq, hdis⟩ := hclash
  have hmem : q ∈ bound s (xs.filterMap Stroke.occurrence?) := by
    simpa using hb.mem_of_mem_openers (List.mem_of_find?_eq_some hq)
  have hqname : q.name = some name := by simpa [Param.isNamed] using List.find?_some hq
  obtain ⟨a, ha, rfl⟩ := List.mem_map.1 hmem
  obtain ⟨ha, hbound⟩ := List.mem_filter.1 ha
  exact ⟨a, ha, by simpa using hbound, hqname, hname, by simpa using hdis⟩

/-! ## Renders -/

namespace Configuration

variable (cfg : Configuration) {part : Part} {modes : Modes} {past : List Notice}

/-- The layout of a node raises no error but those of its checks. -/
theorem isCheck_of_mem_draft (hpart : part.isNode = true) {e : RenderError}
    (he : .error e ∈ cfg.draft part modes) : e.isCheck = true :=
  (Part.checksAt_visit cfg.settings.dialect none hpart).isCheck he

/-- A node that is rendered well, whoever listens, is valid, can be written and is coherent. -/
theorem valid_of_ok (hpart : part.isNode = true) {r : Rendered}
    (h : (cfg.render part modes past).result = .ok r) :
    let os := part.occurrences cfg.settings.dialect modes
    part.Valid cfg.settings.dialect modes ∧ Writable cfg.settings os ∧
      Coherent cfg.settings [] os := by
  intro os
  obtain ⟨opened, hsettle, -⟩ := cfg.render_ok (Part.propagates_of_isNode hpart) h
  have hsome : (settle cfg.settings [] (cfg.draft part modes)).isSome = true := by rw [hsettle]; rfl
  rwa [isSome_settle_iff _ (fun _ => rfl), cfg.fault_draft hpart, cfg.occurrences_draft] at hsome

/-- A conflict that is reported for a name is one between two occurrences of the name. -/
theorem inConflict_of_reported (hpart : part.isNode = true) {name : String} {inner : Option Clause}
    (h : (cfg.render part modes past).result = .error (.paramConflict name inner)) :
    ∃ a b, [a, b].Sublist (part.occurrences cfg.settings.dialect modes) ∧
      InConflict cfg.settings name a b := by
  rcases cfg.render_error (Part.propagates_of_isNode hpart) h with ⟨hrefusal, -⟩ | hfail
  · cases hrefusal
  obtain ⟨before, x, after, segments, opened, hdraft, hsettle, hraises⟩ := hfail
  cases hraises with
  | fail =>
    -- the layout itself raises no conflict
    have hmem : .error (.paramConflict name inner) ∈ cfg.draft part modes := by simp [hdraft]
    have hcheck := cfg.isCheck_of_mem_draft hpart hmem
    cases hcheck
  | @conflict o _ _ hname hclash =>
    obtain ⟨a, ha, hconflict⟩ := exists_inConflict_of_clashes hsettle hname hclash
    refine ⟨a, o, ?_, hconflict⟩
    rw [← cfg.occurrences_draft, hdraft, List.filterMap_append]
    exact (List.singleton_sublist.2 ha).append
      (List.singleton_sublist.2 (by simp [Stroke.occurrence?]))

/-- A valid node whose occurrences can be written fails for no other reason than a conflict. -/
theorem reported_of_valid (hpart : part.isNode = true) (htolerant : cfg.Tolerant)
    (hvalid : part.Valid cfg.settings.dialect modes)
    (hwritable : Writable cfg.settings (part.occurrences cfg.settings.dialect modes))
    {e : RenderError} (h : (cfg.render part modes past).result = .error e) :
    ∃ name inner, e = .paramConflict name inner := by
  rcases cfg.render_error (Part.propagates_of_isNode hpart) h with ⟨-, hnot⟩ | hfail
  · exact absurd htolerant hnot
  obtain ⟨before, x, after, segments, opened, hdraft, -, hraises⟩ := hfail
  cases hraises with
  | fail =>
    -- a valid node raises nothing
    have hfault := (cfg.fault_draft hpart).2 hvalid
    rw [hdraft] at hfault
    simp [Stroke.fault?] at hfault
  | @conflict o name inner _ _ => exact ⟨name, inner, rfl⟩
  | @noLiteral o x inner hin _ hlit =>
    have hmem : o ∈ part.occurrences cfg.settings.dialect modes := by
      rw [← cfg.occurrences_draft, hdraft]
      simp [Stroke.occurrence?]
    rw [hwritable o hmem hin] at hlit
    cases hlit

/-- **Conflicts are reported only where they are.** A render of a node that reports one met two
occurrences of the name, the first with a bind value, whose values do not agree.

**And where they are, one is reported**, provided that nothing else is wrong: the node is valid, the
values in place can be written, and no listener refuses an event. -/
theorem conflict_reported (hpart : part.isNode = true) :
    let os := part.occurrences cfg.settings.dialect modes
    let result := (cfg.render part modes past).result
    (∀ name inner, result = .error (.paramConflict name inner) →
      ∃ a b, [a, b].Sublist os ∧ InConflict cfg.settings name a b) ∧
    (cfg.Tolerant → part.Valid cfg.settings.dialect modes → Writable cfg.settings os →
      (∃ name a b, [a, b].Sublist os ∧ InConflict cfg.settings name a b) →
      ∃ name inner, result = .error (.paramConflict name inner)) := by
  intro os result
  refine ⟨fun name inner h => cfg.inConflict_of_reported hpart h, ?_⟩
  intro htolerant hvalid hwritable hconflict
  have hcoherent : ¬ Coherent cfg.settings [] os := not_coherent_iff.2 hconflict
  cases hresult : result with
  | ok r => exact absurd (cfg.valid_of_ok hpart hresult).2.2 hcoherent
  | error e =>
    obtain ⟨name, inner, rfl⟩ := cfg.reported_of_valid hpart htolerant hvalid hwritable hresult
    exact ⟨name, inner, rfl⟩

/-- `:x = :x` with two values, both bound: the conflict is reported. -/
theorem conflict_reported_bound :
    let part : Part :=
      .condition (.comparison (.param "x" (1 : Int64)) .eq (.param "x" (2 : Int64)))
    ∃ name inner, SqlRender.render .postgres part = .error (.paramConflict name inner) := by
  intro part
  let cfg : Configuration := { settings := { dialect := .postgres } }
  let x (n : Int64) : Occurrence := ⟨{ value := .int n, name := some "x" }, none⟩
  have hos : part.occurrences .postgres {} = [x 1, x 2] := by decide +kernel
  have hvalid : part.Valid .postgres {} := by
    simp [part, Part.Valid, Condition.Valid, Field.param, Field.Valid, Field.degree]
  have hwritable : Writable cfg.settings (part.occurrences .postgres {}) := by
    rw [hos]
    simp [Writable, x, Value.hasLiteral]
  have hconflict : InConflict cfg.settings "x" (x 1) (x 2) := ⟨rfl, rfl, rfl, by decide +kernel⟩
  have htolerant : cfg.Tolerant := tolerant_of_nil rfl
  have hreported : ∃ name inner,
      (cfg.render part {} []).result = .error (.paramConflict name inner) :=
    (cfg.conflict_reported rfl).2 htolerant hvalid hwritable
      ⟨"x", x 1, x 2, hos ▸ List.Sublist.refl _, hconflict⟩
  exact hreported

/-- A name that is written in place first may be bound to another value behind it. The other way
round, and where both are bound, the conflict is reported. -/
theorem conflict_missed :
    let bound (n : Int64) : Field := .param "x" n
    let inPlace (n : Int64) : Field := .value { value := .int n, name := some "x", inline := true }
    let equation (left right : Field) : Part := .condition (.comparison left .eq right)
    (Value.int 1).agrees (.int 2) = false ∧
      SqlRender.render .postgres (equation (inPlace 1) (bound 2)) = .ok ⟨"1 = $1", [.int 2]⟩ ∧
      SqlRender.render .postgres (equation (bound 1) (inPlace 2)) =
        .error (.paramConflict "x" (some .fieldValue)) ∧
      SqlRender.render .postgres (equation (bound 1) (bound 2)) =
        .error (.paramConflict "x" (some .fieldValue)) := by
  intro bound inPlace equation
  refine ⟨by decide +kernel, Report.result_eq_ok ?_, Report.result_eq_error ?_,
    Report.result_eq_error ?_⟩
  all_goals decide +kernel

end Configuration

end SqlRender
