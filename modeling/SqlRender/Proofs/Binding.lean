import SqlRender.Proofs.Occurrences

/-!
# Placeholders and bind values

A backend reads two lists side by side: the placeholders in the text and the bind values. Where
placeholders are not numbered, every occurrence is a `?` with a bind value of its own. Where they
are, occurrences of one name share a slot:

```text
parameters   x = 7   'a'   x = 7   y = 8   'a'
slots            1     2       1       3     4
bind values      7   'a'               8   'a'
```

`Numbering` says how parameters go to slots, without a word about states or the names noted in them.
`Bindings` is the invariant: each parameter that a draft places keeps it, so it holds behind a whole
draft, and `Configuration.placeholders_agree` reads off it what the two lists of a render have to do
with each other.
-/

namespace SqlRender

/-! ## Numberings -/

/-- The next number is the least one that is not in use. -/
def IsNextSlot (slots : List Nat) (i : Nat) : Prop :=
  0 < i ∧ i ∉ slots ∧ ∀ j, 0 < j → j < i → j ∈ slots

/-- Parameters go to slots, one after the other; the openers are those that went to a new one. -/
inductive Numbering : List Param → List Nat → List Param → Prop
  | nil : Numbering [] [] []
  /-- A parameter shares the slot of an earlier one of its name. -/
  | shares {ps openers : List Param} {slots : List Nat} {p q : Param} {i : Nat} :
      Numbering ps slots openers → (q, i) ∈ ps.zip slots → q.name = p.name → p.name ≠ none →
      Numbering (ps ++ [p]) (slots ++ [i]) openers
  /-- A parameter without a name, or the first one of its name, opens the next slot. -/
  | opens {ps openers : List Param} {slots : List Nat} {p : Param} {i : Nat} :
      Numbering ps slots openers → (∀ q ∈ ps, q.name = p.name → p.name = none) →
      IsNextSlot slots i → Numbering (ps ++ [p]) (slots ++ [i]) (openers ++ [p])

/-- If the numbers up to `n` are in use, the next one is `n + 1`. -/
theorem isNextSlot_iff {slots : List Nat} {n : Nat} (h : ∀ i, i ∈ slots ↔ 1 ≤ i ∧ i ≤ n) (i : Nat) :
    IsNextSlot slots i ↔ i = n + 1 := by
  constructor
  · rintro ⟨hpos, hfree, hleast⟩
    have hlow : n < i := Nat.lt_of_not_le fun hle => hfree ((h i).2 ⟨hpos, hle⟩)
    have hhigh : ¬ n + 1 < i := fun hlt => by
      have hmem := (h (n + 1)).1 (hleast (n + 1) (by omega) hlt)
      omega
    omega
  · rintro rfl
    refine ⟨by omega, fun hmem => ?_, fun j hpos hlt => (h j).2 ⟨hpos, by omega⟩⟩
    have := (h (n + 1)).1 hmem
    omega

theorem mem_zip_concat {α β : Type} {as : List α} {bs : List β} {a : α} {b : β} {x : α × β}
    (hlen : bs.length = as.length) :
    x ∈ (as ++ [a]).zip (bs ++ [b]) ↔ x ∈ as.zip bs ∨ x = (a, b) := by
  rw [List.zip_append hlen.symm]
  simp

namespace Numbering

variable {ps openers : List Param} {slots : List Nat}

theorem length_eq (h : Numbering ps slots openers) : slots.length = ps.length := by
  induction h with
  | nil => rfl
  | shares _ _ _ _ ih => simp [ih]
  | opens _ _ _ ih => simp [ih]

theorem mem_of_mem_openers (h : Numbering ps slots openers) {p : Param} (hp : p ∈ openers) :
    p ∈ ps := by
  induction h with
  | nil => cases hp
  | shares _ _ _ _ ih => exact List.mem_append_left _ (ih hp)
  | opens _ _ _ ih =>
    rcases List.mem_append.1 hp with hp | hp
    · exact List.mem_append_left _ (ih hp)
    · exact List.mem_append_right _ hp

/-- **There is no gap**: the slots in use are those up to the number of openers. -/
theorem mem_slots_iff (h : Numbering ps slots openers) (i : Nat) :
    i ∈ slots ↔ 1 ≤ i ∧ i ≤ openers.length := by
  induction h generalizing i with
  | nil => simp; omega
  | @shares ps openers slots p q j _ hmem _ _ ih =>
    have hj : j ∈ slots := (List.of_mem_zip hmem).2
    rw [List.mem_append, List.mem_singleton, ← ih i]
    exact ⟨fun hi => hi.elim id fun hi => hi ▸ hj, Or.inl⟩
  | @opens ps openers slots p j _ _ hnext ih =>
    rw [isNextSlot_iff ih] at hnext
    rw [List.mem_append, List.mem_singleton, ih i, List.length_append, List.length_singleton]
    omega

/-- The slots are numbered in the order in which they first appear. -/
theorem eraseDups_slots (h : Numbering ps slots openers) :
    slots.eraseDups = List.range' 1 openers.length := by
  induction h with
  | nil => rfl
  | @shares ps openers slots p q j _ hmem _ _ ih =>
    have hj : j ∈ slots := (List.of_mem_zip hmem).2
    have hold : [j].removeAll slots = [] := by simp [List.removeAll, hj]
    rw [List.eraseDups_append, hold, List.eraseDups_nil, List.append_nil, ih]
  | @opens ps openers slots p j hprev _ hnext ih =>
    have hnew : [j].removeAll slots = [j] := by simp [List.removeAll, hnext.2.1]
    rw [isNextSlot_iff hprev.mem_slots_iff] at hnext
    rw [List.eraseDups_append, hnew, ih, List.length_append, List.length_singleton,
      List.range'_concat, hnext]
    simp [List.eraseDups_cons, Nat.add_comm]

/-- A name leads to the slot that every parameter of the name went to. -/
theorem firstOf_eq (h : Numbering ps slots openers) {q : Param} {i : Nat} {name : String}
    (hmem : (q, i) ∈ ps.zip slots) (hname : q.name = some name) :
    (Param.firstOf openers name).map (· + 1) = some i := by
  induction h generalizing q i with
  | nil => cases hmem
  | @shares ps openers slots p q' j hprev hmem' hq' _ ih =>
    rw [mem_zip_concat hprev.length_eq] at hmem
    rcases hmem with hmem | hmem
    · exact ih hmem hname
    · cases hmem
      exact ih hmem' (hq'.trans hname)
  | @opens ps openers slots p j hprev hfresh hnext ih =>
    rw [mem_zip_concat hprev.length_eq] at hmem
    rw [Param.firstOf_append]
    rcases hmem with hmem | hmem
    · have hold := ih hmem hname
      cases hfirst : Param.firstOf openers name with
      | none => rw [hfirst] at hold; cases hold
      | some k => rw [hfirst] at hold; exact hold
    · cases hmem
      rw [isNextSlot_iff hprev.mem_slots_iff] at hnext
      -- no earlier parameter carries the name, so no opener does
      have hnone : Param.firstOf openers name = none := by
        apply List.findIdx?_eq_none_iff.2
        intro q' hq'
        have hne : q'.name ≠ p.name := fun e => by
          rw [hfresh q' (hprev.mem_of_mem_openers hq') e] at hname
          cases hname
        rw [hname] at hne
        simpa [Param.isNamed] using hne
      simp [hnone, Param.isNamed, hname, hnext]

/-- A numbering goes on with the slot that is allotted. -/
theorem allot {caps : Capabilities} (hcaps : caps.numberedPlaceholders = true)
    (h : Numbering ps slots openers) (p : Param) :
    Numbering (ps ++ [p]) (slots ++ [(caps.allot openers p).1]) (caps.allot openers p).2 := by
  have hpair : ∀ q ∈ ps, ∃ i, (q, i) ∈ ps.zip slots := fun q hq => by
    obtain ⟨k, hk, rfl⟩ := List.mem_iff_getElem.1 hq
    have hk' : k < slots.length := by rw [h.length_eq]; exact hk
    have hzip : k < (ps.zip slots).length := by rw [List.length_zip]; omega
    exact ⟨slots[k], List.mem_iff_getElem.2 ⟨k, hzip, List.getElem_zip⟩⟩
  unfold Capabilities.allot
  rw [if_pos hcaps]
  cases hslot : p.name.bind (Param.firstOf openers) with
  | some k =>
    obtain ⟨name, hname, hfirst⟩ := Option.bind_eq_some_iff.1 hslot
    obtain ⟨hk, hk', -⟩ := List.findIdx?_eq_some_iff_getElem.1 hfirst
    have hq : openers[k].name = some name := by simpa [Param.isNamed] using hk'
    obtain ⟨i, hi⟩ := hpair _ (h.mem_of_mem_openers (List.getElem_mem hk))
    have hfirst' := h.firstOf_eq hi hq
    rw [hfirst] at hfirst'
    cases hfirst'
    exact .shares h hi (hq.trans hname.symm) (by simp [hname])
  | none =>
    refine .opens h (fun q hq heq => ?_) ((isNextSlot_iff h.mem_slots_iff _).2 rfl)
    cases hname : p.name with
    | none => rfl
    | some name =>
      -- a parameter of the name would have led to a slot
      obtain ⟨i, hi⟩ := hpair q hq
      have hfirst := h.firstOf_eq hi (heq.trans hname)
      rw [hname] at hslot
      rw [show Param.firstOf openers name = none from hslot] at hfirst
      cases hfirst

end Numbering

/-! ## The invariant -/

/-- What the parameters that a draft has placed, their slots, and the openers of the slots have to do
with each other. -/
structure Bindings (caps : Capabilities) (ps : List Param) (slots : List Nat)
    (openers : List Param) : Prop where
  length_eq : slots.length = ps.length
  /-- The opener of a slot is the parameter itself, or carries a value that agrees with its value. -/
  serves : ∀ p i, (p, i) ∈ ps.zip slots →
    ∃ q, openers[i - 1]? = some q ∧ (q.value.agrees p.value = true ∨ q = p)
  numbering : caps.numberedPlaceholders = true → Numbering ps slots openers
  sequence : caps.numberedPlaceholders = false → openers = ps

theorem Bindings.nil (caps : Capabilities) : Bindings caps [] [] [] where
  length_eq := rfl
  serves := fun _ _ h => nomatch h
  numbering := fun _ => .nil
  sequence := fun _ => rfl

/-- A parameter that clashes with none of the openers keeps the invariant. -/
theorem Bindings.allot {caps : Capabilities} {ps openers : List Param} {slots : List Nat}
    (h : Bindings caps ps slots openers) {p : Param} (hp : p.clashes openers = false) :
    Bindings caps (ps ++ [p]) (slots ++ [(caps.allot openers p).1]) (caps.allot openers p).2 where
  length_eq := by simp [h.length_eq]
  numbering := fun hcaps => (h.numbering hcaps).allot hcaps p
  sequence := fun hcaps => by simp [Capabilities.allot, hcaps, h.sequence hcaps]
  serves := by
    intro q i hmem
    rw [mem_zip_concat h.length_eq] at hmem
    unfold Capabilities.allot at hmem ⊢
    split at hmem
    · next k hslot =>
      rcases hmem with hmem | hmem
      · exact h.serves q i hmem
      · -- the slot is that of the name, whose opener agrees because there is no clash
        cases hmem
        have hbind : p.name.bind (Param.firstOf openers) = some k := by
          split at hslot
          · exact hslot
          · cases hslot
        obtain ⟨name, hname, hfirst⟩ := Option.bind_eq_some_iff.1 hbind
        have hk : k < openers.length := Param.lt_length_of_firstOf hfirst
        refine ⟨openers[k], by simp [hk], .inl ?_⟩
        simpa [Param.clashes, hname, Param.find?_eq_getElem? hfirst, hk] using hp
    · rcases hmem with hmem | hmem
      -- an opener behind the others moves none of them
      · obtain ⟨q', hq', hagrees⟩ := h.serves q i hmem
        have hlt : i - 1 < openers.length := (List.getElem?_eq_some_iff.1 hq').1
        exact ⟨q', by rw [List.getElem?_append_left hlt, hq'], hagrees⟩
      · cases hmem
        exact ⟨p, by simp, .inr rfl⟩

/-! ## Drafts keep the invariant -/

/-- How a segment is spelled. -/
def Segment.spelling (s : Settings) (x : Segment) : String := textOf s [x]

/-- A placeholder as it is spelled, and the parameter that it stands for. -/
def Segment.placeholder? (s : Settings) (x : Segment) : Option (String × Param) :=
  match x with
  | .placeholder _ o => some (x.spelling s, o.param)
  | _ => none

/-- The parameters of occurrences that are not written in place. -/
def bound (s : Settings) (os : List Occurrence) : List Param :=
  (os.filter fun o => !o.inPlace s).map Occurrence.param

/-- A text is made of its segments as they are spelled. -/
theorem textOf_eq_join (s : Settings) (out : List Segment) :
    textOf s out = String.join (out.map (Segment.spelling s)) := by
  induction out with
  | nil => rfl
  | cons x out ih =>
    rw [List.map_cons, String.join_cons, ← ih]
    simp [Segment.spelling, textOf, tokensOf, String.join_append]

theorem textOf_cons (s : Settings) (x : Segment) (out : List Segment) :
    textOf s (x :: out) = x.spelling s ++ textOf s out := by
  rw [textOf_eq_join, List.map_cons, String.join_cons, ← textOf_eq_join]

/-- What is written behind other text stands behind it. -/
theorem textOf_append (s : Settings) (out out' : List Segment) :
    textOf s (out ++ out') = textOf s out ++ textOf s out' := by
  simp only [textOf_eq_join, List.map_append, String.join_append]

theorem Segment.spelling_placeholder (s : Settings) (slot : Nat) (o : Occurrence) :
    Segment.spelling s (.placeholder slot o) = s.capabilities.placeholder slot := by
  simp [Segment.spelling, textOf, tokensOf, Segment.tokens, Token.text, String.join_cons]

theorem Capabilities.placeholder_numbered {caps : Capabilities}
    (h : caps.numberedPlaceholders = true) : caps.placeholder = fun i => "$" ++ toString i :=
  funext fun _ => if_pos h

theorem Capabilities.placeholder_unnumbered {caps : Capabilities}
    (h : caps.numberedPlaceholders = false) : caps.placeholder = fun _ => "?" :=
  funext fun _ => if_neg (by simp [h])

theorem zip_map_const {α β γ : Type} (c : γ) :
    ∀ {as : List α} {bs : List β}, as.length = bs.length →
      (as.map fun _ => c).zip bs = bs.map fun b => (c, b)
  | [], [], _ => rfl
  | _ :: _, _ :: _, h => by
    rw [List.map_cons, List.map_cons, List.zip_cons_cons, zip_map_const c (Nat.succ.inj h)]

theorem bound_cons_of_inPlace {s : Settings} {o : Occurrence} (h : o.inPlace s = true)
    (os : List Occurrence) : bound s (o :: os) = bound s os := by
  simp [bound, h]

theorem bound_cons_of_not_inPlace {s : Settings} {o : Occurrence} (h : ¬ o.inPlace s = true)
    (os : List Occurrence) : bound s (o :: os) = o.param :: bound s os := by
  simp [bound, h]

/-- A settled draft keeps the invariant: its placeholders stand for the parameters that the draft
places, in order, and are spelled as the slots of these. -/
theorem settle_bindings {s : Settings} {xs : List Stroke} {out : List Segment}
    {ps openers openers' : List Param} {slots : List Nat}
    (hb : Bindings s.capabilities ps slots openers)
    (h : settle s openers xs = some (out, openers')) :
    ∃ slots', Bindings s.capabilities (ps ++ bound s (xs.filterMap Stroke.occurrence?))
        (slots ++ slots') openers' ∧
      out.filterMap (Segment.placeholder? s) =
        (slots'.map s.capabilities.placeholder).zip
          (bound s (xs.filterMap Stroke.occurrence?)) := by
  induction xs generalizing ps slots openers out with
  | nil =>
    cases h
    exact ⟨[], by simpa [bound] using hb, rfl⟩
  | cons x xs ih =>
    obtain ⟨segment, openers₁, rest, hx, hxs, rfl⟩ := settle_cons_eq_some.1 h
    match x with
    | .error _ | .ok (.placeholder _ _) => cases hx
    | .ok (.text _) | .ok (.keyword _) | .ok (.ident _) =>
      cases hx
      obtain ⟨slots', hb', hout⟩ := ih hb hxs
      exact ⟨slots', hb', hout⟩
    | .ok (.literal o) =>
      rw [Stroke.settle_literal] at hx
      rw [List.filterMap_cons_some (show Stroke.occurrence? (.ok (.literal o)) = some o from rfl)]
      split at hx
      · cases hx
      · next hclash =>
        split at hx
        · next hin =>
          rw [bound_cons_of_inPlace hin]
          split at hx
          · cases hx
            obtain ⟨slots', hb', hout⟩ := ih hb hxs
            exact ⟨slots', hb', hout⟩
          · cases hx
        · next hin =>
          rw [bound_cons_of_not_inPlace hin]
          cases hx
          obtain ⟨slots', hb', hout⟩ := ih (hb.allot (by simpa using hclash)) hxs
          refine ⟨(s.capabilities.allot openers o.param).1 :: slots', ?_, ?_⟩
          · simpa using hb'
          · simp [Segment.placeholder?, Segment.spelling_placeholder, hout]

/-! ## Renders -/

namespace Value

/-- Whether a value is a floating point number that is none. -/
def isNaN : Value → Bool
  | float x => x.isNaN
  | _ => false

/-- Every value but a NaN agrees with itself. -/
theorem agrees_self {v : Value} (h : v.isNaN = false) : v.agrees v = true := by
  cases v with
  | float x => exact Double.agrees_iff.2 ⟨h, h, .inl rfl⟩
  | _ => simp [agrees]

end Value

/-- The parameters that a part binds: those of its occurrences that are not marked to be written in
place. -/
def Part.parameters (d : Dialect) (m : Modes) (part : Part) : List Param :=
  ((part.occurrences d m).filter fun o => !o.param.inline).map Occurrence.param

namespace Configuration

variable (cfg : Configuration) {part : Part} {modes : Modes} {past : List Notice}

/-- The occurrences in the draft of a part are those of the part. -/
theorem occurrences_draft (part : Part) (modes : Modes) :
    (cfg.draft part modes).filterMap Stroke.occurrence? =
      part.occurrences cfg.settings.dialect modes :=
  part.sift_visit_occurrence cfg.settings.dialect modes

theorem bound_occurrences (hstyle : cfg.settings.paramStyle = .indexed) :
    bound cfg.settings (part.occurrences cfg.settings.dialect modes) =
      part.parameters cfg.settings.dialect modes := by
  simp [bound, Part.parameters, Occurrence.inPlace, hstyle]

/-- Behind a render that ends well, the parameters of the part, the slots of its placeholders and
the openers of these keep the invariant, and the bind values are those of the openers. -/
theorem bindings_of_render {r : Rendered} (hstyle : cfg.settings.paramStyle = .indexed)
    (hpart : part.propagates = true) (h : (cfg.render part modes past).result = .ok r) :
    let out := (cfg.render part modes past).out
    let ps := part.parameters cfg.settings.dialect modes
    ∃ slots openers, Bindings cfg.settings.capabilities ps slots openers ∧
      settle cfg.settings [] (cfg.draft part modes) = some (out, openers) ∧
      out.filterMap (Segment.placeholder? cfg.settings) =
        (slots.map cfg.settings.capabilities.placeholder).zip ps ∧
      r = { sql := textOf cfg.settings out, params := openers.map Param.value } := by
  intro out ps
  obtain ⟨openers, hsettle, hr⟩ := cfg.render_ok hpart h
  obtain ⟨slots, hb, hout⟩ := settle_bindings (Bindings.nil _) hsettle
  rw [occurrences_draft, bound_occurrences cfg hstyle] at hb hout
  rw [List.nil_append, List.nil_append] at hb
  exact ⟨slots, openers, hb, hsettle, hout, hr⟩

/-- **Placeholders and bind values agree.** Behind a render that ends well, the placeholders in the
text stand for the parameters of the part, in order.

Where placeholders are not numbered, each is a `?` and the bind values are those of the parameters.
Where they are, the parameters are numbered: the placeholder of each is spelled with its slot, the
slots appear in the order `1`, `2`, … without a gap, the bind values are those of the openers, and
every parameter finds a value in its slot that agrees with its own. A NaN, which agrees with
nothing, finds itself. -/
theorem placeholders_agree {r : Rendered} (hstyle : cfg.settings.paramStyle = .indexed)
    (hpart : part.propagates = true) (h : (cfg.render part modes past).result = .ok r) :
    let out := (cfg.render part modes past).out
    let ps := part.parameters cfg.settings.dialect modes
    r.sql = String.join (out.map (Segment.spelling cfg.settings)) ∧
    if cfg.settings.capabilities.numberedPlaceholders = true then
      ∃ slots openers, Numbering ps slots openers ∧
        out.filterMap (Segment.placeholder? cfg.settings) =
          (slots.map fun i => "$" ++ toString i).zip ps ∧
        r.params = openers.map Param.value ∧
        slots.eraseDups = List.range' 1 r.params.length ∧
        (∀ i, i ∈ slots ↔ 1 ≤ i ∧ i ≤ r.params.length) ∧
        ∀ p i, (p, i) ∈ ps.zip slots → ∃ v, r.params[i - 1]? = some v ∧
          (v.agrees p.value = true ∨ (v = p.value ∧ v.isNaN = true))
    else
      out.filterMap (Segment.placeholder? cfg.settings) = ps.map (fun p => ("?", p)) ∧
        r.params = ps.map Param.value := by
  intro out ps
  obtain ⟨openers, hsettle, rfl⟩ := cfg.render_ok hpart h
  obtain ⟨slots, hb, hout⟩ := settle_bindings (Bindings.nil _) hsettle
  rw [occurrences_draft, bound_occurrences cfg hstyle] at hb hout
  rw [List.nil_append, List.nil_append] at hb
  refine ⟨textOf_eq_join _ _, ?_⟩
  split
  · next hcaps =>
    have hnum := hb.numbering hcaps
    refine ⟨slots, openers, hnum, ?_, rfl, ?_, ?_, ?_⟩
    · rw [hout, Capabilities.placeholder_numbered hcaps]
    · rw [List.length_map]
      exact hnum.eraseDups_slots
    · intro i
      rw [List.length_map]
      exact hnum.mem_slots_iff i
    · intro p i hmem
      obtain ⟨q, hq, hagrees⟩ := hb.serves p i hmem
      refine ⟨q.value, by simp [hq], ?_⟩
      rcases hagrees with hagrees | rfl
      · exact .inl hagrees
      · cases hnan : q.value.isNaN with
        | false => exact .inl (Value.agrees_self hnan)
        | true => exact .inr ⟨rfl, rfl⟩
  · next hcaps =>
    have hcaps' : cfg.settings.capabilities.numberedPlaceholders = false := by simpa using hcaps
    refine ⟨?_, by rw [hb.sequence hcaps']⟩
    rw [hout, Capabilities.placeholder_unnumbered hcaps', zip_map_const _ hb.length_eq]

/-- `a = :x AND b > 'u' AND c < :x`, where the two occurrences of `x` share the first slot. -/
theorem placeholders_agree_shared :
    let part : Part := .condition (.combined .and
      [.comparison (.named "a") .eq (.param "x" (7 : Int64)),
       .comparison (.named "b") .gt (.val "u"),
       .comparison (.named "c") .lt (.param "x" (7 : Int64))])
    ∃ slots openers, Numbering (part.parameters .postgres {}) slots openers ∧
      openers.map Param.value = [.int 7, .text "u"] ∧ slots.eraseDups = [1, 2] := by
  intro part
  let cfg : Configuration := { settings := { dialect := .postgres } }
  let r : Rendered :=
    { sql := "(\"a\" = $1 AND \"b\" > $2 AND \"c\" < $1)", params := [.int 7, .text "u"] }
  have hok : (cfg.render part {} []).result = .ok r := Report.result_eq_ok (by decide +kernel)
  obtain ⟨-, slots, openers, hnum, -, hparams, hdups, -⟩ :=
    placeholders_agree cfg rfl (by decide +kernel) hok
  exact ⟨slots, openers, hnum, hparams.symm, hdups⟩

/-- A NaN is bound, but as it agrees with nothing it does not agree with the value in its slot. -/
theorem nan_disagrees_with_its_slot :
    let nan : Param := { value := .float ⟨0x7ff8000000000000⟩ }
    let part : Part := .field (.value nan)
    SqlRender.render .postgres part = .ok { sql := "$1", params := [nan.value] } ∧
      part.parameters .postgres {} = [nan] ∧ nan.value.agrees nan.value = false := by
  intro nan part
  exact ⟨Report.result_eq_ok (by decide +kernel), by decide +kernel, by decide +kernel⟩

end Configuration

end SqlRender
