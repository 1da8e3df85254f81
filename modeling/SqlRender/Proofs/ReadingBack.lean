import SqlRender.Proofs.Formulas
import SqlRender.Proofs.Portability
import SqlRender.Proofs.Quoting

/-!
# Conditions can be read back

Two conditions that render to the same text and the same bind values are the same condition, up to
what the text leaves out: declared types, chains of one member, and how a constant came about.
`Condition.formula?` says what is left.

```text
condition ──formula?──▸ formula ──marks──▸ marks ──spell──▸ stretches ◂──lex── text
```

The text of a render is read as its stretches (`Configuration.lex_sql`). These spell the marks of
the formula, where the bind values are numbered from the left (`settle_spell`); with the bind values
at hand the numbers can be undone (`Mark.spell_injective`), and marks determine the formula
(`Formula.unique`).
-/

namespace SqlRender

variable {α : Type}

/-! ## Spelling marks -/

namespace Mark

/-- The stretches of marks, whose values go to the slots behind the first `n`, each to its own. -/
def spell : Nat → List (Mark α) → List Stretch
  | _, [] => []
  | n, code c :: ms => .code c :: spell n ms
  | n, ident name :: ms => .ident name :: spell n ms
  | n, value _ :: ms => .code '$' :: ((toString (n + 1)).toList.map .code ++ spell (n + 1) ms)

/-- The value that a mark stands for. -/
def value? : Mark α → Option α
  | value v => some v
  | _ => none

theorem spell_codes (n : Nat) (s : String) (ms : List (Mark α)) :
    spell n (codes s ++ ms) = s.toList.map .code ++ spell n ms := by
  unfold codes
  induction s.toList with
  | nil => rfl
  | cons c cs ih => rw [List.map_cons, List.cons_append, spell, ih]; rfl

theorem values_codes (s : String) : (codes (α := α) s).filterMap value? = [] := by
  unfold codes
  rw [List.filterMap_map]
  exact List.filterMap_eq_nil_iff.2 fun _ _ => rfl

/-- **Placeholders and bind values together determine the marks**, as long as no other mark looks
like a placeholder. -/
theorem spell_injective : ∀ {ms ms' : List (Mark α)} (n : Nat), code '$' ∉ ms → code '$' ∉ ms' →
    spell n ms = spell n ms' → ms.filterMap value? = ms'.filterMap value? → ms = ms'
  | [], [], _, _, _, _, _ => rfl
  | [], code _ :: _, _, _, _, h, _ => by cases h
  | [], ident _ :: _, _, _, _, h, _ => by cases h
  | [], value _ :: _, _, _, _, h, _ => by cases h
  | code c :: ms, ms', n, hms, hms', hspell, hvalues => by
    match ms' with
    | [] | ident _ :: _ => cases hspell
    | code c' :: ms'' =>
      obtain ⟨hc, hrest⟩ := List.cons.inj hspell
      cases hc
      rw [spell_injective n (fun h => hms (List.mem_cons_of_mem _ h))
        (fun h => hms' (List.mem_cons_of_mem _ h)) hrest hvalues]
    | value _ :: _ =>
      -- only a placeholder begins with the sign
      obtain ⟨hc, -⟩ := List.cons.inj hspell
      cases hc
      exact absurd List.mem_cons_self hms
  | ident name :: ms, ms', n, hms, hms', hspell, hvalues => by
    match ms' with
    | [] | code _ :: _ | value _ :: _ => cases hspell
    | ident name' :: ms'' =>
      obtain ⟨hname, hrest⟩ := List.cons.inj hspell
      cases hname
      rw [spell_injective n (fun h => hms (List.mem_cons_of_mem _ h))
        (fun h => hms' (List.mem_cons_of_mem _ h)) hrest hvalues]
  | value v :: ms, ms', n, hms, hms', hspell, hvalues => by
    match ms' with
    | [] | ident _ :: _ => cases hspell
    | code c :: _ =>
      obtain ⟨hc, -⟩ := List.cons.inj hspell
      cases hc
      exact absurd List.mem_cons_self hms'
    | value v' :: ms'' =>
      -- both stand in the same slot, so their placeholders end at the same place
      obtain ⟨-, hdigits⟩ := List.cons.inj hspell
      obtain ⟨hv, hrest⟩ := List.cons.inj hvalues
      rw [hv, spell_injective (n + 1) (fun h => hms (List.mem_cons_of_mem _ h))
        (fun h => hms' (List.mem_cons_of_mem _ h)) (List.append_cancel_left hdigits) hrest]

end Mark

/-! ## No mark of a formula looks like a placeholder -/

theorem sign_not_mem_codes {s : String} (h : '$' ∉ s.toList) :
    Mark.code (α := α) '$' ∉ codes s := by
  intro hmem
  obtain ⟨c, hc, heq⟩ := List.mem_map.1 hmem
  cases heq
  exact h hc

mutual

theorem Operand.sign_not_mem : ∀ a : Operand α, Mark.code '$' ∉ a.marks
  | .column none _ | .column (some _) _ | .value _ => by simp [marks]
  | .row first rest => by
    have hfirst := Operand.sign_not_mem first
    have hrest := Operand.sign_not_mem_tail rest
    simp [marks, hfirst, hrest]

theorem Operand.sign_not_mem_tail : ∀ as : List (Operand α), Mark.code '$' ∉ tailMarks as
  | [] => by simp [tailMarks]
  | a :: as => by
    have hcomma : Mark.code (α := α) '$' ∉ codes ", " := sign_not_mem_codes (by decide)
    have ha := Operand.sign_not_mem a
    have has := Operand.sign_not_mem_tail as
    simp [tailMarks, hcomma, ha, has]

end

theorem Test.sign_not_mem (t : Test α) : Mark.code '$' ∉ t.marks := by
  have hwords : Mark.code (α := α) '$' ∉ codes t.lead.words := by
    apply sign_not_mem_codes
    have hall : ∀ l ∈ Lead.all, '$' ∉ l.words.toList := by decide +kernel
    exact hall _ (Lead.mem_all _)
  have hcontent : Mark.code '$' ∉ t.content := by
    cases t with
    | compare op a => exact a.sign_not_mem
    | null negated => exact List.not_mem_nil
    | among negated first rest => exact (Operand.row first rest).sign_not_mem
    | between negated symmetric low high =>
      have hflag : Mark.code (α := α) '$' ∉ codes (if symmetric then "SYMMETRIC " else "") :=
        sign_not_mem_codes (by cases symmetric <;> decide)
      have hand : Mark.code (α := α) '$' ∉ codes " AND " := sign_not_mem_codes (by decide)
      simp [content, hflag, hand, low.sign_not_mem, high.sign_not_mem]
  simp [marks, hwords, hcontent]

theorem Connective.sign_not_mem (op : Connective) : Mark.code (α := α) '$' ∉ codes op.words :=
  sign_not_mem_codes (by cases op <;> decide)

mutual

theorem Formula.sign_not_mem : ∀ φ : Formula α, Mark.code '$' ∉ φ.marks
  | .constant b => sign_not_mem_codes (by cases b <;> decide)
  | .not φ => by
    have hnot : Mark.code (α := α) '$' ∉ codes "NOT (" := sign_not_mem_codes (by decide)
    simp [marks, hnot, Formula.sign_not_mem φ]
  | .chain op φ ψ φs => by
    simp [marks, op.sign_not_mem, Formula.sign_not_mem φ, Formula.sign_not_mem ψ,
      Formula.sign_not_mem_tail op φs]
  | .test operand t => by simp [marks, operand.sign_not_mem, t.sign_not_mem]

theorem Formula.sign_not_mem_tail (op : Connective) : ∀ φs : List (Formula α),
    Mark.code '$' ∉ tailMarks op φs
  | [] => by simp [tailMarks]
  | φ :: φs => by
    simp [tailMarks, op.sign_not_mem, Formula.sign_not_mem φ, Formula.sign_not_mem_tail op φs]

end

/-! ## The formula of a condition -/

section

variable (view : Value → α)

mutual

/-- The operand that a field is, with its bind values as they are viewed and without types. An alias
is none, and neither is a row without fields. -/
def Field.operand? : Field → Option (Operand α)
  | .column c => some (.column c.qualifier c.name)
  | .value p => some (.value (view p.value))
  | .aliased _ _ => none
  | .row fields =>
    match Field.operands? fields with
    | some (a :: as) => some (.row a as)
    | _ => none

/-- The operands that fields are. -/
def Field.operands? : List Field → Option (List (Operand α))
  | [] => some []
  | f :: fs => do some ((← f.operand?) :: (← Field.operands? fs))

end

/-- The members of a chain as one formula: none are a constant, one stands for itself. -/
def Formula.joined (op : Connective) : List (Formula α) → Formula α
  | [] => .constant (op = .and)
  | [φ] => φ
  | φ :: ψ :: φs => .chain op φ ψ φs

mutual

/-- The formula that a condition is. Without values to test against, `IN` is a constant. A subquery
is none. -/
def Condition.formula? : Condition → Option (Formula α)
  | .comparison left op right => do
    some (.test (← left.operand? view) (.compare op (← right.operand? view)))
  | .not c => do some (.not (← c.formula?))
  | .combined op conditions => do some (.joined op (← Condition.formulas? conditions))
  | .isNull f negated => do some (.test (← f.operand? view) (.null negated))
  | .isIn _ [] negated => some (.constant negated)
  | .isIn f (v :: vs) negated => do
    some (.test (← f.operand? view)
      (.among negated (← v.operand? view) (← Field.operands? view vs)))
  | .between f low high negated symmetric => do
    some (.test (← f.operand? view)
      (.between negated symmetric (← low.operand? view) (← high.operand? view)))
  | .exists _ _ => none

/-- The formulas that conditions are. -/
def Condition.formulas? : List Condition → Option (List (Formula α))
  | [] => some []
  | c :: cs => do some ((← c.formula?) :: (← Condition.formulas? cs))

end

end

/-! ## The marks of a draft -/

section

variable (view : Value → α)

/-- The marks of a stroke. -/
def Stroke.marks : Stroke → List (Mark α)
  | .ok (.text s) => codes s
  | .ok (.keyword word) => codes word
  | .ok (.ident name) => [.ident name]
  | .ok (.literal o) => [.value (view o.param.value)]
  | _ => []

/-- The marks of an action that is performed under given modes. -/
def Action.marks (m : Modes) (a : Action) : List (Mark α) := (a.draft m).flatMap (Stroke.marks view)

/-- The marks of a script that is performed under given modes. -/
def Script.marks (m : Modes) (as : Script) : List (Mark α) :=
  (Script.draft m as).flatMap (Stroke.marks view)

variable {view} {m : Modes}

namespace Action

@[simp] theorem marks_text (s : String) : (text s).marks view m = codes s := by
  simp [marks, draft, Stroke.marks]

@[simp] theorem marks_keyword (word : String) : (keyword word).marks view m = codes word := by
  simp [marks, draft, Stroke.marks]

@[simp] theorem marks_ident (name : String) : (ident name).marks view m = [.ident name] := by
  simp [marks, draft, Stroke.marks]

@[simp] theorem marks_bind (p : Param) : (bind p).marks view m = [.value (view p.value)] := by
  simp [marks, draft, Stroke.marks, Param.occurrence]

@[simp] theorem marks_fail (e : RenderError) : (fail e).marks view m = [] := rfl

@[simp] theorem marks_visit (part : Part) (body : Script) :
    (visit part body).marks view m = Script.marks view m body := rfl

@[simp] theorem marks_assume (type : Option DataType) (body : Script) :
    (assume type body).marks view m = Script.marks view (m.assume type) body := rfl

@[simp] theorem marks_whenOn (mode : Mode) (body : Script) :
    (whenOn mode body).marks view m = if m.isOn mode then Script.marks view m body else [] := by
  unfold marks Action.draft
  split <;> rfl

end Action

namespace Script

@[simp] theorem marks_nil : Script.marks view m [] = [] := rfl

@[simp] theorem marks_cons (a : Action) (as : Script) :
    Script.marks view m (a :: as) = a.marks view m ++ Script.marks view m as := by
  simp [Script.marks, Action.marks]

@[simp] theorem marks_append (as bs : Script) :
    Script.marks view m (as ++ bs) = Script.marks view m as ++ Script.marks view m bs := by
  simp [Script.marks]

@[simp] theorem marks_require (d : Dialect) (f : Feature) (c : Clause) :
    Script.marks view m (Script.require d f c) = [] := by
  unfold Script.require
  split <;> simp

@[simp] theorem marks_checkDegree (d : Dialect) (c : Clause) (expected found : Nat) :
    Script.marks view m (Script.checkDegree d c expected found) = [] := by
  unfold Script.checkDegree
  split <;> simp

@[simp] theorem marks_checks (d : Dialect) {β : Type} (c : Clause) (expected : Nat)
    (found : β → Nat) (as : List β) :
    Script.marks view m (as.flatMap fun a => Script.checkDegree d c expected (found a)) = [] := by
  induction as with
  | nil => rfl
  | cons a as ih => simp [ih]

/-- Actions with a separator have the marks of the first, and those of the others behind the
separator's. -/
theorem marks_separated (separator : String) : ∀ {as : Script} {xs : List (Mark α)}
    {xss : List (List (Mark α))}, as.map (Action.marks view m) = xs :: xss →
    Script.marks view m (Script.separated separator as) =
      xs ++ xss.flatMap fun xs => codes separator ++ xs
  | [a], xs, xss, h => by
    cases h
    simp [Script.separated]
  | a :: b :: as, xs, xss, h => by
    cases h
    have hmap : (b :: as).map (Action.marks view m) = b.marks view m :: as.map (·.marks view m) :=
      rfl
    have ih := marks_separated separator hmap
    unfold Script.separated at ih ⊢
    rw [List.intersperse_cons_cons, marks_cons, marks_cons, ih]
    simp

end Script

end

theorem Operand.tailMarks_eq (as : List (Operand α)) :
    tailMarks as = (as.map marks).flatMap (fun xs => codes ", " ++ xs) ++ [.code ')'] := by
  induction as with
  | nil => rfl
  | cons a as ih => simp [tailMarks, ih]

theorem Formula.tailMarks_eq (op : Connective) (φs : List (Formula α)) :
    tailMarks op φs = (φs.map marks).flatMap (fun xs => codes op.words ++ xs) ++ [.code ')'] := by
  induction φs with
  | nil => rfl
  | cons φ φs ih => simp [tailMarks, ih]

/-! ### Fields and conditions -/

section

variable {view : Value → α} (d : Dialect)

/-- A list of operands in parentheses. -/
theorem Script.marks_row {m : Modes} {as : Script} {a : Operand α} {rest : List (Operand α)}
    (h : as.map (Action.marks view m) = (a :: rest).map Operand.marks) :
    Mark.code '(' :: (Script.marks view m (Script.listed as) ++ [.code ')']) =
      (Operand.row a rest).marks := by
  rw [Script.listed, Script.marks_separated ", " h, Operand.marks, Operand.tailMarks_eq,
    List.append_assoc]

mutual

/-- What is written for a field where columns carry their qualifier are the marks of its operand. -/
theorem Field.marks_body : ∀ (f : Field) {m : Modes} {a : Operand α}, m.qualify = true →
    f.operand? view = some a → Script.marks view m (f.body d) = a.marks
  | .column c, m, a, hm, h => by
    cases h
    have hon : m.isOn .qualify = true := hm
    cases hq : c.qualifier <;> simp [Field.body, Column.body, hq, hon, Operand.marks, codes]
  | .value p, _, _, _, h => by
    cases h
    simp [Field.body, Operand.marks]
  | .aliased _ _, _, _, _, h => by cases h
  | .row fields, m, a, hm, h => by
    rw [Field.operand?] at h
    split at h
    · next b bs hfields =>
      cases h
      have hvisits := Field.marks_visits fields hm hfields
      have hne : ¬ (Field.visits d fields).isEmpty = true := by
        intro hempty
        rw [List.isEmpty_iff.1 hempty] at hvisits
        cases hvisits
      rw [← Script.marks_row hvisits, Field.body, Row.layout, if_neg hne]
      simp [codes]
    · cases h

theorem Field.marks_visits : ∀ (fs : List Field) {m : Modes} {as : List (Operand α)},
    m.qualify = true → Field.operands? view fs = some as →
    (Field.visits d fs).map (Action.marks view m) = as.map Operand.marks
  | [], _, _, _, h => by
    cases h
    rfl
  | f :: fs, m, as, hm, h => by
    simp only [Field.operands?, Option.bind_eq_bind, Option.bind_eq_some_iff] at h
    obtain ⟨b, hb, bs, hbs, h⟩ := h
    cases h
    rw [Field.visits, List.map_cons, List.map_cons, Action.marks_visit,
      Field.marks_body f hm hb, Field.marks_visits fs hm hbs]

end

theorem Field.marks_visit {f : Field} {m : Modes} {a : Operand α} (hm : m.qualify = true)
    (h : f.operand? view = some a) : (f.visit d).marks view m = a.marks :=
  Field.marks_body d f hm h

/-- A chain is written as its members joined. -/
theorem Connective.marks_layout (op : Connective) {m : Modes} {as : Script}
    {φs : List (Formula α)} (h : as.map (Action.marks view m) = φs.map Formula.marks) :
    Script.marks view m (op.layout as) = (Formula.joined op φs).marks := by
  match as, φs with
  | [], [] => cases op <;> simp [Connective.layout, Formula.joined, Formula.marks]
  | [a], [φ] =>
    have ha : a.marks view m = φ.marks := by simpa using h
    simp [Connective.layout, Formula.joined, ha]
  | a :: b :: as, φ :: ψ :: φs =>
    have hmembers : Script.marks view m (Script.separated op.words (a :: b :: as)) ++ codes ")" =
        φ.marks ++ Formula.tailMarks op (ψ :: φs) := by
      rw [Script.marks_separated op.words h, Formula.tailMarks_eq, List.append_assoc]
      rfl
    show Script.marks view m
      ([.text "("] ++ Script.separated op.words (a :: b :: as) ++ [.text ")"]) = _
    simp only [Script.marks_append, Script.marks_cons, Script.marks_nil, Action.marks_text,
      List.append_nil, List.append_assoc, hmembers]
    rfl
  | [], _ :: _ | [_], [] | [_], _ :: _ :: _ | _ :: _ :: _, [] | _ :: _ :: _, [_] => simp at h

mutual

/-- **What is written for a condition are the marks of its formula**, where columns carry their
qualifier. -/
theorem Condition.marks_body {m : Modes} (hm : m.qualify = true) : ∀ (c : Condition)
    {φ : Formula α}, c.formula? view = some φ → Script.marks view m (c.body d) = φ.marks
  | .comparison left op right, φ, h => by
    simp only [Condition.formula?, Option.bind_eq_bind, Option.bind_eq_some_iff] at h
    obtain ⟨a, ha, b, hb, h⟩ := h
    cases h
    have hleft := Field.marks_visit d (m := m.assume right.dataType) hm ha
    have hright := Field.marks_visit d (m := m.assume left.dataType) hm hb
    simp [Condition.body, Formula.marks, Test.marks, Test.lead, Lead.words, Test.content, hleft,
      hright, codes_append]
  | .not c, φ, h => by
    simp only [Condition.formula?, Option.bind_eq_bind, Option.bind_eq_some_iff] at h
    obtain ⟨ψ, hψ, h⟩ := h
    cases h
    simp [Condition.body, Formula.marks, Condition.marks_body hm c hψ, codes]
  | .combined op conditions, φ, h => by
    simp only [Condition.formula?, Option.bind_eq_bind, Option.bind_eq_some_iff] at h
    obtain ⟨φs, hφs, h⟩ := h
    cases h
    rw [Condition.body]
    exact op.marks_layout (Condition.marks_visits hm conditions hφs)
  | .isNull f negated, φ, h => by
    simp only [Condition.formula?, Option.bind_eq_bind, Option.bind_eq_some_iff] at h
    obtain ⟨a, ha, h⟩ := h
    cases h
    simp [Condition.body, Formula.marks, Test.marks, Test.lead, Lead.words, Test.content,
      Field.marks_visit d hm ha]
  | .isIn f [] negated, φ, h => by
    cases h
    simp [Condition.body, Condition.layoutIn, Formula.marks]
  | .isIn f (v :: vs) negated, φ, h => by
    simp only [Condition.formula?, Option.bind_eq_bind, Option.bind_eq_some_iff] at h
    obtain ⟨a, ha, b, hb, bs, hbs, h⟩ := h
    cases h
    have hvalues : ((v :: vs).map (Field.visit d)).map (Action.marks view (m.assume f.dataType)) =
        (b :: bs).map Operand.marks := by
      have hv := Field.marks_visit d (m := m.assume f.dataType) hm hb
      have hvs := Field.marks_visits d vs (m := m.assume f.dataType) hm hbs
      rw [List.map_cons, List.map_cons, List.map_cons, ← Field.visits_eq_map, hv, hvs]
    have hlist := Script.marks_row hvalues
    have hwords : codes (α := α) (if negated then " NOT IN (" else " IN (") =
        codes (if negated then " NOT IN " else " IN ") ++ [.code '('] := by
      cases negated <;> rfl
    simp only [Condition.body, Condition.layoutIn, List.isEmpty_cons, Bool.false_eq_true, if_false,
      Script.marks_append, Script.marks_checks, Script.marks_cons, Script.marks_nil,
      Action.marks_keyword, Action.marks_text, Action.marks_assume, Field.marks_visit d hm ha,
      Formula.marks, Test.marks, Test.lead, Lead.words, Test.content, ← hlist, hwords,
      List.append_assoc, List.nil_append, List.append_nil, List.singleton_append]
    rfl
  | .between f low high negated symmetric, φ, h => by
    simp only [Condition.formula?, Option.bind_eq_bind, Option.bind_eq_some_iff] at h
    obtain ⟨a, ha, b, hb, b', hb', h⟩ := h
    cases h
    have hlow := Field.marks_visit d (m := m.assume f.dataType) hm hb
    have hhigh := Field.marks_visit d (m := m.assume f.dataType) hm hb'
    cases negated <;> cases symmetric <;>
      simp [Condition.body, Condition.layoutBetween, Formula.marks, Test.marks, Test.lead,
        Lead.words, Test.content, Field.marks_visit d hm ha, hlow, hhigh, codes]

/-- What is written for conditions are the marks of their formulas. -/
theorem Condition.marks_visits {m : Modes} (hm : m.qualify = true) : ∀ (cs : List Condition)
    {φs : List (Formula α)}, Condition.formulas? view cs = some φs →
    (Condition.visits d cs).map (Action.marks view m) = φs.map Formula.marks
  | [], _, h => by
    cases h
    rfl
  | c :: cs, φs, h => by
    simp only [Condition.formulas?, Option.bind_eq_bind, Option.bind_eq_some_iff] at h
    obtain ⟨ψ, hψ, ψs, hψs, h⟩ := h
    cases h
    rw [Condition.visits, List.map_cons, List.map_cons, Action.marks_visit,
      Condition.marks_body hm c hψ, Condition.marks_visits hm cs hψs]

end

end

/-! ## Settled drafts spell their marks -/

/-- A parameter without a name that is not marked to be written in place. -/
def Param.IsPlain (p : Param) : Prop := p.name = none ∧ p.inline = false

section

variable (view : Value → α) {s : Settings}

/-- **A settled draft spells its marks**, if placeholders are numbered and no parameter has a name
or is in place. -/
theorem settle_spell (hcaps : s.capabilities.numberedPlaceholders = true)
    (hcase : s.keywordCase = .upper) (hstyle : s.paramStyle = .indexed) {xs : List Stroke}
    {opened opened' : List Param} {out : List Segment}
    (hxs : ∀ o ∈ xs.filterMap Stroke.occurrence?, o.param.IsPlain)
    (h : settle s opened xs = some (out, opened')) :
    stretchesOf s out = Mark.spell opened.length (xs.flatMap (Stroke.marks view)) := by
  induction xs generalizing opened out with
  | nil =>
    cases h
    rfl
  | cons x xs ih =>
    obtain ⟨segment, opened₁, rest, hx, hrest, rfl⟩ := settle_cons_eq_some.1 h
    have htail : ∀ o ∈ xs.filterMap Stroke.occurrence?, o.param.IsPlain := fun o ho => by
      obtain ⟨y, hy, hyo⟩ := List.mem_filterMap.1 ho
      exact hxs o (List.mem_filterMap.2 ⟨y, List.mem_cons_of_mem _ hy, hyo⟩)
    rw [stretchesOf_cons, ih htail hrest, List.flatMap_cons]
    match x with
    | .error _ | .ok (.placeholder _ _) => cases hx
    | .ok (.text t) =>
      cases hx
      rw [Stroke.marks, Mark.spell_codes]
      simp [Segment.tokens, Token.stretches, Token.text]
    | .ok (.keyword word) =>
      cases hx
      have hword : s.keyword word = word := by rw [Settings.keyword, hcase]
      rw [Stroke.marks, Mark.spell_codes]
      simp [Segment.tokens, Token.stretches, Token.text, hword]
    | .ok (.ident name) =>
      cases hx
      rfl
    | .ok (.literal o) =>
      have ho : o.param.IsPlain := hxs o (List.mem_filterMap.2 ⟨_, List.mem_cons_self, rfl⟩)
      have hin : ¬ o.inPlace s = true := by simp [Occurrence.inPlace, ho.2, hstyle]
      have hunshared : o.param.Unshared s.capabilities := fun _ => ho.1
      have hslot := Capabilities.allot_of_unshared hunshared opened
      rw [Stroke.settle_literal, Option.ite_none_left_eq_some, if_neg hin, hslot] at hx
      cases hx.2
      simp [Segment.tokens, Token.stretches, Token.text, Capabilities.placeholder_numbered hcaps,
        Stroke.marks, Mark.spell]

/-- The values among the marks of strokes are those of their occurrences. -/
theorem Stroke.values_marks (xs : List Stroke) :
    (xs.flatMap (Stroke.marks view)).filterMap Mark.value? =
      (xs.filterMap Stroke.occurrence?).map fun o => view o.param.value := by
  induction xs with
  | nil => rfl
  | cons x xs ih =>
    rw [List.flatMap_cons, List.filterMap_append, ih]
    match x with
    | .error _ | .ok (.placeholder _ _) | .ok (.ident _) | .ok (.literal _) => rfl
    | .ok (.text _) | .ok (.keyword _) =>
      rw [Stroke.marks, Mark.values_codes]
      rfl

end

/-! ## Plain conditions -/

mutual

/-- A field of columns, unnamed bind values and rows of such fields. -/
def Field.Plain : Field → Prop
  | .column _ => True
  | .value p => p.IsPlain
  | .aliased _ _ => False
  | .row fields => Field.AllPlain fields

/-- Plain fields. -/
def Field.AllPlain : List Field → Prop
  | [] => True
  | f :: fs => f.Plain ∧ Field.AllPlain fs

end

mutual

/-- A condition on plain fields without subqueries. -/
def Condition.Plain : Condition → Prop
  | .comparison left _ right => left.Plain ∧ right.Plain
  | .not c => c.Plain
  | .combined _ conditions => Condition.AllPlain conditions
  | .isNull f _ => f.Plain
  | .isIn f values _ => f.Plain ∧ Field.AllPlain values
  | .between f low high _ _ => f.Plain ∧ low.Plain ∧ high.Plain
  | .exists _ _ => False

/-- Plain conditions. -/
def Condition.AllPlain : List Condition → Prop
  | [] => True
  | c :: cs => c.Plain ∧ Condition.AllPlain cs

end

/-- Every occurrence is that of a plain parameter. -/
def PlainIn (os : List Occurrence) : Prop := ∀ o ∈ os, o.param.IsPlain

theorem PlainIn.append {os os' : List Occurrence} (h : PlainIn os) (h' : PlainIn os') :
    PlainIn (os ++ os') := by
  intro o ho
  rcases List.mem_append.1 ho with ho | ho
  · exact h o ho
  · exact h' o ho

theorem PlainIn.nil : PlainIn [] := List.forall_mem_nil _

section

variable (m : Modes)

mutual

theorem Field.plainIn : ∀ (f : Field) (m : Modes), f.Plain → PlainIn (f.occurrences m)
  | .column _, _, _ => .nil
  | .value _, _, h => List.forall_mem_singleton.2 h
  | .row fields, m, h => Field.plainIn_all fields m h

theorem Field.plainIn_all : ∀ (fs : List Field) (m : Modes), Field.AllPlain fs →
    PlainIn (Field.occurrencesIn m fs)
  | [], _, _ => .nil
  | f :: fs, m, h => (Field.plainIn f m h.1).append (Field.plainIn_all fs m h.2)

end

mutual

/-- A plain condition is written with plain parameters only. -/
theorem Condition.plainIn : ∀ c : Condition, c.Plain → PlainIn (c.occurrences m)
  | .comparison left _ right, h => (left.plainIn _ h.1).append (right.plainIn _ h.2)
  | .not c, h => Condition.plainIn c h
  | .combined _ conditions, h => Condition.plainIn_all conditions h
  | .isNull f _, h => f.plainIn _ h
  | .isIn f values _, h => by
    rw [Condition.occurrences]
    split
    · exact .nil
    · exact (f.plainIn _ h.1).append (Field.plainIn_all values _ h.2)
  | .between f low high _ _, h =>
    (f.plainIn _ h.1).append ((low.plainIn _ h.2.1).append (high.plainIn _ h.2.2))

theorem Condition.plainIn_all : ∀ cs : List Condition, Condition.AllPlain cs →
    PlainIn (Condition.occurrencesIn m cs)
  | [], _ => .nil
  | c :: cs, h => (Condition.plainIn c h.1).append (Condition.plainIn_all cs h.2)

end

end

section

variable (view : Value → α)

mutual

/-- A plain field is an operand if none of its rows is empty. -/
theorem Field.exists_operand {declared : Bool} : ∀ f : Field, f.Plain → f.Valid declared →
    ∃ a, f.operand? view = some a
  | .column _, _, _ => ⟨_, rfl⟩
  | .value _, _, _ => ⟨_, rfl⟩
  | .row [], _, hvalid => absurd rfl hvalid.1
  | .row (f :: fs), hplain, hvalid => by
    obtain ⟨a, ha⟩ := Field.exists_operand f hplain.1 hvalid.2.1
    obtain ⟨as, has⟩ := Field.exists_operands fs hplain.2 hvalid.2.2
    exact ⟨.row a as, by simp [Field.operand?, Field.operands?, ha, has]⟩

theorem Field.exists_operands {declared : Bool} : ∀ fs : List Field, Field.AllPlain fs →
    Field.AllValid declared fs → ∃ as, Field.operands? view fs = some as
  | [], _, _ => ⟨[], rfl⟩
  | f :: fs, hplain, hvalid => by
    obtain ⟨a, ha⟩ := Field.exists_operand f hplain.1 hvalid.1
    obtain ⟨as, has⟩ := Field.exists_operands fs hplain.2 hvalid.2
    exact ⟨a :: as, by simp [Field.operands?, ha, has]⟩

end

mutual

/-- A plain condition that is valid is a formula. -/
theorem Condition.exists_formula {d : Dialect} {m : Modes} : ∀ c : Condition, c.Plain →
    c.Valid d m → ∃ φ, c.formula? view = some φ
  | .comparison left op right, hplain, hvalid => by
    obtain ⟨a, ha⟩ := left.exists_operand view hplain.1 hvalid.2.1
    obtain ⟨b, hb⟩ := right.exists_operand view hplain.2 hvalid.2.2
    exact ⟨_, by rw [Condition.formula?, ha, hb]; rfl⟩
  | .not c, hplain, hvalid => by
    obtain ⟨φ, hφ⟩ := Condition.exists_formula c hplain hvalid
    exact ⟨_, by rw [Condition.formula?, hφ]; rfl⟩
  | .combined op conditions, hplain, hvalid => by
    obtain ⟨φs, hφs⟩ := Condition.exists_formulas conditions hplain hvalid
    exact ⟨_, by rw [Condition.formula?, hφs]; rfl⟩
  | .isNull f negated, hplain, hvalid => by
    obtain ⟨a, ha⟩ := f.exists_operand view hplain hvalid
    exact ⟨_, by rw [Condition.formula?, ha]; rfl⟩
  | .isIn _ [] negated, _, _ => ⟨.constant negated, rfl⟩
  | .isIn f (v :: vs) negated, hplain, hvalid => by
    obtain ⟨-, hf, hvs⟩ := hvalid (List.cons_ne_nil v vs)
    obtain ⟨hv, hvs⟩ := List.forall_mem_cons.1 hvs
    obtain ⟨a, ha⟩ := f.exists_operand view hplain.1 hf
    obtain ⟨b, hb⟩ := v.exists_operand view hplain.2.1 hv
    obtain ⟨bs, hbs⟩ := Field.exists_operands view vs hplain.2.2 ((Field.allValid_iff _ vs).2 hvs)
    exact ⟨_, by rw [Condition.formula?, ha, hb, hbs]; rfl⟩
  | .between f low high negated symmetric, hplain, hvalid => by
    obtain ⟨-, -, -, hf, hlow, hhigh⟩ := hvalid
    obtain ⟨a, ha⟩ := f.exists_operand view hplain.1 hf
    obtain ⟨b, hb⟩ := low.exists_operand view hplain.2.1 hlow
    obtain ⟨b', hb'⟩ := high.exists_operand view hplain.2.2 hhigh
    exact ⟨_, by rw [Condition.formula?, ha, hb, hb']; rfl⟩

theorem Condition.exists_formulas {d : Dialect} {m : Modes} : ∀ cs : List Condition,
    Condition.AllPlain cs → Condition.AllValid d m cs →
    ∃ φs, Condition.formulas? view cs = some φs
  | [], _, _ => ⟨[], rfl⟩
  | c :: cs, hplain, hvalid => by
    obtain ⟨φ, hφ⟩ := Condition.exists_formula c hplain.1 hvalid.1
    obtain ⟨φs, hφs⟩ := Condition.exists_formulas cs hplain.2 hvalid.2
    exact ⟨_, by rw [Condition.formulas?, hφ, hφs]; rfl⟩

end

/-! ## Renders -/

/-- The text of a plain condition spells the marks of its formula, and the bind values are the
values among them. -/
theorem render_spell {c : Condition} (hc : c.Plain) {r : Rendered}
    (h : SqlRender.render .postgres (.condition c) = .ok r) :
    ∃ φ, c.formula? view = some φ ∧ lex '"' r.sql.toList = some (Mark.spell 0 φ.marks) ∧
      r.params.map view = φ.marks.filterMap Mark.value? := by
  let cfg : Configuration := { settings := { dialect := .postgres } }
  have hrender : (cfg.render (.condition c) {} []).result = .ok r := h
  obtain ⟨hvalid, -⟩ := cfg.valid_of_ok rfl hrender
  obtain ⟨φ, hφ⟩ := Condition.exists_formula view c hc hvalid
  have hmarks : (cfg.draft (.condition c) {}).flatMap (Stroke.marks view) = φ.marks :=
    Condition.marks_body .postgres rfl c hφ
  have hplain : PlainIn (c.occurrences {}) := c.plainIn {} hc
  have hos : (cfg.draft (.condition c) {}).filterMap Stroke.occurrence? = c.occurrences {} :=
    cfg.occurrences_draft _ _
  have hparameters : (Part.condition c).parameters .postgres {} =
      (c.occurrences {}).map Occurrence.param := by
    have hfilter : (c.occurrences {}).filter (fun o => !o.param.inline) = c.occurrences {} :=
      List.filter_eq_self.2 fun o ho => by simp [(hplain o ho).2]
    exact congrArg _ hfilter
  refine ⟨φ, hφ, ?_, ?_⟩
  · obtain ⟨opened, hsettle, -⟩ := cfg.render_ok rfl hrender
    have hlex := cfg.lex_sql rfl rfl hrender
    rw [settle_spell view rfl rfl rfl (hos.symm ▸ hplain) hsettle, hmarks] at hlex
    exact hlex
  · have hunshared : ∀ p ∈ (Part.condition c).parameters .postgres {},
        p.Unshared cfg.settings.capabilities := by
      intro p hp _
      rw [hparameters] at hp
      obtain ⟨o, ho, rfl⟩ := List.mem_map.1 hp
      exact (hplain o ho).1
    have hparams := cfg.params_of_unshared rfl rfl hunshared hrender
    rw [← hmarks, Stroke.values_marks, hos, hparams]
    show (((Part.condition c).parameters .postgres {}).map Param.value).map view = _
    rw [hparameters, List.map_map, List.map_map]
    rfl

end

/-- **Conditions can be read back.** Let two conditions on columns, unnamed bind values and rows be
rendered to the same text and to the same bind values, as far as `view` can tell values apart. Then
they are the same formula. So no grouping, negation, bound or row is lost or merged in the text.
Viewed as they are, the bind values are equal; a view that takes `-0` for `0` compares them as
numbers. -/
theorem Condition.read_back {c c' : Condition} (hc : c.Plain) (hc' : c'.Plain) {r r' : Rendered}
    (h : SqlRender.render .postgres (.condition c) = .ok r)
    (h' : SqlRender.render .postgres (.condition c') = .ok r') (hsql : r.sql = r'.sql)
    (view : Value → α) (hparams : r.params.map view = r'.params.map view) :
    ∃ φ, c.formula? view = some φ ∧ c'.formula? view = some φ := by
  obtain ⟨φ, hφ, hlex, hvalues⟩ := render_spell view hc h
  obtain ⟨ψ, hψ, hlex', hvalues'⟩ := render_spell view hc' h'
  have hspell : Mark.spell 0 φ.marks = Mark.spell 0 ψ.marks := by
    rw [hsql, hlex'] at hlex
    exact (Option.some.inj hlex).symm
  have hmarks : φ.marks = ψ.marks :=
    Mark.spell_injective 0 φ.sign_not_mem ψ.sign_not_mem hspell
      (by rw [← hvalues, ← hvalues', hparams])
  exact ⟨φ, hφ, by rw [hψ, Formula.marks_injective hmarks]⟩

/-- `AND` between bounds and between conditions: the text does not say that the column of one of the
two conditions is typed, nor that its chain is the only member of another. -/
theorem Condition.read_back_untyped :
    let first (a : Column) : Condition :=
      .between (.column a) (.val (1 : Int64)) (.val (2 : Int64)) true false
    let second : Condition :=
      .not (.comparison (.row [.named "b", .qualified "t" "c"]) .eq (.row [.val "u", .val "v"]))
    let a : Column := { name := "a" }
    let c : Condition := .combined .and [first a, second]
    let c' : Condition := .combined .or [.combined .and [first (a.typed .integer), second]]
    let r : Rendered :=
      { sql := "(\"a\" NOT BETWEEN $1 AND $2 AND NOT ((\"b\", \"t\".\"c\") = ($3, $4)))"
        params := [.int 1, .int 2, .text "u", .text "v"] }
    SqlRender.render .postgres (.condition c) = .ok r ∧
    SqlRender.render .postgres (.condition c') = .ok r ∧
    ∃ φ, c.formula? id = some φ ∧ c'.formula? id = some φ := by
  intro first second a c c' r
  have h : SqlRender.render .postgres (.condition c) = .ok r :=
    Report.result_eq_ok (by decide +kernel)
  have h' : SqlRender.render .postgres (.condition c') = .ok r :=
    Report.result_eq_ok (by decide +kernel)
  have hsecond : second.Plain :=
    ⟨⟨trivial, trivial, trivial⟩, ⟨rfl, rfl⟩, ⟨rfl, rfl⟩, trivial⟩
  have hfirst : ∀ a, (first a).Plain := fun _ => ⟨trivial, ⟨rfl, rfl⟩, ⟨rfl, rfl⟩⟩
  have hc : c.Plain := ⟨hfirst a, hsecond, trivial⟩
  have hc' : c'.Plain := ⟨⟨hfirst _, hsecond, trivial⟩, trivial⟩
  exact ⟨h, h', Condition.read_back hc hc' h h' rfl id rfl⟩

end SqlRender
