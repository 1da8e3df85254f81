import SqlRender.Tree.Query

/-!
# Formulas can be read back

A condition without subqueries is written as a `Formula` of `Operand`s. Its text is ambiguous at
first sight: `AND` joins conditions and the bounds of `BETWEEN`, `NOT` stands in front of a group
and inside of a test, and parentheses hold groups, rows and lists:

```text
(a BETWEEN x AND y AND NOT (b))        chain of a test and a negation
(a, b) NOT BETWEEN (c, d) AND (e, f)   test of a row
```

It is not. `Formula.unique` says that the marks of a formula determine it, whatever stands behind
them. Every decision can be taken from the left: an operand ends where no dot follows
(`Operand.unique`), the words that lead a test are no prefixes of each other (`Lead.unique`), and
what opens a group is never what opens a row (`Operand.not_formula`), because behind an operand of a
row there is a comma or a parenthesis, and behind one of a formula the words of its test.

Bind values stand for themselves in marks; how they are numbered in a text is another matter.
-/

namespace SqlRender

/-! ## Marks -/

/-- A unit of text in which names and bind values stand for themselves. -/
inductive Mark (α : Type) where
  | code (c : Char)
  | ident (name : String)
  | value (v : α)

section

variable {α : Type}

/-- The marks of a text without names and values. -/
def codes (s : String) : List (Mark α) := s.toList.map .code

theorem codes_append (s t : String) : codes (α := α) (s ++ t) = codes s ++ codes t := by
  unfold codes
  rw [String.toList_append, List.map_append]

/-- Of two texts in front of marks that agree, one is a prefix of the other. -/
theorem codes_prefix {l l' : String} {s t : List (Mark α)} (h : codes l ++ s = codes l' ++ t) :
    l.toList <+: l'.toList ∨ l'.toList <+: l.toList := by
  have hinj : ∀ c d : Char, Mark.code (α := α) c = .code d → c = d := fun _ _ e => by cases e; rfl
  have hleft : ∀ {cs ds : List Char} {as : List (Mark α)},
      ds.map Mark.code = cs.map Mark.code ++ as → cs <+: ds := by
    intro cs ds as e
    obtain ⟨cs', ds', rfl, hcs, -⟩ := List.map_eq_append_iff.1 e
    rw [(List.map_inj_right hinj).1 hcs]
    exact List.prefix_append _ _
  rcases List.append_eq_append_iff.1 h with ⟨as, hl, -⟩ | ⟨as, hl, -⟩
  · exact .inl (hleft hl)
  · exact .inr (hleft hl)

/-- What may stand behind an operand or a formula: not a dot, which would continue a column. -/
def Follows (s : List (Mark α)) : Prop := s.head? ≠ some (.code '.')

theorem follows_nil : Follows ([] : List (Mark α)) := nofun

end

/-! ## Operands -/

/-- What is compared: a column, a bind value, or a row of operands. -/
inductive Operand (α : Type) where
  | column (qualifier : Option String) (name : String)
  | value (v : α)
  | row (first : Operand α) (rest : List (Operand α))

variable {α : Type}

mutual

/-- The marks of an operand. -/
def Operand.marks : Operand α → List (Mark α)
  | .column none name => [.ident name]
  | .column (some q) name => [.ident q, .code '.', .ident name]
  | .value v => [.value v]
  | .row first rest => .code '(' :: (first.marks ++ Operand.tailMarks rest)

/-- The marks of the further operands of a row, up to its end. -/
def Operand.tailMarks : List (Operand α) → List (Mark α)
  | [] => [.code ')']
  | a :: as => codes ", " ++ (a.marks ++ Operand.tailMarks as)

end

/-- Behind an operand of a row there is a comma or the end of the row. -/
def Separates (s : List (Mark α)) : Prop :=
  s.head? = some (.code ',') ∨ s.head? = some (.code ')')

theorem Separates.follows {s : List (Mark α)} (h : Separates s) : Follows s := by
  unfold Follows
  rcases h with h | h <;> rw [h] <;> simp

theorem Operand.separates_tail (as : List (Operand α)) (s : List (Mark α)) :
    Separates (tailMarks as ++ s) := by
  cases as with
  | nil => exact .inr rfl
  | cons a as => exact .inl rfl

/-- If an operand begins with a character, it is the parenthesis of a row. -/
theorem Operand.head_code {a : Operand α} {s : List (Mark α)} {c : Char}
    (h : (a.marks ++ s).head? = some (.code c)) : c = '(' := by
  match a with
  | .row _ _ =>
    cases h
    rfl
  | .column none _ | .column (some _) _ | .value _ => cases h

mutual

/-- **An operand can be read from the left.** -/
theorem Operand.unique : ∀ (a b : Operand α) {s t : List (Mark α)}, Follows s → Follows t →
    a.marks ++ s = b.marks ++ t → a = b ∧ s = t
  | .column none name, b, s, t, hs, _, h => by
    match b with
    | .column none _ =>
      cases h
      exact ⟨rfl, rfl⟩
    | .column (some _) _ =>
      cases h
      exact absurd rfl hs
    | .value _ | .row _ _ => cases h
  | .column (some _) name, b, s, t, _, ht, h => by
    match b with
    | .column none _ =>
      cases h
      exact absurd rfl ht
    | .column (some _) _ =>
      cases h
      exact ⟨rfl, rfl⟩
    | .value _ | .row _ _ => cases h
  | .value v, b, s, t, _, _, h => by
    match b with
    | .value _ =>
      cases h
      exact ⟨rfl, rfl⟩
    | .column none _ | .column (some _) _ | .row _ _ => cases h
  | .row first rest, b, s, t, _, _, h => by
    match b with
    | .row first' rest' =>
      have hinside : first.marks ++ (tailMarks rest ++ s) =
          first'.marks ++ (tailMarks rest' ++ t) := by
        simpa [marks, List.append_assoc] using h
      obtain ⟨rfl, htail⟩ := Operand.unique first first' (separates_tail rest s).follows
        (separates_tail rest' t).follows hinside
      obtain ⟨rfl, rfl⟩ := Operand.unique_tail rest rest' htail
      exact ⟨rfl, rfl⟩
    | .column none _ | .column (some _) _ | .value _ => cases h

/-- The further operands of a row can be read from the left. -/
theorem Operand.unique_tail : ∀ (as bs : List (Operand α)) {s t : List (Mark α)},
    tailMarks as ++ s = tailMarks bs ++ t → as = bs ∧ s = t
  | [], bs, s, t, h => by
    match bs with
    | [] =>
      cases h
      exact ⟨rfl, rfl⟩
    | _ :: _ => cases h
  | a :: as, bs, s, t, h => by
    match bs with
    | [] => cases h
    | b :: bs =>
      have hinside : a.marks ++ (tailMarks as ++ s) = b.marks ++ (tailMarks bs ++ t) := by
        simpa [tailMarks, List.append_assoc] using h
      obtain ⟨rfl, htail⟩ := Operand.unique a b (separates_tail as s).follows
        (separates_tail bs t).follows hinside
      obtain ⟨rfl, rfl⟩ := Operand.unique_tail as bs htail
      exact ⟨rfl, rfl⟩

end

/-! ## Tests -/

/-- How a test goes on behind its operand. -/
inductive Lead where
  | compare (op : Comparator)
  | null (negated : Bool)
  | among (negated : Bool)
  | between (negated : Bool)
deriving DecidableEq

namespace Lead

/-- Every lead. -/
def all : List Lead :=
  (Enumeration.values.map compare) ++
    [null false, null true, among false, among true, between false, between true]

theorem mem_all (l : Lead) : l ∈ all := by
  cases l with
  | compare op => cases op <;> decide
  | null negated | among negated | between negated => cases negated <;> decide

/-- The words of a lead. -/
def words : Lead → String
  | compare op => " " ++ op.sql ++ " "
  | null negated => if negated then " IS NOT NULL" else " IS NULL"
  | among negated => if negated then " NOT IN " else " IN "
  | between negated => if negated then " NOT BETWEEN " else " BETWEEN "

/-- The words of no lead are a prefix of those of another. -/
theorem eq_of_leads (l l' : Lead) (h : l.words.toList <+: l'.words.toList) : l = l' := by
  have hall : ∀ l ∈ all, ∀ l' ∈ all, l.words.toList <+: l'.words.toList → l = l' := by
    decide +kernel
  exact hall l (mem_all l) l' (mem_all l') h

/-- A lead can be read from the left. -/
theorem unique (l l' : Lead) {s t : List (Mark α)}
    (h : codes l.words ++ s = codes l'.words ++ t) : l = l' ∧ s = t := by
  have heq : l = l' := by
    rcases codes_prefix h with h | h
    · exact eq_of_leads l l' h
    · exact (eq_of_leads l' l h).symm
  subst heq
  exact ⟨rfl, List.append_cancel_left h⟩

end Lead

/-- What an operand is tested for. -/
inductive Test (α : Type) where
  | compare (op : Comparator) (operand : Operand α)
  | null (negated : Bool)
  | among (negated : Bool) (first : Operand α) (rest : List (Operand α))
  | between (negated symmetric : Bool) (low high : Operand α)

namespace Test

/-- The lead of a test. -/
def lead : Test α → Lead
  | compare op _ => .compare op
  | null negated => .null negated
  | among negated _ _ => .among negated
  | between negated _ _ _ => .between negated

/-- The marks of a test behind its lead. A list in parentheses looks like a row. -/
def content : Test α → List (Mark α)
  | compare _ operand => operand.marks
  | null _ => []
  | among _ first rest => (Operand.row first rest).marks
  | between _ symmetric low high =>
    codes (if symmetric then "SYMMETRIC " else "") ++ (low.marks ++ (codes " AND " ++ high.marks))

/-- The marks of a test. -/
def marks (t : Test α) : List (Mark α) := codes t.lead.words ++ t.content

/-- Behind the operand of a test there is a space. -/
theorem head?_marks (t : Test α) (s : List (Mark α)) :
    (t.marks ++ s).head? = some (.code ' ') := by
  have hwords : ∀ l : Lead, l.words.toList.head? = some ' ' := by
    intro l
    have hall : ∀ l ∈ Lead.all, l.words.toList.head? = some ' ' := by decide +kernel
    exact hall l (Lead.mem_all l)
  obtain ⟨cs, hcs⟩ := List.head?_eq_some_iff.1 (hwords t.lead)
  rw [marks, codes, hcs]
  rfl

theorem follows_marks (t : Test α) (s : List (Mark α)) : Follows (t.marks ++ s) := by
  unfold Follows
  rw [head?_marks]
  simp

/-- **A test can be read from the left.** -/
theorem unique (t t' : Test α) {s s' : List (Mark α)} (hs : Follows s) (hs' : Follows s')
    (h : t.marks ++ s = t'.marks ++ s') : t = t' ∧ s = s' := by
  unfold marks at h
  rw [List.append_assoc, List.append_assoc] at h
  obtain ⟨hlead, hcontent⟩ := Lead.unique _ _ h
  cases t with
  | compare op a =>
    cases t' <;> cases hlead
    obtain ⟨rfl, hrest⟩ := Operand.unique _ _ hs hs' hcontent
    exact ⟨rfl, hrest⟩
  | null negated =>
    cases t' <;> cases hlead
    exact ⟨rfl, hcontent⟩
  | among negated first rest =>
    cases t' <;> cases hlead
    obtain ⟨hrow, hrest⟩ := Operand.unique _ _ hs hs' hcontent
    cases hrow
    exact ⟨rfl, hrest⟩
  | between negated symmetric low high =>
    cases t' with
    | between _ symmetric' low' high' =>
      cases hlead
      simp only [content, List.append_assoc] at hcontent
      have hflag : symmetric = symmetric' := by
        -- no operand begins with a letter
        cases symmetric <;> cases symmetric'
        · rfl
        · have hhead := congrArg List.head? hcontent
          exact absurd (Operand.head_code hhead) (by decide)
        · have hhead := congrArg List.head? hcontent
          exact absurd (Operand.head_code hhead.symm) (by decide)
        · rfl
      subst hflag
      have hand : ∀ s, Follows (α := α) (codes " AND " ++ s) := fun _ => nofun
      obtain ⟨rfl, hbounds⟩ := Operand.unique low low' (hand _) (hand _)
        (List.append_cancel_left hcontent)
      obtain ⟨rfl, hrest⟩ := Operand.unique _ _ hs hs' (List.append_cancel_left hbounds)
      exact ⟨rfl, hrest⟩
    | compare | null | among => cases hlead

end Test

/-! ## Formulas -/

/-- A condition without subqueries, as it is written. A chain has at least two members. -/
inductive Formula (α : Type) where
  | constant (b : Bool)
  | not (φ : Formula α)
  | chain (op : Connective) (first second : Formula α) (rest : List (Formula α))
  | test (operand : Operand α) (t : Test α)

/-- A connective between two members of a chain. -/
def Connective.words (op : Connective) : String := " " ++ op.sql ++ " "

mutual

/-- The marks of a formula. -/
def Formula.marks : Formula α → List (Mark α)
  | .constant b => codes (if b then "1 = 1" else "1 = 0")
  | .not φ => codes "NOT (" ++ (φ.marks ++ [.code ')'])
  | .chain op first second rest =>
    .code '(' :: (first.marks ++
      (codes op.words ++ (second.marks ++ Formula.tailMarks op rest)))
  | .test operand t => operand.marks ++ t.marks

/-- The marks of the further members of a chain, up to its end. -/
def Formula.tailMarks (op : Connective) : List (Formula α) → List (Mark α)
  | [] => [.code ')']
  | φ :: φs => codes op.words ++ (φ.marks ++ Formula.tailMarks op φs)

end

theorem Connective.follows_words (op : Connective) (s : List (Mark α)) :
    Follows (codes op.words ++ s) := by
  cases op <;> exact nofun

theorem Connective.unique (op op' : Connective) {s t : List (Mark α)}
    (h : codes op.words ++ s = codes op'.words ++ t) : op = op' ∧ s = t := by
  cases op <;> cases op' <;> cases h <;> exact ⟨rfl, rfl⟩

theorem Formula.follows_tail (op : Connective) (φs : List (Formula α)) (s : List (Mark α)) :
    Follows (tailMarks op φs ++ s) := by
  cases φs with
  | nil => exact nofun
  | cons φ φs =>
    rw [tailMarks, List.append_assoc]
    exact op.follows_words _

/-- **What opens a row opens no group**: an operand of a row is never what a formula begins with. -/
theorem Operand.not_formula : ∀ (a : Operand α) (φ : Formula α) {s t : List (Mark α)},
    Separates s → a.marks ++ s ≠ φ.marks ++ t
  | a, .constant b, _, _, _, h => by
    have hhead := congrArg List.head? h
    cases b <;> exact absurd (head_code hhead) (by decide)
  | a, .not _, _, _, _, h => by
    have hhead := congrArg List.head? h
    exact absurd (head_code hhead) (by decide)
  | a, .test operand u, s, _, hs, h => by
    rw [Formula.marks, List.append_assoc] at h
    obtain ⟨-, rfl⟩ := Operand.unique a operand hs.follows (u.follows_marks _) h
    rcases hs with hs | hs <;> rw [u.head?_marks] at hs <;> cases hs
  | .row first rest, .chain op φ ψ φs, s, t, _, h => by
    have hinside : first.marks ++ (tailMarks rest ++ s) =
        φ.marks ++ (codes op.words ++ (ψ.marks ++ (Formula.tailMarks op φs ++ t))) := by
      simpa [marks, Formula.marks, List.append_assoc] using h
    exact Operand.not_formula first φ (separates_tail rest s) hinside
  | .column none _, .chain .., _, _, _, h => by cases h
  | .column (some _) _, .chain .., _, _, _, h => by cases h
  | .value _, .chain .., _, _, _, h => by cases h

/-- A chain is no test of a row. -/
theorem Formula.chain_ne_test {op : Connective} {φ ψ : Formula α} {φs : List (Formula α)}
    {operand : Operand α} {u : Test α} {s t : List (Mark α)} :
    (Formula.chain op φ ψ φs).marks ++ s ≠ (Formula.test operand u).marks ++ t := by
  intro h
  rw [marks, marks, List.append_assoc operand.marks] at h
  match operand with
  | .row first rest =>
    have hinside : first.marks ++ (Operand.tailMarks rest ++ (u.marks ++ t)) =
        φ.marks ++ (codes op.words ++ (ψ.marks ++ (tailMarks op φs ++ s))) := by
      simpa [Operand.marks, List.append_assoc] using h.symm
    exact Operand.not_formula first φ (Operand.separates_tail rest _) hinside
  | .column none _ | .column (some _) _ | .value _ => cases h

/-- A test begins with no letter and no digit. -/
theorem Formula.head_code_test {operand : Operand α} {u : Test α} {s : List (Mark α)} {c : Char}
    (h : ((Formula.test operand u).marks ++ s).head? = some (.code c)) : c = '(' := by
  rw [marks, List.append_assoc] at h
  exact Operand.head_code h

mutual

/-- **A formula can be read from the left**, so its marks determine it. -/
theorem Formula.unique : ∀ (φ ψ : Formula α) {s t : List (Mark α)}, Follows s → Follows t →
    φ.marks ++ s = ψ.marks ++ t → φ = ψ ∧ s = t
  | .constant b, ψ, s, t, _, _, h => by
    match ψ with
    | .constant b' => cases b <;> cases b' <;> cases h <;> exact ⟨rfl, rfl⟩
    | .not _ | .chain .. => cases b <;> cases h
    | .test _ _ =>
      have hhead := (congrArg List.head? h).symm
      cases b <;> exact absurd (head_code_test hhead) (by decide)
  | .not φ, ψ, s, t, _, _, h => by
    match ψ with
    | .not φ' =>
      have hinside : φ.marks ++ (.code ')' :: s) = φ'.marks ++ (.code ')' :: t) := by
        simpa [marks, List.append_assoc] using h
      have hclose : ∀ s, Follows (α := α) (.code ')' :: s) := fun _ => nofun
      obtain ⟨rfl, hrest⟩ := Formula.unique φ φ' (hclose s) (hclose t) hinside
      cases hrest
      exact ⟨rfl, rfl⟩
    | .constant b => cases b <;> cases h
    | .chain .. => cases h
    | .test _ _ =>
      have hhead := (congrArg List.head? h).symm
      exact absurd (head_code_test hhead) (by decide)
  | .chain op φ ψ φs, χ, s, t, _, _, h => by
    match χ with
    | .chain op' φ' ψ' φs' =>
      have hinside : φ.marks ++ (codes op.words ++ (ψ.marks ++ (tailMarks op φs ++ s))) =
          φ'.marks ++ (codes op'.words ++ (ψ'.marks ++ (tailMarks op' φs' ++ t))) := by
        simpa [marks, List.append_assoc] using h
      obtain ⟨rfl, hop⟩ := Formula.unique φ φ' (op.follows_words _) (op'.follows_words _) hinside
      obtain ⟨rfl, hsecond⟩ := op.unique op' hop
      obtain ⟨rfl, htail⟩ := Formula.unique ψ ψ' (follows_tail op φs s) (follows_tail op φs' t)
        hsecond
      obtain ⟨rfl, hrest⟩ := Formula.unique_tail op φs φs' htail
      exact ⟨rfl, hrest⟩
    | .constant b => cases b <;> cases h
    | .not _ => cases h
    | .test _ _ => exact absurd h chain_ne_test
  | .test operand u, ψ, s, t, hs, ht, h => by
    match ψ with
    | .test operand' u' =>
      rw [marks, marks, List.append_assoc, List.append_assoc] at h
      obtain ⟨rfl, htest⟩ := Operand.unique _ _ (u.follows_marks s) (u'.follows_marks t) h
      obtain ⟨rfl, hrest⟩ := Test.unique _ _ hs ht htest
      exact ⟨rfl, hrest⟩
    | .constant b =>
      have hhead := congrArg List.head? h
      cases b <;> exact absurd (head_code_test hhead) (by decide)
    | .not _ =>
      have hhead := congrArg List.head? h
      exact absurd (head_code_test hhead) (by decide)
    | .chain .. => exact absurd h.symm chain_ne_test

/-- The further members of a chain can be read from the left. -/
theorem Formula.unique_tail (op : Connective) : ∀ (φs ψs : List (Formula α))
    {s t : List (Mark α)}, tailMarks op φs ++ s = tailMarks op ψs ++ t → φs = ψs ∧ s = t
  | [], ψs, s, t, h => by
    match ψs with
    | [] =>
      cases h
      exact ⟨rfl, rfl⟩
    | _ :: _ => cases op <;> cases h
  | φ :: φs, ψs, s, t, h => by
    match ψs with
    | [] => cases op <;> cases h
    | ψ :: ψs =>
      simp only [tailMarks, List.append_assoc] at h
      have hinside : φ.marks ++ (tailMarks op φs ++ s) = ψ.marks ++ (tailMarks op ψs ++ t) :=
        List.append_cancel_left h
      obtain ⟨rfl, htail⟩ := Formula.unique φ ψ (follows_tail op φs s) (follows_tail op ψs t)
        hinside
      obtain ⟨rfl, hrest⟩ := Formula.unique_tail op φs ψs htail
      exact ⟨rfl, hrest⟩

end

/-- Two formulas with the same marks are the same. -/
theorem Formula.marks_injective {φ ψ : Formula α} (h : φ.marks = ψ.marks) : φ = ψ := by
  have happend : φ.marks ++ [] = ψ.marks ++ [] := by rw [h]
  exact (Formula.unique φ ψ follows_nil follows_nil happend).1

end SqlRender
