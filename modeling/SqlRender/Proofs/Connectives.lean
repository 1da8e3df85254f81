import Mathlib.Data.List.DropRight
import SqlRender.Layout.Statement

/-!
# What conditions mean

A condition is true, false or unknown, as `NULL` makes it. The tests are taken as they come: `leaf`
gives each of them any of the three values. `NOT` turns a value around, and a connective has a value
that decides it:

```text
            decided by      otherwise unknown by      otherwise      of nothing
  AND           no                unknown                yes            yes       1 = 1
  OR            yes               unknown                no             no        1 = 0
```

The builders join two conditions at a time, and grow the chain on their left where it has the same
connective (`Condition.combine_eq`). `Condition.builders_mean_connectives` says that this is a
matter of shape: whatever was built before, the two conditions are joined in meaning, with all
operands of the chain in their order.
-/

namespace SqlRender

/-! ## Three values -/

/-- The truth of a condition. -/
inductive Truth where
  | no | unknown | yes
deriving DecidableEq, Repr

/-- The truth of the opposite. -/
def Truth.not : Truth → Truth
  | no => yes
  | unknown => unknown
  | yes => no

namespace Connective

/-- The truth of an operand that decides a chain alone. -/
def decisive : Connective → Truth
  | and => .no
  | or => .yes

/-- The truth of a chain: decided by one operand, or else unknown because of one, or else the
opposite of what would have decided it. -/
def truth (op : Connective) (operands : List Truth) : Truth :=
  if op.decisive ∈ operands then op.decisive
  else if .unknown ∈ operands then .unknown
  else op.decisive.not

variable (op : Connective)

theorem decisive_ne_unknown : op.decisive ≠ .unknown := by
  cases op <;> decide

/-- A chain of one is as true as its operand. -/
@[simp] theorem truth_singleton (t : Truth) : op.truth [t] = t := by
  cases op <;> cases t <;> rfl

theorem truth_eq_decisive_iff (ts : List Truth) : op.truth ts = op.decisive ↔ op.decisive ∈ ts := by
  have hne : op.decisive.not ≠ op.decisive := by
    cases op <;> decide
  unfold truth
  split
  · next h => simp [h]
  · next h => split <;> simp [h, hne, op.decisive_ne_unknown.symm]

theorem truth_eq_unknown_iff (ts : List Truth) :
    op.truth ts = .unknown ↔ op.decisive ∉ ts ∧ .unknown ∈ ts := by
  have hne : op.decisive.not ≠ .unknown := by
    cases op <;> decide
  unfold truth
  split
  · next h => simp [h, op.decisive_ne_unknown]
  · next h => split <;> simp [*]

/-- Chains one behind the other are as true as the chain of the two. -/
theorem truth_append (ts us : List Truth) :
    op.truth (ts ++ us) = op.truth [op.truth ts, op.truth us] := by
  have hdecisive : op.decisive ∈ [op.truth ts, op.truth us] ↔ op.decisive ∈ ts ++ us := by
    simp [eq_comm (a := op.decisive), truth_eq_decisive_iff]
  have hunknown : op.decisive ∉ ts ++ us →
      (.unknown ∈ [op.truth ts, op.truth us] ↔ Truth.unknown ∈ ts ++ us) := by
    intro h
    rw [List.mem_append, not_or] at h
    simp [eq_comm (a := Truth.unknown), truth_eq_unknown_iff, h]
  by_cases h : op.decisive ∈ ts ++ us
  · rw [truth, if_pos h, truth, if_pos (hdecisive.2 h)]
  · have h' := mt hdecisive.1 h
    rw [truth, if_neg h, truth, if_neg h']
    simp only [hunknown h]

/-- A chain with an operand more. -/
theorem truth_concat (ts : List Truth) (t : Truth) :
    op.truth (ts ++ [t]) = op.truth [op.truth ts, t] := by
  rw [truth_append, truth_singleton]

end Connective

/-! ## The meaning of conditions -/

namespace Condition

mutual

/-- The truth of a condition whose tests are as true as `leaf` says. -/
def truth (leaf : Condition → Truth) : Condition → Truth
  | .not c => (c.truth leaf).not
  | .combined op conditions => op.truth (truths leaf conditions)
  | .comparison left op right => leaf (.comparison left op right)
  | .isNull f negated => leaf (.isNull f negated)
  | .isIn f values negated => leaf (.isIn f values negated)
  | .between f low high negated symmetric => leaf (.between f low high negated symmetric)
  | .exists q negated => leaf (.exists q negated)

/-- The truth of conditions, one by one. -/
def truths (leaf : Condition → Truth) : List Condition → List Truth
  | [] => []
  | c :: cs => c.truth leaf :: truths leaf cs

end

/-- The operands of a condition that is read as a chain of a connective. What is no such chain is
its own only operand. -/
def operands (op : Connective) : Condition → List Condition
  | .combined op' conditions => if op' = op then conditions else [.combined op' conditions]
  | c => [c]

mutual

/-- The operands of a condition that is read as a chain, with chains of the same connective read as
their operands, however deep they stand. -/
def flat (op : Connective) : Condition → List Condition
  | .combined op' conditions =>
    if op' = op then flats op conditions else [.combined op' conditions]
  | .not c => [.not c]
  | .comparison left op' right => [.comparison left op' right]
  | .isNull f negated => [.isNull f negated]
  | .isIn f values negated => [.isIn f values negated]
  | .between f low high negated symmetric => [.between f low high negated symmetric]
  | .exists q negated => [.exists q negated]

/-- The operands of conditions that are read as one chain. -/
def flats (op : Connective) : List Condition → List Condition
  | [] => []
  | c :: cs => c.flat op ++ flats op cs

end

theorem truths_eq_map (leaf : Condition → Truth) (cs : List Condition) :
    truths leaf cs = cs.map (truth leaf) := by
  induction cs with
  | nil => rfl
  | cons c cs ih => rw [truths, ih, List.map_cons]

theorem flats_eq_flatMap (op : Connective) (cs : List Condition) :
    flats op cs = cs.flatMap (flat op) := by
  induction cs with
  | nil => rfl
  | cons c cs ih => rw [flats, ih, List.flatMap_cons]

section

variable (op : Connective) (leaf : Condition → Truth)

theorem truth_combined (cs : List Condition) :
    (Condition.combined op cs).truth leaf = op.truth (cs.map (truth leaf)) := by
  rw [truth, truths_eq_map]

/-- A condition is as true as the chain of its operands. -/
theorem truth_operands (c : Condition) :
    op.truth ((c.operands op).map (truth leaf)) = c.truth leaf := by
  cases c with
  | combined op' conditions =>
    rw [operands]
    split
    · next h => rw [← truth_combined, h]
    · rw [List.map_singleton, Connective.truth_singleton]
  | _ => exact op.truth_singleton _

/-- The operands of a condition, read in full, are those of its operands. -/
theorem flats_operands (c : Condition) : (c.operands op).flatMap (flat op) = c.flat op := by
  cases c with
  | combined op' conditions =>
    rw [operands, flat]
    split
    · rw [flats_eq_flatMap]
    · next h => simp [flat, h]
  | _ => exact List.flatMap_singleton _ _

/-- **Joining two conditions makes one chain**, of the operands of the first and the second behind
them. -/
theorem combine_eq (a b : Condition) : combine op a b = .combined op (a.operands op ++ [b]) := by
  cases a with
  | combined op' conditions =>
    rw [combine, operands]
    split <;> rfl
  | _ => rfl

theorem truth_combine (a b : Condition) :
    (combine op a b).truth leaf = op.truth [a.truth leaf, b.truth leaf] := by
  rw [combine_eq, truth_combined, List.map_append, List.map_singleton, Connective.truth_concat,
    truth_operands]

theorem operands_combine (a b : Condition) :
    (combine op a b).operands op = a.operands op ++ [b] := by
  rw [combine_eq, operands, if_pos rfl]

theorem flat_combine (a b : Condition) : (combine op a b).flat op = a.flat op ++ b.flat op := by
  rw [← flats_operands, operands_combine, List.flatMap_append, flats_operands,
    List.flatMap_singleton]

end

end Condition

/-! ## Restricting a statement -/

/-- A call that restricts a statement. -/
inductive Restriction where
  /-- This condition and no other. -/
  | set (c : Condition)
  /-- A further condition. -/
  | add (c : Condition)

namespace Restriction

/-- The condition of a call. -/
def condition : Restriction → Condition
  | set c | add c => c

/-- Whether a call leaves the conditions before it in force. -/
def isAdd : Restriction → Bool
  | set _ => false
  | add _ => true

/-- The conditions that calls leave in force: that of the last call that sets the filter, if there
is one, and those of the calls behind it. -/
def inForce (calls : List Restriction) : List Condition :=
  ((calls.rdropWhile isAdd).getLast?.toList ++ calls.rtakeWhile isAdd).map condition

theorem inForce_concat_set (calls : List Restriction) (c : Condition) :
    inForce (calls ++ [set c]) = [c] := by
  have hset : ¬ isAdd (set c) = true := by simp [isAdd]
  simp [inForce, List.rdropWhile_concat_neg _ _ _ hset, List.rtakeWhile_concat_neg _ _ _ hset,
    condition]

theorem inForce_concat_add (calls : List Restriction) (c : Condition) :
    inForce (calls ++ [add c]) = inForce calls ++ [c] := by
  have hadd : isAdd (add c) = true := rfl
  simp [inForce, List.rdropWhile_concat_pos _ _ _ hadd, List.rtakeWhile_concat_pos _ _ _ hadd,
    condition]

end Restriction

/-- A kind of statement that has a filter, with the two ways to restrict it. -/
class Restricted (σ : Type) where
  filter : σ → Option Condition
  restrict : σ → Restriction → σ
  filter_set : ∀ s c, filter (restrict s (.set c)) = some c
  filter_add : ∀ s c, filter (restrict s (.add c)) = some (Condition.narrow (filter s) c)

instance : Restricted Select where
  filter s := s.filter
  restrict
    | s, .set c => s.setFilter c
    | s, .add c => s.addFilter c
  filter_set _ _ := rfl
  filter_add _ _ := rfl

instance : Restricted Update where
  filter u := u.filter
  restrict
    | u, .set c => u.setFilter c
    | u, .add c => u.addFilter c
  filter_set _ _ := rfl
  filter_add _ _ := rfl

instance : Restricted Delete where
  filter x := x.filter
  restrict
    | x, .set c => x.setFilter c
    | x, .add c => x.addFilter c
  filter_set _ _ := rfl
  filter_add _ _ := rfl

section

variable {σ : Type} [Restricted σ]

/-- The calls that make a filter: none, or one that sets it. -/
def Restricted.before (s : σ) : List Restriction := ((filter s).map Restriction.set).toList

/-- The filter that calls leave on a statement means the conjunction of the conditions in force, and
there is none only if there was none before and there is no call. -/
def Restricted.Conjoins (leaf : Condition → Truth) (s : σ) (calls : List Restriction) : Prop :=
  (filter (calls.foldl restrict s)).map (Condition.truth leaf) =
    if before s ++ calls = [] then none
    else some (Connective.and.truth
      ((Restriction.inForce (before s ++ calls)).map (Condition.truth leaf)))

theorem Restricted.conjoins (leaf : Condition → Truth) (s : σ) (calls : List Restriction) :
    Restricted.Conjoins leaf s calls := by
  unfold Restricted.Conjoins
  induction calls using List.reverseRecOn with
  | nil =>
    rw [List.foldl_nil, List.append_nil, before]
    cases filter s with
    | none => rfl
    | some c =>
      have hforce : Restriction.inForce [.set c] = [c] := Restriction.inForce_concat_set [] c
      simp [hforce]
  | append_singleton calls call ih =>
    have hcalls : before s ++ (calls ++ [call]) ≠ [] := by simp
    rw [List.foldl_append, if_neg hcalls, ← List.append_assoc, List.foldl_cons, List.foldl_nil]
    cases call with
    | set c =>
      rw [filter_set, Restriction.inForce_concat_set, List.map_singleton,
        Connective.truth_singleton]
      rfl
    | add c =>
      rw [filter_add, Restriction.inForce_concat_add, List.map_append, List.map_singleton]
      cases hfilter : filter (calls.foldl restrict s) with
      | none =>
        -- nothing is in force yet
        have hempty : before s ++ calls = [] := by
          rw [hfilter] at ih
          by_contra hne
          rw [if_neg hne] at ih
          cases ih
        have hforce : Restriction.inForce [] = [] := rfl
        simp [hempty, hforce, Condition.narrow]
      | some existing =>
        have hmean : existing.truth leaf = Connective.and.truth
            ((Restriction.inForce (before s ++ calls)).map (Condition.truth leaf)) := by
          rw [hfilter] at ih
          split at ih
          · cases ih
          · exact Option.some.inj ih
        rw [Connective.truth_concat, ← hmean, ← Condition.truth_combine]
        rfl

end

/-! ## The builders -/

/-- **The condition builders are the connectives.** Whatever the tests mean, and however two
conditions were built, `a.and b` means `a AND b`, `a.or b` means `a OR b` and a negation the
opposite. What is built is one chain: of the operands of `a`, read as a chain of the connective, and
`b` behind them. Read in full, with chains inside of chains of the same connective, its operands are
those of `a` and those of `b`.

A chain of nothing is written as what it means.

Calls that restrict a select, an update or a delete, one after the other, leave the conjunction of
the last condition that was set and of all that were added behind it. A filter that is there before
counts as set. There is no filter only if there was none before and there is no call. -/
theorem Condition.builders_mean_connectives (leaf : Condition → Truth) :
    (∀ a b : Condition,
      (a.and b).truth leaf = Connective.and.truth [a.truth leaf, b.truth leaf] ∧
      (a.or b).truth leaf = Connective.or.truth [a.truth leaf, b.truth leaf] ∧
      (Condition.not a).truth leaf = (a.truth leaf).not ∧
      a.and b = .combined .and (a.operands .and ++ [b]) ∧
      a.or b = .combined .or (a.operands .or ++ [b]) ∧
      (a.and b).flat .and = a.flat .and ++ b.flat .and ∧
      (a.or b).flat .or = a.flat .or ++ b.flat .or) ∧
    (∀ (d : Dialect) (op : Connective), (Condition.combined op []).body d =
      [.text (if op.truth [] = .yes then "1 = 1" else "1 = 0")]) ∧
    (∀ (s : Select) (calls : List Restriction), Restricted.Conjoins leaf s calls) ∧
    (∀ (u : Update) (calls : List Restriction), Restricted.Conjoins leaf u calls) ∧
    (∀ (x : Delete) (calls : List Restriction), Restricted.Conjoins leaf x calls) := by
  refine ⟨fun a b => ?_, fun d op => ?_, Restricted.conjoins leaf, Restricted.conjoins leaf,
    Restricted.conjoins leaf⟩
  · exact ⟨truth_combine .and leaf a b, truth_combine .or leaf a b, rfl, combine_eq .and a b,
      combine_eq .or a b, flat_combine .and a b, flat_combine .or a b⟩
  · have hnothing : (Condition.combined op []).body d = op.layout [] := by
      rw [Condition.body, Condition.visits]
    rw [hnothing]
    cases op <;> rfl

end SqlRender
